import Ughi.Agents.Pool

/-!
# Which live agents the scheduler can still reach

A live agent that no queue entry names is never dequeued again.  The runtime
loses agents in three ways: a tick drops the entry of an agent that is still
`Spawned`, a direct transition from `Crashed` to `Spawned` enqueues nothing,
and a recovery that meets a full queue has already respawned its agent.
`KeepsLiveQueued` excludes exactly these.
-/

namespace Ughi.Agents

open Ughi.Lib

namespace Runtime

/-- Every pooled agent that is neither completing nor crashed is queued. -/
def LiveAgentsQueued (rt : Runtime) : Prop :=
  ∀ id agent, rt.agents.lookup id = some agent → agent.isDone = false →
    id ∈ rt.scheduler.queuedIds

/-- The calls that lose no live agent from the queue. -/
def KeepsLiveQueued (rt : Runtime) : Call → Prop
  | .schedulerTick tie =>
      rt.running = true → ∀ entry rest,
        rt.scheduler.tick.dequeue tie = (some entry, rest) →
          ∀ agent, rt.agents.lookup entry.agentId = some agent →
            agent.state = .spawned → entry.agentId ∈ rest.queuedIds
  | .transitionAgent id newState _ =>
      newState = .spawned → ∀ agent, rt.agents.lookup id = some agent →
        agent.state = .crashed → id ∈ rt.scheduler.queuedIds
  | .recoverAgent id _ =>
      rt.scheduler.capacity ≤ rt.scheduler.queue.length →
        ∀ agent, rt.agents.lookup id = some agent →
          agent.state = .crashed → id ∈ rt.scheduler.queuedIds
  | _ => True

theorem withConfig_liveAgentsQueued (config : RuntimeConfig) :
    (withConfig config).LiveAgentsQueued := by
  intro id agent found
  simp [withConfig] at found

/-- Pooling an agent whose queue entries are kept preserves coverage exactly
when the new agent is done or queued. -/
theorem liveAgentsQueued_insert_iff {rt next : Runtime} {id : String}
    {agent : Agent} (covered : rt.LiveAgentsQueued)
    (pool : next.agents = rt.agents.insert id agent)
    (queue : ∀ other, other ≠ id → (other ∈ next.scheduler.queuedIds ↔
      other ∈ rt.scheduler.queuedIds)) :
    next.LiveAgentsQueued ↔
      (agent.isDone = false → id ∈ next.scheduler.queuedIds) := by
  constructor
  · intro nextCovered live
    exact nextCovered id agent (by rw [pool]; simp) live
  · intro queued other found lookup live
    rw [pool, HashMap.lookup_insert_eq] at lookup
    split at lookup
    next same =>
      subst other
      cases lookup
      exact queued live
    next different =>
      exact (queue other different).mpr (covered other found lookup live)

section Steps

variable {rt : Runtime}

theorem spawn_liveAgentsQueued (covered : rt.LiveAgentsQueued)
    (config : AgentConfig) (id : String) (now elapsedUs : Nat) :
    (rt.spawn config id now elapsedUs).2.LiveAgentsQueued := by
  rcases rt.spawn_cases config id now elapsedUs with
    ⟨error, refused, _⟩ | ⟨_, _, room, spawned⟩
  · rw [refused]
    exact covered
  · have added := (Scheduler.enqueue_of_room room id config.priority).2
    rw [spawned]
    refine (liveAgentsQueued_insert_iff covered rfl ?_).mpr ?_
    · intro other different
      simp [added, different]
    · intro _
      simp [added]

theorem kill_liveAgentsQueued (covered : rt.LiveAgentsQueued)
    (id : String) (now : Nat) :
    (rt.kill id now).2.LiveAgentsQueued := by
  rcases rt.kill_cases id now with ⟨error, refused⟩ | ⟨agent, _, killed⟩
  · rw [refused]
    exact covered
  · rw [killed]
    intro other found lookup live
    simp only [HashMap.lookup_erase_eq] at lookup
    split at lookup
    · cases lookup
    next different =>
      apply (Scheduler.mem_remove_queuedIds _ _).mpr
      exact ⟨covered other found lookup live, different⟩

theorem transitionAgent_liveAgentsQueued_iff (covered : rt.LiveAgentsQueued)
    (id : String) (newState : AgentState) (now : Nat) :
    (rt.transitionAgent id newState now).2.LiveAgentsQueued ↔
      rt.KeepsLiveQueued (.transitionAgent id newState now) := by
  rcases rt.transitionAgent_cases id newState now with
    ⟨forbidden, error, refused⟩ | ⟨agent, moved, found, accepted, result⟩
  · rw [refused]
    refine ⟨?_, fun _ => covered⟩
    rintro _ rfl agent found crashed
    have never := forbidden agent found
    rw [crashed] at never
    exact absurd never (by decide)
  · obtain ⟨allowed, movedEq⟩ := Agent.transition_eq_ok accepted
    have sameQueue : ∀ other, other ≠ id →
        (other ∈ (rt.transitionAgent id newState now).2.scheduler.queuedIds ↔
          other ∈ rt.scheduler.queuedIds) := by
      intro other different
      rw [result]
      dsimp only
      split
      · rw [Scheduler.mem_remove_queuedIds]
        simp [different]
      · exact Iff.rfl
    have pool : (rt.transitionAgent id newState now).2.agents =
        rt.agents.insert id moved := by rw [result]
    rw [liveAgentsQueued_insert_iff covered pool sameQueue, result, movedEq]
    constructor
    · rintro queued rfl other lookup crashed
      exact queued rfl
    · intro keeps live
      cases newState with
      | completing => simp [Agent.isDone] at live
      | crashed => simp [Agent.isDone] at live
      | spawned =>
          exact keeps rfl agent found
            (AgentState.canTransitionTo_spawned allowed)
      | _ =>
          -- The agent was live before, so it was queued before.
          apply covered id agent found
          cases state : agent.state <;>
            simp [Agent.isDone, state, AgentState.canTransitionTo] at allowed ⊢

theorem recoverAgent_liveAgentsQueued_iff (covered : rt.LiveAgentsQueued)
    (id : String) (now : Nat) :
    (rt.recoverAgent id now).2.LiveAgentsQueued ↔
      rt.KeepsLiveQueued (.recoverAgent id now) := by
  rcases rt.recoverAgent_cases id now with
    ⟨notCrashed, error, refused, _⟩ | ⟨agent, found, crashed, outcome⟩
  · rw [refused]
    refine ⟨?_, fun _ => covered⟩
    intro _ _ agent found crashed
    exact absurd crashed (notCrashed agent found)
  · rcases outcome with ⟨full, result⟩ | ⟨room, result⟩
    · have pool : (rt.recoverAgent id now).2.agents =
          rt.agents.insert id (respawn agent now) := by rw [result]
      rw [liveAgentsQueued_insert_iff covered pool (by simp [result]), result]
      constructor
      · intro queued _ other lookup _
        exact queued rfl
      · intro keeps _
        exact keeps full agent found crashed
    · have added := (Scheduler.enqueue_of_room room id agent.priority).2
      have pool : (rt.recoverAgent id now).2.agents =
          rt.agents.insert id (respawn agent now) := by rw [result]
      have sameQueue : ∀ other, other ≠ id →
          (other ∈ (rt.recoverAgent id now).2.scheduler.queuedIds ↔
            other ∈ rt.scheduler.queuedIds) := by
        intro other different
        simp [result, added, different]
      rw [liveAgentsQueued_insert_iff covered pool sameQueue]
      constructor
      · intro _ full
        exact absurd full (Nat.not_le.mpr room)
      · intro _ _
        simp [result, added]

theorem requeue_room {rest : Scheduler} {entry : SchedulerEntry} {tie : Nat}
    (within : rt.scheduler.Within)
    (popped : rt.scheduler.tick.dequeue tie = (some entry, rest)) :
    rest.queue.length < rest.capacity := by
  obtain ⟨permutation, sameCapacity⟩ := Scheduler.dequeue_some popped
  have length := permutation.length_eq
  rw [Scheduler.tick_queue_length, List.length_cons] at length
  rw [sameCapacity, Scheduler.tick_capacity]
  unfold Scheduler.Within at within
  omega

/-- What a requeue leaves queued: the remaining entries, and the dequeued
agent when it is active. -/
theorem mem_requeue_queuedIds {rest : Scheduler} {entry : SchedulerEntry}
    (room : rest.queue.length < rest.capacity) {agents : AgentPool}
    {id : String} :
    id ∈ (requeue agents entry rest).2.queuedIds ↔
      id ∈ rest.queuedIds ∨
        id = entry.agentId ∧
          ∃ agent, agents.lookup entry.agentId = some agent ∧
            agent.isActive = true := by
  unfold requeue
  cases found : agents.lookup entry.agentId with
  | none => simp
  | some agent =>
      cases active : agent.isActive with
      | false => simp [active]
      | true =>
          have added := (Scheduler.enqueue_of_room room entry.agentId
            entry.effectivePriority).2
          simp [active, added, or_comm]

theorem schedulerTick_liveAgentsQueued_iff (covered : rt.LiveAgentsQueued)
    (within : rt.scheduler.Within) (tie : Nat) :
    (rt.schedulerTick tie).LiveAgentsQueued ↔
      rt.KeepsLiveQueued (.schedulerTick tie) := by
  rcases rt.schedulerTick_cases tie with
    ⟨stopped, unchanged⟩ | ⟨running, samePool, _, outcome⟩
  · rw [unchanged]
    refine ⟨?_, fun _ => covered⟩
    intro _ running
    rw [stopped] at running
    cases running
  · rcases outcome with ⟨empty, ticked⟩ | ⟨entry, rest, popped, requeued⟩
    · constructor
      · intro _ _ entry rest popped
        have shrunk := (Scheduler.dequeue_some popped).1.length_eq
        rw [Scheduler.tick_queue_length, empty] at shrunk
        simp at shrunk
      · intro _ id agent found live
        rw [ticked, Scheduler.tick_queuedIds]
        exact covered id agent (samePool ▸ found) live
    · have room := requeue_room within popped
      have split := Scheduler.dequeue_some_queuedIds popped
      rw [Scheduler.tick_queuedIds] at split
      constructor
      · intro nextCovered _ entry' rest' popped' agent found spawned
        rw [popped] at popped'
        cases popped'
        have live : agent.isDone = false := by simp [Agent.isDone, spawned]
        have queued := nextCovered entry.agentId agent
          (samePool.symm ▸ found) live
        rw [requeued, mem_requeue_queuedIds room] at queued
        rcases queued with kept | ⟨_, other, lookup, active⟩
        · exact kept
        · rw [found] at lookup
          cases lookup
          simp [Agent.isActive, spawned] at active
      · intro keeps id agent found live
        rw [samePool] at found
        rw [requeued, mem_requeue_queuedIds room]
        rcases List.mem_cons.mp
            (split.mem_iff.mp (covered id agent found live)) with rfl | kept
        · cases active : agent.isActive with
          | true => exact .inr ⟨rfl, agent, found, active⟩
          | false =>
              have spawned :=
                Agent.spawned_of_not_isDone_of_not_isActive live active
              exact .inl (keeps running entry rest popped agent found spawned)
        · exact .inl kept

theorem LiveAgentsQueued.of_writesTracker {next : Runtime}
    (covered : rt.LiveAgentsQueued) (writes : rt.WritesTracker next) :
    next.LiveAgentsQueued := by
  cases writes with
  | unchanged => exact covered
  | @written id agent found tracker systemMemory =>
      apply (liveAgentsQueued_insert_iff covered rfl (by simp)).mpr
      intro live
      exact covered id agent found live

theorem serve_liveAgentsQueued_iff (covered : rt.LiveAgentsQueued)
    (within : rt.scheduler.Within) (call : Call) :
    (rt.serve call).LiveAgentsQueued ↔ rt.KeepsLiveQueued call := by
  cases call with
  | spawn config id now elapsedUs =>
      exact iff_of_true
        (spawn_liveAgentsQueued covered config id now elapsedUs) trivial
  | kill id now =>
      exact iff_of_true (kill_liveAgentsQueued covered id now) trivial
  | transitionAgent id newState now =>
      exact transitionAgent_liveAgentsQueued_iff covered id newState now
  | recoverAgent id now =>
      exact recoverAgent_liveAgentsQueued_iff covered id now
  | schedulerTick tie =>
      exact schedulerTick_liveAgentsQueued_iff covered within tie
  | agentAllocate id bytes =>
      exact iff_of_true
        (covered.of_writesTracker (rt.agentAllocate_writesTracker id bytes))
        trivial
  | agentDeallocate id bytes =>
      exact iff_of_true
        (covered.of_writesTracker (rt.agentDeallocate_writesTracker id bytes))
        trivial
  | shutdown =>
      refine iff_of_true ?_ trivial
      intro id agent found
      simp [serve, shutdown] at found

theorem serve_within (within : rt.scheduler.Within) (call : Call) :
    (rt.serve call).scheduler.Within :=
  serve_kept within_schedulerInvariant within call

end Steps

/-- In a run of any calls, no live agent is ever missing from the queue
exactly when every call is one of `KeepsLiveQueued`. -/
theorem liveAgentsQueued_throughout_iff (config : RuntimeConfig)
    (calls : List Call) :
    Throughout serve LiveAgentsQueued (withConfig config) calls ↔
      EachCall serve KeepsLiveQueued (withConfig config) calls :=
  throughout_iff_eachCall
    (fun _ call _ within => serve_within within call)
    (fun _ call _ within covered =>
      serve_liveAgentsQueued_iff covered within call)
    (fun _ _ => trivial)
    (Scheduler.new_within config.maxAgents)
    (withConfig_liveAgentsQueued config)

/-- One tick right after a spawn loses the agent: it stays live, goes on to
plan, and no entry names it. -/
theorem spawned_agent_lost :
    ¬ ∀ (config : RuntimeConfig) (calls : List Call),
      (∀ call ∈ calls, call ≠ .shutdown) →
        (runCalls serve (withConfig config) calls).LiveAgentsQueued := by
  intro claimed
  have covered := claimed { maxAgents := 2 }
    [.spawn { goal := "goal" } "agent0000001" 0 0, .schedulerTick 0,
      .transitionAgent "agent0000001" .planning 1] (by decide)
  have queued := covered "agent0000001"
    { id := "agent0000001", goal := "goal", parentId := none
      state := .planning, priority := .normal, memoryModel := {}
      memoryTracker := .new (140 * 1024 * 1024), capabilities := []
      createdAt := 0, lastActive := 1, transitionCount := 1 } rfl rfl
  exact absurd queued (by decide)

end Runtime

end Ughi.Agents
