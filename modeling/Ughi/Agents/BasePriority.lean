import Ughi.Agents.QueueUniqueness
import Ughi.Agents.Starvation

/-!
# Base priorities

The base priority of an entry is the priority it was enqueued with.  A spawn
and a recovery enqueue the configured priority of the agent; a tick enqueues
the effective priority of the entry it just took out.  The two agree until an
entry has waited for its first boost, so a boost that is requeued stays with
the agent.
-/

namespace Ughi.Agents

open Ughi.Lib

theorem AgentPriority.raise_eq_self_iff (priority : AgentPriority)
    (boosts : Nat) :
    priority.raise boosts = priority ↔ priority = .critical ∨ boosts = 0 := by
  have bounded := priority.rank_le
  constructor
  · intro same
    have ranks := priority.rank_raise boosts
    rw [same] at ranks
    by_cases none : boosts = 0
    · exact .inr none
    · left
      apply rank_injective
      have top : AgentPriority.critical.rank = 4 := rfl
      omega
  · intro unmoved
    apply rank_injective
    rw [rank_raise]
    rcases unmoved with rfl | rfl
    · have top : AgentPriority.critical.rank = 4 := rfl
      omega
    · omega

namespace Runtime

/-- Every entry of a queue names an agent of a pool and has its configured
priority as base priority. -/
def BasedOn (agents : AgentPool) (scheduler : Scheduler) : Prop :=
  ∀ entry ∈ scheduler.queue, ∃ agent,
    agents.lookup entry.agentId = some agent ∧
      entry.basePriority = agent.priority

def BasesConfigured (rt : Runtime) : Prop :=
  BasedOn rt.agents rt.scheduler

/-- A tick hands an active agent back to the queue only when its entry has not
waited for a boost, or cannot be boosted. -/
def RequeuesUnboosted (rt : Runtime) : Call → Prop
  | .schedulerTick tie =>
      rt.running = true → ∀ entry rest,
        rt.scheduler.tick.dequeue tie = (some entry, rest) →
          ∀ agent, rt.agents.lookup entry.agentId = some agent →
            agent.isActive = true →
              agent.priority = .critical ∨ rt.scheduler.tick.age entry < 6
  | _ => True

/-- What the equivalence rests on: every call but a shutdown keeps it. -/
structure TickGround (rt : Runtime) : Prop where
  ofPool : rt.QueueOfPool
  within : rt.scheduler.Within
  aged : rt.scheduler.Aged

theorem aged_schedulerInvariant : SchedulerInvariant Scheduler.Aged where
  enqueued := by
    intro scheduler agentId priority aged
    exact aged.enqueue agentId priority
  ticked := by
    intro scheduler aged
    exact aged.tick
  dequeued := by
    intro scheduler tie entry rest aged popped
    exact (aged.dequeue popped).2
  removed := by
    intro scheduler agentId aged
    exact aged.remove agentId

theorem withConfig_tickGround (config : RuntimeConfig) :
    (withConfig config).TickGround where
  ofPool := withConfig_queueOfPool config
  within := Scheduler.new_within config.maxAgents
  aged := Scheduler.new_aged config.maxAgents

theorem serve_tickGround {rt : Runtime} (ground : rt.TickGround)
    (call : Call) (running : call ≠ .shutdown) :
    (rt.serve call).TickGround where
  ofPool := serve_queueOfPool ground.ofPool call running
  within := serve_within ground.within call
  aged := serve_kept aged_schedulerInvariant ground.aged call

theorem withConfig_basesConfigured (config : RuntimeConfig) :
    (withConfig config).BasesConfigured := by
  intro entry queued
  cases queued

section Steps

variable {rt : Runtime}

theorem BasesConfigured.replace {next : Runtime}
    (configured : rt.BasesConfigured) {id : String} {old agent : Agent}
    (found : rt.agents.lookup id = some old)
    (samePriority : agent.priority = old.priority)
    (pool : next.agents = rt.agents.insert id agent)
    (queue : ∀ entry ∈ next.scheduler.queue, entry ∈ rt.scheduler.queue ∨
      entry.agentId = id ∧ entry.basePriority = agent.priority) :
    next.BasesConfigured := by
  intro entry queued
  rw [pool, HashMap.lookup_insert_eq]
  by_cases same : entry.agentId = id
  · refine ⟨agent, if_pos same, ?_⟩
    rcases queue entry queued with before | ⟨_, base⟩
    · obtain ⟨other, lookup, base⟩ := configured entry before
      rw [same, found] at lookup
      cases lookup
      rw [base, samePriority]
    · exact base
  · rw [if_neg same]
    rcases queue entry queued with before | ⟨named, _⟩
    · exact configured entry before
    · exact absurd named same

theorem mem_of_mem_enqueue_queue {scheduler : Scheduler} {agentId : String}
    {priority : AgentPriority} {entry : SchedulerEntry}
    (queued : entry ∈ (scheduler.enqueue agentId priority).2.queue) :
    entry = .new agentId priority scheduler.currentTick ∨
      entry ∈ scheduler.queue := by
  unfold Scheduler.enqueue at queued
  split at queued
  · exact .inr queued
  · exact List.mem_cons.mp queued

theorem spawn_basesConfigured (configured : rt.BasesConfigured)
    (config : AgentConfig) (id : String) (now elapsedUs : Nat) :
    (rt.spawn config id now elapsedUs).2.BasesConfigured := by
  rcases rt.spawn_cases config id now elapsedUs with
    ⟨error, refused, _⟩ | ⟨_, fresh, _, spawned⟩
  · rwa [refused]
  · rw [spawned]
    intro entry queued
    rcases mem_of_mem_enqueue_queue queued with rfl | before
    · exact ⟨_, AList.lookup_insert _, rfl⟩
    · obtain ⟨agent, found, base⟩ := configured entry before
      have different : entry.agentId ≠ id := by
        intro same
        rw [same] at found
        exact fresh (HashMap.mem_of_lookup found)
      refine ⟨agent, ?_, base⟩
      rwa [HashMap.lookup_insert_eq, if_neg different]

theorem kill_basesConfigured (configured : rt.BasesConfigured)
    (id : String) (now : Nat) :
    (rt.kill id now).2.BasesConfigured := by
  rcases rt.kill_cases id now with ⟨error, refused⟩ | ⟨agent, _, killed⟩
  · rwa [refused]
  · rw [killed]
    intro entry queued
    obtain ⟨before, different⟩ := List.mem_filter.mp queued
    obtain ⟨other, found, base⟩ := configured entry before
    refine ⟨other, ?_, base⟩
    rwa [HashMap.lookup_erase_eq, if_neg (of_decide_eq_true different)]

theorem transitionAgent_basesConfigured (configured : rt.BasesConfigured)
    (id : String) (newState : AgentState) (now : Nat) :
    (rt.transitionAgent id newState now).2.BasesConfigured := by
  rcases rt.transitionAgent_cases id newState now with
    ⟨_, error, refused⟩ | ⟨agent, moved, found, accepted, result⟩
  · rwa [refused]
  · have samePriority : moved.priority = agent.priority := by
      rw [(Agent.transition_eq_ok accepted).2]
    rw [result]
    apply configured.replace found samePriority rfl
    intro entry queued
    dsimp only at queued
    split at queued
    · exact .inl (List.mem_of_mem_filter queued)
    · exact .inl queued

theorem recoverAgent_basesConfigured (configured : rt.BasesConfigured)
    (id : String) (now : Nat) :
    (rt.recoverAgent id now).2.BasesConfigured := by
  rcases rt.recoverAgent_cases id now with
    ⟨_, error, refused, _⟩ | ⟨agent, found, _, ⟨_, result⟩ | ⟨_, result⟩⟩
  · rwa [refused]
  · rw [result]
    apply configured.replace found _ rfl
    · intro entry queued
      exact .inl queued
    · rfl
  · rw [result]
    apply configured.replace found _ rfl
    · intro entry queued
      rcases mem_of_mem_enqueue_queue queued with rfl | before
      · exact .inr ⟨rfl, rfl⟩
      · exact .inl before
    · rfl

theorem BasesConfigured.of_writesTracker {next : Runtime}
    (configured : rt.BasesConfigured) (writes : rt.WritesTracker next) :
    next.BasesConfigured := by
  cases writes with
  | unchanged => exact configured
  | written found tracker systemMemory =>
      apply configured.replace found _ rfl
      · intro entry queued
        exact .inl queued
      · rfl

theorem BasedOn.tick {agents : AgentPool} {scheduler : Scheduler}
    (based : BasedOn agents scheduler) : BasedOn agents scheduler.tick := by
  intro entry queued
  rw [Scheduler.tick_queue] at queued
  obtain ⟨before, member, rfl⟩ := List.mem_map.mp queued
  rw [SchedulerEntry.wait_agentId, SchedulerEntry.wait_basePriority]
  exact based before member

theorem BasedOn.dequeue {agents : AgentPool} {scheduler rest : Scheduler}
    (based : BasedOn agents scheduler) {tie : Nat} {entry : SchedulerEntry}
    (popped : scheduler.dequeue tie = (some entry, rest)) :
    BasedOn agents rest ∧ ∃ owner,
      agents.lookup entry.agentId = some owner ∧
        entry.basePriority = owner.priority := by
  have bag := (Scheduler.dequeue_some popped).1
  constructor
  · intro other queued
    exact based other (bag.mem_iff.mpr (List.mem_cons_of_mem _ queued))
  · exact based entry (bag.mem_iff.mpr List.mem_cons_self)

/-- The requeued entry starts from the effective priority of the one taken
out, so that has to be the configured priority of an active owner. -/
theorem requeue_basedOn_iff {agents : AgentPool} {entry : SchedulerEntry}
    {rest : Scheduler} {owner : Agent}
    (room : rest.queue.length < rest.capacity)
    (based : BasedOn agents rest)
    (found : agents.lookup entry.agentId = some owner) :
    BasedOn agents (requeue agents entry rest).2 ↔
      (owner.isActive = true → entry.effectivePriority = owner.priority) := by
  constructor
  · intro next active
    have inQueue : SchedulerEntry.new entry.agentId
          entry.effectivePriority rest.currentTick ∈
        (requeue agents entry rest).2.queue := by
      rw [requeue, found]
      simp [active, Scheduler.enqueue, Nat.not_le.mpr room]
    obtain ⟨agent, lookup, base⟩ := next _ inQueue
    rw [SchedulerEntry.new_agentId, found] at lookup
    cases lookup
    exact base
  · intro unboosted other queued
    rcases requeue_cases agents entry rest with
      dropped | ⟨agent, lookup, active, enqueued⟩
    · rw [dropped] at queued
      exact based other queued
    · rw [enqueued] at queued
      rcases mem_of_mem_enqueue_queue queued with rfl | before
      · rw [found] at lookup
        cases lookup
        exact ⟨owner, found, unboosted active⟩
      · exact based other before

/-- The boosts of an aged entry show exactly from its sixth tick on. -/
theorem agedAt_unboosted_iff {now : Nat} {entry : SchedulerEntry}
    (aged : entry.AgedAt now) :
    entry.effectivePriority = entry.basePriority ↔
      entry.basePriority = .critical ∨ now - entry.enqueuedAtTick < 6 := by
  rw [aged.effectivePriority, AgentPriority.raise_eq_self_iff,
    Nat.div_eq_zero_iff]
  simp

theorem schedulerTick_basesConfigured_iff (ground : rt.TickGround)
    (configured : rt.BasesConfigured) (tie : Nat) :
    (rt.schedulerTick tie).BasesConfigured ↔
      rt.RequeuesUnboosted (.schedulerTick tie) := by
  rcases rt.schedulerTick_cases tie with
    ⟨stopped, unchanged⟩ | ⟨running, samePool, _, outcome⟩
  · rw [unchanged]
    refine iff_of_true configured ?_
    intro running
    rw [stopped] at running
    cases running
  · have ticked : BasedOn rt.agents rt.scheduler.tick := configured.tick
    rw [BasesConfigured, samePool]
    rcases outcome with ⟨empty, idle⟩ | ⟨entry, rest, popped, requeued⟩
    · rw [idle]
      refine iff_of_true ticked ?_
      intro _ entry rest popped
      have bag := (Scheduler.dequeue_some popped).1.length_eq
      rw [Scheduler.tick_queue_length, empty] at bag
      cases bag
    · obtain ⟨based, owner, found, base⟩ := ticked.dequeue popped
      have room := requeue_room ground.within popped
      have boosts :=
        agedAt_unboosted_iff (ground.aged.tick.dequeue popped).1
      rw [base] at boosts
      rw [requeued, requeue_basedOn_iff room based found, boosts]
      constructor
      · intro unboosted _ entry' rest' popped' agent lookup active
        rw [popped] at popped'
        cases popped'
        rw [found] at lookup
        cases lookup
        exact unboosted active
      · intro requeues active
        exact requeues running entry rest popped owner found active

theorem serve_basesConfigured_iff (ground : rt.TickGround)
    (configured : rt.BasesConfigured) (call : Call)
    (running : call ≠ .shutdown) :
    (rt.serve call).BasesConfigured ↔ rt.RequeuesUnboosted call := by
  cases call with
  | spawn config id now elapsedUs =>
      exact iff_of_true
        (spawn_basesConfigured configured config id now elapsedUs) trivial
  | kill id now =>
      exact iff_of_true (kill_basesConfigured configured id now) trivial
  | transitionAgent id newState now =>
      exact iff_of_true
        (transitionAgent_basesConfigured configured id newState now) trivial
  | recoverAgent id now =>
      exact iff_of_true (recoverAgent_basesConfigured configured id now)
        trivial
  | schedulerTick tie =>
      exact schedulerTick_basesConfigured_iff ground configured tie
  | agentAllocate id bytes =>
      refine iff_of_true ?_ trivial
      exact configured.of_writesTracker
        (rt.agentAllocate_writesTracker id bytes)
  | agentDeallocate id bytes =>
      refine iff_of_true ?_ trivial
      exact configured.of_writesTracker
        (rt.agentDeallocate_writesTracker id bytes)
  | shutdown => exact absurd rfl running

end Steps

/-- In a run without shutdown every queued entry has its configured base
priority throughout, exactly when no tick requeues a boosted entry of an
active agent. -/
theorem basesConfigured_throughout_iff (config : RuntimeConfig)
    (calls : List Call) (noShutdown : ∀ call ∈ calls, call ≠ .shutdown) :
    Throughout serve BasesConfigured (withConfig config) calls ↔
      EachCall serve RequeuesUnboosted (withConfig config) calls :=
  throughout_iff_eachCall
    (fun _ call running ground => serve_tickGround ground call running)
    (fun _ call running ground configured =>
      serve_basesConfigured_iff ground configured call running)
    noShutdown (withConfig_tickGround config)
    (withConfig_basesConfigured config)

/-- A working agent that is served on every tick keeps its base priority. -/
theorem basesConfigured_throughout_served :
    let calls : List Call :=
      [.spawn { goal := "first", priority := .low } "agent0000001" 0 0,
        .spawn { goal := "second", priority := .high } "agent0000002" 0 0,
        .transitionAgent "agent0000001" .planning 1,
        .transitionAgent "agent0000002" .planning 2, .schedulerTick 0,
        .schedulerTick 0, .kill "agent0000002" 3, .schedulerTick 0]
    (∀ call ∈ calls, call ≠ .shutdown) ∧
      (Throughout serve BasesConfigured (withConfig {}) calls ↔
        EachCall serve RequeuesUnboosted (withConfig {}) calls) :=
  ⟨by decide, basesConfigured_throughout_iff {} _ (by decide)⟩

/-- Two agents at work; the low one waits behind the critical one until that
one is killed, and is boosted on the tick that then serves it. -/
def boostedRun : List Call :=
  [.spawn { goal := "goal", priority := .critical } "agent0000001" 0 0,
    .spawn { goal := "goal", priority := .low } "agent0000002" 0 0,
    .transitionAgent "agent0000001" .planning 1,
    .transitionAgent "agent0000002" .planning 1,
    .schedulerTick 0, .schedulerTick 0, .schedulerTick 0, .schedulerTick 0,
    .schedulerTick 0, .kill "agent0000001" 2, .schedulerTick 0]

/-- The boost of the low agent has become its base priority. -/
theorem boost_becomes_base :
    ¬ ∀ (config : RuntimeConfig) (calls : List Call),
      (∀ call ∈ calls, call ≠ .shutdown) →
        (runCalls serve (withConfig config) calls).BasesConfigured := by
  intro claimed
  have configured := claimed {} boostedRun (by decide)
  have requeued : SchedulerEntry.new "agent0000002" .normal 6 ∈
      (runCalls serve (withConfig {}) boostedRun).scheduler.queue := by
    decide
  obtain ⟨agent, found, base⟩ := configured _ requeued
  have priority :
      ((runCalls serve (withConfig {}) boostedRun).agents.lookup
        "agent0000002").map Agent.priority = some .low := by
    decide
  have low := congrArg (Option.map Agent.priority) found
  rw [SchedulerEntry.new_agentId, priority] at low
  rw [← Option.some.inj low] at base
  cases base

end Runtime

end Ughi.Agents
