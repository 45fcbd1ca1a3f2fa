import Ughi.Agents.QueueUniqueness

/-!
# No dangling queue entries

The pool and the queue are separate structures.  `QueueOfPool` already says
that the queue names pooled agents only; here the same is shown for the state
of those agents: whoever is completing has left the queue, because completion
removes its entries and nothing enqueues it afterwards.
-/

namespace Ughi.Agents

open Ughi.Lib

namespace Runtime

/-- No queued entry names an agent that is completing. -/
def CompletingUnqueued (rt : Runtime) : Prop :=
  ∀ id agent, rt.agents.lookup id = some agent → agent.state = .completing →
    id ∉ rt.scheduler.queuedIds

/-- The queue names pooled agents only, none of them completing, and the pool
is within its limit. -/
structure NoDangling (rt : Runtime) : Prop where
  pooled : ∀ id ∈ rt.scheduler.queuedIds, id ∈ rt.agents
  poolWithinLimit : HashMap.size rt.agents ≤ rt.config.maxAgents
  completingUnqueued : rt.CompletingUnqueued

theorem withConfig_completingUnqueued (config : RuntimeConfig) :
    (withConfig config).CompletingUnqueued := by
  intro id agent found
  simp [withConfig] at found

section Steps

variable {rt : Runtime}

/-- Pooling an agent that is not completing keeps completing agents out of the
queue, when nobody else enters it. -/
theorem CompletingUnqueued.insert {next : Runtime}
    (unqueued : rt.CompletingUnqueued) {id : String} {agent : Agent}
    (pool : next.agents = rt.agents.insert id agent)
    (queue : ∀ other ∈ next.scheduler.queuedIds, other ≠ id →
      other ∈ rt.scheduler.queuedIds)
    (added : agent.state = .completing → id ∉ next.scheduler.queuedIds) :
    next.CompletingUnqueued := by
  intro other found lookup completing
  rw [pool, HashMap.lookup_insert_eq] at lookup
  by_cases same : other = id
  · subst other
    rw [if_pos rfl, Option.some_inj] at lookup
    subst lookup
    exact added completing
  · rw [if_neg same] at lookup
    intro queued
    exact unqueued other found lookup completing (queue other queued same)

theorem CompletingUnqueued.shrink {next : Runtime}
    (unqueued : rt.CompletingUnqueued)
    (pool : ∀ id agent, next.agents.lookup id = some agent →
      rt.agents.lookup id = some agent)
    (queue : ∀ id ∈ next.scheduler.queuedIds, id ∈ rt.scheduler.queuedIds) :
    next.CompletingUnqueued := by
  intro id agent found completing queued
  exact unqueued id agent (pool id agent found) completing (queue id queued)

theorem spawn_completingUnqueued (unqueued : rt.CompletingUnqueued)
    (config : AgentConfig) (id : String) (now elapsedUs : Nat) :
    (rt.spawn config id now elapsedUs).2.CompletingUnqueued := by
  rcases rt.spawn_cases config id now elapsedUs with
    ⟨error, refused, _⟩ | ⟨_, _, _, spawned⟩
  · rwa [refused]
  · rw [spawned]
    apply unqueued.insert rfl
    · intro other queued different
      exact (Scheduler.mem_of_mem_enqueue queued).resolve_left different
    · intro completing
      cases completing

theorem kill_completingUnqueued (unqueued : rt.CompletingUnqueued)
    (id : String) (now : Nat) :
    (rt.kill id now).2.CompletingUnqueued := by
  rcases rt.kill_cases id now with ⟨error, refused⟩ | ⟨agent, _, killed⟩
  · rwa [refused]
  · rw [killed]
    apply unqueued.shrink
    · intro other found lookup
      rw [HashMap.lookup_erase_eq] at lookup
      split at lookup
      · cases lookup
      · exact lookup
    · intro other queued
      exact ((Scheduler.mem_remove_queuedIds _ _).mp queued).1

theorem transitionAgent_completingUnqueued
    (unqueued : rt.CompletingUnqueued) (id : String) (newState : AgentState)
    (now : Nat) :
    (rt.transitionAgent id newState now).2.CompletingUnqueued := by
  rcases rt.transitionAgent_cases id newState now with
    ⟨_, error, refused⟩ | ⟨agent, moved, _, accepted, result⟩
  · rwa [refused]
  · obtain ⟨_, movedEq⟩ := Agent.transition_eq_ok accepted
    rw [result]
    by_cases completing : newState = .completing
    · -- The only way into `Completing` takes every entry along.
      apply unqueued.insert rfl
      · intro other queued _
        rw [if_pos completing, Scheduler.mem_remove_queuedIds] at queued
        exact queued.1
      · intro _ queued
        rw [if_pos completing, Scheduler.mem_remove_queuedIds] at queued
        exact queued.2 rfl
    · apply unqueued.insert rfl
      · intro other queued _
        rwa [if_neg completing] at queued
      · intro inState
        rw [movedEq] at inState
        exact absurd inState completing

theorem recoverAgent_completingUnqueued
    (unqueued : rt.CompletingUnqueued) (id : String) (now : Nat) :
    (rt.recoverAgent id now).2.CompletingUnqueued := by
  rcases rt.recoverAgent_cases id now with
    ⟨_, error, refused, _⟩ | ⟨agent, _, _, ⟨_, result⟩ | ⟨_, result⟩⟩
  · rwa [refused]
  · rw [result]
    apply unqueued.insert rfl
    · intro other queued _
      exact queued
    · intro completing
      cases completing
  · rw [result]
    apply unqueued.insert rfl
    · intro other queued different
      exact (Scheduler.mem_of_mem_enqueue queued).resolve_left different
    · intro completing
      cases completing

/-- A requeue puts back an entry that was there, so a tick names nobody
new. -/
theorem mem_of_mem_schedulerTick {tie : Nat} {id : String}
    (queued : id ∈ (rt.schedulerTick tie).scheduler.queuedIds) :
    id ∈ rt.scheduler.queuedIds := by
  rcases rt.schedulerTick_cases tie with
    ⟨_, unchanged⟩ | ⟨_, _, _, ⟨_, ticked⟩ | ⟨entry, rest, popped, requeued⟩⟩
  · rwa [unchanged] at queued
  · rwa [ticked, Scheduler.tick_queuedIds] at queued
  · have bag := Scheduler.dequeue_some_queuedIds popped
    rw [Scheduler.tick_queuedIds] at bag
    rw [requeued] at queued
    apply bag.mem_iff.mpr
    rcases requeue_cases rt.agents entry rest with
      dropped | ⟨agent, _, _, enqueued⟩
    · rw [dropped] at queued
      exact List.mem_cons_of_mem _ queued
    · rw [enqueued] at queued
      exact List.mem_cons.mpr (Scheduler.mem_of_mem_enqueue queued)

theorem CompletingUnqueued.of_writesTracker {next : Runtime}
    (unqueued : rt.CompletingUnqueued) (writes : rt.WritesTracker next) :
    next.CompletingUnqueued := by
  cases writes with
  | unchanged => exact unqueued
  | @written id agent found tracker systemMemory =>
      apply unqueued.insert rfl
      · intro other queued _
        exact queued
      · intro completing
        exact unqueued id agent found completing

theorem serve_completingUnqueued (unqueued : rt.CompletingUnqueued)
    (call : Call) : (rt.serve call).CompletingUnqueued := by
  cases call with
  | spawn config id now elapsedUs =>
      exact spawn_completingUnqueued unqueued config id now elapsedUs
  | kill id now => exact kill_completingUnqueued unqueued id now
  | transitionAgent id newState now =>
      exact transitionAgent_completingUnqueued unqueued id newState now
  | recoverAgent id now =>
      exact recoverAgent_completingUnqueued unqueued id now
  | schedulerTick tie =>
      apply unqueued.shrink
      · intro id agent found
        rwa [serve, schedulerTick_agents] at found
      · intro id queued
        exact mem_of_mem_schedulerTick queued
  | agentAllocate id bytes =>
      exact unqueued.of_writesTracker (rt.agentAllocate_writesTracker id bytes)
  | agentDeallocate id bytes =>
      exact unqueued.of_writesTracker
        (rt.agentDeallocate_writesTracker id bytes)
  | shutdown =>
      intro id agent found
      simp [serve, shutdown] at found

theorem kill_ok_gone {id : String} {now : Nat} {snapshot : AgentSnapshot}
    (killed : (rt.kill id now).1 = .ok snapshot) :
    id ∉ (rt.kill id now).2.agents ∧
      id ∉ (rt.kill id now).2.scheduler.queuedIds := by
  rcases rt.kill_cases id now with ⟨error, refused⟩ | ⟨agent, _, result⟩
  · rw [refused] at killed
    cases killed
  · rw [result]
    constructor
    · simp [AList.mem_erase]
    · intro queued
      exact ((Scheduler.mem_remove_queuedIds _ _).mp queued).2 rfl

end Steps

/-- After every run without shutdown no queue entry dangles, and a kill that
succeeds clears both structures of its agent. -/
theorem noDangling_afterRun (config : RuntimeConfig) (calls : List Call)
    (noShutdown : ∀ call ∈ calls, call ≠ .shutdown) :
    let reached := runCalls serve (withConfig config) calls
    reached.NoDangling ∧
      ∀ id now snapshot, (reached.kill id now).1 = .ok snapshot →
        id ∉ (reached.kill id now).2.agents ∧
          id ∉ (reached.kill id now).2.scheduler.queuedIds := by
  have each : EachCall serve (fun _ call => call ≠ .shutdown)
      (withConfig config) calls :=
    eachCall_of_forall_mem (fun _ => noShutdown)
  have preserved : ∀ rt call, QueueOfPool rt ∧ CompletingUnqueued rt →
      call ≠ .shutdown →
        (rt.serve call).QueueOfPool ∧ (rt.serve call).CompletingUnqueued := by
    intro rt call kept running
    obtain ⟨ofPool, unqueued⟩ := kept
    exact ⟨serve_queueOfPool ofPool call running,
      serve_completingUnqueued unqueued call⟩
  have start : (withConfig config).QueueOfPool ∧
      (withConfig config).CompletingUnqueued :=
    ⟨withConfig_queueOfPool config, withConfig_completingUnqueued config⟩
  obtain ⟨ofPool, unqueued⟩ := invariant_of_eachCall preserved start each
  refine ⟨⟨ofPool.pooled, ofPool.poolWithinLimit, unqueued⟩, ?_⟩
  intro id now snapshot killed
  exact kill_ok_gone killed

/-- Nothing dangles after an agent has completed and another one was killed
in the middle of its work. -/
theorem noDangling_afterCompletion :
    let calls : List Call :=
      [.spawn { goal := "goal" } "agent0000001" 0 0,
        .spawn { goal := "goal" } "agent0000002" 0 0,
        .transitionAgent "agent0000001" .planning 1,
        .transitionAgent "agent0000001" .thinking 2,
        .transitionAgent "agent0000001" .completing 3,
        .schedulerTick 0, .kill "agent0000002" 4]
    (∀ call ∈ calls, call ≠ .shutdown) ∧
      (runCalls serve (withConfig {}) calls).NoDangling :=
  ⟨by decide, (noDangling_afterRun {} _ (by decide)).1⟩

end Runtime

end Ughi.Agents
