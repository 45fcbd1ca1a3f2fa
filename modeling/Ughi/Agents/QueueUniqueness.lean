import Ughi.Agents.QueueCoverage

/-!
# One queue entry for each agent

`enqueue` never looks for an entry the agent already has, and a crash leaves
the entry of the agent in the queue.  Recovering a crashed agent that is still
queued is the only call that breaks uniqueness, and with it the bound of the
queue by the pool and the room every enqueue relies on.
-/

namespace Ughi.Agents

open Ughi.Lib

namespace Runtime

/-- Queued agents are pairwise distinct, so the queue is no longer than the
pool, and the pool stays within its limit. -/
structure SingleEntries (rt : Runtime) : Prop where
  distinct : rt.scheduler.queuedIds.Nodup
  queueWithinPool : rt.scheduler.queue.length ≤ HashMap.size rt.agents
  poolWithinLimit : HashMap.size rt.agents ≤ rt.config.maxAgents

/-- The enqueue inside the call does not find the queue full. -/
def EnqueueAccepted (rt : Runtime) : Call → Prop
  | .spawn config id now elapsedUs =>
      ∀ capacity, (rt.spawn config id now elapsedUs).1 ≠
        .error (.schedulerFull capacity)
  | .recoverAgent id now =>
      ∀ capacity, (rt.recoverAgent id now).1 ≠
        .error (.schedulerFull capacity)
  | .schedulerTick tie =>
      ∀ entry rest, rt.scheduler.tick.dequeue tie = (some entry, rest) →
        ∀ capacity, (requeue rt.agents entry rest).1 ≠
          .error (.schedulerFull capacity)
  | _ => True

/-- A recovery of a crashed agent finds no entry of it in the queue. -/
def RecoversUnqueued (rt : Runtime) : Call → Prop
  | .recoverAgent id _ =>
      ∀ agent, rt.agents.lookup id = some agent → agent.state = .crashed →
        id ∉ rt.scheduler.queuedIds
  | _ => True

/-- The queue names pooled agents only, and is sized by the pool limit. -/
structure QueueOfPool (rt : Runtime) : Prop where
  pooled : ∀ id ∈ rt.scheduler.queuedIds, id ∈ rt.agents
  capacity : rt.scheduler.capacity = rt.config.maxAgents
  poolWithinLimit : HashMap.size rt.agents ≤ rt.config.maxAgents

theorem withConfig_queueOfPool (config : RuntimeConfig) :
    (withConfig config).QueueOfPool where
  pooled := by simp [withConfig]
  capacity := rfl
  poolWithinLimit := by simp [withConfig]

theorem QueueOfPool.singleEntries {rt : Runtime} (ofPool : rt.QueueOfPool)
    (distinct : rt.scheduler.queuedIds.Nodup) : rt.SingleEntries where
  distinct := distinct
  queueWithinPool := by
    have bounded :=
      HashMap.length_le_size_of_subset distinct ofPool.pooled
    rwa [Scheduler.queuedIds_length] at bounded
  poolWithinLimit := ofPool.poolWithinLimit

section Steps

variable {rt : Runtime}

theorem QueueOfPool.replace {next : Runtime} (ofPool : rt.QueueOfPool)
    {id : String} {old agent : Agent}
    (found : rt.agents.lookup id = some old)
    (pool : next.agents = rt.agents.insert id agent)
    (queue : ∀ other ∈ next.scheduler.queuedIds,
      other = id ∨ other ∈ rt.scheduler.queuedIds)
    (capacity : next.scheduler.capacity = rt.scheduler.capacity)
    (config : next.config = rt.config) : next.QueueOfPool where
  pooled := by
    intro other queued
    rw [pool, AList.mem_insert]
    rcases queue other queued with same | before
    · exact .inl same
    · exact .inr (ofPool.pooled other before)
  capacity := by rw [capacity, config, ofPool.capacity]
  poolWithinLimit := by
    rw [pool, config,
      HashMap.size_insert_of_mem (HashMap.mem_of_lookup found)]
    exact ofPool.poolWithinLimit

theorem requeue_capacity {agents : AgentPool} {entry : SchedulerEntry}
    {rest : Scheduler} :
    (requeue agents entry rest).2.capacity = rest.capacity := by
  rcases requeue_cases agents entry rest with
    dropped | ⟨agent, _, _, enqueued⟩
  · rw [dropped]
  · rw [enqueued, Scheduler.enqueue_capacity]

theorem spawn_queueOfPool (ofPool : rt.QueueOfPool) (config : AgentConfig)
    (id : String) (now elapsedUs : Nat) :
    (rt.spawn config id now elapsedUs).2.QueueOfPool := by
  rcases rt.spawn_cases config id now elapsedUs with
    ⟨error, refused, _⟩ | ⟨below, fresh, room, spawned⟩
  · rw [refused]
    exact ofPool
  · have added := (Scheduler.enqueue_of_room room id config.priority).2
    rw [spawned]
    constructor
    · intro other queued
      rw [added, List.mem_cons] at queued
      rw [AList.mem_insert]
      exact queued.imp_right (ofPool.pooled other)
    · simpa using ofPool.capacity
    · dsimp only
      rw [HashMap.size_insert_of_notMem fresh]
      omega

theorem kill_queueOfPool (ofPool : rt.QueueOfPool) (id : String)
    (now : Nat) : (rt.kill id now).2.QueueOfPool := by
  rcases rt.kill_cases id now with ⟨error, refused⟩ | ⟨agent, found, killed⟩
  · rw [refused]
    exact ofPool
  · rw [killed]
    constructor
    · intro other queued
      rw [Scheduler.mem_remove_queuedIds] at queued
      rw [AList.mem_erase]
      exact ⟨queued.2, ofPool.pooled other queued.1⟩
    · exact ofPool.capacity
    · have shrunk := HashMap.size_erase_of_mem (HashMap.mem_of_lookup found)
      have bounded := ofPool.poolWithinLimit
      dsimp only
      omega

theorem transitionAgent_queueOfPool (ofPool : rt.QueueOfPool) (id : String)
    (newState : AgentState) (now : Nat) :
    (rt.transitionAgent id newState now).2.QueueOfPool := by
  rcases rt.transitionAgent_cases id newState now with
    ⟨_, error, refused⟩ | ⟨agent, moved, found, _, result⟩
  · rw [refused]
    exact ofPool
  · rw [result]
    apply ofPool.replace found rfl
    · intro other queued
      dsimp only at queued
      split at queued
      · exact .inr ((Scheduler.mem_remove_queuedIds _ _).mp queued).1
      · exact .inr queued
    · dsimp only
      split <;> rfl
    · rfl

theorem recoverAgent_queueOfPool (ofPool : rt.QueueOfPool) (id : String)
    (now : Nat) : (rt.recoverAgent id now).2.QueueOfPool := by
  rcases rt.recoverAgent_cases id now with
    ⟨_, error, refused, _⟩ | ⟨agent, found, _, ⟨_, result⟩ | ⟨room, result⟩⟩
  · rw [refused]
    exact ofPool
  · rw [result]
    exact ofPool.replace found rfl (fun _ => .inr) rfl rfl
  · have added := (Scheduler.enqueue_of_room room id agent.priority).2
    rw [result]
    apply ofPool.replace found rfl
    · intro other queued
      rwa [added, List.mem_cons] at queued
    · simp
    · rfl

theorem requeue_pooled {agents : AgentPool} {entry : SchedulerEntry}
    {rest : Scheduler} (restPooled : ∀ id ∈ rest.queuedIds, id ∈ agents) :
    ∀ id ∈ (requeue agents entry rest).2.queuedIds, id ∈ agents := by
  intro id queued
  rcases requeue_cases agents entry rest with
    dropped | ⟨agent, found, _, enqueued⟩
  · rw [dropped] at queued
    exact restPooled id queued
  · rw [enqueued] at queued
    rcases Scheduler.mem_of_mem_enqueue queued with rfl | kept
    · exact HashMap.mem_of_lookup found
    · exact restPooled id kept

theorem schedulerTick_queueOfPool (ofPool : rt.QueueOfPool) (tie : Nat) :
    (rt.schedulerTick tie).QueueOfPool := by
  rcases rt.schedulerTick_cases tie with
    ⟨_, unchanged⟩ | ⟨_, samePool, sameConfig, outcome⟩
  · rw [unchanged]
    exact ofPool
  · have limit : HashMap.size (rt.schedulerTick tie).agents ≤
        (rt.schedulerTick tie).config.maxAgents := by
      rw [samePool, sameConfig]
      exact ofPool.poolWithinLimit
    rcases outcome with ⟨_, ticked⟩ | ⟨entry, rest, popped, requeued⟩
    · refine ⟨?_, ?_, limit⟩
      · rw [ticked, samePool, Scheduler.tick_queuedIds]
        exact ofPool.pooled
      · rw [ticked, sameConfig, Scheduler.tick_capacity]
        exact ofPool.capacity
    · have bag := Scheduler.dequeue_some_queuedIds popped
      rw [Scheduler.tick_queuedIds] at bag
      refine ⟨?_, ?_, limit⟩
      · rw [requeued, samePool]
        apply requeue_pooled
        intro other queued
        apply ofPool.pooled
        exact bag.mem_iff.mpr (List.mem_cons_of_mem _ queued)
      · rw [requeued, sameConfig, requeue_capacity,
          (Scheduler.dequeue_some popped).2, Scheduler.tick_capacity]
        exact ofPool.capacity

theorem agentAllocate_queueOfPool (ofPool : rt.QueueOfPool) (id : String)
    (bytes : Nat) : (rt.agentAllocate id bytes).2.QueueOfPool := by
  simp only [agentAllocate]
  split
  · exact ofPool
  next agent found =>
    split <;> exact ofPool.replace found rfl (fun _ => .inr) rfl rfl

theorem agentDeallocate_queueOfPool (ofPool : rt.QueueOfPool) (id : String)
    (bytes : Nat) : (rt.agentDeallocate id bytes).2.QueueOfPool := by
  simp only [agentDeallocate]
  split
  · exact ofPool
  next agent found =>
    exact ofPool.replace found rfl (fun _ => .inr) rfl rfl

theorem serve_queueOfPool (ofPool : rt.QueueOfPool) (call : Call)
    (running : call ≠ .shutdown) : (rt.serve call).QueueOfPool := by
  cases call with
  | spawn config id now elapsedUs =>
      exact spawn_queueOfPool ofPool config id now elapsedUs
  | kill id now => exact kill_queueOfPool ofPool id now
  | transitionAgent id newState now =>
      exact transitionAgent_queueOfPool ofPool id newState now
  | recoverAgent id now => exact recoverAgent_queueOfPool ofPool id now
  | schedulerTick tie => exact schedulerTick_queueOfPool ofPool tie
  | agentAllocate id bytes => exact agentAllocate_queueOfPool ofPool id bytes
  | agentDeallocate id bytes =>
      exact agentDeallocate_queueOfPool ofPool id bytes
  | shutdown => exact absurd rfl running

theorem spawn_distinct (ofPool : rt.QueueOfPool)
    (distinct : rt.scheduler.queuedIds.Nodup) (config : AgentConfig)
    (id : String) (now elapsedUs : Nat) :
    (rt.spawn config id now elapsedUs).2.scheduler.queuedIds.Nodup ∧
      rt.EnqueueAccepted (.spawn config id now elapsedUs) := by
  have bounded := (ofPool.singleEntries distinct).queueWithinPool
  have capacity := ofPool.capacity
  rcases rt.spawn_cases config id now elapsedUs with
    ⟨error, refused, whenFull⟩ | ⟨_, fresh, room, spawned⟩
  · refine ⟨by rwa [refused], ?_⟩
    intro found full
    rw [refused] at full
    obtain ⟨below, queueFull⟩ := whenFull found (Except.error.inj full)
    omega
  · have added := (Scheduler.enqueue_of_room room id config.priority).2
    constructor
    · rw [spawned, added, List.nodup_cons]
      exact ⟨fun queued => fresh (ofPool.pooled id queued), distinct⟩
    · intro found full
      rw [spawned] at full
      cases full

theorem recoverAgent_distinct_iff (ofPool : rt.QueueOfPool)
    (distinct : rt.scheduler.queuedIds.Nodup) (id : String) (now : Nat) :
    (rt.recoverAgent id now).2.scheduler.queuedIds.Nodup ∧
        rt.EnqueueAccepted (.recoverAgent id now) ↔
      rt.RecoversUnqueued (.recoverAgent id now) := by
  rcases rt.recoverAgent_cases id now with
    ⟨notCrashed, error, refused, notFull⟩ | ⟨agent, found, crashed, outcome⟩
  · constructor
    · intro _ agent found crashed
      exact absurd crashed (notCrashed agent found)
    · intro _
      refine ⟨by rwa [refused], ?_⟩
      intro capacity full
      rw [refused] at full
      exact notFull capacity (Except.error.inj full)
  · have pooled : id ∈ rt.agents := HashMap.mem_of_lookup found
    have capacity := ofPool.capacity
    have limit := ofPool.poolWithinLimit
    rcases outcome with ⟨full, result⟩ | ⟨room, result⟩
    · -- A full queue names every pooled agent, the crashed one included.
      constructor
      · intro kept
        obtain ⟨_, accepted⟩ := kept
        exact absurd (by rw [result]) (accepted rt.scheduler.capacity)
      · intro unqueued
        have absent := unqueued agent found crashed
        have bounded : (id :: rt.scheduler.queuedIds).length ≤
            HashMap.size rt.agents := by
          apply HashMap.length_le_size_of_subset
          · exact List.nodup_cons.mpr ⟨absent, distinct⟩
          · intro other member
            rcases List.mem_cons.mp member with rfl | queued
            · exact pooled
            · exact ofPool.pooled other queued
        rw [List.length_cons, Scheduler.queuedIds_length] at bounded
        omega
    · have added := (Scheduler.enqueue_of_room room id agent.priority).2
      have accepted : rt.EnqueueAccepted (.recoverAgent id now) := by
        intro capacity full
        rw [result] at full
        cases full
      rw [result]
      dsimp only
      rw [added, List.nodup_cons]
      constructor
      · intro kept other lookup _
        obtain ⟨⟨absent, _⟩, _⟩ := kept
        exact absent
      · intro unqueued
        exact ⟨⟨unqueued agent found crashed, distinct⟩, accepted⟩

theorem schedulerTick_distinct (ofPool : rt.QueueOfPool)
    (distinct : rt.scheduler.queuedIds.Nodup) (tie : Nat) :
    (rt.schedulerTick tie).scheduler.queuedIds.Nodup ∧
      rt.EnqueueAccepted (.schedulerTick tie) := by
  have single := ofPool.singleEntries distinct
  have within : rt.scheduler.Within := by
    have capacity := ofPool.capacity
    have bounded := single.queueWithinPool
    have limit := ofPool.poolWithinLimit
    unfold Scheduler.Within
    omega
  constructor
  · rcases rt.schedulerTick_cases tie with
      ⟨_, unchanged⟩ | ⟨_, _, _, ⟨_, ticked⟩ | ⟨entry, rest, popped, requeued⟩⟩
    · rwa [unchanged]
    · rwa [ticked, Scheduler.tick_queuedIds]
    · have bag := Scheduler.dequeue_some_queuedIds popped
      rw [Scheduler.tick_queuedIds] at bag
      have apart := bag.nodup_iff.mp distinct
      rw [requeued]
      rcases requeue_cases rt.agents entry rest with
        dropped | ⟨agent, _, _, enqueued⟩
      · rw [dropped]
        exact (List.nodup_cons.mp apart).2
      · have room := requeue_room within popped
        rw [enqueued, (Scheduler.enqueue_of_room room _ _).2]
        exact apart
  · intro entry rest popped capacity full
    have room := requeue_room within popped
    rcases requeue_cases rt.agents entry rest with
      dropped | ⟨agent, _, _, enqueued⟩
    · rw [dropped] at full
      cases full
    · rw [enqueued, (Scheduler.enqueue_of_room room _ _).1] at full
      cases full

/-- A call keeps the queue entries distinct, and its enqueue succeeds, exactly
when it recovers no agent that is still queued. -/
theorem serve_distinct_iff (ofPool : rt.QueueOfPool)
    (distinct : rt.scheduler.queuedIds.Nodup) (call : Call) :
    (rt.serve call).scheduler.queuedIds.Nodup ∧ rt.EnqueueAccepted call ↔
      rt.RecoversUnqueued call := by
  have removed : ∀ id,
      ((rt.scheduler.remove id).2.queuedIds).Nodup := by
    intro id
    rw [Scheduler.remove_queuedIds]
    exact distinct.filter _
  cases call with
  | spawn config id now elapsedUs =>
      exact iff_of_true
        (spawn_distinct ofPool distinct config id now elapsedUs) trivial
  | kill id now =>
      refine iff_of_true ⟨?_, trivial⟩ trivial
      rcases rt.kill_cases id now with ⟨error, refused⟩ | ⟨agent, _, killed⟩
      · simpa only [serve, refused] using distinct
      · simpa only [serve, killed] using removed id
  | transitionAgent id newState now =>
      refine iff_of_true ⟨?_, trivial⟩ trivial
      rcases rt.transitionAgent_cases id newState now with
        ⟨_, error, refused⟩ | ⟨agent, moved, _, _, result⟩
      · simpa only [serve, refused] using distinct
      · simp only [serve, result]
        split
        · exact removed id
        · exact distinct
  | recoverAgent id now =>
      exact recoverAgent_distinct_iff ofPool distinct id now
  | schedulerTick tie =>
      exact iff_of_true (schedulerTick_distinct ofPool distinct tie) trivial
  | agentAllocate id bytes =>
      refine iff_of_true ⟨?_, trivial⟩ trivial
      simp only [serve, agentAllocate]
      split
      · exact distinct
      · split <;> exact distinct
  | agentDeallocate id bytes =>
      refine iff_of_true ⟨?_, trivial⟩ trivial
      simp only [serve, agentDeallocate]
      split <;> exact distinct
  | shutdown => exact iff_of_true ⟨distinct, trivial⟩ trivial

end Steps

/-- In a run without shutdown, each agent has at most one entry, the queue is
bounded by the pool and every enqueue succeeds, exactly when no recovery meets
an agent that is still queued. -/
theorem singleEntries_throughout_iff (config : RuntimeConfig)
    (calls : List Call) (noShutdown : ∀ call ∈ calls, call ≠ .shutdown) :
    Throughout serve SingleEntries (withConfig config) calls ∧
        EachCall serve EnqueueAccepted (withConfig config) calls ↔
      EachCall serve RecoversUnqueued (withConfig config) calls := by
  have exact_step : ∀ (rt : Runtime) (call : Call), call ≠ .shutdown →
      rt.QueueOfPool → rt.SingleEntries →
        ((rt.serve call).SingleEntries ∧ rt.EnqueueAccepted call ↔
          rt.RecoversUnqueued call) := by
    intro rt call running ofPool single
    rw [← serve_distinct_iff ofPool single.distinct call]
    constructor
    · intro kept
      obtain ⟨next, accepted⟩ := kept
      exact ⟨next.distinct, accepted⟩
    · intro kept
      obtain ⟨distinct, accepted⟩ := kept
      have nextOfPool := serve_queueOfPool ofPool call running
      exact ⟨nextOfPool.singleEntries distinct, accepted⟩
  have start := withConfig_queueOfPool config
  exact throughout_and_eachCall_iff
    (fun _ call running ofPool => serve_queueOfPool ofPool call running)
    exact_step noShutdown start (start.singleEntries (by simp [withConfig]))

/-- The bounds hold along spawns, a crash, a tick that drops the crashed
entry, and the recovery. -/
theorem singleEntries_throughout_crash :
    let calls : List Call :=
      [.spawn { goal := "first", priority := .high } "agent0000001" 0 0,
        .spawn { goal := "second" } "agent0000002" 0 0,
        .transitionAgent "agent0000001" .crashed 1, .schedulerTick 0,
        .recoverAgent "agent0000001" 2, .kill "agent0000002" 3]
    (∀ call ∈ calls, call ≠ .shutdown) ∧
      (Throughout serve SingleEntries (withConfig {}) calls ∧
          EachCall serve EnqueueAccepted (withConfig {}) calls ↔
        EachCall serve RecoversUnqueued (withConfig {}) calls) :=
  ⟨by decide, singleEntries_throughout_iff _ _ (by decide)⟩

/-- Recovering an agent that crashed while queued enqueues it twice. -/
theorem recovered_agent_queued_twice :
    ¬ ∀ (config : RuntimeConfig) (calls : List Call),
      (∀ call ∈ calls, call ≠ .shutdown) →
        (runCalls serve (withConfig config) calls).scheduler.queuedIds.Nodup := by
  intro claimed
  have distinct := claimed {}
    [.spawn { goal := "goal" } "agent0000001" 0 0,
      .transitionAgent "agent0000001" .crashed 1,
      .recoverAgent "agent0000001" 2] (by decide)
  exact absurd distinct (by decide)

end Runtime

end Ughi.Agents
