import Ughi.Agents.Runtime

/-!
# What holds of every pool and every queue

Facts about every reachable runtime that later results rest on: a property of
single agents that new agents have and every change keeps holds of all pooled
agents, a property of schedulers that each scheduler operation keeps holds of
the queue, and the pool stays within its limit.
-/

namespace Ughi.Agents

open Ughi.Lib

namespace Runtime

def AllAgents (kept : Agent → Prop) (rt : Runtime) : Prop :=
  ∀ id agent, rt.agents.lookup id = some agent → kept agent

/-- A property of agents that a new agent has and every change the runtime
makes to an agent keeps. -/
structure AgentInvariant (kept : Agent → Prop) : Prop where
  spawned : ∀ id now config, kept (Agent.new id now config)
  moved : ∀ agent moved now newState,
    agent.transition now newState = .ok moved → kept agent → kept moved
  respawned : ∀ agent now, kept agent → kept (respawn agent now)
  allocated : ∀ agent bytes, kept agent →
    kept { agent with
      memoryTracker := (agent.memoryTracker.allocate bytes).2 }
  deallocated : ∀ agent bytes, kept agent →
    kept { agent with memoryTracker := agent.memoryTracker.deallocate bytes }

theorem withConfig_allAgents (kept : Agent → Prop) (config : RuntimeConfig) :
    (withConfig config).AllAgents kept := by
  intro id agent found
  simp [withConfig] at found

section AllAgents

variable {kept : Agent → Prop} {rt : Runtime}

theorem AllAgents.insert {next : Runtime} (all : rt.AllAgents kept)
    {id : String} {agent : Agent} (added : kept agent)
    (pool : next.agents = rt.agents.insert id agent) :
    next.AllAgents kept := by
  intro other found lookup
  rw [pool, HashMap.lookup_insert_eq] at lookup
  split at lookup
  · cases lookup
    exact added
  · exact all other found lookup

theorem serve_allAgents (invariant : AgentInvariant kept)
    (all : rt.AllAgents kept) (call : Call) :
    (rt.serve call).AllAgents kept := by
  cases call with
  | spawn config id now elapsedUs =>
      rcases rt.spawn_cases config id now elapsedUs with
        ⟨error, refused, _⟩ | ⟨_, _, _, spawned⟩
      · simpa only [serve, refused] using all
      · simp only [serve, spawned]
        exact all.insert (invariant.spawned id now config) rfl
  | kill id now =>
      rcases rt.kill_cases id now with ⟨error, refused⟩ | ⟨agent, _, killed⟩
      · simpa only [serve, refused] using all
      · simp only [serve, killed]
        intro other found lookup
        simp only [HashMap.lookup_erase_eq] at lookup
        split at lookup
        · cases lookup
        · exact all other found lookup
  | transitionAgent id newState now =>
      rcases rt.transitionAgent_cases id newState now with
        ⟨_, error, refused⟩ | ⟨agent, moved, found, accepted, result⟩
      · simpa only [serve, refused] using all
      · have agentKept := all id agent found
        simp only [serve, result]
        exact all.insert
          (invariant.moved agent moved now newState accepted agentKept) rfl
  | recoverAgent id now =>
      rcases rt.recoverAgent_cases id now with
        ⟨_, error, refused, _⟩ | ⟨agent, found, _, outcome⟩
      · simpa only [serve, refused] using all
      · have respawned := invariant.respawned agent now (all id agent found)
        rcases outcome with ⟨_, result⟩ | ⟨_, result⟩
        · simp only [serve, result]
          exact all.insert respawned rfl
        · simp only [serve, result]
          exact all.insert respawned rfl
  | schedulerTick tie =>
      rcases rt.schedulerTick_cases tie with
        ⟨_, unchanged⟩ | ⟨_, samePool, _, _⟩
      · simpa only [serve, unchanged] using all
      · simpa only [serve, AllAgents, samePool] using all
  | agentAllocate id bytes =>
      rcases rt.agentAllocate_cases id bytes with
        ⟨_, error, refused⟩ | ⟨agent, found, outcome⟩
      · simpa only [serve, refused] using all
      · have allocated :=
          invariant.allocated agent bytes (all id agent found)
        rcases outcome with ⟨error, _, result⟩ | ⟨_, result⟩
        · simp only [serve, result]
          exact all.insert allocated rfl
        · simp only [serve, result]
          exact all.insert allocated rfl
  | agentDeallocate id bytes =>
      rcases rt.agentDeallocate_cases id bytes with
        ⟨_, error, refused⟩ | ⟨agent, found, result⟩
      · simpa only [serve, refused] using all
      · simp only [serve, result]
        exact all.insert
          (invariant.deallocated agent bytes (all id agent found)) rfl
  | shutdown =>
      intro id agent found
      simp [serve, shutdown] at found

theorem run_allAgents (invariant : AgentInvariant kept)
    (config : RuntimeConfig) (calls : List Call) :
    (runCalls serve (withConfig config) calls).AllAgents kept := by
  have preserved : ∀ rt call, AllAgents kept rt →
      AllAgents kept (serve rt call) := by
    intro rt call all
    exact serve_allAgents invariant all call
  exact invariant_of_calls preserved (withConfig_allAgents kept config) calls

end AllAgents

/-- A property of schedulers that every operation the runtime performs on its
scheduler keeps. -/
structure SchedulerInvariant (kept : Scheduler → Prop) : Prop where
  enqueued : ∀ scheduler agentId priority, kept scheduler →
    kept (scheduler.enqueue agentId priority).2
  ticked : ∀ scheduler, kept scheduler → kept scheduler.tick
  dequeued : ∀ scheduler tie entry rest, kept scheduler →
    scheduler.dequeue tie = (some entry, rest) → kept rest
  removed : ∀ scheduler agentId, kept scheduler →
    kept (scheduler.remove agentId).2

section SchedulerInvariant

variable {kept : Scheduler → Prop} {rt : Runtime}

theorem requeue_kept (invariant : SchedulerInvariant kept)
    {agents : AgentPool} {entry : SchedulerEntry} {rest : Scheduler}
    (restKept : kept rest) : kept (requeue agents entry rest).2 := by
  rcases requeue_cases agents entry rest with
    dropped | ⟨agent, _, _, enqueued⟩
  · rwa [dropped]
  · rw [enqueued]
    exact invariant.enqueued _ _ _ restKept

theorem serve_kept (invariant : SchedulerInvariant kept)
    (holds : kept rt.scheduler) (call : Call) :
    kept (rt.serve call).scheduler := by
  cases call with
  | spawn config id now elapsedUs =>
      rcases rt.spawn_cases config id now elapsedUs with
        ⟨error, refused, _⟩ | ⟨_, _, _, spawned⟩
      · simpa only [serve, refused] using holds
      · simp only [serve, spawned]
        exact invariant.enqueued _ _ _ holds
  | kill id now =>
      rcases rt.kill_cases id now with ⟨error, refused⟩ | ⟨agent, _, killed⟩
      · simpa only [serve, refused] using holds
      · simp only [serve, killed]
        exact invariant.removed _ _ holds
  | transitionAgent id newState now =>
      rcases rt.transitionAgent_cases id newState now with
        ⟨_, error, refused⟩ | ⟨agent, moved, _, _, result⟩
      · simpa only [serve, refused] using holds
      · simp only [serve, result]
        split
        · exact invariant.removed _ _ holds
        · exact holds
  | recoverAgent id now =>
      rcases rt.recoverAgent_cases id now with
        ⟨_, error, refused, _⟩ | ⟨agent, _, _, ⟨_, result⟩ | ⟨_, result⟩⟩
      · simpa only [serve, refused] using holds
      · simpa only [serve, result] using holds
      · simp only [serve, result]
        exact invariant.enqueued _ _ _ holds
  | schedulerTick tie =>
      have ticked := invariant.ticked _ holds
      rcases rt.schedulerTick_cases tie with
        ⟨_, unchanged⟩ | ⟨_, _, _, ⟨_, idle⟩ | ⟨entry, rest, popped, requeued⟩⟩
      · simpa only [serve, unchanged] using holds
      · simpa only [serve, idle] using ticked
      · simp only [serve, requeued]
        apply requeue_kept invariant
        exact invariant.dequeued _ tie entry rest ticked popped
  | agentAllocate id bytes =>
      rw [serve, (rt.agentAllocate_writesTracker id bytes).scheduler]
      exact holds
  | agentDeallocate id bytes =>
      rw [serve, (rt.agentDeallocate_writesTracker id bytes).scheduler]
      exact holds
  | shutdown => exact holds

end SchedulerInvariant

theorem within_schedulerInvariant :
    SchedulerInvariant Scheduler.Within where
  enqueued := by
    intro scheduler agentId priority within
    exact within.enqueue agentId priority
  ticked := by
    intro scheduler within
    exact within.tick
  dequeued := by
    intro scheduler tie entry rest within popped
    exact within.dequeue popped
  removed := by
    intro scheduler agentId within
    exact within.remove agentId

theorem currentBytes_agentInvariant :
    AgentInvariant fun agent =>
      agent.memoryTracker.currentBytes < 2 ^ 64 where
  spawned := by
    intro id now config
    exact Nat.two_pow_pos 64
  moved := by
    intro agent moved now newState accepted word
    rw [(Agent.transition_eq_ok accepted).2]
    exact word
  respawned := by
    intro agent now _
    exact Nat.two_pow_pos 64
  allocated := by
    intro agent bytes _
    exact agent.memoryTracker.allocate_currentBytes_lt bytes
  deallocated := by
    intro agent bytes word
    exact Nat.lt_of_le_of_lt (Nat.sub_le _ _) word

/-- The pool is within its limit, and the limit is a 32-bit word. -/
structure PoolFits (rt : Runtime) : Prop where
  poolWithinLimit : HashMap.size rt.agents ≤ rt.config.maxAgents
  limit : rt.config.maxAgents < 2 ^ 32

theorem withConfig_poolFits {config : RuntimeConfig}
    (limit : config.maxAgents < 2 ^ 32) : (withConfig config).PoolFits :=
  ⟨Nat.zero_le _, limit⟩

section PoolFits

variable {rt : Runtime}

theorem PoolFits.replace {next : Runtime} (fits : rt.PoolFits) {id : String}
    {old agent : Agent} (found : rt.agents.lookup id = some old)
    (pool : next.agents = rt.agents.insert id agent)
    (config : next.config = rt.config) : next.PoolFits := by
  refine ⟨?_, config ▸ fits.limit⟩
  rw [pool, config, HashMap.size_insert_of_mem (HashMap.mem_of_lookup found)]
  exact fits.poolWithinLimit

theorem PoolFits.of_writesTracker {next : Runtime} (fits : rt.PoolFits)
    (writes : rt.WritesTracker next) : next.PoolFits := by
  cases writes with
  | unchanged => exact fits
  | written found tracker systemMemory => exact fits.replace found rfl rfl

theorem serve_poolFits (fits : rt.PoolFits) (call : Call) :
    (rt.serve call).PoolFits := by
  cases call with
  | spawn config id now elapsedUs =>
      rcases rt.spawn_cases config id now elapsedUs with
        ⟨_, refused, _⟩ | ⟨below, fresh, _, spawned⟩
      · simpa only [serve, refused] using fits
      · simp only [serve, spawned]
        refine ⟨?_, fits.limit⟩
        rw [HashMap.size_insert_of_notMem fresh]
        exact below
  | kill id now =>
      rcases rt.kill_cases id now with ⟨_, refused⟩ | ⟨agent, _, killed⟩
      · simpa only [serve, refused] using fits
      · simp only [serve, killed]
        refine ⟨?_, fits.limit⟩
        exact Nat.le_trans (HashMap.size_erase_le id) fits.poolWithinLimit
  | transitionAgent id newState now =>
      rcases rt.transitionAgent_cases id newState now with
        ⟨_, _, refused⟩ | ⟨agent, moved, found, _, result⟩
      · simpa only [serve, refused] using fits
      · simp only [serve, result]
        exact fits.replace found rfl rfl
  | recoverAgent id now =>
      rcases rt.recoverAgent_cases id now with
        ⟨_, _, refused, _⟩ | ⟨agent, found, _, ⟨_, result⟩ | ⟨_, result⟩⟩
      · simpa only [serve, refused] using fits
      · simp only [serve, result]
        exact fits.replace found rfl rfl
      · simp only [serve, result]
        exact fits.replace found rfl rfl
  | schedulerTick tie =>
      rcases rt.schedulerTick_cases tie with
        ⟨_, unchanged⟩ | ⟨_, samePool, sameConfig, _⟩
      · simpa only [serve, unchanged] using fits
      · refine ⟨?_, sameConfig ▸ fits.limit⟩
        rw [serve, samePool, sameConfig]
        exact fits.poolWithinLimit
  | agentAllocate id bytes =>
      exact fits.of_writesTracker (rt.agentAllocate_writesTracker id bytes)
  | agentDeallocate id bytes =>
      exact fits.of_writesTracker (rt.agentDeallocate_writesTracker id bytes)
  | shutdown => exact ⟨Nat.zero_le _, fits.limit⟩

end PoolFits

end Runtime

end Ughi.Agents
