import Ughi.Agents.Pool

/-!
# System memory against the agents' own trackers

The bytes of an agent are counted twice, in its own tracker and in the system
total, and each side saturates and wraps on its own.  `KeepsAccounts` says
for each call when the two move together.
-/

namespace Ughi.Agents

open Ughi.Lib

namespace Runtime

/-- The bytes the pooled agents hold, by their own trackers. -/
def heldBytes (rt : Runtime) : Nat :=
  HashMap.sumOf Agent.memoryUsage rt.agents

/-- The system tracker agrees with the pool. -/
structure AccountsExact (rt : Runtime) : Prop where
  totalBytes : rt.systemMemory.totalBytes = rt.heldBytes
  agentCount : rt.systemMemory.agentCount = HashMap.size rt.agents

/-- The calls that change both sides alike.  An allocation does so unless only
the system total wraps around; a deallocation, unless the agent gives back
more than it holds while other agents hold some; a recovery, if the crashed
agent holds nothing; a shutdown, if the pool is empty. -/
def KeepsAccounts (rt : Runtime) : Call → Prop
  | .agentAllocate id bytes =>
      ∀ agent, rt.agents.lookup id = some agent →
        wrappingAdd 64 agent.memoryUsage bytes ≤
            agent.memoryTracker.limitBytes →
          agent.memoryUsage + bytes < 2 ^ 64 →
            rt.systemMemory.totalBytes + bytes < 2 ^ 64
  | .agentDeallocate id bytes =>
      ∀ agent, rt.agents.lookup id = some agent →
        bytes ≤ agent.memoryUsage ∨
          rt.systemMemory.totalBytes = agent.memoryUsage
  | .recoverAgent id _ =>
      ∀ agent, rt.agents.lookup id = some agent → agent.state = .crashed →
        agent.memoryUsage = 0
  | .shutdown => HashMap.size rt.agents = 0
  | _ => True

/-- What the counters rest on: they are machine words, and the pool is too
small for the agent count to wrap around. -/
structure CountersFit (rt : Runtime) : Prop where
  poolFits : rt.PoolFits
  words : rt.AllAgents fun agent =>
    agent.memoryTracker.currentBytes < 2 ^ 64
  totalWord : rt.systemMemory.totalBytes < 2 ^ 64

theorem withConfig_accountsExact (config : RuntimeConfig) :
    (withConfig config).AccountsExact :=
  ⟨rfl, rfl⟩

theorem withConfig_countersFit {config : RuntimeConfig}
    (limit : config.maxAgents < 2 ^ 32) :
    (withConfig config).CountersFit :=
  ⟨withConfig_poolFits limit, withConfig_allAgents _ config,
    Nat.two_pow_pos 64⟩

theorem serve_totalWord {rt : Runtime}
    (word : rt.systemMemory.totalBytes < 2 ^ 64) (call : Call) :
    (rt.serve call).systemMemory.totalBytes < 2 ^ 64 := by
  cases call with
  | spawn config id now elapsedUs =>
      rcases rt.spawn_cases config id now elapsedUs with
        ⟨_, refused, _⟩ | ⟨_, _, _, spawned⟩
      · simpa only [serve, refused] using word
      · simp only [serve, spawned]
        exact wrappingAdd_lt 64 _ _
  | kill id now =>
      rcases rt.kill_cases id now with ⟨_, refused⟩ | ⟨_, _, killed⟩
      · simpa only [serve, refused] using word
      · simp only [serve, killed]
        exact Nat.lt_of_le_of_lt (Nat.sub_le _ _) word
  | transitionAgent id newState now =>
      rcases rt.transitionAgent_cases id newState now with
        ⟨_, _, refused⟩ | ⟨_, _, _, _, result⟩
      · simpa only [serve, refused] using word
      · simpa only [serve, result] using word
  | recoverAgent id now =>
      rcases rt.recoverAgent_cases id now with
        ⟨_, _, refused, _⟩ | ⟨_, _, _, ⟨_, result⟩ | ⟨_, result⟩⟩
      · simpa only [serve, refused] using word
      · simpa only [serve, result] using word
      · simpa only [serve, result] using word
  | schedulerTick tie =>
      simpa only [serve, (rt.schedulerTick_counters tie).1] using word
  | agentAllocate id bytes =>
      rcases rt.agentAllocate_cases id bytes with
        ⟨_, _, refused⟩ | ⟨_, _, ⟨_, _, result⟩ | ⟨_, result⟩⟩
      · simpa only [serve, refused] using word
      · simpa only [serve, result] using word
      · simp only [serve, result]
        exact wrappingAdd_lt 64 _ _
  | agentDeallocate id bytes =>
      rcases rt.agentDeallocate_cases id bytes with
        ⟨_, _, refused⟩ | ⟨_, _, result⟩
      · simpa only [serve, refused] using word
      · simp only [serve, result]
        exact Nat.lt_of_le_of_lt (Nat.sub_le _ _) word
  | shutdown => exact word

theorem serve_countersFit {rt : Runtime} (fit : rt.CountersFit)
    (call : Call) : (rt.serve call).CountersFit :=
  ⟨serve_poolFits fit.poolFits call,
    serve_allAgents currentBytes_agentInvariant fit.words call,
    serve_totalWord fit.totalWord call⟩

section Steps

variable {rt : Runtime}

theorem accountsExact_replace_iff (next : Runtime) (agent : Agent)
    (exact : rt.AccountsExact) {id : String} {old : Agent}
    (found : rt.agents.lookup id = some old)
    (pool : next.agents = rt.agents.insert id agent)
    (count : next.systemMemory.agentCount = rt.systemMemory.agentCount) :
    next.AccountsExact ↔
      next.systemMemory.totalBytes + old.memoryUsage =
        rt.systemMemory.totalBytes + agent.memoryUsage := by
  have total := exact.totalBytes
  have moved : next.heldBytes + old.memoryUsage =
      rt.heldBytes + agent.memoryUsage := by
    rw [heldBytes, pool]
    exact HashMap.sumOf_replace Agent.memoryUsage found
  have sameSize : HashMap.size next.agents = HashMap.size rt.agents := by
    rw [pool]
    exact HashMap.size_insert_of_mem (HashMap.mem_of_lookup found)
  constructor
  · intro nextExact
    have nextTotal := nextExact.totalBytes
    omega
  · intro inStep
    refine ⟨by omega, ?_⟩
    rw [count, sameSize]
    exact exact.agentCount

theorem AccountsExact.memoryUsage_le (exact : rt.AccountsExact) {id : String}
    {agent : Agent} (found : rt.agents.lookup id = some agent) :
    agent.memoryUsage ≤ rt.systemMemory.totalBytes := by
  rw [exact.totalBytes]
  exact HashMap.le_sumOf Agent.memoryUsage found

theorem spawn_accountsExact (fit : rt.CountersFit)
    (exact : rt.AccountsExact) (config : AgentConfig) (id : String)
    (now elapsedUs : Nat) :
    (rt.spawn config id now elapsedUs).2.AccountsExact := by
  rcases rt.spawn_cases config id now elapsedUs with
    ⟨_, refused, _⟩ | ⟨below, fresh, _, spawned⟩
  · rw [refused]
    exact exact
  · have limit := fit.poolFits.limit
    have count := exact.agentCount
    rw [spawned]
    constructor
    · simp only [heldBytes, SystemMemoryTracker.registerAgent,
        HashMap.sumOf_insert_of_notMem _ fresh]
      rw [wrappingAdd_of_lt fit.totalWord, exact.totalBytes]
      exact (Nat.zero_add _).symm
    · simp only [SystemMemoryTracker.registerAgent,
        HashMap.size_insert_of_notMem fresh]
      rw [wrappingAdd_of_lt (by omega), count]

theorem kill_accountsExact (exact : rt.AccountsExact) (id : String)
    (now : Nat) : (rt.kill id now).2.AccountsExact := by
  rcases rt.kill_cases id now with ⟨_, refused⟩ | ⟨agent, found, killed⟩
  · rw [refused]
    exact exact
  · have total := exact.totalBytes
    have count := exact.agentCount
    have rest := HashMap.sumOf_erase Agent.memoryUsage found
    have shrunk := HashMap.size_erase_of_mem (HashMap.mem_of_lookup found)
    rw [heldBytes] at total
    rw [killed]
    constructor
    · simp only [heldBytes, SystemMemoryTracker.unregisterAgent]
      omega
    · simp only [SystemMemoryTracker.unregisterAgent]
      omega

theorem transitionAgent_accountsExact (exact : rt.AccountsExact)
    (id : String) (newState : AgentState) (now : Nat) :
    (rt.transitionAgent id newState now).2.AccountsExact := by
  rcases rt.transitionAgent_cases id newState now with
    ⟨_, _, refused⟩ | ⟨agent, moved, found, accepted, result⟩
  · rw [refused]
    exact exact
  · have sameUsage : moved.memoryUsage = agent.memoryUsage := by
      rw [(Agent.transition_eq_ok accepted).2]
      rfl
    apply (accountsExact_replace_iff _ moved exact found (by rw [result])
      (by rw [result])).mpr
    rw [result, sameUsage]

theorem recoverAgent_accountsExact_iff (exact : rt.AccountsExact)
    (id : String) (now : Nat) :
    (rt.recoverAgent id now).2.AccountsExact ↔
      rt.KeepsAccounts (.recoverAgent id now) := by
  rcases rt.recoverAgent_cases id now with
    ⟨notCrashed, _, refused, _⟩ | ⟨agent, found, crashed, outcome⟩
  · rw [refused]
    refine iff_of_true exact ?_
    intro agent found crashed
    exact absurd crashed (notCrashed agent found)
  · have pool : (rt.recoverAgent id now).2.agents =
        rt.agents.insert id (respawn agent now) := by
      rcases outcome with ⟨_, result⟩ | ⟨_, result⟩ <;> rw [result]
    have sameSystem : (rt.recoverAgent id now).2.systemMemory =
        rt.systemMemory := by
      rcases outcome with ⟨_, result⟩ | ⟨_, result⟩ <;> rw [result]
    have reset : (respawn agent now).memoryUsage = 0 := rfl
    rw [accountsExact_replace_iff _ _ exact found pool (by rw [sameSystem]),
      sameSystem, reset, Nat.add_left_cancel_iff]
    constructor
    · intro nothing other lookup _
      cases found.symm.trans lookup
      exact nothing
    · intro keeps
      exact keeps agent found crashed

/-- When both counters wrap around, the one in the agent wraps with the one in
the system; only the system total wrapping around breaks the step. -/
theorem wrapping_inStep_iff {total usage bytes : Nat}
    (usageLe : usage ≤ total) (totalWord : total < 2 ^ 64)
    (bytesFit : bytes < 2 ^ 64) :
    wrappingAdd 64 total bytes + usage = total + wrappingAdd 64 usage bytes ↔
      (usage + bytes < 2 ^ 64 → total + bytes < 2 ^ 64) := by
  have usageWord : usage < 2 ^ 64 := Nat.lt_of_le_of_lt usageLe totalWord
  by_cases totalFits : total + bytes < 2 ^ 64
  · rw [wrappingAdd_of_lt totalFits, wrappingAdd_of_lt (by omega)]
    omega
  · rw [wrappingAdd_of_le totalWord bytesFit (Nat.le_of_not_lt totalFits)]
    by_cases usageFits : usage + bytes < 2 ^ 64
    · rw [wrappingAdd_of_lt usageFits]
      omega
    · rw [wrappingAdd_of_le usageWord bytesFit (Nat.le_of_not_lt usageFits)]
      omega

theorem agentAllocate_accountsExact_iff (fit : rt.CountersFit)
    (exact : rt.AccountsExact) (id : String) {bytes : Nat}
    (bytesFit : bytes < 2 ^ 64) :
    (rt.agentAllocate id bytes).2.AccountsExact ↔
      rt.KeepsAccounts (.agentAllocate id bytes) := by
  rcases rt.agentAllocate_cases id bytes with
    ⟨missing, _, refused⟩ | ⟨agent, found, outcome⟩
  · rw [refused]
    refine iff_of_true exact ?_
    simp [KeepsAccounts, missing]
  · have condition : rt.KeepsAccounts (.agentAllocate id bytes) ↔
        (wrappingAdd 64 agent.memoryUsage bytes ≤
            agent.memoryTracker.limitBytes →
          agent.memoryUsage + bytes < 2 ^ 64 →
            rt.systemMemory.totalBytes + bytes < 2 ^ 64) := by
      simp only [KeepsAccounts, found, Option.some_inj, forall_eq']
    rw [condition]
    rcases outcome with ⟨error, exceeded, result⟩ | ⟨recorded, result⟩
    · have rolledBack := AgentMemoryTracker.allocate_error
        (fit.words id agent found) bytesFit exceeded
      rw [accountsExact_replace_iff _ _ exact found (by rw [result])
        (by rw [result]), result, rolledBack]
      refine iff_of_true rfl ?_
      intro within
      rcases agent.memoryTracker.allocate_cases bytes with
        ⟨exceeds, _⟩ | ⟨_, allocated⟩
      · exact absurd within (Nat.not_le.mpr exceeds)
      · rw [allocated] at exceeded
        cases exceeded
    · rw [accountsExact_replace_iff _ _ exact found (by rw [result])
        (by rw [result]; rfl), result]
      rcases agent.memoryTracker.allocate_cases bytes with
        ⟨_, refused⟩ | ⟨within, allocated⟩
      · rw [refused] at recorded
        cases recorded
      · rw [allocated]
        have inStep := wrapping_inStep_iff (exact.memoryUsage_le found)
          fit.totalWord bytesFit
        constructor
        · intro moved _
          exact inStep.mp moved
        · intro keeps
          exact inStep.mpr (keeps within)

theorem agentDeallocate_accountsExact_iff (exact : rt.AccountsExact)
    (id : String) (bytes : Nat) :
    (rt.agentDeallocate id bytes).2.AccountsExact ↔
      rt.KeepsAccounts (.agentDeallocate id bytes) := by
  rcases rt.agentDeallocate_cases id bytes with
    ⟨missing, _, refused⟩ | ⟨agent, found, result⟩
  · rw [refused]
    refine iff_of_true exact ?_
    simp [KeepsAccounts, missing]
  · have condition : rt.KeepsAccounts (.agentDeallocate id bytes) ↔
        (bytes ≤ agent.memoryUsage ∨
          rt.systemMemory.totalBytes = agent.memoryUsage) := by
      simp only [KeepsAccounts, found, Option.some_inj, forall_eq']
    have usageLe := exact.memoryUsage_le found
    have kept : Agent.memoryUsage
          { agent with
            memoryTracker := agent.memoryTracker.deallocate bytes } =
        agent.memoryUsage - bytes := rfl
    rw [condition, accountsExact_replace_iff _ _ exact found
      (by rw [result]) (by rw [result]; rfl), result, kept]
    simp only [SystemMemoryTracker.subBytes]
    omega

theorem shutdown_accountsExact_iff (exact : rt.AccountsExact) :
    rt.shutdown.AccountsExact ↔ rt.KeepsAccounts .shutdown := by
  have count := exact.agentCount
  have total := exact.totalBytes
  constructor
  · intro emptied
    have emptyCount : rt.systemMemory.agentCount = 0 := emptied.agentCount
    exact count.symm.trans emptyCount
  · intro empty
    have nothing : rt.heldBytes = 0 := by
      have noEntries : rt.agents.entries = [] := by
        apply List.length_eq_zero_iff.mp
        rw [← List.length_map (f := Sigma.fst)]
        exact empty
      simp [heldBytes, HashMap.sumOf, HashMap.values, noEntries]
    exact ⟨total.trans nothing, count.trans empty⟩

theorem serve_accountsExact_iff (fit : rt.CountersFit)
    (exact : rt.AccountsExact) {call : Call} (bytesFit : call.BytesFit) :
    (rt.serve call).AccountsExact ↔ rt.KeepsAccounts call := by
  cases call with
  | spawn config id now elapsedUs =>
      exact iff_of_true
        (spawn_accountsExact fit exact config id now elapsedUs) trivial
  | kill id now => exact iff_of_true (kill_accountsExact exact id now) trivial
  | transitionAgent id newState now =>
      exact iff_of_true
        (transitionAgent_accountsExact exact id newState now) trivial
  | recoverAgent id now => exact recoverAgent_accountsExact_iff exact id now
  | schedulerTick tie =>
      refine iff_of_true ?_ trivial
      have sameSystem := (rt.schedulerTick_counters tie).1
      have samePool := rt.schedulerTick_agents tie
      refine ⟨?_, ?_⟩
      · rw [serve, sameSystem, heldBytes, samePool]
        exact exact.totalBytes
      · rw [serve, sameSystem, samePool]
        exact exact.agentCount
  | agentAllocate id bytes =>
      exact agentAllocate_accountsExact_iff fit exact id bytesFit
  | agentDeallocate id bytes =>
      exact agentDeallocate_accountsExact_iff exact id bytes
  | shutdown => exact shutdown_accountsExact_iff exact

end Steps

/-- In a run of any calls, the system tracker agrees with the pool throughout
exactly when every call is one of `KeepsAccounts`. -/
theorem accountsExact_throughout_iff (config : RuntimeConfig)
    (calls : List Call) (limit : config.maxAgents < 2 ^ 32)
    (bytesFit : ∀ call ∈ calls, call.BytesFit) :
    Throughout serve AccountsExact (withConfig config) calls ↔
      EachCall serve KeepsAccounts (withConfig config) calls :=
  throughout_iff_eachCall
    (fun _ call _ fit => serve_countersFit fit call)
    (fun _ _ bytesFit fit exact => serve_accountsExact_iff fit exact bytesFit)
    bytesFit (withConfig_countersFit limit)
    (withConfig_accountsExact config)

/-- Two agents allocate and free, one beyond its budget; one of them is
killed while it holds memory. -/
def allocatingCalls : List Call :=
  [.spawn { goal := "first" } "agent0000001" 0 5,
    .agentAllocate "agent0000001" 4096,
    .spawn { goal := "second" } "agent0000002" 1 4,
    .agentAllocate "agent0000002" 65536,
    .agentAllocate "agent0000001" (2 ^ 63),
    .agentDeallocate "agent0000001" 1024,
    .kill "agent0000002" 2,
    .agentAllocate "agent0000001" 512]

theorem accountsExact_throughout_allocation :
    (({} : RuntimeConfig).maxAgents < 2 ^ 32 ∧
        ∀ call ∈ allocatingCalls, call.BytesFit) ∧
      (Throughout serve AccountsExact (withConfig {}) allocatingCalls ↔
        EachCall serve KeepsAccounts (withConfig {}) allocatingCalls) := by
  have limit : ({} : RuntimeConfig).maxAgents < 2 ^ 32 := by decide
  have bytesFit : ∀ call ∈ allocatingCalls, call.BytesFit := by
    simp [allocatingCalls, Call.BytesFit]
  exact ⟨⟨limit, bytesFit⟩, accountsExact_throughout_iff {} _ limit bytesFit⟩

/-- A crashed agent's bytes stay in the system total when its recovery resets
its own tracker. -/
theorem recovery_keeps_total :
    ¬ (runCalls serve (withConfig {})
        [.spawn { goal := "goal" } "agent0000001" 0 0,
          .agentAllocate "agent0000001" 4096,
          .transitionAgent "agent0000001" .crashed 1,
          .recoverAgent "agent0000001" 2]).AccountsExact := by
  intro exact
  exact absurd exact.totalBytes (by decide)

end Runtime

end Ughi.Agents
