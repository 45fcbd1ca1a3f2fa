import Ughi.Agents.Pool

/-!
# The gauge of active agents

`agents_active` is moved by increments and saturating decrements, never
recomputed.  `KeepsGauge` says for each call when its move is the move of the
number of live agents.
-/

namespace Ughi.Agents

open Ughi.Lib

namespace Runtime

/-- The pooled agents that are neither completing nor crashed, counted. -/
def liveAgents (rt : Runtime) : Nat :=
  (HashMap.values rt.agents).countP fun agent => !agent.isDone

/-- The gauge shows the number of live agents. -/
def GaugeTruthful (rt : Runtime) : Prop :=
  rt.metrics.agentsActive = rt.liveAgents

/-- The calls that move the gauge with the number of live agents.  Ending an
agent that is already done decrements the gauge a second time, which a gauge
at zero absorbs; a respawn that is not a full recovery does not increment it;
a shutdown does not lower it. -/
def KeepsGauge (rt : Runtime) : Call → Prop
  | .kill id _ =>
      ∀ agent, rt.agents.lookup id = some agent → agent.isDone = true →
        rt.liveAgents = 0
  | .transitionAgent id newState _ =>
      ∀ agent, rt.agents.lookup id = some agent →
        (newState = .crashed → agent.isDone = true → rt.liveAgents = 0) ∧
          (newState = .spawned → agent.state ≠ .crashed)
  | .recoverAgent id _ =>
      rt.scheduler.capacity ≤ rt.scheduler.queue.length →
        ∀ agent, rt.agents.lookup id = some agent → agent.state ≠ .crashed
  | .shutdown => rt.liveAgents = 0
  | _ => True

theorem liveAgents_eq_sumOf (rt : Runtime) :
    rt.liveAgents =
      HashMap.sumOf (fun agent => (!agent.isDone).toNat) rt.agents :=
  (HashMap.sumOf_toNat _ _).symm

theorem withConfig_gaugeTruthful (config : RuntimeConfig) :
    (withConfig config).GaugeTruthful :=
  rfl

section Steps

variable {rt : Runtime}

theorem liveAgents_le_size (rt : Runtime) :
    rt.liveAgents ≤ HashMap.size rt.agents := by
  rw [← HashMap.values_length]
  exact List.countP_le_length

theorem gaugeTruthful_replace_iff (next : Runtime) (agent : Agent)
    (truthful : rt.GaugeTruthful) {id : String} {old : Agent}
    (found : rt.agents.lookup id = some old)
    (pool : next.agents = rt.agents.insert id agent) :
    next.GaugeTruthful ↔
      next.metrics.agentsActive + (!old.isDone).toNat =
        rt.metrics.agentsActive + (!agent.isDone).toNat := by
  have moved : next.liveAgents + (!old.isDone).toNat =
      rt.liveAgents + (!agent.isDone).toNat := by
    rw [liveAgents_eq_sumOf, liveAgents_eq_sumOf, pool]
    exact HashMap.sumOf_replace _ found
  rw [GaugeTruthful] at truthful ⊢
  omega

theorem liveAgents_pos {id : String} {agent : Agent}
    (found : rt.agents.lookup id = some agent)
    (live : agent.isDone = false) : 0 < rt.liveAgents := by
  have counted := HashMap.le_sumOf
    (fun agent : Agent => (!agent.isDone).toNat) found
  rw [← liveAgents_eq_sumOf, live] at counted
  exact counted

theorem spawn_gaugeTruthful (fits : rt.PoolFits)
    (truthful : rt.GaugeTruthful) (config : AgentConfig) (id : String)
    (now elapsedUs : Nat) :
    (rt.spawn config id now elapsedUs).2.GaugeTruthful := by
  rcases rt.spawn_cases config id now elapsedUs with
    ⟨_, refused, _⟩ | ⟨below, fresh, _, spawned⟩
  · rw [refused]
    exact truthful
  · have limit := fits.limit
    have bounded := liveAgents_le_size rt
    have room : rt.metrics.agentsActive + 1 < 2 ^ 64 := by
      rw [truthful]
      omega
    rw [spawned]
    simp only [GaugeTruthful, RuntimeMetrics.recordSpawn,
      liveAgents_eq_sumOf, HashMap.sumOf_insert_of_notMem _ fresh]
    rw [wrappingAdd_of_lt room, truthful, liveAgents_eq_sumOf]
    exact Nat.add_comm _ _

theorem kill_gaugeTruthful_iff (truthful : rt.GaugeTruthful) (id : String)
    (now : Nat) :
    (rt.kill id now).2.GaugeTruthful ↔ rt.KeepsGauge (.kill id now) := by
  cases found : rt.agents.lookup id with
  | none =>
      have refused : rt.kill id now = (.error (.agentNotFound id), rt) := by
        simp only [kill, found]
      rw [refused]
      refine iff_of_true truthful ?_
      simp [KeepsGauge, found]
  | some agent =>
      rcases rt.kill_cases id now with ⟨_, refused⟩ | ⟨other, lookup, killed⟩
      · simp [kill, found] at refused
      · have condition : rt.KeepsGauge (.kill id now) ↔
            (agent.isDone = true → rt.liveAgents = 0) := by
          simp only [KeepsGauge, found, Option.some_inj, forall_eq']
        have rest := HashMap.sumOf_erase
          (fun agent : Agent => (!agent.isDone).toNat) found
        have remaining : (rt.kill id now).2.liveAgents =
            HashMap.sumOf (fun agent : Agent => (!agent.isDone).toNat)
              (rt.agents.erase id) := by
          rw [liveAgents_eq_sumOf, killed]
        rw [← liveAgents_eq_sumOf] at rest
        rw [GaugeTruthful] at truthful
        rw [condition, GaugeTruthful, remaining, killed]
        simp only [RuntimeMetrics.recordKill]
        cases done : agent.isDone with
        | false =>
            simp only [done, Bool.not_false, Bool.toNat_true] at rest
            simp only [Bool.false_eq_true, false_implies, iff_true]
            omega
        | true =>
            simp only [done, Bool.not_true, Bool.toNat_false] at rest
            simp only [true_implies]
            omega

theorem transitionAgent_gaugeTruthful_iff (truthful : rt.GaugeTruthful)
    (id : String) (newState : AgentState) (now : Nat) :
    (rt.transitionAgent id newState now).2.GaugeTruthful ↔
      rt.KeepsGauge (.transitionAgent id newState now) := by
  rcases rt.transitionAgent_cases id newState now with
    ⟨forbidden, _, refused⟩ | ⟨agent, moved, found, accepted, result⟩
  · rw [refused]
    refine iff_of_true truthful ?_
    intro agent found
    have never := forbidden agent found
    constructor
    · rintro rfl
      simp [AgentState.canTransitionTo] at never
    · rintro rfl crashed
      rw [crashed] at never
      exact absurd never (by decide)
  · obtain ⟨allowed, movedEq⟩ := Agent.transition_eq_ok accepted
    have condition : rt.KeepsGauge (.transitionAgent id newState now) ↔
        (newState = .crashed → agent.isDone = true → rt.liveAgents = 0) ∧
          (newState = .spawned → agent.state ≠ .crashed) := by
      simp only [KeepsGauge, found, Option.some_inj, forall_eq']
    have counted := liveAgents_pos found
    have wasLive := Agent.not_isDone_of_canTransitionTo allowed
    have nowLive : moved.isDone = false ↔
        newState ≠ .completing ∧ newState ≠ .crashed := by
      rw [Agent.isDone_eq_false_iff, movedEq]
    rw [condition, gaugeTruthful_replace_iff _ moved truthful found
      (by rw [result]), result]
    rw [GaugeTruthful] at truthful
    cases newState with
    | completing =>
        have live : agent.isDone = false := wasLive (by decide) (by decide)
        have positive := counted live
        have done : moved.isDone = true := by simpa using nowLive
        simp only [RuntimeMetrics.recordCompletion, live, done]
        simp
        omega
    | crashed =>
        have done : moved.isDone = true := by simpa using nowLive
        simp only [RuntimeMetrics.recordCrash, done]
        cases before : agent.isDone with
        | false =>
            have positive := counted before
            simp
            omega
        | true =>
            simp
            omega
    | spawned =>
        have crashed := AgentState.canTransitionTo_spawned allowed
        have live : moved.isDone = false := by simpa using nowLive
        have done : agent.isDone = true := by simp [Agent.isDone, crashed]
        simp [live, done, crashed]
    | _ =>
        have live : agent.isDone = false := wasLive (by decide) (by decide)
        have still : moved.isDone = false := by simpa using nowLive
        simp [live, still]

theorem recoverAgent_gaugeTruthful_iff (fits : rt.PoolFits)
    (truthful : rt.GaugeTruthful) (id : String) (now : Nat) :
    (rt.recoverAgent id now).2.GaugeTruthful ↔
      rt.KeepsGauge (.recoverAgent id now) := by
  rcases rt.recoverAgent_cases id now with
    ⟨notCrashed, _, refused, _⟩ | ⟨agent, found, crashed, outcome⟩
  · rw [refused]
    refine iff_of_true truthful ?_
    intro _ agent found
    exact notCrashed agent found
  · have done : agent.isDone = true := by simp [Agent.isDone, crashed]
    have live : (respawn agent now).isDone = false := rfl
    rcases outcome with ⟨full, result⟩ | ⟨room, result⟩
    · rw [gaugeTruthful_replace_iff _ _ truthful found (by rw [result]),
        result, done, live]
      apply iff_of_false
      · simp
      · intro keeps
        exact keeps full agent found crashed
    · have limit := fits.limit
      have bounded := liveAgents_le_size rt
      have within := fits.poolWithinLimit
      have word : rt.metrics.agentsActive + 1 < 2 ^ 64 := by
        rw [truthful]
        omega
      rw [gaugeTruthful_replace_iff _ _ truthful found (by rw [result]),
        result, done, live]
      simp only [RuntimeMetrics.recordSpawn, wrappingAdd_of_lt word]
      apply iff_of_true
      · rfl
      · intro full
        exact absurd full (Nat.not_le.mpr room)

theorem GaugeTruthful.of_writesTracker {next : Runtime}
    (truthful : rt.GaugeTruthful) (writes : rt.WritesTracker next) :
    next.GaugeTruthful := by
  cases writes with
  | unchanged => exact truthful
  | written found tracker systemMemory =>
      apply (gaugeTruthful_replace_iff _ _ truthful found rfl).mpr
      rfl

theorem serve_gaugeTruthful_iff (fits : rt.PoolFits)
    (truthful : rt.GaugeTruthful) (call : Call) :
    (rt.serve call).GaugeTruthful ↔ rt.KeepsGauge call := by
  cases call with
  | spawn config id now elapsedUs =>
      exact iff_of_true
        (spawn_gaugeTruthful fits truthful config id now elapsedUs) trivial
  | kill id now => exact kill_gaugeTruthful_iff truthful id now
  | transitionAgent id newState now =>
      exact transitionAgent_gaugeTruthful_iff truthful id newState now
  | recoverAgent id now =>
      exact recoverAgent_gaugeTruthful_iff fits truthful id now
  | schedulerTick tie =>
      refine iff_of_true ?_ trivial
      rw [GaugeTruthful, serve, (rt.schedulerTick_counters tie).2, liveAgents,
        rt.schedulerTick_agents tie]
      exact truthful
  | agentAllocate id bytes =>
      refine iff_of_true ?_ trivial
      exact truthful.of_writesTracker (rt.agentAllocate_writesTracker id bytes)
  | agentDeallocate id bytes =>
      refine iff_of_true ?_ trivial
      exact truthful.of_writesTracker
        (rt.agentDeallocate_writesTracker id bytes)
  | shutdown =>
      have unmoved : (rt.serve .shutdown).GaugeTruthful ↔
          rt.metrics.agentsActive = 0 := Iff.rfl
      rw [unmoved, truthful]
      exact Iff.rfl

end Steps

/-- In a run of any calls, the gauge is truthful throughout exactly when every
call is one of `KeepsGauge`. -/
theorem gaugeTruthful_throughout_iff (config : RuntimeConfig)
    (calls : List Call) (limit : config.maxAgents < 2 ^ 32) :
    Throughout serve GaugeTruthful (withConfig config) calls ↔
      EachCall serve KeepsGauge (withConfig config) calls :=
  throughout_iff_eachCall
    (fun _ call _ fits => serve_poolFits fits call)
    (fun _ call _ fits truthful =>
      serve_gaugeTruthful_iff fits truthful call)
    (fun _ _ => trivial) (withConfig_poolFits limit)
    (withConfig_gaugeTruthful config)

/-- Four agents, of which one completes, one is killed, and one crashes and is
respawned; the last call is for an agent that is gone. -/
def mixedCalls : List Call :=
  [.spawn { goal := "first" } "agent0000001" 0 5,
    .spawn { goal := "second", priority := .critical } "agent0000002" 1 4,
    .spawn { goal := "third" } "agent0000003" 2 6,
    .transitionAgent "agent0000002" .crashed 3,
    .spawn { goal := "fourth", priority := .low } "agent0000004" 4 5,
    .recoverAgent "agent0000002" 5,
    .kill "agent0000003" 6,
    .schedulerTick 1,
    .transitionAgent "agent0000001" .planning 7,
    .transitionAgent "agent0000001" .thinking 8,
    .transitionAgent "agent0000001" .completing 9,
    .kill "agent0000003" 10]

theorem gaugeTruthful_throughout_mixed :
    ({ maxAgents := 6 } : RuntimeConfig).maxAgents < 2 ^ 32 ∧
      (Throughout serve GaugeTruthful (withConfig { maxAgents := 6 })
          mixedCalls ↔
        EachCall serve KeepsGauge (withConfig { maxAgents := 6 })
          mixedCalls) := by
  have limit : ({ maxAgents := 6 } : RuntimeConfig).maxAgents < 2 ^ 32 := by
    decide
  exact ⟨limit, gaugeTruthful_throughout_iff _ mixedCalls limit⟩

/-- Killing an agent that has crashed decrements the gauge a second time, and
another live agent goes uncounted. -/
theorem kill_after_crash_uncounts :
    ¬ (runCalls serve (withConfig {})
        [.spawn { goal := "first" } "agent0000001" 0 0,
          .spawn { goal := "second" } "agent0000002" 0 0,
          .transitionAgent "agent0000001" .crashed 1,
          .kill "agent0000001" 2]).GaugeTruthful := by
  unfold GaugeTruthful
  decide

end Runtime

end Ughi.Agents
