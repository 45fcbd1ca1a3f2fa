import Ughi.Lib.Projection
import Ughi.Sandbox.Mediation

/-!
# The counters of the engine

Every exit of an execution moves one of two counters, but for those between
the capability check and the result: a store that takes no fuel, and a limit
that was exceeded.
-/

namespace Ughi.Sandbox

open Ughi.Lib

namespace SandboxEngine

variable {host : Host}

/-- The two ways to run a skill. -/
inductive Execution (host : Host) where
  | execute (input : SkillInput host) (readings : Readings)
  | executeWasmModule (input : SkillInput host) (wasmBytes : List UInt8)
      (readings : Readings)

def perform (engine : SandboxEngine) : Execution host →
    SandboxResult SkillOutput × SandboxEngine
  | .execute input readings => engine.execute input readings
  | .executeWasmModule input wasmBytes readings =>
      engine.executeWasmModule input wasmBytes readings

/-- The execution returned a result. -/
def succeeded (result : SandboxResult SkillOutput) : Bool :=
  result.toOption.isSome

/-- A call that fails is counted as blocked and as nothing else. -/
def FailureBlocked (engine : SandboxEngine) (call : Execution host) : Prop :=
  succeeded (engine.perform call).1 = false →
    (engine.perform call).2.totalExecutions = engine.totalExecutions ∧
      (engine.perform call).2.totalFuelConsumed = engine.totalFuelConsumed ∧
      (engine.perform call).2.totalBlocked = engine.totalBlocked + 1

/-- Since `start`, both counters together count the calls, and the executions
those that returned a result. -/
def CallsCounted (start : SandboxEngine) (calls : List (Execution host)) :
    Prop :=
  let final := runCalls (afterCall perform) start calls
  final.totalExecutions + final.totalBlocked =
      start.totalExecutions + start.totalBlocked + calls.length ∧
    final.totalExecutions = start.totalExecutions +
      (answers perform start calls).countP succeeded

/-- The call passes the quarantine, the registry and the capability check, and
then the store takes no fuel or a limit is exceeded. -/
def StoppedWithin (engine : SandboxEngine) (input : SkillInput host)
    (readings : Readings) : Prop :=
  engine.violations.isQuarantined input.agentId = false ∧
    engine.registry.isRegistered input.skillName = true ∧
      ∃ token,
        (engine.capabilities.validate input.agentId input.skillName
            readings.validateNow).1 = .ok token ∧
          ¬ (host.setFuel (fuelBudget token.scope) = .ok () ∧
            (payloadUsage token.scope
                (host.payloadText input.payload).utf8ByteSize).checkLimits
              readings.checkMs readings.messageMs = none)

/-- The call is stopped within its execution; a module passed its validation
first. -/
def Stopped (engine : SandboxEngine) : Execution host → Prop
  | .execute input readings => engine.StoppedWithin input readings
  | .executeWasmModule input wasmBytes readings =>
      (preValidate host wasmBytes).valid = true ∧
        engine.StoppedWithin input readings

/-! ## One call -/

/-- A call moved exactly the counter that belongs to its outcome. -/
def Counted (before after : SandboxEngine) : Bool → Prop
  | true => after.totalExecutions = before.totalExecutions + 1 ∧
      after.totalBlocked = before.totalBlocked
  | false => after.totalExecutions = before.totalExecutions ∧
      after.totalFuelConsumed = before.totalFuelConsumed ∧
      after.totalBlocked = before.totalBlocked + 1

/-- A call failed and moved no counter of calls. -/
def Uncounted (before after : SandboxEngine) (ran : Bool) : Prop :=
  ran = false ∧ after.totalBlocked = before.totalBlocked

section Calls

variable {engine : SandboxEngine} {input : SkillInput host}
  {readings : Readings}

theorem executeWithin_counted {scope : CapabilityScope}
    (fuelled : host.setFuel (fuelBudget scope) = .ok ())
    (within : (payloadUsage scope
        (host.payloadText input.payload).utf8ByteSize).checkLimits
      readings.checkMs readings.messageMs = none) :
    Counted engine (engine.executeWithin input scope readings).2
      (succeeded (engine.executeWithin input scope readings).1) := by
  simp only [executeWithin, fuelled, within]
  exact ⟨rfl, rfl⟩

theorem executeWithin_uncounted {scope : CapabilityScope}
    (stopped : ¬ (host.setFuel (fuelBudget scope) = .ok () ∧
      (payloadUsage scope
          (host.payloadText input.payload).utf8ByteSize).checkLimits
        readings.checkMs readings.messageMs = none)) :
    Uncounted engine (engine.executeWithin input scope readings).2
      (succeeded (engine.executeWithin input scope readings).1) := by
  simp only [executeWithin]
  split
  · exact ⟨rfl, rfl⟩
  next fuelled =>
    split
    · exact ⟨rfl, rfl⟩
    next within => exact absurd ⟨fuelled, within⟩ stopped

theorem execute_counted (running : ¬ engine.StoppedWithin input readings) :
    Counted engine (engine.execute input readings).2
      (succeeded (engine.execute input readings).1) := by
  simp only [execute]
  split
  · exact ⟨rfl, rfl, rfl⟩
  next free =>
    split
    · exact ⟨rfl, rfl, rfl⟩
    next registered =>
      split
      · exact ⟨rfl, rfl, rfl⟩
      next token granted =>
        have within : host.setFuel (fuelBudget token.scope) = .ok () ∧
            (payloadUsage token.scope
                (host.payloadText input.payload).utf8ByteSize).checkLimits
              readings.checkMs readings.messageMs = none := by
          apply Classical.byContradiction
          intro stopped
          apply running
          exact ⟨by simpa using free, by simpa using registered, token,
            granted, stopped⟩
        have counted := @executeWithin_counted host engine input readings
          token.scope within.1 within.2
        simp only [executeWithin, within.1, within.2] at counted ⊢
        exact counted

theorem execute_uncounted (stopped : engine.StoppedWithin input readings) :
    Uncounted engine (engine.execute input readings).2
      (succeeded (engine.execute input readings).1) := by
  obtain ⟨free, registered, token, granted, outside⟩ := stopped
  simp only [execute, free, registered, granted, Bool.not_true,
    Bool.false_eq_true, if_false]
  exact executeWithin_uncounted outside

theorem perform_counted {call : Execution host}
    (running : ¬ engine.Stopped call) :
    Counted engine (engine.perform call).2
      (succeeded (engine.perform call).1) := by
  cases call with
  | execute input readings => exact execute_counted running
  | executeWasmModule input wasmBytes readings =>
      simp only [perform, executeWasmModule]
      split
      · exact ⟨rfl, rfl, rfl⟩
      next valid =>
        apply execute_counted
        intro stopped
        exact running ⟨by simpa using valid, stopped⟩

theorem perform_uncounted {call : Execution host}
    (stopped : engine.Stopped call) :
    Uncounted engine (engine.perform call).2
      (succeeded (engine.perform call).1) := by
  cases call with
  | execute input readings => exact execute_uncounted stopped
  | executeWasmModule input wasmBytes readings =>
      obtain ⟨valid, within⟩ := stopped
      simp only [perform, executeWasmModule, valid]
      exact execute_uncounted within

theorem failureBlocked_iff {call : Execution host} :
    engine.FailureBlocked call ↔ ¬ engine.Stopped call := by
  constructor
  · intro blocked stopped
    obtain ⟨failed, uncounted⟩ := perform_uncounted stopped
    have counted := (blocked failed).2.2
    omega
  · intro running failed
    have counted := perform_counted running
    rw [failed] at counted
    exact counted

end Calls

/-! ## Runs -/

theorem callsCounted_of_running {start : SandboxEngine}
    {calls : List (Execution host)}
    (running : EachCall (afterCall perform)
      (fun engine call => ¬ engine.Stopped call) start calls) :
    CallsCounted start calls := by
  induction calls generalizing start with
  | nil => exact ⟨rfl, rfl⟩
  | cons call calls induction =>
      obtain ⟨now, later⟩ := running
      obtain ⟨total, executions⟩ := induction later
      have counted := perform_counted now
      simp only [CallsCounted, runCalls_cons, answers_cons, List.length_cons,
        List.countP_cons]
      simp only [afterCall] at total executions ⊢
      cases outcome : succeeded (start.perform call).1 with
      | true =>
          rw [outcome] at counted
          obtain ⟨ran, unblocked⟩ := counted
          rw [total, executions, ran, unblocked]
          simp
          omega
      | false =>
          rw [outcome] at counted
          obtain ⟨unran, _, blocked⟩ := counted
          rw [total, executions, unran, blocked]
          simp
          omega

/-- Throughout a run every call is counted once, by its outcome, exactly when
no call of the run is stopped within its execution. -/
theorem calls_counted_iff (start : SandboxEngine)
    (calls : List (Execution host)) :
    ((∀ served, served <+: calls → CallsCounted start served) ∧
        EachCall (afterCall perform) FailureBlocked start calls) ↔
      EachCall (afterCall perform) (fun engine call => ¬ engine.Stopped call)
        start calls := by
  have alike : EachCall (afterCall perform) FailureBlocked start calls ↔
      EachCall (afterCall perform) (fun engine call => ¬ engine.Stopped call)
        start calls := by
    apply @eachCall_congr _ _ _ (fun _ => True) _ _ _ _ start trivial
    · intro engine call _ _
      trivial
    · intro engine call _
      exact failureBlocked_iff
  constructor
  · intro both
    exact alike.mp both.2
  · intro running
    refine ⟨?_, alike.mpr running⟩
    intro served isPrefix
    obtain ⟨rest, rfl⟩ := isPrefix
    exact callsCounted_of_running ((eachCall_append _ _ _ _ _).mp running).1

/-- A token whose scope allows less fuel than a call costs: the call fails and
neither counter moves. -/
theorem limit_refusal_uncounted :
    let engine := (new.grantWithScope "a" "web_search"
      { maxMemoryBytes := 4500 } 0 1000 7).2
    let call : Execution obligingHost := .execute
      { agentId := "a", skillName := "web_search", payload := () }
      { validateNow := 1200
        recordNow := 1200
        checkMs := 1
        messageMs := 1
        usageMs := 2
        latencyMs := 2 }
    (engine.perform call).1 =
        .error (.resourceExceeded "fuel: 1000 > 100" 0 0) ∧
      ¬ ((∀ served, served <+: [call] → CallsCounted engine served) ∧
        EachCall (afterCall perform) FailureBlocked engine [call]) := by
  intro engine call
  have refused : (engine.perform call).1 =
      .error (.resourceExceeded "fuel: 1000 > 100" 0 0) := by
    rfl
  refine ⟨refused, ?_⟩
  intro both
  have total := (both.1 [call] (List.prefix_refl _)).1
  have unmoved : (engine.perform call).2.totalExecutions +
      (engine.perform call).2.totalBlocked = 0 := by
    rfl
  have counted := unmoved.symm.trans total
  cases counted

end SandboxEngine

end Ughi.Sandbox
