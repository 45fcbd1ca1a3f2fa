import Ughi.Sandbox.Mediation

/-!
# Quarantine is exact and sticky

`recorded` is the violation a call records, read off the points where an
execution fails.  The history the tracker keeps for an agent is the list of
these since the last release, and the agent is quarantined from the fifth on.
-/

namespace Ughi.Sandbox

open Ughi.Lib

namespace SandboxEngine

variable {host : Host}

/-- A violation by the caller of an execution. -/
def callerViolation (input : SkillInput host) (readings : Readings)
    (reason : String) : Violation :=
  { agentId := input.agentId
    skill := input.skillName
    reason
    timestampMs := readings.recordNow }

/-- The violation an execution records once a token has been found: an exceeded
limit.  A store that refuses its fuel fails without one. -/
def withinRecorded (input : SkillInput host)
    (scope : CapabilityScope) (readings : Readings) : Option Violation :=
  match host.setFuel (fuelBudget scope) with
  | .error _ => none
  | .ok () =>
      let payloadSize := (host.payloadText input.payload).utf8ByteSize
      ((payloadUsage scope payloadSize).checkLimits readings.checkMs
        readings.messageMs).map (callerViolation input readings)

/-- The violation an execution records: an unregistered skill, a denied
capability or an exceeded limit.  A quarantined agent gets none. -/
def executeRecorded (engine : SandboxEngine) (input : SkillInput host)
    (readings : Readings) : Option Violation :=
  if engine.violations.isQuarantined input.agentId then none
  else if !engine.registry.isRegistered input.skillName then
    some (callerViolation input readings "unregistered skill")
  else
    match (engine.capabilities.validate input.agentId input.skillName
        readings.validateNow).1 with
    | .error denial =>
        some (callerViolation input readings
          ("capability denied: " ++ denial.display))
    | .ok token => withinRecorded input token.scope readings

/-- The violation a call records. -/
def recorded (engine : SandboxEngine) : Call host → Option Violation
  | .execute input readings => engine.executeRecorded input readings
  | .executeWasmModule input wasmBytes readings =>
      let validation := preValidate host wasmBytes
      if !validation.valid then
        some (callerViolation input readings validation.reason)
      else engine.executeRecorded input readings
  | _ => none

/-- The agent a call is about. -/
def Call.agent : Call host → String
  | .grant agentId _ _ _ _ => agentId
  | .grantWithScope agentId _ _ _ _ _ => agentId
  | .revokeAll agentId => agentId
  | .releaseQuarantine agentId => agentId
  | .execute input _ => input.agentId
  | .executeWasmModule input _ _ => input.agentId

/-- The violations of an agent since its last release, after one more call. -/
def noteViolation (agentId : String) (engine : SandboxEngine)
    (since : List Violation) : Call host → List Violation
  | .releaseQuarantine released => if released = agentId then [] else since
  | call =>
      match engine.recorded call with
      | some violation =>
          if violation.agentId = agentId then since ++ [violation] else since
      | none => since

/-- The violations of an agent since its last release, or since the start,
after a run. -/
def violationsSince (agentId : String) : SandboxEngine → List Violation →
    List (Call host) → List Violation
  | _, since, [] => since
  | engine, since, call :: calls =>
      violationsSince agentId (engine.serve call)
        (noteViolation agentId engine since call) calls

/-! ## What a call does to the tracker -/

/-- Add a recorded violation. -/
def note (tracker : ViolationTracker) : Option Violation → ViolationTracker
  | none => tracker
  | some violation =>
      (tracker.record violation.agentId violation.skill violation.reason
        violation.timestampMs).2

section Calls

variable (engine : SandboxEngine)

theorem executeWithin_violations_eq_note (input : SkillInput host)
    (scope : CapabilityScope) (readings : Readings) :
    (engine.executeWithin input scope readings).2.violations =
      note engine.violations
        (withinRecorded input scope readings) := by
  rw [executeWithin, withinRecorded]
  cases host.setFuel (fuelBudget scope) with
  | error message => rfl
  | ok _ =>
      dsimp only
      cases (payloadUsage scope
          (host.payloadText input.payload).utf8ByteSize).checkLimits
        readings.checkMs readings.messageMs with
      | some violation => rfl
      | none => rfl

theorem execute_violations_eq_note (input : SkillInput host)
    (readings : Readings) :
    (engine.execute input readings).2.violations =
      note engine.violations (engine.executeRecorded input readings) := by
  rw [execute, executeRecorded]
  by_cases quarantined :
      engine.violations.isQuarantined input.agentId = true
  · rw [if_pos quarantined, if_pos quarantined]
    rfl
  · rw [if_neg quarantined, if_neg quarantined]
    by_cases unregistered :
        (!engine.registry.isRegistered input.skillName) = true
    · rw [if_pos unregistered, if_pos unregistered]
      rfl
    · rw [if_neg unregistered, if_neg unregistered]
      dsimp only
      cases (engine.capabilities.validate input.agentId input.skillName
          readings.validateNow).1 with
      | error denial => rfl
      | ok token =>
          exact executeWithin_violations_eq_note _ input token.scope readings

theorem executeWasmModule_violations (input : SkillInput host)
    (wasmBytes : List UInt8) (readings : Readings) :
    (engine.executeWasmModule input wasmBytes readings).2.violations =
      note engine.violations
        (engine.recorded (.executeWasmModule input wasmBytes readings)) := by
  simp only [executeWasmModule, recorded]
  split
  · rfl
  · exact execute_violations_eq_note engine input readings

theorem serve_violations (call : Call host) :
    (engine.serve call).violations =
      match call with
      | .releaseQuarantine agentId => engine.violations.release agentId
      | call => note engine.violations (engine.recorded call) := by
  cases call with
  | grant agentId skillName ttlMs now nanos =>
      simp only [serve, grant]
      split <;> rfl
  | grantWithScope agentId skillName scope ttlMs now nanos =>
      simp only [serve, grantWithScope]
      split <;> rfl
  | revokeAll agentId => rfl
  | releaseQuarantine agentId => rfl
  | execute input readings =>
      exact execute_violations_eq_note engine input readings
  | executeWasmModule input wasmBytes readings =>
      exact executeWasmModule_violations engine input wasmBytes readings

theorem executeRecorded_agent {input : SkillInput host}
    {readings : Readings} {violation : Violation}
    (records : engine.executeRecorded input readings = some violation) :
    violation.agentId = input.agentId := by
  rw [executeRecorded] at records
  split at records
  · cases records
  · split at records
    · cases records
      rfl
    · split at records
      · cases records
        rfl
      · rw [withinRecorded] at records
        split at records
        · cases records
        · obtain ⟨reason, _, rfl⟩ := Option.map_eq_some_iff.mp records
          rfl

theorem recorded_agent {call : Call host} {violation : Violation}
    (records : engine.recorded call = some violation) :
    violation.agentId = call.agent := by
  cases call with
  | execute input readings => exact executeRecorded_agent engine records
  | executeWasmModule input wasmBytes readings =>
      simp only [recorded] at records
      split at records
      · cases records
        rfl
      · exact executeRecorded_agent engine records
  | grant | grantWithScope | revokeAll | releaseQuarantine => cases records

theorem execute_of_quarantined {input : SkillInput host}
    (quarantined : engine.violations.isQuarantined input.agentId = true)
    (readings : Readings) :
    ∃ failure, (engine.execute input readings).1 = .error failure := by
  rw [execute, if_pos quarantined]
  exact ⟨_, rfl⟩

theorem executeWasmModule_of_quarantined {input : SkillInput host}
    (quarantined : engine.violations.isQuarantined input.agentId = true)
    (wasmBytes : List UInt8) (readings : Readings) :
    ∃ failure,
      (engine.executeWasmModule input wasmBytes readings).1 =
        .error failure := by
  rcases executeWasmModule_cases wasmBytes with ⟨reason, blocked⟩ | run
  · exact ⟨_, congrArg Prod.fst blocked⟩
  · rw [run]
    exact execute_of_quarantined engine quarantined readings

end Calls

/-! ## Exactness -/

/-- The tracker's history of the agent, and its marker. -/
structure Exact (agentId : String) (since : List Violation)
    (tracker : ViolationTracker) : Prop where
  history : tracker.agentViolations agentId = since
  marker : tracker.isQuarantined agentId = true ↔
    quarantineThreshold ≤ since.length

theorem exact_new (agentId : String) : Exact agentId [] .new :=
  { history := rfl
    marker := by simp [ViolationTracker.isQuarantined, ViolationTracker.new,
      quarantineThreshold] }

/-- The length is compared as a 32-bit word, but the marker that the fifth
violation sets stays when the word wraps around. -/
theorem exact_record {agentId : String} {since : List Violation}
    {tracker : ViolationTracker} (tracked : Exact agentId since tracker)
    (violation : Violation) :
    Exact agentId
      (if violation.agentId = agentId then since ++ [violation] else since)
      (note tracker (some violation)) := by
  by_cases own : violation.agentId = agentId
  · subst own
    rw [if_pos rfl]
    refine ⟨?_, ?_⟩
    · rw [note, ViolationTracker.agentViolations_record, if_pos rfl,
        tracked.history]
    · have threshold : quarantineThreshold = 5 := rfl
      rw [note, ViolationTracker.isQuarantined_record, tracked.history,
        decide_eq_true rfl, Bool.true_and, Bool.or_eq_true, tracked.marker,
        decide_eq_true_iff, List.length_append, List.length_singleton,
        threshold]
      omega
  · rw [if_neg own]
    have other : agentId ≠ violation.agentId := Ne.symm own
    refine ⟨?_, ?_⟩
    · rw [note, ViolationTracker.agentViolations_record, if_neg other,
        tracked.history]
    · rw [note, ViolationTracker.isQuarantined_record,
        decide_eq_false other, Bool.false_and, Bool.or_false]
      exact tracked.marker

theorem exact_release {agentId : String} {since : List Violation}
    {tracker : ViolationTracker} (tracked : Exact agentId since tracker)
    (released : String) :
    Exact agentId (if released = agentId then [] else since)
      (tracker.release released) := by
  by_cases own : released = agentId
  · subst own
    rw [if_pos rfl]
    refine ⟨?_, ?_⟩
    · rw [ViolationTracker.agentViolations_release, if_pos rfl]
    · rw [ViolationTracker.isQuarantined_release]
      simp [quarantineThreshold]
  · rw [if_neg own]
    have other : agentId ≠ released := Ne.symm own
    refine ⟨?_, ?_⟩
    · rw [ViolationTracker.agentViolations_release, if_neg other,
        tracked.history]
    · rw [ViolationTracker.isQuarantined_release, decide_eq_false other,
        Bool.not_false, Bool.and_true]
      exact tracked.marker

theorem exact_serve {agentId : String} {since : List Violation}
    {engine : SandboxEngine} (tracked : Exact agentId since engine.violations)
    (call : Call host) :
    Exact agentId (noteViolation agentId engine since call)
      (engine.serve call).violations := by
  have noted : Exact agentId
      (match engine.recorded call with
        | some violation =>
            if violation.agentId = agentId then since ++ [violation]
            else since
        | none => since)
      (note engine.violations (engine.recorded call)) := by
    cases engine.recorded call with
    | none => exact tracked
    | some violation => exact exact_record tracked violation
  rw [serve_violations]
  cases call with
  | releaseQuarantine released => exact exact_release tracked released
  | _ => exact noted

theorem exact_run {agentId : String} {since : List Violation}
    {engine : SandboxEngine} (tracked : Exact agentId since engine.violations)
    (calls : List (Call host)) :
    Exact agentId (violationsSince agentId engine since calls)
      (runCalls serve engine calls).violations := by
  induction calls generalizing engine since with
  | nil => exact tracked
  | cons call calls induction => exact induction (exact_serve tracked call)

/-! ## Stickiness -/

theorem isQuarantined_serve_other {agentId : String} {call : Call host}
    (engine : SandboxEngine) (other : call.agent ≠ agentId) :
    (engine.serve call).violations.isQuarantined agentId =
      engine.violations.isQuarantined agentId := by
  have noted : (note engine.violations
      (engine.recorded call)).isQuarantined agentId =
        engine.violations.isQuarantined agentId := by
    cases records : engine.recorded call with
    | none => rfl
    | some violation =>
        have different : agentId ≠ violation.agentId := by
          rw [recorded_agent engine records]
          exact Ne.symm other
        rw [note, ViolationTracker.isQuarantined_record,
          decide_eq_false different, Bool.false_and, Bool.or_false]
  rw [serve_violations]
  cases call with
  | releaseQuarantine released =>
      have different : agentId ≠ released := Ne.symm other
      rw [ViolationTracker.isQuarantined_release, decide_eq_false different,
        Bool.not_false, Bool.and_true]
  | _ => exact noted

theorem isQuarantined_serve {agentId : String} {call : Call host}
    {engine : SandboxEngine}
    (quarantined : engine.violations.isQuarantined agentId = true)
    (kept : call ≠ .releaseQuarantine agentId) :
    (engine.serve call).violations.isQuarantined agentId = true := by
  have noted : (note engine.violations
      (engine.recorded call)).isQuarantined agentId = true := by
    cases engine.recorded call with
    | none => exact quarantined
    | some violation =>
        rw [note, ViolationTracker.isQuarantined_record, quarantined,
          Bool.true_or]
  rw [serve_violations]
  cases call with
  | releaseQuarantine released =>
      have different : agentId ≠ released := by
        intro same
        exact kept (congrArg Call.releaseQuarantine same.symm)
      rw [ViolationTracker.isQuarantined_release, quarantined,
        decide_eq_false different]
      rfl
  | _ => exact noted

/-- After every run and for every agent: the agent is quarantined exactly when
at least five of its violations were recorded since its last release; then its
executions fail and stay failing until it is released; and calls about other
agents change nothing about it. -/
theorem quarantine_exact_and_sticky (calls : List (Call host))
    (agentId : String) :
    let engine := runCalls serve new calls
    (engine.violations.isQuarantined agentId = true ↔
        5 ≤ (violationsSince agentId new [] calls).length) ∧
      (engine.violations.isQuarantined agentId = true →
        ∀ between : List (Call host),
          (∀ call ∈ between, call ≠ .releaseQuarantine agentId) →
            let later := runCalls serve engine between
            later.violations.isQuarantined agentId = true ∧
              ∀ (input : SkillInput host) (readings : Readings),
                input.agentId = agentId →
                  (∃ failure,
                    (later.execute input readings).1 = .error failure) ∧
                  ∀ wasmBytes, ∃ failure,
                    (later.executeWasmModule input wasmBytes readings).1 =
                      .error failure) ∧
      ∀ call : Call host, call.agent ≠ agentId →
        (engine.serve call).violations.isQuarantined agentId =
          engine.violations.isQuarantined agentId := by
  intro engine
  refine ⟨?_, ?_, ?_⟩
  · exact (exact_run (exact_new agentId) calls).marker
  · intro quarantined between kept later
    have still : later.violations.isQuarantined agentId = true := by
      have preserved : ∀ (state : SandboxEngine) (call : Call host),
          state.violations.isQuarantined agentId = true →
            call ≠ .releaseQuarantine agentId →
              (state.serve call).violations.isQuarantined agentId = true :=
        fun _ _ held spared => isQuarantined_serve held spared
      have spared : EachCall serve
          (fun _ call => call ≠ .releaseQuarantine agentId) engine between :=
        eachCall_of_forall_mem fun _ call member => kept call member
      exact invariant_of_eachCall preserved quarantined spared
    refine ⟨still, ?_⟩
    rintro input readings rfl
    exact ⟨execute_of_quarantined later still readings, fun wasmBytes =>
      executeWasmModule_of_quarantined later still wasmBytes readings⟩
  · intro call other
    exact isQuarantined_serve_other engine other

end SandboxEngine

end Ughi.Sandbox
