import Ughi.Sandbox.Mediation

/-!
# The legacy sandbox and its deadlines

`issueToken` turns a deadline into a time to live and back, with a clock
reading at each turn, and the token it returns is not the token the engine
holds.  A later probe agrees with the returned token exactly under the
condition `HonoursDeadline` on the deadline and the readings.
-/

namespace Ughi.Sandbox

open Ughi.Lib

/-- The clock readings of one issue: for the time to live, for the engine's
own token, and for the returned token. -/
structure IssueReadings where
  ttlNow : Nat
  issueNow : Nat
  nanos : UInt64
  issuedNow : Nat

/-- The wrapper kept for older callers. -/
structure LegacySandbox where
  inner : SandboxEngine

namespace LegacySandbox

def new : LegacySandbox :=
  { inner := .new }

/-- The time to live of a token that is to end at `expiresAt`. -/
def ttl (expiresAt now : Nat) : Nat :=
  if expiresAt > 0 then expiresAt - now else 0

/-- Issue a token.  The outcome of the grant is dropped. -/
def issueToken (sandbox : LegacySandbox) (agentId skillName : String)
    (expiresAt : Nat) (readings : IssueReadings) :
    CapabilityToken × LegacySandbox :=
  let granted := sandbox.inner.grant agentId skillName
    (ttl expiresAt readings.ttlNow) readings.issueNow readings.nanos
  ({ id := "legacy-" ++ agentId
     agentId := agentId
     skillName := skillName
     expiresAt := expiresAt
     issuedAt := readings.issuedNow
     scope := {}
     revoked := false },
    { inner := granted.2 })

/-- Probe a capability by an execution with a null payload.  The time argument
is not looked at. -/
def checkCapability (host : Host) (sandbox : LegacySandbox)
    (agentId skillName : String) (_currentTime : Nat) (readings : Readings) :
    SandboxResult Unit × LegacySandbox :=
  let probe : SkillInput host :=
    { agentId := agentId
      skillName := skillName
      payload := host.null }
  let probed := sandbox.inner.execute probe readings
  (probed.1.map fun _ => (), { inner := probed.2 })

def revokeAll (sandbox : LegacySandbox) (agentId : String) :
    LegacySandbox :=
  { inner := sandbox.inner.revokeAll agentId }

end LegacySandbox

namespace SandboxEngine

variable {host : Host}

/-- The call grants to the agent or revokes its capabilities. -/
def Call.Concerns (agentId : String) : Call host → Prop
  | .grant holder _ _ _ _ | .grantWithScope holder _ _ _ _ _ |
    .revokeAll holder => holder = agentId
  | .releaseQuarantine _ | .execute _ _ | .executeWasmModule _ _ _ => False

/-- The call neither grants to the agent nor revokes from it, and leaves it
without a violation. -/
def Undisturbed (agentId : String) (engine : SandboxEngine)
    (call : Call host) : Prop :=
  ¬ call.Concerns agentId ∧
    (engine.serve call).violations.agentViolations agentId = []

/-- The agent has no violation, and `own` are its tokens. -/
structure Quiet (agentId : String) (own : List CapabilityToken)
    (engine : SandboxEngine) : Prop where
  settled : engine.violations.Settled
  unviolated : engine.violations.agentViolations agentId = []
  owns : ∀ key,
    ((engine.capabilities.tokens.bucket key).filter fun token =>
        token.agentId = agentId) =
      own.filter fun token => token.key = key

section Steps

variable {agentId : String} {own : List CapabilityToken}
  {engine : SandboxEngine}

theorem quiet_new (agentId : String) : Quiet agentId [] new where
  settled := ViolationTracker.settled_new
  unviolated := rfl
  owns _ := rfl

theorem settled_execute (settled : engine.violations.Settled)
    (input : SkillInput host) (readings : Readings) :
    (engine.execute input readings).2.violations.Settled := by
  rcases execute_violations engine input readings with
    same | ⟨reason, recorded⟩
  · rw [same]
    exact settled
  · rw [recorded]
    exact ViolationTracker.settled_record settled _ _ _ _

theorem serve_settled (settled : engine.violations.Settled)
    (call : Call host) : (engine.serve call).violations.Settled := by
  cases call with
  | grant holder skillName ttlMs now nanos =>
      simp only [serve, SandboxEngine.grant]
      split <;> exact settled
  | grantWithScope holder skillName scope ttlMs now nanos =>
      simp only [serve, SandboxEngine.grantWithScope]
      split <;> exact settled
  | revokeAll holder => exact settled
  | releaseQuarantine holder =>
      exact ViolationTracker.settled_release settled holder
  | execute input readings => exact settled_execute settled input readings
  | executeWasmModule input wasmBytes readings =>
      rw [serve]
      rcases executeWasmModule_cases wasmBytes with ⟨reason, blocked⟩ | run
      · rw [blocked]
        exact ViolationTracker.settled_record settled _ _ _ _
      · rw [run]
        exact settled_execute settled input readings

theorem grantWithScope_owns (quiet : Quiet agentId own engine)
    (holder skillName : String) (scope : CapabilityScope) (ttlMs now : Nat)
    (nanos : UInt64)
    (registered : engine.registry.isRegistered skillName = true)
    (key : String) :
    (((engine.grantWithScope holder skillName scope ttlMs now
        nanos).2.capabilities.tokens.bucket key).filter fun token =>
          token.agentId = agentId) =
      (own ++
          if holder = agentId then
            [CapabilityManager.issuedToken holder skillName scope ttlMs now
              nanos]
          else []).filter fun token => token.key = key := by
  have unblocked : (!engine.registry.isRegistered skillName) = false := by
    simp [registered]
  simp only [SandboxEngine.grantWithScope, unblocked, Bool.false_eq_true,
    if_false]
  rw [CapabilityManager.bucket_issue, List.filter_append, List.filter_append,
    quiet.owns key]
  apply congrArg
  by_cases mine : holder = agentId
  · rw [if_pos mine, List.filter_filter]
    apply List.filter_congr
    intro token member
    rw [List.mem_singleton.mp member]
    simp [CapabilityManager.issuedToken, mine]
  · rw [if_neg mine, List.filter_filter, List.filter_eq_nil_iff.mpr]
    · rfl
    · intro token member
      rw [List.mem_singleton.mp member]
      simp [CapabilityManager.issuedToken, mine]

theorem grantWithScope_owns_other (quiet : Quiet agentId own engine)
    {holder : String} (other : holder ≠ agentId) (skillName : String)
    (scope : CapabilityScope) (ttlMs now : Nat) (nanos : UInt64)
    (key : String) :
    (((engine.grantWithScope holder skillName scope ttlMs now
        nanos).2.capabilities.tokens.bucket key).filter fun token =>
          token.agentId = agentId) =
      own.filter fun token => token.key = key := by
  cases registered : engine.registry.isRegistered skillName with
  | true =>
      rw [grantWithScope_owns quiet holder skillName scope ttlMs now nanos
        registered key, if_neg other, List.append_nil]
  | false =>
      simp only [SandboxEngine.grantWithScope, registered, Bool.not_false,
        if_true]
      exact quiet.owns key

theorem revokeAll_owns_other (quiet : Quiet agentId own engine)
    {holder : String} (other : holder ≠ agentId) (key : String) :
    (((engine.revokeAll holder).capabilities.tokens.bucket key).filter
        fun token => token.agentId = agentId) =
      own.filter fun token => token.key = key := by
  simp only [SandboxEngine.revokeAll]
  rw [CapabilityManager.bucket_revokeAll, List.filter_map, ← quiet.owns key]
  have sameAgent : ((fun token : CapabilityToken =>
        decide (token.agentId = agentId)) ∘
          CapabilityToken.revokeIf fun token => token.agentId = holder) =
      fun token => decide (token.agentId = agentId) := by
    funext token
    simp
  rw [sameAgent]
  have untouched : ∀ token ∈ (engine.capabilities.tokens.bucket key).filter
        fun token => token.agentId = agentId,
      (token.revokeIf fun token => token.agentId = holder) = token := by
    intro token member
    have mine : token.agentId = agentId := by
      simpa using (List.mem_filter.mp member).2
    apply CapabilityToken.revokeIf_eq_self
    simp [mine, Ne.symm other]
  rw [List.map_congr_left untouched, List.map_id']

theorem serve_quiet (quiet : Quiet agentId own engine) {call : Call host}
    (undisturbed : Undisturbed agentId engine call) :
    Quiet agentId own (engine.serve call) := by
  obtain ⟨unconcerned, unviolated⟩ := undisturbed
  refine ⟨serve_settled quiet.settled call, unviolated, ?_⟩
  intro key
  cases call with
  | grant holder skillName ttlMs now nanos =>
      rw [serve, grant_eq_grantWithScope]
      exact grantWithScope_owns_other quiet unconcerned _ _ _ _ _ key
  | grantWithScope holder skillName scope ttlMs now nanos =>
      exact grantWithScope_owns_other quiet unconcerned _ _ _ _ _ key
  | revokeAll holder => exact revokeAll_owns_other quiet unconcerned key
  | releaseQuarantine holder => exact quiet.owns key
  | execute input readings =>
      rw [serve, execute_tokens]
      exact quiet.owns key
  | executeWasmModule input wasmBytes readings =>
      rw [serve]
      rcases executeWasmModule_cases wasmBytes with ⟨reason, blocked⟩ | run
      · rw [blocked]
        exact quiet.owns key
      · rw [run, execute_tokens]
        exact quiet.owns key

end Steps

section Probes

variable {calls : List (Call host)} {engine : SandboxEngine}
  {agentId skillName : String} {readings : Readings}

theorem bucket_of_registered (covered : Covered calls engine)
    {own : List CapabilityToken} (quiet : Quiet agentId own engine)
    (registered : SkillRegistry.new.isRegistered skillName = true) :
    engine.capabilities.tokens.bucket (capKey agentId skillName) =
      own.filter fun token => token.key = capKey agentId skillName := by
  rw [← quiet.owns]
  symm
  apply List.filter_eq_self.mpr
  intro token member
  obtain ⟨filed, tokenRegistered, _⟩ := covered.filed _ token member
  have own := capKey_inj
    (SkillRegistry.colon_notMem_of_isRegistered tokenRegistered)
    (SkillRegistry.colon_notMem_of_isRegistered registered) filed
  exact decide_eq_true own.1

/-- The probe of a token is bounded by the time limit alone. -/
theorem executeWithin_null_iff (engine : SandboxEngine)
    (agentId skillName : String)
    (fuelled : ∀ fuel, host.setFuel fuel = .ok ())
    (printed : host.toJson host.null = .ok "null") {scope : CapabilityScope}
    (memory : 4 ≤ scope.maxMemoryBytes) (fuel : 1000 ≤ fuelBudget scope) :
    (∃ output,
        (engine.executeWithin
          { agentId := agentId, skillName := skillName, payload := host.null }
          scope readings).1 = .ok output) ↔
      readings.checkMs ≤ scope.maxTimeMs := by
  have text : host.payloadText host.null = "null" := by
    rw [Host.payloadText, printed]
  have usage : payloadUsage scope "null".utf8ByteSize =
      { limits := executionLimits scope
        memoryUsed := 4
        fuelUsed := 1000 } := by
    have size : "null".utf8ByteSize = 4 := by decide
    have cost : fuelCost 4 = 1000 := by decide
    rw [size, payloadUsage, cost]
    simp [ResourceTracker.start, ResourceTracker.allocate,
      ResourceTracker.consumeFuel, wrappingAdd]
  simp only [executeWithin_eq_ok_iff, fuelled, text, usage,
    ResourceTracker.checkLimits_eq_none_iff, executionLimits]
  simp [memory, fuel]

theorem builtin_scope_roomy {scope : CapabilityScope}
    (found : SkillRegistry.new.defaultScope skillName = some scope) :
    4 ≤ scope.maxMemoryBytes ∧ 1000 ≤ fuelBudget scope := by
  have roomy : ∀ definition ∈ builtinSkills,
      4 ≤ definition.defaultScope.maxMemoryBytes ∧
        1000 ≤ fuelBudget definition.defaultScope := by decide
  obtain ⟨definition, member, rfl⟩ :=
    SkillRegistry.exists_builtin_of_defaultScope found
  exact roomy definition member

/-- A probe of a registered skill succeeds exactly when the agent's token is
valid and the probe is in time. -/
theorem execute_null_iff (fuelled : ∀ fuel, host.setFuel fuel = .ok ())
    (printed : host.toJson host.null = .ok "null")
    (covered : Covered calls engine) {scope : CapabilityScope}
    {ttlMs now : Nat} {nanos : UInt64}
    (found : SkillRegistry.new.defaultScope skillName = some scope)
    (registered : SkillRegistry.new.isRegistered skillName = true)
    (quiet : Quiet agentId
      [CapabilityManager.issuedToken agentId skillName scope ttlMs now nanos]
      engine) :
    (∃ output,
        (engine.execute
          { agentId := agentId, skillName := skillName, payload := host.null }
          readings).1 = .ok output) ↔
      (CapabilityManager.issuedToken agentId skillName scope ttlMs now
          nanos).isValid readings.validateNow = true ∧
        readings.checkMs ≤ scope.maxTimeMs := by
  have free : engine.violations.isQuarantined agentId = false := by
    cases quarantined : engine.violations.isQuarantined agentId with
    | false => rfl
    | true => exact absurd quiet.unviolated (quiet.settled agentId quarantined)
  have bucket : engine.capabilities.tokens.bucket
        (capKey agentId skillName) =
      [CapabilityManager.issuedToken agentId skillName scope ttlMs now
        nanos] := by
    rw [bucket_of_registered covered quiet registered]
    exact List.filter_cons_of_pos (decide_eq_true rfl)
  obtain ⟨memory, fuel⟩ := builtin_scope_roomy found
  simp only [execute_eq_ok_iff, free, covered.registry, registered,
    CapabilityManager.validate_eq_ok_iff, bucket, true_and]
  constructor
  · intro probed
    obtain ⟨output, token, validated, run⟩ := probed
    have issued := List.mem_singleton.mp
      (List.mem_of_find?_eq_some validated)
    have valid := List.find?_some validated
    subst issued
    exact ⟨valid,
      (executeWithin_null_iff engine agentId skillName fuelled printed memory
        fuel).mp ⟨output, run⟩⟩
  · intro granted
    obtain ⟨valid, inTime⟩ := granted
    obtain ⟨output, run⟩ :=
      (executeWithin_null_iff engine agentId skillName fuelled printed memory
        fuel).mpr inTime
    exact ⟨output, _, List.find?_cons_of_pos valid, run⟩

theorem execute_unregistered (covered : Covered calls engine)
    (unregistered : SkillRegistry.new.isRegistered skillName = false) :
    ¬ ∃ output,
        (engine.execute
          { agentId := agentId, skillName := skillName, payload := host.null }
          readings).1 = .ok output := by
  intro probed
  obtain ⟨output, succeeded⟩ := probed
  have registered := (execute_eq_ok_iff.mp succeeded).2.1
  rw [covered.registry, unregistered] at registered
  cases registered

end Probes

end SandboxEngine

namespace LegacySandbox

open SandboxEngine

/-- The sandbox after calls of its inner engine. -/
def afterCalls {host : Host} (sandbox : LegacySandbox)
    (calls : List (Call host)) : LegacySandbox :=
  { inner := runCalls serve sandbox.inner calls }

/-- A deadline and clock readings as the source has them: 64-bit words, the
readings of the issue in order, and the probe after the issue. -/
structure Timely (expiresAt : Nat) (issue : IssueReadings)
    (check : Readings) : Prop where
  positive : 0 < expiresAt
  deadlineWord : expiresAt < 2 ^ 64
  ordered : issue.ttlNow ≤ issue.issueNow
  later : issue.issueNow ≤ check.validateNow
  readingWord : check.validateNow < 2 ^ 64

/-- The deadline as the second reading moves it. -/
def movedDeadline (expiresAt : Nat) (issue : IssueReadings) : Nat :=
  issue.issueNow + (expiresAt - issue.ttlNow)

/-- The time limit of a probe. -/
def timeLimit (skillName : String) : Nat :=
  ((SkillRegistry.new.defaultScope skillName).getD {}).maxTimeMs

/-- Before the deadline the skill is registered, the probe in time, and the
moved deadline within a word.  From the deadline on, unless the probe fails
anyway, the deadline lay ahead at the first reading, and the moved one has
passed as well or has overflowed. -/
def HonoursDeadline (skillName : String) (expiresAt : Nat)
    (issue : IssueReadings) (check : Readings) : Prop :=
  (check.validateNow < expiresAt →
      SkillRegistry.new.isRegistered skillName = true ∧
        check.checkMs ≤ timeLimit skillName ∧
          movedDeadline expiresAt issue ≤ 2 ^ 64) ∧
    (expiresAt ≤ check.validateNow →
      SkillRegistry.new.isRegistered skillName = true →
        check.checkMs ≤ timeLimit skillName →
          issue.ttlNow < expiresAt ∧
            (movedDeadline expiresAt issue ≤ check.validateNow ∨
              2 ^ 64 < movedDeadline expiresAt issue))

/-- A probe after the later calls succeeds exactly when the token that was
returned is valid. -/
def ProbeAgrees (host : Host) (before between : List (Call host))
    (agentId skillName : String) (expiresAt currentTime : Nat)
    (issue : IssueReadings) (check : Readings) : Prop :=
  let issued := (new.afterCalls before).issueToken agentId skillName
    expiresAt issue
  let probed := (issued.2.afterCalls between).checkCapability host agentId
    skillName currentTime check
  probed.1 = .ok () ↔ issued.1.isValid check.validateNow = true

theorem issuedToken_isValid_iff {expiresAt : Nat} {issue : IssueReadings}
    {check : Readings} (timely : Timely expiresAt issue check)
    (agentId skillName : String) (scope : CapabilityScope) :
    (CapabilityManager.issuedToken agentId skillName scope
        (ttl expiresAt issue.ttlNow) issue.issueNow
        issue.nanos).isValid check.validateNow = true ↔
      expiresAt ≤ issue.ttlNow ∨
        movedDeadline expiresAt issue = 2 ^ 64 ∨
          (movedDeadline expiresAt issue < 2 ^ 64 ∧
            check.validateNow < movedDeadline expiresAt issue) := by
  obtain ⟨positive, deadlineWord, ordered, later, readingWord⟩ := timely
  rw [CapabilityToken.isValid_iff]
  simp only [CapabilityManager.issuedToken, ttl, movedDeadline, wrappingAdd,
    if_pos positive, true_and]
  by_cases past : expiresAt ≤ issue.ttlNow
  · simp [past]
  · rw [if_pos (by omega)]
    omega

theorem quiet_grant {host : Host} {calls : List (Call host)}
    {engine : SandboxEngine} {agentId skillName : String}
    (covered : Covered calls engine) (quiet : Quiet agentId [] engine)
    {scope : CapabilityScope}
    (found : SkillRegistry.new.defaultScope skillName = some scope)
    (registered : SkillRegistry.new.isRegistered skillName = true)
    (ttlMs now : Nat) (nanos : UInt64) :
    Quiet agentId
      [CapabilityManager.issuedToken agentId skillName scope ttlMs now nanos]
      (engine.serve (.grant agentId skillName ttlMs now nanos : Call host)) := by
  refine ⟨serve_settled quiet.settled _, ?_, ?_⟩
  · have same : (engine.serve
        (.grant agentId skillName ttlMs now nanos : Call host)).violations =
          engine.violations := by
      simp only [serve, SandboxEngine.grant]
      split <;> rfl
    rw [same]
    exact quiet.unviolated
  · intro key
    have known : engine.registry.isRegistered skillName = true := by
      rw [covered.registry]
      exact registered
    have owns := grantWithScope_owns quiet agentId skillName scope ttlMs now
      nanos known key
    rw [if_pos rfl, List.nil_append] at owns
    simp only [serve, grant_eq_grantWithScope]
    rw [covered.registry, found]
    exact owns

theorem map_unit_eq_ok_iff {Failure Output : Type}
    {result : Except Failure Output} :
    (result.map fun _ => ()) = .ok () ↔ ∃ output, result = .ok output := by
  cases result with
  | error failure => simp [Except.map]
  | ok output => simp [Except.map]

theorem checkCapability_iff (host : Host)
    (fuelled : ∀ fuel, host.setFuel fuel = .ok ())
    (printed : host.toJson host.null = .ok "null")
    (before between : List (Call host)) (agentId skillName : String)
    (expiresAt currentTime : Nat) (issue : IssueReadings) (check : Readings)
    (quietBefore : EachCall serve (Undisturbed agentId) SandboxEngine.new
      before)
    (quietBetween : EachCall serve (Undisturbed agentId)
      ((new.afterCalls before).issueToken agentId skillName expiresAt
        issue).2.inner between) :
    (((((new.afterCalls before).issueToken agentId skillName expiresAt
        issue).2.afterCalls between).checkCapability host agentId skillName
          currentTime check).1 = .ok ()) ↔
      SkillRegistry.new.isRegistered skillName = true ∧
        (CapabilityManager.issuedToken agentId skillName
            ((SkillRegistry.new.defaultScope skillName).getD {})
            (ttl expiresAt issue.ttlNow) issue.issueNow
            issue.nanos).isValid check.validateNow = true ∧
          check.checkMs ≤ timeLimit skillName := by
  let grant : Call host := .grant agentId skillName
    (ttl expiresAt issue.ttlNow) issue.issueNow issue.nanos
  let first := runCalls serve SandboxEngine.new before
  let granted := first.serve grant
  let last := runCalls serve granted between
  have preserved : ∀ own engine (call : Call host), Quiet agentId own engine →
      Undisturbed agentId engine call →
        Quiet agentId own (engine.serve call) :=
    fun _ _ _ quiet undisturbed => serve_quiet quiet undisturbed
  have firstCovered : Covered before first := covered_afterRun before
  have firstQuiet : Quiet agentId [] first :=
    invariant_of_eachCall (preserved []) (quiet_new agentId) quietBefore
  have covered : Covered (before ++ grant :: between) last := by
    have whole := covered_afterRun (before ++ grant :: between)
    rwa [runCalls_append, runCalls_cons] at whole
  have answers : ((last.execute
        { agentId := agentId, skillName := skillName, payload := host.null }
        check).1.map fun _ => ()) = .ok () ↔
      ∃ output, (last.execute
        { agentId := agentId, skillName := skillName, payload := host.null }
        check).1 = .ok output :=
    map_unit_eq_ok_iff
  apply answers.trans
  cases registered : SkillRegistry.new.isRegistered skillName with
  | false => simp [execute_unregistered covered registered]
  | true =>
      obtain ⟨scope, found⟩ := SkillRegistry.exists_defaultScope registered
      have grantedQuiet := quiet_grant firstCovered firstQuiet found registered
        (ttl expiresAt issue.ttlNow) issue.issueNow issue.nanos
      have lastQuiet := invariant_of_eachCall (preserved _) grantedQuiet
        quietBetween
      have limit : timeLimit skillName = scope.maxTimeMs := by
        rw [timeLimit, found]
        rfl
      rw [execute_null_iff fuelled printed covered found registered lastQuiet,
        limit, found]
      simp

/-- A probe agrees with the returned token exactly when the deadline is
honoured. -/
theorem probeAgrees_iff (host : Host)
    (fuelled : ∀ fuel, host.setFuel fuel = .ok ())
    (printed : host.toJson host.null = .ok "null")
    (before between : List (Call host)) (agentId skillName : String)
    (expiresAt currentTime : Nat) (issue : IssueReadings) (check : Readings)
    (timely : Timely expiresAt issue check)
    (quietBefore : EachCall serve (Undisturbed agentId) SandboxEngine.new
      before)
    (quietBetween : EachCall serve (Undisturbed agentId)
      ((new.afterCalls before).issueToken agentId skillName expiresAt
        issue).2.inner between) :
    ProbeAgrees host before between agentId skillName expiresAt currentTime
        issue check ↔
      HonoursDeadline skillName expiresAt issue check := by
  have answers := checkCapability_iff host fuelled printed before between
    agentId skillName expiresAt currentTime issue check quietBefore quietBetween
  rw [issuedToken_isValid_iff timely] at answers
  have returned : (((new.afterCalls before).issueToken agentId skillName
        expiresAt issue).1.isValid check.validateNow = true) ↔
      check.validateNow < expiresAt := by
    rw [CapabilityToken.isValid_iff]
    have positive := timely.positive
    simp only [issueToken, true_and]
    omega
  rw [ProbeAgrees, answers, returned, HonoursDeadline]
  obtain ⟨positive, deadlineWord, ordered, later, readingWord⟩ := timely
  have moved : movedDeadline expiresAt issue =
    issue.issueNow + (expiresAt - issue.ttlNow) := rfl
  by_cases ahead : check.validateNow < expiresAt
  · have start : issue.ttlNow < expiresAt := by omega
    have reached : check.validateNow < movedDeadline expiresAt issue := by
      omega
    have behind : ¬ expiresAt ≤ check.validateNow := by omega
    have running : ¬ expiresAt ≤ issue.ttlNow := by omega
    simp only [ahead, behind, running, reached, and_true, iff_true,
      true_implies, false_implies, false_or, and_true]
    constructor
    · intro granted
      obtain ⟨registered, within, inTime⟩ := granted
      exact ⟨registered, inTime, by omega⟩
    · intro honoured
      obtain ⟨registered, inTime, within⟩ := honoured
      exact ⟨registered, by omega, inTime⟩
  · have behind : expiresAt ≤ check.validateNow := by omega
    simp only [ahead, behind, iff_false, true_implies, false_implies,
      true_and]
    constructor
    · intro refused registered inTime
      have spent : ¬ (expiresAt ≤ issue.ttlNow ∨
          movedDeadline expiresAt issue = 2 ^ 64 ∨
            (movedDeadline expiresAt issue < 2 ^ 64 ∧
              check.validateNow < movedDeadline expiresAt issue)) := by
        intro valid
        exact refused ⟨registered, valid, inTime⟩
      omega
    · intro passed granted
      obtain ⟨registered, valid, inTime⟩ := granted
      obtain ⟨start, spent⟩ := passed registered inTime
      omega

theorem probeAgrees_in_time :
    let issue : IssueReadings :=
      { ttlNow := 1000, issueNow := 1003, nanos := 7, issuedNow := 1003 }
    let check : Readings :=
      { validateNow := 1900
        recordNow := 1900
        checkMs := 1
        messageMs := 1
        usageMs := 2
        latencyMs := 2 }
    ProbeAgrees obligingHost [] [.revokeAll "b"] "a" "web_search" 2000 0 issue
        check ↔
      HonoursDeadline "web_search" 2000 issue check :=
  probeAgrees_iff obligingHost (fun _ => rfl) rfl [] [.revokeAll "b"] "a"
    "web_search" 2000 0
    { ttlNow := 1000, issueNow := 1003, nanos := 7, issuedNow := 1003 }
    { validateNow := 1900
      recordNow := 1900
      checkMs := 1
      messageMs := 1
      usageMs := 2
      latencyMs := 2 }
    ⟨by decide, by decide, by decide, by decide, by decide⟩ trivial
    ⟨⟨by simp [Call.Concerns], rfl⟩, trivial⟩

/-- A deadline that is already past is granted for ever. -/
theorem past_deadline_granted :
    ¬ ∀ (before between : List (Call obligingHost))
        (agentId skillName : String) (expiresAt currentTime : Nat)
        (issue : IssueReadings) (check : Readings),
      Timely expiresAt issue check →
        EachCall serve (Undisturbed agentId) SandboxEngine.new before →
          EachCall serve (Undisturbed agentId)
            ((new.afterCalls before).issueToken agentId skillName expiresAt
              issue).2.inner between →
            ProbeAgrees obligingHost before between agentId skillName
              expiresAt currentTime issue check := by
  intro claimed
  let issue : IssueReadings :=
    { ttlNow := 1000, issueNow := 1000, nanos := 7, issuedNow := 1000 }
  let check : Readings :=
    { validateNow := 2000
      recordNow := 2000
      checkMs := 1
      messageMs := 1
      usageMs := 2
      latencyMs := 2 }
  have timely : Timely 500 issue check :=
    ⟨by decide, by decide, by decide, by decide, by decide⟩
  have agrees := claimed [] [] "a" "web_search" 500 2000 issue check timely
    trivial trivial
  have probed := (checkCapability_iff obligingHost (fun _ => rfl) rfl [] []
    "a" "web_search" 500 2000 issue check trivial trivial).mpr
      ⟨rfl, by decide, by decide⟩
  have valid := agrees.mp probed
  exact absurd valid (by decide)

end LegacySandbox

end Ughi.Sandbox
