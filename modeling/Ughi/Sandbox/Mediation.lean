import Ughi.Sandbox.Engine
import Ughi.Sandbox.Isolation

/-!
# Complete mediation

A grant is live until the agent's capabilities are revoked.  Every unrevoked
token of the engine was given by a live grant, and the key text of a token has
only one reading, because registered skill names have no colon.  So every
successful execution stands on a live grant to exactly its agent and skill.
-/

namespace Ughi.Sandbox

open Ughi.Lib

namespace SandboxEngine

variable {host : Host}

inductive Call (host : Host) where
  | grant (agentId skillName : String) (ttlMs now : Nat) (nanos : UInt64)
  | grantWithScope (agentId skillName : String) (scope : CapabilityScope)
      (ttlMs now : Nat) (nanos : UInt64)
  | revokeAll (agentId : String)
  | releaseQuarantine (agentId : String)
  | execute (input : SkillInput host) (readings : Readings)
  | executeWasmModule (input : SkillInput host) (wasmBytes : List UInt8)
      (readings : Readings)

def serve (engine : SandboxEngine) : Call host → SandboxEngine
  | .grant agentId skillName ttlMs now nanos =>
      (engine.grant agentId skillName ttlMs now nanos).2
  | .grantWithScope agentId skillName scope ttlMs now nanos =>
      (engine.grantWithScope agentId skillName scope ttlMs now nanos).2
  | .revokeAll agentId => engine.revokeAll agentId
  | .releaseQuarantine agentId => engine.releaseQuarantine agentId
  | .execute input readings => (engine.execute input readings).2
  | .executeWasmModule input wasmBytes readings =>
      (engine.executeWasmModule input wasmBytes readings).2

/-- The token a call asks for. -/
def Call.request : Call host → Option CapabilityToken
  | .grant agentId skillName ttlMs now nanos =>
      some (CapabilityManager.issuedToken agentId skillName
        ((SkillRegistry.new.defaultScope skillName).getD {}) ttlMs now nanos)
  | .grantWithScope agentId skillName scope ttlMs now nanos =>
      some (CapabilityManager.issuedToken agentId skillName scope ttlMs now
        nanos)
  | _ => none

/-- A call of the history granted the token for a registered skill, and its
agent's capabilities have not been revoked since. -/
def LiveGrant (calls : List (Call host)) (token : CapabilityToken) : Prop :=
  ∃ before call after, calls = before ++ call :: after ∧
    call.request = some token ∧
      SkillRegistry.new.isRegistered token.skillName = true ∧
        ∀ later ∈ after, later ≠ .revokeAll token.agentId

/-- An execution with this output was entitled to it. -/
structure Mediated (calls : List (Call host)) (engine : SandboxEngine)
    (input : SkillInput host) (readings : Readings) (output : SkillOutput) :
    Prop where
  free : engine.violations.isQuarantined input.agentId = false
  registered : engine.registry.isRegistered input.skillName = true
  granted : ∃ token, LiveGrant calls token ∧
    token.IssuedTo input.agentId input.skillName ∧
      token.isExpired readings.validateNow = false ∧
        output.resourceUsage.memoryBytes ≤ token.scope.maxMemoryBytes ∧
          output.resourceUsage.fuelUsed ≤ fuelBudget token.scope

/-- Every filed token is for a registered skill, and the unrevoked ones come
from live grants. -/
structure Covered (calls : List (Call host)) (engine : SandboxEngine) :
    Prop where
  registry : engine.registry = .new
  filed : ∀ key, ∀ token ∈ engine.capabilities.tokens.bucket key,
    token.key = key ∧
      SkillRegistry.new.isRegistered token.skillName = true ∧
        (token.revoked = false → LiveGrant calls token)

section Steps

variable {calls : List (Call host)} {engine : SandboxEngine}
  {token : CapabilityToken} {call : Call host}

theorem LiveGrant.extend (live : LiveGrant calls token)
    (spared : call ≠ .revokeAll token.agentId) :
    LiveGrant (calls ++ [call]) token := by
  obtain ⟨before, grant, after, history, requested, registered, since⟩ := live
  refine ⟨before, grant, after ++ [call], ?_, requested, registered, ?_⟩
  · rw [history, List.append_assoc, List.cons_append]
  · intro later member
    rcases List.mem_append.mp member with earlier | last
    · exact since later earlier
    · rw [List.mem_singleton.mp last]
      exact spared

theorem liveGrant_last (requested : call.request = some token)
    (registered : SkillRegistry.new.isRegistered token.skillName = true) :
    LiveGrant (calls ++ [call]) token :=
  ⟨calls, call, [], rfl, requested, registered, fun _ member => nomatch member⟩

theorem covered_new : Covered ([] : List (Call host)) new where
  registry := rfl
  filed _ _ member := nomatch member

theorem Covered.idle (covered : Covered calls engine)
    {next : SandboxEngine}
    (registry : next.registry = engine.registry)
    (tokens : next.capabilities.tokens = engine.capabilities.tokens)
    (spared : ∀ agentId, call ≠ .revokeAll agentId) :
    Covered (calls ++ [call]) next where
  registry := registry.trans covered.registry
  filed key token member := by
    rw [tokens] at member
    obtain ⟨filed, registered, live⟩ := covered.filed key token member
    refine ⟨filed, registered, ?_⟩
    intro unrevoked
    exact (live unrevoked).extend (spared token.agentId)

theorem Covered.grantWithScope (covered : Covered calls engine)
    {agentId skillName : String} {scope : CapabilityScope} {ttlMs now : Nat}
    {nanos : UInt64}
    (requested : call.request = some (CapabilityManager.issuedToken agentId
      skillName scope ttlMs now nanos))
    (spared : ∀ agentId, call ≠ .revokeAll agentId) :
    Covered (calls ++ [call])
      (engine.grantWithScope agentId skillName scope ttlMs now nanos).2 := by
  simp only [SandboxEngine.grantWithScope]
  split
  · exact covered.idle rfl rfl spared
  next known =>
    rw [covered.registry] at known
    have registered : SkillRegistry.new.isRegistered skillName = true := by
      simpa using known
    constructor
    · exact covered.registry
    · intro key token member
      rw [CapabilityManager.bucket_issue, List.mem_append,
        List.mem_filter] at member
      rcases member with old | ⟨isNew, filed⟩
      · obtain ⟨filed, oldRegistered, live⟩ := covered.filed key token old
        refine ⟨filed, oldRegistered, ?_⟩
        intro unrevoked
        exact (live unrevoked).extend (spared token.agentId)
      · rw [List.mem_singleton.mp isNew] at filed ⊢
        exact ⟨of_decide_eq_true filed, registered,
          fun _ => liveGrant_last requested registered⟩

theorem Covered.revokeAll (covered : Covered calls engine)
    (agentId : String) :
    Covered (calls ++ [.revokeAll agentId]) (engine.revokeAll agentId) where
  registry := covered.registry
  filed key token member := by
    simp only [SandboxEngine.revokeAll] at member
    rw [CapabilityManager.bucket_revokeAll] at member
    obtain ⟨old, oldMember, rfl⟩ := List.mem_map.mp member
    obtain ⟨filed, registered, live⟩ := covered.filed key old oldMember
    refine ⟨by simpa using filed, by simpa using registered, ?_⟩
    intro unrevoked
    have missed := CapabilityToken.hit_eq_false_of_revokeIf unrevoked
    rw [CapabilityToken.revokeIf_eq_self missed] at unrevoked ⊢
    apply (live unrevoked).extend
    intro same
    cases same
    simp at missed

theorem serve_covered (covered : Covered calls engine) (call : Call host) :
    Covered (calls ++ [call]) (engine.serve call) := by
  cases call with
  | grant agentId skillName ttlMs now nanos =>
      rw [serve, grant_eq_grantWithScope]
      apply covered.grantWithScope
      · rw [covered.registry, Call.request]
      · simp
  | grantWithScope agentId skillName scope ttlMs now nanos =>
      exact covered.grantWithScope rfl (by simp)
  | revokeAll agentId => exact covered.revokeAll agentId
  | releaseQuarantine agentId => exact covered.idle rfl rfl (by simp)
  | execute input readings =>
      exact covered.idle execute_registry execute_tokens (by simp)
  | executeWasmModule input wasmBytes readings =>
      rw [serve]
      rcases executeWasmModule_cases wasmBytes with ⟨reason, blocked⟩ | run
      · rw [blocked]
        exact covered.idle rfl rfl (by simp)
      · rw [run]
        exact covered.idle execute_registry execute_tokens (by simp)

end Steps

theorem covered_afterRun (calls : List (Call host)) :
    Covered calls (runCalls serve new calls) := by
  apply invariant_of_history covered_new
  intro served engine call covered
  exact serve_covered covered call

theorem Covered.validated {calls : List (Call host)} {engine : SandboxEngine}
    (covered : Covered calls engine) {agentId skillName : String} {now : Nat}
    {token : CapabilityToken}
    (registered : engine.registry.isRegistered skillName = true)
    (validated : (engine.capabilities.validate agentId skillName now).1 =
      .ok token) :
    LiveGrant calls token ∧ token.IssuedTo agentId skillName ∧
      token.isExpired now = false := by
  rw [CapabilityManager.validate_eq_ok_iff] at validated
  rw [covered.registry] at registered
  have member := List.mem_of_find?_eq_some validated
  have holds := List.find?_some validated
  have valid := CapabilityToken.isValid_iff.mp holds
  obtain ⟨filed, tokenRegistered, live⟩ := covered.filed _ token member
  have own : token.IssuedTo agentId skillName :=
    capKey_inj (SkillRegistry.colon_notMem_of_isRegistered tokenRegistered)
      (SkillRegistry.colon_notMem_of_isRegistered registered) filed
  refine ⟨live valid.1, own, ?_⟩
  rw [CapabilityToken.isExpired, Bool.and_eq_false_iff,
    decide_eq_false_iff_not, decide_eq_false_iff_not]
  rcases valid.2 with forever | unexpired
  · exact .inl (by omega)
  · exact .inr (by omega)

/-- After every run, a successful execution was entitled to its output. -/
theorem execute_mediated (calls : List (Call host)) (input : SkillInput host)
    (readings : Readings) (output : SkillOutput)
    (succeeded : ((runCalls serve new calls).execute input readings).1 =
      .ok output) :
    Mediated calls (runCalls serve new calls) input readings output := by
  obtain ⟨free, registered, token, validated, run⟩ :=
    execute_eq_ok_iff.mp succeeded
  obtain ⟨memory, fuel⟩ := usage_of_executeWithin run
  obtain ⟨live, own, unexpired⟩ :=
    (covered_afterRun calls).validated registered validated
  exact
    { free := free
      registered := registered
      granted := ⟨token, live, own, unexpired, memory, fuel⟩ }

/-- A host whose calls all succeed. -/
def obligingHost : Host :=
  { setFuel := fun _ => .ok ()
    validate := fun _ => .ok ()
    compile := fun _ => .ok { imports := [], exportsCount := 0 }
    Value := Unit
    null := ()
    toJson := fun _ => .ok "null" }

theorem execute_mediated_granted :
    let calls : List (Call obligingHost) :=
      [.revokeAll "a:b", .grant "a:b" "web_search" 500 1000 7]
    let input : SkillInput obligingHost :=
      { agentId := "a:b", skillName := "web_search", payload := () }
    let readings : Readings :=
      { validateNow := 1200
        recordNow := 1200
        checkMs := 1
        messageMs := 1
        usageMs := 2
        latencyMs := 2 }
    let scope := (SkillRegistry.new.defaultScope "web_search").getD {}
    Mediated calls (runCalls serve new calls) input readings
      (skillOutput input scope 4 readings) :=
  execute_mediated _ _ _ _ rfl

end SandboxEngine

end Ughi.Sandbox
