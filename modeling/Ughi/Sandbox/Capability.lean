import Ughi.Lib.HashMap
import Ughi.Lib.Text
import Ughi.Lib.Vec
import Ughi.Lib.Word

/-!
# Capability tokens

The manager keeps tokens in buckets under the text `agent:skill`, each bucket
in the order of issue.  Validation takes the first valid token of a bucket,
revocation marks tokens wherever they are, and a cleanup drops the tokens that
are no longer valid.
-/

namespace Ughi.Sandbox

open Ughi.Lib

/-- The errors the modelled operations return. -/
inductive SandboxError where
  | capabilityDenied (agentId skill : String)
  | capabilityExpired (agentId skill : String)
  | skillNotRegistered (skill : String)
  | resourceExceeded (resource : String) (used limit : Nat)
  | agentQuarantined (agentId : String) (count : Nat)
deriving DecidableEq, Repr

/-- The text an error is displayed as. -/
def SandboxError.display : SandboxError → String
  | .capabilityDenied agentId skill =>
      "capability denied: agent " ++ agentId ++ " lacks token for " ++ skill
  | .capabilityExpired agentId skill =>
      "capability expired: agent " ++ agentId ++ " token for " ++ skill ++
        " expired"
  | .skillNotRegistered skill => "skill not registered: " ++ skill
  | .resourceExceeded resource used limit =>
      "resource limit exceeded: " ++ resource ++ " (" ++ used.repr ++ " > " ++
        limit.repr ++ ")"
  | .agentQuarantined agentId count =>
      "agent quarantined: " ++ agentId ++ " (violations: " ++ count.repr ++ ")"

abbrev SandboxResult (α : Type) : Type := Except SandboxError α

structure CapabilityScope where
  allowedPaths : List String := []
  allowedHosts : List String := []
  maxMemoryBytes : Nat := 45 * 1024 * 1024
  maxTimeMs : Nat := 420
  canSpawn : Bool := false
  readOnly : Bool := true
deriving DecidableEq, Repr

structure CapabilityToken where
  id : String
  agentId : String
  skillName : String
  expiresAt : Nat
  issuedAt : Nat
  scope : CapabilityScope
  revoked : Bool
deriving DecidableEq, Repr

namespace CapabilityToken

def isValid (token : CapabilityToken) (currentTimeMs : Nat) : Bool :=
  !token.revoked &&
    (token.expiresAt = 0 || token.expiresAt > currentTimeMs)

def isExpired (token : CapabilityToken) (currentTimeMs : Nat) : Bool :=
  token.expiresAt > 0 && token.expiresAt ≤ currentTimeMs

def revoke (token : CapabilityToken) : CapabilityToken :=
  { token with revoked := true }

/-- Revoke a token that meets a condition. -/
def revokeIf (hit : CapabilityToken → Bool) (token : CapabilityToken) :
    CapabilityToken :=
  if hit token then token.revoke else token

end CapabilityToken

/-- The composite key of the token map. -/
def capKey (agentId skillName : String) : String :=
  agentId ++ ":" ++ skillName

/-- The key a token is filed under. -/
def CapabilityToken.key (token : CapabilityToken) : String :=
  capKey token.agentId token.skillName

abbrev TokenMap : Type := HashMap String (List CapabilityToken)

/-- The tokens filed under a key. -/
def TokenMap.bucket (tokens : TokenMap) (key : String) :
    List CapabilityToken :=
  (tokens.lookup key).getD []

structure CapabilityManager where
  tokens : TokenMap
  totalIssued : Nat
  totalRevoked : Nat
  totalDenials : Nat

namespace CapabilityManager

def new : CapabilityManager :=
  { tokens := ∅
    totalIssued := 0
    totalRevoked := 0
    totalDenials := 0 }

/-- The identifier drawn from a clock reading in nanoseconds, mixed with a
hash of the bytes of both names. -/
def generateTokenId (agentId skillName : String) (nanos : UInt64) : String :=
  let bytes := agentId.toUTF8.toList ++ skillName.toUTF8.toList
  let hash := bytes.foldl
    (fun (hash : UInt64) b => (hash ^^^ b.toUInt64) * 0x100000001b3)
    0xcbf29ce484222325
  "cap-" ++ String.ofList (hexPadded 16 (nanos ^^^ hash).toNat)

/-- The token an issue creates. -/
def issuedToken (agentId skillName : String) (scope : CapabilityScope)
    (ttlMs now : Nat) (nanos : UInt64) : CapabilityToken :=
  { id := generateTokenId agentId skillName nanos
    agentId := agentId
    skillName := skillName
    expiresAt := if ttlMs > 0 then wrappingAdd 64 now ttlMs else 0
    issuedAt := now
    scope := scope
    revoked := false }

def issue (manager : CapabilityManager) (agentId skillName : String)
    (scope : CapabilityScope) (ttlMs now : Nat) (nanos : UInt64) :
    CapabilityToken × CapabilityManager :=
  let token := issuedToken agentId skillName scope ttlMs now nanos
  let key := capKey agentId skillName
  (token,
    { manager with
      totalIssued := manager.totalIssued + 1
      tokens := manager.tokens.insert key
        (manager.tokens.bucket key ++ [token]) })

def validate (manager : CapabilityManager) (agentId skillName : String)
    (now : Nat) : SandboxResult CapabilityToken × CapabilityManager :=
  let denied := { manager with totalDenials := manager.totalDenials + 1 }
  match manager.tokens.lookup (capKey agentId skillName) with
  | none => (.error (.capabilityDenied agentId skillName), denied)
  | some tokens =>
      match tokens.find? fun token => token.isValid now with
      | some token => (.ok token, manager)
      | none =>
          if tokens.any fun token => token.isExpired now then
            (.error (.capabilityExpired agentId skillName), denied)
          else (.error (.capabilityDenied agentId skillName), denied)

/-- Revoke the first token with the identifier, in the first bucket of the
hash map's iteration that has one. -/
def revokeToken (manager : CapabilityManager) (tokenId : String)
    (order : List String) : Bool × CapabilityManager :=
  let holder := (HashMap.iterate order manager.tokens).find? fun key =>
    (manager.tokens.bucket key).any fun token => token.id = tokenId
  match holder with
  | none => (false, manager)
  | some key =>
      (true,
        { manager with
          totalRevoked := manager.totalRevoked + 1
          tokens := manager.tokens.insert key
            (modifyFirst CapabilityToken.id tokenId CapabilityToken.revoke
              (manager.tokens.bucket key)) })

def revokeAll (manager : CapabilityManager) (agentId : String) :
    CapabilityManager :=
  let affected : CapabilityToken → Bool := fun token =>
    token.agentId = agentId && !token.revoked
  { manager with
    totalRevoked := manager.totalRevoked +
      ((HashMap.values manager.tokens).map (·.countP affected)).sum
    tokens := HashMap.mapValues
      (List.map (CapabilityToken.revokeIf affected))
      manager.tokens }

/-- Drop the tokens that are no longer valid, and the buckets left empty. -/
def cleanup (manager : CapabilityManager) (now : Nat) : CapabilityManager :=
  { manager with
    tokens := HashMap.retain (fun tokens => !tokens.isEmpty)
      (HashMap.mapValues (List.filter fun token => token.isValid now)
        manager.tokens) }

/-- The number of tokens that are valid. -/
def activeCount (manager : CapabilityManager) (now : Nat) : Nat :=
  ((HashMap.values manager.tokens).flatten.filter fun token =>
    token.isValid now).length

/-- The valid tokens issued to an agent, in the hash map's order. -/
def agentTokens (manager : CapabilityManager) (agentId : String) (now : Nat) :
    List CapabilityToken :=
  (HashMap.values manager.tokens).flatten.filter fun token =>
    token.agentId = agentId && token.isValid now

end CapabilityManager

namespace CapabilityToken

section Revocation

variable {token : CapabilityToken} {hit : CapabilityToken → Bool}

theorem isValid_iff {now : Nat} :
    token.isValid now = true ↔
      token.revoked = false ∧
        (token.expiresAt = 0 ∨ token.expiresAt > now) := by
  simp [isValid]

theorem isValid_of_le {earlier later : Nat} (ordered : earlier ≤ later)
    (valid : token.isValid later = true) : token.isValid earlier = true := by
  rw [isValid_iff] at valid ⊢
  refine ⟨valid.1, valid.2.imp_right ?_⟩
  intro unexpired
  exact Nat.lt_of_le_of_lt ordered unexpired

@[simp] theorem revokeIf_id : (token.revokeIf hit).id = token.id := by
  rw [revokeIf]
  split <;> rfl

@[simp] theorem revokeIf_agentId :
    (token.revokeIf hit).agentId = token.agentId := by
  rw [revokeIf]
  split <;> rfl

@[simp] theorem revokeIf_skillName :
    (token.revokeIf hit).skillName = token.skillName := by
  rw [revokeIf]
  split <;> rfl

@[simp] theorem revokeIf_key : (token.revokeIf hit).key = token.key := by
  simp [key]

theorem revokeIf_eq_self (missed : hit token = false) :
    token.revokeIf hit = token := by
  rw [revokeIf, missed]
  rfl

theorem hit_eq_false_of_revokeIf (unrevoked :
    (token.revokeIf hit).revoked = false) : hit token = false := by
  cases struck : hit token with
  | false => rfl
  | true =>
      rw [revokeIf, struck] at unrevoked
      cases unrevoked

theorem revokeIf_unrevoked :
    (token.revokeIf fun token => hit token && !token.revoked) =
      token.revokeIf hit := by
  obtain ⟨id, agentId, skillName, expiresAt, issuedAt, scope, revoked⟩ := token
  cases revoked with
  | false => simp [revokeIf]
  | true => simp [revokeIf, revoke]

/-- The valid tokens after a revocation are those it missed. -/
theorem filter_isValid_map_revokeIf (tokens : List CapabilityToken)
    (now : Nat) :
    (tokens.map (revokeIf hit)).filter (fun token => token.isValid now) =
      (tokens.filter fun token => token.isValid now).filter
        fun token => !hit token := by
  induction tokens with
  | nil => rfl
  | cons head tokens induction =>
      rw [List.map_cons]
      cases struck : hit head with
      | true =>
          have revoked : (head.revokeIf hit).isValid now = false := by
            simp [revokeIf, revoke, isValid, struck]
          cases valid : head.isValid now with
          | true => simp [revoked, valid, struck, induction]
          | false => simp [revoked, valid, induction]
      | false =>
          rw [revokeIf_eq_self struck]
          cases valid : head.isValid now with
          | true => simp [valid, struck, induction]
          | false => simp [valid, induction]

end Revocation

end CapabilityToken

namespace TokenMap

theorem bucket_insert (tokens : TokenMap) (key other : String)
    (filed : List CapabilityToken) :
    TokenMap.bucket (tokens.insert key filed) other =
      if other = key then filed else tokens.bucket other := by
  rw [bucket, HashMap.lookup_insert_eq]
  split <;> rfl

theorem mem_of_mem_bucket {tokens : TokenMap} {key : String}
    {token : CapabilityToken} (member : token ∈ tokens.bucket key) :
    key ∈ tokens := by
  rw [bucket] at member
  cases found : tokens.lookup key with
  | none =>
      rw [found] at member
      cases member
  | some filed => exact HashMap.mem_of_lookup found

end TokenMap

namespace CapabilityManager

section Buckets

variable (manager : CapabilityManager) (agentId skillName : String)

theorem bucket_issue (scope : CapabilityScope) (ttlMs now : Nat)
    (nanos : UInt64) (key : String) :
    (manager.issue agentId skillName scope ttlMs now
        nanos).2.tokens.bucket key =
      manager.tokens.bucket key ++
        [issuedToken agentId skillName scope ttlMs now nanos].filter
          fun token => token.key = key := by
  rw [issue, TokenMap.bucket_insert]
  have filed : (issuedToken agentId skillName scope ttlMs now nanos).key =
      capKey agentId skillName := rfl
  by_cases same : key = capKey agentId skillName
  · simp [filed, same]
  · simp [filed, same, Ne.symm same]

theorem bucket_revokeAll (key : String) :
    (manager.revokeAll agentId).tokens.bucket key =
      (manager.tokens.bucket key).map
        (CapabilityToken.revokeIf fun token => token.agentId = agentId) := by
  have same : (CapabilityToken.revokeIf fun token =>
        token.agentId = agentId && !token.revoked) =
      CapabilityToken.revokeIf fun token => token.agentId = agentId := by
    funext token
    exact CapabilityToken.revokeIf_unrevoked
  simp only [revokeAll, TokenMap.bucket, same]
  rw [HashMap.lookup_mapValues]
  cases manager.tokens.lookup key with
  | none => rfl
  | some filed => rfl

/-- Where identifiers are distinct over all buckets, a revocation reaches the
token with the identifier and no other. -/
theorem bucket_revokeToken (tokenId : String) (order : List String)
    (distinct : ∀ key,
      ((manager.tokens.bucket key).map CapabilityToken.id).Nodup)
    (apart : ∀ key other, ∀ token ∈ manager.tokens.bucket key,
      ∀ twin ∈ manager.tokens.bucket other, token.id = twin.id → key = other)
    (key : String) :
    (manager.revokeToken tokenId order).2.tokens.bucket key =
      (manager.tokens.bucket key).map
        (CapabilityToken.revokeIf fun token => token.id = tokenId) := by
  have missed : (∀ token ∈ manager.tokens.bucket key, token.id ≠ tokenId) →
      (manager.tokens.bucket key).map
          (CapabilityToken.revokeIf fun token => token.id = tokenId) =
        manager.tokens.bucket key := by
    intro others
    rw [List.map_congr_left (g := fun token => token), List.map_id']
    intro token member
    exact CapabilityToken.revokeIf_eq_self
      (decide_eq_false (others token member))
  simp only [revokeToken]
  cases found : (HashMap.iterate order manager.tokens).find? fun key =>
      (manager.tokens.bucket key).any fun token => token.id = tokenId with
  | none =>
      refine (missed ?_).symm
      intro token member same
      have absent := List.find?_eq_none.mp found key
        ((HashMap.mem_iterate order).mpr (TokenMap.mem_of_mem_bucket member))
      apply absent
      exact List.any_eq_true.mpr ⟨token, member, decide_eq_true same⟩
  | some holder =>
      have holds := List.find?_some found
      obtain ⟨held, heldMember, heldHas⟩ := List.any_eq_true.mp holds
      have heldId : held.id = tokenId := of_decide_eq_true heldHas
      rw [TokenMap.bucket_insert]
      by_cases same : key = holder
      · subst same
        rw [if_pos rfl, modifyFirst_eq_map (distinct key)]
        apply List.map_congr_left
        intro token _
        simp [CapabilityToken.revokeIf]
      · rw [if_neg same]
        refine (missed ?_).symm
        intro token member sameId
        apply same
        exact apart key holder token member held heldMember
          (sameId.trans heldId.symm)

theorem bucket_cleanup (now : Nat) (key : String) :
    (manager.cleanup now).tokens.bucket key =
      (manager.tokens.bucket key).filter fun token => token.isValid now := by
  simp only [cleanup, TokenMap.bucket]
  rw [HashMap.lookup_retain, HashMap.lookup_mapValues]
  cases manager.tokens.lookup key with
  | none => rfl
  | some filed =>
      rw [Option.map_some, Option.filter_some, Option.getD_some]
      cases filed.filter fun token => token.isValid now with
      | nil => rfl
      | cons token rest => rfl

@[simp] theorem tokens_validate (now : Nat) :
    (manager.validate agentId skillName now).2.tokens = manager.tokens := by
  simp only [validate]
  split
  · rfl
  · split
    · rfl
    · split <;> rfl

theorem validate_eq_ok_iff {now : Nat} {token : CapabilityToken} :
    (manager.validate agentId skillName now).1 = .ok token ↔
      ((manager.tokens.bucket (capKey agentId skillName)).find? fun token =>
        token.isValid now) = some token := by
  simp only [validate, TokenMap.bucket]
  cases manager.tokens.lookup (capKey agentId skillName) with
  | none => simp
  | some filed =>
      dsimp only [Option.getD_some]
      cases filed.find? fun token => token.isValid now with
      | some first => simp
      | none =>
          dsimp only
          split <;> simp

end Buckets

end CapabilityManager

end Ughi.Sandbox
