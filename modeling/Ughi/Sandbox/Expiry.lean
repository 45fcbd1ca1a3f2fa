import Ughi.Sandbox.Capability

/-!
# When a token lives as long as it was issued for

A deadline is the sum of the issue time and the lifetime as a machine word, and
the word zero marks a token without deadline.  A sum that leaves the range
lands on the mark or before the issue time.
-/

namespace Ughi.Sandbox

open Ughi.Lib

namespace CapabilityToken

/-- Validation grants with the token wherever it is filed behind no token that
is still valid. -/
def AcceptedAt (token : CapabilityToken) (now : Nat) : Prop :=
  ∀ (manager : CapabilityManager) (before after : List CapabilityToken),
    manager.tokens.bucket token.key = before ++ token :: after →
      (∀ other ∈ before, other.isValid now = false) →
        (manager.validate token.agentId token.skillName now).1 = .ok token

/-- A manager that files one token. -/
def filedAlone (token : CapabilityToken) : CapabilityManager :=
  { CapabilityManager.new with tokens := AList.insert token.key [token] ∅ }

theorem bucket_filedAlone (token : CapabilityToken) :
    token.filedAlone.tokens.bucket token.key = [token] := by
  rw [filedAlone, TokenMap.bucket, AList.lookup_insert]
  rfl

theorem acceptedAt_iff {token : CapabilityToken} {now : Nat} :
    token.AcceptedAt now ↔ token.isValid now = true := by
  constructor
  · intro accepted
    have granted := accepted token.filedAlone [] []
      (bucket_filedAlone token) (by simp)
    have first := (CapabilityManager.validate_eq_ok_iff _ _ _).mp granted
    have valid := List.find?_some first
    exact valid
  · intro valid manager before after filed stale
    apply (CapabilityManager.validate_eq_ok_iff _ _ _).mpr
    rw [← key, filed, List.find?_append]
    have none : (before.find? fun token => token.isValid now) = none := by
      apply List.find?_eq_none.mpr
      intro other member
      simp [stale other member]
    rw [none, Option.none_or]
    exact List.find?_cons_of_pos valid

end CapabilityToken

namespace CapabilityManager

/-- The token an issue returns, revoked since or not, is accepted from its
issue on exactly while it is unrevoked and its lifetime runs; it has a
deadline, and is not expired when it is issued. -/
def LivesForTtl (now ttlMs : Nat) : Prop :=
  ∀ (manager : CapabilityManager) (agentId skillName : String)
    (scope : CapabilityScope) (nanos : UInt64) (revoked : Bool),
    let issued := (manager.issue agentId skillName scope ttlMs now nanos).1
    let token : CapabilityToken := { issued with revoked := revoked }
    (∀ later, now ≤ later → later < 2 ^ 64 →
      (token.AcceptedAt later ↔ revoked = false ∧ later < now + ttlMs)) ∧
      token.expiresAt ≠ 0 ∧ token.isExpired now = false

section Deadline

variable (agentId skillName : String) (scope : CapabilityScope)
  {ttlMs now : Nat} (nanos : UInt64)

theorem expiresAt_of_lt (finite : 0 < ttlMs) (fits : now + ttlMs < 2 ^ 64) :
    (issuedToken agentId skillName scope ttlMs now nanos).expiresAt =
      now + ttlMs := by
  rw [issuedToken, if_pos finite]
  exact wrappingAdd_of_lt fits

/-- A sum that leaves the range is a deadline before the issue, or none. -/
theorem expiresAt_of_le (nowWord : now < 2 ^ 64) (ttlWord : ttlMs < 2 ^ 64)
    (overflow : 2 ^ 64 ≤ now + ttlMs) :
    (issuedToken agentId skillName scope ttlMs now nanos).expiresAt < now := by
  have finite : 0 < ttlMs := by
    omega
  have wrapped := wrappingAdd_of_le nowWord ttlWord overflow
  rw [issuedToken, if_pos finite]
  calc
    wrappingAdd 64 now ttlMs = now + ttlMs - 2 ^ 64 := wrapped
    _ < now := by omega

end Deadline

/-- A lifetime that ends beyond the range of the clock leaves the token without
deadline or expired from the start. -/
theorem not_livesForTtl_of_le {now ttlMs : Nat} (nowWord : now < 2 ^ 64)
    (ttlWord : ttlMs < 2 ^ 64) (overflow : 2 ^ 64 ≤ now + ttlMs) :
    ¬ LivesForTtl now ttlMs := by
  intro lives
  obtain ⟨-, deadline, unexpired⟩ := lives new "" "" {} 0 false
  have early := expiresAt_of_le "" "" {} 0 nowWord ttlWord overflow
  have expired : (issuedToken "" "" {} ttlMs now 0).isExpired now = true := by
    simp only [CapabilityToken.isExpired, Bool.and_eq_true, decide_eq_true_eq]
    exact ⟨Nat.pos_of_ne_zero deadline, Nat.le_of_lt early⟩
  have both := expired.symm.trans unexpired
  cases both

theorem livesForTtl_of_lt {now ttlMs : Nat} (finite : 0 < ttlMs)
    (fits : now + ttlMs < 2 ^ 64) : LivesForTtl now ttlMs := by
  intro manager agentId skillName scope nanos revoked
  have deadline :=
    expiresAt_of_lt agentId skillName scope nanos finite fits
  refine ⟨?_, ?_, ?_⟩
  · intro later _ _
    rw [CapabilityToken.acceptedAt_iff, CapabilityToken.isValid_iff]
    simp only [issue, deadline]
    apply and_congr_right
    intro _
    omega
  · simp only [issue, deadline]
    omega
  · simp only [issue, CapabilityToken.isExpired, deadline]
    simp
    omega

/-- A lifetime is kept exactly when it ends within the range of the clock. -/
theorem livesForTtl_iff {now ttlMs : Nat} (nowWord : now < 2 ^ 64)
    (finite : 0 < ttlMs) (ttlWord : ttlMs < 2 ^ 64) :
    LivesForTtl now ttlMs ↔ now + ttlMs < 2 ^ 64 := by
  constructor
  · intro lives
    apply Nat.lt_of_not_le
    intro overflow
    exact not_livesForTtl_of_le nowWord ttlWord overflow lives
  · intro fits
    exact livesForTtl_of_lt finite fits

theorem livesForTtl_iff_minute :
    LivesForTtl 1700000000000 60000 ↔ 1700000000000 + 60000 < 2 ^ 64 :=
  livesForTtl_iff (by decide) (by decide) (by decide)

/-- A token issued for the longest lifetime is refused at once, and one issued
to the end of the range has no deadline. -/
theorem longest_ttl_born_expired :
    let issued := (new.issue "a" "web_search" {} 18446744073709551615
      1700000000000 0).2
    (issued.validate "a" "web_search" 1700000000000).1 =
        .error (.capabilityExpired "a" "web_search") ∧
      ¬ LivesForTtl 1700000000000 18446744073709551615 ∧
      (new.issue "a" "web_search" {} 18446742373709551616
        1700000000000 0).1.expiresAt = 0 := by
  refine ⟨by decide, ?_, by decide⟩
  exact not_livesForTtl_of_le (by decide) (by decide) (by decide)

end CapabilityManager

end Ughi.Sandbox
