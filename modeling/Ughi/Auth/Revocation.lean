import Ughi.Auth.Lifetime
import Ughi.Lib.Run

/-!
# How long a revocation lasts

A revocation entry ages by the time of the revocation, a token by its own
expiry.  A cleanup drops the entries older than the age it is given, whether
or not their tokens have expired, so a revocation lasts exactly as long as the
cleanups drop nothing that would still be accepted.
-/

namespace Ughi.Auth

open Ughi.Lib

/-- `Time.Unix` of a reading of the clock in nanoseconds. -/
def unixSeconds (nanos : Int) : Int :=
  nanos / 1000000000

/-- Revocation aside, the token is not accepted: it does not verify, or its
expiry has passed. -/
def Dead (library : Library) (secret token : Bytes) (now : Int) : Prop :=
  ∀ header payload signature claims,
    token.splitOn dot = [header, payload, signature] →
      verifyParts library secret header payload signature = .ok claims →
        claims.expired now = true

namespace Middleware

/-- A call, and the nanoseconds that have passed since the call before it. -/
inductive Call where
  | generateToken (elapsed : Nat) (sub role : String) (ttl : Int)
  | validateToken (elapsed : Nat) (token : Bytes)
  | revokeToken (elapsed : Nat) (token : Bytes)
  | cleanupExpiredRevocations (elapsed : Nat) (maxAge : Int)

def Call.elapsed : Call → Nat
  | .generateToken elapsed _ _ _ => elapsed
  | .validateToken elapsed _ => elapsed
  | .revokeToken elapsed _ => elapsed
  | .cleanupExpiredRevocations elapsed _ => elapsed

/-- What a call returns. -/
inductive Answer where
  | generated (result : Except String Bytes)
  | validated (result : Except String Claims)
  | done

def perform (library : Library) (middleware : Middleware) (now : Int) :
    Call → Answer × Middleware
  | .generateToken _ sub role ttl =>
      (.generated
        (middleware.generateToken library sub role ttl (unixSeconds now)),
        middleware)
  | .validateToken _ token =>
      (.validated (middleware.validateToken library token (unixSeconds now)),
        middleware)
  | .revokeToken _ token =>
      (.done, middleware.revokeToken token (unixSeconds now))
  | .cleanupExpiredRevocations _ maxAge =>
      (.done, middleware.cleanupExpiredRevocations maxAge now)

/-- The middleware with the time and the tokens revoked so far. -/
structure Tracked where
  middleware : Middleware
  clock : Int
  everRevoked : List Bytes

def Tracked.fresh (config : Config) (environment : Bytes) (clock : Int) :
    Tracked :=
  { middleware := .new config environment, clock := clock, everRevoked := [] }

/-- The tokens a call revokes. -/
def Call.revokes : Call → List Bytes
  | .revokeToken _ token => [token]
  | _ => []

def serve (library : Library) (tracked : Tracked) (call : Call) : Tracked :=
  let now := tracked.clock + call.elapsed
  { middleware := (perform library tracked.middleware now call).2
    clock := now
    everRevoked := call.revokes ++ tracked.everRevoked }

/-- The call is no validation of a revoked token, or it ends in an error. -/
def Refuses (library : Library) (tracked : Tracked) (call : Call) : Prop :=
  ∀ elapsed, ∀ token ∈ tracked.everRevoked,
    call = .validateToken elapsed token →
      ∃ message,
        (perform library tracked.middleware (tracked.clock + elapsed) call).1 =
          .validated (.error message)

/-- Whatever the next call is, no revoked token is accepted. -/
def NeverAccepts (library : Library) (tracked : Tracked) : Prop :=
  ∀ call, Refuses library tracked call

/-- The call is no cleanup, or every entry it drops is of a token that is not
accepted anyway. -/
def DropsOnlyDead (library : Library) (tracked : Tracked) : Call → Prop
  | .cleanupExpiredRevocations elapsed maxAge =>
      ∀ token revokedAt,
        tracked.middleware.revoked.lookup token = some revokedAt →
          revokedAt <
              unixSeconds (tracked.clock + elapsed + int64 (-maxAge)) →
            Dead library tracked.middleware.secret token
              (unixSeconds (tracked.clock + elapsed))
  | _ => True

/-- Every entry is of a token that has been revoked. -/
def EntriesRevoked (tracked : Tracked) : Prop :=
  ∀ token ∈ tracked.middleware.revoked, token ∈ tracked.everRevoked

/-! ## Validating a revoked token -/

theorem unixSeconds_mono {earlier later : Int} (passed : earlier ≤ later) :
    unixSeconds earlier ≤ unixSeconds later :=
  Int.ediv_le_ediv (by decide) passed

theorem expired_later {claims : Claims} {earlier later : Int}
    (expired : claims.expired earlier = true) (passed : earlier ≤ later) :
    claims.expired later = true := by
  simp only [Claims.expired, Bool.and_eq_true, decide_eq_true_eq]
    at expired ⊢
  exact ⟨expired.1, by omega⟩

theorem dead_later {library : Library} {secret token : Bytes}
    {earlier later : Int} (dead : Dead library secret token earlier)
    (passed : earlier ≤ later) : Dead library secret token later := by
  intro header payload signature claims parts verified
  exact expired_later (dead header payload signature claims parts verified)
    passed

theorem validateToken_refused_iff (library : Library)
    (middleware : Middleware) (token : Bytes) (now : Int) :
    (∃ message,
        middleware.validateToken library token now = .error message) ↔
      token ∈ middleware.revoked ∨
        Dead library middleware.secret token now := by
  unfold validateToken
  split
  · next header payload signature parts =>
      by_cases revoked : token ∈ middleware.revoked
      · simp [revoked]
      · simp only [revoked, if_false, false_or]
        cases verified :
            verifyParts library middleware.secret header payload signature with
        | error message =>
            refine iff_of_true ⟨message, rfl⟩ ?_
            intro other body mark claims same accepted
            rw [parts] at same
            cases same
            rw [verified] at accepted
            cases accepted
        | ok claims =>
            constructor
            · intro refused
              obtain ⟨message, outcome⟩ := refused
              intro other body mark found same accepted
              rw [parts] at same
              cases same
              rw [verified] at accepted
              cases accepted
              cases expired : claims.expired now with
              | false => simp [expired] at outcome
              | true => rfl
            · intro dead
              have expired := dead header payload signature claims parts
                verified
              exact ⟨"token expired", if_pos expired⟩
  · next malformed =>
      refine iff_of_true ⟨_, rfl⟩ (.inr ?_)
      intro header payload signature claims parts _
      exact absurd parts (malformed header payload signature)

theorem neverAccepts_iff (library : Library) (tracked : Tracked) :
    NeverAccepts library tracked ↔
      ∀ token ∈ tracked.everRevoked,
        token ∈ tracked.middleware.revoked ∨
          Dead library tracked.middleware.secret token
            (unixSeconds tracked.clock) := by
  constructor
  · intro never token revoked
    obtain ⟨message, outcome⟩ :=
      never (.validateToken 0 token) 0 token revoked rfl
    apply (validateToken_refused_iff library _ token _).mp
    refine ⟨message, ?_⟩
    simpa [perform] using outcome
  · intro covered call elapsed token revoked validates
    have passed : unixSeconds tracked.clock ≤
        unixSeconds (tracked.clock + elapsed) :=
      unixSeconds_mono (by omega)
    have refused : token ∈ tracked.middleware.revoked ∨
        Dead library tracked.middleware.secret token
          (unixSeconds (tracked.clock + elapsed)) :=
      (covered token revoked).imp_right fun dead => dead_later dead passed
    obtain ⟨message, outcome⟩ :=
      (validateToken_refused_iff library _ token _).mpr refused
    subst validates
    exact ⟨message, congrArg Answer.validated outcome⟩

/-! ## What a call does to the entries -/

theorem lookup_cleanup (middleware : Middleware) (maxAge nowNanos : Int)
    (token : Bytes) :
    (middleware.cleanupExpiredRevocations maxAge nowNanos).revoked.lookup
        token =
      (middleware.revoked.lookup token).filter fun revokedAt =>
        !(revokedAt < unixSeconds (nowNanos + int64 (-maxAge))) :=
  HashMap.lookup_retain _

theorem mem_cleanup_iff (middleware : Middleware) (maxAge nowNanos : Int)
    (token : Bytes) :
    token ∈ (middleware.cleanupExpiredRevocations maxAge nowNanos).revoked ↔
      ∃ revokedAt, middleware.revoked.lookup token = some revokedAt ∧
        ¬ revokedAt < unixSeconds (nowNanos + int64 (-maxAge)) := by
  rw [HashMap.mem_iff_exists_lookup, lookup_cleanup]
  simp [Option.filter_eq_some_iff]

theorem serve_clock (library : Library) (tracked : Tracked) (call : Call) :
    (serve library tracked call).clock = tracked.clock + call.elapsed :=
  rfl

theorem serve_secret (library : Library) (tracked : Tracked) (call : Call) :
    (serve library tracked call).middleware.secret =
      tracked.middleware.secret := by
  cases call with
  | generateToken => rfl
  | validateToken => rfl
  | revokeToken => rfl
  | cleanupExpiredRevocations => rfl

theorem serve_entriesRevoked (library : Library) (tracked : Tracked)
    (call : Call) (ground : EntriesRevoked tracked) :
    EntriesRevoked (serve library tracked call) := by
  cases call with
  | generateToken elapsed sub role ttl => exact ground
  | validateToken elapsed token => exact ground
  | revokeToken elapsed token =>
      intro other entry
      rcases AList.mem_insert _ |>.mp entry with rfl | earlier
      · exact List.mem_cons_self
      · exact List.mem_cons_of_mem _ (ground other earlier)
  | cleanupExpiredRevocations elapsed maxAge =>
      intro token entry
      obtain ⟨revokedAt, found, _⟩ := (mem_cleanup_iff _ _ _ _).mp entry
      exact ground token (HashMap.mem_of_lookup found)

theorem serve_neverAccepts_of_kept {library : Library} {tracked : Tracked}
    {call : Call} (never : NeverAccepts library tracked)
    (entered : ∀ token ∈ call.revokes,
      token ∈ (serve library tracked call).middleware.revoked)
    (kept : ∀ token ∈ tracked.middleware.revoked,
      token ∈ (serve library tracked call).middleware.revoked ∨
        Dead library tracked.middleware.secret token
          (unixSeconds (tracked.clock + call.elapsed))) :
    NeverAccepts library (serve library tracked call) := by
  rw [neverAccepts_iff] at never ⊢
  intro token revoked
  rw [serve_secret]
  have passed : unixSeconds tracked.clock ≤
      unixSeconds (tracked.clock + call.elapsed) :=
    unixSeconds_mono (by omega)
  rcases List.mem_append.mp revoked with now | earlier
  · exact .inl (entered token now)
  · rcases never token earlier with entry | dead
    · exact kept token entry
    · exact .inr (dead_later dead passed)

theorem serve_neverAccepts_iff (library : Library) (tracked : Tracked)
    (call : Call) (ground : EntriesRevoked tracked)
    (never : NeverAccepts library tracked) :
    NeverAccepts library (serve library tracked call) ↔
      DropsOnlyDead library tracked call := by
  cases call with
  | generateToken elapsed sub role ttl =>
      refine iff_of_true (serve_neverAccepts_of_kept never ?_ ?_) trivial
      · simp [Call.revokes]
      · intro token entry
        exact .inl entry
  | validateToken elapsed token =>
      refine iff_of_true (serve_neverAccepts_of_kept never ?_ ?_) trivial
      · simp [Call.revokes]
      · intro token entry
        exact .inl entry
  | revokeToken elapsed token =>
      refine iff_of_true (serve_neverAccepts_of_kept never ?_ ?_) trivial
      · intro other revoked
        exact AList.mem_insert _ |>.mpr (.inl (List.mem_singleton.mp revoked))
      · intro other entry
        exact .inl (AList.mem_insert _ |>.mpr (.inr entry))
  | cleanupExpiredRevocations elapsed maxAge =>
      constructor
      · intro later token revokedAt found old
        have revoked := ground token (HashMap.mem_of_lookup found)
        rcases (neverAccepts_iff library _).mp later token revoked with
          entry | dead
        · obtain ⟨stored, lookup, recent⟩ := (mem_cleanup_iff _ _ _ _).mp entry
          rw [found] at lookup
          cases lookup
          exact absurd old recent
        · exact dead
      · intro drops
        apply serve_neverAccepts_of_kept never
        · simp [Call.revokes]
        · intro token entry
          obtain ⟨revokedAt, found⟩ := HashMap.mem_iff_exists_lookup.mp entry
          by_cases old : revokedAt <
              unixSeconds (tracked.clock + elapsed + int64 (-maxAge))
          · exact .inr (drops token revokedAt found old)
          · exact .inl ((mem_cleanup_iff _ _ _ _).mpr ⟨revokedAt, found, old⟩)

/-- In every run, revocation is permanent if and only if no cleanup drops the
entry of a token that would still be accepted. -/
theorem revocation_permanent_iff (library : Library) (config : Config)
    (environment : Bytes) (clock : Int) (calls : List Call) :
    Throughout (serve library) (NeverAccepts library)
          (.fresh config environment clock) calls ∧
        EachCall (serve library) (Refuses library)
          (.fresh config environment clock) calls ↔
      EachCall (serve library) (DropsOnlyDead library)
        (.fresh config environment clock) calls := by
  have kept : ∀ tracked call, True → EntriesRevoked tracked →
      EntriesRevoked (serve library tracked call) := by
    intro tracked call _ ground
    exact serve_entriesRevoked library tracked call ground
  have exact_step : ∀ tracked call, True → EntriesRevoked tracked →
      NeverAccepts library tracked →
        (NeverAccepts library (serve library tracked call) ∧
            Refuses library tracked call ↔
          DropsOnlyDead library tracked call) := by
    intro tracked call _ ground never
    rw [serve_neverAccepts_iff library tracked call ground never]
    exact and_iff_left (never call)
  apply throughout_and_eachCall_iff kept exact_step
  · intro call _
    trivial
  · intro token entry
    exact absurd entry (AList.notMem_empty _)
  · intro call elapsed token revoked
    exact absurd revoked List.not_mem_nil

theorem not_refuses_of_accepted {library : Library} {tracked : Tracked}
    {elapsed : Nat} {token : Bytes} {claims : Claims}
    (revoked : token ∈ tracked.everRevoked)
    (accepted : tracked.middleware.validateToken library token
      (unixSeconds (tracked.clock + elapsed)) = .ok claims) :
    ¬ Refuses library tracked (.validateToken elapsed token) := by
  intro refuses
  obtain ⟨message, outcome⟩ := refuses elapsed token revoked rfl
  have refused := Answer.validated.inj outcome
  rw [accepted] at refused
  cases refused

/-- A library as far as one token for a day is concerned. -/
def oneDayLibrary : Library :=
  .forClaims
    { sub := "user@example.com", role := "admin", iat := 1700000000
      exp := 1700086400 }
    (ascii "\x7b\"sub\":\"user@example.com\",\"role\":\"admin\",\"iat\":1700000000,\"exp\":1700086400\x7d")
    [26, 91, 157, 209, 232, 253, 8, 11, 86, 75, 238, 86, 95, 3, 13, 132, 77,
      65, 47, 226, 136, 203, 209, 104, 86, 29, 111, 141, 28, 9, 155, 78]

theorem claimsFor_one_day :
    claimsFor "user@example.com" "admin" (24 * hour) 1700000000 =
      { sub := "user@example.com", role := "admin", iat := 1700000000
        exp := 1700086400 } := by
  have seconds : grantedSeconds 24 = 86400 :=
    grantedSeconds_of_inRange (by decide) (by decide)
  exact @issuedClaims_of_seconds
    { sub := "user@example.com", role := "admin", ttlHours := 24 } 1700000000
    86400 1700086400 seconds rfl

/-- A token for a day is revoked at once; two hours later a cleanup of the
entries older than one hour drops it, and the token is accepted again. -/
theorem revoked_token_accepted :
    ∃ token,
      (Middleware.new
            { secret := ascii "test-secret", skipPaths := [], enabled := true }
            []).generateToken oneDayLibrary "user@example.com" "admin"
          (24 * hour) 1700000000 = .ok token ∧
        ¬ EachCall (serve oneDayLibrary) (Refuses oneDayLibrary)
          (.fresh
            { secret := ascii "test-secret", skipPaths := [], enabled := true }
            [] 1700000000000000000)
          [.generateToken 0 "user@example.com" "admin" (24 * hour),
            .revokeToken 0 token,
            .cleanupExpiredRevocations 7200000000000 hour,
            .validateToken 0 token] := by
  have roundTrips : oneDayLibrary.RoundTrips
      (claimsFor "user@example.com" "admin" (24 * hour) 1700000000) := by
    rw [claimsFor_one_day]
    exact Library.forClaims_roundTrips _ _ _
  obtain ⟨payload, marshalled, decodes⟩ := roundTrips
  refine ⟨signToken oneDayLibrary (ascii "test-secret") payload, ?_, ?_⟩
  · have configured : ascii "test-secret" ≠ [] := by decide
    simp [generateToken, Middleware.new, configured, marshalled]
  · intro each
    obtain ⟨_, _, _, refuses, _⟩ := each
    revert refuses
    rw [claimsFor_one_day] at decodes
    apply not_refuses_of_accepted List.mem_cons_self
    have dropped : signToken oneDayLibrary (ascii "test-secret") payload ∉
        (runCalls (serve oneDayLibrary)
          (.fresh
            { secret := ascii "test-secret", skipPaths := []
              enabled := true } [] 1700000000000000000)
          [.generateToken 0 "user@example.com" "admin" (24 * hour),
            .revokeToken 0
              (signToken oneDayLibrary (ascii "test-secret") payload),
            .cleanupExpiredRevocations 7200000000000
              hour]).middleware.revoked := by
      intro entry
      obtain ⟨revokedAt, found, recent⟩ :=
        (mem_cleanup_iff _ _ _ _).mp entry
      have stored := (AList.lookup_insert _).symm.trans found
      cases stored
      apply recent
      simp only [serve_clock, Call.elapsed, Tracked.fresh]
      decide
    apply (validateToken_signToken decodes dropped _).trans
    simp only [serve_clock, Call.elapsed, Tracked.fresh]
    exact if_neg (by decide)

end Middleware

end Ughi.Auth
