import Ughi.Auth.Token

/-!
# How long an issued token lives

The granted hours go through a signed 64-bit count of nanoseconds, a double of
seconds and back to an integer.  Within the range of a duration the seconds
come out exactly; beyond it they are those of the wrapped duration.
-/

namespace Ughi.Auth

open Ughi.Lib

/-- The granted hours, as a signed 64-bit count of seconds, are within the
range of a duration, and the moment of expiry is a positive 64-bit word. -/
structure LifetimeFits (hours issuedAt : Int) : Prop where
  inRange : -9223372036 ≤ int64 (hours * 3600) ∧
    int64 (hours * 3600) ≤ 9223372036
  positive : 0 < issuedAt + 3600 * hours
  word : issuedAt + 3600 * hours < 2 ^ 63

/-- The request is answered with a token that every middleware with the same
secret, as long as it has not revoked the token, accepts up to the last second
of the granted hours, with the requested subject and role, and rejects as
expired from then on. -/
def LivesExactly (library : Library) (middleware : Middleware)
    (request : TokenRequest) (issuedAt : Int) : Prop :=
  ∃ token expiresIn role,
    handleGenerateToken library middleware (some request) issuedAt =
        .issued token expiresIn role ∧
      ∀ validator : Middleware, validator.secret = middleware.secret →
        token ∉ validator.revoked → ∀ now : Int,
          (now ≤ issuedAt + 3600 * request.grantedHours →
            ∃ claims, validator.validateToken library token now =
                .ok claims ∧
              claims.sub = request.sub ∧ claims.role = request.role) ∧
          (issuedAt + 3600 * request.grantedHours < now →
            validator.validateToken library token now =
              .error "token expired")

/-- The claims of the token a request is answered with. -/
def issuedClaims (request : TokenRequest) (issuedAt : Int) : Claims :=
  claimsFor request.sub request.role (int64 (request.grantedHours * hour))
    issuedAt

/-! ## Signed words -/

theorem int64_bounds (value : Int) :
    -2 ^ 63 ≤ int64 value ∧ int64 value < 2 ^ 63 := by
  have above := Int.le_bmod (x := value) (m := 2 ^ 64) (by decide)
  have below := Int.bmod_lt (x := value) (m := 2 ^ 64) (by decide)
  unfold int64
  constructor
  · exact above
  · exact below

theorem int64_of_bounds {value : Int} (above : -2 ^ 63 ≤ value)
    (below : value < 2 ^ 63) : int64 value = value := by
  apply Int.bmod_eq_of_le
  · exact above
  · exact below

theorem int64_add_int64 (left right : Int) :
    int64 (left + int64 right) = int64 (left + right) :=
  Int.add_bmod_bmod

theorem int64_int64_mul (left right : Int) :
    int64 (int64 left * right) = int64 (left * right) :=
  Int.bmod_mul_bmod

theorem int64_add_left_cancel {common left right : Int}
    (same : int64 (common + left) = int64 (common + right)) :
    int64 left = int64 right := by
  have shifted := congrArg (fun word => int64 (-common + word)) same
  simpa only [int64_add_int64, neg_add_cancel_left] using shifted

/-! ## Seconds of a duration -/

theorem nearest_zero : Binary64.nearest 0 = 0 := by
  have exact := Binary64.nearest_intCast (n := 0) (by norm_num)
  simpa using exact

theorem durationSeconds_mul {seconds : Int}
    (small : |seconds| < 2 ^ 53) :
    durationSeconds (seconds * 1000000000) = seconds := by
  have whole : (seconds * 1000000000).tdiv 1000000000 = seconds :=
    Int.mul_tdiv_cancel _ (by decide)
  have rest : (seconds * 1000000000).tmod 1000000000 = 0 :=
    Int.mul_tmod_left _ _
  rw [durationSeconds, whole, rest]
  simp [nearest_zero, Binary64.nearest_intCast small]

theorem fraction_bounds {rest lower upper : Int}
    (above : lower * 1000000000 ≤ rest) (below : rest ≤ upper * 1000000000)
    (lowerSmall : -1 ≤ lower) (upperSmall : upper ≤ 1) :
    (lower : ℚ) ≤
        Binary64.nearest (Binary64.nearest rest / 1000000000) ∧
      Binary64.nearest (Binary64.nearest rest / 1000000000) ≤ upper := by
  have small : |rest| < 2 ^ 53 := by
    rw [abs_lt]
    omega
  have aboveCast : (lower : ℚ) * 1000000000 ≤ rest := by exact_mod_cast above
  have belowCast : (rest : ℚ) ≤ upper * 1000000000 := by exact_mod_cast below
  have lowerCast : (-1 : ℚ) ≤ lower := by exact_mod_cast lowerSmall
  have upperCast : (upper : ℚ) ≤ 1 := by exact_mod_cast upperSmall
  rw [Binary64.nearest_intCast small]
  have quotientAbove : (lower : ℚ) ≤ rest / 1000000000 := by
    rw [le_div_iff₀ (by norm_num)]
    exact aboveCast
  have quotientBelow : (rest : ℚ) / 1000000000 ≤ upper := by
    rw [div_le_iff₀ (by norm_num)]
    exact belowCast
  have quotientSmall : |(rest : ℚ) / 1000000000| < 2 ^ 53 := by
    rw [abs_lt]
    constructor
    · linarith
    · linarith
  exact ⟨Binary64.le_nearest quotientSmall quotientAbove,
    Binary64.nearest_le quotientSmall quotientBelow⟩

/-- The seconds are off by less than the fraction that is rounded away. -/
theorem truncate_durationSeconds_bounds {duration lower upper : Int}
    (whole : |duration.tdiv 1000000000| ≤ 9223372036)
    (above : lower * 1000000000 ≤ duration.tmod 1000000000)
    (below : duration.tmod 1000000000 ≤ upper * 1000000000)
    (lowerSmall : -1 ≤ lower) (upperSmall : upper ≤ 1) :
    duration.tdiv 1000000000 + lower ≤
        Binary64.truncate (durationSeconds duration) ∧
      Binary64.truncate (durationSeconds duration) ≤
        duration.tdiv 1000000000 + upper := by
  obtain ⟨fractionAbove, fractionBelow⟩ :=
    fraction_bounds above below lowerSmall upperSmall
  rw [durationSeconds]
  generalize Binary64.nearest
    (Binary64.nearest (duration.tmod 1000000000 : ℤ) / 1000000000) = fraction
    at fractionAbove fractionBelow ⊢
  generalize duration.tdiv 1000000000 = seconds at whole ⊢
  obtain ⟨wholeAbove, wholeBelow⟩ := abs_le.mp whole
  have small : |seconds| < 2 ^ 53 := by
    rw [abs_lt]
    omega
  have wholeAboveCast : (-9223372036 : ℚ) ≤ seconds := by
    exact_mod_cast wholeAbove
  have wholeBelowCast : (seconds : ℚ) ≤ 9223372036 := by
    exact_mod_cast wholeBelow
  have lowerCast : (-1 : ℚ) ≤ lower := by exact_mod_cast lowerSmall
  have upperCast : (upper : ℚ) ≤ 1 := by exact_mod_cast upperSmall
  rw [Binary64.nearest_intCast small]
  have sumSmall : |(seconds : ℚ) + fraction| < 2 ^ 53 := by
    rw [abs_lt]
    constructor
    · linarith
    · linarith
  constructor
  · apply Binary64.le_truncate
    apply Binary64.le_nearest sumSmall
    push_cast
    linarith
  · apply Binary64.truncate_le
    apply Binary64.nearest_le sumSmall
    push_cast
    linarith

theorem truncate_durationSeconds_sign (duration : Int)
    (word : -2 ^ 63 ≤ duration ∧ duration < 2 ^ 63) :
    (0 ≤ duration →
        0 ≤ Binary64.truncate (durationSeconds duration) ∧
          Binary64.truncate (durationSeconds duration) ≤ 9223372037) ∧
      (duration ≤ 0 →
        -9223372037 ≤ Binary64.truncate (durationSeconds duration) ∧
          Binary64.truncate (durationSeconds duration) ≤ 0) := by
  have split := Int.mul_tdiv_add_tmod duration 1000000000
  constructor
  · intro nonneg
    have restNonneg : 0 ≤ duration.tmod 1000000000 :=
      Int.tmod_nonneg _ nonneg
    have restLt : duration.tmod 1000000000 < 1000000000 :=
      Int.tmod_lt_of_pos _ (by decide)
    have bounds := @truncate_durationSeconds_bounds duration 0 1
      (by rw [abs_le]; omega) (by omega) (by omega) (by decide) (by decide)
    omega
  · intro nonpos
    have restNonneg : 0 ≤ (-duration).tmod 1000000000 :=
      Int.tmod_nonneg _ (by omega)
    have restLt : (-duration).tmod 1000000000 < 1000000000 :=
      Int.tmod_lt_of_pos _ (by decide)
    rw [Int.neg_tmod] at restNonneg restLt
    have bounds := @truncate_durationSeconds_bounds duration (-1) 0
      (by rw [abs_le]; omega) (by omega) (by omega) (by decide) (by decide)
    omega

/-- The seconds of the granted hours, after all conversions. -/
def grantedSeconds (hours : Int) : Int :=
  Binary64.truncate (durationSeconds (int64 (hours * hour)))

theorem int64_hours (hours : Int) :
    int64 (hours * hour) = int64 (int64 (hours * 3600) * 1000000000) := by
  rw [int64_int64_mul, hour, Int.mul_assoc]
  norm_num

theorem grantedSeconds_of_inRange {hours : Int}
    (above : -9223372036 ≤ int64 (hours * 3600))
    (below : int64 (hours * 3600) ≤ 9223372036) :
    grantedSeconds hours = int64 (hours * 3600) := by
  rw [grantedSeconds, int64_hours, int64_of_bounds (by omega) (by omega),
    durationSeconds_mul (by rw [abs_lt]; omega)]
  apply Int.le_antisymm
  · exact Binary64.truncate_le le_rfl
  · exact Binary64.le_truncate le_rfl

/-- Beyond the range the seconds are not even congruent to the granted ones:
the wrapped duration is too short, and at the edge it has the other sign. -/
theorem inRange_of_grantedSeconds {hours : Int}
    (same : int64 (grantedSeconds hours) = int64 (hours * 3600)) :
    -9223372036 ≤ int64 (hours * 3600) ∧
      int64 (hours * 3600) ≤ 9223372036 := by
  have word := int64_bounds (hours * hour)
  have signs := truncate_durationSeconds_sign (int64 (hours * hour)) word
  rw [← grantedSeconds] at signs
  have bounded : -9223372037 ≤ grantedSeconds hours ∧
      grantedSeconds hours ≤ 9223372037 := by omega
  rw [int64_of_bounds (by omega) (by omega)] at same
  have wrapped := int64_hours hours
  rw [← same] at wrapped ⊢
  refine ⟨?_, ?_⟩
  · by_contra tooSmall
    have edge : grantedSeconds hours = -9223372037 := by omega
    have positive : int64 (-9223372037 * 1000000000) = 9223372036709551616 :=
      rfl
    rw [edge, positive] at wrapped
    omega
  · by_contra tooLarge
    have edge : grantedSeconds hours = 9223372037 := by omega
    have negative : int64 (9223372037 * 1000000000) = -9223372036709551616 :=
      rfl
    rw [edge, negative] at wrapped
    omega

/-! ## The moment of expiry -/

theorem issuedClaims_exp (request : TokenRequest) (issuedAt : Int) :
    (issuedClaims request issuedAt).exp =
      int64 (issuedAt + grantedSeconds request.grantedHours) :=
  rfl

theorem issuedClaims_of_seconds {request : TokenRequest}
    {issuedAt seconds exp : Int}
    (granted : grantedSeconds request.grantedHours = seconds)
    (recorded : int64 (issuedAt + seconds) = exp) :
    issuedClaims request issuedAt =
      { sub := request.sub, role := request.role, iat := issuedAt
        exp := exp } := by
  subst granted
  exact congrArg (Claims.mk request.sub request.role issuedAt) recorded

/-- The recorded expiry is the last granted second, and not taken for none,
exactly when the lifetime fits. -/
theorem exp_eq_iff (hours issuedAt : Int) :
    0 < int64 (issuedAt + grantedSeconds hours) ∧
        int64 (issuedAt + grantedSeconds hours) = issuedAt + 3600 * hours ↔
      LifetimeFits hours issuedAt := by
  have swap : 3600 * hours = hours * 3600 := Int.mul_comm _ _
  constructor
  · intro recorded
    obtain ⟨positive, same⟩ := recorded
    have word := int64_bounds (issuedAt + grantedSeconds hours)
    rw [same] at positive word
    have congruent : int64 (issuedAt + grantedSeconds hours) =
        int64 (issuedAt + hours * 3600) := by
      rw [same, ← swap]
      exact (int64_of_bounds word.1 word.2).symm
    exact ⟨inRange_of_grantedSeconds (int64_add_left_cancel congruent),
      positive, word.2⟩
  · intro fits
    have positive := fits.positive
    have below := fits.word
    have seconds :=
      grantedSeconds_of_inRange fits.inRange.1 fits.inRange.2
    have same : int64 (issuedAt + grantedSeconds hours) =
        issuedAt + 3600 * hours := by
      rw [seconds, int64_add_int64, ← swap]
      exact int64_of_bounds (by omega) below
    exact ⟨same ▸ positive, same⟩

/-- An expiry separates the seconds up to a moment from those after it exactly
when it is that moment and positive. -/
theorem expired_separates_iff (claims : Claims) (moment : Int) :
    (∀ now, (now ≤ moment → claims.expired now = false) ∧
        (moment < now → claims.expired now = true)) ↔
      0 < claims.exp ∧ claims.exp = moment := by
  have expired_iff : ∀ now,
      claims.expired now = true ↔ 0 < claims.exp ∧ claims.exp < now := by
    intro now
    simp [Claims.expired]
  constructor
  · intro separates
    have after := (expired_iff _).mp ((separates (moment + 1)).2 (by omega))
    have live := (separates moment).1 le_rfl
    have notOver := (expired_iff moment).not.mp (Bool.eq_false_iff.mp live)
    omega
  · intro exact now
    constructor
    · intro early
      apply Bool.eq_false_iff.mpr
      intro expired
      have past := (expired_iff now).mp expired
      omega
    · intro late
      exact (expired_iff now).mpr (by omega)

theorem handleGenerateToken_issued {library : Library}
    {middleware : Middleware} {request : TokenRequest} {issuedAt : Int}
    {payload : Bytes} (secret : middleware.secret ≠ [])
    (sub : request.sub ≠ "") (role : request.role ≠ "")
    (marshalled :
      library.marshal (issuedClaims request issuedAt) = .ok payload) :
    handleGenerateToken library middleware (some request) issuedAt =
      .issued (signToken library middleware.secret payload)
        (int64 (request.grantedHours * 3600)) request.role := by
  have named : ¬(request.sub = "" ∨ request.role = "") := by
    simp [sub, role]
  have written : library.marshal (claimsFor request.sub request.role
      (int64 (request.grantedHours * hour)) issuedAt) = .ok payload :=
    marshalled
  simp only [handleGenerateToken, Middleware.generateToken, named, secret,
    if_false, written]

/-- What a middleware with the same secret says of an issued token is decided
by its expiry. -/
theorem validateToken_issued {library : Library}
    {middleware validator : Middleware} {payload : Bytes} {claims : Claims}
    (decodes : library.unmarshal payload = .ok claims)
    (sameSecret : validator.secret = middleware.secret)
    (unrevoked :
      signToken library middleware.secret payload ∉ validator.revoked)
    (now : Int) :
    validator.validateToken library
        (signToken library middleware.secret payload) now =
      if claims.expired now then .error "token expired" else .ok claims := by
  rw [← sameSecret] at unrevoked ⊢
  exact validateToken_signToken decodes unrevoked now

section Issued

variable {library : Library} {middleware : Middleware}
  {request : TokenRequest} {issuedAt : Int}

theorem LivesExactly.separates
    (roundTrips : library.RoundTrips (issuedClaims request issuedAt))
    (secret : middleware.secret ≠ []) (sub : request.sub ≠ "")
    (role : request.role ≠ "")
    (lives : LivesExactly library middleware request issuedAt) (now : Int) :
    (now ≤ issuedAt + 3600 * request.grantedHours →
        (issuedClaims request issuedAt).expired now = false) ∧
      (issuedAt + 3600 * request.grantedHours < now →
        (issuedClaims request issuedAt).expired now = true) := by
  obtain ⟨payload, marshalled, decodes⟩ := roundTrips
  have answered := handleGenerateToken_issued secret sub role marshalled
  obtain ⟨token, expiresIn, granted, issued, validates⟩ := lives
  rw [answered] at issued
  cases issued
  have unrevoked : signToken library middleware.secret payload ∉
      (∅ : HashMap Bytes Int) := AList.notMem_empty _
  have verdict := validates { middleware with revoked := ∅ } rfl unrevoked now
  rw [validateToken_issued decodes rfl unrevoked now] at verdict
  constructor
  · intro early
    obtain ⟨claims, accepted, _⟩ := verdict.1 early
    cases expired : (issuedClaims request issuedAt).expired now with
    | false => rfl
    | true => simp [expired] at accepted
  · intro late
    have rejected := verdict.2 late
    cases expired : (issuedClaims request issuedAt).expired now with
    | false => simp [expired] at rejected
    | true => rfl

theorem livesExactly_of_separates
    (roundTrips : library.RoundTrips (issuedClaims request issuedAt))
    (secret : middleware.secret ≠ []) (sub : request.sub ≠ "")
    (role : request.role ≠ "")
    (separates : ∀ now,
      (now ≤ issuedAt + 3600 * request.grantedHours →
          (issuedClaims request issuedAt).expired now = false) ∧
        (issuedAt + 3600 * request.grantedHours < now →
          (issuedClaims request issuedAt).expired now = true)) :
    LivesExactly library middleware request issuedAt := by
  obtain ⟨payload, marshalled, decodes⟩ := roundTrips
  refine ⟨_, _, _,
    handleGenerateToken_issued secret sub role marshalled, ?_⟩
  intro validator sameSecret unrevoked now
  rw [validateToken_issued decodes sameSecret unrevoked now]
  constructor
  · intro early
    rw [(separates now).1 early]
    exact ⟨issuedClaims request issuedAt, rfl, rfl, rfl⟩
  · intro late
    rw [(separates now).2 late]
    rfl

theorem separates_iff_lifetimeFits :
    (∀ now,
      (now ≤ issuedAt + 3600 * request.grantedHours →
          (issuedClaims request issuedAt).expired now = false) ∧
        (issuedAt + 3600 * request.grantedHours < now →
          (issuedClaims request issuedAt).expired now = true)) ↔
      LifetimeFits request.grantedHours issuedAt := by
  rw [expired_separates_iff, issuedClaims_exp]
  exact exp_eq_iff request.grantedHours issuedAt

end Issued

/-- For every accepted request, the token lives exactly as long as granted if
and only if the lifetime fits. -/
theorem livesExactly_iff (library : Library) (middleware : Middleware)
    (request : TokenRequest) (issuedAt : Int)
    (secret : middleware.secret ≠ []) (sub : request.sub ≠ "")
    (role : request.role ≠ "")
    (roundTrips : library.RoundTrips (issuedClaims request issuedAt)) :
    LivesExactly library middleware request issuedAt ↔
      LifetimeFits request.grantedHours issuedAt := by
  rw [← separates_iff_lifetimeFits]
  constructor
  · intro lives
    exact lives.separates roundTrips secret sub role
  · intro separates
    exact livesExactly_of_separates roundTrips secret sub role separates

theorem issuedClaims_one_hour :
    issuedClaims
        { sub := "user@example.com", role := "admin", ttlHours := 1 }
        1700000000 =
      { sub := "user@example.com", role := "admin", iat := 1700000000
        exp := 1700003600 } := by
  have seconds : grantedSeconds 1 = 3600 :=
    grantedSeconds_of_inRange (by decide) (by decide)
  exact issuedClaims_of_seconds seconds rfl

theorem livesExactly_one_hour :
    LivesExactly
        (.forClaims
          { sub := "user@example.com", role := "admin", iat := 1700000000
            exp := 1700003600 }
          (ascii "\x7b\"sub\":\"user@example.com\",\"role\":\"admin\",\"iat\":1700000000,\"exp\":1700003600\x7d")
          [94, 81, 113, 89, 127, 227, 136, 92, 160, 181, 82, 183, 114, 194,
            45, 171, 87, 121, 18, 249, 250, 180, 72, 140, 65, 96, 72, 143,
            214, 123, 0, 254])
        (.new { secret := ascii "test-secret", skipPaths := []
                enabled := true } [])
        { sub := "user@example.com", role := "admin", ttlHours := 1 }
        1700000000 ↔
      LifetimeFits 1 1700000000 := by
  apply livesExactly_iff
  · decide
  · decide
  · decide
  · rw [issuedClaims_one_hour]
    exact Library.forClaims_roundTrips _ _ _

theorem issuedClaims_many_hours :
    issuedClaims
        { sub := "user@example.com", role := "admin", ttlHours := 2562048 }
        1700000000 =
      { sub := "user@example.com", role := "admin", iat := 1700000000
        exp := -7523371273 } := by
  have seconds : grantedSeconds 2562048 = -9223371273 := by
    decide +kernel
  exact issuedClaims_of_seconds seconds rfl

/-- The nanoseconds of 2562048 hours overflow to a negative duration; the
expiry comes out negative, and the token never expires. -/
theorem long_lifetime_never_expires :
    ¬ LivesExactly
        (.forClaims
          { sub := "user@example.com", role := "admin", iat := 1700000000
            exp := -7523371273 }
          (ascii "\x7b\"sub\":\"user@example.com\",\"role\":\"admin\",\"iat\":1700000000,\"exp\":-7523371273\x7d")
          [56, 26, 87, 53, 128, 245, 171, 53, 128, 8, 112, 44, 5, 4, 33, 218,
            250, 137, 239, 124, 51, 41, 32, 36, 184, 102, 85, 231, 0, 16,
            188, 41])
        (.new { secret := ascii "test-secret", skipPaths := []
                enabled := true } [])
        { sub := "user@example.com", role := "admin", ttlHours := 2562048 }
        1700000000 := by
  intro lives
  have separates := lives.separates
    (by
      rw [issuedClaims_many_hours]
      exact Library.forClaims_roundTrips _ _ _)
    (by decide) (by decide) (by decide)
  have fits := separates_iff_lifetimeFits.mp separates
  have within : (9223372800 : Int) ≤ 9223372036 := fits.inRange.2
  omega

end Ughi.Auth
