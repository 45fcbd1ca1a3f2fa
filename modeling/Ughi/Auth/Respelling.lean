import Ughi.Auth.Revocation
import Ughi.Lib.Text

/-!
# Other spellings of a revoked token

A revocation is entered under the text of the token, and a token is
authenticated by the bytes its signature decodes to.  Decoding is not
injective, so the entry of a token covers another text with the same header
and payload exactly when that text would not be accepted anyway or has an
entry of its own.
-/

namespace Ughi.Auth

open Ughi.Lib

/-- The texts have the same header and the same payload segment. -/
def SameBody (token other : Bytes) : Prop :=
  (token.splitOn dot).take 2 = (other.splitOn dot).take 2

/-- The texts are tokens that differ only in how the signature is spelled. -/
def Respells (token other : Bytes) : Prop :=
  ∃ header payload signature respelled,
    token.splitOn dot = [header, payload, signature] ∧
      other.splitOn dot = [header, payload, respelled] ∧
        Base64.Respelled signature respelled

theorem splitOn_append_lineFeeds
    {token header payload signature : Bytes}
    (parts : token.splitOn dot = [header, payload, signature])
    (count : Nat) :
    (token ++ List.replicate count 10).splitOn dot =
      [header, payload, signature ++ List.replicate count 10] := by
  have clean := notMem_of_mem_splitOn dot token
  rw [parts] at clean
  simp only [List.forall_mem_cons] at clean
  obtain ⟨headerClean, payloadClean, signatureClean, _⟩ := clean
  have whole : token = header ++ dot :: (payload ++ dot :: signature) := by
    have joined := @List.intercalate_splitOn _ token _ _ dot
    rw [parts] at joined
    rw [← joined]
    simp [List.intercalate]
  have ended : dot ∉ signature ++ List.replicate count 10 := by
    intro member
    rcases List.mem_append.mp member with inSignature | lineFeed
    · exact signatureClean inSignature
    · have isLineFeed := List.eq_of_mem_replicate lineFeed
      cases isLineFeed
  rw [whole, List.append_assoc, List.cons_append, List.append_assoc,
    List.cons_append]
  exact splitOn_parts headerClean payloadClean ended

theorem respells_append_lineFeeds
    {token header payload signature : Bytes}
    (parts : token.splitOn dot = [header, payload, signature])
    (count : Nat) :
    Respells token (token ++ List.replicate count 10) := by
  refine ⟨header, payload, signature, _, parts,
    splitOn_append_lineFeeds parts count, ?_⟩
  rw [Base64.Respelled, Base64.spelled_append_lineFeeds]

theorem sameBody_of_respells {token other : Bytes}
    (respells : Respells token other) : SameBody token other := by
  obtain ⟨_, _, _, _, tokenParts, otherParts, _⟩ := respells
  rw [SameBody, tokenParts, otherParts]
  rfl

theorem verifyParts_eq_ok_iff {library : Library}
    {secret header payload signature : Bytes} {claims : Claims} :
    verifyParts library secret header payload signature = .ok claims ↔
      Base64.decode signature =
          some (library.hmacSha256 (header ++ dot :: payload) secret) ∧
        ∃ claimsBytes, Base64.decode payload = some claimsBytes ∧
          library.unmarshal claimsBytes = .ok claims := by
  rw [verifyParts]
  cases Base64.decode signature with
  | none => simp
  | some actualSig =>
      by_cases same :
          library.hmacSha256 (header ++ dot :: payload) secret = actualSig
      · cases Base64.decode payload with
        | none => simp [same]
        | some claimsBytes =>
            cases decoded : library.unmarshal claimsBytes with
            | error message => simp [same, decoded]
            | ok found => simp [same, decoded]
      · have different : actualSig ≠
            library.hmacSha256 (header ++ dot :: payload) secret :=
          fun reverse => same reverse.symm
        simp [same, different]

/-- Of a verified token, another signature verifies exactly when it respells
the first, and then it gives the same claims. -/
theorem verifyParts_respelled_iff {library : Library}
    {secret header payload signature respelled : Bytes}
    {claims found : Claims}
    (verified : verifyParts library secret header payload signature =
      .ok claims) :
    verifyParts library secret header payload respelled = .ok found ↔
      Base64.Respelled signature respelled ∧ found = claims := by
  obtain ⟨decoded, claimsBytes, decodedPayload, read⟩ :=
    verifyParts_eq_ok_iff.mp verified
  rw [verifyParts_eq_ok_iff, Base64.decode_iff_respelled decoded,
    decodedPayload]
  apply and_congr_right
  intro _
  constructor
  · rintro ⟨other, same, readOther⟩
    cases same
    rw [read] at readOther
    cases readOther
    rfl
  · rintro rfl
    exact ⟨claimsBytes, rfl, read⟩

theorem dead_iff_of_sameBody {library : Library}
    {secret token header payload signature : Bytes} {claims : Claims}
    (parts : token.splitOn dot = [header, payload, signature])
    (verified : verifyParts library secret header payload signature =
      .ok claims)
    {other : Bytes} (same : SameBody token other) (now : Int) :
    Dead library secret other now ↔
      ¬ Respells token other ∨ claims.expired now = true := by
  constructor
  · intro dead
    by_cases respells : Respells token other
    · obtain ⟨_, _, _, respelled, tokenParts, otherParts, spelled⟩ := respells
      rw [parts] at tokenParts
      cases tokenParts
      have accepted := (verifyParts_respelled_iff verified).mpr
        ⟨spelled, rfl⟩
      exact .inr (dead header payload respelled claims otherParts accepted)
    · exact .inl respells
  · intro refused otherHeader otherPayload respelled found otherParts accepted
    rw [SameBody, parts, otherParts] at same
    cases same
    obtain ⟨spelled, rfl⟩ := (verifyParts_respelled_iff verified).mp accepted
    rcases refused with respells | expired
    · exact absurd
        ⟨header, payload, signature, respelled, parts, otherParts, spelled⟩
        respells
    · exact expired

namespace Middleware

theorem verified_of_accepted {library : Library} {middleware : Middleware}
    {token : Bytes} {now : Int} {claims : Claims}
    (accepted : middleware.validateToken library token now = .ok claims) :
    ∃ header payload signature,
      token.splitOn dot = [header, payload, signature] ∧
        verifyParts library middleware.secret header payload signature =
          .ok claims := by
  unfold validateToken at accepted
  split at accepted
  next header payload signature parts =>
    refine ⟨header, payload, signature, parts, ?_⟩
    split at accepted
    · cases accepted
    · split at accepted
      · cases accepted
      next found verified =>
        split at accepted
        · cases accepted
        · cases accepted
          exact verified
  next => cases accepted

theorem runCalls_secret (library : Library) (tracked : Tracked)
    (calls : List Call) :
    (runCalls (serve library) tracked calls).middleware.secret =
      tracked.middleware.secret := by
  induction calls generalizing tracked with
  | nil => rfl
  | cons call calls induction =>
      rw [runCalls_cons, induction, serve_secret]

/-- The run of a middleware that accepted a token, in which the token was
revoked and has its entry still. -/
structure Revocation (library : Library) (token : Bytes) (claims : Claims)
    where
  start : Tracked
  acceptedAt : Int
  accepted :
    start.middleware.validateToken library token acceptedAt = .ok claims
  before : List Call
  elapsed : Nat
  after : List Call
  entry : token ∈ (runCalls (serve library) start
    (before ++ .revokeToken elapsed token :: after)).middleware.revoked

namespace Revocation

variable {library : Library} {token : Bytes} {claims : Claims}

/-- The middleware at the end of the run. -/
def middleware (revocation : Revocation library token claims) : Middleware :=
  (runCalls (serve library) revocation.start
    (revocation.before ++
      .revokeToken revocation.elapsed token :: revocation.after)).middleware

/-- The text is not accepted at the end of the run. -/
def Covers (revocation : Revocation library token claims) (other : Bytes)
    (now : Int) : Prop :=
  ∃ message,
    revocation.middleware.validateToken library other now = .error message

theorem verified (revocation : Revocation library token claims) :
    ∃ header payload signature,
      token.splitOn dot = [header, payload, signature] ∧
        verifyParts library revocation.middleware.secret header payload
          signature = .ok claims := by
  rw [middleware, runCalls_secret]
  exact verified_of_accepted revocation.accepted

theorem covers_self (revocation : Revocation library token claims)
    (now : Int) : revocation.Covers token now :=
  (validateToken_refused_iff library _ token now).mpr (.inl revocation.entry)

theorem covers_iff_of_sameBody (revocation : Revocation library token claims)
    {other : Bytes} (same : SameBody token other) (now : Int) :
    revocation.Covers other now ↔
      other ∈ revocation.middleware.revoked ∨ ¬ Respells token other ∨
        claims.expired now = true := by
  obtain ⟨header, payload, signature, parts, verified⟩ := revocation.verified
  rw [Covers, validateToken_refused_iff,
    dead_iff_of_sameBody parts verified same]

theorem exists_respelling_notMem
    (revocation : Revocation library token claims)
    (revoked : HashMap Bytes Int) :
    ∃ other, Respells token other ∧ other ∉ revoked := by
  obtain ⟨header, payload, signature, parts, _⟩ := revocation.verified
  by_contra none
  let spellings : List Bytes :=
    (List.range (HashMap.size revoked + 1)).map fun count =>
      token ++ List.replicate count 10
  have distinct : spellings.Nodup := by
    apply List.nodup_range.map
    intro left right same
    have lengths := congrArg List.length same
    simpa using lengths
  have inside : ∀ other ∈ spellings, other ∈ revoked := by
    intro other member
    obtain ⟨count, _, rfl⟩ := List.mem_map.mp member
    by_contra outside
    exact none ⟨_, respells_append_lineFeeds parts count, outside⟩
  have tooMany := HashMap.length_le_size_of_subset distinct inside
  simp only [spellings, List.length_map, List.length_range] at tooMany
  omega

/-- After a revocation, a text with the body of the token is not accepted
exactly when it has an entry of its own, does not respell the token, or the
token has expired.  So the revocation keeps all spellings of the token out
exactly when the token has expired. -/
theorem respellings_covered_iff
    (revocation : Revocation library token claims) (now : Int) :
    (∀ other, SameBody token other →
      (revocation.Covers other now ↔
        other ∈ revocation.middleware.revoked ∨ ¬ Respells token other ∨
          claims.expired now = true)) ∧
    ((∀ other, SameBody token other → revocation.Covers other now) ↔
      claims.expired now = true) := by
  constructor
  · intro other same
    exact covers_iff_of_sameBody revocation same now
  · constructor
    · intro covers
      obtain ⟨other, respells, fresh⟩ :=
        revocation.exists_respelling_notMem revocation.middleware.revoked
      have same := sameBody_of_respells respells
      rcases (covers_iff_of_sameBody revocation same now).mp
          (covers other same) with entry | different | expired
      · exact absurd entry fresh
      · exact absurd respells different
      · exact expired
    · intro expired other same
      exact (covers_iff_of_sameBody revocation same now).mpr
        (.inr (.inr expired))

end Revocation

/-- The signature of the token for a day, its last character raised from `4`
to `5`.  The two differ in a bit that no byte takes up. -/
def raisedSignature : Bytes :=
  (Base64.encode (oneDayLibrary.hmacSha256 [] [])).dropLast ++ [53]

def raisedToken (payload : Bytes) : Bytes :=
  Base64.encode tokenHeader ++
    dot :: (Base64.encode payload ++ dot :: raisedSignature)

theorem splitOn_raisedToken (payload : Bytes) :
    (raisedToken payload).splitOn dot =
      [Base64.encode tokenHeader, Base64.encode payload,
        raisedSignature] := by
  have clean : dot ∉ raisedSignature := by decide +kernel
  exact splitOn_parts (dot_notMem_encode _) (dot_notMem_encode _) clean

theorem respells_raisedToken (payload : Bytes) :
    Respells (signToken oneDayLibrary (ascii "test-secret") payload)
      (raisedToken payload) := by
  have spelled :
      (Base64.spelled (Base64.encode (oneDayLibrary.hmacSha256 [] []))).map
          Base64.clearSpare =
        (Base64.spelled raisedSignature).map Base64.clearSpare := by
    decide +kernel
  exact ⟨_, _, _, _, splitOn_signToken _ _ _, splitOn_raisedToken payload,
    spelled⟩

theorem raisedToken_ne (payload : Bytes) :
    raisedToken payload ≠
      signToken oneDayLibrary (ascii "test-secret") payload := by
  intro same
  have parts := splitOn_raisedToken payload
  rw [same, splitOn_signToken] at parts
  have signatures : Base64.encode (oneDayLibrary.hmacSha256 [] []) =
      raisedSignature := by
    simp only [List.cons.injEq] at parts
    exact parts.2.2.1
  revert signatures
  decide +kernel

/-- A token for a day is revoked, and accepted in the same second in another
spelling. -/
theorem respelled_token_accepted :
    ¬ ∀ (library : Library) (token : Bytes) (claims : Claims)
        (revocation : Revocation library token claims) (other : Bytes)
        (now : Int),
      SameBody token other → revocation.Covers other now := by
  intro claimed
  let claims : Claims :=
    { sub := "user@example.com"
      role := "admin"
      iat := 1700000000
      exp := 1700086400 }
  let start : Tracked :=
    .fresh
      { secret := ascii "test-secret"
        skipPaths := []
        enabled := true }
      [] 1700000000000000000
  have roundTrips : oneDayLibrary.RoundTrips claims :=
    Library.forClaims_roundTrips _ _ _
  obtain ⟨payload, _, decodes⟩ := roundTrips
  let token : Bytes :=
    signToken oneDayLibrary (ascii "test-secret") payload
  have secret : start.middleware.secret = ascii "test-secret" := by
    decide
  have accepted : start.middleware.validateToken oneDayLibrary token
      1700000000 = .ok claims := by
    have valid := @validateToken_signToken oneDayLibrary start.middleware
      payload _ decodes (AList.notMem_empty _) 1700000000
    rw [secret] at valid
    exact valid.trans (if_neg (by decide))
  let revocation : Revocation oneDayLibrary token claims :=
    { start := start
      acceptedAt := 1700000000
      accepted := accepted
      before := []
      elapsed := 0
      after := []
      entry := (AList.mem_insert _).mpr (.inl rfl) }
  have respells := respells_raisedToken payload
  have same := sameBody_of_respells respells
  have covered := claimed _ _ _ revocation _ 1700000000 same
  rcases (revocation.covers_iff_of_sameBody same 1700000000).mp covered with
    entry | different | expired
  · rcases (AList.mem_insert _).mp entry with sameText | earlier
    · exact raisedToken_ne payload sameText
    · exact AList.notMem_empty _ earlier
  · exact different respells
  · cases expired

end Middleware

end Ughi.Auth
