import Ughi.Lib.Base64
import Ughi.Lib.Binary64
import Ughi.Lib.HashMap

/-!
# Tokens of the API

Signing, checking and revoking tokens.  A token is a byte string; readings of
the clock are arguments, in Unix seconds or, where a duration is subtracted,
in nanoseconds.  The keyed hash and the JSON codec are those of the standard
library and enter as parameters.
-/

namespace Ughi.Auth

open Ughi.Lib

abbrev Bytes : Type :=
  List UInt8

/-- The bytes of an ASCII text. -/
def ascii (text : String) : Bytes :=
  text.toList.map fun c => UInt8.ofNat c.toNat

/-- A signed 64-bit word. -/
def int64 (value : Int) : Int :=
  value.bmod (2 ^ 64)

/-- `time.Hour`, in nanoseconds. -/
def hour : Int := 3600000000000

/-- `Duration.Seconds`: whole seconds and the fraction, added as doubles. -/
def durationSeconds (duration : Int) : ℚ :=
  Binary64.nearest (Binary64.nearest (duration.tdiv 1000000000) +
    Binary64.nearest (Binary64.nearest (duration.tmod 1000000000) /
      1000000000))

structure Claims where
  sub : String
  role : String
  iat : Int
  exp : Int
deriving DecidableEq, Repr

/-- What is used of `crypto/hmac` and `encoding/json`. -/
structure Library where
  hmacSha256 : Bytes → Bytes → Bytes
  marshal : Claims → Except String Bytes
  unmarshal : Bytes → Except String Claims

/-- The claims survive being written and read back. -/
def Library.RoundTrips (library : Library) (claims : Claims) : Prop :=
  ∃ payload, library.marshal claims = .ok payload ∧
    library.unmarshal payload = .ok claims

/-- A library as far as one claims object is concerned: `payload` is its JSON
text and `digest` the keyed hash of the signing input. -/
def Library.forClaims (claims : Claims) (payload digest : Bytes) : Library :=
  { hmacSha256 := fun _ _ => digest
    marshal := fun other =>
      if other = claims then .ok payload else .error "unsupported value"
    unmarshal := fun other =>
      if other = payload then .ok claims else .error "unexpected input" }

theorem Library.forClaims_roundTrips (claims : Claims)
    (payload digest : Bytes) :
    (forClaims claims payload digest).RoundTrips claims :=
  ⟨payload, if_pos rfl, if_pos rfl⟩

structure Config where
  secret : Bytes
  skipPaths : List Bytes
  enabled : Bool

structure Middleware where
  secret : Bytes
  skipPaths : List Bytes
  enabled : Bool
  revoked : HashMap Bytes Int

/-- `environment` is the value of `UGHI_JWT_SECRET`. -/
def Middleware.new (config : Config) (environment : Bytes) : Middleware :=
  let secret := if config.secret = [] then environment else config.secret
  { secret := secret
    skipPaths := config.skipPaths
    enabled := if secret = [] then false else config.enabled
    revoked := ∅ }

/-- The separator of the three parts of a token. -/
def dot : UInt8 := 46

def tokenHeader : Bytes :=
  ascii "\x7b\"alg\":\"HS256\",\"typ\":\"JWT\"\x7d"

def claimsFor (sub role : String) (ttl now : Int) : Claims :=
  { sub := sub
    role := role
    iat := now
    exp := int64 (now + Binary64.truncate (durationSeconds ttl)) }

def signToken (library : Library) (secret payload : Bytes) : Bytes :=
  let sigInput := Base64.encode tokenHeader ++ dot :: Base64.encode payload
  sigInput ++ dot :: Base64.encode (library.hmacSha256 sigInput secret)

/-- A claims object has expired; an expiry that is not positive means none. -/
def Claims.expired (claims : Claims) (now : Int) : Bool :=
  claims.exp > 0 && now > claims.exp

/-- The checks of a token's parts that do not depend on the time. -/
def verifyParts (library : Library) (secret header payload signature : Bytes) :
    Except String Claims :=
  let expectedSig := library.hmacSha256 (header ++ dot :: payload) secret
  match Base64.decode signature with
  | none => .error "invalid signature encoding"
  | some actualSig =>
      if expectedSig ≠ actualSig then .error "invalid signature"
      else
        match Base64.decode payload with
        | none => .error "invalid payload encoding"
        | some claimsBytes =>
            match library.unmarshal claimsBytes with
            | .error message => .error ("invalid claims: " ++ message)
            | .ok claims => .ok claims

namespace Middleware

def generateToken (library : Library) (middleware : Middleware)
    (sub role : String) (ttl now : Int) : Except String Bytes :=
  if middleware.secret = [] then .error "no signing secret configured"
  else
    match library.marshal (claimsFor sub role ttl now) with
    | .error message => .error ("failed to marshal claims: " ++ message)
    | .ok payload => .ok (signToken library middleware.secret payload)

def validateToken (library : Library) (middleware : Middleware)
    (token : Bytes) (now : Int) : Except String Claims :=
  match token.splitOn dot with
  | [header, payload, signature] =>
      if token ∈ middleware.revoked then .error "token has been revoked"
      else
        match verifyParts library middleware.secret header payload
            signature with
        | .error message => .error message
        | .ok claims =>
            if claims.expired now then .error "token expired" else .ok claims
  | _ => .error "invalid token format"

def revokeToken (middleware : Middleware) (token : Bytes) (now : Int) :
    Middleware :=
  { middleware with revoked := middleware.revoked.insert token now }

/-- Drop the entries made before the cutoff; `nowNanos` is the clock in
nanoseconds, and negating the age wraps around for the least duration. -/
def cleanupExpiredRevocations (middleware : Middleware)
    (maxAge nowNanos : Int) : Middleware :=
  let cutoff := (nowNanos + int64 (-maxAge)) / 1000000000
  { middleware with
    revoked := HashMap.retain (fun revokedAt => !(revokedAt < cutoff))
      middleware.revoked }

end Middleware

/-- The body of a request for a token. -/
structure TokenRequest where
  sub : String
  role : String
  ttlHours : Int
deriving DecidableEq, Repr

inductive TokenResponse where
  | refused (status : Nat) (error : String)
  | issued (token : Bytes) (expiresIn : Int) (role : String)
deriving DecidableEq, Repr

/-- The hours a request is granted. -/
def TokenRequest.grantedHours (request : TokenRequest) : Int :=
  if request.ttlHours ≤ 0 then 24 else request.ttlHours

/-- `none` is a body that does not parse. -/
def handleGenerateToken (library : Library) (middleware : Middleware)
    (body : Option TokenRequest) (now : Int) : TokenResponse :=
  match body with
  | none => .refused 400 "invalid request body"
  | some request =>
      if request.sub = "" ∨ request.role = "" then
        .refused 400 "sub and role are required"
      else
        let ttlHours := request.grantedHours
        match middleware.generateToken library request.sub request.role
            (int64 (ttlHours * hour)) now with
        | .error message => .refused 500 message
        | .ok token =>
            .issued token (int64 (ttlHours * 3600)) request.role

/-! ## A signed token and its parts -/

theorem dot_notMem_encode (bytes : Bytes) : dot ∉ Base64.encode bytes :=
  Base64.notMem_encode bytes (by decide)

theorem splitOn_parts {header payload signature : Bytes}
    (headerClean : dot ∉ header) (payloadClean : dot ∉ payload)
    (signatureClean : dot ∉ signature) :
    (header ++ dot :: (payload ++ dot :: signature)).splitOn dot =
      [header, payload, signature] := by
  rw [List.splitOn_append_cons_self_of_not_mem headerClean,
    List.splitOn_append_cons_self_of_not_mem payloadClean,
    List.splitOn_eq_singleton signatureClean]

theorem splitOn_signToken (library : Library) (secret payload : Bytes) :
    (signToken library secret payload).splitOn dot =
      [Base64.encode tokenHeader, Base64.encode payload,
        Base64.encode (library.hmacSha256
          (Base64.encode tokenHeader ++ dot :: Base64.encode payload)
          secret)] := by
  rw [signToken, List.append_assoc, List.cons_append]
  exact splitOn_parts (dot_notMem_encode _) (dot_notMem_encode _)
    (dot_notMem_encode _)

theorem validateToken_signToken {library : Library} {middleware : Middleware}
    {payload : Bytes} {claims : Claims}
    (decodes : library.unmarshal payload = .ok claims)
    (unrevoked :
      signToken library middleware.secret payload ∉ middleware.revoked)
    (now : Int) :
    middleware.validateToken library
        (signToken library middleware.secret payload) now =
      if claims.expired now then .error "token expired" else .ok claims := by
  rw [Middleware.validateToken, splitOn_signToken]
  simp only [unrevoked, if_false, verifyParts, Base64.decode_encode, decodes,
    ne_eq, not_true_eq_false]

end Ughi.Auth
