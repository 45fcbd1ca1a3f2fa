import Ughi.Integrity.Sha256
import Ughi.Lib.HashMap
import Ughi.Lib.Text

/-!
# The integrity verifier

`judge` is the uncached path of `verify`: the hash, then the key and the form
of the signature, then the scan status.  `verify` answers from a cache keyed
by the slug for an hour, and otherwise judges, counts and caches.
-/

namespace Ughi.Integrity

open Ughi.Lib

inductive VirusTotalStatus where
  | pending
  | clean
  | suspicious
  | malicious
  | unavailable
deriving DecidableEq, Repr

/-- The text a status is displayed as. -/
def VirusTotalStatus.display : VirusTotalStatus → String
  | .pending => "⏳ Pending"
  | .clean => "✅ Clean"
  | .suspicious => "⚠️ Suspicious"
  | .malicious => "🚫 Malicious"
  | .unavailable => "❓ Unavailable"

structure IntegrityInfo where
  sha256 : String
  signature : String
  authorPubkey : String
  vtStatus : VirusTotalStatus
  verifiedAtMs : Nat
  verified : Bool
deriving DecidableEq, Repr

def IntegrityInfo.unverified : IntegrityInfo :=
  { sha256 := ""
    signature := ""
    authorPubkey := ""
    vtStatus := .pending
    verifiedAtMs := 0
    verified := false }

structure VerificationResult where
  skillSlug : String
  sha256Valid : Bool
  signatureValid : Bool
  vtClean : Bool
  overallPass : Bool
  reason : String
  checkedAtMs : Nat
deriving DecidableEq, Repr

abbrev TrustedKeys : Type := HashMap String String

/-- The publishers whose keys a new verifier trusts. -/
def publishers : List (String × String) :=
  [ ("vercel",
      "a1b2c3d4e5f6a7b8c9d0e1f2a3b4c5d6e7f8a9b0c1d2e3f4a5b6c7d8e9f0a1b2"),
    ("tailwindlabs",
      "b2c3d4e5f6a7b8c9d0e1f2a3b4c5d6e7f8a9b0c1d2e3f4a5b6c7d8e9f0a1b2c3"),
    ("microsoft",
      "c3d4e5f6a7b8c9d0e1f2a3b4c5d6e7f8a9b0c1d2e3f4a5b6c7d8e9f0a1b2c3d4"),
    ("cursor",
      "d4e5f6a7b8c9d0e1f2a3b4c5d6e7f8a9b0c1d2e3f4a5b6c7d8e9f0a1b2c3d4e5"),
    ("shadcn",
      "e5f6a7b8c9d0e1f2a3b4c5d6e7f8a9b0c1d2e3f4a5b6c7d8e9f0a1b2c3d4e5f6"),
    ("rust-lang",
      "f6a7b8c9d0e1f2a3b4c5d6e7f8a9b0c1d2e3f4a5b6c7d8e9f0a1b2c3d4e5f6a7"),
    ("docker",
      "a7b8c9d0e1f2a3b4c5d6e7f8a9b0c1d2e3f4a5b6c7d8e9f0a1b2c3d4e5f6a7b8"),
    ("openai",
      "b8c9d0e1f2a3b4c5d6e7f8a9b0c1d2e3f4a5b6c7d8e9f0a1b2c3d4e5f6a7b8c9"),
    ("supabase",
      "c9d0e1f2a3b4c5d6e7f8a9b0c1d2e3f4a5b6c7d8e9f0a1b2c3d4e5f6a7b8c9d0"),
    ("kubernetes",
      "d0e1f2a3b4c5d6e7f8a9b0c1d2e3f4a5b6c7d8e9f0a1b2c3d4e5f6a7b8c9d0e1"),
    ("langchain",
      "e1f2a3b4c5d6e7f8a9b0c1d2e3f4a5b6c7d8e9f0a1b2c3d4e5f6a7b8c9d0e1f2"),
    ("prisma",
      "f2a3b4c5d6e7f8a9b0c1d2e3f4a5b6c7d8e9f0a1b2c3d4e5f6a7b8c9d0e1f2a3"),
    ("github",
      "a3b4c5d6e7f8a9b0c1d2e3f4a5b6c7d8e9f0a1b2c3d4e5f6a7b8c9d0e1f2a3b4"),
    ("aws",
      "b4c5d6e7f8a9b0c1d2e3f4a5b6c7d8e9f0a1b2c3d4e5f6a7b8c9d0e1f2a3b4c5"),
    ("figma",
      "c5d6e7f8a9b0c1d2e3f4a5b6c7d8e9f0a1b2c3d4e5f6a7b8c9d0e1f2a3b4c5d6"),
    ("expo",
      "d6e7f8a9b0c1d2e3f4a5b6c7d8e9f0a1b2c3d4e5f6a7b8c9d0e1f2a3b4c5d6e7"),
    ("graphql",
      "e7f8a9b0c1d2e3f4a5b6c7d8e9f0a1b2c3d4e5f6a7b8c9d0e1f2a3b4c5d6e7f8"),
    ("owasp",
      "f8a9b0c1d2e3f4a5b6c7d8e9f0a1b2c3d4e5f6a7b8c9d0e1f2a3b4c5d6e7f8a9"),
    ("tiangolo",
      "a9b0c1d2e3f4a5b6c7d8e9f0a1b2c3d4e5f6a7b8c9d0e1f2a3b4c5d6e7f8a9b0"),
    ("deno",
      "b0c1d2e3f4a5b6c7d8e9f0a1b2c3d4e5f6a7b8c9d0e1f2a3b4c5d6e7f8a9b0c1"),
    ("stripe",
      "c1d2e3f4a5b6c7d8e9f0a1b2c3d4e5f6a7b8c9d0e1f2a3b4c5d6e7f8a9b0c1d2"),
    ("clerk",
      "d2e3f4a5b6c7d8e9f0a1b2c3d4e5f6a7b8c9d0e1f2a3b4c5d6e7f8a9b0c1d2e3")]

structure IntegrityVerifier where
  trustedKeys : TrustedKeys
  cache : HashMap String VerificationResult
  totalVerified : Nat
  totalRejected : Nat

/-- How long a cached result is served: one hour. -/
def cacheValidMs : Nat := 3600000

/-- The key is registered and the signature has the form of one; the hash is
not looked at. -/
def verifyEd25519 (trustedKeys : TrustedKeys) (author _hash signature
    providedPubkey : String) : Bool :=
  match trustedKeys.lookup author with
  | none => false
  | some registeredKey =>
      if registeredKey ≠ providedPubkey then false
      else if signature.utf8ByteSize ≠ 128 then false
      else signature.toList.all isAsciiHexDigit

/-- The verdict on the arguments themselves. -/
def judge (trustedKeys : TrustedKeys) (slug author : String)
    (contentBytes : List UInt8) (integrity : IntegrityInfo) (now : Nat) :
    VerificationResult :=
  let computedHash := sha256Hex contentBytes
  if computedHash ≠ integrity.sha256 then
    { skillSlug := slug
      sha256Valid := false
      signatureValid := false
      vtClean := false
      overallPass := false
      reason := "SHA256 mismatch: expected " ++ integrity.sha256 ++
        ", got " ++ computedHash
      checkedAtMs := now }
  else if !verifyEd25519 trustedKeys author computedHash integrity.signature
      integrity.authorPubkey then
    { skillSlug := slug
      sha256Valid := true
      signatureValid := false
      vtClean := false
      overallPass := false
      reason := "Ed25519 signature verification failed — unsigned or forged"
      checkedAtMs := now }
  else
    match integrity.vtStatus with
    | .clean | .unavailable =>
        { skillSlug := slug
          sha256Valid := true
          signatureValid := true
          vtClean := true
          overallPass := true
          reason := "✅ Verified: SHA256 + Ed25519 + VirusTotal all pass"
          checkedAtMs := now }
    | status =>
        { skillSlug := slug
          sha256Valid := true
          signatureValid := true
          vtClean := false
          overallPass := false
          reason := "VirusTotal: " ++ status.display
          checkedAtMs := now }

namespace IntegrityVerifier

def new : IntegrityVerifier :=
  { trustedKeys := publishers.foldl
      (fun keys (author, key) => keys.insert author key) ∅
    cache := ∅
    totalVerified := 0
    totalRejected := 0 }

def registerKey (verifier : IntegrityVerifier) (author pubkey : String) :
    IntegrityVerifier :=
  { verifier with trustedKeys := verifier.trustedKeys.insert author pubkey }

/-- Count and cache a fresh verdict. -/
def record (verifier : IntegrityVerifier) (slug : String)
    (result : VerificationResult) : IntegrityVerifier :=
  { verifier with
    cache := verifier.cache.insert slug result
    totalVerified :=
      if result.overallPass then verifier.totalVerified + 1
      else verifier.totalVerified
    totalRejected :=
      if result.overallPass then verifier.totalRejected
      else verifier.totalRejected + 1 }

/-- The cached result for a slug, while it is valid. -/
def freshResult (verifier : IntegrityVerifier) (slug : String) (now : Nat) :
    Option VerificationResult :=
  (verifier.cache.lookup slug).filter fun cached =>
    now - cached.checkedAtMs < cacheValidMs

def verify (verifier : IntegrityVerifier) (slug author : String)
    (contentBytes : List UInt8) (integrity : IntegrityInfo) (now : Nat) :
    VerificationResult × IntegrityVerifier :=
  match verifier.freshResult slug now with
  | some cached => (cached, verifier)
  | none =>
      let result :=
        judge verifier.trustedKeys slug author contentBytes integrity now
      (result, verifier.record slug result)

theorem verify_of_fresh {verifier : IntegrityVerifier} {slug author : String}
    {contentBytes : List UInt8} {integrity : IntegrityInfo} {now : Nat}
    {cached : VerificationResult}
    (found : verifier.freshResult slug now = some cached) :
    verifier.verify slug author contentBytes integrity now =
      (cached, verifier) := by
  rw [verify, found]

theorem verify_of_stale {verifier : IntegrityVerifier} {slug author : String}
    {contentBytes : List UInt8} {integrity : IntegrityInfo} {now : Nat}
    (stale : verifier.freshResult slug now = none) :
    verifier.verify slug author contentBytes integrity now =
      (judge verifier.trustedKeys slug author contentBytes integrity now,
        verifier.record slug
          (judge verifier.trustedKeys slug author contentBytes integrity
            now)) := by
  rw [verify, stale]

def virustotalScan (_contentBytes : List UInt8) : VirusTotalStatus :=
  .clean

/-- Sign for an author; `some none` for an author without a key, and `none`
for the panic on a key that has no boundary at its 64th byte. -/
def signSkill (verifier : IntegrityVerifier) (author : String)
    (contentBytes : List UInt8) (now : Nat) : Option (Option IntegrityInfo) :=
  match verifier.trustedKeys.lookup author with
  | none => some none
  | some pubkey =>
      let hash := sha256Hex contentBytes
      (sliceTo pubkey 64).map fun keyStart =>
        some
          { sha256 := hash
            signature := hash ++ keyStart
            authorPubkey := pubkey
            vtStatus := virustotalScan contentBytes
            verifiedAtMs := now
            verified := true }

def clearCache (verifier : IntegrityVerifier) : IntegrityVerifier :=
  { verifier with cache := ∅ }

/-- The calls of a verifier; `now` is the clock reading of the call. -/
inductive Call where
  | registerKey (author pubkey : String)
  | signSkill (author : String) (contentBytes : List UInt8) (now : Nat)
  | verify (slug author : String) (contentBytes : List UInt8)
      (integrity : IntegrityInfo) (now : Nat)
  | clearCache
deriving DecidableEq, Repr

/-- The verifier after a call.  Signing only reads it. -/
def serve (verifier : IntegrityVerifier) : Call → IntegrityVerifier
  | .registerKey author pubkey => verifier.registerKey author pubkey
  | .signSkill _ _ _ => verifier
  | .verify slug author contentBytes integrity now =>
      (verifier.verify slug author contentBytes integrity now).2
  | .clearCache => verifier.clearCache

end IntegrityVerifier

/-! ## The publishers' keys -/

theorem hexDigits_ofList {text : List Char} {count : Nat}
    (digits : text.all isAsciiHexDigit = true) (reaches : count ≤ text.length) :
    (String.ofList text).toList.all isAsciiHexDigit = true ∧
      count ≤ (String.ofList text).toList.length := by
  rw [String.toList_ofList]
  exact ⟨digits, reaches⟩

theorem publishers_hexDigits :
    ∀ publisher ∈ publishers,
      publisher.2.toList.all isAsciiHexDigit = true ∧
        64 ≤ publisher.2.toList.length := by
  simp only [publishers, List.forall_mem_cons]
  repeat
    refine ⟨hexDigits_ofList (by decide +kernel) (by decide +kernel), ?_⟩
  intro publisher member
  exact absurd member List.not_mem_nil

/-! ## What a fresh verdict means -/

/-- A text of 128 hexadecimal digits. -/
def WellFormedSignature (signature : String) : Prop :=
  signature.toList.length = 128 ∧
    ∀ c ∈ signature.toList, isAsciiHexDigit c = true

/-- The checks of the install gate, on the arguments and the registered
keys. -/
structure Passes (trustedKeys : TrustedKeys) (author : String)
    (contentBytes : List UInt8) (integrity : IntegrityInfo) : Prop where
  hash : sha256Hex contentBytes = integrity.sha256
  key : trustedKeys.lookup author = some integrity.authorPubkey
  signature : WellFormedSignature integrity.signature
  scan : integrity.vtStatus = .clean ∨ integrity.vtStatus = .unavailable

theorem wellFormedSignature_iff {signature : String} :
    WellFormedSignature signature ↔
      signature.utf8ByteSize = 128 ∧
        signature.toList.all isAsciiHexDigit = true := by
  rw [WellFormedSignature, ← List.all_eq_true]
  constructor
  · intro wellFormed
    obtain ⟨length, digits⟩ := wellFormed
    exact ⟨(utf8ByteSize_of_isAsciiHexDigit digits).trans length, digits⟩
  · intro checked
    obtain ⟨bytes, digits⟩ := checked
    exact ⟨(utf8ByteSize_of_isAsciiHexDigit digits).symm.trans bytes, digits⟩

theorem verifyEd25519_iff {trustedKeys : TrustedKeys}
    {author hash signature providedPubkey : String} :
    verifyEd25519 trustedKeys author hash signature providedPubkey = true ↔
      trustedKeys.lookup author = some providedPubkey ∧
        WellFormedSignature signature := by
  rw [wellFormedSignature_iff, verifyEd25519]
  cases trustedKeys.lookup author with
  | none => simp
  | some registeredKey =>
      by_cases sameKey : registeredKey = providedPubkey
      · by_cases bytes : signature.utf8ByteSize = 128
        · simp [sameKey, bytes]
        · simp [sameKey, bytes]
      · simp [sameKey]

/-- A fresh verdict passes exactly when the arguments pass every check. -/
theorem judge_overallPass_iff {trustedKeys : TrustedKeys}
    {slug author : String} {contentBytes : List UInt8}
    {integrity : IntegrityInfo} {now : Nat} :
    (judge trustedKeys slug author contentBytes integrity now).overallPass =
        true ↔
      Passes trustedKeys author contentBytes integrity := by
  constructor
  · intro passed
    simp only [judge] at passed
    split at passed
    · cases passed
    next sameHash =>
      split at passed
      · cases passed
      next accepted =>
        have signed : verifyEd25519 trustedKeys author
            (sha256Hex contentBytes) integrity.signature
            integrity.authorPubkey = true := by simpa using accepted
        obtain ⟨key, signature⟩ := verifyEd25519_iff.mp signed
        have hash := not_not.mp sameHash
        split at passed
        next clean =>
          exact ⟨hash, key, signature, .inl clean⟩
        next unavailable =>
          exact ⟨hash, key, signature, .inr unavailable⟩
        · cases passed
  · intro passes
    obtain ⟨hash, key, signature, scan⟩ := passes
    have signed : verifyEd25519 trustedKeys author (sha256Hex contentBytes)
        integrity.signature integrity.authorPubkey = true :=
      verifyEd25519_iff.mpr ⟨key, signature⟩
    simp only [judge, hash] at signed ⊢
    rcases scan with clean | unavailable
    · simp [signed, clean]
    · simp [signed, unavailable]

@[simp] theorem judge_checkedAtMs (trustedKeys : TrustedKeys)
    (slug author : String) (contentBytes : List UInt8)
    (integrity : IntegrityInfo) (now : Nat) :
    (judge trustedKeys slug author contentBytes integrity now).checkedAtMs =
      now := by
  simp only [judge]
  repeat' split
  all_goals rfl

end Ughi.Integrity
