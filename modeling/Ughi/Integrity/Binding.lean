import Ughi.Integrity.Digest
import Ughi.Integrity.Verifier

/-!
# What a signature binds

A signature is the hash it was computed over followed by the start of the
author's key.  Verification compares the key and the form of the signature
only, so a signature made for other contents passes whenever the key does.
-/

namespace Ughi.Integrity

open Ughi.Lib

/-- The signature that signing computes over a hash with a key. -/
def ComputedOver (hash pubkey signature : String) : Prop :=
  ∃ keyStart, sliceTo pubkey 64 = some keyStart ∧
    signature = hash ++ keyStart

/-- The part of a key that enters a signature consists of hexadecimal
digits. -/
def HexKey (pubkey : String) : Prop :=
  ∃ keyStart, sliceTo pubkey 64 = some keyStart ∧
    ∀ c ∈ keyStart.toList, isAsciiHexDigit c = true

theorem computedOver_unique {hash pubkey first second : String}
    (firstComputed : ComputedOver hash pubkey first)
    (secondComputed : ComputedOver hash pubkey second) : first = second := by
  obtain ⟨firstStart, firstSlice, rfl⟩ := firstComputed
  obtain ⟨secondStart, secondSlice, rfl⟩ := secondComputed
  have sameStart := firstSlice.symm.trans secondSlice
  rw [Option.some.inj sameStart]

theorem computedOver_hash {first second pubkey signature : String}
    (firstComputed : ComputedOver first pubkey signature)
    (secondComputed : ComputedOver second pubkey signature) :
    first = second := by
  obtain ⟨firstStart, firstSlice, rfl⟩ := firstComputed
  obtain ⟨secondStart, secondSlice, same⟩ := secondComputed
  have sameStart := firstSlice.symm.trans secondSlice
  rw [Option.some.inj sameStart] at same
  exact String.append_left_inj _ |>.mp same

/-- A signature over a digest has the form of a signature exactly when the key
is made of hexadecimal digits. -/
theorem wellFormedSignature_computedOver {contentBytes : List UInt8}
    {pubkey signature : String}
    (computed : ComputedOver (sha256Hex contentBytes) pubkey signature) :
    WellFormedSignature signature ↔ HexKey pubkey := by
  obtain ⟨keyStart, slice, rfl⟩ := computed
  obtain ⟨length, digits⟩ := sha256Hex_digits contentBytes
  constructor
  · intro wellFormed
    refine ⟨keyStart, slice, ?_⟩
    intro c member
    apply wellFormed.2
    rw [String.toList_append]
    exact List.mem_append_right _ member
  · intro hexKey
    obtain ⟨_, sameSlice, keyDigits⟩ := hexKey
    cases Option.some.inj (slice.symm.trans sameSlice)
    have bytes := utf8ByteSize_of_isAsciiHexDigit
      (List.all_eq_true.mpr keyDigits)
    rw [utf8ByteSize_sliceTo slice] at bytes
    rw [WellFormedSignature, String.toList_append]
    constructor
    · rw [List.length_append, length, ← bytes]
    · intro c member
      rcases List.mem_append.mp member with inHash | inKey
      · exact digits c inHash
      · exact keyDigits c inKey

/-! ## Verification and the hash -/

theorem wellFormedSignature_replicate {c : Char}
    (digit : isAsciiHexDigit c = true) :
    WellFormedSignature (String.ofList (List.replicate 128 c)) := by
  rw [WellFormedSignature, String.toList_ofList]
  constructor
  · exact List.length_replicate
  · intro other member
    rw [List.eq_of_mem_replicate member]
    exact digit

/-- With the author's own key, some accepted signature was not computed over
the hash. -/
theorem exists_accepted_not_computedOver {trustedKeys : TrustedKeys}
    {author pubkey : String} (hash : String)
    (registered : trustedKeys.lookup author = some pubkey) :
    ∃ signature,
      verifyEd25519 trustedKeys author hash signature pubkey = true ∧
        ¬ ComputedOver hash pubkey signature := by
  let zeros := String.ofList (List.replicate 128 '0')
  let ones := String.ofList (List.replicate 128 '1')
  have acceptsZeros :
      verifyEd25519 trustedKeys author hash zeros pubkey = true :=
    verifyEd25519_iff.mpr ⟨registered, wellFormedSignature_replicate rfl⟩
  have acceptsOnes :
      verifyEd25519 trustedKeys author hash ones pubkey = true :=
    verifyEd25519_iff.mpr ⟨registered, wellFormedSignature_replicate rfl⟩
  have different : zeros ≠ ones := by
    intro same
    have characters := String.ofList_injective same
    cases characters
  by_cases computed : ComputedOver hash pubkey zeros
  · refine ⟨ones, acceptsOnes, ?_⟩
    intro alsoComputed
    exact different (computedOver_unique computed alsoComputed)
  · exact ⟨zeros, acceptsZeros, computed⟩

theorem accepts_only_computedOver_iff (trustedKeys : TrustedKeys)
    (author hash pubkey : String) :
    (∀ signature,
        verifyEd25519 trustedKeys author hash signature pubkey = true →
          ComputedOver hash pubkey signature) ↔
      trustedKeys.lookup author ≠ some pubkey := by
  constructor
  · intro binds registered
    obtain ⟨signature, accepted, other⟩ :=
      exists_accepted_not_computedOver hash registered
    exact other (binds signature accepted)
  · intro unregistered signature accepted
    exact absurd (verifyEd25519_iff.mp accepted).1 unregistered

namespace IntegrityVerifier

/-! ## Signatures made for other contents -/

theorem signSkill_spec {verifier : IntegrityVerifier} {author : String}
    {contentBytes : List UInt8} {now : Nat} {signed : IntegrityInfo}
    (signs : verifier.signSkill author contentBytes now =
      some (some signed)) :
    ∃ pubkey, verifier.trustedKeys.lookup author = some pubkey ∧
      signed.authorPubkey = pubkey ∧
      signed.sha256 = sha256Hex contentBytes ∧
      ComputedOver (sha256Hex contentBytes) pubkey signed.signature := by
  rw [signSkill] at signs
  cases registered : verifier.trustedKeys.lookup author with
  | none =>
      rw [registered] at signs
      cases signs
  | some pubkey =>
      rw [registered] at signs
      obtain ⟨keyStart, slice, written⟩ := Option.map_eq_some_iff.mp signs
      cases written
      exact ⟨pubkey, rfl, rfl, rfl, keyStart, slice, rfl⟩

/-- Information that carries the signature made for some contents and the hash
of the contents it is judged with. -/
structure Transplanted (verifier : IntegrityVerifier) (author : String)
    (signedBytes contentBytes : List UInt8) (integrity : IntegrityInfo) :
    Prop where
  signature : ∃ now signed,
    verifier.signSkill author signedBytes now = some (some signed) ∧
      integrity.signature = signed.signature
  hash : integrity.sha256 = sha256Hex contentBytes

/-- Whether a transplanted signature passes does not depend on the contents. -/
theorem passes_transplanted_iff {verifier : IntegrityVerifier}
    {author : String} {signedBytes contentBytes : List UInt8}
    {integrity : IntegrityInfo}
    (transplanted :
      Transplanted verifier author signedBytes contentBytes integrity) :
    Passes verifier.trustedKeys author contentBytes integrity ↔
      verifier.trustedKeys.lookup author = some integrity.authorPubkey ∧
        HexKey integrity.authorPubkey ∧
        (integrity.vtStatus = .clean ∨
          integrity.vtStatus = .unavailable) := by
  obtain ⟨⟨now, signed, signs, sameSignature⟩, hash⟩ := transplanted
  obtain ⟨pubkey, registered, _, _, computed⟩ := signSkill_spec signs
  rw [← sameSignature] at computed
  have form := wellFormedSignature_computedOver computed
  constructor
  · intro passes
    have sameKey := registered.symm.trans passes.key
    cases Option.some.inj sameKey
    exact ⟨passes.key, form.mp passes.signature, passes.scan⟩
  · intro allowed
    obtain ⟨key, hexKey, scan⟩ := allowed
    cases Option.some.inj (registered.symm.trans key)
    exact ⟨hash.symm, key, form.mpr hexKey, scan⟩

/-- A signature made for other contents is rejected for its key or the scan
status only, and a signature over another hash for its key only. -/
theorem signatures_bind_iff (verifier : IntegrityVerifier)
    (author : String) :
    (∀ (slug : String) (signedBytes contentBytes : List UInt8)
        (integrity : IntegrityInfo) (now : Nat),
      sha256Hex signedBytes ≠ sha256Hex contentBytes →
      Transplanted verifier author signedBytes contentBytes integrity →
      verifier.freshResult slug now = none →
      ((verifier.verify slug author contentBytes integrity
            now).1.overallPass = false ↔
        ¬ (verifier.trustedKeys.lookup author =
              some integrity.authorPubkey ∧
            HexKey integrity.authorPubkey ∧
            (integrity.vtStatus = .clean ∨
              integrity.vtStatus = .unavailable)))) ∧
      ∀ hash pubkey,
        (∀ signature,
            verifyEd25519 verifier.trustedKeys author hash signature
                pubkey = true →
              ComputedOver hash pubkey signature) ↔
          verifier.trustedKeys.lookup author ≠ some pubkey := by
  constructor
  · intro slug signedBytes contentBytes integrity now _ transplanted stale
    rw [verify_of_stale stale, ← Bool.not_eq_true, judge_overallPass_iff,
      passes_transplanted_iff transplanted]
  · intro hash pubkey
    exact accepts_only_computedOver_iff verifier.trustedKeys author hash
      pubkey

/-- A signature made for one byte passes another byte, with the publisher's
own key. -/
theorem transplanted_passes :
    sha256Hex [0x61] ≠ sha256Hex [0x62] ∧
      ∃ signed, new.signSkill "vercel" [0x61] 0 = some (some signed) ∧
        let integrity := { signed with sha256 := sha256Hex [0x62] }
        new.freshResult "skill" 0 = none ∧
          (new.verify "skill" "vercel" [0x62] integrity 0).1.overallPass =
            true ∧
          verifyEd25519 new.trustedKeys "vercel" (sha256Hex [0x62])
              integrity.signature integrity.authorPubkey = true ∧
          ¬ ComputedOver (sha256Hex [0x62]) integrity.authorPubkey
              integrity.signature := by
  let pubkey :=
    "a1b2c3d4e5f6a7b8c9d0e1f2a3b4c5d6e7f8a9b0c1d2e3f4a5b6c7d8e9f0a1b2"
  have different : sha256Hex [0x61] ≠ sha256Hex [0x62] := by
    rw [sha256Hex_of_short (by decide), sha256Hex_of_short (by decide)]
    decide +kernel
  have registered : new.trustedKeys.lookup "vercel" = some pubkey := by
    decide +kernel
  have slice : sliceTo pubkey 64 = some pubkey := by decide +kernel
  have digits : pubkey.toList.all isAsciiHexDigit = true := by
    decide +kernel
  have signs : ∃ signed,
      new.signSkill "vercel" [0x61] 0 = some (some signed) ∧
        signed.vtStatus = .clean := by
    rw [signSkill, registered]
    dsimp only
    rw [slice]
    exact ⟨_, rfl, rfl⟩
  obtain ⟨signed, signs, clean⟩ := signs
  obtain ⟨_, key, written, _, computed⟩ := signSkill_spec signs
  cases Option.some.inj (registered.symm.trans key)
  have transplanted : Transplanted new "vercel" [0x61] [0x62]
      { signed with sha256 := sha256Hex [0x62] } :=
    { signature := ⟨0, signed, signs, rfl⟩
      hash := rfl }
  have hexKey : HexKey pubkey :=
    ⟨pubkey, slice, List.all_eq_true.mp digits⟩
  have passes := (passes_transplanted_iff transplanted).mpr
    ⟨written.symm ▸ registered, written.symm ▸ hexKey, .inl clean⟩
  have stale : new.freshResult "skill" 0 = none := rfl
  refine ⟨different, signed, signs, stale, ?_, ?_, ?_⟩
  · rw [verify_of_stale stale]
    exact judge_overallPass_iff.mpr passes
  · exact verifyEd25519_iff.mpr ⟨passes.key, passes.signature⟩
  · intro alsoComputed
    rw [written] at alsoComputed
    exact different (computedOver_hash computed alsoComputed)

end IntegrityVerifier

end Ughi.Integrity
