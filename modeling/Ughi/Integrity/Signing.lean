import Ughi.Integrity.Binding
import Ughi.Lib.Vec

/-!
# Signing with registered keys

Keys are registered unchecked.  Signing slices the key at its 64th byte and
verification wants hexadecimal digits, so an author's signatures are made and
verify exactly when the key registered last starts with 64 of them.
-/

namespace Ughi.Integrity

open Ughi.Lib

namespace IntegrityVerifier

/-- A series of registrations, each an author and a key. -/
def registerKeys (verifier : IntegrityVerifier)
    (registrations : List (String × String)) : IntegrityVerifier :=
  registrations.foldl
    (fun verifier registration =>
      verifier.registerKey registration.1 registration.2) verifier

/-- The key an author registered last. -/
def lastKey (registrations : List (String × String)) (author : String) :
    Option String :=
  (firstWith Prod.fst author registrations.reverse).map Prod.snd

/-- Signing any contents for an author returns integrity information, and
verifying it passes under every slug without a cached result. -/
def SignsVerifiably (verifier : IntegrityVerifier) (author : String) :
    Prop :=
  ∀ (contentBytes : List UInt8) (signedAt : Nat),
    ∃ signed, verifier.signSkill author contentBytes signedAt =
        some (some signed) ∧
      ∀ slug now, verifier.cache.lookup slug = none →
        (verifier.verify slug author contentBytes signed now).1.overallPass =
          true

section Registrations

variable (verifier : IntegrityVerifier)

theorem lastKey_append (registrations : List (String × String))
    (registration : String × String) (author : String) :
    lastKey (registrations ++ [registration]) author =
      if registration.1 = author then some registration.2
      else lastKey registrations author := by
  rw [lastKey, List.reverse_append, List.reverse_singleton,
    List.singleton_append, firstWith_cons]
  split
  · rfl
  · rfl

theorem registerKeys_append (registrations : List (String × String))
    (registration : String × String) :
    verifier.registerKeys (registrations ++ [registration]) =
      (verifier.registerKeys registrations).registerKey registration.1
        registration.2 := by
  rw [registerKeys, registerKeys, List.foldl_append]
  rfl

/-- The last registration counts, and without one the key from before. -/
theorem lookup_registerKeys (registrations : List (String × String))
    (author : String) :
    (verifier.registerKeys registrations).trustedKeys.lookup author =
      (lastKey registrations author).or
        (verifier.trustedKeys.lookup author) := by
  induction registrations using List.reverseRecOn with
  | nil => rfl
  | append_singleton registrations registration induction =>
      rw [registerKeys_append, registerKey, lastKey_append]
      dsimp only
      rw [HashMap.lookup_insert_eq, induction]
      by_cases same : registration.1 = author
      · rw [if_pos same.symm, if_pos same]
        rfl
      · rw [if_neg (Ne.symm same), if_neg same]

theorem cache_registerKeys (registrations : List (String × String)) :
    (verifier.registerKeys registrations).cache = verifier.cache := by
  induction registrations using List.reverseRecOn with
  | nil => rfl
  | append_singleton registrations registration induction =>
      rw [registerKeys_append, ← induction]
      rfl

end Registrations

section Signing

variable {verifier : IntegrityVerifier} {author pubkey : String}

theorem freshResult_of_uncached {slug : String}
    (uncached : verifier.cache.lookup slug = none) (now : Nat) :
    verifier.freshResult slug now = none := by
  rw [freshResult, uncached]
  rfl

theorem exists_passes_of_hexKey
    (registered : verifier.trustedKeys.lookup author = some pubkey)
    (hexKey : HexKey pubkey) (contentBytes : List UInt8) (signedAt : Nat) :
    ∃ signed, verifier.signSkill author contentBytes signedAt =
        some (some signed) ∧
      Passes verifier.trustedKeys author contentBytes signed := by
  obtain ⟨keyStart, slice, digits⟩ := hexKey
  have computed : ComputedOver (sha256Hex contentBytes) pubkey
      (sha256Hex contentBytes ++ keyStart) :=
    ⟨keyStart, slice, rfl⟩
  have wellFormed := (wellFormedSignature_computedOver computed).mpr
    ⟨keyStart, slice, digits⟩
  rw [signSkill, registered]
  dsimp only
  rw [slice]
  exact ⟨_, rfl, rfl, registered, wellFormed, .inl rfl⟩

/-- An author signs verifiably exactly with a key of hexadecimal digits. -/
theorem signsVerifiably_iff
    (registered : verifier.trustedKeys.lookup author = some pubkey)
    {slug : String} (uncached : verifier.cache.lookup slug = none) :
    verifier.SignsVerifiably author ↔ HexKey pubkey := by
  constructor
  · intro signs
    obtain ⟨signed, returned, verifies⟩ := signs [] 0
    have passed := verifies slug 0 uncached
    rw [verify_of_stale (freshResult_of_uncached uncached 0)] at passed
    have passes := judge_overallPass_iff.mp passed
    obtain ⟨key, found, _, _, computed⟩ := signSkill_spec returned
    cases Option.some.inj (registered.symm.trans found)
    exact (wellFormedSignature_computedOver computed).mp passes.signature
  · intro hexKey contentBytes signedAt
    obtain ⟨signed, returned, passes⟩ :=
      exists_passes_of_hexKey registered hexKey contentBytes signedAt
    refine ⟨signed, returned, ?_⟩
    intro otherSlug now otherUncached
    rw [verify_of_stale (freshResult_of_uncached otherUncached now)]
    exact judge_overallPass_iff.mpr passes

end Signing

/-! ## The keys of a new verifier -/

theorem trustedKeys_registerKeys (verifier : IntegrityVerifier)
    (registrations : List (String × String)) :
    (verifier.registerKeys registrations).trustedKeys =
      registrations.foldl
        (fun keys registration => keys.insert registration.1 registration.2)
        verifier.trustedKeys := by
  induction registrations using List.reverseRecOn with
  | nil => rfl
  | append_singleton registrations registration induction =>
      rw [registerKeys_append, List.foldl_append, ← induction]
      rfl

theorem lookup_new_mem {author key : String}
    (found : new.trustedKeys.lookup author = some key) :
    ∃ publisher ∈ publishers, publisher.2 = key := by
  let unkeyed : IntegrityVerifier := { new with trustedKeys := ∅ }
  have keys : new.trustedKeys =
      (unkeyed.registerKeys publishers).trustedKeys := by
    rw [trustedKeys_registerKeys]
    rfl
  have empty : unkeyed.trustedKeys.lookup author = none := rfl
  rw [keys, lookup_registerKeys, empty, Option.or_none] at found
  obtain ⟨publisher, last, rfl⟩ := Option.map_eq_some_iff.mp found
  have member := List.mem_reverse.mp (mem_of_firstWith last)
  exact ⟨publisher, member, rfl⟩

theorem hexKey_publishers :
    ∀ publisher ∈ publishers, HexKey publisher.2 := by
  intro publisher member
  obtain ⟨digits, reaches⟩ := publishers_hexDigits publisher member
  refine ⟨_, sliceTo_of_isAsciiHexDigit digits reaches, ?_⟩
  intro c inStart
  rw [String.toList_ofList] at inStart
  exact List.all_eq_true.mp digits c (List.mem_of_mem_take inStart)

/-- After any registrations, signing for an author with a key works exactly
when the key registered last, if any, starts with 64 hexadecimal digits. -/
theorem registered_signsVerifiably_iff
    (registrations : List (String × String)) (author : String) :
    (author ∈ (new.registerKeys registrations).trustedKeys →
        (new.registerKeys registrations).SignsVerifiably author) ↔
      ∀ pubkey, lastKey registrations author = some pubkey →
        HexKey pubkey := by
  have found := lookup_registerKeys new registrations author
  have uncached :
      (new.registerKeys registrations).cache.lookup "" = none := by
    rw [cache_registerKeys]
    rfl
  cases last : lastKey registrations author with
  | some pubkey =>
      rw [last] at found
      have present : author ∈ (new.registerKeys registrations).trustedKeys :=
        HashMap.mem_iff_exists_lookup.mpr ⟨pubkey, found⟩
      have works := signsVerifiably_iff found uncached
      constructor
      · intro signs other same
        cases same
        exact works.mp (signs present)
      · intro hexKey _
        exact works.mpr (hexKey pubkey rfl)
  | none =>
      rw [last, Option.none_or] at found
      refine iff_of_true ?_ (by simp)
      intro present
      obtain ⟨pubkey, known⟩ := HashMap.mem_iff_exists_lookup.mp present
      obtain ⟨publisher, listed, rfl⟩ := lookup_new_mem (found.symm.trans known)
      exact (signsVerifiably_iff known uncached).mpr
        (hexKey_publishers publisher listed)

/-- With a short key, signing panics. -/
theorem short_key_panics :
    ¬ ∀ (registrations : List (String × String)) (author : String),
      author ∈ (new.registerKeys registrations).trustedKeys →
        (new.registerKeys registrations).SignsVerifiably author := by
  intro claimed
  have found := lookup_registerKeys new [("author", "short")] "author"
  have present : "author" ∈
      (new.registerKeys [("author", "short")]).trustedKeys :=
    HashMap.mem_iff_exists_lookup.mpr ⟨"short", found⟩
  obtain ⟨signed, returned, _⟩ := claimed [("author", "short")] "author"
    present [] 0
  have slice : sliceTo "short" 64 = none := by decide +kernel
  have registered : (new.registerKeys
      [("author", "short")]).trustedKeys.lookup "author" = some "short" :=
    found
  rw [signSkill, registered] at returned
  dsimp only at returned
  rw [slice] at returned
  cases returned

end IntegrityVerifier

end Ughi.Integrity
