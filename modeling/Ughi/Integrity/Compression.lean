import Mathlib.Data.List.GetD
import Ughi.Integrity.Sha256
import Ughi.Lib.SecureHash

/-!
# The compression function against the standard

The 32-bit words of the code and the words of the standard are compared bit
vector by bit vector: the rotations, the schedule loop, the rounds and the
final additions.
-/

namespace Ughi.Integrity

open Ughi.Lib
open Ughi.Lib.SecureHash (Hash Word)

namespace Sha256

/-! ## Words -/

theorem toBitVec_rotateRight (word : UInt32) {count : UInt32}
    (positive : 0 < count.toNat) (below : count.toNat < 32) :
    (rotateRight word count).toBitVec =
      word.toBitVec.rotateRight count.toNat := by
  have complement : (32 - count).toNat = 32 - count.toNat := by
    apply UInt32.toNat_sub_of_le
    exact UInt32.le_iff_toNat_le.mpr (Nat.le_of_lt below)
  have right : (count.toBitVec % 32).toNat = count.toNat := by
    rw [BitVec.toNat_umod]
    exact Nat.mod_eq_of_lt below
  have left : ((32 - count).toBitVec % 32).toNat = 32 - count.toNat := by
    have short : 32 - count.toNat < 32 := by omega
    rw [BitVec.toNat_umod, UInt32.toNat_toBitVec, complement]
    exact Nat.mod_eq_of_lt short
  rw [BitVec.rotateRight_def, Nat.mod_eq_of_lt below, rotateRight,
    UInt32.toBitVec_or, UInt32.toBitVec_shiftRight,
    UInt32.toBitVec_shiftLeft, BitVec.ushiftRight_eq', BitVec.shiftLeft_eq',
    right, left]

theorem toBitVec_shiftRight (word : UInt32) {count : UInt32}
    (below : count.toNat < 32) :
    (word >>> count).toBitVec = word.toBitVec >>> count.toNat := by
  have right : (count.toBitVec % 32).toNat = count.toNat := by
    rw [BitVec.toNat_umod]
    exact Nat.mod_eq_of_lt below
  rw [UInt32.toBitVec_shiftRight, BitVec.ushiftRight_eq', right]

theorem toBitVec_lowerSigma0 (word : UInt32) :
    (rotateRight word 7 ^^^ rotateRight word 18 ^^^ (word >>> 3)).toBitVec =
      SecureHash.lowerSigma0 word.toBitVec := by
  have first := @toBitVec_rotateRight word 7 (by decide) (by decide)
  have second := @toBitVec_rotateRight word 18 (by decide) (by decide)
  have third := @toBitVec_shiftRight word 3 (by decide)
  rw [UInt32.toBitVec_xor, UInt32.toBitVec_xor, first, second, third]
  rfl

theorem toBitVec_lowerSigma1 (word : UInt32) :
    (rotateRight word 17 ^^^ rotateRight word 19 ^^^
        (word >>> 10)).toBitVec =
      SecureHash.lowerSigma1 word.toBitVec := by
  have first := @toBitVec_rotateRight word 17 (by decide) (by decide)
  have second := @toBitVec_rotateRight word 19 (by decide) (by decide)
  have third := @toBitVec_shiftRight word 10 (by decide)
  rw [UInt32.toBitVec_xor, UInt32.toBitVec_xor, first, second, third]
  rfl

theorem toBitVec_upperSigma0 (word : UInt32) :
    (rotateRight word 2 ^^^ rotateRight word 13 ^^^
        rotateRight word 22).toBitVec =
      SecureHash.upperSigma0 word.toBitVec := by
  have first := @toBitVec_rotateRight word 2 (by decide) (by decide)
  have second := @toBitVec_rotateRight word 13 (by decide) (by decide)
  have third := @toBitVec_rotateRight word 22 (by decide) (by decide)
  rw [UInt32.toBitVec_xor, UInt32.toBitVec_xor, first, second, third]
  rfl

theorem toBitVec_upperSigma1 (word : UInt32) :
    (rotateRight word 6 ^^^ rotateRight word 11 ^^^
        rotateRight word 25).toBitVec =
      SecureHash.upperSigma1 word.toBitVec := by
  have first := @toBitVec_rotateRight word 6 (by decide) (by decide)
  have second := @toBitVec_rotateRight word 11 (by decide) (by decide)
  have third := @toBitVec_rotateRight word 25 (by decide) (by decide)
  rw [UInt32.toBitVec_xor, UInt32.toBitVec_xor, first, second, third]
  rfl

theorem toBitVec_fromBeBytes (b0 b1 b2 b3 : UInt8) :
    (fromBeBytes b0 b1 b2 b3).toBitVec =
      b0.toBitVec ++ b1.toBitVec ++ b2.toBitVec ++ b3.toBitVec := by
  have joined :=
    @BitVec.setWidth_append_append_append_eq_shiftLeft_setWidth_or
      8 8 8 8 32 b0.toBitVec b1.toBitVec b2.toBitVec b3.toBitVec
  rw [BitVec.setWidth_eq] at joined
  rw [joined, fromBeBytes, UInt32.toBitVec_or, UInt32.toBitVec_or,
    UInt32.toBitVec_or, UInt32.toBitVec_shiftLeft,
    UInt32.toBitVec_shiftLeft, UInt32.toBitVec_shiftLeft]
  rfl

/-! ## Constants -/

set_option maxRecDepth 2000 in
theorem roundConstants_eq :
    roundConstants.map UInt32.toBitVec = SecureHash.constants := by
  apply Eq.symm
  rw [SecureHash.constants, @SecureHash.primesBelow_eq 312 18 (by decide)]
  apply SecureHash.map_fractionBits (by decide)
  decide +kernel

theorem roundConstants_getD (t : Nat) :
    (roundConstants.getD t 0).toBitVec = SecureHash.constants.getD t 0 := by
  rw [← roundConstants_eq, List.getD_eq_getElem?_getD,
    List.getD_eq_getElem?_getD, List.getElem?_map]
  cases roundConstants[t]? with
  | none => rfl
  | some constant => rfl

/-! ## The schedule -/

theorem blockWords_length (block : List UInt8) :
    (blockWords block).length = 16 := by
  rw [blockWords, List.length_map, List.length_range]

theorem blockWords_getD (block : List UInt8) {t : Nat} (early : t < 16) :
    ((blockWords block).getD t 0).toBitVec =
      SecureHash.schedule block t := by
  have inside : t < (List.range 16).length := by
    rwa [List.length_range]
  rw [SecureHash.schedule_of_lt block early, SecureHash.messageWord,
    blockWords, List.getD_eq_getElem?_getD, List.getElem?_map,
    List.getElem?_eq_getElem inside, List.getElem_range, Option.map_some,
    Option.getD_some, toBitVec_fromBeBytes, Nat.mul_comm t 4]

theorem scheduleWord_eq {block : List UInt8} {w : List UInt32} {t : Nat}
    (late : 16 ≤ t)
    (before : ∀ s, s < t →
      (w.getD s 0).toBitVec = SecureHash.schedule block s) :
    (scheduleWord w t).toBitVec = SecureHash.schedule block t := by
  have w15 := before (t - 15) (by omega)
  have w2 := before (t - 2) (by omega)
  have w16 := before (t - 16) (by omega)
  have w7 := before (t - 7) (by omega)
  rw [SecureHash.schedule_of_le block late, scheduleWord,
    UInt32.toBitVec_add, UInt32.toBitVec_add, UInt32.toBitVec_add,
    toBitVec_lowerSigma0, toBitVec_lowerSigma1, w15, w2, w16, w7]
  ac_rfl

theorem scheduleLoop_eq (block : List UInt8) (turns : Nat) :
    let w := (List.range' 16 turns).foldl
      (fun w i => w ++ [scheduleWord w i]) (blockWords block)
    w.length = 16 + turns ∧
      ∀ t, t < 16 + turns →
        (w.getD t 0).toBitVec = SecureHash.schedule block t := by
  induction turns with
  | zero =>
      constructor
      · exact blockWords_length block
      · intro t early
        exact blockWords_getD block early
  | succ turns induction =>
      rw [List.range'_1_concat, List.foldl_concat]
      generalize (List.range' 16 turns).foldl
        (fun w i => w ++ [scheduleWord w i]) (blockWords block) = w
        at induction ⊢
      obtain ⟨length, before⟩ := induction
      constructor
      · rw [List.length_append, length, List.length_singleton,
          Nat.add_assoc]
      · intro t inside
        by_cases last : t = 16 + turns
        · rw [last, ← length, List.getD_eq_getElem?_getD,
            List.getElem?_concat_length, Option.getD_some, length]
          apply scheduleWord_eq (Nat.le_add_right 16 turns)
          exact before
        · have earlier : t < w.length := by omega
          rw [List.getD_append _ _ _ _ earlier]
          apply before
          rwa [← length]

theorem schedule_length (block : List UInt8) :
    (schedule block).length = 64 :=
  (scheduleLoop_eq block 48).1

theorem schedule_getD (block : List UInt8) {t : Nat} (inside : t < 64) :
    ((schedule block).getD t 0).toBitVec = SecureHash.schedule block t :=
  (scheduleLoop_eq block 48).2 t inside

/-! ## The rounds -/

/-- The working variables as the standard has them. -/
def Working.values (v : Working) : Hash :=
  { a := v.a.toBitVec
    b := v.b.toBitVec
    c := v.c.toBitVec
    d := v.d.toBitVec
    e := v.e.toBitVec
    f := v.f.toBitVec
    g := v.g.toBitVec
    h := v.h.toBitVec }

theorem round_values (v : Working) (constant word : UInt32) :
    (round v constant word).values =
      SecureHash.round v.values constant.toBitVec word.toBitVec := by
  have sigma0 := toBitVec_upperSigma0 v.a
  have sigma1 := toBitVec_upperSigma1 v.e
  simp only [round, Working.values, SecureHash.round, SecureHash.ch,
    SecureHash.maj, UInt32.toBitVec_add, sigma0, sigma1]
  rfl

theorem roundInputs_eq (block : List UInt8) :
    ((roundConstants.zip (schedule block)).map fun pair =>
        (pair.1.toBitVec, pair.2.toBitVec)) =
      (List.range 64).map fun t =>
        (SecureHash.constants.getD t 0, SecureHash.schedule block t) := by
  have constants : roundConstants.length = 64 := rfl
  have words := schedule_length block
  apply List.ext_getElem
  · rw [List.length_map, List.length_zip, List.length_map,
      List.length_range, constants, words]
    rfl
  · intro t left right
    rw [List.length_map, List.length_range] at right
    have constant := roundConstants_getD t
    have word := schedule_getD block right
    rw [List.getD_eq_getElem _ _ (constants.symm ▸ right)] at constant
    rw [List.getD_eq_getElem _ _ (words.symm ▸ right)] at word
    rw [List.getElem_map, List.getElem_map, List.getElem_zip,
      List.getElem_range]
    simp only [constant, word]

theorem rounds_values (start : Working) (block : List UInt8) :
    ((roundConstants.zip (schedule block)).foldl
        (fun v (constant, word) => round v constant word) start).values =
      (List.range 64).foldl
        (fun v t => SecureHash.round v (SecureHash.constants.getD t 0)
          (SecureHash.schedule block t)) start.values := by
  have inputs := congrArg
    (List.foldl (fun v (pair : Word × Word) =>
      SecureHash.round v pair.1 pair.2) start.values)
    (roundInputs_eq block)
  rw [List.foldl_map, List.foldl_map] at inputs
  rw [← inputs]
  apply Eq.symm
  apply List.foldl_hom
  intro v pair
  exact (round_values v pair.1 pair.2).symm

/-! ## A block -/

/-- The hasher's state holds the words of a hash value. -/
def Represents (state : List UInt32) (hash : Hash) : Prop :=
  state = hash.words.map UInt32.ofBitVec

theorem represents_initial : Represents new.state Hash.initial := by
  have words : [2, 3, 5, 7, 11, 13, 17, 19].map
      (SecureHash.fractionBits 2) = new.state.map UInt32.toBitVec := by
    apply SecureHash.map_fractionBits (by decide)
    decide +kernel
  have back : (new.state.map UInt32.toBitVec).map UInt32.ofBitVec =
      new.state := by
    rw [List.map_map]
    exact List.map_id _
  rw [Represents, ← back, ← words]
  rfl

theorem zipWith_add (hash : Hash) (v : Working) :
    List.zipWith (· + ·) (hash.words.map UInt32.ofBitVec)
        [v.a, v.b, v.c, v.d, v.e, v.f, v.g, v.h] =
      (hash.add v.values).words.map UInt32.ofBitVec :=
  rfl

/-- Compressing a block computes the hash value the standard computes. -/
theorem represents_compress {hasher : Sha256} {hash : Hash}
    (represents : Represents hasher.state hash) (block : List UInt8) :
    Represents (hasher.compress block).state
      (SecureHash.compress hash block) := by
  unfold Represents at represents
  simp only [compress, represents]
  rw [zipWith_add, rounds_values]
  rfl

end Sha256

end Ughi.Integrity
