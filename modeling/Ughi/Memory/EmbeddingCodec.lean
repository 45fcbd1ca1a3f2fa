import Ughi.Memory.LongTerm

/-!
# Embeddings as bytes

A word is written as its four bytes, the least significant first, and the
words of an embedding one after the other.  Reading takes whole chunks of four
bytes, so what is left over at the end of a blob is dropped, and nothing is
left over after a write.
-/

namespace Ughi.Memory

open Ughi.Lib

/-! ## One word -/

def wordOf (b0 b1 b2 b3 : UInt8) : UInt32 :=
  b0.toUInt32 ||| b1.toUInt32 <<< 8 ||| b2.toUInt32 <<< 16 |||
    b3.toUInt32 <<< 24

theorem or_shiftLeft_eq_add {low : Nat} (byte : Nat) {width : Nat}
    (below : low < 2 ^ width) :
    low ||| byte <<< width = low + byte * 2 ^ width := by
  have disjoint := Nat.shiftLeft_add_eq_or_of_lt below byte
  rw [Nat.or_comm, ← disjoint, Nat.shiftLeft_eq, Nat.add_comm]

theorem toNat_wordOf (b0 b1 b2 b3 : UInt8) :
    (wordOf b0 b1 b2 b3).toNat =
      b0.toNat + b1.toNat * 2 ^ 8 + b2.toNat * 2 ^ 16 +
        b3.toNat * 2 ^ 24 := by
  have bound0 := b0.toNat_lt
  have bound1 := b1.toNat_lt
  have bound2 := b2.toNat_lt
  have bound3 := b3.toNat_lt
  have shifted : ∀ (byte : UInt8) (width : Nat), width ≤ 24 →
      byte.toNat <<< width % 2 ^ 32 = byte.toNat <<< width := by
    intro byte width small
    apply Nat.mod_eq_of_lt
    rw [Nat.shiftLeft_eq]
    calc byte.toNat * 2 ^ width
        ≤ byte.toNat * 2 ^ 24 :=
          Nat.mul_le_mul_left _ (Nat.pow_le_pow_right (by decide) small)
      _ < 2 ^ 8 * 2 ^ 24 :=
          Nat.mul_lt_mul_of_pos_right byte.toNat_lt (by decide)
      _ = 2 ^ 32 := by decide
  have word : (wordOf b0 b1 b2 b3).toNat =
      b0.toNat ||| b1.toNat <<< 8 ||| b2.toNat <<< 16 |||
        b3.toNat <<< 24 := by
    simp only [wordOf, UInt32.toNat_or, UInt32.toNat_shiftLeft,
      UInt8.toNat_toUInt32, UInt32.reduceToNat, Nat.reduceMod,
      shifted _ 8 (by decide), shifted _ 16 (by decide),
      shifted _ 24 (by decide)]
  rw [word, or_shiftLeft_eq_add b1.toNat (by omega),
    or_shiftLeft_eq_add b2.toNat (by omega),
    or_shiftLeft_eq_add b3.toNat (by omega)]

theorem toNat_toUInt8_shiftRight (bits : UInt32) {width : UInt32}
    (small : width.toNat < 32) :
    (bits >>> width).toUInt8.toNat =
      bits.toNat / 2 ^ width.toNat % 2 ^ 8 := by
  rw [UInt32.toNat_toUInt8, UInt32.toNat_shiftRight,
    Nat.mod_eq_of_lt small, Nat.shiftRight_eq_div_pow]

theorem wordOf_bytes (bits : UInt32) :
    wordOf bits.toUInt8 (bits >>> 8).toUInt8 (bits >>> 16).toUInt8
      (bits >>> 24).toUInt8 = bits := by
  have bounded := bits.toNat_lt
  have second := @toNat_toUInt8_shiftRight bits 8 (by decide)
  have third := @toNat_toUInt8_shiftRight bits 16 (by decide)
  have fourth := @toNat_toUInt8_shiftRight bits 24 (by decide)
  apply UInt32.toNat_inj.mp
  rw [toNat_wordOf, UInt32.toNat_toUInt8, second, third, fourth]
  simp only [UInt32.reduceToNat]
  omega

theorem toLeBytes_wordOf (b0 b1 b2 b3 : UInt8) :
    toLeBytes (wordOf b0 b1 b2 b3) = [b0, b1, b2, b3] := by
  have bound0 := b0.toNat_lt
  have bound1 := b1.toNat_lt
  have bound2 := b2.toNat_lt
  have bound3 := b3.toNat_lt
  have value := toNat_wordOf b0 b1 b2 b3
  have second := @toNat_toUInt8_shiftRight (wordOf b0 b1 b2 b3) 8 (by decide)
  have third := @toNat_toUInt8_shiftRight (wordOf b0 b1 b2 b3) 16 (by decide)
  have fourth :=
    @toNat_toUInt8_shiftRight (wordOf b0 b1 b2 b3) 24 (by decide)
  simp only [UInt32.reduceToNat] at second third fourth
  rw [toLeBytes]
  congr
  · apply UInt8.toNat_inj.mp
    rw [UInt32.toNat_toUInt8]
    omega
  · apply UInt8.toNat_inj.mp
    omega
  · apply UInt8.toNat_inj.mp
    omega
  · apply UInt8.toNat_inj.mp
    omega

/-! ## Lists of words -/

theorem fromLeBytes_chunk (b0 b1 b2 b3 : UInt8) (rest : List UInt8) :
    fromLeBytes (b0 :: b1 :: b2 :: b3 :: rest) =
      wordOf b0 b1 b2 b3 :: fromLeBytes rest :=
  rfl

theorem fromLeBytes_flatMap_toLeBytes (bits : List UInt32) :
    fromLeBytes (bits.flatMap toLeBytes) = bits := by
  induction bits with
  | nil => rfl
  | cons word rest induction =>
      have chunk : (word :: rest).flatMap toLeBytes =
          word.toUInt8 :: (word >>> 8).toUInt8 :: (word >>> 16).toUInt8 ::
            (word >>> 24).toUInt8 :: rest.flatMap toLeBytes :=
        rfl
      rw [chunk, fromLeBytes_chunk, wordOf_bytes, induction]

/-- Reading takes the whole chunks of any bytes. -/
theorem flatMap_toLeBytes_fromLeBytes (bytes : List UInt8) :
    (fromLeBytes bytes).flatMap toLeBytes =
      bytes.take (bytes.length / 4 * 4) := by
  induction bytes using fromLeBytes.induct with
  | case1 b0 b1 b2 b3 rest induction =>
      have longer : (b0 :: b1 :: b2 :: b3 :: rest).length / 4 * 4 =
          rest.length / 4 * 4 + 4 := by
        simp only [List.length_cons]
        omega
      rw [fromLeBytes_chunk, List.flatMap_cons, toLeBytes_wordOf, induction,
        longer]
      rfl
  | case2 bytes short =>
      have few : bytes.length < 4 := by
        rcases bytes with _ | ⟨b0, _ | ⟨b1, _ | ⟨b2, _ | ⟨b3, rest⟩⟩⟩⟩
        · simp
        · simp
        · simp
        · simp
        · exact absurd rfl (short b0 b1 b2 b3 rest)
      have none : bytes.length / 4 * 4 = 0 := by omega
      rw [fromLeBytes, none]
      · rfl
      · exact short

namespace LongTermStore

variable {Value : Type}

/-- Decoding a row undoes encoding an entry, and every blob of whole words is
what its decoding is written as. -/
theorem embeddings_roundTrip (json : SerdeJson Value) :
    (∀ bits : List UInt32, fromLeBytes (bits.flatMap toLeBytes) = bits) ∧
      (∀ bytes : List UInt8, 4 ∣ bytes.length →
        (fromLeBytes bytes).flatMap toLeBytes = bytes) ∧
      ∀ (store : LongTermStore) (entry : MemoryEntry Value),
        (store.put json entry).1 = .ok () →
        ∃ row, (store.put json entry).2.memoryEntries.select
            (entry.agentId, entry.key) = some row ∧
          row.embedding = entry.embedding.map (·.flatMap toLeBytes) ∧
          row.embedding.map fromLeBytes = entry.embedding := by
  refine ⟨fromLeBytes_flatMap_toLeBytes, ?_, ?_⟩
  · intro bytes whole
    rw [flatMap_toLeBytes_fromLeBytes, Nat.div_mul_cancel whole,
      List.take_length]
  · intro store entry accepted
    cases written : json.toString entry.value with
    | error message =>
        rw [put_error json store entry written] at accepted
        cases accepted
    | ok text =>
        refine ⟨rowOf entry text, ?_, rfl, ?_⟩
        · rw [put, written, Table.select_insertOrReplace,
            if_pos (rowOf_address entry text).symm]
        · cases read : entry.embedding with
          | none => simp [rowOf, read]
          | some bits =>
              simp [rowOf, read, fromLeBytes_flatMap_toLeBytes]

end LongTermStore

end Ughi.Memory
