import Ughi.Integrity.Compression

/-!
# The digest of a message fed in chunks

Between calls the hasher has compressed the full blocks of what it was fed and
holds back the rest.  Padding goes on feeding it, so the digest is that of the
padded message, however the message was cut into chunks.
-/

namespace Ughi.Integrity

open Ughi.Lib
open Ughi.Lib.SecureHash (Hash Word)

namespace Sha256

/-! ## What the hasher holds -/

/-- The hasher has reached a hash value and holds back these bytes. -/
structure Holds (hasher : Sha256) (hash : Hash) (pending : List UInt8) :
    Prop where
  state : Represents hasher.state hash
  room : hasher.buffer.length = 64
  count : hasher.bufferLen = pending.length
  bytes : hasher.buffer.take pending.length = pending

/-- The hasher has absorbed a message from a hash value on. -/
def Absorbed (hasher : Sha256) (hash : Hash) (message : List UInt8) : Prop :=
  let absorbed := absorb 64 SecureHash.compress hash message
  Holds hasher absorbed.1 absorbed.2

theorem holds_new : Holds new Hash.initial [] where
  state := represents_initial
  room := rfl
  count := rfl
  bytes := rfl

namespace Holds

variable {hasher : Sha256} {hash : Hash} {pending : List UInt8}

theorem length_le (holds : Holds hasher hash pending) :
    pending.length ≤ 64 := by
  have taken := congrArg List.length holds.bytes
  rw [List.length_take, holds.room] at taken
  omega

theorem fill (holds : Holds hasher hash pending) {bytes : List UInt8}
    (fits : (pending ++ bytes).length ≤ 64) :
    Holds (hasher.fill bytes) hash (pending ++ bytes) := by
  have full := holds.room
  rw [List.length_append] at fits
  constructor
  · exact holds.state
  · simp only [Sha256.fill, List.length_append, List.length_take,
      List.length_drop, holds.count]
    omega
  · simp only [Sha256.fill, List.length_append, holds.count]
  · simp only [Sha256.fill, holds.count, holds.bytes]
    exact List.take_left

theorem flush (holds : Holds hasher hash pending) :
    Absorbed hasher.flush hash pending := by
  by_cases full : pending.length = 64
  · have count : hasher.bufferLen = 64 := by
      rw [holds.count, full]
    have block : hasher.buffer = pending := by
      have bytes := holds.bytes
      rw [full, ← holds.room, List.take_length] at bytes
      exact bytes
    rw [Absorbed, absorb_block (by decide) full, Sha256.flush,
      if_pos count, block]
    constructor
    · exact represents_compress holds.state pending
    · exact holds.room
    · rfl
    · rfl
  · have short : pending.length < 64 :=
      Nat.lt_of_le_of_ne holds.length_le full
    have unfilled : hasher.bufferLen ≠ 64 := by
      rw [holds.count]
      exact full
    rw [Absorbed, absorb_of_lt short, Sha256.flush, if_neg unfilled]
    exact holds

end Holds

theorem absorbed_append {hasher : Sha256} {hash : Hash}
    {first second : List UInt8}
    (absorbed : Absorbed hasher
      (absorb 64 SecureHash.compress hash first).1
      ((absorb 64 SecureHash.compress hash first).2 ++ second)) :
    Absorbed hasher hash (first ++ second) := by
  rw [Absorbed, absorb_absorb (by decide)]
  exact absorbed

/-! ## Feeding -/

theorem updateLoop_absorbed (hasher : Sha256) (data : List UInt8) :
    ∀ (hash : Hash) (pending : List UInt8), Holds hasher hash pending →
      pending.length < 64 →
      Absorbed (hasher.updateLoop data) hash (pending ++ data) := by
  induction hasher, data using updateLoop.induct with
  | case1 hasher data take none =>
      intro hash pending holds short
      have used : data = [] := by
        apply List.length_eq_zero_iff.mp
        have count := holds.count
        omega
      rw [updateLoop, if_pos none, used, List.append_nil, Absorbed,
        absorb_of_lt short]
      exact holds
  | case2 hasher data take some induction =>
      intro hash pending holds short
      have fits : (pending ++ data.take take).length ≤ 64 := by
        have count := holds.count
        rw [List.length_append, List.length_take]
        omega
      have stepped := (holds.fill fits).flush
      have fed := induction _ _ stepped (length_leftover_lt (by decide))
      have parts : pending ++ data =
          pending ++ data.take take ++ data.drop take := by
        rw [List.append_assoc, List.take_append_drop]
      rw [updateLoop, if_neg some, parts]
      exact absorbed_append fed

theorem updateLoop_totalLen (hasher : Sha256) (data : List UInt8) :
    (hasher.updateLoop data).totalLen = hasher.totalLen := by
  induction hasher, data using updateLoop.induct with
  | case1 hasher data take none => rw [updateLoop, if_pos none]
  | case2 hasher data take some induction =>
      rw [updateLoop, if_neg some, induction, flush]
      split
      · rfl
      · rfl

/-- The hasher has been fed a message, and nothing else. -/
structure Fed (hasher : Sha256) (message : List UInt8) : Prop where
  absorbed : Absorbed hasher Hash.initial message
  total : hasher.totalLen = UInt64.ofNat message.length

theorem fed_new : Fed new [] where
  absorbed := holds_new
  total := rfl

theorem Fed.update {hasher : Sha256} {message : List UInt8}
    (fed : Fed hasher message) (data : List UInt8) :
    Fed (hasher.update data) (message ++ data) := by
  constructor
  · apply absorbed_append
    apply updateLoop_absorbed
    · exact ⟨fed.absorbed.state, fed.absorbed.room, fed.absorbed.count,
        fed.absorbed.bytes⟩
    · exact length_leftover_lt (by decide)
  · rw [Sha256.update, updateLoop_totalLen, fed.total, List.length_append,
      UInt64.ofNat_add]

theorem Fed.updates {hasher : Sha256} {message : List UInt8}
    (fed : Fed hasher message) (chunks : List (List UInt8)) :
    Fed (chunks.foldl Sha256.update hasher) (message ++ chunks.flatten) := by
  induction chunks generalizing hasher message with
  | nil => rwa [List.flatten_nil, List.append_nil]
  | cons chunk chunks induction =>
      have further := induction (fed.update chunk)
      rwa [List.append_assoc, ← List.flatten_cons] at further

/-! ## Padding -/

/-- A turn of the padding loop feeds a zero, after a full buffer has been
compressed. -/
theorem padByte_eq {hasher : Sha256} (room : hasher.buffer.length = 64)
    (held : hasher.bufferLen ≤ 64) :
    hasher.padByte = hasher.flush.fill [0] := by
  have set : ∀ index, index < 64 → hasher.buffer.set index 0 =
      hasher.buffer.take index ++ [0] ++ hasher.buffer.drop (index + 1) := by
    intro index inside
    rw [List.set_eq_take_append_cons_drop, if_pos (room.symm ▸ inside),
      List.append_assoc, List.singleton_append]
  by_cases full : hasher.bufferLen = 64
  · have reached : hasher.bufferLen ≥ 64 := Nat.le_of_eq full.symm
    simp only [padByte, flush, fill, if_pos reached, if_pos full]
    simp only [compress, set 0 (by decide), List.length_singleton]
  · have short : ¬ hasher.bufferLen ≥ 64 := by omega
    simp only [padByte, flush, fill, if_neg short, if_neg full]
    rw [set _ (Nat.lt_of_not_le short), List.length_singleton]

/-- The zeros that the padding loop feeds, from the bytes held. -/
def zerosFrom (held : Nat) : Nat :=
  (120 - held) % 64

theorem zerosFrom_step {held : Nat} (bounded : held ≤ 64)
    (unfinished : held ≠ 56) :
    zerosFrom held = zerosFrom (held % 64 + 1) + 1 := by
  simp only [zerosFrom]
  omega

theorem padLoop_absorbed (hasher : Sha256) :
    ∀ (hash : Hash) (pending : List UInt8), Holds hasher hash pending →
      ∃ hash' pending', Holds hasher.padLoop hash' pending' ∧
        pending'.length = 56 ∧
        ∀ tail, absorb 64 SecureHash.compress hash
            (pending ++ List.replicate (zerosFrom pending.length) 0 ++
              tail) =
          absorb 64 SecureHash.compress hash' (pending' ++ tail) := by
  induction hasher using padLoop.induct with
  | case1 hasher done =>
      intro hash pending holds
      have length : pending.length = 56 := holds.count ▸ done
      rw [padLoop, if_pos done, length]
      refine ⟨hash, pending, holds, length, ?_⟩
      intro tail
      rw [zerosFrom, List.replicate_zero, List.append_nil]
  | case2 hasher unfinished induction =>
      intro hash pending holds
      have bounded := holds.length_le
      have held : hasher.bufferLen ≤ 64 := holds.count ▸ bounded
      have different : pending.length ≠ 56 := holds.count ▸ unfinished
      have flushed := holds.flush
      have rest : (absorb 64 SecureHash.compress hash pending).2.length =
          pending.length % 64 := length_leftover
      have fits : ((absorb 64 SecureHash.compress hash pending).2 ++
          [0]).length ≤ 64 := by
        rw [List.length_append, rest]
        exact Nat.mod_lt _ (by decide)
      have turn := flushed.fill fits
      rw [← padByte_eq holds.room held] at turn
      obtain ⟨hash', pending', final, length, same⟩ := induction _ _ turn
      rw [padLoop, if_neg unfinished]
      refine ⟨hash', pending', final, length, ?_⟩
      intro tail
      rw [List.length_append, rest, List.length_singleton] at same
      rw [← same, zerosFrom_step bounded different,
        List.replicate_succ, List.append_assoc, absorb_absorb (by decide)]
      simp only [List.append_assoc, List.cons_append, List.nil_append]

/-! ## The length -/

theorem toUInt8_shiftRight (word : UInt64) {index : Nat}
    (inside : index < 8) :
    (word >>> UInt64.ofNat (8 * index)).toUInt8 =
      UInt8.ofNat (word.toNat / 256 ^ index) := by
  have shift : (UInt64.ofNat (8 * index)).toNat % 64 = 8 * index := by
    rw [UInt64.toNat_ofNat']
    omega
  have base : 2 ^ (8 * index) = 256 ^ index := Nat.pow_mul 2 8 index
  apply UInt8.toNat_inj.mp
  rw [UInt64.toNat_toUInt8, UInt64.toNat_shiftRight, shift,
    Nat.shiftRight_eq_div_pow, base, UInt8.toNat_ofNat']

theorem toBeBytes_eq (word : UInt64) :
    toBeBytes word = SecureHash.lengthBytes word.toNat := by
  have last : word.toUInt8 = (word >>> 0).toUInt8 := by
    rw [UInt64.shiftRight_zero]
  have shifted : toBeBytes word =
      (List.range 8).map fun i =>
        (word >>> UInt64.ofNat (8 * (7 - i))).toUInt8 := by
    rw [toBeBytes, last]
    rfl
  rw [shifted, SecureHash.lengthBytes]
  apply List.map_congr_left
  intro index _
  apply toUInt8_shiftRight word
  omega

theorem bitLength_toNat {length : Nat} (bounded : length < 2 ^ 61) :
    (UInt64.ofNat length * 8).toNat = 8 * length := by
  have eight : (8 : UInt64).toNat = 8 := rfl
  rw [UInt64.toNat_mul, UInt64.toNat_ofNat', eight]
  omega

/-! ## The digest -/

theorem hex_eq {state : List UInt32} {hash : Hash}
    (represents : Represents state hash) :
    String.ofList (state.flatMap fun word => hexPadded 8 word.toNat) =
      hash.hex := by
  rw [represents, List.flatMap_map]
  rfl

/-- The message that the standard hashes, with the length bytes apart. -/
def closing (message lengthBytes : List UInt8) : List UInt8 :=
  message ++ [0x80] ++
    List.replicate (SecureHash.zeros message.length) 0 ++ lengthBytes

theorem sha256_eq (message : List UInt8) :
    SecureHash.sha256 message =
      (absorb 64 SecureHash.compress Hash.initial
        (closing message
          (SecureHash.lengthBytes (8 * message.length)))).1 := by
  rw [closing, List.append_assoc message, List.singleton_append]
  rfl

/-- After the closing byte, the loop feeds as many zeros as the standard asks
for. -/
theorem zerosFrom_leftover (message : List UInt8) :
    zerosFrom (absorb 64 SecureHash.compress Hash.initial
        (message ++ [0x80])).2.length =
      SecureHash.zeros message.length := by
  rw [absorb, length_leftover, List.length_append, List.length_singleton,
    zerosFrom, SecureHash.zeros]
  omega

/-- The padding loop and the last block absorb what closes the message. -/
theorem Fed.finalize_eq {hasher : Sha256} {message : List UInt8}
    (fed : Fed hasher message) :
    hasher.finalize =
      (absorb 64 SecureHash.compress Hash.initial
        (closing message (toBeBytes (hasher.totalLen * 8)))).1.hex := by
  have closed := (fed.update [0x80]).absorbed
  obtain ⟨hash, pending, holds, length, same⟩ :=
    padLoop_absorbed _ _ _ closed
  have full : (pending ++ toBeBytes (hasher.totalLen * 8)).length = 64 := by
    rw [List.length_append, length]
    rfl
  have bytes := holds.bytes
  rw [length] at bytes
  rw [zerosFrom_leftover] at same
  rw [closing, List.append_assoc (message ++ [0x80]),
    absorb_absorb (by decide), ← List.append_assoc, same,
    absorb_block (by decide) full]
  apply hex_eq
  simp only [bytes]
  exact represents_compress holds.state _

theorem Fed.finalize {hasher : Sha256} {message : List UInt8}
    (fed : Fed hasher message) (bounded : message.length < 2 ^ 61) :
    hasher.finalize = (SecureHash.sha256 message).hex := by
  rw [fed.finalize_eq, sha256_eq, toBeBytes_eq, fed.total,
    bitLength_toNat bounded]

theorem finalize_chunks (chunks : List (List UInt8))
    (bounded : chunks.flatten.length < 2 ^ 61) :
    (chunks.foldl update new).finalize =
      (SecureHash.sha256 chunks.flatten).hex := by
  have fed := fed_new.updates chunks
  rw [List.nil_append] at fed
  exact fed.finalize bounded

/-- Two chunks that together spell "abc". -/
theorem finalize_chunks_abc :
    ([[0x61], [0x62, 0x63]].foldl update new).finalize =
      (SecureHash.sha256 [0x61, 0x62, 0x63]).hex :=
  finalize_chunks [[0x61], [0x62, 0x63]] (by decide)

end Sha256

/-! ## One call -/

theorem sha256Hex_hex (data : List UInt8) :
    ∃ hash : Hash, sha256Hex data = hash.hex := by
  have fed := Sha256.fed_new.update data
  exact ⟨_, fed.finalize_eq⟩

theorem sha256Hex_digits (data : List UInt8) :
    (sha256Hex data).toList.length = 64 ∧
      ∀ c ∈ (sha256Hex data).toList, isAsciiHexDigit c = true := by
  obtain ⟨hash, printed⟩ := sha256Hex_hex data
  rw [printed, Hash.hex, String.toList_ofList]
  constructor
  · simp only [Hash.words, List.flatMap_cons, List.flatMap_nil,
      List.length_append, hexPadded_length, List.length_nil]
  · intro c member
    obtain ⟨word, _, digit⟩ := List.mem_flatMap.mp member
    exact isAsciiHexDigit_of_mem_hexPadded digit

theorem sha256Hex_of_short {data : List UInt8} (short : data.length < 56) :
    sha256Hex data =
      String.ofList ((Sha256.new.compress (SecureHash.pad data)).state.flatMap
        fun word => hexPadded 8 word.toNat) := by
  have fed := Sha256.fed_new.update data
  have bounded : data.length < 2 ^ 61 := by omega
  have block : (SecureHash.pad data).length = 64 := by
    have length : (SecureHash.lengthBytes (8 * data.length)).length = 8 := by
      rw [SecureHash.lengthBytes, List.length_map, List.length_range]
    obtain ⟨fits, least⟩ := SecureHash.zeros_least data.length
    have room := least (55 - data.length) (by omega)
    simp only [SecureHash.pad, List.length_append, List.length_cons,
      List.length_replicate, length]
    omega
  have digest : SecureHash.sha256 data =
      SecureHash.compress Hash.initial (SecureHash.pad data) := by
    have absorbed := @absorb_block _ _ 64 SecureHash.compress Hash.initial
      _ (by decide) block
    exact congrArg Prod.fst absorbed
  rw [Sha256.hex_eq
      (Sha256.represents_compress Sha256.represents_initial _), ← digest]
  exact fed.finalize bounded

example :
    sha256Hex [0x61, 0x62, 0x63] =
      "ba7816bf8f01cfea414140de5dae2223b00361a396177a9cb410ff61f20015ad" := by
  rw [sha256Hex_of_short (by decide)]
  decide +kernel

end Ughi.Integrity
