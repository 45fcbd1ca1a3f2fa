import Mathlib.Data.Nat.Find
import Mathlib.Data.Nat.Prime.Basic
import Ughi.Lib.Blocks
import Ughi.Lib.Text

/-!
# The secure hash standard: SHA-256

The functions, constants, padding and computation of SHA-256 as FIPS 180-4
states them, for messages of whole bytes.  The constants are not tabulated:
they are the first bits of the fractional parts of roots of primes, and
`map_fractionBits` compares a table with them.
-/

namespace Ughi.Lib.SecureHash

abbrev Word : Type := BitVec 32

/-! ## Functions -/

def ch (x y z : Word) : Word :=
  (x &&& y) ^^^ (~~~x &&& z)

def maj (x y z : Word) : Word :=
  (x &&& y) ^^^ (x &&& z) ^^^ (y &&& z)

def upperSigma0 (x : Word) : Word :=
  x.rotateRight 2 ^^^ x.rotateRight 13 ^^^ x.rotateRight 22

def upperSigma1 (x : Word) : Word :=
  x.rotateRight 6 ^^^ x.rotateRight 11 ^^^ x.rotateRight 25

def lowerSigma0 (x : Word) : Word :=
  x.rotateRight 7 ^^^ x.rotateRight 18 ^^^ (x >>> 3)

def lowerSigma1 (x : Word) : Word :=
  x.rotateRight 17 ^^^ x.rotateRight 19 ^^^ (x >>> 10)

/-! ## Constants -/

/-- The greatest number whose power is within a bound. -/
@[irreducible] def root (degree bound : Nat) : Nat :=
  Nat.findGreatest (fun r => r ^ degree ≤ bound) bound

/-- The first 32 bits of the fractional part of a root of a number. -/
def fractionBits (degree number : Nat) : Word :=
  BitVec.ofNat 32 (root degree (number * 2 ^ (32 * degree)))

def primesBelow (bound : Nat) : List Nat :=
  (List.range bound).filter fun number => number.Prime

/-- Cube roots of the first sixty-four primes, which are those below 312. -/
def constants : List Word :=
  (primesBelow 312).map (fractionBits 3)

/-! ## Hash values and the compression of a block -/

/-- A hash value, and the working variables of its computation. -/
structure Hash where
  a : Word
  b : Word
  c : Word
  d : Word
  e : Word
  f : Word
  g : Word
  h : Word
deriving DecidableEq

namespace Hash

def words (hash : Hash) : List Word :=
  [hash.a, hash.b, hash.c, hash.d, hash.e, hash.f, hash.g, hash.h]

def add (left right : Hash) : Hash :=
  { a := left.a + right.a
    b := left.b + right.b
    c := left.c + right.c
    d := left.d + right.d
    e := left.e + right.e
    f := left.f + right.f
    g := left.g + right.g
    h := left.h + right.h }

/-- Square roots of the first eight primes. -/
def initial : Hash :=
  { a := fractionBits 2 2
    b := fractionBits 2 3
    c := fractionBits 2 5
    d := fractionBits 2 7
    e := fractionBits 2 11
    f := fractionBits 2 13
    g := fractionBits 2 17
    h := fractionBits 2 19 }

/-- The eight words in lowercase hexadecimal. -/
def hex (hash : Hash) : String :=
  String.ofList (hash.words.flatMap fun word => hexPadded 8 word.toNat)

end Hash

/-- The word of four bytes of a block, most significant byte first. -/
def messageWord (block : List UInt8) (t : Nat) : Word :=
  let byte (i : Nat) : BitVec 8 := (block.getD i 0).toBitVec
  byte (4 * t) ++ byte (4 * t + 1) ++ byte (4 * t + 2) ++ byte (4 * t + 3)

/-- The message schedule. -/
def schedule (block : List UInt8) (t : Nat) : Word :=
  if t < 16 then messageWord block t
  else
    lowerSigma1 (schedule block (t - 2)) + schedule block (t - 7) +
      lowerSigma0 (schedule block (t - 15)) + schedule block (t - 16)

def round (v : Hash) (constant word : Word) : Hash :=
  let t1 := v.h + upperSigma1 v.e + ch v.e v.f v.g + constant + word
  let t2 := upperSigma0 v.a + maj v.a v.b v.c
  { a := t1 + t2
    b := v.a
    c := v.b
    d := v.c
    e := v.d + t1
    f := v.e
    g := v.f
    h := v.g }

def compress (hash : Hash) (block : List UInt8) : Hash :=
  hash.add
    ((List.range 64).foldl
      (fun v t => round v (constants.getD t 0) (schedule block t)) hash)

/-! ## Padding and the hash of a message -/

/-- Zero bytes after the byte that carries the closing one bit. -/
def zeros (length : Nat) : Nat :=
  (119 - length % 64) % 64

/-- A length in bits, as 64 bits, most significant byte first. -/
def lengthBytes (bits : Nat) : List UInt8 :=
  (List.range 8).map fun i => UInt8.ofNat (bits / 256 ^ (7 - i))

def pad (message : List UInt8) : List UInt8 :=
  message ++ 0x80 :: List.replicate (zeros message.length) 0 ++
    lengthBytes (8 * message.length)

/-- The SHA-256 digest of a message. -/
def sha256 (message : List UInt8) : Hash :=
  (blocks 64 (pad message)).foldl compress .initial

/-! ## What the definitions amount to -/

/-- The zeros leave room for exactly the eight bytes of the length, and no
fewer zeros do. -/
theorem zeros_least (length : Nat) :
    (length + 1 + zeros length) % 64 = 56 ∧
      ∀ fewer, (length + 1 + fewer) % 64 = 56 → zeros length ≤ fewer := by
  rw [zeros]
  constructor
  · omega
  · intro fewer fits
    omega

theorem root_eq {degree bound r : Nat} (positive : 0 < degree)
    (lower : r ^ degree ≤ bound) (upper : bound < (r + 1) ^ degree) :
    root degree bound = r := by
  unfold root
  apply Nat.findGreatest_eq_iff.mpr
  refine ⟨?_, fun _ => lower, ?_⟩
  · exact Nat.le_trans (Nat.le_self_pow positive.ne' r) lower
  · intro other above _ within
    have grown := Nat.pow_le_pow_left above degree
    exact absurd (Nat.lt_of_lt_of_le upper (Nat.le_trans grown within))
      (Nat.lt_irrefl bound)

/-- A word holds the first bits of the fractional part of a root, which starts
with some whole part. -/
def IsFraction (degree number : Nat) (word : Word) : Prop :=
  ∃ whole ∈ List.range number,
    (whole * 2 ^ 32 + word.toNat) ^ degree ≤ number * 2 ^ (32 * degree) ∧
      number * 2 ^ (32 * degree) <
        (whole * 2 ^ 32 + word.toNat + 1) ^ degree

instance (degree number : Nat) (word : Word) :
    Decidable (IsFraction degree number word) :=
  inferInstanceAs (Decidable (∃ _ ∈ _, _))

theorem fractionBits_eq {degree number : Nat} {word : Word}
    (positive : 0 < degree) (fraction : IsFraction degree number word) :
    fractionBits degree number = word := by
  obtain ⟨whole, _, lower, upper⟩ := fraction
  rw [fractionBits, root_eq positive lower upper]
  apply BitVec.eq_of_toNat_eq
  rw [BitVec.toNat_ofNat, Nat.mul_add_mod_self_right,
    Nat.mod_eq_of_lt word.isLt]

theorem map_fractionBits {degree : Nat} (positive : 0 < degree)
    {numbers : List Nat} {table : List Word}
    (fractions : List.Forall₂ (IsFraction degree) numbers table) :
    numbers.map (fractionBits degree) = table := by
  induction fractions with
  | nil => rfl
  | cons first _ induction =>
      rw [List.map_cons, fractionBits_eq positive first, induction]

theorem prime_iff_of_lt {number bound : Nat}
    (small : number < bound * bound) :
    number.Prime ↔
      2 ≤ number ∧ ∀ divisor ∈ List.range bound,
        2 ≤ divisor → divisor < number → ¬ divisor ∣ number := by
  constructor
  · intro prime
    obtain ⟨atLeast, undivided⟩ := Nat.prime_def_lt'.mp prime
    exact ⟨atLeast, fun divisor _ => undivided divisor⟩
  · rintro ⟨atLeast, undivided⟩
    apply Nat.prime_def_le_sqrt.mpr
    refine ⟨atLeast, ?_⟩
    intro divisor two low
    have square : divisor * divisor ≤ number := Nat.le_sqrt.mp low
    have inRange : divisor < bound :=
      Nat.mul_self_lt_mul_self_iff.mp (Nat.lt_of_le_of_lt square small)
    have double : 2 * divisor ≤ divisor * divisor :=
      Nat.mul_le_mul_right divisor two
    exact undivided divisor (List.mem_range.mpr inRange) two (by omega)

/-- The primes by trial division, with as many divisors as are needed. -/
theorem primesBelow_eq {bound divisors : Nat}
    (enough : bound ≤ divisors * divisors) :
    primesBelow bound =
      (List.range bound).filter fun number =>
        decide (2 ≤ number ∧ ∀ divisor ∈ List.range divisors,
          2 ≤ divisor → divisor < number → ¬ divisor ∣ number) := by
  apply List.filter_congr
  intro number member
  have small := Nat.lt_of_lt_of_le (List.mem_range.mp member) enough
  exact decide_eq_decide.mpr (prime_iff_of_lt small)

theorem schedule_of_lt (block : List UInt8) {t : Nat} (early : t < 16) :
    schedule block t = messageWord block t := by
  rw [schedule, if_pos early]

theorem schedule_of_le (block : List UInt8) {t : Nat} (late : 16 ≤ t) :
    schedule block t =
      lowerSigma1 (schedule block (t - 2)) + schedule block (t - 7) +
        lowerSigma0 (schedule block (t - 15)) + schedule block (t - 16) := by
  rw [schedule, if_neg (Nat.not_lt.mpr late)]

end Ughi.Lib.SecureHash
