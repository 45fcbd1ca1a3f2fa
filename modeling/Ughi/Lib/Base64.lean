import Mathlib.Data.List.Basic
import Mathlib.Tactic.SplitIfs

/-!
# Unpadded base64 with the URL alphabet

Three bytes make four digits of six bits; a final group of two or one bytes
makes three or two.  Decoding skips line breaks, and it ignores the bits of a
last digit that no byte takes up, so it undoes encoding without being
injective.
-/

namespace Ughi.Lib.Base64

/-- The code of the character of a six-bit value: capital letters, small
letters, digits, a hyphen and an underscore. -/
def digitCode (value : Nat) : Nat :=
  if value < 26 then 65 + value
  else if value < 52 then 71 + value
  else if value < 62 then value - 4
  else if value = 62 then 45
  else 95

def digit (value : Nat) : UInt8 :=
  UInt8.ofNat (digitCode value)

/-- The six-bit value of a character of the alphabet. -/
def sextet (character : UInt8) : Option Nat :=
  let code := character.toNat
  if 65 ≤ code ∧ code ≤ 90 then some (code - 65)
  else if 97 ≤ code ∧ code ≤ 122 then some (code - 71)
  else if 48 ≤ code ∧ code ≤ 57 then some (code + 4)
  else if code = 45 then some 62
  else if code = 95 then some 63
  else none

/-- Line breaks, which decoding skips. -/
def isLineBreak (character : UInt8) : Bool :=
  character = 10 || character = 13

/-- The six-bit values of a text of bytes. -/
def sextetsOf : List UInt8 → List Nat
  | [] => []
  | [a] => [a.toNat / 4, a.toNat % 4 * 16]
  | [a, b] => [a.toNat / 4, a.toNat % 4 * 16 + b.toNat / 16, b.toNat % 16 * 4]
  | a :: b :: c :: rest =>
      a.toNat / 4 :: (a.toNat % 4 * 16 + b.toNat / 16) ::
        (b.toNat % 16 * 4 + c.toNat / 64) :: c.toNat % 64 :: sextetsOf rest

/-- The bytes of six-bit values; a single value left over is an error. -/
def bytesOf : List Nat → Option (List UInt8)
  | [] => some []
  | [_] => none
  | [w, x] => some [UInt8.ofNat (w * 4 + x / 16)]
  | [w, x, y] =>
      some [UInt8.ofNat (w * 4 + x / 16), UInt8.ofNat (x % 16 * 16 + y / 4)]
  | w :: x :: y :: z :: rest =>
      (bytesOf rest).map fun bytes =>
        UInt8.ofNat (w * 4 + x / 16) :: UInt8.ofNat (x % 16 * 16 + y / 4) ::
          UInt8.ofNat (y % 4 * 64 + z) :: bytes

def encode (bytes : List UInt8) : List UInt8 :=
  (sextetsOf bytes).map digit

def decode (text : List UInt8) : Option (List UInt8) :=
  ((text.filter fun character => !isLineBreak character).mapM sextet).bind
    bytesOf

theorem sextetsOf_lt (bytes : List UInt8) :
    ∀ value ∈ sextetsOf bytes, value < 64 := by
  induction bytes using sextetsOf.induct with
  | case1 => simp [sextetsOf]
  | case2 a =>
      have aByte := a.toNat_lt
      simp [sextetsOf]
      omega
  | case3 a b =>
      have aByte := a.toNat_lt
      have bByte := b.toNat_lt
      simp [sextetsOf]
      omega
  | case4 a b c rest induction =>
      have aByte := a.toNat_lt
      have bByte := b.toNat_lt
      have cByte := c.toNat_lt
      intro value member
      simp only [sextetsOf, List.mem_cons] at member
      rcases member with rfl | rfl | rfl | rfl | later
      · omega
      · omega
      · omega
      · omega
      · exact induction value later

theorem bytesOf_sextetsOf (bytes : List UInt8) :
    bytesOf (sextetsOf bytes) = some bytes := by
  induction bytes using sextetsOf.induct with
  | case1 => rfl
  | case2 a =>
      have first : a.toNat / 4 * 4 + a.toNat % 4 * 16 / 16 = a.toNat := by
        omega
      simp only [sextetsOf, bytesOf, first, UInt8.ofNat_toNat]
  | case3 a b =>
      have bByte := b.toNat_lt
      have first : a.toNat / 4 * 4 + (a.toNat % 4 * 16 + b.toNat / 16) / 16 =
          a.toNat := by omega
      have second : (a.toNat % 4 * 16 + b.toNat / 16) % 16 * 16 +
          b.toNat % 16 * 4 / 4 = b.toNat := by omega
      simp only [sextetsOf, bytesOf, first, second, UInt8.ofNat_toNat]
  | case4 a b c rest induction =>
      have bByte := b.toNat_lt
      have cByte := c.toNat_lt
      have first : a.toNat / 4 * 4 + (a.toNat % 4 * 16 + b.toNat / 16) / 16 =
          a.toNat := by omega
      have second : (a.toNat % 4 * 16 + b.toNat / 16) % 16 * 16 +
          (b.toNat % 16 * 4 + c.toNat / 64) / 4 = b.toNat := by omega
      have third : (b.toNat % 16 * 4 + c.toNat / 64) % 4 * 64 +
          c.toNat % 64 = c.toNat := by omega
      simp only [sextetsOf, bytesOf, induction, first, second, third,
        UInt8.ofNat_toNat, Option.map_some]

theorem digit_toNat (value : Nat) (below : value < 64) :
    (digit value).toNat = digitCode value := by
  rw [digit, UInt8.toNat_ofNat']
  apply Nat.mod_eq_of_lt
  unfold digitCode
  split_ifs <;> omega

theorem sextet_digit {value : Nat} (below : value < 64) :
    sextet (digit value) = some value := by
  simp only [sextet, digit_toNat value below, digitCode]
  split_ifs <;> first | omega | (congr 1; omega)

theorem digit_ne {value : Nat} (below : value < 64) {character : UInt8}
    (outside : sextet character = none) : digit value ≠ character := by
  intro same
  rw [← same, sextet_digit below] at outside
  cases outside

theorem notMem_encode (bytes : List UInt8) {character : UInt8}
    (outside : sextet character = none) : character ∉ encode bytes := by
  intro member
  obtain ⟨value, inSextets, same⟩ := List.mem_map.mp member
  exact digit_ne (sextetsOf_lt bytes value inSextets) outside same

theorem mapM_sextet_digit {values : List Nat}
    (below : ∀ value ∈ values, value < 64) :
    (values.map digit).mapM sextet = some values := by
  induction values with
  | nil => rfl
  | cons value values induction =>
      have first := sextet_digit (below value List.mem_cons_self)
      have rest := induction fun other member =>
        below other (List.mem_cons_of_mem _ member)
      rw [List.map_cons, List.mapM_cons, first, rest]
      rfl

theorem decode_encode (bytes : List UInt8) :
    decode (encode bytes) = some bytes := by
  have kept : (encode bytes).filter (fun character => !isLineBreak character) =
      encode bytes := by
    apply List.filter_eq_self.mpr
    intro character member
    have noLineFeed : character ≠ 10 := fun same =>
      notMem_encode bytes (by decide) (same ▸ member)
    have noReturn : character ≠ 13 := fun same =>
      notMem_encode bytes (by decide) (same ▸ member)
    simp [isLineBreak, noLineFeed, noReturn]
  rw [decode, kept, encode, mapM_sextet_digit (sextetsOf_lt bytes)]
  exact bytesOf_sextetsOf bytes

/-! ## The texts that decode to given bytes -/

/-- The six-bit values that a text spells, line breaks skipped. -/
def spelled (text : List UInt8) : Option (List Nat) :=
  (text.filter fun character => !isLineBreak character).mapM sextet

/-- Clear the bits of the last value that no byte takes up. -/
def clearSpare : List Nat → List Nat
  | [] => []
  | [w] => [w]
  | [w, x] => [w, x / 16 * 16]
  | [w, x, y] => [w, x, y / 4 * 4]
  | w :: x :: y :: z :: rest => w :: x :: y :: z :: clearSpare rest

/-- The texts spell the same values up to line breaks and to the bits that no
byte takes up. -/
def Respelled (left right : List UInt8) : Prop :=
  (spelled left).map clearSpare = (spelled right).map clearSpare

theorem spelled_append_lineFeeds (text : List UInt8) (count : Nat) :
    spelled (text ++ List.replicate count 10) = spelled text := by
  have dropped : (List.replicate count (10 : UInt8)).filter
      (fun character => !isLineBreak character) = [] := by
    apply List.filter_eq_nil_iff.mpr
    intro character member
    rw [List.eq_of_mem_replicate member]
    decide
  rw [spelled, List.filter_append, dropped, List.append_nil]
  rfl

theorem sextet_lt {character : UInt8} {value : Nat}
    (spells : sextet character = some value) : value < 64 := by
  simp only [sextet] at spells
  split_ifs at spells <;> cases spells <;> omega

theorem mapM_sextet_lt {text : List UInt8} {values : List Nat}
    (spells : text.mapM sextet = some values) :
    ∀ value ∈ values, value < 64 := by
  induction text generalizing values with
  | nil =>
      cases spells
      intro value member
      cases member
  | cons character text induction =>
      rw [List.mapM_cons] at spells
      obtain ⟨first, spellsFirst, rest⟩ := Option.bind_eq_some_iff.mp spells
      obtain ⟨later, spellsLater, joined⟩ := Option.bind_eq_some_iff.mp rest
      cases joined
      intro value member
      rcases List.mem_cons.mp member with rfl | inLater
      · exact sextet_lt spellsFirst
      · exact induction spellsLater value inLater

theorem bytesOf_clearSpare (values : List Nat) :
    bytesOf (clearSpare values) = bytesOf values := by
  induction values using clearSpare.induct with
  | case1 => rfl
  | case2 w => rfl
  | case3 w x =>
      have same : x / 16 * 16 / 16 = x / 16 := by omega
      simp only [clearSpare, bytesOf, same]
  | case4 w x y =>
      have same : y / 4 * 4 / 4 = y / 4 := by omega
      simp only [clearSpare, bytesOf, same]
  | case5 w x y z rest induction =>
      simp only [clearSpare, bytesOf, induction]

theorem toNat_packed {high low : Nat} (below : high + low < 256) :
    (UInt8.ofNat (high + low)).toNat = high + low := by
  rw [UInt8.toNat_ofNat']
  exact Nat.mod_eq_of_lt below

theorem clearSpare_of_bytesOf {values : List Nat} {bytes : List UInt8}
    (below : ∀ value ∈ values, value < 64)
    (packed : bytesOf values = some bytes) :
    clearSpare values = sextetsOf bytes := by
  induction values using clearSpare.induct generalizing bytes with
  | case1 =>
      cases packed
      rfl
  | case2 w => cases packed
  | case3 w x =>
      cases packed
      simp only [List.forall_mem_cons] at below
      obtain ⟨wBelow, xBelow, _⟩ := below
      simp only [clearSpare, sextetsOf]
      rw [toNat_packed (by omega)]
      congr 2 <;> omega
  | case4 w x y =>
      cases packed
      simp only [List.forall_mem_cons] at below
      obtain ⟨wBelow, xBelow, yBelow, _⟩ := below
      simp only [clearSpare, sextetsOf]
      rw [toNat_packed (by omega), toNat_packed (by omega)]
      congr 3 <;> omega
  | case5 w x y z rest induction =>
      simp only [List.forall_mem_cons] at below
      obtain ⟨wBelow, xBelow, yBelow, zBelow, restBelow⟩ := below
      obtain ⟨later, packedLater, joined⟩ := Option.map_eq_some_iff.mp packed
      cases joined
      simp only [clearSpare, sextetsOf]
      rw [induction restBelow packedLater, toNat_packed (by omega),
        toNat_packed (by omega), toNat_packed (by omega)]
      congr 4 <;> omega

/-- A text decodes to bytes exactly when it spells their values, up to line
breaks and the bits that no byte takes up. -/
theorem decode_eq_some_iff {text bytes : List UInt8} :
    decode text = some bytes ↔
      (spelled text).map clearSpare = some (sextetsOf bytes) := by
  have split : decode text = (spelled text).bind bytesOf := rfl
  rw [split]
  cases spells : spelled text with
  | none => simp
  | some values =>
      rw [Option.bind_some, Option.map_some, Option.some_inj]
      constructor
      · intro packed
        exact clearSpare_of_bytesOf (mapM_sextet_lt spells) packed
      · intro cleared
        rw [← bytesOf_clearSpare, cleared]
        exact bytesOf_sextetsOf bytes

/-- Two texts decode to the same bytes exactly when one respells the other. -/
theorem decode_iff_respelled {left right bytes : List UInt8}
    (decoded : decode left = some bytes) :
    decode right = some bytes ↔ Respelled left right := by
  rw [decode_eq_some_iff] at decoded ⊢
  rw [Respelled, decoded]
  exact eq_comm

end Ughi.Lib.Base64
