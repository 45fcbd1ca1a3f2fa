import Mathlib.Data.List.Infix
import Mathlib.Data.String.Basic

/-!
# Texts

Lengths of texts count UTF-8 bytes, and a slice by bytes exists only between
character boundaries.  A pair of texts joined by a separator can be read back
when the separator does not occur in the second.
-/

namespace Ughi.Lib

/-- The characters of the first `bytes` bytes; `none` when the text is shorter
or a character straddles the bound. -/
def takeBytes : List Char → Nat → Option (List Char)
  | _, 0 => some []
  | [], _ + 1 => none
  | c :: text, bytes =>
      if c.utf8Size ≤ bytes then
        (takeBytes text (bytes - c.utf8Size)).map (c :: ·)
      else none

/-- The slice up to a byte index; `none` stands for the panic. -/
def sliceTo (text : String) (bytes : Nat) : Option String :=
  (takeBytes text.toList bytes).map String.ofList

theorem utf8ByteSize_takeBytes {text start : List Char} {bytes : Nat}
    (taken : takeBytes text bytes = some start) :
    (String.ofList start).utf8ByteSize = bytes := by
  induction text, bytes using takeBytes.induct generalizing start with
  | case1 text =>
      rw [takeBytes] at taken
      cases taken
      rfl
  | case2 bytes =>
      cases taken
  | case3 c text bytes positive fits induction =>
      rw [takeBytes, if_pos fits] at taken
      · obtain ⟨rest, takenRest, rfl⟩ := Option.map_eq_some_iff.mp taken
        rw [String.ofList_cons, String.utf8ByteSize_append,
          String.utf8ByteSize_singleton, induction takenRest]
        omega
      · exact positive
  | case4 c text bytes positive tooLong =>
      rw [takeBytes, if_neg tooLong] at taken
      · cases taken
      · exact positive

theorem utf8ByteSize_sliceTo {text start : String} {bytes : Nat}
    (taken : sliceTo text bytes = some start) :
    start.utf8ByteSize = bytes := by
  obtain ⟨characters, takenBytes, rfl⟩ := Option.map_eq_some_iff.mp taken
  exact utf8ByteSize_takeBytes takenBytes

/-- A byte index between two characters of a text. -/
def IsCharBoundary (text : String) (bytes : Nat) : Prop :=
  ∃ start rest, text = start ++ rest ∧ start.utf8ByteSize = bytes

theorem prefix_of_takeBytes {text start : List Char} {bytes : Nat}
    (taken : takeBytes text bytes = some start) : start <+: text := by
  induction text, bytes using takeBytes.induct generalizing start with
  | case1 text =>
      rw [takeBytes] at taken
      cases taken
      exact List.nil_prefix
  | case2 bytes =>
      cases taken
  | case3 c text bytes positive fits induction =>
      rw [takeBytes, if_pos fits] at taken
      · obtain ⟨rest, takenRest, rfl⟩ := Option.map_eq_some_iff.mp taken
        exact List.cons_prefix_cons.mpr ⟨rfl, induction takenRest⟩
      · exact positive
  | case4 c text bytes positive tooLong =>
      rw [takeBytes, if_neg tooLong] at taken
      · cases taken
      · exact positive

theorem takeBytes_append (start rest : List Char) :
    takeBytes (start ++ rest) (String.ofList start).utf8ByteSize =
      some start := by
  induction start with
  | nil => rw [String.ofList_nil, String.utf8ByteSize_empty, takeBytes]
  | cons c start induction =>
      have size : (String.ofList (c :: start)).utf8ByteSize =
          c.utf8Size + (String.ofList start).utf8ByteSize := by
        rw [String.ofList_cons, String.utf8ByteSize_append,
          String.utf8ByteSize_singleton]
      have positive := c.utf8Size_pos
      rw [List.cons_append, size, takeBytes, if_pos (Nat.le_add_right _ _),
        Nat.add_sub_cancel_left, induction]
      · rfl
      · omega

theorem sliceTo_isSome_iff {text : String} {bytes : Nat} :
    (sliceTo text bytes).isSome = true ↔ IsCharBoundary text bytes := by
  rw [sliceTo, Option.isSome_map, Option.isSome_iff_exists]
  constructor
  · rintro ⟨start, taken⟩
    obtain ⟨rest, split⟩ := prefix_of_takeBytes taken
    refine ⟨String.ofList start, String.ofList rest, ?_,
      utf8ByteSize_takeBytes taken⟩
    rw [← String.ofList_append, split, String.ofList_toList]
  · rintro ⟨start, rest, rfl, rfl⟩
    refine ⟨start.toList, ?_⟩
    have taken := takeBytes_append start.toList rest.toList
    rw [String.ofList_toList] at taken
    rw [String.toList_append]
    exact taken

theorem isSome_guarded_iff {α : Type} {guard : Prop} [Decidable guard]
    {attempt : Option α} {otherwise : α} :
    (if guard then attempt else some otherwise).isSome = true ↔
      (guard → attempt.isSome = true) := by
  by_cases holds : guard
  · simp [holds]
  · simp [holds]

/-- The shorter of two beginnings of a text begins the longer one. -/
theorem exists_gap_of_append_eq {left right left' right' : String}
    (same : left ++ right = left' ++ right')
    (shorter : left.utf8ByteSize ≤ left'.utf8ByteSize) :
    ∃ gap, left' = left ++ gap ∧ right = gap ++ right' := by
  have lists := congrArg String.toList same
  rw [String.toList_append, String.toList_append] at lists
  rcases List.append_eq_append_iff.mp lists with
    ⟨gap, longEq, rightEq⟩ | ⟨gap, shortEq, rightEq⟩
  · refine ⟨String.ofList gap, ?_, ?_⟩
    · apply String.toList_inj.mp
      rw [longEq, String.toList_append, String.toList_ofList]
    · apply String.toList_inj.mp
      rw [rightEq, String.toList_append, String.toList_ofList]
  · have leftEq : left = left' ++ String.ofList gap := by
      apply String.toList_inj.mp
      rw [shortEq, String.toList_append, String.toList_ofList]
    have sizes := congrArg String.utf8ByteSize leftEq
    rw [String.utf8ByteSize_append] at sizes
    have noGap : String.ofList gap = "" :=
      String.utf8ByteSize_eq_zero_iff.mp (by omega)
    refine ⟨"", ?_, ?_⟩
    · rw [leftEq, noGap]
      simp
    · apply String.toList_inj.mp
      rw [String.ofList_eq_empty_iff] at noGap
      rw [noGap] at rightEq
      simp [rightEq]

/-- A character of the text begins before the byte index and ends behind
it. -/
def Straddled (text : String) (bytes : Nat) : Prop :=
  ∃ start c rest, text = start ++ String.singleton c ++ rest ∧
    start.utf8ByteSize < bytes ∧ bytes < start.utf8ByteSize + c.utf8Size

theorem isCharBoundary_or_straddled (text : List Char) {bytes : Nat}
    (inside : bytes ≤ (String.ofList text).utf8ByteSize) :
    IsCharBoundary (String.ofList text) bytes ∨
      Straddled (String.ofList text) bytes := by
  induction text generalizing bytes with
  | nil =>
      left
      refine ⟨"", "", by simp, ?_⟩
      exact (Nat.le_zero.mp inside).symm
  | cons c text induction =>
      rw [String.ofList_cons, String.utf8ByteSize_append,
        String.utf8ByteSize_singleton] at inside
      rw [String.ofList_cons]
      by_cases fits : c.utf8Size ≤ bytes
      · rcases @induction (bytes - c.utf8Size) (by omega) with
          ⟨start, rest, split, size⟩ | ⟨start, d, rest, split, before, behind⟩
        · left
          refine ⟨String.singleton c ++ start, rest, ?_, ?_⟩
          · rw [split, String.append_assoc]
          · rw [String.utf8ByteSize_append, String.utf8ByteSize_singleton,
              size]
            omega
        · right
          refine ⟨String.singleton c ++ start, d, rest, ?_, ?_⟩
          · rw [split]
            simp only [String.append_assoc]
          · rw [String.utf8ByteSize_append, String.utf8ByteSize_singleton]
            omega
      · by_cases zero : bytes = 0
        · left
          exact ⟨"", _, String.empty_append.symm, zero.symm⟩
        · right
          refine ⟨"", c, String.ofList text, ?_, ?_⟩
          · rw [String.empty_append]
          · rw [String.utf8ByteSize_empty]
            omega

theorem not_isCharBoundary_of_straddled {text : String} {bytes : Nat}
    (straddled : Straddled text bytes) : ¬ IsCharBoundary text bytes := by
  obtain ⟨start, c, rest, rfl, before, behind⟩ := straddled
  rintro ⟨left, right, split, rfl⟩
  rw [String.append_assoc] at split
  obtain ⟨gap, rfl, characters⟩ := exists_gap_of_append_eq split before.le
  rw [String.utf8ByteSize_append] at before behind
  have shorter : gap.utf8ByteSize ≤ (String.singleton c).utf8ByteSize := by
    rw [String.utf8ByteSize_singleton]
    omega
  obtain ⟨others, whole, _⟩ :=
    exists_gap_of_append_eq characters.symm shorter
  have lists := congrArg String.toList whole
  rw [String.toList_singleton, String.toList_append] at lists
  cases letters : gap.toList with
  | nil =>
      have empty : gap = "" := String.toList_eq_nil_iff.mp letters
      rw [empty] at before
      exact absurd before (by simp)
  | cons d letter =>
      rw [letters, List.cons_append] at lists
      obtain ⟨same, noneLeft⟩ := List.cons.inj lists
      have gapEq : gap = String.singleton c := by
        apply String.toList_inj.mp
        have empty := List.append_eq_nil_iff.mp noneLeft.symm
        rw [letters, String.toList_singleton, same, empty.1]
      rw [gapEq, String.utf8ByteSize_singleton] at behind
      exact absurd behind (Nat.lt_irrefl _)

theorem not_straddled_iff {text : String} {bytes : Nat} :
    ¬ Straddled text bytes ↔
      (bytes < text.utf8ByteSize → IsCharBoundary text bytes) := by
  constructor
  · intro clear inside
    have cases := @isCharBoundary_or_straddled text.toList bytes
    rw [String.ofList_toList] at cases
    exact (cases inside.le).resolve_right clear
  · intro boundary straddled
    have inside : bytes < text.utf8ByteSize := by
      obtain ⟨start, c, rest, rfl, _, behind⟩ := straddled
      simp only [String.utf8ByteSize_append, String.utf8ByteSize_singleton]
      omega
    exact not_isCharBoundary_of_straddled straddled (boundary inside)

theorem isCharBoundary_append_add {first second : String} {bytes : Nat} :
    IsCharBoundary (first ++ second) (first.utf8ByteSize + bytes) ↔
      IsCharBoundary second bytes := by
  constructor
  · rintro ⟨start, rest, split, size⟩
    obtain ⟨gap, rfl, rightEq⟩ := exists_gap_of_append_eq split (by omega)
    rw [String.utf8ByteSize_append] at size
    exact ⟨gap, rest, rightEq, by omega⟩
  · rintro ⟨start, rest, rfl, rfl⟩
    exact ⟨first ++ start, rest, (String.append_assoc ..).symm,
      String.utf8ByteSize_append⟩

theorem isCharBoundary_append_of_le {first second : String} {bytes : Nat}
    (inside : bytes ≤ first.utf8ByteSize) :
    IsCharBoundary (first ++ second) bytes ↔ IsCharBoundary first bytes := by
  constructor
  · rintro ⟨start, rest, split, rfl⟩
    obtain ⟨gap, firstEq, _⟩ := exists_gap_of_append_eq split.symm inside
    exact ⟨start, gap, firstEq, rfl⟩
  · rintro ⟨start, rest, rfl, rfl⟩
    exact ⟨start, rest ++ second, String.append_assoc .., rfl⟩

/-- The start of a text of more than `max` bytes, with dots behind it. -/
def elide (text : String) (max : Nat) : Option String :=
  if text.utf8ByteSize > max then
    (sliceTo text (max - 3)).map (· ++ "...")
  else some text

/-- Eliding the text cuts no character. -/
def Elidable (text : String) (max : Nat) : Prop :=
  max < text.utf8ByteSize → ¬ Straddled text (max - 3)

theorem elide_isSome_iff {text : String} {max : Nat} :
    (elide text max).isSome = true ↔ Elidable text max := by
  rw [elide, isSome_guarded_iff, Option.isSome_map, sliceTo_isSome_iff]
  apply forall_congr'
  intro long
  rw [not_straddled_iff]
  constructor
  · intro boundary _
    exact boundary
  · intro boundary
    exact boundary (by omega)

/-- What straddles a byte of a quoted text does so behind what is written
before it. -/
theorem straddled_append_add {first second : String} {bytes : Nat} :
    Straddled (first ++ second) (first.utf8ByteSize + bytes) ↔
      Straddled second bytes := by
  rw [← not_iff_not, not_straddled_iff, not_straddled_iff,
    isCharBoundary_append_add, String.utf8ByteSize_append,
    Nat.add_lt_add_iff_left]

theorem exists_of_sliceTo {text start : String} {bytes : Nat}
    (taken : sliceTo text bytes = some start) :
    ∃ rest, text = start ++ rest := by
  obtain ⟨characters, takenBytes, rfl⟩ := Option.map_eq_some_iff.mp taken
  obtain ⟨rest, split⟩ := prefix_of_takeBytes takenBytes
  refine ⟨String.ofList rest, ?_⟩
  rw [← String.ofList_append, split, String.ofList_toList]

theorem elide_early {text elided : String} {max bytes : Nat}
    (done : elide text max = some elided) (early : bytes + 3 ≤ max) :
    Straddled elided bytes ↔ Straddled text bytes := by
  rw [← not_iff_not, not_straddled_iff, not_straddled_iff]
  rw [elide] at done
  split at done
  next long =>
    obtain ⟨start, taken, rfl⟩ := Option.map_eq_some_iff.mp done
    have size := utf8ByteSize_sliceTo taken
    obtain ⟨rest, rfl⟩ := exists_of_sliceTo taken
    have inside : bytes ≤ start.utf8ByteSize := by omega
    have dots : "...".utf8ByteSize = 3 := rfl
    have shortToo : bytes < (start ++ "...").utf8ByteSize := by
      rw [String.utf8ByteSize_append, dots]
      omega
    have shorter : bytes < (start ++ rest).utf8ByteSize := by omega
    rw [isCharBoundary_append_of_le inside,
      isCharBoundary_append_of_le inside]
    simp only [shortToo, shorter]
  next short =>
    cases done
    exact Iff.rfl

def isAsciiHexDigit (c : Char) : Bool :=
  ('0' ≤ c && c ≤ '9') || ('a' ≤ c && c ≤ 'f') || ('A' ≤ c && c ≤ 'F')

theorem utf8Size_of_isAsciiHexDigit {c : Char}
    (digit : isAsciiHexDigit c = true) : c.utf8Size = 1 := by
  apply Char.utf8Size_eq_one_iff.mpr
  simp only [isAsciiHexDigit, Bool.or_eq_true, Bool.and_eq_true,
    decide_eq_true_eq] at digit
  rcases digit with (⟨_, upper⟩ | ⟨_, upper⟩) | ⟨_, upper⟩
  · exact Nat.le_trans upper (by decide)
  · exact Nat.le_trans upper (by decide)
  · exact Nat.le_trans upper (by decide)

theorem takeBytes_of_isAsciiHexDigit {text : List Char}
    (digits : text.all isAsciiHexDigit = true) {bytes : Nat}
    (reaches : bytes ≤ text.length) :
    takeBytes text bytes = some (text.take bytes) := by
  induction text generalizing bytes with
  | nil =>
      cases Nat.le_zero.mp reaches
      rfl
  | cons c text induction =>
      rw [List.all_cons, Bool.and_eq_true] at digits
      obtain ⟨digit, rest⟩ := digits
      cases bytes with
      | zero => rfl
      | succ bytes =>
          have taken := induction rest (Nat.le_of_succ_le_succ reaches)
          have one := utf8Size_of_isAsciiHexDigit digit
          rw [takeBytes, one, if_pos (Nat.succ_le_succ (Nat.zero_le bytes)),
            Nat.add_sub_cancel, taken]
          · rfl
          · exact nofun

theorem sliceTo_of_isAsciiHexDigit {text : String}
    (digits : text.toList.all isAsciiHexDigit = true) {bytes : Nat}
    (reaches : bytes ≤ text.toList.length) :
    sliceTo text bytes = some (String.ofList (text.toList.take bytes)) := by
  rw [sliceTo, takeBytes_of_isAsciiHexDigit digits reaches]
  rfl

theorem utf8ByteSize_of_isAsciiHexDigit {text : String}
    (digits : text.toList.all isAsciiHexDigit = true) :
    text.utf8ByteSize = text.toList.length := by
  have characters : ∀ cs : List Char, cs.all isAsciiHexDigit = true →
      (String.ofList cs).utf8ByteSize = cs.length := by
    intro cs
    induction cs with
    | nil => intro _; rfl
    | cons c cs induction =>
        intro all
        rw [List.all_cons, Bool.and_eq_true] at all
        obtain ⟨digit, rest⟩ := all
        rw [String.ofList_cons, String.utf8ByteSize_append,
          String.utf8ByteSize_singleton, utf8Size_of_isAsciiHexDigit digit,
          induction rest, List.length_cons, Nat.add_comm]
  have whole := characters text.toList digits
  rwa [String.ofList_toList] at whole

/-- A number in lowercase hexadecimal, padded with zeros to `width` digits. -/
def hexPadded (width value : Nat) : List Char :=
  (List.range width).map fun i =>
    Nat.digitChar (value / 16 ^ (width - 1 - i) % 16)

theorem hexPadded_length (width value : Nat) :
    (hexPadded width value).length = width := by
  rw [hexPadded, List.length_map, List.length_range]

theorem isAsciiHexDigit_of_mem_hexPadded {width value : Nat} {c : Char}
    (digit : c ∈ hexPadded width value) : isAsciiHexDigit c = true := by
  have digits : ∀ n ∈ List.range 16, isAsciiHexDigit n.digitChar = true := by
    decide
  obtain ⟨i, _, rfl⟩ := List.mem_map.mp digit
  apply digits
  exact List.mem_range.mpr (Nat.mod_lt _ (by decide))

/-- A number in decimal, padded with zeros to at least `width` digits. -/
def decimalPadded (width value : Nat) : String :=
  let digits := Nat.toDigits 10 value
  String.ofList (List.replicate (width - digits.length) '0' ++ digits)

theorem ofDigitChars_decimalPadded (width value : Nat) :
    Nat.ofDigitChars 10 (decimalPadded width value).toList 0 = value := by
  rw [decimalPadded, String.toList_ofList, Nat.ofDigitChars_append,
    Nat.ofDigitChars_replicate_zero, Nat.mul_zero,
    Nat.ofDigitChars_ten_toDigits]

theorem decimalPadded_injective (width : Nat) :
    Function.Injective (decimalPadded width) := by
  intro left right same
  rw [← ofDigitChars_decimalPadded width left, same,
    ofDigitChars_decimalPadded]

/-- Whether a pattern occurs in a text. -/
def contains (text pattern : String) : Bool :=
  decide (pattern.toList <:+: text.toList)

theorem contains_append {text pattern : String}
    (occurs : contains text pattern = true) (appended : String) :
    contains (text ++ appended) pattern = true := by
  have occurrence : pattern.toList <:+: text.toList := of_decide_eq_true occurs
  apply decide_eq_true
  rw [String.toList_append]
  exact occurrence.trans (List.infix_append' [] _ _)

/-- The last separator splits a text in one way. -/
theorem append_cons_inj_of_notMem {α : Type} {separator : α}
    {left right left' right' : List α} (absent : separator ∉ right)
    (absent' : separator ∉ right')
    (same : left ++ separator :: right = left' ++ separator :: right') :
    left = left' ∧ right = right' := by
  rcases List.append_eq_append_iff.mp same with
    ⟨gap, leftEq, rightEq⟩ | ⟨gap, leftEq, rightEq⟩
  · cases gap with
    | nil =>
        rw [List.nil_append] at rightEq
        rw [List.append_nil] at leftEq
        exact ⟨leftEq.symm, List.tail_eq_of_cons_eq rightEq⟩
    | cons first gap =>
        have inside := List.tail_eq_of_cons_eq rightEq
        rw [inside] at absent
        exact absurd (by simp) absent
  · cases gap with
    | nil =>
        rw [List.nil_append] at rightEq
        rw [List.append_nil] at leftEq
        exact ⟨leftEq, (List.tail_eq_of_cons_eq rightEq).symm⟩
    | cons first gap =>
        have inside := List.tail_eq_of_cons_eq rightEq
        rw [inside] at absent'
        exact absurd (by simp) absent'

/-- Drop a pattern from the end of a text as often as it stands there. -/
def trimEndMatches (pattern text : List Char) : List Char :=
  if pattern ≠ [] ∧ pattern <:+ text then
    trimEndMatches pattern (text.take (text.length - pattern.length))
  else text
termination_by text.length
decreasing_by
  next ends =>
    have positive := List.length_pos_iff.mpr ends.1
    have inside := ends.2.length_le
    rw [List.length_take]
    omega

theorem trimEndMatches_of_not_suffix {pattern text : List Char}
    (other : ¬ pattern <:+ text) : trimEndMatches pattern text = text := by
  rw [trimEndMatches, if_neg (fun ends => other ends.2)]

/-- A pattern at the end of a text that does not end with it already is
dropped once. -/
theorem trimEndMatches_append {pattern text : List Char}
    (other : ¬ pattern <:+ text) :
    trimEndMatches pattern (text ++ pattern) = text := by
  have nonempty : pattern ≠ [] := by
    intro empty
    exact other (empty ▸ List.nil_suffix)
  rw [trimEndMatches, if_pos ⟨nonempty, List.suffix_append text pattern⟩,
    List.length_append, Nat.add_sub_cancel, List.take_left,
    trimEndMatches_of_not_suffix other]

/-- A decimal number of 64 bits, with an optional plus sign. -/
def parseU64 (text : List Char) : Option Nat :=
  let digits := if text.head? = some '+' then text.tail else text
  if digits = [] ∨ digits.all Char.isDigit = false then none
  else
    let value := Nat.ofDigitChars 10 digits 0
    if value < 2 ^ 64 then some value else none

theorem isDigit_of_mem_toDigits {value : Nat} {c : Char}
    (digit : c ∈ Nat.toDigits 10 value) : c.isDigit = true :=
  Nat.isDigit_of_mem_toDigits (by decide) (by decide) digit

theorem parseU64_toDigits {value : Nat} (word : value < 2 ^ 64) :
    parseU64 (Nat.toDigits 10 value) = some value := by
  have unsigned : (Nat.toDigits 10 value).head? ≠ some '+' := by
    intro plus
    have digit := isDigit_of_mem_toDigits (List.mem_of_head? plus)
    exact absurd digit (by decide)
  have digits : ¬ (Nat.toDigits 10 value = [] ∨
      (Nat.toDigits 10 value).all Char.isDigit = false) := by
    rintro (empty | other)
    · exact Nat.toDigits_ne_nil empty
    · have all : (Nat.toDigits 10 value).all Char.isDigit = true := by
        apply List.all_eq_true.mpr
        intro c member
        exact isDigit_of_mem_toDigits member
      rw [all] at other
      cases other
  rw [parseU64, if_neg unsigned]
  dsimp only
  rw [if_neg digits, Nat.ofDigitChars_ten_toDigits, if_pos word]

theorem notMem_of_mem_splitOn {α : Type} [BEq α] [LawfulBEq α]
    (separator : α) (text : List α) :
    ∀ part ∈ text.splitOn separator, separator ∉ part := by
  induction text with
  | nil => simp
  | cons item text induction =>
      rw [List.splitOn_cons_eq_if_modifyHead]
      split
      next same =>
        rw [List.forall_mem_cons]
        exact ⟨List.not_mem_nil, induction⟩
      next different =>
        cases parts : text.splitOn separator with
        | nil => exact absurd parts (List.splitOn_ne_nil _ _)
        | cons first rest =>
            rw [parts] at induction
            obtain ⟨firstClean, restClean⟩ :=
              List.forall_mem_cons.mp induction
            rw [List.modifyHead_cons, List.forall_mem_cons]
            refine ⟨?_, restClean⟩
            intro member
            rcases List.mem_cons.mp member with rfl | later
            · exact different (beq_self_eq_true separator)
            · exact firstClean later

/-- What follows the last separator is the last part of a split. -/
theorem getLast?_splitOn_append_cons {α : Type} [BEq α] [LawfulBEq α]
    {separator : α} {left right : List α} (absent : separator ∉ right) :
    ((left ++ separator :: right).splitOn separator).getLast? =
        some right ∧
      2 ≤ ((left ++ separator :: right).splitOn separator).length := by
  have single : right.splitOnP (· == separator) = [right] := by
    apply List.splitOnP_eq_singleton
    intro item member
    apply beq_false_of_ne
    intro same
    exact absent (same ▸ member)
  have nonempty := List.splitOnP_ne_nil (· == separator) left
  have parts := List.splitOnP_append_cons (p := (· == separator)) left right
    (beq_self_eq_true separator)
  rw [List.splitOn_eq_splitOnP, parts, single]
  constructor
  · simp
  · have positive := List.length_pos_iff.mpr nonempty
    rw [List.length_append, List.length_singleton]
    omega

end Ughi.Lib
