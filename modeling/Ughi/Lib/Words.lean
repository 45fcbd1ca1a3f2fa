import Mathlib.Data.List.TakeWhile

/-!
# Words

A text is split at whitespace into its words, none of them empty.  The first
word is what stands behind the leading whitespace, up to the next.
-/

namespace Ughi.Lib

/-- The characters with the Unicode property `White_Space`. -/
def isWhitespace (c : Char) : Bool :=
  let code := c.toNat
  (0x09 ≤ code && code ≤ 0x0d) || code == 0x20 || code == 0x85 ||
    code == 0xa0 || code == 0x1680 ||
    (0x2000 ≤ code && code ≤ 0x200a) || code == 0x2028 || code == 0x2029 ||
    code == 0x202f || code == 0x205f || code == 0x3000

def splitWhitespace (text : List Char) : List (List Char) :=
  (text.splitOnP isWhitespace).filter fun word => !word.isEmpty

/-- Where a word ends: at the end of the text or before whitespace. -/
def EndsWord (rest : List Char) : Prop :=
  ∀ c ∈ rest.head?, isWhitespace c = true

theorem splitWhitespace_cons_whitespace {c : Char}
    (blank : isWhitespace c = true) (text : List Char) :
    splitWhitespace (c :: text) = splitWhitespace text := by
  have split : (c :: text).splitOnP isWhitespace =
      [] :: text.splitOnP isWhitespace :=
    List.splitOnP_append_cons [] text blank
  rw [splitWhitespace, split]
  rfl

theorem splitWhitespace_append_whitespace {margin : List Char}
    (blank : ∀ c ∈ margin, isWhitespace c = true) (text : List Char) :
    splitWhitespace (margin ++ text) = splitWhitespace text := by
  induction margin with
  | nil => rfl
  | cons c margin induction =>
      obtain ⟨first, others⟩ := List.forall_mem_cons.mp blank
      rw [List.cons_append, splitWhitespace_cons_whitespace first]
      exact induction others

/-- A word the text begins with is its first. -/
theorem head?_splitWhitespace_append {word rest : List Char}
    (nonempty : word ≠ []) (clean : ∀ c ∈ word, isWhitespace c = false)
    (ends : EndsWord rest) :
    (splitWhitespace (word ++ rest)).head? = some word := by
  cases rest with
  | nil =>
      have split := List.splitOnP_eq_singleton clean
      rw [List.append_nil, splitWhitespace, split]
      simp [nonempty]
  | cons c rest =>
      have split :=
        List.splitOnP_append_cons_of_forall_mem clean c (ends c rfl) rest
      rw [splitWhitespace, split]
      simp [nonempty]

theorem exists_leading_word (text : List Char) :
    ∃ word rest, text = word ++ rest ∧
      (∀ c ∈ word, isWhitespace c = false) ∧ EndsWord rest := by
  let isLetter := fun c => !isWhitespace c
  refine ⟨text.takeWhile isLetter, text.dropWhile isLetter, ?_, ?_, ?_⟩
  · exact List.takeWhile_append_dropWhile.symm
  · intro c member
    have letter := List.mem_takeWhile_imp member
    simpa [isLetter] using letter
  · intro c head
    have stopped := List.head?_dropWhile_not isLetter text
    have found : (text.dropWhile isLetter).head? = some c := head
    rw [found] at stopped
    simpa [isLetter] using stopped

theorem exists_of_head?_splitWhitespace {text word : List Char}
    (first : (splitWhitespace text).head? = some word) :
    ∃ margin rest, text = margin ++ word ++ rest ∧
      (∀ c ∈ margin, isWhitespace c = true) ∧ EndsWord rest := by
  induction text with
  | nil => cases first
  | cons c text induction =>
      cases blank : isWhitespace c with
      | true =>
          rw [splitWhitespace_cons_whitespace blank] at first
          obtain ⟨margin, rest, split, blanks, ends⟩ := induction first
          refine ⟨c :: margin, rest, ?_, ?_, ends⟩
          · rw [split]
            rfl
          · rw [List.forall_mem_cons]
            exact ⟨blank, blanks⟩
      | false =>
          obtain ⟨letters, rest, split, clean, ends⟩ :=
            exists_leading_word text
          have cleanToo : ∀ d ∈ c :: letters, isWhitespace d = false := by
            rw [List.forall_mem_cons]
            exact ⟨blank, clean⟩
          have leads :=
            head?_splitWhitespace_append (List.cons_ne_nil c letters) cleanToo
              ends
          rw [List.cons_append, ← split, first] at leads
          have same := Option.some.inj leads
          refine ⟨[], rest, ?_, by simp, ends⟩
          rw [List.nil_append, same, split, List.cons_append]

end Ughi.Lib
