import Mathlib.Data.List.Basic
import Mathlib.Data.List.Perm.Basic

/-!
# Max-heaps as bags

A binary heap promises little about its layout: `pop` removes some greatest
element, and which one it is among equally great elements depends on the
history of the heap.  Here a heap is the list of its elements, and `pop` takes
a number naming which of the greatest elements leaves.  Quantifying over that
number covers every tie-breaking a real heap can show.
-/

namespace Ughi.Lib.MaxHeap

universe u

variable {α : Type u} (le : α → α → Bool)

/-- `candidate` is a greatest element of the heap, when it is in it. -/
def IsTop (heap : List α) (candidate : α) : Bool :=
  heap.all fun other => le other candidate

/-- The elements a heap may pop next. -/
def tops (heap : List α) : List α :=
  heap.filter (IsTop le heap)

/-- Remove one greatest element; `tie` names which one. -/
def pop [DecidableEq α] (tie : Nat) (heap : List α) : Option (α × List α) :=
  match (tops le heap)[tie % (tops le heap).length]? with
  | none => none
  | some top => some (top, heap.erase top)

variable {le}

theorem mem_tops {heap : List α} {candidate : α} :
    candidate ∈ tops le heap ↔
      candidate ∈ heap ∧ ∀ other ∈ heap, le other candidate = true := by
  simp [tops, IsTop]

theorem exists_top (total : ∀ a b, le a b = true ∨ le b a = true)
    (trans : ∀ a b c, le a b = true → le b c = true → le a c = true)
    {heap : List α} (nonempty : heap ≠ []) : ∃ top, top ∈ tops le heap := by
  induction heap with
  | nil => exact absurd rfl nonempty
  | cons head tail induction =>
      by_cases empty : tail = []
      · subst tail
        refine ⟨head, mem_tops.mpr ⟨by simp, ?_⟩⟩
        intro other member
        rw [List.mem_singleton.mp member]
        exact (total head head).elim id id
      · obtain ⟨top, topMember⟩ := induction empty
        obtain ⟨inTail, greatest⟩ := mem_tops.mp topMember
        rcases total head top with below | above
        · refine ⟨top, mem_tops.mpr ⟨List.mem_cons_of_mem _ inTail, ?_⟩⟩
          intro other member
          rcases List.mem_cons.mp member with rfl | later
          · exact below
          · exact greatest other later
        · refine ⟨head, mem_tops.mpr ⟨List.mem_cons_self, ?_⟩⟩
          intro other member
          rcases List.mem_cons.mp member with rfl | later
          · exact (total other other).elim id id
          · exact trans other top head (greatest other later) above

section Pop

variable [DecidableEq α] {tie : Nat} {heap rest : List α} {top : α}

theorem pop_mem_tops (popped : pop le tie heap = some (top, rest)) :
    top ∈ tops le heap := by
  unfold pop at popped
  split at popped
  · cases popped
  next found selected =>
    cases popped
    exact List.mem_of_getElem? selected

theorem pop_rest (popped : pop le tie heap = some (top, rest)) :
    rest = heap.erase top := by
  unfold pop at popped
  split at popped <;> cases popped
  rfl

theorem pop_mem (popped : pop le tie heap = some (top, rest)) : top ∈ heap :=
  (mem_tops.mp (pop_mem_tops popped)).1

theorem pop_perm (popped : pop le tie heap = some (top, rest)) :
    heap.Perm (top :: rest) := by
  rw [pop_rest popped]
  exact List.perm_cons_erase (pop_mem popped)

theorem pop_nil : pop le tie ([] : List α) = none := by
  simp [pop, tops]

theorem pop_eq_none_iff (total : ∀ a b, le a b = true ∨ le b a = true)
    (trans : ∀ a b c, le a b = true → le b c = true → le a c = true) :
    pop le tie heap = none ↔ heap = [] := by
  constructor
  · intro nothing
    by_contra nonempty
    obtain ⟨witness, member⟩ := exists_top total trans nonempty
    have positive : 0 < (tops le heap).length := List.length_pos_of_mem member
    have inside : tie % (tops le heap).length < (tops le heap).length :=
      Nat.mod_lt _ positive
    simp [pop, List.getElem?_eq_getElem inside] at nothing
  · rintro rfl
    exact pop_nil

end Pop

end Ughi.Lib.MaxHeap
