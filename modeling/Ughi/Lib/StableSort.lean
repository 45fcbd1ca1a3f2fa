import Mathlib.Data.List.Sort

/-!
# Where a stable sort puts an item

Insertion sort keeps items that are equally good in their order.  So the place
of an item in the result can be counted in the list it is given, and an item
that has enough others ahead of it does not change the first results.
-/

namespace Ughi.Lib

universe u

variable {α : Type u} {r : α → α → Prop} [DecidableRel r]

theorem orderedInsert_append_of_rel {a : α} {ahead behind : List α}
    (better : ∀ b ∈ behind, r a b) :
    (ahead ++ behind).orderedInsert r a =
      ahead.orderedInsert r a ++ behind := by
  induction ahead with
  | nil =>
      cases behind with
      | nil => rfl
      | cons b behind =>
          exact List.orderedInsert_cons_of_le r behind
            (better b List.mem_cons_self)
  | cons head ahead induction =>
      rw [List.cons_append, List.orderedInsert_cons, List.orderedInsert_cons]
      split
      · rfl
      · rw [induction]
        rfl

theorem orderedInsert_append_of_not_rel {a : α} {ahead behind : List α}
    (worse : ∀ b ∈ ahead, ¬ r a b) :
    (ahead ++ behind).orderedInsert r a =
      ahead ++ behind.orderedInsert r a := by
  induction ahead with
  | nil => rfl
  | cons head ahead induction =>
      rw [List.cons_append,
        List.orderedInsert_of_not_le r _ (worse head List.mem_cons_self),
        induction fun b member => worse b (List.mem_cons_of_mem head member)]
      rfl

variable [IsTrans α r]

/-- An item inserted into sorted items stands ahead of the first it is at
least as good as. -/
theorem exists_orderedInsert_split (item : α) {sorted : List α}
    (ordered : sorted.Pairwise r) :
    ∃ ahead behind, sorted.orderedInsert r item = ahead ++ item :: behind ∧
      sorted = ahead ++ behind ∧ (∀ a ∈ ahead, ¬ r item a) ∧
      ∀ b ∈ behind, r item b := by
  induction ordered with
  | nil => exact ⟨[], [], rfl, rfl, by simp, by simp⟩
  | @cons head sorted headFirst _ induction =>
      by_cases better : r item head
      · refine ⟨[], head :: sorted, ?_, rfl, by simp, ?_⟩
        · exact List.orderedInsert_cons_of_le r sorted better
        · intro b member
          rcases List.mem_cons.mp member with rfl | later
          · exact better
          · exact IsTrans.trans item head b better (headFirst b later)
      · obtain ⟨ahead, behind, inserted, whole, worse, best⟩ := induction
        refine ⟨head :: ahead, behind, ?_, ?_, ?_, best⟩
        · rw [List.orderedInsert_of_not_le r sorted better, inserted]
          rfl
        · rw [whole]
          rfl
        · intro a member
          rcases List.mem_cons.mp member with rfl | later
          · exact better
          · exact worse a later

variable [Std.Total r]

theorem insertionSort_append_insertionSort (first later : List α) :
    (first ++ later.insertionSort r).insertionSort r =
      (first ++ later).insertionSort r := by
  induction first with
  | nil => exact (List.pairwise_insertionSort r later).insertionSort_eq
  | cons a first induction =>
      rw [List.cons_append, List.cons_append, List.insertionSort_cons,
        List.insertionSort_cons, induction]

/-- Where a stable sort puts an item: behind those before it that are at least
as good, and behind those after it that are better. -/
theorem exists_insertionSort_split (before after : List α) (item : α) :
    ∃ ahead behind,
      (before ++ item :: after).insertionSort r = ahead ++ item :: behind ∧
        (before ++ after).insertionSort r = ahead ++ behind ∧
        ahead.Perm ((before.filter fun a => r a item) ++
          after.filter fun a => ¬ r item a) := by
  induction before with
  | nil =>
      obtain ⟨ahead, behind, inserted, whole, worse, better⟩ :=
        exists_orderedInsert_split item (List.pairwise_insertionSort r after)
      refine ⟨ahead, behind, inserted, whole, ?_⟩
      have counted := (List.perm_insertionSort r after).filter
        fun a => decide ¬ r item a
      rw [whole, List.filter_append] at counted
      have allAhead : (ahead.filter fun a => decide ¬ r item a) = ahead :=
        List.filter_eq_self.mpr fun a member => decide_eq_true (worse a member)
      have noneBehind : (behind.filter fun a => decide ¬ r item a) = [] := by
        apply List.filter_eq_nil_iff.mpr
        intro b member counts
        exact of_decide_eq_true counts (better b member)
      rwa [allAhead, noneBehind, List.append_nil] at counted
  | cons a before induction =>
      obtain ⟨ahead, behind, sorted, sortedWithout, same⟩ := induction
      have ordered := List.pairwise_insertionSort r (before ++ item :: after)
      rw [sorted, List.pairwise_append, List.pairwise_cons] at ordered
      obtain ⟨_, ⟨itemFirst, _⟩, aheadFirst⟩ := ordered
      rw [List.cons_append, List.cons_append, List.insertionSort_cons,
        List.insertionSort_cons, sorted, sortedWithout]
      by_cases better : r a item
      · have betterBehind : ∀ b ∈ behind, r a b := fun b member =>
          IsTrans.trans a item b better (itemFirst b member)
        refine ⟨ahead.orderedInsert r a, behind, ?_, ?_, ?_⟩
        · apply orderedInsert_append_of_rel
          intro b member
          rcases List.mem_cons.mp member with rfl | later
          · exact better
          · exact betterBehind b later
        · exact orderedInsert_append_of_rel betterBehind
        · rw [List.filter_cons, if_pos (decide_eq_true better)]
          exact (List.perm_orderedInsert r a ahead).trans (same.cons a)
      · have worse : ∀ b ∈ ahead, ¬ r a b := fun b member betterB =>
          better (IsTrans.trans a b item betterB
            (aheadFirst b member item List.mem_cons_self))
        refine ⟨ahead, behind.orderedInsert r a, ?_, ?_, ?_⟩
        · rw [orderedInsert_append_of_not_rel worse,
            List.orderedInsert_of_not_le r behind better]
        · exact orderedInsert_append_of_not_rel worse
        · rwa [List.filter_cons, if_neg (by simpa using better)]

theorem take_insertionSort_of_reached {limit : Nat}
    {before after : List α} {item : α}
    (reached : limit ≤ (before.countP fun a => r a item) +
      after.countP fun a => ¬ r item a) :
    ((before ++ item :: after).insertionSort r).take limit =
      ((before ++ after).insertionSort r).take limit := by
  obtain ⟨ahead, behind, sorted, sortedWithout, same⟩ :=
    exists_insertionSort_split (r := r) before after item
  have enough : limit ≤ ahead.length := by
    rw [same.length_eq, List.length_append, ← List.countP_eq_length_filter,
      ← List.countP_eq_length_filter]
    exact reached
  rw [sorted, sortedWithout, List.take_append_of_le_length enough,
    List.take_append_of_le_length enough]

end Ughi.Lib
