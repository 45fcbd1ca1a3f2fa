import Mathlib.Algebra.BigOperators.Group.List.Basic
import Mathlib.Order.Lattice

/-!
# Walking along weights

Items are visited in order and their weights added up until the sum reaches a
target.  The walk stops at the last item of the shortest non-empty prefix whose
weight is the target or more.
-/

namespace Ughi.Lib

universe u v

variable {α : Type u} {R : Type v} [AddCommMonoid R]

/-- The weight of all items of a list. -/
def weightOf (weight : α → R) (items : List α) : R :=
  (items.map weight).sum

@[simp] theorem weightOf_nil (weight : α → R) : weightOf weight [] = 0 :=
  rfl

@[simp] theorem weightOf_cons (weight : α → R) (item : α)
    (items : List α) :
    weightOf weight (item :: items) = weight item + weightOf weight items :=
  List.sum_cons

theorem weightOf_take_succ {weight : α → R} {items : List α} {index : Nat}
    {item : α} (found : items[index]? = some item) :
    weightOf weight (items.take (index + 1)) =
      weightOf weight (items.take index) + weight item := by
  rw [weightOf, List.take_add_one, found, List.map_append, List.sum_append]
  simp [weightOf]

variable [LinearOrder R]

/-- The index at which the weights, added to what has been gathered, reach the
target. -/
def reachIndex (weight : α → R) (target : R) : R → List α → Option Nat
  | _, [] => none
  | gathered, item :: items =>
      if target ≤ gathered + weight item then some 0
      else
        (reachIndex weight target (gathered + weight item) items).map (· + 1)

/-- The walk stops at an index exactly when the target is reached there and at
no earlier one. -/
theorem reachIndex_eq_some_iff {weight : α → R} {target gathered : R}
    {items : List α} {index : Nat} :
    reachIndex weight target gathered items = some index ↔
      index < items.length ∧
        target ≤ gathered + weightOf weight (items.take (index + 1)) ∧
        ∀ earlier < index,
          gathered + weightOf weight (items.take (earlier + 1)) < target := by
  induction items generalizing gathered index with
  | nil => simp [reachIndex]
  | cons item items induction =>
      rw [reachIndex]
      split
      next reached =>
        cases index with
        | zero => simpa using reached
        | succ index =>
            have late : ¬ gathered + weightOf weight
                ((item :: items).take (0 + 1)) < target := by
              simpa using reached
            constructor
            · intro stopped
              cases stopped
            · intro stopped
              exact absurd (stopped.2.2 0 (Nat.succ_pos index)) late
      next short =>
        have below : gathered + weight item < target := not_le.mp short
        cases index with
        | zero =>
            have notReached : ¬ target ≤ gathered + weightOf weight
                ((item :: items).take (0 + 1)) := by
              simpa using below
            constructor
            · intro stopped
              obtain ⟨_, _, impossible⟩ := Option.map_eq_some_iff.mp stopped
              cases impossible
            · intro stopped
              exact absurd stopped.2.1 notReached
        | succ index =>
            have unfolded :
                (reachIndex weight target (gathered + weight item)
                    items).map (· + 1) = some (index + 1) ↔
                  reachIndex weight target (gathered + weight item) items =
                    some index := by
              simp
            rw [unfolded, induction, List.length_cons, List.take_succ_cons,
              weightOf_cons, Nat.succ_lt_succ_iff, add_assoc]
            apply and_congr_right
            intro _
            apply and_congr_right
            intro _
            constructor
            · intro before earlier sooner
              cases earlier with
              | zero => simpa using below
              | succ earlier =>
                  have short := before earlier (Nat.succ_lt_succ_iff.mp sooner)
                  rwa [List.take_succ_cons, weightOf_cons, ← add_assoc]
            · intro before earlier sooner
              have short := before (earlier + 1) (Nat.succ_lt_succ sooner)
              rwa [List.take_succ_cons, weightOf_cons, ← add_assoc] at short

theorem reachIndex_eq_none_iff {weight : α → R} {target gathered : R}
    {items : List α} :
    reachIndex weight target gathered items = none ↔
      ∀ index < items.length,
        gathered + weightOf weight (items.take (index + 1)) < target := by
  induction items generalizing gathered with
  | nil => simp [reachIndex]
  | cons item items induction =>
      rw [reachIndex]
      split
      next reached =>
        constructor
        · intro stopped
          cases stopped
        · intro short
          have first := short 0 (by simp)
          simp only [Nat.zero_add, List.take_succ_cons, List.take_zero,
            weightOf_cons, weightOf_nil, add_zero] at first
          exact absurd reached (not_le.mpr first)
      next short =>
        have below : gathered + weight item < target := not_le.mp short
        rw [Option.map_eq_none_iff, induction]
        constructor
        · intro later index inside
          cases index with
          | zero => simpa using below
          | succ index =>
              rw [List.take_succ_cons, weightOf_cons, ← add_assoc]
              exact later index (Nat.succ_lt_succ_iff.mp inside)
        · intro all index inside
          have short := all (index + 1) (Nat.succ_lt_succ inside)
          rwa [List.take_succ_cons, weightOf_cons, ← add_assoc] at short

theorem exists_reachIndex {weight : α → R} {target : R} {items : List α}
    (nonempty : items ≠ []) (reached : target ≤ weightOf weight items) :
    ∃ index, reachIndex weight target 0 items = some index := by
  cases stopped : reachIndex weight target 0 items with
  | some index => exact ⟨index, rfl⟩
  | none =>
      have positive := List.length_pos_iff.mpr nonempty
      have short := reachIndex_eq_none_iff.mp stopped (items.length - 1)
        (Nat.sub_lt positive Nat.one_pos)
      rw [Nat.sub_add_cancel positive, List.take_length, zero_add] at short
      exact absurd reached (not_le.mpr short)

end Ughi.Lib
