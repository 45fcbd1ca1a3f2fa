import Mathlib.Algebra.Order.BigOperators.Group.List
import Mathlib.Algebra.Order.Ring.Nat
import Mathlib.Data.List.Nodup

/-!
# The least prefix that reaches a target

Items with sizes stand in a list.  A prefix that reaches a target is least
when no shorter one does; what it leaves is the longest remainder within the
rest of the whole.
-/

namespace Ughi.Lib

universe u v

variable {α : Type u} {κ : Type v}

/-- The size of all items of a list. -/
def totalOf (size : α → Nat) (items : List α) : Nat :=
  (items.map size).sum

/-- So many first items reach the target, and fewer do not. -/
structure LeastPrefix (size : α → Nat) (target : Nat) (items : List α)
    (count : Nat) : Prop where
  reached : target ≤ totalOf size (items.take count)
  needed : ∀ fewer < count, totalOf size (items.take fewer) < target

section Totals

variable (size : α → Nat) (items : List α)

theorem totalOf_perm {other : List α} (permuted : items.Perm other) :
    totalOf size items = totalOf size other :=
  (permuted.map size).sum_eq

theorem totalOf_take_add_drop (count : Nat) :
    totalOf size (items.take count) + totalOf size (items.drop count) =
      totalOf size items := by
  rw [totalOf, totalOf, totalOf, ← List.sum_append, ← List.map_append,
    List.take_append_drop]

theorem totalOf_take_mono {fewer count : Nat} (most : fewer ≤ count) :
    totalOf size (items.take fewer) ≤ totalOf size (items.take count) := by
  have shorter : (items.take fewer).Sublist (items.take count) :=
    (List.take_prefix_take_left most).sublist
  exact (shorter.map size).sum_le_sum fun _ _ => Nat.zero_le _

end Totals

section LeastPrefix

variable {size : α → Nat} {target count : Nat} {items : List α}

theorem leastPrefix_iff (positive : 0 < count) :
    LeastPrefix size target items count ↔
      target ≤ totalOf size (items.take count) ∧
        totalOf size (items.take (count - 1)) < target := by
  constructor
  · intro least
    exact ⟨least.reached, least.needed (count - 1) (by omega)⟩
  · rintro ⟨reached, short⟩
    refine ⟨reached, ?_⟩
    intro fewer smaller
    have most := totalOf_take_mono size items
      (show fewer ≤ count - 1 by omega)
    omega

theorem LeastPrefix.le_length (least : LeastPrefix size target items count) :
    count ≤ items.length := by
  apply Nat.le_of_not_lt
  intro longer
  have short := least.needed items.length longer
  have reached := least.reached
  rw [List.take_length] at short
  rw [List.take_of_length_le longer.le] at reached
  omega

/-- A prefix that leaves as much as a least one is least, when it is cut at the
end of the list. -/
theorem LeastPrefix.min_eq {cut : Nat}
    (least : LeastPrefix size target items count)
    (same : (items.drop cut).length = (items.drop count).length) :
    min cut items.length = count := by
  have bounded := least.le_length
  rw [List.length_drop, List.length_drop] at same
  omega

/-- What a least prefix leaves is within the rest of the whole, and what a
shorter prefix leaves is not. -/
theorem leastPrefix_iff_drop {limit : Nat}
    (excess : totalOf size items = limit + target) :
    LeastPrefix size target items count ↔
      totalOf size (items.drop count) ≤ limit ∧
        ∀ fewer < count, limit < totalOf size (items.drop fewer) := by
  have parts := totalOf_take_add_drop size items
  constructor
  · intro least
    constructor
    · have reached := least.reached
      have part := parts count
      omega
    · intro fewer smaller
      have short := least.needed fewer smaller
      have part := parts fewer
      omega
  · rintro ⟨within, beyond⟩
    constructor
    · have part := parts count
      omega
    · intro fewer smaller
      have long := beyond fewer smaller
      have part := parts fewer
      omega

end LeastPrefix

section Keys

variable [DecidableEq κ] {key : α → κ} {items : List α}

theorem filter_notMem_take (distinct : (items.map key).Nodup)
    (count : Nat) :
    (items.filter fun item => key item ∉ (items.take count).map key) =
      items.drop count := by
  induction items generalizing count with
  | nil => simp
  | cons head rest induction =>
      rw [List.map_cons, List.nodup_cons] at distinct
      cases count with
      | zero => simp
      | succ count =>
          rw [List.take_succ_cons, List.drop_succ_cons, List.map_cons,
            List.filter_cons_of_neg (by simp)]
          rw [← induction distinct.2 count]
          apply List.filter_congr
          intro item member
          have other : key item ≠ key head := by
            intro same
            apply distinct.1
            rw [← same]
            exact List.mem_map_of_mem member
          simp [other]

end Keys

end Ughi.Lib
