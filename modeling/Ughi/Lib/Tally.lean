import Mathlib.Data.List.Pairwise
import Mathlib.Order.Lattice

/-!
# Values tallied by bounds

Values are sorted into slots by the first bound that is not below them; values
above every bound share the last slot.  When the bounds ascend, the running
totals of the slots count the values up to each bound.
-/

namespace Ughi.Lib

universe u

variable {α : Type u}

/-- The running totals of the numbers. -/
def runningTotals : Nat → List Nat → List Nat
  | _, [] => []
  | before, number :: numbers =>
      (before + number) :: runningTotals (before + number) numbers

theorem pairwise_runningTotals (before : Nat) (numbers : List Nat) :
    (runningTotals before numbers).Pairwise (· ≤ ·) ∧
      ∀ total ∈ runningTotals before numbers, before ≤ total := by
  induction numbers generalizing before with
  | nil =>
      constructor
      · exact List.Pairwise.nil
      · intro total member
        cases member
  | cons number numbers induction =>
      obtain ⟨ascend, above⟩ := induction (before + number)
      constructor
      · exact List.pairwise_cons.mpr ⟨above, ascend⟩
      · intro total member
        rcases List.mem_cons.mp member with rfl | later
        · exact Nat.le_add_right before number
        · exact Nat.le_trans (Nat.le_add_right before number)
            (above total later)

variable [LinearOrder α]

/-- The slot a value falls into. -/
def slotOf (bounds : List α) (value : α) : Nat :=
  bounds.findIdx fun bound => value ≤ bound

/-- How many of the values fall into each slot. -/
def tally : List α → List α → List Nat
  | [], values => [values.length]
  | bound :: bounds, values =>
      values.countP (· ≤ bound) ::
        tally bounds (values.filter fun value => bound < value)

theorem tally_nil (bounds : List α) :
    tally bounds [] = List.replicate (bounds.length + 1) 0 := by
  induction bounds with
  | nil => rfl
  | cons bound bounds induction =>
      rw [tally, List.filter_nil, induction, List.length_cons,
        List.replicate_succ]
      rfl

theorem tally_append (bounds values : List α) (value : α) :
    tally bounds (values ++ [value]) =
      (tally bounds values).modify (slotOf bounds value) (· + 1) := by
  induction bounds generalizing values with
  | nil => simp [tally, slotOf]
  | cons bound bounds induction =>
      rw [tally, tally, List.filter_append, List.countP_append, slotOf,
        List.findIdx_cons]
      by_cases within : value ≤ bound
      · have notAbove : ¬ bound < value := not_lt.mpr within
        simp [within, notAbove]
      · have above : bound < value := not_le.mp within
        have filtered : [value].filter (fun value => bound < value) =
            [value] := by
          simp [above]
        rw [filtered, induction, slotOf]
        simp [within]

theorem countP_le_eq_add {lower upper : α} (ascends : lower < upper)
    (values : List α) :
    values.countP (· ≤ upper) =
      values.countP (· ≤ lower) +
        (values.filter fun value => lower < value).countP (· ≤ upper) := by
  induction values with
  | nil => rfl
  | cons value values induction =>
      by_cases low : value ≤ lower
      · have notAbove : ¬ lower < value := not_lt.mpr low
        have alsoUpper : value ≤ upper := le_trans low (le_of_lt ascends)
        simp [low, notAbove, alsoUpper, induction]
        omega
      · have above : lower < value := not_le.mp low
        by_cases within : value ≤ upper
        · simp [low, above, within, induction]
          omega
        · simp [low, above, within, induction]

/-- The running totals of a tally count the values up to each bound, and last
all of them. -/
theorem runningTotals_tally {bounds : List α}
    (ascending : bounds.Pairwise (· < ·)) (before : Nat)
    (values : List α) :
    runningTotals before (tally bounds values) =
      bounds.map (fun bound => before + values.countP (· ≤ bound)) ++
        [before + values.length] := by
  induction bounds generalizing before values with
  | nil => rfl
  | cons bound bounds induction =>
      obtain ⟨below, restAscending⟩ := List.pairwise_cons.mp ascending
      have later : ∀ upper ∈ bounds,
          before + values.countP (· ≤ bound) +
              (values.filter fun value => bound < value).countP (· ≤ upper) =
            before + values.countP (· ≤ upper) := by
        intro upper member
        rw [countP_le_eq_add (below upper member) values, Nat.add_assoc]
      have total :
          before + values.countP (· ≤ bound) +
              (values.filter fun value => bound < value).length =
            before + values.length := by
        rw [Nat.add_assoc, ← List.countP_eq_length_filter]
        have split := List.length_eq_countP_add_countP (· ≤ bound) (l := values)
        rw [split]
        simp
      rw [tally, runningTotals, induction restAscending, total,
        List.map_cons, List.cons_append]
      congr 2
      exact List.map_congr_left later

end Ughi.Lib
