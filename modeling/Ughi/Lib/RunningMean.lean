import Mathlib.Data.Nat.Basic

/-!
# Running means with truncating division

A mean kept as one number is updated by multiplying it out, adding the next
value and dividing again.  Every division drops a remainder, and what is
dropped is missing from all later means.  The running mean stays the mean of
the total, rounded down once, exactly while the remainder of the total by the
number of values does not fall.
-/

namespace Ughi.Lib

/-- The mean of `count` values with this running mean, and one more value. -/
def nextMean (mean count value : Nat) : Nat :=
  (mean * count + value) / (count + 1)

theorem sub_div_eq_div_iff {total dropped divisor : Nat}
    (positive : 0 < divisor) (atMost : dropped ≤ total) :
    (total - dropped) / divisor = total / divisor ↔
      dropped ≤ total % divisor := by
  have parts := Nat.div_add_mod total divisor
  have small := Nat.mod_lt total positive
  have next := Nat.mul_succ divisor (total / divisor)
  rw [Nat.div_eq_iff positive]
  rw [Nat.mul_comm (total / divisor)]
  constructor
  · rintro ⟨above, _⟩
    omega
  · intro kept
    constructor
    · omega
    · omega

theorem nextMean_eq_iff (total count value : Nat) :
    nextMean (total / count) count value = (total + value) / (count + 1) ↔
      total % count ≤ (total + value) % (count + 1) := by
  have parts := Nat.div_add_mod' total count
  have atMost : total % count ≤ total + value :=
    Nat.le_trans (Nat.mod_le total count) (Nat.le_add_right total value)
  have multiplied : total / count * count + value =
      total + value - total % count := by
    omega
  rw [nextMean, multiplied]
  exact sub_div_eq_div_iff (Nat.succ_pos count) atMost

/-- A running mean is no more than the mean, and short of it by no more than
what `count` divisions can drop. -/
structure Drifted (mean count total : Nat) : Prop where
  counted : 0 < count
  below : mean * count ≤ total
  near : 2 * total ≤ 2 * (mean * count) + count * (count - 1)

theorem drifted_one (value : Nat) : Drifted value 1 value where
  counted := Nat.one_pos
  below := by omega
  near := by omega

theorem Drifted.next {mean count total : Nat}
    (drifted : Drifted mean count total) (value : Nat) :
    Drifted (nextMean mean count value) (count + 1) (total + value) := by
  obtain ⟨_, below, near⟩ := drifted
  have parts := Nat.div_add_mod' (mean * count + value) (count + 1)
  have small : (mean * count + value) % (count + 1) < count + 1 :=
    Nat.mod_lt _ (Nat.succ_pos count)
  constructor
  case counted => exact Nat.succ_pos count
  case below =>
    rw [nextMean]
    omega
  case near =>
    rw [nextMean, Nat.add_sub_cancel]
    have triangle : (count + 1) * count = count * (count - 1) + 2 * count := by
      cases count with
      | zero => rfl
      | succ count =>
          rw [Nat.add_sub_cancel, Nat.mul_comm (count + 1) count,
            ← Nat.add_mul]
    omega

/-- The drift of a mean is less than half the number of values. -/
theorem Drifted.div_le {mean count total : Nat}
    (drifted : Drifted mean count total) :
    mean ≤ total / count ∧ 2 * (total / count) ≤ 2 * mean + (count - 1) := by
  obtain ⟨positive, below, near⟩ := drifted
  refine ⟨(Nat.le_div_iff_mul_le positive).mpr below, ?_⟩
  have atMost := Nat.div_mul_le_self total count
  apply Nat.le_of_mul_le_mul_right _ positive
  rw [Nat.add_mul]
  calc
    2 * (total / count) * count = 2 * (total / count * count) :=
      Nat.mul_assoc _ _ _
    _ ≤ 2 * total := Nat.mul_le_mul_left 2 atMost
    _ ≤ 2 * (mean * count) + count * (count - 1) := near
    _ = 2 * mean * count + (count - 1) * count := by
      rw [Nat.mul_assoc, Nat.mul_comm (count - 1)]

end Ughi.Lib
