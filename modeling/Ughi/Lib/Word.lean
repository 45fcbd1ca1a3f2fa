import Mathlib.Algebra.Order.Ring.Nat

/-!
# Unsigned machine words

Unsigned words of a given width are natural numbers; only the operations that
can leave the range are defined here.
-/

namespace Ughi.Lib

/-- Addition that wraps around at `2 ^ width`. -/
def wrappingAdd (width left right : Nat) : Nat :=
  (left + right) % 2 ^ width

/-- Subtraction that wraps around at `2 ^ width`. -/
def wrappingSub (width left right : Nat) : Nat :=
  (left + 2 ^ width - right) % 2 ^ width

/-- Multiplication that wraps around at `2 ^ width`. -/
def wrappingMul (width left right : Nat) : Nat :=
  left * right % 2 ^ width

theorem wrappingAdd_lt (width left right : Nat) :
    wrappingAdd width left right < 2 ^ width :=
  Nat.mod_lt _ (Nat.two_pow_pos width)

theorem wrappingSub_lt (width left right : Nat) :
    wrappingSub width left right < 2 ^ width :=
  Nat.mod_lt _ (Nat.two_pow_pos width)

theorem wrappingAdd_mod (width left right : Nat) :
    wrappingAdd width (left % 2 ^ width) right = (left + right) % 2 ^ width :=
  Nat.mod_add_mod left (2 ^ width) right

theorem wrappingAdd_of_lt {width left right : Nat}
    (fits : left + right < 2 ^ width) :
    wrappingAdd width left right = left + right :=
  Nat.mod_eq_of_lt fits

theorem wrappingAdd_of_le {width left right : Nat}
    (leftWord : left < 2 ^ width) (rightWord : right < 2 ^ width)
    (overflow : 2 ^ width ≤ left + right) :
    wrappingAdd width left right = left + right - 2 ^ width := by
  rw [wrappingAdd, Nat.mod_eq_sub_mod overflow]
  exact Nat.mod_eq_of_lt (by omega)

theorem wrappingSub_of_le {width left right : Nat}
    (leftWord : left < 2 ^ width) (smaller : right ≤ left) :
    wrappingSub width left right = left - right := by
  have shifted : left + 2 ^ width - right = left - right + 2 ^ width := by
    omega
  rw [wrappingSub, shifted, Nat.add_mod_right]
  exact Nat.mod_eq_of_lt (by omega)

/-- Subtracting what was added restores a word, also after a wrap-around. -/
theorem wrappingSub_wrappingAdd {width left right : Nat}
    (leftWord : left < 2 ^ width) (rightWord : right < 2 ^ width) :
    wrappingSub width (wrappingAdd width left right) right = left := by
  by_cases fits : left + right < 2 ^ width
  · rw [wrappingAdd_of_lt fits, wrappingSub]
    have shifted : left + right + 2 ^ width - right = left + 2 ^ width := by
      omega
    rw [shifted, Nat.add_mod_right, Nat.mod_eq_of_lt leftWord]
  · rw [wrappingAdd_of_le leftWord rightWord (Nat.le_of_not_lt fits),
      wrappingSub]
    have restored : left + right - 2 ^ width + 2 ^ width - right = left := by
      omega
    rw [restored, Nat.mod_eq_of_lt leftWord]

end Ughi.Lib
