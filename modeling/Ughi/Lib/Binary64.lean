import Mathlib.Algebra.Order.Floor.Ring
import Mathlib.Data.Int.Log
import Mathlib.Data.Rat.Floor
import Mathlib.Tactic.Linarith
import Mathlib.Tactic.Positivity

/-!
# Rounding to double precision

A finite double is a rational number, and an operation on doubles is the
operation on rationals followed by `nearest`, which takes ties to even.  The
bounds on rounding are about numbers far below the range where infinities
arise; `Double` has the infinities as well.
-/

namespace Ughi.Lib.Binary64

/-- The nearest integer, with ties to even. -/
def roundEven (x : ℚ) : ℤ :=
  if x - ⌊x⌋ < 1 / 2 then ⌊x⌋
  else if 1 / 2 < x - ⌊x⌋ then ⌊x⌋ + 1
  else if ⌊x⌋ % 2 = 0 then ⌊x⌋
  else ⌊x⌋ + 1

/-- The exponent of the last of the 53 bits of a number. -/
def ulpExponent (x : ℚ) : ℤ :=
  max (Int.log 2 |x|) (-1022) - 52

def nearest (x : ℚ) : ℚ :=
  roundEven (x / 2 ^ ulpExponent x) * 2 ^ ulpExponent x

/-- Conversion to an integer drops the fraction. -/
def truncate (x : ℚ) : ℤ :=
  if 0 ≤ x then ⌊x⌋ else ⌈x⌉

theorem le_roundEven {x : ℚ} {n : ℤ} (below : (n : ℚ) ≤ x) :
    n ≤ roundEven x := by
  have floorAbove : n ≤ ⌊x⌋ := Int.le_floor.mpr below
  unfold roundEven
  split_ifs <;> omega

theorem roundEven_le {x : ℚ} {n : ℤ} (above : x ≤ n) : roundEven x ≤ n := by
  rcases eq_or_lt_of_le above with same | strict
  · subst same
    simp [roundEven]
  · have floorBelow : ⌊x⌋ < n := Int.floor_lt.mpr strict
    unfold roundEven
    split_ifs <;> omega

/-- Below `2 ^ 53` every integer is a double. -/
theorem ulpExponent_nonpos {x : ℚ} (small : |x| < 2 ^ 53) :
    ulpExponent x ≤ 0 := by
  rw [ulpExponent]
  by_cases zero : x = 0
  · simp [zero]
  · have positive : 0 < |x| := abs_pos.mpr zero
    have bounded : Int.log 2 |x| < 53 := by
      apply (Int.lt_zpow_iff_log_lt (by norm_num) positive).mp
      exact_mod_cast small
    omega

section Bounds

variable {x : ℚ} {n : ℤ}

theorem exists_scale (small : |x| < 2 ^ 53) :
    ∃ scale : ℕ, 0 < scale ∧ (2 : ℚ) ^ ulpExponent x = 1 / scale := by
  have nonpos := ulpExponent_nonpos small
  obtain ⟨shift, exponent⟩ : ∃ shift : ℕ, ulpExponent x = -shift :=
    ⟨(-ulpExponent x).toNat, by omega⟩
  refine ⟨2 ^ shift, Nat.two_pow_pos _, ?_⟩
  rw [exponent, zpow_neg, zpow_natCast]
  push_cast
  simp

/-- Rounding does not cross an integer. -/
theorem le_nearest (small : |x| < 2 ^ 53) (below : (n : ℚ) ≤ x) :
    (n : ℚ) ≤ nearest x := by
  obtain ⟨scale, positive, power⟩ := exists_scale small
  have scalePositive : (0 : ℚ) < scale := by exact_mod_cast positive
  rw [nearest, power]
  have scaled : ((n * scale : ℤ) : ℚ) ≤ x / (1 / scale) := by
    push_cast
    rw [div_div_eq_mul_div, div_one]
    exact mul_le_mul_of_nonneg_right below scalePositive.le
  have rounded : ((n * scale : ℤ) : ℚ) ≤ roundEven (x / (1 / scale)) := by
    exact_mod_cast le_roundEven scaled
  push_cast at rounded
  rw [mul_one_div, le_div_iff₀ scalePositive]
  exact rounded

theorem nearest_le (small : |x| < 2 ^ 53) (above : x ≤ n) :
    nearest x ≤ n := by
  obtain ⟨scale, positive, power⟩ := exists_scale small
  have scalePositive : (0 : ℚ) < scale := by exact_mod_cast positive
  rw [nearest, power]
  have scaled : x / (1 / scale) ≤ ((n * scale : ℤ) : ℚ) := by
    push_cast
    rw [div_div_eq_mul_div, div_one]
    exact mul_le_mul_of_nonneg_right above scalePositive.le
  have rounded : (roundEven (x / (1 / scale)) : ℚ) ≤ (n * scale : ℤ) := by
    exact_mod_cast roundEven_le scaled
  push_cast at rounded
  rw [mul_one_div, div_le_iff₀ scalePositive]
  exact rounded

theorem nearest_intCast (small : |n| < 2 ^ 53) : nearest n = n := by
  have smallCast : |(n : ℚ)| < 2 ^ 53 := by exact_mod_cast small
  apply le_antisymm
  · exact nearest_le smallCast le_rfl
  · exact le_nearest smallCast le_rfl

theorem nearest_pos (positive : 0 < x)
    (normal : (2 : ℚ) ^ (-1022 : ℤ) ≤ x) : 0 < nearest x := by
  have power : (0 : ℚ) < 2 ^ ulpExponent x := zpow_pos (by norm_num) _
  have leading : (2 : ℚ) ^ max (Int.log 2 |x|) (-1022) ≤ x := by
    rcases max_choice (Int.log 2 |x|) (-1022) with first | second
    · rw [first, abs_of_pos positive]
      exact_mod_cast Int.zpow_log_le_self (by norm_num) positive
    · rw [second]
      exact normal
  have last : (2 : ℚ) ^ ulpExponent x ≤ x := by
    refine le_trans ?_ leading
    apply zpow_le_zpow_right₀ (by norm_num)
    rw [ulpExponent]
    omega
  have atLeastOne : ((1 : ℤ) : ℚ) ≤ x / 2 ^ ulpExponent x := by
    rw [Int.cast_one, le_div_iff₀ power, one_mul]
    exact last
  have rounded := le_roundEven atLeastOne
  rw [nearest]
  apply mul_pos _ power
  exact_mod_cast rounded

theorem le_truncate (below : (n : ℚ) ≤ x) : n ≤ truncate x := by
  unfold truncate
  split_ifs with nonneg
  · exact Int.le_floor.mpr below
  · have ceilAbove : x ≤ ⌈x⌉ := Int.le_ceil x
    exact_mod_cast below.trans ceilAbove

theorem truncate_le (above : x ≤ n) : truncate x ≤ n := by
  unfold truncate
  split_ifs with nonneg
  · have floorBelow : (⌊x⌋ : ℚ) ≤ x := Int.floor_le x
    exact_mod_cast floorBelow.trans above
  · exact Int.ceil_le.mpr above

end Bounds

/-- A double.  The two zeros are one here, since nothing tells them apart. -/
inductive Double where
  | finite (value : ℚ)
  | infinite (negative : Bool)
  | notANumber
deriving DecidableEq

namespace Double

/-- The double a literal or an exact result is rounded to. -/
def ofRat (x : ℚ) : Double :=
  if |nearest x| < 2 ^ 1024 then .finite (nearest x)
  else .infinite (decide (x < 0))

instance : Zero Double :=
  ⟨.finite 0⟩

instance : Add Double where
  add
    | .finite left, .finite right => ofRat (left + right)
    | .finite _, .infinite negative => .infinite negative
    | .infinite negative, .finite _ => .infinite negative
    | .infinite left, .infinite right =>
        if left = right then .infinite left else .notANumber
    | .notANumber, _ => .notANumber
    | _, .notANumber => .notANumber

theorem ofRat_zero : ofRat 0 = 0 := by
  have rounded : nearest 0 = 0 := by
    simpa using @nearest_intCast 0 (by simp)
  rw [ofRat, rounded]
  norm_num
  rfl

@[simp] theorem zero_add_zero : (0 : Double) + 0 = 0 := by
  change ofRat (0 + 0) = 0
  rw [add_zero, ofRat_zero]

/-- Whether a double is greater than a finite number. -/
def exceeds (double : Double) (x : ℚ) : Bool :=
  match double with
  | .finite value => decide (x < value)
  | .infinite negative => !negative
  | .notANumber => false

end Double

end Ughi.Lib.Binary64

namespace Ughi.Lib.Binary32

open Ughi.Lib.Binary64 (roundEven)

/-- The exponent of the last of the 24 bits of a number. -/
def ulpExponent (x : ℚ) : ℤ :=
  max (Int.log 2 |x|) (-126) - 23

/-- The single-precision number an exact result is rounded to. -/
def nearest (x : ℚ) : ℚ :=
  roundEven (x / 2 ^ ulpExponent x) * 2 ^ ulpExponent x

end Ughi.Lib.Binary32
