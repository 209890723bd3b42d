import Mathlib.Data.Int.Log
import Mathlib.Data.Rat.Floor
import Mathlib.Tactic.Linarith
import Mathlib.Tactic.Positivity
import Mathlib.Tactic.FieldSimp

/-!
# Rounding to binary64

A `float64` operation gives the double nearest to the exact result. `nearest` is that rounding on
the rationals, for results between the smallest normal number and the largest finite one; the two
ends of the exponent range are not modelled.

`abs_nearest_sub_le` is what is used of it: the error is half a unit in the last place, which is a
bound by the size of the result. Nothing is said of ties, which go to the even significand.
-/

set_option autoImplicit false

namespace Cfscan.Lib.Binary64

/-- The nearest integer; of two equally near the even one. -/
def nearestInt (x : ℚ) : ℤ :=
  if x - ⌊x⌋ < 1 / 2 then ⌊x⌋
  else if x - ⌊x⌋ > 1 / 2 then ⌊x⌋ + 1
  else if ⌊x⌋ % 2 = 0 then ⌊x⌋
  else ⌊x⌋ + 1

/-- The distance of the doubles around `x`: a significand has 53 bits. -/
def ulp (x : ℚ) : ℚ := 2 ^ (Int.log 2 |x| - 52)

def nearest (x : ℚ) : ℚ := nearestInt (x / ulp x) * ulp x

theorem ulp_pos (x : ℚ) : 0 < ulp x := zpow_pos two_pos _

@[simp] theorem nearestInt_intCast (n : ℤ) : nearestInt n = n := by
  simp [nearestInt]

theorem abs_nearestInt_sub_le (x : ℚ) : |(nearestInt x : ℚ) - x| ≤ 1 / 2 := by
  have hlow : (⌊x⌋ : ℚ) ≤ x := Int.floor_le x
  have hhigh : x < ⌊x⌋ + 1 := Int.lt_floor_add_one x
  unfold nearestInt
  rw [abs_le]
  split_ifs <;> push_cast <;> constructor <;> linarith

theorem abs_nearest_sub_le (x : ℚ) : |nearest x - x| ≤ ulp x / 2 := by
  have hpos := ulp_pos x
  have hround := abs_nearestInt_sub_le (x / ulp x)
  have hscale : nearest x - x = ((nearestInt (x / ulp x) : ℚ) - x / ulp x) * ulp x := by
    unfold nearest
    field_simp
  rw [hscale, abs_mul, abs_of_pos hpos]
  calc |(nearestInt (x / ulp x) : ℚ) - x / ulp x| * ulp x ≤ 1 / 2 * ulp x := by gcongr
    _ = ulp x / 2 := by ring

/-- Below `2 ^ n` the doubles are at most `2 ^ (n - 53)` apart. -/
theorem ulp_le {x : ℚ} {n : ℤ} (hx : x ≠ 0) (h : |x| < 2 ^ n) : ulp x ≤ 2 ^ (n - 53) := by
  have hlog : Int.log 2 |x| < n :=
    (Int.lt_zpow_iff_log_lt one_lt_two (abs_pos.mpr hx)).mp (by exact_mod_cast h)
  exact zpow_le_zpow_right₀ one_le_two (by omega)

/-- A multiple of the distance is a double. -/
theorem nearest_of_eq_mul {x : ℚ} {n : ℤ} (h : x = n * ulp x) : nearest x = x := by
  have hdiv : x / ulp x = n := by
    rw [div_eq_iff (ulp_pos x).ne']
    exact h
  rw [nearest, hdiv, nearestInt_intCast, ← h]

@[simp] theorem nearest_zero : nearest 0 = 0 := nearest_of_eq_mul (n := 0) (by simp)

/-- An integer of at most 53 bits is a double. -/
theorem nearest_intCast {n : ℤ} (h : |n| < 2 ^ 53) : nearest n = n := by
  rcases eq_or_ne n 0 with rfl | hn
  · simp
  have habs : |(n : ℚ)| < 2 ^ (53 : ℤ) := by exact_mod_cast h
  have hlog : Int.log 2 |(n : ℚ)| < 53 :=
    (Int.lt_zpow_iff_log_lt one_lt_two (by positivity)).mp (by exact_mod_cast habs)
  obtain ⟨k, hk⟩ : ∃ k : ℕ, Int.log 2 |(n : ℚ)| - 52 = -(k : ℤ) :=
    ⟨(52 - Int.log 2 |(n : ℚ)|).toNat, by omega⟩
  refine nearest_of_eq_mul (n := n * 2 ^ k) ?_
  rw [ulp, hk, zpow_neg, zpow_natCast]
  push_cast
  field_simp

/-- The rounding of a result below `2 ^ n` is off by at most `2 ^ (n - 54)`. -/
theorem abs_nearest_sub_le_zpow {x : ℚ} {n : ℤ} (h : |x| < 2 ^ n) :
    |nearest x - x| ≤ 2 ^ (n - 54) := by
  rcases eq_or_ne x 0 with rfl | hx
  · rw [nearest_zero, sub_zero, abs_zero]
    exact (zpow_pos two_pos _).le
  calc |nearest x - x| ≤ ulp x / 2 := abs_nearest_sub_le x
    _ ≤ 2 ^ (n - 53) / 2 := by linarith [ulp_le hx h]
    _ = 2 ^ (n - 54) := by
      rw [div_eq_iff two_ne_zero, ← zpow_add_one₀ two_ne_zero]
      congr 1
      omega

end Cfscan.Lib.Binary64
