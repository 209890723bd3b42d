import Cfscan.League.Entry
import Cfscan.Lib.Binary64

/-!
# Durations

`time.Duration` is an int64 count of nanoseconds. The two limiters subtract times, which saturates,
and durations, which wraps round; the handlers turn what is left of a wait into whole seconds
through a `float64` (`retryAfter`).

`retryAfter` is the one place where a float decides anything. `int_seconds` says that it decides as
an integer division would, for waits below twelve days; the limiters of the handlers never have a
longer one than ten minutes.
-/

set_option autoImplicit false

namespace Cfscan.Limits

open Cfscan.Lib
open Cfscan.League (Time)

abbrev Duration := Int64

def second : Duration := 1000000000

def minute : Duration := 60 * second

/-- `t.Sub(u)`: a difference that is no int64 saturates. -/
def sub (t u : Time) : Duration := Int64.ofIntClamp (t - u)

/-- `t.Add(d)`. -/
def add (t : Time) (d : Duration) : Time := t + d.toInt

/-- `d.Seconds()`. -/
def Duration.seconds (d : Duration) : ℚ :=
  let sec := d / second
  let nsec := d % second
  Binary64.nearest (Binary64.nearest sec.toInt +
    Binary64.nearest (Binary64.nearest nsec.toInt / 1000000000))

/-- `int(x)` of a `float64`: the fraction is dropped. -/
def int (x : ℚ) : Int := if 0 ≤ x then ⌊x⌋ else ⌈x⌉

/-- What the handlers write to `Retry-After`: `max(int(retry.Seconds()), 1)`. -/
def retryAfter (retry : Duration) : Int := max (int (Duration.seconds retry)) 1

/-! ## Differences

A difference of two times is clamped to what a duration can hold. A comparison with a
duration does not notice, and neither does a difference that fits. -/

theorem toInt_sub (t u : Int) : (sub t u).toInt = max (-2 ^ 63) (min (2 ^ 63 - 1) (t - u)) := by
  unfold sub Int64.ofIntClamp
  split
  · split
    · rw [Int64.toInt_ofIntLE]
      simp only [Int64.toInt_minValue, Int64.toInt_maxValue] at *
      omega
    · simp only [Int64.toInt_minValue, Int64.toInt_maxValue] at *
      omega
  · simp only [Int64.toInt_minValue] at *
    omega

theorem toInt_sub_of_fits {t u : Int} (h : u ≤ t) (hfits : t - u < 2 ^ 63) :
    (sub t u).toInt = t - u := by
  rw [toInt_sub]
  omega

/-- A bound that is a duration is not blurred by the saturation. -/
theorem le_sub_iff {d : Duration} {t u : Int} (h : u ≤ t) : d ≤ sub t u ↔ u + d.toInt ≤ t := by
  have hlow := d.le_toInt
  have hhigh := d.toInt_lt
  rw [Int64.le_iff_toInt_le, toInt_sub]
  omega

theorem toInt_max (a b : Duration) : (max a b).toInt = max a.toInt b.toInt := by
  rw [show max a b = if a ≤ b then b else a from rfl]
  split <;> rename_i h <;> rw [Int64.le_iff_toInt_le] at h <;> omega

theorem toInt_second : second.toInt = 1000000000 := by decide

/-- What is left of a wait that began at `u`, as long as it lasts. -/
theorem toInt_left {d : Duration} {t u : Int} (hstart : u ≤ t) (hlast : t < u + d.toInt) :
    (d - sub t u).toInt = u + d.toInt - t := by
  have hhigh := d.toInt_lt
  have hsub : (sub t u).toInt = t - u := toInt_sub_of_fits hstart (by omega)
  rw [Int64.toInt_sub_of_le, hsub]
  · omega
  · rw [Int64.le_iff_toInt_le, hsub, Int64.toInt_zero]
    omega
  · rw [Int64.le_iff_toInt_le, hsub]
    omega

/-! ## Whole seconds

`Seconds` goes through two roundings of a `float64`. Below 2^20 seconds they do not reach
the next whole second, so that the conversion to an integer drops the fraction of the exact
quotient. -/

theorem toInt_div_second {d : Duration} (h : 0 ≤ d.toInt) :
    (d / second).toInt = d.toInt / 1000000000 := by
  have hhigh := d.toInt_lt
  rw [Int64.toInt_div, toInt_second, Int.tdiv_eq_ediv_of_nonneg h, Int.bmod_eq_of_le] <;> omega

theorem toInt_mod_second {d : Duration} (h : 0 ≤ d.toInt) :
    (d % second).toInt = d.toInt % 1000000000 := by
  rw [Int64.toInt_mod, toInt_second, Int.tmod_eq_emod_of_nonneg h]

/-- Half a unit in the last place stays below a nanosecond. -/
theorem nearest_second {sec nsec : Int} (hsec : 0 ≤ sec) (hsmall : sec < 2 ^ 20) (hnsec : 0 ≤ nsec)
    (hbelow : nsec < 1000000000) :
    (sec : ℚ) ≤ Binary64.nearest (sec + Binary64.nearest (nsec / 1000000000)) ∧
      Binary64.nearest (sec + Binary64.nearest (nsec / 1000000000)) < sec + 1 := by
  rcases hnsec.eq_or_lt with rfl | hpos
  · have hexact : Binary64.nearest (sec : ℚ) = sec :=
      Binary64.nearest_intCast (by rw [abs_of_nonneg hsec]; omega)
    simp [hexact]
  have hlow : (1 : ℚ) / 1000000000 ≤ nsec / 1000000000 := by
    gcongr
    exact_mod_cast hpos
  have hhigh : (nsec : ℚ) / 1000000000 ≤ 999999999 / 1000000000 := by
    gcongr
    exact_mod_cast Int.le_sub_one_of_lt hbelow
  have hsec' : (0 : ℚ) ≤ sec := by exact_mod_cast hsec
  have hsmall' : (sec : ℚ) ≤ 2 ^ 20 - 1 := by exact_mod_cast Int.le_sub_one_of_lt hsmall
  have hfraction := abs_le.mp (Binary64.abs_nearest_sub_le_zpow (x := nsec / 1000000000) (n := 0)
    (abs_lt.mpr ⟨by norm_num; linarith, by norm_num; linarith⟩))
  norm_num at hfraction
  have hsum := abs_le.mp (Binary64.abs_nearest_sub_le_zpow
    (x := sec + Binary64.nearest (nsec / 1000000000)) (n := 20)
    (abs_lt.mpr ⟨by norm_num; linarith, by norm_num; linarith⟩))
  norm_num at hsum
  constructor <;> linarith

/-- Below twelve days the float drops exactly the nanoseconds. -/
theorem int_seconds {d : Duration} (h : 0 ≤ d.toInt) (hsmall : d.toInt < 2 ^ 20 * 1000000000) :
    int (Duration.seconds d) = d.toInt / 1000000000 := by
  have hsec : 0 ≤ d.toInt / 1000000000 := by omega
  have hbelow : d.toInt / 1000000000 < 2 ^ 20 := by omega
  have hnsec : 0 ≤ d.toInt % 1000000000 := Int.emod_nonneg _ (by decide)
  have hlast : d.toInt % 1000000000 < 1000000000 := Int.emod_lt_of_pos _ (by decide)
  have hround := nearest_second hsec hbelow hnsec hlast
  unfold Duration.seconds
  dsimp only
  rw [toInt_div_second h, toInt_mod_second h,
    Binary64.nearest_intCast (by rw [abs_of_nonneg hsec]; omega),
    Binary64.nearest_intCast (by rw [abs_of_nonneg hnsec]; omega)]
  rw [int, if_pos (le_trans (by exact_mod_cast hsec) hround.1)]
  exact Int.floor_eq_iff.mpr hround

end Cfscan.Limits
