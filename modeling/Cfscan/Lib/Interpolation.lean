import Mathlib.Algebra.Order.Floor.Ring
import Mathlib.Algebra.Order.Floor.Semiring
import Mathlib.Tactic.Linarith
import Mathlib.Tactic.Ring

/-!
# Piecewise-linear interpolation

`interpolate y x` is the height at `x` of the broken line through the points `(i, y i)`. It is the
chord of every cell `x` lies in (`interpolate_cell`), which at a corner are two, and it rises where
the points do (`interpolate_mono`).

The points are those of a function on the natural numbers, so that no cell is the last one. Where a
list of points ends, what lies beyond is not looked at, and its value does not matter.
-/

set_option autoImplicit false

namespace Cfscan.Lib

variable {K : Type} [Field K] [LinearOrder K] [IsStrictOrderedRing K] [FloorRing K]

/-- The chord from `(i, y i)` to the next point. -/
def chord (y : ℕ → K) (i : ℕ) (x : K) : K := y i + (x - i) * (y (i + 1) - y i)

def interpolate (y : ℕ → K) (x : K) : K := chord y ⌊x⌋₊ x

variable {y : ℕ → K} {x x' : K} {i : ℕ}

omit [LinearOrder K] [IsStrictOrderedRing K] [FloorRing K] in
@[simp] theorem chord_left (y : ℕ → K) (i : ℕ) : chord y i i = y i := by
  simp [chord]

omit [LinearOrder K] [IsStrictOrderedRing K] [FloorRing K] in
@[simp] theorem chord_right (y : ℕ → K) (i : ℕ) : chord y i (i + 1) = y (i + 1) := by
  simp [chord]

@[simp] theorem interpolate_natCast (y : ℕ → K) (n : ℕ) : interpolate y n = y n := by
  rw [interpolate, Nat.floor_natCast, chord_left]

/-- Both chords at a corner meet there. -/
theorem interpolate_cell (h : (i : K) ≤ x) (h' : x ≤ i + 1) : interpolate y x = chord y i x := by
  rcases h'.lt_or_eq with hlt | rfl
  · rw [interpolate, (Nat.floor_eq_iff (le_trans (Nat.cast_nonneg i) h)).mpr ⟨h, hlt⟩]
  · rw [chord_right, ← Nat.cast_succ, interpolate_natCast]

omit [FloorRing K] in
theorem chord_mono (hy : Monotone y) (h : x ≤ x') : chord y i x ≤ chord y i x' := by
  have hrise : 0 ≤ y (i + 1) - y i := sub_nonneg.mpr (hy (Nat.le_succ i))
  have hstep := mul_le_mul_of_nonneg_right (sub_le_sub_right h (i : K)) hrise
  unfold chord
  linarith

/-- **The line rises with its points.** -/
theorem interpolate_mono (hy : Monotone y) (hx : 0 ≤ x) (h : x ≤ x') :
    interpolate y x ≤ interpolate y x' := by
  have hx' : 0 ≤ x' := hx.trans h
  rcases (Nat.floor_mono h).lt_or_eq with hlt | heq
  · -- a corner lies between the two
    calc interpolate y x
        ≤ chord y ⌊x⌋₊ (⌊x⌋₊ + 1) := chord_mono hy (Nat.lt_floor_add_one x).le
      _ = y (⌊x⌋₊ + 1) := chord_right y _
      _ ≤ y ⌊x'⌋₊ := hy hlt
      _ = chord y ⌊x'⌋₊ ⌊x'⌋₊ := (chord_left y _).symm
      _ ≤ interpolate y x' := chord_mono hy (Nat.floor_le hx')
  · unfold interpolate
    rw [← heq]
    exact chord_mono hy h

end Cfscan.Lib
