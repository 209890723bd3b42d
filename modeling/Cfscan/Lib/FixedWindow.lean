import Mathlib.Algebra.Order.Group.Defs
import Mathlib.Data.List.Basic

/-!
# Admissions in fixed windows

A window of length `width` starts with an admission and takes in at most `limit` of them; the next
one starts with the first admission after it is over. So two windows can meet in an interval of
that length, and since the earlier one has its first admission outside it, at most `2 * limit - 1`
admissions stand there (`Windows.count_lt`).

`Windows` is about a list of times, the admissions in their order. How a caller decides on them, and
what it keeps for it, plays no part.
-/

set_option autoImplicit false

namespace Cfscan.Lib

variable {τ : Type} [AddCommGroup τ] [LinearOrder τ]

/-- The admissions so far in their order, the start of the last window and the number it has taken
in. -/
inductive Windows (width : τ) (limit : Nat) : List τ → τ → Nat → Prop where
  | first (t : τ) : Windows width limit [t] t 1
  | more {ts : List τ} {start t : τ} {n : Nat} (h : Windows width limit ts start n)
      (hroom : n < limit) (hlast : ∀ u ∈ ts, u ≤ t) : Windows width limit (ts ++ [t]) start (n + 1)
  | next {ts : List τ} {start t : τ} {n : Nat} (h : Windows width limit ts start n)
      (hover : start + width ≤ t) (hlast : ∀ u ∈ ts, u ≤ t) : Windows width limit (ts ++ [t]) t 1

def within (width t u : τ) : Prop := t ≤ u ∧ u < t + width

instance (width t u : τ) : Decidable (within width t u) := inferInstanceAs (Decidable (_ ∧ _))

namespace Windows

variable {width : τ} {limit n : Nat} {ts : List τ} {start t : τ}

theorem count_le (hlimit : 1 ≤ limit) (h : Windows width limit ts start n) : n ≤ limit := by
  cases h with
  | first => exact hlimit
  | more _ hroom => exact hroom
  | next => exact hlimit

/-- The window is the last `n` admissions, the first of them at its start; what came before is not
later than the start. -/
theorem split (h : Windows width limit ts start n) :
    ∃ old rest, ts = old ++ start :: rest ∧ rest.length + 1 = n ∧ (∀ u ∈ old, u ≤ start) ∧
      ∀ u ∈ rest, start ≤ u := by
  induction h with
  | first t => exact ⟨[], [], rfl, rfl, nofun, nofun⟩
  | @more ts start t n h hroom hlast ih =>
    obtain ⟨old, rest, rfl, hn, hold, hrest⟩ := ih
    refine ⟨old, rest ++ [t], by simp, by simp [hn], hold, fun u hu => ?_⟩
    rcases List.mem_append.mp hu with hu | hu
    · exact hrest u hu
    · rw [List.mem_singleton.mp hu]
      exact hlast start (by simp)
  | @next ts start t n h hover hlast ih => exact ⟨ts, [], rfl, rfl, hlast, nofun⟩

theorem start_mem (h : Windows width limit ts start n) : start ∈ ts := by
  obtain ⟨old, rest, rfl, -⟩ := h.split
  exact List.mem_append_right _ List.mem_cons_self

/-- The window itself is recent as long as it lasts. -/
theorem le_countP (h : Windows width limit ts start n) {p : τ → Bool}
    (hp : ∀ u, start ≤ u → u ∈ ts → p u = true) : n ≤ ts.countP p := by
  obtain ⟨old, rest, rfl, hn, -, hrest⟩ := h.split
  have hwindow : (start :: rest).countP p = (start :: rest).length := by
    refine List.countP_eq_length.mpr fun u hu => ?_
    rcases List.mem_cons.mp hu with rfl | hmem
    · exact hp u le_rfl (List.mem_append_right _ hu)
    · exact hp u (hrest u hmem) (List.mem_append_right _ hu)
  rw [List.countP_append, hwindow, List.length_cons, hn]
  exact Nat.le_add_left _ _

/-- After the start of a window only its other admissions come. -/
theorem countP_after_start (h : Windows width limit ts start n) :
    ts.countP (fun u => decide (start < u)) + 1 ≤ n := by
  obtain ⟨old, rest, rfl, hn, hold, -⟩ := h.split
  have hnone : old.countP (fun u => decide (start < u)) = 0 :=
    List.countP_eq_zero.mpr fun u hu => by simpa using hold u hu
  have hrest : rest.countP (fun u => decide (start < u)) ≤ rest.length := List.countP_le_length
  rw [List.countP_append, List.countP_cons, hnone]
  simp only [lt_irrefl, decide_false, Bool.false_eq_true, if_false]
  omega

variable [IsOrderedAddMonoid τ]

/-- **At most `2 * limit - 1` admissions stand in an interval as long as a window.** -/
theorem count_lt (hlimit : 1 ≤ limit) (h : Windows width limit ts start n) (t : τ) :
    ts.countP (fun u => decide (within width t u)) < 2 * limit ∧
      (start < t + width → ts.countP (fun u => decide (within width t u)) < n + limit) := by
  induction h with
  | first s =>
    have hone := List.countP_le_length (p := fun u => decide (within width t u)) (l := [s])
    rw [List.length_singleton] at hone
    omega
  | @more ts start u n h hroom hlast ih =>
    have hstart : start ≤ u := hlast start h.start_mem
    rw [List.countP_append, List.countP_singleton]
    split
    case isTrue hin =>
      have hmeets : start < t + width := hstart.trans_lt (of_decide_eq_true hin).2
      have hcount := ih.2 hmeets
      omega
    case isFalse =>
      exact ⟨by simpa using ih.1, fun hmeets => by have := ih.2 hmeets; omega⟩
  | @next ts start u n h hover hlast ih =>
    -- An interval that reaches the new window begins after the last one did.
    have hfew : u < t + width → ts.countP (fun u => decide (within width t u)) < limit := by
      intro hmeets
      have hafter : start < t := lt_of_add_lt_add_right (hover.trans_lt hmeets)
      have hsub : ts.countP (fun u => decide (within width t u)) ≤
          ts.countP fun u => decide (start < u) :=
        List.countP_mono_left fun v _ hv =>
          decide_eq_true (hafter.trans_le (of_decide_eq_true hv).1)
      have hrest := h.countP_after_start
      have hn := h.count_le hlimit
      omega
    rw [List.countP_append, List.countP_singleton]
    split
    case isTrue hin =>
      have hcount := hfew (of_decide_eq_true hin).2
      omega
    case isFalse =>
      exact ⟨by simpa using ih.1, fun hmeets => by have := hfew hmeets; omega⟩

end Windows

end Cfscan.Lib
