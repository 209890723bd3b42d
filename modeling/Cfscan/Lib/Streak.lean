import Mathlib.Data.List.Induction

/-!
# Streaks — the trailing run of a history

A counter that goes up on every bad event, is cleared by every good one, and remembers a label of
the last bad event, against what it means: the length of the maximal run of bad events at the end
of the history.
-/

set_option autoImplicit false

namespace Cfscan.Lib

variable {α β : Type} (bad : α → Bool) (label : α → β)

def streakStep (acc : Option (β × Nat)) (a : α) : Option (β × Nat) :=
  if bad a then some (label a, (acc.map Prod.snd).getD 0 + 1) else none

/-- The counter after a history. -/
def streak (history : List α) : Option (β × Nat) := history.foldl (streakStep bad label) none

/-- The length of the maximal run of bad events at the end. -/
def trailing (history : List α) : Nat := (history.reverse.takeWhile bad).length

@[simp] theorem streak_concat (history : List α) (a : α) :
    streak bad label (history ++ [a]) = streakStep bad label (streak bad label history) a := by
  simp [streak]

@[simp] theorem trailing_concat (history : List α) (a : α) :
    trailing bad (history ++ [a]) = if bad a then trailing bad history + 1 else 0 := by
  unfold trailing
  rw [List.reverse_append, List.reverse_singleton, List.singleton_append, List.takeWhile_cons]
  split <;> rfl

/-- The run is empty exactly when the counter is clear. -/
theorem streak_snd (history : List α) :
    ((streak bad label history).map Prod.snd).getD 0 = trailing bad history := by
  induction history using List.reverseRecOn with
  | nil => rfl
  | append_singleton history a ih =>
    rw [streak_concat, trailing_concat, streakStep, ih]
    split <;> rfl

/-- **The counter is set exactly when the last event is bad, and counts the trailing run.** -/
theorem streak_eq_some {history : List α} {b : β} {n : Nat} :
    streak bad label history = some (b, n) ↔
      ∃ a, history.getLast? = some a ∧ bad a = true ∧ b = label a ∧ n = trailing bad history := by
  induction history using List.reverseRecOn with
  | nil => simp [streak]
  | append_singleton history a _ =>
    rw [streak_concat, trailing_concat, streakStep, streak_snd]
    have hlast : (history ++ [a]).getLast? = some a := List.getLast?_concat
    rw [hlast]
    constructor
    · intro h
      split at h
      · rename_i ha
        cases h
        exact ⟨a, rfl, ha, rfl, (if_pos ha).symm⟩
      · cases h
    · rintro ⟨a', ha', ha, rfl, rfl⟩
      cases ha'
      rw [if_pos ha, if_pos ha]

end Cfscan.Lib
