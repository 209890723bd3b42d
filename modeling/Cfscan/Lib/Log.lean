import Mathlib.Data.List.Basic

/-!
# What a log last says

A log is a list of entries, the newest at its end. `last? f log` is the answer of the newest entry
that answers `f`, and `since p log` what was logged after the newest entry that meets `p`: all of
the log when there is none. The lemmas say what one more entry does to them.

Both are about the newest entry of a kind, from opposite sides, and every lemma is for a log with
one more entry at its end: that is how a run makes it grow.
-/

set_option autoImplicit false

namespace Cfscan.Lib

variable {α β : Type} {f : α → Option β} {p : α → Bool} {log : List α} {a : α}

def last? (f : α → Option β) (log : List α) : Option β := log.reverse.findSome? f

def since (p : α → Bool) (log : List α) : List α := (log.reverse.takeWhile fun a => !p a).reverse

@[simp] theorem last?_nil : last? f [] = none := rfl

theorem last?_concat (log : List α) (a : α) : last? f (log ++ [a]) = (f a).or (last? f log) := by
  rw [last?, List.reverse_append]
  cases h : f a <;> simp [h, last?]

theorem last?_concat_of_some {b : β} (h : f a = some b) : last? f (log ++ [a]) = some b := by
  rw [last?_concat, h, Option.some_or]

theorem last?_concat_of_none (h : f a = none) : last? f (log ++ [a]) = last? f log := by
  rw [last?_concat, h, Option.none_or]

/-- An answer is that of an entry. -/
theorem exists_of_last? {b : β} (h : last? f log = some b) : ∃ a ∈ log, f a = some b := by
  obtain ⟨a, ha, hf⟩ := List.exists_of_findSome?_eq_some h
  exact ⟨a, List.mem_reverse.mp ha, hf⟩

/-- The newest answer, found in place. -/
theorem last?_of_split {b : β} {before after : List α} (ha : f a = some b)
    (hafter : ∀ x ∈ after, f x = none) : last? f (before ++ a :: after) = some b := by
  have hnone : after.reverse.findSome? f = none :=
    List.findSome?_eq_none_iff.mpr fun x hx => hafter x (List.mem_reverse.mp hx)
  simp [last?, List.findSome?_append, hnone, ha]

@[simp] theorem since_nil : since p [] = [] := rfl

theorem since_subset (p : α → Bool) (log : List α) : since p log ⊆ log := by
  intro a ha
  exact List.mem_reverse.mp ((List.takeWhile_sublist _).mem (List.mem_reverse.mp ha))

theorem since_concat_of_pos (h : p a = true) : since p (log ++ [a]) = [] := by
  simp [since, h]

theorem since_concat_of_neg (h : p a = false) : since p (log ++ [a]) = since p log ++ [a] := by
  simp [since, h]

end Cfscan.Lib
