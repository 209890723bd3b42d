import Mathlib.Data.List.Basic

/-!
# What holds along a run

A run is a list of acts folded over a state. `Along step P s acts` says `P` of every act, at the
state the act meets; the lemmas carry an invariant through such a run, and read one condition
along a run off another.

`P` is asked of an act **before** it is made, and of every act of the run. A condition of this kind
is weaker than one on all reachable states, and it is what a result about runs can ask when a single
step may go wrong.
-/

set_option autoImplicit false

namespace Cfscan.Lib

variable {σ α : Type}

def Along (step : σ → α → σ) (P : σ → α → Prop) : σ → List α → Prop
  | _, [] => True
  | s, a :: acts => P s a ∧ Along step P (step s a) acts

def decideAlong (step : σ → α → σ) (P : σ → α → Prop) [∀ s a, Decidable (P s a)] :
    (s : σ) → (acts : List α) → Decidable (Along step P s acts)
  | _, [] => inferInstanceAs (Decidable True)
  | s, a :: acts =>
    have := decideAlong step P (step s a) acts
    inferInstanceAs (Decidable (_ ∧ _))

instance (step : σ → α → σ) (P : σ → α → Prop) [∀ s a, Decidable (P s a)] (s : σ)
    (acts : List α) : Decidable (Along step P s acts) :=
  decideAlong step P s acts

variable {step : σ → α → σ} {P Q : σ → α → Prop} {s : σ} {acts more : List α}

/-- An invariant that a step keeps under the condition holds after the run. -/
theorem Along.invariant (Inv : σ → Prop) (h : Along step P s acts) (hs : Inv s)
    (hstep : ∀ s a, Inv s → P s a → Inv (step s a)) : Inv (acts.foldl step s) := by
  induction acts generalizing s with
  | nil => exact hs
  | cons a acts ih => exact ih h.2 (hstep s a hs h.1)

/-- Along a run under a condition, an invariant can serve to show another condition. -/
theorem Along.sound {Inv : σ → Prop} (h : Along step P s acts) (hs : Inv s)
    (hstep : ∀ s a, Inv s → P s a → Inv (step s a) ∧ Q s a) : Along step Q s acts := by
  induction acts generalizing s with
  | nil => trivial
  | cons a acts ih =>
    obtain ⟨hs', hq⟩ := hstep s a hs h.1
    exact ⟨hq, ih h.2 hs'⟩

theorem Along.and (h : Along step P s acts) (h' : Along step Q s acts) :
    Along step (fun s a => P s a ∧ Q s a) s acts := by
  induction acts generalizing s with
  | nil => trivial
  | cons a acts ih => exact ⟨⟨h.1, h'.1⟩, ih h.2 h'.2⟩

theorem along_append :
    Along step P s (acts ++ more) ↔ Along step P s acts ∧ Along step P (acts.foldl step s) more := by
  induction acts generalizing s with
  | nil => exact ⟨fun h => ⟨trivial, h⟩, And.right⟩
  | cons a acts ih =>
    constructor
    · rintro ⟨ha, hrest⟩
      obtain ⟨hacts, hmore⟩ := ih.mp hrest
      exact ⟨⟨ha, hacts⟩, hmore⟩
    · rintro ⟨⟨ha, hacts⟩, hmore⟩
      exact ⟨ha, ih.mpr ⟨hacts, hmore⟩⟩

end Cfscan.Lib
