import Mathlib.Control.Monad.Basic

/-!
# Calls that can fail

A call reads and writes a state and ends with a value or an error, the state kept either way.
`Triple P x Q E`: from a state where `P` holds, `x` ends in one where `Q` holds of its value, or
where `E` does if it fails. The rules follow the ways calls are put together.

There is one state and one kind of failure; calls that recover from an error are a `Triple` with
that error taken into the value. Nothing is said of termination, since a call is a function.
-/

set_option autoImplicit false

namespace Cfscan.Lib

variable {ε σ α β : Type} {P P' : σ → Prop} {Q Q' : α → σ → Prop} {E E' : σ → Prop}

/-- What holds after a run. -/
def Triple.Ends (Q : α → σ → Prop) (E : σ → Prop) : Except ε α × σ → Prop
  | (.ok a, s) => Q a s
  | (.error _, s) => E s

def Triple (P : σ → Prop) (x : ExceptT ε (StateM σ) α) (Q : α → σ → Prop) (E : σ → Prop) : Prop :=
  ∀ s, P s → Triple.Ends Q E (x.run.run s)

namespace Triple

theorem weaken {x : ExceptT ε (StateM σ) α} (h : Triple P x Q E) (hP : ∀ s, P' s → P s)
    (hQ : ∀ a s, Q a s → Q' a s) (hE : ∀ s, E s → E' s) : Triple P' x Q' E' := by
  intro s hs
  have hends := h s (hP s hs)
  cases hrun : x.run.run s with
  | mk result s' =>
    rw [hrun] at hends
    cases result with
    | ok a => exact hQ a s' hends
    | error error => exact hE s' hends

/-- What holds however a call ends. -/
theorem state {x : ExceptT ε (StateM σ) α} (h : Triple P x (fun _ => E) E) {s : σ} (hs : P s) :
    E (x.run.run s).2 := by
  have hends := h s hs
  cases hrun : x.run.run s with
  | mk result s' =>
    rw [hrun] at hends
    cases result with
    | ok a => exact hends
    | error error => exact hends

theorem pure {a : α} (h : ∀ s, P s → Q a s) :
    Triple P (Pure.pure a : ExceptT ε (StateM σ) α) Q E := by
  intro s hs
  exact h s hs

theorem throw {error : ε} (h : ∀ s, P s → E s) :
    Triple P (MonadExcept.throw error : ExceptT ε (StateM σ) α) Q E := by
  intro s hs
  exact h s hs

theorem bind {x : ExceptT ε (StateM σ) α} {f : α → ExceptT ε (StateM σ) β} {R : β → σ → Prop}
    (hx : Triple P x Q E) (hf : ∀ a, Triple (Q a) (f a) R E) : Triple P (x >>= f) R E := by
  intro s hs
  have hends := hx s hs
  rw [ExceptT.run_bind, StateT.run_bind]
  cases hrun : x.run.run s with
  | mk result s' =>
    rw [hrun] at hends
    cases result with
    | ok a => exact hf a s' hends
    | error error => exact hends

/-- An action that cannot fail. -/
theorem lift {x : StateM σ α} (h : ∀ s, P s → Q (x.run s).1 (x.run s).2) :
    Triple P (liftM x : ExceptT ε (StateM σ) α) Q E := by
  intro s hs
  exact h s hs

theorem ite {c : Prop} [Decidable c] {x y : ExceptT ε (StateM σ) α}
    (hx : c → Triple P x Q E) (hy : ¬ c → Triple P y Q E) :
    Triple P (if c then x else y) Q E := by
  split
  · exact hx ‹_›
  · exact hy ‹_›

end Triple

end Cfscan.Lib
