import Mathlib.Order.Basic

/-!
# Loops that end

A `for` loop without a bound of its own: each turn either leaves with a result or goes round again
with a new state. `loop` runs it for a given number of turns, and is `none` when they do not
suffice. `loop_total` is the rule of total correctness: an invariant, and a variant that drops at
every turn.

The fuel is a number of turns, and enough of it changes nothing more: a loop that leaves within some
number of turns leaves with the same result for every larger one.
-/

set_option autoImplicit false

namespace Cfscan.Lib

inductive Turn (σ ρ : Type) where
  | leave (result : ρ)
  | again (state : σ)

variable {σ ρ : Type}

def loop (turn : σ → Turn σ ρ) : Nat → σ → Option ρ
  | 0, _ => none
  | fuel + 1, s =>
      match turn s with
      | .leave result => some result
      | .again s' => loop turn fuel s'

theorem loop_leave {turn : σ → Turn σ ρ} {s : σ} {result : ρ} (h : turn s = .leave result)
    (fuel : Nat) : loop turn (fuel + 1) s = some result := by
  rw [loop, h]

theorem loop_again {turn : σ → Turn σ ρ} {s s' : σ} (h : turn s = .again s') (fuel : Nat) :
    loop turn (fuel + 1) s = loop turn fuel s' := by
  rw [loop, h]

/-- **Total correctness.** From a state of the invariant, the loop leaves with a result of the
postcondition, within one turn more than the variant. -/
theorem loop_total (turn : σ → Turn σ ρ) (Inv : σ → Prop) (Post : ρ → Prop) (variant : σ → Nat)
    (hleave : ∀ s result, Inv s → turn s = .leave result → Post result)
    (hagain : ∀ s s', Inv s → turn s = .again s' → Inv s' ∧ variant s' < variant s)
    {s : σ} (hs : Inv s) :
    ∃ result, Post result ∧ ∀ fuel, variant s < fuel → loop turn fuel s = some result := by
  induction hv : variant s using Nat.strongRecOn generalizing s with
  | ind v ih =>
    cases hturn : turn s with
    | leave result =>
      refine ⟨result, hleave s result hs hturn, fun fuel hfuel => ?_⟩
      obtain ⟨fuel, rfl⟩ : ∃ n, fuel = n + 1 := ⟨fuel - 1, by omega⟩
      exact loop_leave hturn fuel
    | again s' =>
      obtain ⟨hs', hlt⟩ := hagain s s' hs hturn
      obtain ⟨result, hpost, hrun⟩ := ih (variant s') (hv ▸ hlt) hs' rfl
      refine ⟨result, hpost, fun fuel hfuel => ?_⟩
      obtain ⟨fuel, rfl⟩ : ∃ n, fuel = n + 1 := ⟨fuel - 1, by omega⟩
      rw [loop_again hturn]
      exact hrun fuel (by omega)

end Cfscan.Lib
