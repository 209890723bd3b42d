import Mathlib.Logic.Function.Basic
import Mathlib.Data.List.Basic

/-!
# Slots under keys

A map holds one slot for each key, and a call reads and writes the slot of its own key only. What
is answered under one key is then what the calls of that key would be answered alone
(`Keyed.answers_filter`), and the calls of other keys leave its slot where it was (`Keyed.final_of_ne`).

The calls of one key are answered in their own order. Nothing else of the order of the whole list
shows, which is what `answers_filter` says.
-/

set_option autoImplicit false

namespace Cfscan.Lib

/-- A call of type `γ` belongs to a key and turns the slot there, which may be absent, into an answer
and the slot it leaves. -/
structure Keyed (κ γ σ ρ : Type) where
  key : γ → κ
  slot : γ → Option σ → ρ × Option σ

namespace Keyed

variable {κ γ σ ρ : Type} [DecidableEq κ] (k : Keyed κ γ σ ρ)

def serve (m : κ → Option σ) (c : γ) : ρ × (κ → Option σ) :=
  let r := k.slot c (m (k.key c))
  (r.1, Function.update m (k.key c) r.2)

/-- The calls with their answers. -/
def answers : (κ → Option σ) → List γ → List (γ × ρ)
  | _, [] => []
  | m, c :: calls => (c, (k.serve m c).1) :: answers (k.serve m c).2 calls

def final (m : κ → Option σ) (calls : List γ) : κ → Option σ :=
  calls.foldl (fun m c => (k.serve m c).2) m

variable {k} {m m' : κ → Option σ} {c : γ} {calls more : List γ} {key : κ}

theorem serve_of_ne (h : k.key c ≠ key) : (k.serve m c).2 key = m key :=
  Function.update_of_ne h.symm _ _

theorem serve_self : (k.serve m c).2 (k.key c) = (k.slot c (m (k.key c))).2 :=
  Function.update_self ..

theorem serve_congr (h : m (k.key c) = m' (k.key c)) :
    (k.serve m c).1 = (k.serve m' c).1 ∧
      (k.serve m c).2 (k.key c) = (k.serve m' c).2 (k.key c) := by
  refine ⟨congrArg (fun slot => (k.slot c slot).1) h, ?_⟩
  rw [serve_self, serve_self, h]

@[simp] theorem final_append : k.final m (calls ++ more) = k.final (k.final m calls) more :=
  List.foldl_append

theorem answers_append :
    k.answers m (calls ++ more) = k.answers m calls ++ k.answers (k.final m calls) more := by
  induction calls generalizing m with
  | nil => rfl
  | cons c calls ih => exact congrArg _ ih

theorem map_fst_answers : (k.answers m calls).map Prod.fst = calls := by
  induction calls generalizing m with
  | nil => rfl
  | cons c calls ih => exact congrArg _ ih

theorem final_of_ne (h : ∀ c ∈ calls, k.key c ≠ key) : k.final m calls key = m key := by
  induction calls generalizing m with
  | nil => rfl
  | cons c calls ih =>
    have hrest := ih (m := (k.serve m c).2) fun c' hc' => h c' (List.mem_cons_of_mem c hc')
    exact hrest.trans (serve_of_ne (h c List.mem_cons_self))

/-- A key is answered as if its calls were the only ones. -/
theorem answers_filter (h : m key = m' key) :
    (k.answers m calls).filter (fun a => k.key a.1 = key) =
      k.answers m' (calls.filter fun c => k.key c = key) := by
  induction calls generalizing m m' with
  | nil => rfl
  | cons c calls ih =>
    by_cases hkey : k.key c = key
    · subst hkey
      have hserve := serve_congr (k := k) h
      simp only [answers, List.filter_cons, decide_true, if_true]
      rw [ih hserve.2, hserve.1]
    · simp only [answers, List.filter_cons, hkey, decide_false, Bool.false_eq_true, if_false]
      exact ih ((serve_of_ne hkey).trans h)

end Keyed

end Cfscan.Lib
