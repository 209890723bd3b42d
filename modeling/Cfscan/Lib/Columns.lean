import Mathlib.Data.List.Basic
import Mathlib.Data.List.Forall2
import Mathlib.Data.List.Nodup
import Mathlib.Logic.Function.Basic

/-!
# Rows by columns

A row is what stands in each column. A statement names columns and gives expressions for them, most
of them parameters by their number; what a column makes of a value, or that it refuses it, is
`store`. `assign_of_mem` reads the values a statement wrote, by the names of their columns and not
by their places.

What stands under a column that a statement does not name is what stood there before
(`assign_of_not_mem`), and a statement that one of its columns refuses assigns nothing
(`exists_assign_iff`). A column that is named twice gets the last of its values.
-/

set_option autoImplicit false

namespace Cfscan.Lib

/-- An expression of a statement: a parameter, or a value of its own. -/
inductive Operand (ν : Type) where
  /-- `$n` -/
  | param (n : Nat)
  | value (v : ν)

/-- What is read of rows, one by one: each item is of a row. -/
theorem exists_of_forall₂ {α β : Type} {R : α → β → Prop} {l : List α} {l' : List β}
    (h : List.Forall₂ R l l') {b : β} (hb : b ∈ l') : ∃ a ∈ l, R a b := by
  induction h with
  | nil => cases hb
  | cons hr _ ih =>
    rcases List.mem_cons.mp hb with rfl | hb
    · exact ⟨_, List.mem_cons_self, hr⟩
    · obtain ⟨a, ha, hab⟩ := ih hb
      exact ⟨a, List.mem_cons_of_mem _ ha, hab⟩

variable {γ ν : Type} [DecidableEq γ]

/-- Parameters are numbered from one. -/
def Operand.eval (args : List ν) : Operand ν → Option ν
  | .param n => if n = 0 then none else args[n - 1]?
  | .value v => some v

/-- The assignments of a statement to one row, in order; `none` when a column refuses its value. -/
def assign (store : γ → ν → Option ν) (args : List ν) :
    List (γ × Operand ν) → (γ → ν) → Option (γ → ν)
  | [], row => some row
  | (c, x) :: rest, row =>
    match x.eval args with
    | none => none
    | some v =>
      match store c v with
      | none => none
      | some w => assign store args rest (Function.update row c w)

variable {store : γ → ν → Option ν} {args : List ν} {sets : List (γ × Operand ν)} {row row' : γ → ν}
  {c : γ}

theorem assign_cons {x : Operand ν} :
    assign store args ((c, x) :: sets) row = some row' ↔
      ∃ v w, x.eval args = some v ∧ store c v = some w ∧
        assign store args sets (Function.update row c w) = some row' := by
  rw [assign]
  cases x.eval args with
  | none => simp
  | some v => cases hstore : store c v <;> simp [hstore]

/-- A statement is refused for the values it gives, whatever stood in the row. -/
theorem exists_assign_iff : (∃ row', assign store args sets row = some row') ↔
    ∀ set ∈ sets, ∃ w, (set.2.eval args).bind (store set.1) = some w := by
  induction sets generalizing row with
  | nil => exact iff_of_true ⟨row, rfl⟩ fun set h => by cases h
  | cons set sets ih =>
    obtain ⟨c, x⟩ := set
    rw [List.forall_mem_cons]
    constructor
    · rintro ⟨row', hassign⟩
      obtain ⟨v, w, hv, hw, hrest⟩ := assign_cons.mp hassign
      exact ⟨⟨w, Option.bind_eq_some_iff.mpr ⟨v, hv, hw⟩⟩, ih.mp ⟨row', hrest⟩⟩
    · rintro ⟨⟨w, hfirst⟩, hall⟩
      obtain ⟨v, hv, hw⟩ := Option.bind_eq_some_iff.mp hfirst
      obtain ⟨row', hrest⟩ := ih.mpr hall
      exact ⟨row', assign_cons.mpr ⟨v, w, hv, hw, hrest⟩⟩

/-- A statement by the cells it writes: it is refused when a column refuses its own. -/
theorem exists_assign_iff_cells {cells : List (γ × ν)}
    (hcells : sets.map (fun set => (set.1, set.2.eval args)) =
      cells.map fun cell => (cell.1, some cell.2)) :
    (∃ row', assign store args sets row = some row') ↔
      ∀ cell ∈ cells, ∃ w, store cell.1 cell.2 = some w := by
  have hsets : (∀ set ∈ sets, ∃ w, (set.2.eval args).bind (store set.1) = some w) ↔
      ∀ pair ∈ sets.map fun set => (set.1, set.2.eval args),
        ∃ w, pair.2.bind (store pair.1) = some w := by
    rw [List.forall_mem_map]
  rw [exists_assign_iff, hsets, hcells, List.forall_mem_map]
  rfl

/-- What holds of every cell of a row, and of all that the columns store, holds after a statement. -/
theorem assign_forall {p : γ → ν → Prop} (hstore : ∀ c v w, store c v = some w → p c w)
    (h : assign store args sets row = some row') (hrow : ∀ c, p c (row c)) : ∀ c, p c (row' c) := by
  induction sets generalizing row with
  | nil =>
    cases h
    exact hrow
  | cons set sets ih =>
    obtain ⟨c', x⟩ := set
    obtain ⟨v, w, -, hw, hrest⟩ := assign_cons.mp h
    refine ih hrest fun c => ?_
    by_cases hc : c = c'
    · subst hc
      rw [Function.update_self]
      exact hstore c v w hw
    · rw [Function.update_of_ne hc]
      exact hrow c

/-- A statement leaves the columns it does not name. -/
theorem assign_of_not_mem (h : assign store args sets row = some row')
    (hc : c ∉ sets.map Prod.fst) : row' c = row c := by
  induction sets generalizing row with
  | nil => cases h; rfl
  | cons set sets ih =>
    obtain ⟨c', x⟩ := set
    obtain ⟨v, w, -, -, hrest⟩ := assign_cons.mp h
    rw [List.map_cons, List.mem_cons, not_or] at hc
    rw [ih hrest hc.2, Function.update_of_ne hc.1]

/-- A column that is named once holds what the column makes of the value given for it. -/
theorem assign_of_mem (h : assign store args sets row = some row')
    (hnodup : (sets.map Prod.fst).Nodup) {x : Operand ν} (hmem : (c, x) ∈ sets) :
    (x.eval args).bind (store c) = some (row' c) := by
  induction sets generalizing row with
  | nil => cases hmem
  | cons set sets ih =>
    obtain ⟨c', x'⟩ := set
    obtain ⟨v, w, hv, hw, hrest⟩ := assign_cons.mp h
    rw [List.map_cons, List.nodup_cons] at hnodup
    rcases List.mem_cons.mp hmem with heq | hmem
    · cases heq
      rw [assign_of_not_mem hrest hnodup.1, Function.update_self, hv]
      exact hw
    · exact ih hrest hnodup.2 hmem

end Cfscan.Lib
