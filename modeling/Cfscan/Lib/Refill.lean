import Cfscan.Lib.Table

/-!
# Rows that are switched off and on again

A table can keep the rows it no longer wants, switched off by a flag: `On on t k`, a row under `k`
that is switched on. A refill switches the stale keys off and then puts rows that are on, one by
one. `Refilled on stale ks t t'` is what it has done once the rows under `ks` are put: what was on
and is not stale, and `ks`.
-/

set_option autoImplicit false

namespace Cfscan.Lib

variable {κ ρ : Type} [DecidableEq κ] {key : ρ → κ} {on : ρ → Bool} {t t' : Table κ ρ key}

def On (on : ρ → Bool) (t : Table κ ρ key) (k : κ) : Prop :=
  ∃ r, t.find? k = some r ∧ on r = true

theorem not_on_empty {k : κ} : ¬ On on (Table.empty : Table κ ρ key) k := by
  rintro ⟨r, hr, -⟩
  cases hr

theorem on_of_mem {r : ρ} (hr : r ∈ t.rows) (h : on r = true) : On on t (key r) :=
  ⟨r, Table.find?_key hr, h⟩

theorem on_iff {k : κ} : On on t k ↔ ∃ r ∈ t.rows, on r = true ∧ key r = k := by
  constructor
  · rintro ⟨r, hr, h⟩
    exact ⟨r, Table.mem_of_find? hr, h, Table.key_of_find? hr⟩
  · rintro ⟨r, hr, h, rfl⟩
    exact on_of_mem hr h

theorem on_put {r : ρ} (h : on r = true) {k : κ} : On on (t.put r) k ↔ k = key r ∨ On on t k := by
  unfold On
  rw [Table.find?_put]
  by_cases hk : key r = k
  · simp [hk, h]
  · simp [hk, Ne.symm hk]

theorem on_keepWhere {p : ρ → Bool} {q : κ → Prop} (hp : ∀ r, p r = true ↔ q (key r)) {k : κ} :
    On on (t.keepWhere p) k ↔ On on t k ∧ q k := by
  simp only [on_iff, Table.mem_keepWhere, hp]
  constructor
  · rintro ⟨r, ⟨hr, hq⟩, h, rfl⟩
    exact ⟨⟨r, hr, h, rfl⟩, hq⟩
  · rintro ⟨⟨r, hr, h, rfl⟩, hq⟩
    exact ⟨r, ⟨hr, hq⟩, h, rfl⟩

def Refilled (on : ρ → Bool) (stale ks : κ → Prop) (t t' : Table κ ρ key) : Prop :=
  ∀ k, On on t' k ↔ (On on t k ∧ ¬ stale k) ∨ ks k

namespace Refilled

variable {stale ks : κ → Prop}

theorem switchOff {p : ρ → Bool} {f : ρ → ρ} (hf : ∀ r, key (f r) = key r)
    (hoff : ∀ r, on (f r) = false) (hp : ∀ r ∈ t.rows, p r = true ↔ stale (key r)) :
    Refilled on stale (fun _ => False) t (t.updateWhere p f hf) := by
  intro k
  rw [or_false]
  unfold On
  rw [Table.find?_updateWhere]
  cases hr : t.find? k with
  | none => simp
  | some r =>
    obtain rfl := Table.key_of_find? hr
    have hstale := hp r (Table.mem_of_find? hr)
    by_cases hpr : p r = true
    · simp [hpr, hoff, hstale.mp hpr]
    · simp [hpr, mt hstale.mpr hpr]

theorem put (h : Refilled on stale ks t t') {r : ρ} (hr : on r = true) :
    Refilled on stale (fun k => ks k ∨ k = key r) t (t'.put r) := by
  intro k
  rw [on_put hr, h k]
  constructor
  · rintro (hk | hk | hk)
    · exact Or.inr (Or.inr hk)
    · exact Or.inl hk
    · exact Or.inr (Or.inl hk)
  · rintro (hk | hk | hk)
    · exact Or.inr (Or.inl hk)
    · exact Or.inr (Or.inr hk)
    · exact Or.inl hk

theorem congr (h : Refilled on stale ks t t') {ks' : κ → Prop} (hks : ∀ k, ks k ↔ ks' k) :
    Refilled on stale ks' t t' := fun k => (h k).trans (or_congr Iff.rfl (hks k))

end Refilled

end Cfscan.Lib
