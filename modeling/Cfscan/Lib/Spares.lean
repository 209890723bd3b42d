import Cfscan.Lib.Table

/-!
# Rows a statement leaves alone

`Spares foreign t t'`: on the rows that are `foreign`, the tables `t` and `t'` are the same. Each
way of writing a table spares the rows it does not meet.
-/

set_option autoImplicit false

namespace Cfscan.Lib.Table

variable {κ ρ : Type} [DecidableEq κ] {key : ρ → κ}

def Spares (foreign : ρ → Prop) (t t' : Table κ ρ key) : Prop :=
  ∀ row, foreign row → (row ∈ t'.rows ↔ row ∈ t.rows)

variable {foreign foreign' : ρ → Prop} {t t' t'' : Table κ ρ key}

omit [DecidableEq κ] in
theorem Spares.refl (foreign : ρ → Prop) (t : Table κ ρ key) : Spares foreign t t :=
  fun _ _ => Iff.rfl

omit [DecidableEq κ] in
theorem Spares.trans (h : Spares foreign t t') (h' : Spares foreign' t' t'')
    (hforeign : ∀ row, foreign row → foreign' row) : Spares foreign t t'' :=
  fun row hrow => (h' row (hforeign row hrow)).trans (h row hrow)

omit [DecidableEq κ] in
theorem Spares.updateWhere {p : ρ → Bool} {f : ρ → ρ} (hf : ∀ row, key (f row) = key row)
    (hown : ∀ row ∈ t.rows, p row = true → ¬ foreign row ∧ ¬ foreign (f row)) :
    Spares foreign t (t.updateWhere p f hf) := by
  intro row hrow
  rw [mem_updateWhere]
  constructor
  · rintro ⟨old, hold, hnew⟩
    split at hnew
    · rename_i hp
      rw [← hnew] at hrow
      exact absurd hrow (hown old hold hp).2
    · rwa [← hnew]
  · intro hmem
    refine ⟨row, hmem, if_neg fun hp => ?_⟩
    exact (hown row hmem hp).1 hrow

theorem Spares.put {r : ρ} (hnew : ¬ foreign r)
    (hold : ∀ old ∈ t.rows, key old = key r → ¬ foreign old) : Spares foreign t (t.put r) := by
  intro row hrow
  rw [mem_put]
  constructor
  · rintro (rfl | ⟨hmem, _⟩)
    · exact absurd hrow hnew
    · exact hmem
  · intro hmem
    exact Or.inr ⟨hmem, fun hkey => hold row hmem hkey hrow⟩

theorem Spares.erase {k : κ} (hold : ∀ old ∈ t.rows, key old = k → ¬ foreign old) :
    Spares foreign t (t.erase k) := by
  intro row hrow
  rw [mem_erase]
  exact ⟨And.left, fun hmem => ⟨hmem, fun hkey => hold row hmem hkey hrow⟩⟩

end Cfscan.Lib.Table
