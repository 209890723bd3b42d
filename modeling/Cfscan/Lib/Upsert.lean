import Cfscan.Lib.Connection
import Cfscan.Lib.Table

/-!
# Upserts

An `INSERT … ON CONFLICT DO UPDATE` rewrites the row under a key, or adds it: `f k` is what it
makes of the row that was there, if any. `Upserted f ks t t'`: the keys `ks` have been upserted,
in any order and any number of times, and no other. Where `f k` makes nothing new of its own row,
a batch of upserts is one (`Upserted.append`, `Upserted.foldlM`).

The condition for a batch to be one upsert is on `f` alone and not on the rows, so that it can be
checked once for each statement.
-/

set_option autoImplicit false

namespace Cfscan.Lib

variable {κ ρ : Type} [DecidableEq κ] {key : ρ → κ}

def Upserted (f : κ → Option ρ → ρ) (ks : List κ) (t t' : Table κ ρ key) : Prop :=
  ∀ k, t'.find? k = if k ∈ ks then some (f k (t.find? k)) else t.find? k

namespace Upserted

variable {f : κ → Option ρ → ρ} {ks ks' : List κ} {t t' t'' : Table κ ρ key}

theorem nil : Upserted f [] t t := fun _ => rfl

theorem of_mem (h : Upserted f ks t t') {k : κ} (hk : k ∈ ks) :
    t'.find? k = some (f k (t.find? k)) := by
  rw [h k, if_pos hk]

theorem of_notMem (h : Upserted f ks t t') {k : κ} (hk : k ∉ ks) : t'.find? k = t.find? k := by
  rw [h k, if_neg hk]

theorem append (hf : ∀ k r, f k (some (f k r)) = f k r) (h : Upserted f ks t t')
    (h' : Upserted f ks' t' t'') : Upserted f (ks ++ ks') t t'' := by
  intro k
  rw [h' k, h k]
  by_cases hk : k ∈ ks <;> by_cases hk' : k ∈ ks' <;> simp [hk, hk', hf]

theorem put {k : κ} (hkey : key (f k (t.find? k)) = k) :
    Upserted f [k] t (t.put (f k (t.find? k))) := by
  intro k'
  rw [Table.find?_put, hkey]
  by_cases hk : k = k'
  · subst hk
    simp
  · rw [if_neg hk, if_neg (by simpa using Ne.symm hk)]

/-- A batch whose steps are upserts. -/
theorem foldlM {α ε : Type} {g : Table κ ρ key → α → Except ε (Table κ ρ key)} {keys : α → List κ}
    (hf : ∀ k r, f k (some (f k r)) = f k r)
    (hstep : ∀ t a t', g t a = .ok t' → Upserted f (keys a) t t') {l : List α}
    (h : l.foldlM g t = .ok t') : Upserted f (l.flatMap keys) t t' := by
  induction l generalizing t with
  | nil =>
    cases h
    exact nil
  | cons a l ih =>
    rw [List.foldlM_cons] at h
    obtain ⟨t₁, hone, hrest⟩ := bind_eq_ok h
    rw [List.flatMap_cons]
    exact (hstep t a t₁ hone).append hf (ih hrest)

end Upserted

end Cfscan.Lib
