import Mathlib.Data.List.Nodup

/-!
# Tables — rows under a primary key

A table is a list of rows no two of which share a key; the condition is a field, so a table with
a duplicated key cannot be built. The operations are the ones a row store offers: look a row up,
`put` one version of a row (replacing the version under its key, or adding it), `erase` a key,
and rewrite every row a condition selects, which is what an `UPDATE … WHERE` does.

The order of the rows carries no meaning, and no lemma here mentions it: everything is stated
through `find?`, membership and counting.

The rules of `updateWhere` ask that the rewriting leaves the key alone. A statement that changes
keys would need another operation, and there is none here.
-/

set_option autoImplicit false

namespace Cfscan.Lib

structure Table (κ ρ : Type) (key : ρ → κ) where
  rows : List ρ
  nodup : (rows.map key).Nodup

namespace Table

variable {κ ρ : Type} {key : ρ → κ}

theorem ext_rows {t t' : Table κ ρ key} (h : t.rows = t'.rows) : t = t' := by
  cases t; cases t'; cases h; rfl

/-- Two rows under one key are one row. -/
theorem eq_of_key {t : Table κ ρ key} {r r' : ρ} (hr : r ∈ t.rows) (hr' : r' ∈ t.rows)
    (h : key r = key r') : r = r' :=
  List.inj_on_of_nodup_map t.nodup hr hr' h

def empty : Table κ ρ key := ⟨[], List.nodup_nil⟩

@[simp] theorem rows_empty : (empty : Table κ ρ key).rows = [] := rfl

/-- Rewrite the rows a condition selects. The rewriting may not touch the key. -/
def updateWhere (t : Table κ ρ key) (p : ρ → Bool) (f : ρ → ρ)
    (hf : ∀ r, key (f r) = key r) : Table κ ρ key where
  rows := t.rows.map fun r => if p r then f r else r
  nodup := by
    rw [List.map_map]
    convert t.nodup using 2
    funext r
    by_cases h : p r = true
    · simp [h, hf]
    · simp [h]

theorem mem_updateWhere {t : Table κ ρ key} {p : ρ → Bool} {f : ρ → ρ}
    {hf : ∀ r, key (f r) = key r} {r : ρ} :
    r ∈ (t.updateWhere p f hf).rows ↔ ∃ r₀ ∈ t.rows, (if p r₀ then f r₀ else r₀) = r := by
  simp only [updateWhere, List.mem_map]

/-- Every row survives an update, rewritten or not. -/
theorem mem_updateWhere_of_mem {t : Table κ ρ key} {p : ρ → Bool} {f : ρ → ρ}
    {hf : ∀ r, key (f r) = key r} {r : ρ} (h : r ∈ t.rows) :
    (if p r then f r else r) ∈ (t.updateWhere p f hf).rows :=
  mem_updateWhere.mpr ⟨r, h, rfl⟩

theorem updateWhere_congr {t : Table κ ρ key} {p q : ρ → Bool} {f : ρ → ρ}
    {hf : ∀ r, key (f r) = key r} (h : ∀ r ∈ t.rows, p r = q r) :
    t.updateWhere p f hf = t.updateWhere q f hf :=
  ext_rows (List.map_congr_left fun r hr => by simp [h r hr])

/-- An update that selects no row changes nothing. -/
theorem updateWhere_of_none {t : Table κ ρ key} {p : ρ → Bool} {f : ρ → ρ}
    {hf : ∀ r, key (f r) = key r} (h : ∀ r ∈ t.rows, p r = false) :
    t.updateWhere p f hf = t := by
  refine ext_rows ?_
  simp only [updateWhere]
  conv_rhs => rw [← List.map_id t.rows]
  exact List.map_congr_left fun r hr => by simp [h r hr]

/-- `DELETE` of the rows a condition does not hold of. -/
def keepWhere (t : Table κ ρ key) (p : ρ → Bool) : Table κ ρ key where
  rows := t.rows.filter p
  nodup := t.nodup.sublist (List.filter_sublist.map key)

@[simp] theorem mem_keepWhere {t : Table κ ρ key} {p : ρ → Bool} {r : ρ} :
    r ∈ (t.keepWhere p).rows ↔ r ∈ t.rows ∧ p r = true := List.mem_filter

variable [DecidableEq κ]

def find? (t : Table κ ρ key) (k : κ) : Option ρ := t.rows.find? fun r => decide (key r = k)

theorem find?_eq_some {t : Table κ ρ key} {k : κ} {r : ρ} :
    t.find? k = some r ↔ r ∈ t.rows ∧ key r = k := by
  constructor
  · intro h
    exact ⟨List.mem_of_find?_eq_some h, by simpa using List.find?_some h⟩
  · rintro ⟨hr, hk⟩
    cases h : t.find? k with
    | none =>
      have := List.find?_eq_none.mp h r hr
      exact absurd hk (by simpa using this)
    | some r' =>
      have hr' : r' ∈ t.rows := List.mem_of_find?_eq_some h
      have hk' : key r' = k := by simpa using List.find?_some h
      rw [eq_of_key hr' hr (hk'.trans hk.symm)]

theorem find?_eq_none {t : Table κ ρ key} {k : κ} :
    t.find? k = none ↔ ∀ r ∈ t.rows, key r ≠ k := by
  simp [find?, List.find?_eq_none]

theorem find?_key {t : Table κ ρ key} {r : ρ} (h : r ∈ t.rows) : t.find? (key r) = some r :=
  find?_eq_some.mpr ⟨h, rfl⟩

theorem mem_of_find? {t : Table κ ρ key} {k : κ} {r : ρ} (h : t.find? k = some r) : r ∈ t.rows :=
  (find?_eq_some.mp h).1

theorem key_of_find? {t : Table κ ρ key} {k : κ} {r : ρ} (h : t.find? k = some r) : key r = k :=
  (find?_eq_some.mp h).2

@[simp] theorem find?_empty (k : κ) : (empty : Table κ ρ key).find? k = none := rfl

theorem find?_keepWhere {t : Table κ ρ key} {p : ρ → Bool} {k : κ} :
    (t.keepWhere p).find? k = (t.find? k).filter p := by
  cases h : t.find? k with
  | none => exact find?_eq_none.mpr fun r hr => find?_eq_none.mp h r (mem_keepWhere.mp hr).1
  | some r =>
    obtain ⟨hr, hk⟩ := find?_eq_some.mp h
    cases hp : p r with
    | true =>
      rw [Option.filter_some_pos hp]
      exact find?_eq_some.mpr ⟨mem_keepWhere.mpr ⟨hr, hp⟩, hk⟩
    | false =>
      rw [Option.filter_some_neg hp]
      refine find?_eq_none.mpr fun x hx hkx => ?_
      obtain ⟨hmem, hpx⟩ := mem_keepWhere.mp hx
      rw [eq_of_key hmem hr (hkx.trans hk.symm), hp] at hpx
      exact Bool.false_ne_true hpx

/-! ## One row version

`put` is an insert or an update, as the key is new or not. `find?` after it is decided by
the key alone, and the order of the other rows does not change. -/

/-- Write one version of a row: over the version under its key, or as a new row. -/
def put (t : Table κ ρ key) (r : ρ) : Table κ ρ key :=
  if h : t.find? (key r) = none then
    { rows := t.rows ++ [r]
      nodup := by
        rw [List.map_append, List.map_singleton, List.nodup_append]
        refine ⟨t.nodup, List.nodup_singleton _, ?_⟩
        intro k hk k' hk'
        obtain ⟨r', hr', rfl⟩ := List.mem_map.mp hk
        rw [List.mem_singleton.mp hk']
        exact find?_eq_none.mp h r' hr' }
  else
    { rows := t.rows.map fun r' => if key r' = key r then r else r'
      nodup := by
        rw [List.map_map]
        convert t.nodup using 2
        funext r'
        by_cases hk : key r' = key r
        · simp [hk]
        · simp [hk] }

theorem mem_put {t : Table κ ρ key} {r x : ρ} :
    x ∈ (t.put r).rows ↔ x = r ∨ (x ∈ t.rows ∧ key x ≠ key r) := by
  unfold put
  by_cases h : t.find? (key r) = none
  · rw [dif_pos h]
    have hne := find?_eq_none.mp h
    simp only [List.mem_append, List.mem_singleton]
    constructor
    · rintro (hx | hx)
      · exact Or.inr ⟨hx, hne x hx⟩
      · exact Or.inl hx
    · rintro (hx | ⟨hx, _⟩)
      · exact Or.inr hx
      · exact Or.inl hx
  · rw [dif_neg h]
    obtain ⟨old, hold⟩ := Option.ne_none_iff_exists'.mp h
    simp only [List.mem_map]
    constructor
    · rintro ⟨r', hr', hx⟩
      by_cases hk : key r' = key r
      · rw [if_pos hk] at hx
        exact Or.inl hx.symm
      · rw [if_neg hk] at hx
        subst hx
        exact Or.inr ⟨hr', hk⟩
    · rintro (hx | ⟨hx, hk⟩)
      · exact ⟨old, mem_of_find? hold, by rw [if_pos (key_of_find? hold)]; exact hx.symm⟩
      · exact ⟨x, hx, by rw [if_neg hk]⟩

theorem mem_put_self {t : Table κ ρ key} {r : ρ} : r ∈ (t.put r).rows := mem_put.mpr (Or.inl rfl)

theorem find?_put {t : Table κ ρ key} {r : ρ} {k : κ} :
    (t.put r).find? k = if key r = k then some r else t.find? k := by
  by_cases hk : key r = k
  · rw [if_pos hk]
    exact find?_eq_some.mpr ⟨mem_put_self, hk⟩
  · rw [if_neg hk]
    cases h : t.find? k with
    | none =>
      refine find?_eq_none.mpr fun x hx => ?_
      rcases mem_put.mp hx with rfl | ⟨hx, _⟩
      · exact hk
      · exact find?_eq_none.mp h x hx
    | some x =>
      obtain ⟨hx, hkx⟩ := find?_eq_some.mp h
      exact find?_eq_some.mpr ⟨mem_put.mpr (Or.inr ⟨hx, by rw [hkx]; exact Ne.symm hk⟩), hkx⟩

/-- A new row goes after the others. -/
theorem rows_put_new {t : Table κ ρ key} {r : ρ} (h : t.find? (key r) = none) :
    (t.put r).rows = t.rows ++ [r] := by
  unfold put
  rw [dif_pos h]

/-- Writing over a row is an update that selects it. -/
theorem put_eq_updateWhere {t : Table κ ρ key} {r : ρ} (f : ρ → ρ)
    (hf : ∀ r', key (f r') = key r') (h : t.find? (key r) = some r) :
    t.put (f r) = t.updateWhere (fun r' => decide (key r' = key r)) f hf := by
  refine ext_rows ?_
  have hsome : ¬ t.find? (key (f r)) = none := by rw [hf, h]; exact Option.some_ne_none r
  unfold put
  rw [dif_neg hsome]
  simp only [updateWhere, hf]
  refine List.map_congr_left fun r' hr' => ?_
  by_cases hk : key r' = key r
  · simp [eq_of_key hr' (mem_of_find? h) hk]
  · simp [hk]

def erase (t : Table κ ρ key) (k : κ) : Table κ ρ key where
  rows := t.rows.filter fun r => decide (key r ≠ k)
  nodup := (List.Sublist.map key List.filter_sublist).nodup t.nodup

theorem mem_erase {t : Table κ ρ key} {k : κ} {x : ρ} :
    x ∈ (t.erase k).rows ↔ x ∈ t.rows ∧ key x ≠ k := by
  simp [erase]

/-- Erasing a key that is not there changes nothing. -/
theorem erase_of_none {t : Table κ ρ key} {k : κ} (h : t.find? k = none) : t.erase k = t :=
  ext_rows (List.filter_eq_self.mpr fun r hr => by simpa using find?_eq_none.mp h r hr)

theorem find?_erase {t : Table κ ρ key} {k k' : κ} :
    (t.erase k).find? k' = if k = k' then none else t.find? k' := by
  by_cases hk : k = k'
  · subst hk
    rw [if_pos rfl]
    exact find?_eq_none.mpr fun x hx => (mem_erase.mp hx).2
  · rw [if_neg hk]
    cases h : t.find? k' with
    | none => exact find?_eq_none.mpr fun x hx => find?_eq_none.mp h x (mem_erase.mp hx).1
    | some x =>
      obtain ⟨hx, hkx⟩ := find?_eq_some.mp h
      exact find?_eq_some.mpr ⟨mem_erase.mpr ⟨hx, by rw [hkx]; exact Ne.symm hk⟩, hkx⟩

theorem find?_updateWhere {t : Table κ ρ key} {p : ρ → Bool} {f : ρ → ρ}
    {hf : ∀ r, key (f r) = key r} {k : κ} :
    (t.updateWhere p f hf).find? k = (t.find? k).map fun r => if p r then f r else r := by
  have hkey : ∀ r, key (if p r then f r else r) = key r := by
    intro r
    by_cases h : p r = true
    · simp [h, hf]
    · simp [h]
  cases h : t.find? k with
  | none =>
    refine find?_eq_none.mpr fun x hx => ?_
    obtain ⟨r₀, hr₀, rfl⟩ := mem_updateWhere.mp hx
    rw [hkey]
    exact find?_eq_none.mp h r₀ hr₀
  | some r =>
    obtain ⟨hr, hk⟩ := find?_eq_some.mp h
    exact find?_eq_some.mpr ⟨mem_updateWhere_of_mem hr, (hkey r).trans hk⟩

/-! ## Another description of the rows

Two models of one table whose rows carry the same keys. Updates, inserts and deletions
commute with the passage from one to the other, given that the rows' own functions do. -/

section Map

variable {σ : Type} {key' : σ → κ} {t : Table κ ρ key} {f : ρ → σ} {hf : ∀ r, key' (f r) = key r}

/-- The rows as `f` describes them, under the keys they have. -/
def map (t : Table κ ρ key) (f : ρ → σ) (hf : ∀ r, key' (f r) = key r) : Table κ σ key' where
  rows := t.rows.map f
  nodup := by
    rw [List.map_map, show key' ∘ f = key from funext hf]
    exact t.nodup

theorem find?_map {k : κ} : (t.map f hf).find? k = (t.find? k).map f := by
  cases h : t.find? k with
  | none =>
    refine find?_eq_none.mpr fun x hx => ?_
    obtain ⟨r, hr, rfl⟩ := List.mem_map.mp hx
    rw [hf]
    exact find?_eq_none.mp h r hr
  | some r =>
    obtain ⟨hr, hk⟩ := find?_eq_some.mp h
    exact find?_eq_some.mpr ⟨List.mem_map_of_mem hr, (hf r).trans hk⟩

theorem map_put {r : ρ} : (t.put r).map f hf = (t.map f hf).put (f r) := by
  refine ext_rows ?_
  cases h : t.find? (key r) with
  | none =>
    have hnone : (t.map f hf).find? (key' (f r)) = none := by rw [find?_map, hf, h, Option.map_none]
    show (t.put r).rows.map f = _
    rw [rows_put_new h, rows_put_new hnone, List.map_append, List.map_singleton]
    rfl
  | some old =>
    have hsome : ¬ t.find? (key r) = none := by rw [h]; exact Option.some_ne_none old
    have hsome' : ¬ (t.map f hf).find? (key' (f r)) = none := by
      rw [find?_map, hf, h, Option.map_some]
      exact Option.some_ne_none _
    unfold put
    rw [dif_neg hsome, dif_neg hsome']
    simp only [map, List.map_map]
    refine List.map_congr_left fun r' _ => ?_
    simp only [Function.comp_apply, hf]
    split <;> rfl

omit [DecidableEq κ] in
/-- An update, when it is one of the descriptions. -/
theorem map_updateWhere {p : ρ → Bool} {g : ρ → ρ} {hg : ∀ r, key (g r) = key r} {q : σ → Bool}
    {g' : σ → σ} {hg' : ∀ r, key' (g' r) = key' r} (hp : ∀ r ∈ t.rows, q (f r) = p r)
    (hrow : ∀ r ∈ t.rows, p r = true → f (g r) = g' (f r)) :
    (t.updateWhere p g hg).map f hf = (t.map f hf).updateWhere q g' hg' := by
  refine ext_rows ?_
  simp only [map, updateWhere, List.map_map]
  refine List.map_congr_left fun r hr => ?_
  simp only [Function.comp_apply, hp r hr]
  cases h : p r with
  | true => exact hrow r hr h
  | false => rfl

theorem map_erase {k : κ} : (t.erase k).map f hf = (t.map f hf).erase k := by
  refine ext_rows ?_
  simp only [map, erase, List.filter_map, Function.comp_def, hf]

end Map

end Table

end Cfscan.Lib
