import Cfscan.Lib.Table
import Cfscan.Lib.Transaction

/-!
# SQL statements as sequences of actions

How `UPDATE … WHERE`, `SELECT … FOR UPDATE` and `… FOR UPDATE SKIP LOCKED` run under READ
COMMITTED. Each takes the snapshot of its own start to find the candidate rows; it then goes
through them one by one, locking a row, reading the version that is current once the lock is held
and testing the condition again on that version.

For each statement there are two rules: what it does when it runs by itself (`run_…`), and a rule
for `Safe` with an invariant over the rows still to come.

The snapshot of a statement is not the state its transaction began with. That is what READ COMMITTED
means, and it is why a condition has to be tested twice: once to find a row and once to keep it.
-/

set_option autoImplicit false

namespace Cfscan.Lib

/-- Where a table sits in a database, and how its rows are locked and written. -/
structure TableIn (σ κ ν ω ι ρ : Type) [DecidableEq ι] [RowStore σ κ ν ω] (key : ρ → ι) where
  get : σ → Table ι ρ key
  set : σ → Table ι ρ key → σ
  lockKey : ι → κ
  version : ρ → ω
  get_set : ∀ s t, get (set s t) = t
  set_get : ∀ s, set s (get s) = s
  set_set : ∀ s t t', set (set s t) t' = set s t'
  apply_version : ∀ s r, RowStore.apply s (version r) = set s ((get s).put r)
  key_version : ∀ r, RowStore.key σ (version r) = lockKey (key r)
  find?_row : ∀ s s' k, RowStore.row s (lockKey k) = RowStore.row s' (lockKey k) →
    (get s).find? k = (get s').find? k

namespace TableIn

variable {σ κ ν ω ι ρ : Type} [DecidableEq ι] [RowStore σ κ ν ω] {key : ρ → ι}

/-! ## The statements

The candidates come from one snapshot, and the statement goes through them row by row.
Between the snapshot and the lock a row can have changed or gone, so both cases are in the
program. -/

/-- `SELECT … WHERE id = k FOR UPDATE`. -/
def selectForUpdate (T : TableIn σ κ ν ω ι ρ key) (k : ι) : Tx σ κ ω (Option ρ) := do
  match ← Tx.read fun s => (T.get s).find? k with
  | none => pure none
  | some _ =>
    Tx.acquire (T.lockKey k)
    Tx.read fun s => (T.get s).find? k

/-- The rows of an `UPDATE`, one by one; `acc` is what its `RETURNING` has so far. -/
def updateEach (T : TableIn σ κ ν ω ι ρ key) (p : ρ → Bool) (f : ρ → ρ) :
    List ι → List ρ → Tx σ κ ω (List ρ)
  | [], acc => pure acc
  | k :: ks, acc => do
    Tx.acquire (T.lockKey k)
    match ← Tx.read fun s => (T.get s).find? k with
    | none => updateEach T p f ks acc
    | some r =>
      if p r then do
        Tx.put (T.version (f r))
        updateEach T p f ks (acc ++ [f r])
      else updateEach T p f ks acc

/-- `UPDATE … SET f WHERE p RETURNING *`. -/
def updateWhere (T : TableIn σ κ ν ω ι ρ key) (p : ρ → Bool) (f : ρ → ρ) : Tx σ κ ω (List ρ) := do
  let candidates ← Tx.read fun s => ((T.get s).rows.filter p).map key
  updateEach T p f candidates []

/-- `… LIMIT n FOR UPDATE SKIP LOCKED` over candidates in their order. -/
def lockUpTo (T : TableIn σ κ ν ω ι ρ key) (p : ρ → Bool) :
    Nat → List ι → List ρ → Tx σ κ ω (List ρ)
  | 0, _, acc => pure acc
  | _ + 1, [], acc => pure acc
  | n + 1, k :: ks, acc => do
    if ← Tx.tryAcquire (T.lockKey k) then
      match ← Tx.read fun s => (T.get s).find? k with
      | none => lockUpTo T p (n + 1) ks acc
      | some r =>
        if p r then lockUpTo T p n ks (acc ++ [r]) else lockUpTo T p (n + 1) ks acc
    else lockUpTo T p (n + 1) ks acc

/-! ## By themselves -/

variable (T : TableIn σ κ ν ω ι ρ key)

@[simp] theorem run_selectForUpdate (k : ι) (s : σ) :
    (T.selectForUpdate k).run s = ((T.get s).find? k, s) := by
  unfold selectForUpdate
  cases h : (T.get s).find? k <;> simp [h]

/-- A write over a row, as an update of its table. -/
theorem apply_over {s : σ} {r : ρ} {f : ρ → ρ} (hf : ∀ r, key (f r) = key r)
    (h : (T.get s).find? (key r) = some r) :
    RowStore.apply s (T.version (f r)) =
      T.set s ((T.get s).updateWhere (fun r' => decide (key r' = key r)) f hf) := by
  rw [T.apply_version, Table.put_eq_updateWhere f hf h]

/-- Two updates of distinct keys, made one after the other, are one update. -/
theorem updateWhere_cons {t : Table ι ρ key} {f : ρ → ρ} {hf : ∀ r, key (f r) = key r} {k : ι}
    {ks : List ι} (hk : k ∉ ks) :
    (t.updateWhere (fun r => decide (key r = k)) f hf).updateWhere (fun r => decide (key r ∈ ks)) f
        hf = t.updateWhere (fun r => decide (key r ∈ k :: ks)) f hf := by
  refine Table.ext_rows ?_
  simp only [Table.updateWhere, List.map_map]
  refine List.map_congr_left fun r _ => ?_
  by_cases hr : key r = k
  · simp [hr, hf, hk]
  · simp [hr]

theorem run_updateEach {p : ρ → Bool} {f : ρ → ρ} (hf : ∀ r, key (f r) = key r) {ks : List ι}
    (hnodup : ks.Nodup) {s : σ} (hks : ∀ k ∈ ks, ∃ r, (T.get s).find? k = some r ∧ p r = true)
    (acc : List ρ) :
    (T.updateEach p f ks acc).run s =
      (acc ++ (ks.filterMap (T.get s).find?).map f,
        T.set s ((T.get s).updateWhere (fun r => decide (key r ∈ ks)) f hf)) := by
  induction ks generalizing s acc with
  | nil =>
    rw [Table.updateWhere_of_none (by simp), T.set_get]
    simp [updateEach]
  | cons k ks ih =>
    obtain ⟨r, hr, hp⟩ := hks k (.head _)
    obtain ⟨hk, hrest⟩ := List.nodup_cons.mp hnodup
    obtain rfl : key r = k := Table.key_of_find? hr
    -- the rows still to come are where they were
    have hother : ∀ k' ∈ ks, (T.get (RowStore.apply s (T.version (f r)))).find? k' =
        (T.get s).find? k' := by
      intro k' hk'
      rw [T.apply_version, T.get_set, Table.find?_put, hf, if_neg]
      rintro rfl
      exact hk hk'
    have hih := ih hrest (s := RowStore.apply s (T.version (f r)))
      (fun k' hk' => by rw [hother k' hk']; exact hks k' (.tail _ hk')) (acc ++ [f r])
    have hmap : ks.filterMap (T.get (RowStore.apply s (T.version (f r)))).find? =
        ks.filterMap (T.get s).find? := List.filterMap_congr hother
    unfold updateEach
    simp only [Tx.bind_eq, Tx.run_bind, Tx.run_acquire, Tx.run_read, hr, hp, if_true, Tx.run_put,
      hih, hmap, List.filterMap_cons_some hr, List.map_cons, List.append_assoc,
      List.singleton_append]
    rw [T.apply_over hf hr, T.get_set, T.set_set, updateWhere_cons hk]

theorem filterMap_find? {t : Table ι ρ key} {rows : List ρ} (h : ∀ r ∈ rows, r ∈ t.rows) :
    (rows.map key).filterMap t.find? = rows := by
  induction rows with
  | nil => rfl
  | cons r rows ih =>
    rw [List.map_cons, List.filterMap_cons_some (Table.find?_key (h r (.head _))),
      ih fun r' hr' => h r' (.tail _ hr')]

/-- An `UPDATE` that meets nobody is an update of the table. -/
theorem run_updateWhere {p : ρ → Bool} {f : ρ → ρ} (hf : ∀ r, key (f r) = key r) (s : σ) :
    (T.updateWhere p f).run s =
      (((T.get s).rows.filter p).map f, T.set s ((T.get s).updateWhere p f hf)) := by
  have hmem : ∀ r ∈ (T.get s).rows.filter p, r ∈ (T.get s).rows := fun r hr =>
    (List.mem_filter.mp hr).1
  have hnodup : (((T.get s).rows.filter p).map key).Nodup :=
    (List.Sublist.map key List.filter_sublist).nodup (T.get s).nodup
  have hks : ∀ k ∈ ((T.get s).rows.filter p).map key,
      ∃ r, (T.get s).find? k = some r ∧ p r = true := by
    intro k hk
    obtain ⟨r, hr, rfl⟩ := List.mem_map.mp hk
    exact ⟨r, Table.find?_key (hmem r hr), (List.mem_filter.mp hr).2⟩
  have hselect : ∀ r ∈ (T.get s).rows,
      decide (key r ∈ ((T.get s).rows.filter p).map key) = p r := by
    intro r hr
    rw [Bool.eq_iff_iff, decide_eq_true_eq]
    constructor
    · intro hk
      obtain ⟨r', hr', heq⟩ := List.mem_map.mp hk
      rw [← Table.eq_of_key (hmem r' hr') hr heq]
      exact (List.mem_filter.mp hr').2
    · exact fun hp => List.mem_map.mpr ⟨r, List.mem_filter.mpr ⟨hr, hp⟩, rfl⟩
  unfold updateWhere
  simp only [Tx.bind_eq, Tx.run_bind, Tx.run_read, T.run_updateEach hf hnodup hks,
    filterMap_find? hmem, List.nil_append]
  rw [Table.updateWhere_congr hselect]

theorem run_lockUpTo {p : ρ → Bool} {n : Nat} {ks : List ι} {s : σ} (acc : List ρ) :
    (T.lockUpTo p n ks acc).run s =
      (acc ++ ((ks.filterMap (T.get s).find?).filter p).take n, s) := by
  induction ks generalizing n acc with
  | nil => cases n <;> simp [lockUpTo]
  | cons k ks ih =>
    cases n with
    | zero => simp [lockUpTo]
    | succ n =>
      unfold lockUpTo
      simp only [Tx.bind_eq, Tx.run_bind, Tx.run_tryAcquire, if_true, Tx.run_read]
      cases hr : (T.get s).find? k with
      | none => simp only [ih, List.filterMap_cons_none hr]
      | some r =>
        by_cases hp : p r = true
        · simp only [hp, if_true, ih, List.filterMap_cons_some hr, List.filter_cons_of_pos,
            List.take_succ_cons, List.append_assoc, List.singleton_append]
        · rw [List.filterMap_cons_some hr, List.filter_cons_of_neg hp, ← ih]
          simp only [hp, Bool.false_eq_true, if_false]

/-! ## Among others

The same statements under `Safe`. The rules for the loops carry an invariant that may
mention the rows still to come and those already returned, and that must outlast what the
others do. -/

section Safe

variable {rely : σ → σ → Prop} {locked : κ → Prop} {s : σ} {writes : List ω}

theorem safe_read {α β : Type} {g : σ → α} {next : α → Tx σ κ ω β}
    {post : β → (κ → Prop) → List ω → σ → Prop}
    (h : ∀ s', Later rely locked s s' →
      Safe rely post (next (g (applyAll s' writes))) locked writes s') :
    Safe rely post ((Tx.read g).bind next) locked writes s := h

theorem safe_acquire {β : Type} {k : κ} {next : Unit → Tx σ κ ω β}
    {post : β → (κ → Prop) → List ω → σ → Prop}
    (h : ∀ s', Later rely locked s s' →
      Safe rely post (next ()) (fun k' => k' = k ∨ locked k') writes s') :
    Safe rely post ((Tx.acquire k).bind next) locked writes s := h

theorem safe_put {β : Type} {w : ω} {next : Unit → Tx σ κ ω β}
    {post : β → (κ → Prop) → List ω → σ → Prop} (hkey : locked (RowStore.key σ w))
    (h : Safe rely post (next ()) locked (writes ++ [w]) s) :
    Safe rely post ((Tx.put w).bind next) locked writes s := ⟨hkey, h⟩

/-- The rule for `SELECT … FOR UPDATE`: no row in the snapshot, or what is there once the lock is
held. -/
theorem safe_selectForUpdate {k : ι} {post : Option ρ → (κ → Prop) → List ω → σ → Prop}
    (htrans : ∀ a b c, rely a b → rely b c → rely a c)
    (hnone : ∀ s', Later rely locked s s' → (T.get (applyAll s' writes)).find? k = none →
      post none locked writes s')
    (hheld : ∀ s', Later rely locked s s' → post ((T.get (applyAll s' writes)).find? k)
      (fun k' => k' = T.lockKey k ∨ locked k') writes s') :
    Safe rely post (T.selectForUpdate k) locked writes s := by
  unfold selectForUpdate
  refine safe_read fun s₁ h₁ => ?_
  split
  · rename_i hfound
    exact hnone s₁ h₁ hfound
  · refine safe_acquire fun s₂ h₂ s₃ h₃ => hheld s₃ ?_
    have hback : Later rely locked s₂ s₃ := ⟨h₃.1, fun key hkey => h₃.2 key (Or.inr hkey)⟩
    exact (h₁.trans htrans h₂).trans htrans hback

/-- The rule for the rows of an `UPDATE`: an invariant over the keys still to come, the rows
returned and the writes made, which one row keeps whatever version of it is found. -/
theorem safe_updateEach {p : ρ → Bool} {f : ρ → ρ} (hf : ∀ r, key (f r) = key r)
    (inv : List ι → List ρ → (κ → Prop) → List ω → σ → Prop)
    (hlater : ∀ ks acc locked writes s s', inv ks acc locked writes s → Later rely locked s s' →
      inv ks acc locked writes s')
    (hlock : ∀ ks acc locked writes s k, inv ks acc locked writes s →
      inv ks acc (fun k' => k' = T.lockKey k ∨ locked k') writes s)
    (hskip : ∀ k ks acc locked writes s, inv (k :: ks) acc locked writes s → locked (T.lockKey k) →
      (∀ r, (T.get (applyAll s writes)).find? k = some r → p r = false) →
      inv ks acc locked writes s)
    (hwrite : ∀ k ks acc locked writes s r, inv (k :: ks) acc locked writes s →
      locked (T.lockKey k) → (T.get (applyAll s writes)).find? k = some r → p r = true →
      inv ks (acc ++ [f r]) locked (writes ++ [T.version (f r)]) s)
    {ks : List ι} {acc : List ρ} (h : inv ks acc locked writes s) :
    Safe rely (inv []) (T.updateEach p f ks acc) locked writes s := by
  induction ks generalizing locked writes s acc with
  | nil => exact h
  | cons k ks ih =>
    unfold updateEach
    refine safe_acquire fun s₁ h₁ => safe_read fun s₂ h₂ => ?_
    have hinv := hlater _ _ _ _ _ _ (hlock _ _ _ _ _ k (hlater _ _ _ _ _ _ h h₁)) h₂
    have hheld : (fun k' => k' = T.lockKey k ∨ locked k') (T.lockKey k) := Or.inl rfl
    split
    · rename_i hnone
      refine ih (hskip k ks _ _ _ _ hinv hheld fun r hr => ?_)
      rw [hnone] at hr
      cases hr
    · rename_i r hr
      split
      · rename_i hp
        refine safe_put ?_ (ih (hwrite k ks _ _ _ _ r hinv hheld hr hp))
        rw [T.key_version, hf, Table.key_of_find? hr]
        exact Or.inl rfl
      · rename_i hp
        refine ih (hskip k ks _ _ _ _ hinv hheld fun r' hr' => ?_)
        rw [hr] at hr'
        cases hr'
        simpa using hp

/-- The rule for `SKIP LOCKED`: the rows taken are locked and met the condition. -/
theorem safe_lockUpTo {p : ρ → Bool}
    (inv : List ρ → (κ → Prop) → List ω → σ → Prop)
    (hlater : ∀ acc locked writes s s', inv acc locked writes s → Later rely locked s s' →
      inv acc locked writes s')
    (hlock : ∀ acc locked writes s k, inv acc locked writes s →
      inv acc (fun k' => k' = T.lockKey k ∨ locked k') writes s)
    (htake : ∀ k acc locked writes s r, inv acc locked writes s → locked (T.lockKey k) →
      (T.get (applyAll s writes)).find? k = some r → p r = true → inv (acc ++ [r]) locked writes s)
    {n : Nat} {ks : List ι} {acc : List ρ} (h : inv acc locked writes s) :
    Safe rely inv (T.lockUpTo p n ks acc) locked writes s := by
  induction ks generalizing n locked writes s acc with
  | nil => cases n <;> exact h
  | cons k ks ih =>
    cases n with
    | zero => exact h
    | succ n =>
      unfold lockUpTo
      refine ⟨fun s₁ h₁ => ?_, fun s₁ h₁ => ?_⟩
      · refine safe_read fun s₂ h₂ => ?_
        have hinv := hlater _ _ _ _ _ (hlock _ _ _ _ k (hlater _ _ _ _ _ h h₁)) h₂
        split
        · exact ih hinv
        · rename_i r hr
          split
          · rename_i hp
            exact ih (htake k _ _ _ _ r hinv (Or.inl rfl) hr hp)
          · exact ih hinv
      · exact ih (hlater _ _ _ _ _ h h₁)

/-- An invariant of a transaction that nothing the others commit, and no lock, can break. -/
structure Stable (rely : σ → σ → Prop) (inv : (κ → Prop) → List ω → σ → Prop) : Prop where
  later : ∀ locked writes s s', inv locked writes s → Later rely locked s s' → inv locked writes s'
  lock : ∀ locked writes s k, inv locked writes s → inv (fun k' => k' = k ∨ locked k') writes s

omit [DecidableEq ι] in
theorem Stable.and {inv inv' : (κ → Prop) → List ω → σ → Prop} (h : Stable rely inv)
    (h' : Stable rely inv') :
    Stable rely fun locked writes s => inv locked writes s ∧ inv' locked writes s :=
  ⟨fun _ _ _ _ hi hl => ⟨h.later _ _ _ _ hi.1 hl, h'.later _ _ _ _ hi.2 hl⟩,
    fun _ _ _ k hi => ⟨h.lock _ _ _ k hi.1, h'.lock _ _ _ k hi.2⟩⟩

/-- The rule for an `UPDATE` whose writes a stable invariant allows. -/
theorem safe_updateWhere {p : ρ → Bool} {f : ρ → ρ} (hf : ∀ r, key (f r) = key r)
    {inv : (κ → Prop) → List ω → σ → Prop} (hstable : Stable rely inv)
    (hwrite : ∀ locked writes s r, inv locked writes s → locked (T.lockKey (key r)) →
      (T.get (applyAll s writes)).find? (key r) = some r → p r = true →
      inv locked (writes ++ [T.version (f r)]) s)
    (h : inv locked writes s) :
    Safe rely (fun _ => inv) (T.updateWhere p f) locked writes s := by
  unfold updateWhere
  refine safe_read fun s' h' => ?_
  refine T.safe_updateEach hf (fun _ _ => inv) (fun _ _ => hstable.later)
    (fun _ _ locked writes s k => hstable.lock locked writes s (T.lockKey k))
    (fun _ _ _ _ _ _ hinv _ _ => hinv) ?_ (hstable.later _ _ _ _ h h')
  intro k _ _ locked writes s r hinv hlocked hseen hp
  obtain rfl : key r = k := Table.key_of_find? hseen
  exact hwrite _ _ _ r hinv hlocked hseen hp

end Safe

end TableIn

end Cfscan.Lib
