import Mathlib.Data.List.Basic

/-!
# Statements on a connection that can fail

A `Conn` is a sequence of statements sent on one connection to a database. Each statement may be
refused, and the connection may be lost before it: an `Outage` says how many more statements are
answered, if not all. `transact` runs a sequence as one transaction: an error anywhere leaves the
database as it was, whatever the statements before it wrote.

`Ends x s a s'` is what a sequence that came to its end did, whatever the outage allowed. Its rules
take a sequence apart without looking at the outage (`ends_bind`, `ends_exec`, `ends_forM`).

A connection that is lost does not tell whether a commit reached the server. That case is left out:
an outage is a statement that was not executed.
-/

set_option autoImplicit false

namespace Cfscan.Lib

/-- The number of statements answered before the connection is lost, and what is reported then. -/
abbrev Outage := Option (Nat × String)

structure Link (σ : Type) where
  outage : Outage
  db : σ

abbrev Conn (σ ε : Type) := StateT (Link σ) (Except ε)

variable {σ ε α β : Type}

/-! ## Results -/

theorem bind_eq_ok {x : Except ε α} {f : α → Except ε β} {b : β} (h : (x >>= f) = .ok b) :
    ∃ a, x = .ok a ∧ f a = .ok b := by
  cases x with
  | error error => cases h
  | ok a => exact ⟨a, rfl, h⟩

theorem map_eq_ok {x : Except ε α} {f : α → β} {b : β} (h : x.map f = .ok b) :
    ∃ a, x = .ok a ∧ f a = b := by
  cases x with
  | error error => cases h
  | ok a =>
    cases h
    exact ⟨a, rfl, rfl⟩

/-! ## Statements

A statement counts down to the outage, if there is one. The statement that meets it fails
with the cause, and `transact` then leaves the database as it was before the first. -/

namespace Conn

/-- One statement; `lost` is the error for a lost connection. -/
def exec (lost : String → ε) (statement : σ → Except ε (α × σ)) : Conn σ ε α := fun link =>
  match link.outage with
  | some (0, cause) => .error (lost cause)
  | some (answered + 1, cause) =>
    (statement link.db).map fun r => (r.1, ⟨some (answered, cause), r.2⟩)
  | none => (statement link.db).map fun r => (r.1, ⟨none, r.2⟩)

/-- A statement whose result is not looked at. -/
def write (lost : String → ε) (statement : σ → Except ε σ) : Conn σ ε Unit :=
  exec lost fun s => (statement s).map fun s' => ((), s')

def transact (x : Conn σ ε α) (outage : Outage) (s : σ) : Except ε α × σ :=
  match x.run ⟨outage, s⟩ with
  | .error error => (.error error, s)
  | .ok (a, link) => (.ok a, link.db)

def Ends (x : Conn σ ε α) (s : σ) (a : α) (s' : σ) : Prop :=
  ∃ outage outage', x.run ⟨outage, s⟩ = .ok (a, ⟨outage', s'⟩)

theorem ends_of_run {x : Conn σ ε α} {link link' : Link σ} {a : α}
    (h : x.run link = .ok (a, link')) : Ends x link.db a link'.db :=
  ⟨link.outage, link'.outage, h⟩

/-- A transaction that reports an error has written nothing. -/
theorem transact_error {x : Conn σ ε α} {outage : Outage} {s s' : σ} {error : ε}
    (h : x.transact outage s = (.error error, s')) : s' = s := by
  unfold transact at h
  split at h <;> cases h
  rfl

theorem transact_ok {x : Conn σ ε α} {outage : Outage} {s s' : σ} {a : α}
    (h : x.transact outage s = (.ok a, s')) : Ends x s a s' := by
  unfold transact at h
  split at h <;> cases h
  exact ends_of_run ‹_›

theorem ends_pure {s s' : σ} {a a' : α} (h : Ends (pure a : Conn σ ε α) s a' s') :
    a' = a ∧ s' = s := by
  obtain ⟨_, _, h⟩ := h
  cases h
  exact ⟨rfl, rfl⟩

theorem not_ends_throw {error : ε} {s s' : σ} {a : α} :
    ¬ Ends (throw error : Conn σ ε α) s a s' := by
  rintro ⟨_, _, h⟩
  cases h

/-- A computation that sends no statement. -/
theorem ends_lift {x : Except ε α} {s s' : σ} {a : α} (h : Ends (liftM x : Conn σ ε α) s a s') :
    x = .ok a ∧ s' = s := by
  obtain ⟨_, _, h⟩ := h
  cases x <;> cases h
  exact ⟨rfl, rfl⟩

theorem ends_bind {x : Conn σ ε α} {f : α → Conn σ ε β} {s s'' : σ} {b : β}
    (h : Ends (x >>= f) s b s'') : ∃ a s', Ends x s a s' ∧ Ends (f a) s' b s'' := by
  obtain ⟨outage, _, h⟩ := h
  obtain ⟨r, hx, h⟩ := bind_eq_ok h
  exact ⟨r.1, r.2.db, ends_of_run hx, ends_of_run h⟩

theorem ends_exec {lost : String → ε} {statement : σ → Except ε (α × σ)} {s s' : σ} {a : α}
    (h : Ends (exec lost statement) s a s') : statement s = .ok (a, s') := by
  obtain ⟨outage, outage', h⟩ := h
  rcases outage with _ | ⟨_ | answered, cause⟩
  case some.zero => cases h
  all_goals
    obtain ⟨r, hone, hr⟩ := map_eq_ok h
    cases hr
    exact hone

theorem ends_write {lost : String → ε} {statement : σ → Except ε σ} {s s' : σ} {u : Unit}
    (h : Ends (write lost statement) s u s') : statement s = .ok s' := by
  have h := ends_exec h
  obtain ⟨_, hone, hs⟩ := map_eq_ok h
  cases hs
  exact hone

/-- A link that answers one statement answers any other. -/
theorem isOk_run_write {lost lost' : String → ε} {statement statement' : σ → Except ε σ}
    {link : Link σ} (h : ((write lost statement).run link).isOk = true) :
    ((write lost' statement').run link).isOk = (statement' link.db).isOk := by
  obtain ⟨outage, db⟩ := link
  rcases outage with _ | ⟨_ | answered, cause⟩
  case some.zero => cases h
  all_goals
    unfold write exec
    dsimp only [StateT.run]
    cases statement' db <;> rfl

/-- The rule for a loop: what one round does to the rounds done so far. -/
theorem ends_forM {body : α → Conn σ ε Unit} (inv : List α → σ → Prop) {l : List α} {s s' : σ}
    {u : Unit} (h : Ends (l.forM body) s u s') (hs : inv [] s)
    (hstep : ∀ done a s s', a ∈ l → inv done s → Ends (body a) s () s' → inv (done ++ [a]) s') :
    inv l s' := by
  suffices ∀ (rest done : List α) (s : σ), done ++ rest = l → inv done s →
      Ends (rest.forM body) s u s' → inv l s' from this l [] s rfl hs h
  intro rest
  induction rest with
  | nil =>
    intro done s hdone hinv h
    obtain ⟨-, rfl⟩ := ends_pure h
    rw [List.append_nil] at hdone
    exact hdone ▸ hinv
  | cons a rest ih =>
    intro done s hdone hinv h
    obtain ⟨_, s₁, hone, hrest⟩ := ends_bind h
    have ha : a ∈ l := hdone ▸ List.mem_append_right _ List.mem_cons_self
    exact ih (done ++ [a]) s₁ (by simpa using hdone) (hstep _ _ _ _ ha hinv hone) hrest

end Conn

end Cfscan.Lib
