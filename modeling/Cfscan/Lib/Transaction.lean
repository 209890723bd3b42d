import Mathlib.Data.List.Induction
import Mathlib.Logic.Function.Basic

/-!
# Transactions under READ COMMITTED

A transaction is a program over five actions: read the committed rows under its own writes, lock
a row (waiting for whoever holds it), try to lock a row (`SKIP LOCKED`), write a version of a
row, and end. A statement such as `UPDATE … WHERE` is several of these in sequence, so that other
transactions can act between its rows.

Two semantics are given. `Tx.run` runs a program by itself. `System.act` interleaves the actions
of any number of open transactions: reads see what is committed when they happen, row locks are
held to the end, writes reach the database at the commit, and a transaction can be aborted at any
point.

`Safe` is the proof method for the second: it follows one program and lets the database move, at
every action, by anything the others may commit (`Rely`) that leaves the locked rows alone.
`System.Sound.play` is the theorem that pays for it.

What a serialization failure, a deadlock or a lost connection does to a transaction is one thing
here: an abort, which the scheduler may choose at any point, and which nobody sees the writes of.
There is no isolation beyond READ COMMITTED, and no statement-level snapshot in this file.
-/

set_option autoImplicit false

namespace Cfscan.Lib

/-! ## Programs

A program is a tree: what it does next depends on what it has read, and on whether it got a
lock it only tried for. -/

inductive Tx (σ κ ω α : Type) where
  | done (a : α)
  | view (next : σ → Tx σ κ ω α)
  | lock (key : κ) (next : Tx σ κ ω α)
  | tryLock (key : κ) (next : Bool → Tx σ κ ω α)
  | write (version : ω) (next : Tx σ κ ω α)

/-- How a transaction ends: its writes reach the database, or they do not. -/
inductive Ending (ρ : Type) where
  | commit (result : ρ)
  | rollback (result : ρ)
deriving DecidableEq, Repr

def Ending.map {ρ ρ' : Type} (f : ρ → ρ') : Ending ρ → Ending ρ'
  | .commit result => .commit (f result)
  | .rollback result => .rollback (f result)

/-- A database as a store of row versions under keys. `row` reads the version under a key, and a
write leaves every other key alone. -/
class RowStore (σ : Type) (κ ν ω : outParam Type) where
  row : σ → κ → ν
  key : ω → κ
  apply : σ → ω → σ
  row_apply : ∀ s w k, key w ≠ k → row (apply s w) k = row s k

namespace Tx

variable {σ κ ω α β γ : Type}

def bind : Tx σ κ ω α → (α → Tx σ κ ω β) → Tx σ κ ω β
  | done a, f => f a
  | view next, f => view fun s => (next s).bind f
  | lock key next, f => lock key (next.bind f)
  | tryLock key next, f => tryLock key fun taken => (next taken).bind f
  | write version next, f => write version (next.bind f)

instance : Monad (Tx σ κ ω) where
  pure := done
  bind := bind

/-- A `SELECT`: part of the database as this transaction sees it. -/
def read (f : σ → α) : Tx σ κ ω α := view fun s => done (f s)

def acquire (key : κ) : Tx σ κ ω Unit := lock key (done ())

def tryAcquire (key : κ) : Tx σ κ ω Bool := tryLock key done

def put (version : ω) : Tx σ κ ω Unit := write version (done ())

@[simp] theorem pure_eq (a : α) : (pure a : Tx σ κ ω α) = done a := rfl

@[simp] theorem bind_eq (x : Tx σ κ ω α) (f : α → Tx σ κ ω β) : x >>= f = x.bind f := rfl

/-! ### A program by itself -/

section Run

variable {ν : Type} [RowStore σ κ ν ω]

/-- Nobody else acts, so every lock is free and a write can go straight to the database. -/
def run : Tx σ κ ω α → σ → α × σ
  | done a, s => (a, s)
  | view next, s => (next s).run s
  | lock _ next, s => next.run s
  | tryLock _ next, s => (next true).run s
  | write version next, s => next.run (RowStore.apply s version)

@[simp] theorem run_done (a : α) (s : σ) : (done a : Tx σ κ ω α).run s = (a, s) := rfl

@[simp] theorem run_read (f : σ → α) (s : σ) : (read f : Tx σ κ ω α).run s = (f s, s) := rfl

@[simp] theorem run_acquire (key : κ) (s : σ) : (acquire key : Tx σ κ ω Unit).run s = ((), s) := rfl

@[simp] theorem run_tryAcquire (key : κ) (s : σ) :
    (tryAcquire key : Tx σ κ ω Bool).run s = (true, s) := rfl

@[simp] theorem run_put (version : ω) (s : σ) :
    (put version : Tx σ κ ω Unit).run s = ((), RowStore.apply s version) := rfl

@[simp] theorem run_bind (x : Tx σ κ ω α) (f : α → Tx σ κ ω β) (s : σ) :
    (x.bind f).run s = (f (x.run s).1).run (x.run s).2 := by
  induction x generalizing s with
  | done a => rfl
  | view next ih => exact ih s s
  | lock key next ih => exact ih s
  | tryLock key next ih => exact ih true s
  | write version next ih => exact ih _

/-- The whole call: what it returns, and the database it leaves. -/
def exec {ρ : Type} (x : Tx σ κ ω (Ending ρ)) (s : σ) : ρ × σ :=
  match x.run s with
  | (.commit result, s') => (result, s')
  | (.rollback result, _) => (result, s)

/-- What holds of a call that leaves the database alone, and of one that commits. -/
theorem exec_cases {ρ : Type} {x : Tx σ κ ω (Ending ρ)} {s : σ} {P : ρ × σ → Prop}
    (hs : ∀ result, P (result, s))
    (h : ∀ result s', x.run s = (.commit result, s') → P (result, s')) : P (x.exec s) := by
  unfold exec
  split
  · exact h _ _ ‹_›
  · exact hs _

end Run

end Tx

/-! ## Interleaving

The scheduler picks who acts. A lock that is taken makes its waiter's step do nothing, so
waiting is a step that can be tried again, and locks end with the transaction. A client has
one open transaction at a time. -/

/-- The writes of a transaction, in the order it made them. -/
def applyAll {σ κ ν ω : Type} [RowStore σ κ ν ω] (s : σ) (writes : List ω) : σ :=
  writes.foldl RowStore.apply s

section ApplyAll

variable {σ κ ν ω : Type} [RowStore σ κ ν ω]

@[simp] theorem applyAll_nil (s : σ) : applyAll s ([] : List ω) = s := rfl

@[simp] theorem applyAll_append (s : σ) (writes : List ω) (version : ω) :
    applyAll s (writes ++ [version]) = RowStore.apply (applyAll s writes) version := by
  simp [applyAll]

theorem row_applyAll {s : σ} {writes : List ω} {key : κ}
    (h : ∀ w ∈ writes, RowStore.key σ w ≠ key) :
    RowStore.row (applyAll s writes) key = RowStore.row s key := by
  induction writes generalizing s with
  | nil => rfl
  | cons w writes ih =>
    have hrest : ∀ w ∈ writes, RowStore.key σ w ≠ key := fun w' hw => h w' (.tail _ hw)
    exact (ih hrest).trans (RowStore.row_apply s w key (h w (.head _)))

/-- A row nobody wrote, or a row as the last write to it left it. -/
theorem row_applyAll_cases (s : σ) (writes : List ω) (key : κ) :
    (∀ w ∈ writes, RowStore.key σ w ≠ key) ∨
      ∃ w ∈ writes, RowStore.key σ w = key ∧
        ∃ s₀ : σ, RowStore.row (applyAll s writes) key =
          RowStore.row (RowStore.apply s₀ w) key := by
  induction writes using List.reverseRecOn with
  | nil => exact Or.inl fun _ hw => absurd hw List.not_mem_nil
  | append_singleton writes w ih =>
    rw [applyAll_append]
    by_cases hkey : RowStore.key σ w = key
    · exact Or.inr ⟨w, List.mem_append_right _ (List.mem_singleton_self w), hkey, _, rfl⟩
    · rw [RowStore.row_apply _ _ _ hkey]
      rcases ih with hnone | ⟨w', hw', hkey', hlast⟩
      · refine Or.inl fun w' hw' => ?_
        rcases List.mem_append.mp hw' with hold | hnew
        · exact hnone w' hold
        · rw [List.mem_singleton.mp hnew]
          exact hkey
      · exact Or.inr ⟨w', List.mem_append_left _ hw', hkey', hlast⟩

end ApplyAll

/-- An open transaction: the call it serves, what is left of its program, and what it wrote. -/
structure Session (σ κ ω op ρ : Type) where
  call : op
  prog : Tx σ κ ω (Ending ρ)
  writes : List ω

/-- The committed database, the open transactions, and who holds which row lock. -/
structure System (ι σ κ ω op ρ : Type) where
  db : σ
  sessions : ι → Option (Session σ κ ω op ρ)
  holder : κ → Option ι

/-- What the scheduler can do: let a client send a call, let one open transaction make its next
action, or have one aborted (a lost connection, a deadlock). -/
inductive Act (ι op : Type) where
  | send (client : ι) (call : op)
  | step (client : ι)
  | abort (client : ι)
deriving Repr

/-- A call that has just ended, and how. -/
structure Ended (op ρ : Type) where
  call : op
  ending : Ending ρ
deriving Repr

namespace System

variable {ι σ κ ν ω op ρ : Type} [DecidableEq ι] [DecidableEq κ] [RowStore σ κ ν ω]

def initial (db : σ) : System ι σ κ ω op ρ := ⟨db, fun _ => none, fun _ => none⟩

/-- The transaction of a client is over: its locks go with it. -/
def close (c : System ι σ κ ω op ρ) (client : ι) (db : σ) : System ι σ κ ω op ρ where
  db := db
  sessions := Function.update c.sessions client none
  holder := fun key => if c.holder key = some client then none else c.holder key

def setProg (c : System ι σ κ ω op ρ) (client : ι) (session : Session σ κ ω op ρ)
    (prog : Tx σ κ ω (Ending ρ)) : System ι σ κ ω op ρ :=
  { c with sessions := Function.update c.sessions client (some { session with prog := prog }) }

def take (c : System ι σ κ ω op ρ) (client : ι) (key : κ) : System ι σ κ ω op ρ :=
  { c with holder := Function.update c.holder key (some client) }

/-- No other transaction holds the row. -/
def free (c : System ι σ κ ω op ρ) (client : ι) (key : κ) : Bool :=
  decide (c.holder key = none) || decide (c.holder key = some client)

def stepSession (c : System ι σ κ ω op ρ) (client : ι) (session : Session σ κ ω op ρ) :
    System ι σ κ ω op ρ × Option (Ended op ρ) :=
  match session.prog with
  | .done (.commit result) =>
    (c.close client (applyAll c.db session.writes), some ⟨session.call, .commit result⟩)
  | .done (.rollback result) => (c.close client c.db, some ⟨session.call, .rollback result⟩)
  | .view next => (c.setProg client session (next (applyAll c.db session.writes)), none)
  | .lock key next =>
    if c.free client key then ((c.take client key).setProg client session next, none)
    else (c, none)
  | .tryLock key next =>
    if c.free client key then ((c.take client key).setProg client session (next true), none)
    else (c.setProg client session (next false), none)
  | .write version next =>
    (c.setProg client { session with writes := session.writes ++ [version] } next, none)

/-- One action, and the call it ended if it ended one. `program` is what a call runs. -/
def act (program : op → Tx σ κ ω (Ending ρ)) (c : System ι σ κ ω op ρ) :
    Act ι op → System ι σ κ ω op ρ × Option (Ended op ρ)
  | .send client call =>
    match c.sessions client with
    | none =>
      ({ c with sessions := Function.update c.sessions client (some ⟨call, program call, []⟩) },
        none)
    | some _ => (c, none)
  | .step client =>
    match c.sessions client with
    | none => (c, none)
    | some session => c.stepSession client session
  | .abort client =>
    match c.sessions client with
    | none => (c, none)
    | some _ => (c.close client c.db, none)

def play (program : op → Tx σ κ ω (Ending ρ)) (c : System ι σ κ ω op ρ) (acts : List (Act ι op)) :
    System ι σ κ ω op ρ :=
  acts.foldl (fun c a => (c.act program a).1) c

end System

/-! ### What an act leaves of the sessions -/

/-- The client an act is of. -/
def Act.client {ι op : Type} : Act ι op → ι
  | .send client _ => client
  | .step client => client
  | .abort client => client

section Sessions

variable {ι σ κ ν ω op ρ : Type} [DecidableEq ι] [DecidableEq κ] [RowStore σ κ ν ω]
  {program : op → Tx σ κ ω (Ending ρ)} {c : System ι σ κ ω op ρ} {client : ι}

omit [DecidableEq κ] [RowStore σ κ ν ω] in
theorem System.close_sessions_of_ne {other : ι} (h : other ≠ client) (db : σ) :
    (c.close client db).sessions other = c.sessions other :=
  Function.update_of_ne h _ _

theorem System.stepSession_sessions_of_ne {other : ι} (h : other ≠ client)
    (session : Session σ κ ω op ρ) :
    (c.stepSession client session).1.sessions other = c.sessions other := by
  unfold System.stepSession
  split
  · exact System.close_sessions_of_ne h _
  · exact System.close_sessions_of_ne h _
  · exact Function.update_of_ne h _ _
  · split
    · exact Function.update_of_ne h _ _
    · rfl
  · split
    · exact Function.update_of_ne h _ _
    · exact Function.update_of_ne h _ _
  · exact Function.update_of_ne h _ _

/-- An act of one client leaves the sessions of the others alone. -/
theorem System.act_sessions_of_ne {a : Act ι op} {other : ι} (h : other ≠ a.client) :
    (c.act program a).1.sessions other = c.sessions other := by
  cases a with
  | send client call =>
    unfold System.act
    dsimp only
    split
    · exact Function.update_of_ne h _ _
    · rfl
  | step client =>
    unfold System.act
    dsimp only
    split
    · rfl
    · exact System.stepSession_sessions_of_ne h _
  | abort client =>
    unfold System.act
    dsimp only
    split
    · rfl
    · exact System.close_sessions_of_ne h _

variable (program) in
/-- A step ends the session of its client, or leaves it with its call. -/
theorem System.step_sessions {session : Session σ κ ω op ρ}
    (h : c.sessions client = some session) :
    (∃ ending, (c.act program (.step client)).2 = some ⟨session.call, ending⟩ ∧
        (c.act program (.step client)).1.sessions client = none) ∨
      (c.act program (.step client)).2 = none ∧
        ∃ session', (c.act program (.step client)).1.sessions client = some session' ∧
          session'.call = session.call := by
  have hact : c.act program (.step client) = c.stepSession client session := by
    simp only [System.act, h]
  rw [hact]
  unfold System.stepSession
  split
  · exact Or.inl ⟨_, rfl, Function.update_self ..⟩
  · exact Or.inl ⟨_, rfl, Function.update_self ..⟩
  · exact Or.inr ⟨rfl, _, Function.update_self .., rfl⟩
  · split
    · exact Or.inr ⟨rfl, _, Function.update_self .., rfl⟩
    · exact Or.inr ⟨rfl, session, h, rfl⟩
  · split
    · exact Or.inr ⟨rfl, _, Function.update_self .., rfl⟩
    · exact Or.inr ⟨rfl, _, Function.update_self .., rfl⟩
  · exact Or.inr ⟨rfl, _, Function.update_self .., rfl⟩

theorem System.abort_sessions : (c.act program (.abort client)).1.sessions client = none := by
  unfold System.act
  dsimp only
  split
  · assumption
  · exact Function.update_self ..

theorem System.send_sessions {call : op} (h : c.sessions client = none) :
    (c.act program (.send client call)).1.sessions client = some ⟨call, program call, []⟩ := by
  simp only [System.act, h]
  exact Function.update_self ..

theorem System.send_db {call : op} : (c.act program (.send client call)).1.db = c.db := by
  unfold System.act
  dsimp only
  split <;> rfl

theorem System.abort_db : (c.act program (.abort client)).1.db = c.db := by
  unfold System.act
  dsimp only
  split <;> rfl

/-- The session of a client serves the call it served, or the one just sent. -/
theorem System.act_call {a : Act ι op} {session : Session σ κ ω op ρ}
    (h : (c.act program a).1.sessions a.client = some session) :
    (∃ old, c.sessions a.client = some old ∧ session.call = old.call) ∨
      a = .send a.client session.call := by
  cases a with
  | send client call =>
    cases hold : c.sessions client with
    | none =>
      have hnew := (System.send_sessions hold).symm.trans h
      cases hnew
      exact Or.inr rfl
    | some old =>
      simp only [System.act, hold] at h
      exact Or.inl ⟨session, h, rfl⟩
  | step client =>
    cases hold : c.sessions client with
    | none =>
      simp only [System.act, hold] at h
      exact Or.inl ⟨session, h, rfl⟩
    | some old =>
      rcases System.step_sessions program hold with ⟨_, _, hnone⟩ | ⟨_, new, hnew, hc⟩
      · cases hnone.symm.trans h
      · cases hnew.symm.trans h
        exact Or.inl ⟨old, hold, hc⟩
  | abort client => cases System.abort_sessions.symm.trans h

/-- A call that ends was the one of its client's session. -/
theorem System.act_ended {a : Act ι op} {e : Ended op ρ} (h : (c.act program a).2 = some e) :
    ∃ session, c.sessions a.client = some session ∧ e.call = session.call := by
  cases a with
  | send client call =>
    unfold System.act at h
    dsimp only at h
    split at h <;> cases h
  | step client =>
    cases hold : c.sessions client with
    | none =>
      simp only [System.act, hold] at h
      cases h
    | some old =>
      rcases System.step_sessions program hold with ⟨ending, he, _⟩ | ⟨hnone, _⟩
      · cases he.symm.trans h
        exact ⟨old, hold, rfl⟩
      · cases hnone.symm.trans h
  | abort client =>
    unfold System.act at h
    dsimp only at h
    split at h <;> cases h

/-- It had been decided. -/
theorem System.act_ending {a : Act ι op} {e : Ended op ρ} (h : (c.act program a).2 = some e) :
    ∃ session, c.sessions a.client = some session ∧ e.call = session.call ∧
      session.prog = .done e.ending := by
  obtain ⟨session, hsession, hcall⟩ := System.act_ended h
  refine ⟨session, hsession, hcall, ?_⟩
  cases a with
  | step client =>
    simp only [System.act, Act.client] at hsession h
    rw [hsession] at h
    simp only [System.stepSession] at h
    split at h
    · rename_i hdone
      cases h
      exact hdone
    · rename_i hdone
      cases h
      exact hdone
    · cases h
    · split at h <;> cases h
    · split at h <;> cases h
    · cases h
  | send client call =>
    simp only [System.act, Act.client] at hsession h
    rw [hsession] at h
    cases h
  | abort client =>
    simp only [System.act, Act.client] at hsession h
    rw [hsession] at h
    cases h

end Sessions

/-! ## Rely and guarantee

`Safe` is defined by recursion on the program. At a read or a lock the database may have
moved by anything in `rely` that leaves the locked rows alone; a write is to a locked row,
and moves nothing before the commit. -/

section Safe

variable {σ κ ν ω α β : Type} [RowStore σ κ ν ω]

/-- What other transactions can have committed meanwhile: anything within `rely` that leaves the
locked rows as they are. -/
def Later (rely : σ → σ → Prop) (locked : κ → Prop) (s s' : σ) : Prop :=
  rely s s' ∧ ∀ key, locked key → RowStore.row s' key = RowStore.row s key

/-- A program from here on: whatever the others do between its actions, it ends in `post`, and it
writes only rows it has locked. `s` is the database it last knew. -/
def Safe (rely : σ → σ → Prop) (post : α → (κ → Prop) → List ω → σ → Prop) :
    Tx σ κ ω α → (κ → Prop) → List ω → σ → Prop
  | .done a, locked, writes, s => post a locked writes s
  | .view next, locked, writes, s =>
    ∀ s', Later rely locked s s' → Safe rely post (next (applyAll s' writes)) locked writes s'
  | .lock key next, locked, writes, s =>
    ∀ s', Later rely locked s s' →
      Safe rely post next (fun key' => key' = key ∨ locked key') writes s'
  | .tryLock key next, locked, writes, s =>
    (∀ s', Later rely locked s s' →
      Safe rely post (next true) (fun key' => key' = key ∨ locked key') writes s') ∧
    ∀ s', Later rely locked s s' → Safe rely post (next false) locked writes s'
  | .write version next, locked, writes, s =>
    locked (RowStore.key σ version) ∧ Safe rely post next locked (writes ++ [version]) s

variable {rely : σ → σ → Prop} {locked : κ → Prop} {s s' s'' : σ} {writes : List ω}

theorem Later.refl (hrefl : ∀ s, rely s s) : Later rely locked s s := ⟨hrefl s, fun _ _ => rfl⟩

theorem Later.trans (htrans : ∀ a b c, rely a b → rely b c → rely a c)
    (h : Later rely locked s s') (h' : Later rely locked s' s'') : Later rely locked s s'' :=
  ⟨htrans _ _ _ h.1 h'.1, fun key hkey => (h'.2 key hkey).trans (h.2 key hkey)⟩

theorem safe_bind {post : β → (κ → Prop) → List ω → σ → Prop} {x : Tx σ κ ω α}
    {f : α → Tx σ κ ω β} :
    Safe rely post (x.bind f) locked writes s ↔
      Safe rely (fun a locked writes s => Safe rely post (f a) locked writes s) x locked writes
        s := by
  induction x generalizing locked writes s with
  | done a => rfl
  | view next ih => exact forall_congr' fun s' => imp_congr Iff.rfl (ih _)
  | lock key next ih => exact forall_congr' fun s' => imp_congr Iff.rfl ih
  | tryLock key next ih =>
    exact and_congr (forall_congr' fun s' => imp_congr Iff.rfl (ih true))
      (forall_congr' fun s' => imp_congr Iff.rfl (ih false))
  | write version next ih => exact and_congr Iff.rfl ih

/-- The consequence rule. -/
theorem Safe.weaken {post post' : α → (κ → Prop) → List ω → σ → Prop} {x : Tx σ κ ω α}
    (h : Safe rely post x locked writes s)
    (himp : ∀ a locked writes s, post a locked writes s → post' a locked writes s) :
    Safe rely post' x locked writes s := by
  induction x generalizing locked writes s with
  | done a => exact himp _ _ _ _ h
  | view next ih => exact fun s' hs' => ih _ (h s' hs')
  | lock key next ih => exact fun s' hs' => ih (h s' hs')
  | tryLock key next ih =>
    exact ⟨fun s' hs' => ih true (h.1 s' hs'), fun s' hs' => ih false (h.2 s' hs')⟩
  | write version next ih => exact ⟨h.1, ih h.2⟩

/-- What is safe from one database is safe from every later one. -/
theorem Safe.later {post : α → (κ → Prop) → List ω → σ → Prop} {x : Tx σ κ ω α}
    (htrans : ∀ a b c, rely a b → rely b c → rely a c)
    (hpost : ∀ a locked writes s s', post a locked writes s → Later rely locked s s' →
      post a locked writes s')
    (h : Safe rely post x locked writes s) (hlater : Later rely locked s s') :
    Safe rely post x locked writes s' := by
  induction x generalizing locked writes with
  | done a => exact hpost _ _ _ _ _ h hlater
  | view next _ => exact fun s'' hs'' => h s'' (hlater.trans htrans hs'')
  | lock key next _ => exact fun s'' hs'' => h s'' (hlater.trans htrans hs'')
  | tryLock key next _ =>
    exact ⟨fun s'' hs'' => h.1 s'' (hlater.trans htrans hs''),
      fun s'' hs'' => h.2 s'' (hlater.trans htrans hs'')⟩
  | write version next ih => exact ⟨h.1, ih h.2 hlater⟩

/-- The postcondition of a whole call: it holds of the database the call ends in, whichever later
one that is, and a commit is itself something the others can rely on. -/
def Ends {ρ : Type} (rely : σ → σ → Prop) (post : Ending ρ → σ → σ → Prop) :
    Ending ρ → (κ → Prop) → List ω → σ → Prop
  | .commit result, locked, writes, s => ∀ s', Later rely locked s s' →
    rely s' (applyAll s' writes) ∧ post (.commit result) s' (applyAll s' writes)
  | .rollback result, locked, _, s => ∀ s', Later rely locked s s' → post (.rollback result) s' s'

theorem Ends.later {ρ : Type} {post : Ending ρ → σ → σ → Prop}
    (htrans : ∀ a b c, rely a b → rely b c → rely a c) {e : Ending ρ}
    (h : Ends rely post e locked writes s) (hlater : Later rely locked s s') :
    Ends rely post e locked writes s' := by
  cases e with
  | commit result => exact fun s'' hs'' => h s'' (hlater.trans htrans hs'')
  | rollback result => exact fun s'' hs'' => h s'' (hlater.trans htrans hs'')

end Safe

/-! ### Soundness -/

section Sound

variable {ι σ κ ν ω op ρ : Type} [DecidableEq ι] [DecidableEq κ] [RowStore σ κ ν ω]

/-- Every open transaction is safe, and wrote only what it holds. -/
structure System.Sound (rely : σ → σ → Prop) (good : σ → Prop)
    (post : op → Ending ρ → σ → σ → Prop) (c : System ι σ κ ω op ρ) : Prop where
  good : good c.db
  idle : ∀ client, c.sessions client = none → ∀ key, c.holder key ≠ some client
  owns : ∀ client session, c.sessions client = some session →
    ∀ w ∈ session.writes, c.holder (RowStore.key σ w) = some client
  safe : ∀ client session, c.sessions client = some session →
    Safe rely (Ends rely (post session.call)) session.prog
      (fun key => c.holder key = some client) session.writes c.db

variable {rely : σ → σ → Prop} {good : σ → Prop} {post : op → Ending ρ → σ → σ → Prop}

omit [DecidableEq ι] [DecidableEq κ] in
theorem System.Sound.initial {db : σ} (h : good db) :
    (System.initial db : System ι σ κ ω op ρ).Sound rely good post where
  good := h
  idle := fun _ _ _ h => by cases h
  owns := fun _ _ h => by cases h
  safe := fun _ _ h => by cases h

/-- What an act guarantees: the database moves only when a call commits, and the call then meets
its postcondition. -/
def Guarantee (post : op → Ending ρ → σ → σ → Prop) (s s' : σ) : Option (Ended op ρ) → Prop
  | none => s' = s
  | some e => post e.call e.ending s s'

variable {c : System ι σ κ ω op ρ} {client : ι}

omit [DecidableEq κ] in
/-- A transaction ends: the others keep their locks, and see a database that is later for them. -/
theorem System.Sound.close (h : c.Sound rely good post)
    (htrans : ∀ a b c, rely a b → rely b c → rely a c) {db : σ} (hgood : good db)
    (hrely : rely c.db db)
    (hrows : ∀ key, c.holder key ≠ some client → RowStore.row db key = RowStore.row c.db key) :
    (c.close client db).Sound rely good post := by
  have hother : ∀ other session, (c.close client db).sessions other = some session →
      other ≠ client ∧ c.sessions other = some session := by
    intro other session hs
    by_cases heq : other = client
    · subst heq
      simp [System.close] at hs
    · exact ⟨heq, by simpa [System.close, Function.update_of_ne heq] using hs⟩
  -- the locks of the client are free again, and no others
  have hheld : ∀ other, other ≠ client → ∀ key,
      ((c.close client db).holder key = some other ↔ c.holder key = some other) := by
    intro other hne key
    simp only [System.close]
    by_cases hkey : c.holder key = some client
    · rw [if_pos hkey, hkey]
      simp [Ne.symm hne]
    · rw [if_neg hkey]
  refine ⟨hgood, ?_, ?_, ?_⟩
  · intro other hs key hkey
    by_cases heq : other = client
    · subst heq
      simp only [System.close] at hkey
      split at hkey
      · cases hkey
      · rename_i hne
        exact hne hkey
    · simp only [System.close, Function.update_of_ne heq] at hs
      exact h.idle other hs key ((hheld other heq key).mp hkey)
  · intro other session hs w hw
    obtain ⟨hne, hs⟩ := hother other session hs
    exact (hheld other hne _).mpr (h.owns other session hs w hw)
  · intro other session hs
    obtain ⟨hne, hs⟩ := hother other session hs
    have hlocked : (fun key => (c.close client db).holder key = some other) =
        fun key => c.holder key = some other :=
      funext fun key => propext (hheld other hne key)
    -- the others see a later database, in which the rows they hold are unchanged
    rw [hlocked]
    refine (h.safe other session hs).later htrans (fun _ _ _ _ _ he hl => he.later htrans hl)
      ⟨hrely, fun key hkey => hrows key ?_⟩
    rw [hkey]
    exact fun heq => hne (Option.some.inj heq)

omit [DecidableEq κ] in
/-- A transaction moves on without ending: only its own entry, and the locks it takes, change. -/
theorem System.Sound.advance (h : c.Sound rely good post) {session : Session σ κ ω op ρ}
    {holder : κ → Option ι}
    (hholder : ∀ other, other ≠ client → ∀ key,
      (holder key = some other ↔ c.holder key = some other))
    (howns : ∀ w ∈ session.writes, holder (RowStore.key σ w) = some client)
    (hsafe : Safe rely (Ends rely (post session.call)) session.prog
      (fun key => holder key = some client) session.writes c.db) :
    ({ db := c.db, sessions := Function.update c.sessions client (some session),
       holder := holder } : System ι σ κ ω op ρ).Sound rely good post := by
  refine ⟨h.good, ?_, ?_, ?_⟩
  · intro other hs key hkey
    by_cases heq : other = client
    · subst heq
      simp at hs
    · simp only [Function.update_of_ne heq] at hs
      exact h.idle other hs key ((hholder other heq key).mp hkey)
  · intro other session' hs w hw
    by_cases heq : other = client
    · subst heq
      simp only [Function.update_self, Option.some.injEq] at hs
      subst hs
      exact howns w hw
    · simp only [Function.update_of_ne heq] at hs
      exact (hholder other heq _).mpr (h.owns other session' hs w hw)
  · intro other session' hs
    by_cases heq : other = client
    · subst heq
      simp only [Function.update_self, Option.some.injEq] at hs
      subst hs
      exact hsafe
    · simp only [Function.update_of_ne heq] at hs
      have hlocked : (fun key => holder key = some other) = fun key => c.holder key = some other :=
        funext fun key => propext (hholder other heq key)
      rw [hlocked]
      exact h.safe other session' hs

omit [RowStore σ κ ν ω] in
/-- Taking a free lock adds one key to the client's and none to anybody else's. -/
theorem System.take_holder {key : κ} (hfree : c.free client key = true) :
    (fun key' => (c.take client key).holder key' = some client) =
        (fun key' => key' = key ∨ c.holder key' = some client) ∧
      ∀ other, other ≠ client → ∀ key',
        ((c.take client key).holder key' = some other ↔ c.holder key' = some other) := by
  simp only [System.free, Bool.or_eq_true, decide_eq_true_eq] at hfree
  simp only [System.take]
  constructor
  · funext key'
    by_cases heq : key' = key
    · simp [heq]
    · simp [heq]
  · intro other hne key'
    by_cases heq : key' = key
    · subst heq
      rw [Function.update_self]
      rcases hfree with hfree | hfree
      · simp [hfree, Ne.symm hne]
      · simp [hfree, Ne.symm hne]
    · rw [Function.update_of_ne heq]

theorem System.Sound.stepSession (h : c.Sound rely good post)
    (hrefl : ∀ s, rely s s) (htrans : ∀ a b c, rely a b → rely b c → rely a c)
    (hgood : ∀ s s', good s → rely s s' → good s') {session : Session σ κ ω op ρ}
    (hsession : c.sessions client = some session) :
    (c.stepSession client session).1.Sound rely good post ∧
      rely c.db (c.stepSession client session).1.db ∧
      Guarantee post c.db (c.stepSession client session).1.db (c.stepSession client session).2 := by
  have howns := h.owns client session hsession
  have hsafe := h.safe client session hsession
  obtain ⟨call, prog, writes⟩ := session
  cases prog with
  | done e =>
    cases e with
    | commit result =>
      -- a commit: the writes are to rows it holds, so nobody else's locked row changes
      have hend := hsafe c.db (.refl hrefl)
      refine ⟨h.close htrans (hgood _ _ h.good hend.1) hend.1 ?_, hend.1, hend.2⟩
      intro key hkey
      exact row_applyAll fun w hw heq => hkey (heq ▸ howns w hw)
    | rollback result =>
      exact ⟨h.close htrans h.good (hrefl _) fun _ _ => rfl, hrefl _, hsafe c.db (.refl hrefl)⟩
  | view next =>
    exact ⟨h.advance (fun _ _ _ => Iff.rfl) howns (hsafe c.db (.refl hrefl)), hrefl _, rfl⟩
  | lock key next =>
    unfold System.stepSession
    dsimp only
    by_cases hfree : c.free client key = true
    · rw [if_pos hfree]
      obtain ⟨hmine, hothers⟩ := System.take_holder hfree
      refine ⟨h.advance hothers (fun w hw => ?_) ?_, hrefl _, rfl⟩
      · exact (congrFun hmine _).mpr (Or.inr (howns w hw))
      · rw [hmine]
        exact hsafe c.db (.refl hrefl)
    · rw [if_neg hfree]
      -- it has to wait
      exact ⟨h, hrefl _, rfl⟩
  | tryLock key next =>
    unfold System.stepSession
    dsimp only
    by_cases hfree : c.free client key = true
    · rw [if_pos hfree]
      obtain ⟨hmine, hothers⟩ := System.take_holder hfree
      refine ⟨h.advance hothers (fun w hw => ?_) ?_, hrefl _, rfl⟩
      · exact (congrFun hmine _).mpr (Or.inr (howns w hw))
      · rw [hmine]
        exact hsafe.1 c.db (.refl hrefl)
    · rw [if_neg hfree]
      exact ⟨h.advance (fun _ _ _ => Iff.rfl) howns (hsafe.2 c.db (.refl hrefl)), hrefl _, rfl⟩
  | write version next =>
    refine ⟨h.advance (fun _ _ _ => Iff.rfl) ?_ hsafe.2, hrefl _, rfl⟩
    intro w hw
    rcases List.mem_append.mp hw with hw | hw
    · exact howns w hw
    · rw [List.mem_singleton.mp hw]
      exact hsafe.1

/-- **One act of an interleaving.** When the program of every call is safe from every good
database, an act keeps the system sound, moves the database within `rely`, and ends a call only in
its postcondition. -/
theorem System.Sound.act {program : op → Tx σ κ ω (Ending ρ)} (h : c.Sound rely good post)
    (hrefl : ∀ s, rely s s) (htrans : ∀ a b c, rely a b → rely b c → rely a c)
    (hgood : ∀ s s', good s → rely s s' → good s')
    (hprogram : ∀ call s, good s →
      Safe rely (Ends rely (post call)) (program call) (fun _ => False) [] s)
    (a : Act ι op) :
    (c.act program a).1.Sound rely good post ∧ rely c.db (c.act program a).1.db ∧
      Guarantee post c.db (c.act program a).1.db (c.act program a).2 := by
  have hstay : (c, (none : Option (Ended op ρ))).1.Sound rely good post ∧ rely c.db c.db ∧
      Guarantee post c.db c.db none := ⟨h, hrefl _, rfl⟩
  cases a with
  | send client call =>
    unfold System.act
    dsimp only
    split
    · rename_i hidle
      refine ⟨h.advance (fun _ _ _ => Iff.rfl) (fun w hw => by cases hw) ?_, hrefl _, rfl⟩
      have hnone : (fun key => c.holder key = some client) = fun _ => False :=
        funext fun key => propext (iff_false_intro (h.idle client hidle key))
      rw [hnone]
      exact hprogram call c.db h.good
    · exact hstay
  | step client =>
    unfold System.act
    dsimp only
    split
    · exact hstay
    · rename_i session hsession
      exact h.stepSession hrefl htrans hgood hsession
  | abort client =>
    unfold System.act
    dsimp only
    split
    · exact hstay
    · exact ⟨h.close htrans h.good (hrefl _) fun _ _ => rfl, hrefl _, rfl⟩

/-- A run of an interleaving. -/
theorem System.Sound.play {program : op → Tx σ κ ω (Ending ρ)} (h : c.Sound rely good post)
    (hrefl : ∀ s, rely s s) (htrans : ∀ a b c, rely a b → rely b c → rely a c)
    (hgood : ∀ s s', good s → rely s s' → good s')
    (hprogram : ∀ call s, good s →
      Safe rely (Ends rely (post call)) (program call) (fun _ => False) [] s)
    (acts : List (Act ι op)) :
    (c.play program acts).Sound rely good post ∧ rely c.db (c.play program acts).db := by
  induction acts generalizing c with
  | nil => exact ⟨h, hrefl _⟩
  | cons a acts ih =>
    obtain ⟨hsound, hrely, _⟩ := h.act hrefl htrans hgood hprogram a
    obtain ⟨hsound', hrely'⟩ := ih hsound
    exact ⟨hsound', htrans _ _ _ hrely hrely'⟩

end Sound

end Cfscan.Lib
