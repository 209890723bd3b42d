import Cfscan.Lib.Statement

/-!
# Locks that guard more than a row

A lock can stand for a rule the transactions agree on, such as an advisory lock that has to be held
by whoever takes something away. `guard key s s'` is what a holder of `key` may expect of the
changes the others commit meanwhile; in return a commit has to keep the guard of every key its
transaction does not hold.

`Secure` follows one program under this rule. What it shows of the program's outcome holds at the
moment the outcome is decided, by the last action before it, and need not hold any longer when the
call ends; `Settles` is the part that does.

The difference to `Safe` is in what the others may do. There it is one relation, whatever is locked;
here every key that is held rules something out, and a key that stands for no row can rule out what
no row lock does.
-/

set_option autoImplicit false

namespace Cfscan.Lib

/-! ## Programs

As for `Safe`, but the database may also move before a write, and a write needs no lock.
What the others may do depends on the keys held at that moment and on nothing else. -/

section Secure

variable {σ κ ν ω α β : Type} [RowStore σ κ ν ω]

structure IsGuard (guard : κ → σ → σ → Prop) : Prop where
  refl : ∀ key s, guard key s s
  trans : ∀ key s s' s'', guard key s s' → guard key s' s'' → guard key s s''

/-- What the others can have committed meanwhile. -/
def Meanwhile (guard : κ → σ → σ → Prop) (locked : κ → Prop) (s s' : σ) : Prop :=
  ∀ key, locked key → guard key s s'

/-- A program from here on: whatever the others do between its actions, `post` holds when its
outcome is decided. `s` is the database at its last action. -/
def Secure (guard : κ → σ → σ → Prop) (post : α → (κ → Prop) → List ω → σ → Prop) :
    Tx σ κ ω α → (κ → Prop) → List ω → σ → Prop
  | .done a, locked, writes, s => post a locked writes s
  | .view next, locked, writes, s => ∀ s', Meanwhile guard locked s s' →
    Secure guard post (next (applyAll s' writes)) locked writes s'
  | .lock key next, locked, writes, s => ∀ s', Meanwhile guard locked s s' →
    Secure guard post next (fun key' => key' = key ∨ locked key') writes s'
  | .tryLock key next, locked, writes, s => ∀ s', Meanwhile guard locked s s' →
    Secure guard post (next true) (fun key' => key' = key ∨ locked key') writes s' ∧
      Secure guard post (next false) locked writes s'
  | .write version next, locked, writes, s => ∀ s', Meanwhile guard locked s s' →
    Secure guard post next locked (writes ++ [version]) s'

variable {guard : κ → σ → σ → Prop} {locked : κ → Prop} {writes : List ω} {s s' s'' : σ}

theorem Meanwhile.refl (hguard : IsGuard guard) : Meanwhile guard locked s s :=
  fun key _ => hguard.refl key s

theorem Meanwhile.trans (hguard : IsGuard guard) (h : Meanwhile guard locked s s')
    (h' : Meanwhile guard locked s' s'') : Meanwhile guard locked s s'' :=
  fun key hkey => hguard.trans key s s' s'' (h key hkey) (h' key hkey)

theorem secure_bind {post : β → (κ → Prop) → List ω → σ → Prop} {x : Tx σ κ ω α}
    {f : α → Tx σ κ ω β} :
    Secure guard post (x.bind f) locked writes s ↔
      Secure guard (fun a locked writes s => Secure guard post (f a) locked writes s) x locked
        writes s := by
  induction x generalizing locked writes s with
  | done a => rfl
  | view next ih => exact forall_congr' fun s' => imp_congr Iff.rfl (ih _)
  | lock key next ih => exact forall_congr' fun s' => imp_congr Iff.rfl ih
  | tryLock key next ih =>
    exact forall_congr' fun s' => imp_congr Iff.rfl (and_congr (ih true) (ih false))
  | write version next ih => exact forall_congr' fun s' => imp_congr Iff.rfl ih

/-- The consequence rule. -/
theorem Secure.weaken {post post' : α → (κ → Prop) → List ω → σ → Prop} {x : Tx σ κ ω α}
    (h : Secure guard post x locked writes s)
    (himp : ∀ a locked writes s, post a locked writes s → post' a locked writes s) :
    Secure guard post' x locked writes s := by
  induction x generalizing locked writes s with
  | done a => exact himp _ _ _ _ h
  | view next ih => exact fun s' hs' => ih _ (h s' hs')
  | lock key next ih => exact fun s' hs' => ih (h s' hs')
  | tryLock key next ih => exact fun s' hs' => ⟨ih true (h s' hs').1, ih false (h s' hs').2⟩
  | write version next ih => exact fun s' hs' => ih (h s' hs')

/-- As long as the outcome is not decided, what is secure stays so. -/
theorem Secure.later (hguard : IsGuard guard) {post : α → (κ → Prop) → List ω → σ → Prop}
    {x : Tx σ κ ω α} (hopen : ∀ a, x ≠ .done a) (h : Secure guard post x locked writes s)
    (hlater : Meanwhile guard locked s s') : Secure guard post x locked writes s' := by
  cases x with
  | done a => exact absurd rfl (hopen a)
  | view next => exact fun s'' hs'' => h s'' (hlater.trans hguard hs'')
  | lock key next => exact fun s'' hs'' => h s'' (hlater.trans hguard hs'')
  | tryLock key next => exact fun s'' hs'' => h s'' (hlater.trans hguard hs'')
  | write version next => exact fun s'' hs'' => h s'' (hlater.trans hguard hs'')

/-! ### Statements -/

theorem secure_read {g : σ → α} {next : α → Tx σ κ ω β}
    {post : β → (κ → Prop) → List ω → σ → Prop}
    (h : ∀ s', Meanwhile guard locked s s' →
      Secure guard post (next (g (applyAll s' writes))) locked writes s') :
    Secure guard post ((Tx.read g).bind next) locked writes s := h

theorem secure_acquire {key : κ} {next : Unit → Tx σ κ ω β}
    {post : β → (κ → Prop) → List ω → σ → Prop}
    (h : ∀ s', Meanwhile guard locked s s' →
      Secure guard post (next ()) (fun key' => key' = key ∨ locked key') writes s') :
    Secure guard post ((Tx.acquire key).bind next) locked writes s := h

theorem secure_put {version : ω} {next : Unit → Tx σ κ ω β}
    {post : β → (κ → Prop) → List ω → σ → Prop}
    (h : ∀ s', Meanwhile guard locked s s' →
      Secure guard post (next ()) locked (writes ++ [version]) s') :
    Secure guard post ((Tx.put version).bind next) locked writes s := h

/-- An invariant that the others respect, and that outlasts a lock. -/
structure Lasts (guard : κ → σ → σ → Prop) (inv : (κ → Prop) → List ω → σ → Prop) : Prop where
  later : ∀ locked writes s s', inv locked writes s → Meanwhile guard locked s s' →
    inv locked writes s'
  lock : ∀ locked writes s key, inv locked writes s →
    inv (fun key' => key' = key ∨ locked key') writes s

theorem Lasts.and {inv inv' : (κ → Prop) → List ω → σ → Prop} (h : Lasts guard inv)
    (h' : Lasts guard inv') : Lasts guard fun locked writes s =>
      inv locked writes s ∧ inv' locked writes s where
  later := fun _ _ _ _ hi hl => ⟨h.later _ _ _ _ hi.1 hl, h'.later _ _ _ _ hi.2 hl⟩
  lock := fun _ _ _ key hi => ⟨h.lock _ _ _ key hi.1, h'.lock _ _ _ key hi.2⟩

variable {ι ρ : Type} [DecidableEq ι] {key : ρ → ι}

/-- `SELECT … FOR UPDATE`. -/
theorem secure_selectForUpdate (T : TableIn σ κ ν ω ι ρ key) {k : ι}
    {inv : (κ → Prop) → List ω → σ → Prop} (hlasts : Lasts guard inv)
    (h : inv locked writes s) :
    Secure guard (fun row locked writes s => inv locked writes s ∧ ∀ r, row = some r →
        locked (T.lockKey k) ∧ (T.get (applyAll s writes)).find? k = some r)
      (T.selectForUpdate k) locked writes s := by
  unfold TableIn.selectForUpdate
  refine secure_read fun s₁ h₁ => ?_
  have hinv := hlasts.later _ _ _ _ h h₁
  split
  · exact ⟨hinv, fun _ hr => by cases hr⟩
  · refine secure_acquire fun s₂ h₂ s₃ h₃ => ⟨?_, fun r hr => ⟨Or.inl rfl, hr⟩⟩
    exact hlasts.later _ _ _ _ (hlasts.lock _ _ _ _ (hlasts.later _ _ _ _ hinv h₂)) h₃

/-- `UPDATE … WHERE`: each write is over the version seen under the lock of its row. -/
theorem secure_updateWhere (T : TableIn σ κ ν ω ι ρ key) {p : ρ → Bool} {f : ρ → ρ}
    {inv : (κ → Prop) → List ω → σ → Prop} (hlasts : Lasts guard inv)
    (hwrite : ∀ locked writes s r, inv locked writes s → locked (T.lockKey (key r)) →
      (T.get (applyAll s writes)).find? (key r) = some r → p r = true →
      inv locked (writes ++ [T.version (f r)]) s)
    (h : inv locked writes s) :
    Secure guard (fun _ => inv) (T.updateWhere p f) locked writes s := by
  have heach : ∀ (ks : List ι) (acc : List ρ) (locked : κ → Prop) (writes : List ω) (s : σ),
      inv locked writes s → Secure guard (fun _ => inv) (T.updateEach p f ks acc) locked writes s := by
    intro ks
    induction ks with
    | nil => exact fun _ _ _ _ h => h
    | cons k ks ih =>
      intro acc locked writes s h
      unfold TableIn.updateEach
      refine secure_acquire fun s₁ h₁ => secure_read fun s₂ h₂ => ?_
      have hinv := hlasts.later _ _ _ _
        (hlasts.lock _ _ _ (T.lockKey k) (hlasts.later _ _ _ _ h h₁)) h₂
      split
      · exact ih _ _ _ _ hinv
      · rename_i r hseen
        obtain rfl : key r = k := Table.key_of_find? hseen
        split
        · rename_i hp
          exact secure_put fun s₃ h₃ => ih _ _ _ _
            (hlasts.later _ _ _ _ (hwrite _ _ _ r hinv (Or.inl rfl) hseen hp) h₃)
        · exact ih _ _ _ _ hinv
  unfold TableIn.updateWhere
  exact secure_read fun s₁ h₁ => heach _ _ _ _ _ (hlasts.later _ _ _ _ h h₁)

/-- What stays true of a decided outcome until the call ends: a commit is within `rely`, and keeps
the guards the transaction does not hold. -/
def Settles {ρ : Type} (guard : κ → σ → σ → Prop) (rely : σ → σ → Prop) :
    Ending ρ → (κ → Prop) → List ω → σ → Prop
  | .commit _, locked, writes, s => ∀ s', Meanwhile guard locked s s' →
    rely s' (applyAll s' writes) ∧ ∀ key, ¬ locked key → guard key s' (applyAll s' writes)
  | .rollback _, _, _, _ => True

theorem Settles.later {ρ : Type} (hguard : IsGuard guard) {rely : σ → σ → Prop} {e : Ending ρ}
    (h : Settles guard rely e locked writes s) (hlater : Meanwhile guard locked s s') :
    Settles guard rely e locked writes s' := by
  cases e with
  | commit result => exact fun s'' hs'' => h s'' (hlater.trans hguard hs'')
  | rollback result => trivial

end Secure

/-! ## Interleaving

A transaction whose program is done still has to settle: others may act until its commit
comes. What decided its outcome was true when its last action happened, and is not asked for
again. -/

section System

variable {ι σ κ ν ω op ρ : Type} [DecidableEq ι] [DecidableEq κ] [RowStore σ κ ν ω]

/-- An open transaction: its outcome is decided, and settles; or it is not, and what is left of the
program is secure. -/
def Ready (guard : κ → σ → σ → Prop) (rely : σ → σ → Prop)
    (decided : Ending ρ → σ → Prop) (prog : Tx σ κ ω (Ending ρ)) (locked : κ → Prop)
    (writes : List ω) (s : σ) : Prop :=
  (∃ e, prog = .done e ∧ Settles guard rely e locked writes s) ∨
    ((∀ e, prog ≠ .done e) ∧ Secure guard (fun e locked writes s =>
      Settles guard rely e locked writes s ∧ decided e s) prog locked writes s)

structure System.Guarded (guard : κ → σ → σ → Prop) (rely : σ → σ → Prop)
    (decided : op → Ending ρ → σ → Prop) (c : System ι σ κ ω op ρ) : Prop where
  idle : ∀ client, c.sessions client = none → ∀ key, c.holder key ≠ some client
  ready : ∀ client session, c.sessions client = some session →
    Ready guard rely (decided session.call) session.prog (fun key => c.holder key = some client)
      session.writes c.db

variable {guard : κ → σ → σ → Prop} {rely : σ → σ → Prop} {decided : op → Ending ρ → σ → Prop}
  {c : System ι σ κ ω op ρ} {client : ι} {prog : Tx σ κ ω (Ending ρ)} {locked : κ → Prop}
  {writes : List ω} {s s' : σ}

omit [DecidableEq ι] [DecidableEq κ] in
theorem Ready.of_secure {d : Ending ρ → σ → Prop}
    (h : Secure guard (fun e locked writes s => Settles guard rely e locked writes s ∧ d e s)
      prog locked writes s) : Ready guard rely d prog locked writes s := by
  by_cases hdone : ∃ e, prog = .done e
  · obtain ⟨e, rfl⟩ := hdone
    exact Or.inl ⟨e, rfl, h.1⟩
  · exact Or.inr ⟨not_exists.mp hdone, h⟩

omit [DecidableEq ι] [DecidableEq κ] in
theorem Ready.later {d : Ending ρ → σ → Prop} (hguard : IsGuard guard)
    (h : Ready guard rely d prog locked writes s) (hlater : Meanwhile guard locked s s') :
    Ready guard rely d prog locked writes s' := by
  rcases h with ⟨e, rfl, hsettles⟩ | ⟨hopen, hsecure⟩
  · exact Or.inl ⟨e, rfl, hsettles.later hguard hlater⟩
  · exact Or.inr ⟨hopen, hsecure.later hguard hopen hlater⟩

omit [DecidableEq ι] [DecidableEq κ] in
theorem System.Guarded.initial (db : σ) :
    (System.initial db : System ι σ κ ω op ρ).Guarded guard rely decided where
  idle := fun _ _ _ h => by cases h
  ready := fun _ _ h => by cases h

omit [DecidableEq κ] in
/-- A transaction ends: for the others this is a change they are prepared for. -/
theorem System.Guarded.close (hguard : IsGuard guard) (h : c.Guarded guard rely decided) {db : σ}
    (hkeys : ∀ key, c.holder key ≠ some client → guard key c.db db) :
    (c.close client db).Guarded guard rely decided := by
  have hheld : ∀ other, other ≠ client → ∀ key,
      ((c.close client db).holder key = some other ↔ c.holder key = some other) := by
    intro other hne key
    simp only [System.close]
    by_cases hkey : c.holder key = some client
    · rw [if_pos hkey, hkey]
      simp [Ne.symm hne]
    · rw [if_neg hkey]
  refine ⟨fun other hs key hkey => ?_, fun other session hs => ?_⟩
  · by_cases heq : other = client
    · subst heq
      simp only [System.close] at hkey
      split at hkey
      · cases hkey
      · rename_i hne
        exact hne hkey
    · rw [System.close_sessions_of_ne heq] at hs
      exact h.idle other hs key ((hheld other heq key).mp hkey)
  · by_cases heq : other = client
    · subst heq
      simp [System.close] at hs
    · rw [System.close_sessions_of_ne heq] at hs
      have hlocked : (fun key => (c.close client db).holder key = some other) =
          fun key => c.holder key = some other :=
        funext fun key => propext (hheld other heq key)
      rw [hlocked]
      refine (h.ready other session hs).later hguard fun key hkey => hkeys key ?_
      rw [hkey]
      exact fun hsame => heq (Option.some.inj hsame)

omit [DecidableEq κ] in
/-- A transaction moves on: only its own entry changes, and the locks it takes. -/
theorem System.Guarded.advance (h : c.Guarded guard rely decided) {session : Session σ κ ω op ρ}
    {holder : κ → Option ι}
    (hholder : ∀ other, other ≠ client → ∀ key,
      (holder key = some other ↔ c.holder key = some other))
    (hready : Ready guard rely (decided session.call) session.prog
      (fun key => holder key = some client) session.writes c.db) :
    ({ db := c.db, sessions := Function.update c.sessions client (some session),
       holder := holder } : System ι σ κ ω op ρ).Guarded guard rely decided := by
  refine ⟨fun other hs key hkey => ?_, fun other session' hs => ?_⟩
  · by_cases heq : other = client
    · subst heq
      simp at hs
    · simp only [Function.update_of_ne heq] at hs
      exact h.idle other hs key ((hholder other heq key).mp hkey)
  · by_cases heq : other = client
    · subst heq
      simp only [Function.update_self, Option.some.injEq] at hs
      subst hs
      exact hready
    · simp only [Function.update_of_ne heq] at hs
      have hlocked : (fun key => holder key = some other) = fun key => c.holder key = some other :=
        funext fun key => propext (hholder other heq key)
      rw [hlocked]
      exact h.ready other session' hs

/-- What an act does under the rule: the database moves within `rely`, and an outcome it decides is
decided of the database as it is. -/
structure System.Obeys (guard : κ → σ → σ → Prop) (rely : σ → σ → Prop)
    (decided : op → Ending ρ → σ → Prop) (c c' : System ι σ κ ω op ρ) : Prop where
  guarded : c'.Guarded guard rely decided
  rely : rely c.db c'.db
  decides : ∀ client session, c'.sessions client = some session → ∀ e, session.prog = .done e →
    (∀ old, c.sessions client = some old → ∀ e, old.prog ≠ .done e) → decided session.call e c'.db

omit [DecidableEq κ] in
/-- A transaction moves on from a program that was not decided. -/
theorem System.Guarded.obeys (h : c.Guarded guard rely decided) (hrefl : ∀ s, rely s s)
    (session : Session σ κ ω op ρ) {holder : κ → Option ι}
    (hholder : ∀ other, other ≠ client → ∀ key,
      (holder key = some other ↔ c.holder key = some other))
    (hsecure : Secure guard (fun e locked writes s =>
        Settles guard rely e locked writes s ∧ decided session.call e s)
      session.prog (fun key => holder key = some client) session.writes c.db) :
    System.Obeys guard rely decided c
      { db := c.db, sessions := Function.update c.sessions client (some session),
        holder := holder } where
  guarded := h.advance hholder (.of_secure hsecure)
  rely := hrefl _
  decides := by
    intro other session' hs e hdone hopen
    by_cases heq : other = client
    · subst heq
      simp only [Function.update_self, Option.some.injEq] at hs
      subst hs
      rw [hdone] at hsecure
      exact hsecure.2
    · simp only [Function.update_of_ne heq] at hs
      exact absurd hdone (hopen session' hs e)

omit [DecidableEq κ] in
/-- A transaction ends. -/
theorem System.Guarded.closes (hguard : IsGuard guard) (h : c.Guarded guard rely decided) {db : σ}
    (hrely : rely c.db db) (hkeys : ∀ key, c.holder key ≠ some client → guard key c.db db) :
    System.Obeys guard rely decided c (c.close client db) where
  guarded := h.close hguard hkeys
  rely := hrely
  decides := by
    intro other session hs e hdone hopen
    by_cases heq : other = client
    · subst heq
      simp [System.close] at hs
    · rw [System.close_sessions_of_ne heq] at hs
      exact absurd hdone (hopen session hs e)

omit [DecidableEq ι] [DecidableEq κ] in
theorem System.Guarded.stays (h : c.Guarded guard rely decided) (hrefl : ∀ s, rely s s) :
    System.Obeys guard rely decided c c :=
  ⟨h, hrefl _, fun _ session hs e hdone hopen => absurd hdone (hopen session hs e)⟩

theorem System.Guarded.stepSession (hguard : IsGuard guard) (h : c.Guarded guard rely decided)
    (hrefl : ∀ s, rely s s) {session : Session σ κ ω op ρ}
    (hsession : c.sessions client = some session) :
    System.Obeys guard rely decided c (c.stepSession client session).1 := by
  have hready := h.ready client session hsession
  have hnow : ∀ locked : κ → Prop, Meanwhile guard locked c.db c.db := fun _ => .refl hguard
  obtain ⟨call, prog, writes⟩ := session
  rcases hready with ⟨e, rfl, hsettles⟩ | ⟨hopen, hsecure⟩
  · -- the session is over: its commit keeps to `rely` and the guard, a rollback changes nothing
    cases e with
    | commit result =>
      obtain ⟨hrely, hkeys⟩ := hsettles c.db (hnow _)
      exact h.closes hguard hrely hkeys
    | rollback result => exact h.closes hguard (hrefl _) fun key _ => hguard.refl key _
  cases prog with
  | done e => exact absurd rfl (hopen e)
  | view next =>
    exact h.obeys hrefl ⟨call, next (applyAll c.db writes), writes⟩
      (fun _ _ _ => Iff.rfl) (hsecure c.db (hnow _))
  | lock key next =>
    unfold System.stepSession
    dsimp only
    by_cases hfree : c.free client key = true
    · rw [if_pos hfree]
      obtain ⟨hmine, hothers⟩ := System.take_holder hfree
      refine h.obeys hrefl ⟨call, next, writes⟩ hothers ?_
      rw [hmine]
      exact hsecure c.db (hnow _)
    · rw [if_neg hfree]
      exact h.stays hrefl
  | tryLock key next =>
    unfold System.stepSession
    dsimp only
    by_cases hfree : c.free client key = true
    · rw [if_pos hfree]
      obtain ⟨hmine, hothers⟩ := System.take_holder hfree
      refine h.obeys hrefl ⟨call, next true, writes⟩ hothers ?_
      rw [hmine]
      exact (hsecure c.db (hnow _)).1
    · rw [if_neg hfree]
      exact h.obeys hrefl ⟨call, next false, writes⟩ (fun _ _ _ => Iff.rfl)
        (hsecure c.db (hnow _)).2
  | write version next =>
    exact h.obeys hrefl ⟨call, next, writes ++ [version]⟩ (fun _ _ _ => Iff.rfl)
      (hsecure c.db (hnow _))

/-- **One act of an interleaving** whose programs are all secure. -/
theorem System.Guarded.act {program : op → Tx σ κ ω (Ending ρ)} (hguard : IsGuard guard)
    (h : c.Guarded guard rely decided) (hrefl : ∀ s, rely s s)
    (hprogram : ∀ call s, Secure guard (fun e locked writes s =>
      Settles guard rely e locked writes s ∧ decided call e s) (program call) (fun _ => False) [] s)
    (a : Act ι op) : System.Obeys guard rely decided c (c.act program a).1 := by
  cases a with
  | send client call =>
    unfold System.act
    dsimp only
    split
    · rename_i hidle
      refine h.obeys hrefl ⟨call, program call, []⟩ (fun _ _ _ => Iff.rfl) ?_
      have hnone : (fun key => c.holder key = some client) = fun _ => False :=
        funext fun key => propext (iff_false_intro (h.idle client hidle key))
      rw [hnone]
      exact hprogram call c.db
    · exact h.stays hrefl
  | step client =>
    unfold System.act
    dsimp only
    split
    · exact h.stays hrefl
    · rename_i session hsession
      exact h.stepSession hguard hrefl hsession
  | abort client =>
    unfold System.act
    dsimp only
    split
    · exact h.stays hrefl
    · exact h.closes hguard (hrefl _) fun key _ => hguard.refl key _

/-- A run of an interleaving. -/
theorem System.Guarded.play {program : op → Tx σ κ ω (Ending ρ)} (hguard : IsGuard guard)
    (h : c.Guarded guard rely decided) (hrefl : ∀ s, rely s s)
    (htrans : ∀ a b c, rely a b → rely b c → rely a c)
    (hprogram : ∀ call s, Secure guard (fun e locked writes s =>
      Settles guard rely e locked writes s ∧ decided call e s) (program call) (fun _ => False) [] s)
    (acts : List (Act ι op)) :
    (c.play program acts).Guarded guard rely decided ∧ rely c.db (c.play program acts).db := by
  induction acts generalizing c with
  | nil => exact ⟨h, hrefl _⟩
  | cons a acts ih =>
    have hact := h.act hguard hrefl hprogram a
    obtain ⟨hguarded, hrely⟩ := ih hact.guarded
    exact ⟨hguarded, htrans _ _ _ hact.rely hrely⟩

/-! ### When an outcome was decided -/

theorem System.act_of_done {program : op → Tx σ κ ω (Ending ρ)}
    {old session : Session σ κ ω op ρ} {e : Ending ρ} (hold : c.sessions client = some old)
    (hdone : old.prog = .done e) {a : Act ι op}
    (h : (c.act program a).1.sessions client = some session) : session = old := by
  by_cases hclient : client = a.client
  · cases a with
    | send other call =>
      obtain rfl : client = other := hclient
      simp only [System.act, hold] at h
      exact (Option.some.inj h).symm
    | step other =>
      obtain rfl : client = other := hclient
      simp only [System.act, hold, System.stepSession, hdone] at h
      cases e with
      | commit result => simp [System.close] at h
      | rollback result => simp [System.close] at h
    | abort other =>
      obtain rfl : client = other := hclient
      cases System.abort_sessions.symm.trans h
  · rw [System.act_sessions_of_ne hclient, hold] at h
    exact (Option.some.inj h).symm

/-- An outcome that stands was decided by an act since which the session has been open. -/
theorem System.decided_since {program : op → Tx σ κ ω (Ending ρ)} (hguard : IsGuard guard)
    (hrefl : ∀ s, rely s s) (htrans : ∀ a b c, rely a b → rely b c → rely a c)
    (hprogram : ∀ call s, Secure guard (fun e locked writes s =>
      Settles guard rely e locked writes s ∧ decided call e s) (program call) (fun _ => False) [] s)
    (db : σ) {acts : List (Act ι op)} {session : Session σ κ ω op ρ} {e : Ending ρ}
    (hs : ((System.initial db).play program acts).sessions client = some session)
    (hdone : session.prog = .done e) :
    ∃ before since, acts = before ++ since ∧
      decided session.call e ((System.initial db).play program before).db ∧
      ∀ acts', acts' <+: since →
        ((System.initial db).play program (before ++ acts')).sessions client = some session := by
  induction acts using List.reverseRecOn with
  | nil => cases hs
  | append_singleton acts a ih =>
    have hlast : ∀ c : System ι σ κ ω op ρ, c.play program (acts ++ [a]) =
        ((c.play program acts).act program a).1 := fun c => by
      simp only [System.play, List.foldl_append, List.foldl_cons, List.foldl_nil]
    have hguarded : ((System.initial db).play program acts).Guarded guard rely decided :=
      ((System.Guarded.initial db).play hguard hrefl htrans hprogram acts).1
    have hobeys := hguarded.act hguard hrefl hprogram a
    by_cases hbefore : ∃ old, ((System.initial db).play program acts).sessions client = some old ∧
        ∃ e, old.prog = .done e
    · obtain ⟨old, hold, e', hdone'⟩ := hbefore
      rw [hlast] at hs
      obtain rfl := System.act_of_done hold hdone' hs
      obtain ⟨before, since, rfl, hdecided, hopen⟩ := ih hold
      refine ⟨before, since ++ [a], List.append_assoc .., hdecided, fun acts' hacts' => ?_⟩
      rcases List.prefix_concat_iff.mp hacts' with rfl | hshort
      · rw [← List.append_assoc, hlast]
        exact hs
      · exact hopen acts' hshort
    · refine ⟨acts ++ [a], [], (List.append_nil _).symm, ?_, fun acts' hacts' => ?_⟩
      · rw [hlast] at hs ⊢
        exact hobeys.decides client session hs e hdone fun old hold e' hdone' =>
          hbefore ⟨old, hold, e', hdone'⟩
      · rw [List.prefix_nil.mp hacts', List.append_nil]
        exact hs

end System

end Cfscan.Lib
