import Cfscan.Users.Live
import Mathlib.Data.Set.Insert

/-!
# No request makes its sender an administrator

Someone holds session cookies and passwords, none of which is an enabled administrator's, and sends
what requests they like, each taken apart at its two calls of the store; everybody else goes on using
the center in between. The others are asked not to give power away: `Prudent` says at which of their
requests they could. `holder_confined`: no request of the holder changes an account, ends a session
of somebody else or lists the users, and what the holder has, the sessions they open included, never
becomes an administrator's.

## What is asked of the others

A user is not made an administrator while the holder has the password, or a session, or **a login
under way** of that user. The last is not idle. A login opens its session by the password it has
compared, so one that is under way across a reset of the password and a promotion ends in an
administrator's session, though what the holder knew was the old password of a viewer.

Nothing is asked of an administrator who resets, disables or deletes, but for the password they give
an administrator.
-/

set_option autoImplicit false

namespace Cfscan.Users.Api

open Cfscan.Lib Cfscan.Store

variable {ι : Type} [DecidableEq ι]

/-! ## Holders

Whoever holds session cookies and passwords, as two sets; a login of theirs that succeeds
adds its token. `Harmless` says that nothing held is an enabled administrator's. It is asked
of the requests under way too, for a login that has read its user opens a session whatever
happens to the password afterwards. -/

/-- What is held, and tried: guesses are held too. -/
structure Holder where
  tokens : Set String
  passwords : Set ByteArray

/-- The answer to a login brings a token. -/
def Holder.learn (k : Holder) : Answer → Holder
  | .response (.user _ _) (.set token _) => { k with tokens := insert token k.tokens }
  | _ => k

def Holder.Opens (acc : Accounts) (k : Holder) (passwordHash : String) : Prop :=
  ∃ password ∈ k.passwords, acc.compare passwordHash password = true

/-- A request that uses what is held. -/
def Holder.Within (k : Holder) (visit : Visit) : Prop :=
  (visit.cookie ≠ "" → visit.cookie ∈ k.tokens) ∧
    ∀ limited input, visit.request = .login limited (.ok input) → input.password ∈ k.passwords

/-- The login will open a session of the user. -/
def Pending.LogsIn (acc : Accounts) (pending : Pending) (userID : UUID) : Prop :=
  ∃ input credential, pending = .login input (.ok credential) ∧ credential.id = userID ∧
    acc.compare credential.passwordHash input.password = true

/-- Nothing held is an enabled administrator's. -/
structure Harmless (acc : Accounts) (k : Holder) (s : UserStore) : Prop where
  sessions : ∀ token ∈ k.tokens, ∀ userID expiresAt,
    s.session (acc.auth.hashToken token) = some (userID, expiresAt) →
      ∃ row, s.users.find? userID = some row ∧ row.enabledAdmin = false
  passwords : ∀ id row, s.users.find? id = some row → k.Opens acc row.passwordHash →
    row.enabledAdmin = false

/-- A request of the holder that is under way is no administrator's, and neither is the session it
will open. -/
structure Pending.Harmless (acc : Accounts) (k : Holder) (s : UserStore) (pending : Pending) :
    Prop where
  login : ∀ userID row, pending.LogsIn acc userID → s.users.find? userID = some row →
    row.enabledAdmin = false
  known : ∀ input credential, pending = .login input credential → input.password ∈ k.passwords
  cookie : ∀ cookie request user, pending = .session cookie request user →
    cookie ∈ k.tokens ∧ user.role ≠ roleAdmin

/-- The password an administrator gets is not held. -/
def Holder.Unknown (acc : Accounts) (k : Holder) (salt : Nat) (password : ByteArray) : Prop :=
  ∀ hash, acc.generate salt password = .ok hash → ¬ k.Opens acc hash

/-- A user but for the times a login writes. -/
def account (row : UserCredential) : UserCredential :=
  { row with lastLoginAt := none, updatedAt := 0 }

/-- What a request of the holder leaves alone. -/
structure Confined (acc : Accounts) (k : Holder) (now : Timestamp) (pending : Pending)
    (s : UserStore) (answer : Answer) (s' : UserStore) : Prop where
  accounts : ∀ id, (s'.users.find? id).map account = (s.users.find? id).map account
  /-- Sessions of others that have not expired. -/
  kept : ∀ h userID expiresAt, s.session h = some (userID, expiresAt) → now < expiresAt →
    (∀ token ∈ k.tokens, acc.auth.hashToken token ≠ h) → s'.session h = some (userID, expiresAt)
  /-- A session is new only for the user whose password, which is held, was right when the login
  read it. -/
  opened : ∀ h userID expiresAt, s'.session h = some (userID, expiresAt) →
    s.session h = some (userID, expiresAt) ∨ pending.LogsIn acc userID
  known : ∀ input credential, pending = .login input credential → input.password ∈ k.passwords
  unlisted : ∀ items, answer ≠ .users items

/-- The first call of a request of the holder only reads, and a login reads the user as they are. -/
structure Asked (acc : Accounts) (k : Holder) (s : UserStore)
    (received : Except Answer Pending × UserStore) : Prop where
  users : received.2.users = s.users
  sessions : received.2.session = s.session
  read : ∀ input credential, received.1 = .ok (.login input (.ok credential)) →
    input.password ∈ k.passwords ∧ s.users.find? credential.id = some credential

/-! ## Runs

The world of `Cfscan.Users.Live` with the holder beside it. A move is an event, or somebody
telling the holder a password or a cookie. What the others must not do is asked of each of
their moves at the store it meets (`Prudent`), not of the run as a whole. -/

structure Watched (ι : Type) where
  world : World ι
  holder : Holder

inductive Move (ι : Type) where
  | event (event : Event ι)
  /-- The holder comes to know a password, or a guess. -/
  | told (password : ByteArray)

section Runs

variable (acc : Accounts) (order : List User → List User) (mine : ι → Bool)

/-- The answer to a request of the holder. -/
def Watched.answered (w : Watched ι) (id : ι) (outside : Outside) : Holder :=
  match mine id, w.world.underWay id with
  | true, some pending => w.holder.learn (complete acc order w.world.store outside pending).1
  | _, _ => w.holder

def Watched.next (w : Watched ι) : Move ι → Watched ι
  | .event (.complete id outside) =>
    ⟨w.world.next acc order (.complete id outside), w.answered acc order mine id outside⟩
  | .event event => { w with world := w.world.next acc order event }
  | .told password =>
    { w with holder := { w.holder with passwords := insert password w.holder.passwords } }

def Watched.play (w : Watched ι) (moves : List (Move ι)) : Watched ι :=
  moves.foldl (Watched.next acc order mine) w

/-- A login of the holder is under way that will open a session of the user. -/
def Watched.LogsIn (w : Watched ι) (userID : UUID) : Prop :=
  ∃ id pending, mine id = true ∧ w.world.underWay id = some pending ∧ pending.LogsIn acc userID

/-- The holder has a session of the user, or the password, or logs in. -/
def Watched.Holds (w : Watched ι) (row : UserCredential) : Prop :=
  (∃ token ∈ w.holder.tokens, ∃ expiresAt,
    w.world.store.session (acc.auth.hashToken token) = some (row.id, expiresAt)) ∨
    w.holder.Opens acc row.passwordHash ∨ w.LogsIn acc mine row.id

/-- What others ask for gives no power away: the token of their login is not one that is held, and
neither is the password, a session or a login of one they make an administrator. -/
def Prudent (w : Watched ι) (outside : Outside) : Pending → Prop
  | .login _ _ => ∀ drawn, outside.token = some drawn →
      ∀ token ∈ w.holder.tokens, acc.auth.hashToken token ≠ acc.auth.hashToken drawn
  | .session _ (.createUser (.ok body)) _ => body.role = roleAdmin →
      w.holder.Unknown acc outside.salt body.password ∧ ¬ w.LogsIn acc mine outside.id
  | .session _ (.updateUser userID (.ok body)) _ => body.role = roleAdmin → body.enabled = true →
      ∀ row, acc.auth.uuid userID = some row.id → w.world.store.users.find? row.id = some row →
        ¬ w.Holds acc mine row
  | .session _ (.resetUserPassword userID (.ok password)) _ =>
      ∀ row, acc.auth.uuid userID = some row.id → w.world.store.users.find? row.id = some row →
        row.enabledAdmin = true → w.holder.Unknown acc outside.salt password
  | _ => True

def Watched.Allowed (w : Watched ι) : Move ι → Prop
  | .event (.receive id visit) => mine id = true → w.holder.Within visit
  | .event (.complete id outside) => mine id = false → ∀ pending,
      w.world.underWay id = some pending → Prudent acc mine w outside pending
  | .event (.start _ id salt _ password) =>
      w.holder.Unknown acc salt password ∧ ¬ w.LogsIn acc mine id
  | .told password => ∀ id row, w.world.store.users.find? id = some row →
      row.enabledAdmin = true → acc.compare row.passwordHash password = false

/-- Each move is allowed when it is made. -/
def Watched.Along (w : Watched ι) : List (Move ι) → Prop
  | [] => True
  | move :: moves => w.Allowed acc mine move ∧ (w.next acc order mine move).Along moves

structure Watched.Harmless (w : Watched ι) : Prop where
  held : Api.Harmless acc w.holder w.world.store
  underWay : ∀ id pending, mine id = true → w.world.underWay id = some pending →
    pending.Harmless acc w.holder w.world.store

end Runs

/-! ## One request

`Harmless` through one effect on the store, by the kind of effect, first for requests of
others and then for the holder's own, where it comes with `Confined`. Sessions are followed
through the hash of the token, since that is what the table has. -/

section Steps

variable {acc : Accounts} {order : List User → List User} {k : Holder} {mine : ι → Bool}
  {s s' : UserStore} {now : Timestamp} {outside : Outside} {pending : Pending} {answer : Answer}

/-- Sessions may go, and users change while no one becomes an administrator or gets a password. -/
theorem Harmless.of_le (h : Harmless acc k s)
    (hsession : ∀ tokenHash sess, s'.session tokenHash = some sess →
      s.session tokenHash = some sess)
    (husers : ∀ id row, s.users.find? id = some row → row.enabledAdmin = false →
      ∀ tokenHash expiresAt, s'.session tokenHash = some (id, expiresAt) →
        ∃ row', s'.users.find? id = some row' ∧ row'.enabledAdmin = false)
    (hpasswords : ∀ id row', s'.users.find? id = some row' → row'.enabledAdmin = true →
      ¬ k.Opens acc row'.passwordHash) : Harmless acc k s' := by
  refine ⟨fun token htoken userID expiresAt hs => ?_, fun id row' hrow' hopens => ?_⟩
  · obtain ⟨row, hrow, hadmin⟩ := h.sessions token htoken userID expiresAt (hsession _ _ hs)
    exact husers userID row hrow hadmin _ _ hs
  · exact Bool.eq_false_iff.mpr fun hadmin => hpasswords id row' hrow' hadmin hopens

theorem Harmless.unopened (h : Harmless acc k s) {id : UUID} {row : UserCredential}
    (hrow : s.users.find? id = some row) (hadmin : row.enabledAdmin = true) :
    ¬ k.Opens acc row.passwordHash := fun hopens =>
  Bool.false_ne_true ((h.passwords id row hrow hopens).symm.trans hadmin)

theorem Harmless.same (h : Harmless acc k s) (husers : s'.users = s.users)
    (hsession : s'.session = s.session) : Harmless acc k s' := by
  refine h.of_le (fun _ _ hs => hsession ▸ hs) (fun id row hrow hadmin _ _ _ => ?_) ?_
  · exact ⟨row, husers ▸ hrow, hadmin⟩
  · intro id row hrow
    rw [husers] at hrow
    exact h.unopened hrow

/-- The holder is no administrator. -/
theorem Pending.Harmless.not_byAdmin (h : pending.Harmless acc k s) {request : SessionRequest} :
    ¬ pending.ByAdmin request := by
  rintro ⟨cookie, actor, hpending, hrole⟩
  exact (h.cookie _ _ _ hpending).2 hrole

/-- A login changes no more of users than its times. -/
theorem find?_login {t : Table UUID UserCredential UserCredential.key} {id other : UUID}
    {now : Timestamp} {row' : UserCredential}
    (h : (t.updateWhere (fun row => decide (row.id = id)) (UserCredential.login now)
      (UserCredential.key_login now)).find? other = some row') :
    ∃ row, t.find? other = some row ∧ row'.enabledAdmin = row.enabledAdmin ∧
      row'.passwordHash = row.passwordHash := by
  rw [Table.find?_updateWhere] at h
  obtain ⟨row, hrow, rfl⟩ := Option.map_eq_some_iff.mp h
  refine ⟨row, hrow, ?_⟩
  split <;> exact ⟨rfl, rfl⟩

/-- A login of a user who is no administrator, or with a token that is not held. -/
theorem Harmless.login (h : Harmless acc k s) {id : UUID} {row : UserCredential} {token : String}
    {now expiresAt : Timestamp} (hrow : s.users.find? id = some row)
    (hheld : row.enabledAdmin = false ∨
      ∀ held ∈ k.tokens, acc.auth.hashToken held ≠ acc.auth.hashToken token)
    (husers : s'.users = s.users.updateWhere (fun row => decide (row.id = id))
      (UserCredential.login now) (UserCredential.key_login now))
    (hsession : ∀ h, s'.session h = if acc.auth.hashToken token = h then some (id, expiresAt)
      else (s.session h).filter fun sess => !decide (sess.2 ≤ now)) : Harmless acc k s' := by
  have hstill : ∀ id row, s.users.find? id = some row → row.enabledAdmin = false →
      ∃ row', s'.users.find? id = some row' ∧ row'.enabledAdmin = false := by
    intro id row hrow hadmin
    rw [husers, Table.find?_updateWhere, hrow, Option.map_some]
    refine ⟨_, rfl, ?_⟩
    split <;> exact hadmin
  refine ⟨fun held hmem userID until' hs => ?_, fun id row' hrow' hopens => ?_⟩
  · rw [hsession] at hs
    split at hs
    · rename_i hsame
      cases hs
      rcases hheld with hadmin | hfresh
      · exact hstill _ _ hrow hadmin
      · exact absurd hsame.symm (hfresh held hmem)
    · obtain ⟨row, hrow, hadmin⟩ :=
        h.sessions held hmem _ _ (Option.filter_eq_some_iff.mp hs).1
      exact hstill _ _ hrow hadmin
  · rw [husers] at hrow'
    obtain ⟨row, hrow, hadmin, hpassword⟩ := find?_login hrow'
    rw [hadmin]
    exact h.passwords id row hrow (hpassword ▸ hopens)

theorem Harmless.logout (h : Harmless acc k s) {closed : String} (husers : s'.users = s.users)
    (hsession : ∀ h, s'.session h = if closed = h then none else s.session h) :
    Harmless acc k s' := by
  refine h.of_le (fun tokenHash sess hs => ?_) (fun id row hrow hadmin _ _ _ => ?_) ?_
  · rw [hsession] at hs
    split at hs
    · cases hs
    · exact hs
  · exact ⟨row, husers ▸ hrow, hadmin⟩
  · intro id row hrow
    rw [husers] at hrow
    exact h.unopened hrow

/-- A user comes in at a free id. -/
theorem Harmless.put (h : Harmless acc k s) {row : UserCredential}
    (hfree : s.users.find? row.id = none) (husers : s'.users = s.users.put row)
    (hsession : s'.session = s.session)
    (hunknown : row.enabledAdmin = true → ¬ k.Opens acc row.passwordHash) : Harmless acc k s' := by
  have hput : ∀ id other, s.users.find? id = some other →
      (s.users.put row).find? id = some other := by
    intro id other hother
    have hne : row.key ≠ id := by
      rintro rfl
      rw [show s.users.find? row.key = none from hfree] at hother
      cases hother
    rw [Table.find?_put, if_neg hne, hother]
  refine h.of_le (fun _ _ hs => hsession ▸ hs) (fun id other hother hadmin _ _ _ => ?_) ?_
  · exact ⟨other, husers ▸ hput id other hother, hadmin⟩
  · intro id other hother hadmin
    rw [husers, Table.find?_put] at hother
    split at hother
    · cases hother
      exact hunknown hadmin
    · exact h.unopened hother hadmin

/-- A statement that names the user `row` selects no other. -/
theorem eq_row {t : Table UUID UserCredential UserCredential.key} {id : UUID}
    {other row : UserCredential} (hother : t.find? id = some other)
    (hsame : decide (other.id = row.id) = true) (hrow : t.find? row.id = some row) :
    id = row.id ∧ other = row := by
  obtain rfl : id = row.id := (Table.key_of_find? hother).symm.trans (of_decide_eq_true hsame)
  exact ⟨rfl, Option.some.inj (hother.symm.trans hrow)⟩

/-- A user is given another role, or is enabled or disabled: no one becomes an administrator whom
the holder has a session or the password of. -/
theorem Harmless.update (h : Harmless acc k s) {input : UpdateUserRequest} {row : UserCredential}
    (hrow : s.users.find? row.id = some row)
    (husers : s'.users = s.users.updateWhere (fun other => decide (other.id = row.id))
      (UserCredential.update now input) (UserCredential.key_update now input))
    (hsession : ∀ tokenHash sess, s'.session tokenHash = some sess →
      s.session tokenHash = some sess)
    (hheld : (row.update now input).enabledAdmin = true → ∀ token ∈ k.tokens, ∀ expiresAt,
      s.session (acc.auth.hashToken token) ≠ some (row.id, expiresAt))
    (hunknown : (row.update now input).enabledAdmin = true → ¬ k.Opens acc row.passwordHash) :
    Harmless acc k s' := by
  refine ⟨fun token htoken userID expiresAt hs => ?_, fun id row' hrow' hopens => ?_⟩
  · have hold := hsession _ _ hs
    obtain ⟨other, hother, hadmin⟩ := h.sessions token htoken _ _ hold
    rw [husers, Table.find?_updateWhere, hother, Option.map_some]
    refine ⟨_, rfl, ?_⟩
    split
    · rename_i hsame
      obtain ⟨rfl, rfl⟩ := eq_row hother hsame hrow
      exact Bool.eq_false_iff.mpr fun hnow => hheld hnow token htoken expiresAt hold
    · exact hadmin
  · rw [husers, Table.find?_updateWhere] at hrow'
    obtain ⟨other, hother, rfl⟩ := Option.map_eq_some_iff.mp hrow'
    split at hopens
    · rename_i hsame
      obtain ⟨rfl, rfl⟩ := eq_row hother hsame hrow
      rw [if_pos hsame]
      exact Bool.eq_false_iff.mpr fun hnow => hunknown hnow hopens
    · rename_i hsame
      rw [if_neg hsame]
      exact h.passwords id other hother hopens

/-- A user gets another password, which is not one that is held if the user is an administrator. -/
theorem Harmless.reset (h : Harmless acc k s) {row : UserCredential} {hash : String}
    (hrow : s.users.find? row.id = some row)
    (husers : s'.users = s.users.updateWhere (fun other => decide (other.id = row.id))
      (UserCredential.reset now hash) (UserCredential.key_reset now hash))
    (hsession : ∀ h, s'.session h = (s.session h).filter fun sess => !decide (sess.1 = row.id))
    (hunknown : row.enabledAdmin = true → ¬ k.Opens acc hash) : Harmless acc k s' := by
  refine h.of_le (fun tokenHash sess hs => ?_) (fun id other hother hother' _ _ _ => ?_) ?_
  · rw [hsession] at hs
    exact (Option.filter_eq_some_iff.mp hs).1
  · rw [husers, Table.find?_updateWhere, hother, Option.map_some]
    refine ⟨_, rfl, ?_⟩
    split <;> exact hother'
  · intro id row' hrow' henabled
    rw [husers, Table.find?_updateWhere] at hrow'
    obtain ⟨other, hother, rfl⟩ := Option.map_eq_some_iff.mp hrow'
    split at henabled
    · rename_i hsame
      obtain ⟨rfl, rfl⟩ := eq_row hother hsame hrow
      rw [if_pos hsame]
      exact hunknown henabled
    · rename_i hsame
      rw [if_neg hsame]
      exact h.unopened hother henabled

theorem Harmless.delete (h : Harmless acc k s) {id : UUID} (husers : s'.users = s.users.erase id)
    (hsession : ∀ h, s'.session h = (s.session h).filter fun sess => !decide (sess.1 = id)) :
    Harmless acc k s' := by
  refine h.of_le (fun tokenHash sess hs => ?_)
    (fun other row hrow hadmin tokenHash expiresAt hs => ?_) ?_
  · rw [hsession] at hs
    exact (Option.filter_eq_some_iff.mp hs).1
  · rw [hsession] at hs
    have hne : other ≠ id := by simpa using (Option.filter_eq_some_iff.mp hs).2
    rw [husers, Table.find?_erase, if_neg hne.symm]
    exact ⟨row, hrow, hadmin⟩
  · intro other row hrow
    rw [husers, Table.find?_erase] at hrow
    split at hrow
    · cases hrow
    · exact h.unopened hrow

omit [DecidableEq ι] in
/-- **Of others.** -/
theorem Harmless.effect {w : Watched ι} (h : Harmless acc w.holder w.world.store)
    (hprudent : Prudent acc mine w outside pending)
    (heffect : Effect acc outside pending w.world.store.users w.world.store.session answer s') :
    Harmless acc w.holder s' := by
  cases heffect with
  | nothing husers hsession hentries => exact h.same husers hsession
  | list hadmin husers hsession => exact h.same husers hsession
  | login hpending htoken hpassword henabled hrow hfresh husers hsession =>
    subst hpending
    exact h.login hrow (.inr (hprudent _ htoken)) husers hsession
  | logout hpending hcookie husers hsession => exact h.logout husers hsession
  | create hadmin hhash hid hpassword hrole hfree husers hsession =>
    obtain ⟨cookie, actor, rfl, -⟩ := hadmin
    refine h.put hfree husers hsession fun henabled => ?_
    have hadminRole := of_decide_eq_true (Bool.and_eq_true_iff.mp henabled).1
    rw [hpassword]
    exact (hprudent (hrole ▸ hadminRole)).1 _ hhash
  | @update userID body input row _ hadmin hinput huuid hrow husers hsession =>
    obtain ⟨cookie, actor, rfl, -⟩ := hadmin
    have hheld : (row.update outside.now input).enabledAdmin = true → ¬ w.Holds acc mine row := by
      intro henabled
      rw [hinput] at henabled
      obtain ⟨hrole, henabled⟩ := Bool.and_eq_true_iff.mp henabled
      exact hprudent (of_decide_eq_true hrole) henabled row huuid hrow
    refine h.update hrow husers (fun tokenHash sess hs => ?_)
      (fun henabled token htoken expiresAt hs =>
        hheld henabled (.inl ⟨token, htoken, expiresAt, hs⟩))
      fun henabled hopens => hheld henabled (.inr (.inl hopens))
    rw [hsession] at hs
    split at hs
    · exact hs
    · exact (Option.filter_eq_some_iff.mp hs).1
  | @reset userID hash password row response cookie _ hadmin hentries hhash huuid hrow husers
      hsession =>
    obtain ⟨cookie', actor, rfl, -⟩ := hadmin
    exact h.reset hrow husers hsession fun henabled => hprudent _ huuid hrow henabled hash hhash
  | delete hadmin hentries huuid hrow husers hsession => exact h.delete husers hsession

omit [DecidableEq ι] in
/-- Others make nobody an administrator of whom a login of the holder is under way. -/
theorem Watched.LogsIn.not_promoted {w : Watched ι} {userID : UUID} (h : w.LogsIn acc mine userID)
    (hprudent : Prudent acc mine w outside pending)
    (heffect : Effect acc outside pending w.world.store.users w.world.store.session answer s')
    {row' : UserCredential} (hrow' : s'.users.find? userID = some row')
    (henabled : row'.enabledAdmin = true) :
    ∃ row, w.world.store.users.find? userID = some row ∧ row.enabledAdmin = true := by
  cases heffect with
  | nothing husers hsession hentries => exact ⟨row', husers ▸ hrow', henabled⟩
  | list hadmin husers hsession => exact ⟨row', husers ▸ hrow', henabled⟩
  | login hpending htoken hpassword _ hrow hfresh husers hsession =>
    rw [husers] at hrow'
    obtain ⟨row, hrow, hadmin, -⟩ := find?_login hrow'
    exact ⟨row, hrow, hadmin ▸ henabled⟩
  | logout hpending hcookie husers hsession => exact ⟨row', husers ▸ hrow', henabled⟩
  | create hadmin hhash hid hpassword hrole hfree husers hsession =>
    obtain ⟨cookie, actor, rfl, -⟩ := hadmin
    rw [husers, Table.find?_put] at hrow'
    split at hrow'
    · rename_i hsame
      cases hrow'
      -- an administrator is created under a key no login is under way for
      have hadminRole := of_decide_eq_true (Bool.and_eq_true_iff.mp henabled).1
      refine absurd h ?_
      rw [← hsame, show row'.key = outside.id from hid]
      exact (hprudent (hrole ▸ hadminRole)).2
    · exact ⟨row', hrow', henabled⟩
  | @update name body input row _ hadmin hinput huuid hrow husers hsession =>
    obtain ⟨cookie, actor, rfl, -⟩ := hadmin
    rw [husers, Table.find?_updateWhere] at hrow'
    obtain ⟨other, hother, rfl⟩ := Option.map_eq_some_iff.mp hrow'
    split at henabled
    · rename_i hsame
      obtain ⟨rfl, rfl⟩ := eq_row hother hsame hrow
      -- the row updated is his: others promote nobody of whom a login is under way
      rw [hinput] at henabled
      obtain ⟨hrole, henabled⟩ := Bool.and_eq_true_iff.mp henabled
      exact absurd (.inr (.inr h))
        (hprudent (of_decide_eq_true hrole) henabled _ huuid hrow)
    · exact ⟨other, hother, henabled⟩
  | reset hadmin hentries hhash huuid hrow husers hsession =>
    rw [husers, Table.find?_updateWhere] at hrow'
    obtain ⟨other, hother, rfl⟩ := Option.map_eq_some_iff.mp hrow'
    refine ⟨other, hother, ?_⟩
    split at henabled <;> exact henabled
  | delete hadmin hentries huuid hrow husers hsession =>
    rw [husers, Table.find?_erase] at hrow'
    split at hrow'
    · cases hrow'
    · exact ⟨row', hrow', henabled⟩

/-- Only a login brings a token. -/
theorem learn_eq {response : Response} {cookie : Cookie}
    (h : entries acc pending (.response response cookie) = []) :
    k.learn (.response response cookie) = k := by
  unfold Holder.learn
  split
  · rename_i heq
    cases heq
    cases h
  · rfl

theorem learn_le (k : Holder) (answer : Answer) : k.tokens ⊆ (k.learn answer).tokens := by
  unfold Holder.learn
  split
  · exact Set.subset_insert _ _
  · exact subset_rfl

theorem learn_passwords (k : Holder) (answer : Answer) :
    (k.learn answer).passwords = k.passwords := by
  unfold Holder.learn
  split <;> rfl

theorem Harmless.insert (h : Harmless acc k s) {token : String}
    (hsession : ∀ userID expiresAt,
      s.session (acc.auth.hashToken token) = some (userID, expiresAt) →
        ∃ row, s.users.find? userID = some row ∧ row.enabledAdmin = false) :
    Harmless acc { k with tokens := insert token k.tokens } s := by
  refine ⟨fun held hheld => ?_, h.passwords⟩
  rcases Set.mem_insert_iff.mp hheld with rfl | hold
  · exact hsession
  · exact h.sessions held hold

/-- **Of the holder.** -/
theorem Harmless.own (h : Harmless acc k s) (hpending : pending.Harmless acc k s)
    (heffect : Effect acc outside pending s.users s.session answer s') :
    Confined acc k outside.now pending s answer s' ∧ Harmless acc (k.learn answer) s' := by
  cases heffect with
  | nothing husers hsession hentries =>
    rw [learn_eq hentries]
    exact ⟨⟨fun id => by rw [husers], fun _ _ _ hs _ _ => hsession ▸ hs,
      fun _ _ _ hs => .inl (hsession ▸ hs), hpending.known, nofun⟩, h.same husers hsession⟩
  | list hadmin husers hsession => exact absurd hadmin hpending.not_byAdmin
  | @login input credential row token _ hlogin htoken hpassword henabled hrow hfresh husers
      hsession =>
    have hlogsIn : pending.LogsIn acc credential.id :=
      ⟨input, credential, hlogin, rfl, hpassword⟩
    -- the new session is of a user who is no enabled administrator
    have hadmin := hpending.login _ row hlogsIn hrow
    refine ⟨⟨fun id => ?_, fun tokenHash userID expiresAt hs hlt _ => ?_,
      fun tokenHash userID expiresAt hs => ?_, hpending.known, nofun⟩, ?_⟩
    · rw [husers, Table.find?_updateWhere]
      cases s.users.find? id with
      | none => rfl
      | some row =>
        simp only [Option.map_some]
        split <;> rfl
    · exact login_keeps hfresh hsession hs hlt
    · rw [hsession] at hs
      split at hs
      · cases hs
        exact .inr hlogsIn
      · exact .inl (Option.filter_eq_some_iff.mp hs).1
    · refine (h.login hrow (.inl hadmin) husers hsession).insert fun userID expiresAt hs => ?_
      rw [hsession, if_pos rfl] at hs
      cases hs
      rw [husers, Table.find?_updateWhere, hrow, Option.map_some]
      refine ⟨_, rfl, ?_⟩
      split <;> exact hadmin
  | logout hlogout hcookie husers hsession =>
    refine ⟨⟨fun id => by rw [husers], fun tokenHash userID expiresAt hs _ hother => ?_,
      fun tokenHash userID expiresAt hs => ?_, hpending.known, nofun⟩, h.logout husers hsession⟩
    · rw [hsession, if_neg (hother _ (hpending.cookie _ _ _ hlogout).1), hs]
    · rw [hsession] at hs
      split at hs
      · cases hs
      · exact .inl hs
  | create hadmin hhash hid hpassword hrole hfree husers hsession =>
    exact absurd hadmin hpending.not_byAdmin
  | update hadmin hinput huuid hrow husers hsession => exact absurd hadmin hpending.not_byAdmin
  | reset hadmin hentries hhash huuid hrow husers hsession =>
    exact absurd hadmin hpending.not_byAdmin
  | delete hadmin hentries huuid hrow husers hsession => exact absurd hadmin hpending.not_byAdmin

/-- A request of the holder is let in as no administrator's: nobody they have a session or the
password of is one. -/
theorem Harmless.receives (h : Harmless acc k s) {visit : Visit} (hwithin : k.Within visit)
    (hreceive : (receive acc s visit).1 = .ok pending) : pending.Harmless acc k s := by
  rcases receive_ok hreceive with
    ⟨limited, input, credential, hrequest, rfl, hread⟩ | ⟨request, user, -, hcookie, rfl, haccepted⟩
  · have hknown := hwithin.2 _ _ hrequest
    refine ⟨?_, fun _ _ heq => by cases heq; exact hknown, nofun⟩
    rintro userID row ⟨input, credential, heq, rfl, hcompare⟩ hrow
    cases heq
    rw [hread _ rfl] at hrow
    cases hrow
    exact h.passwords _ _ (hread _ rfl) ⟨_, hknown, hcompare⟩
  · obtain ⟨row, expiresAt, hsession, -, hrow, henabled, rfl⟩ := haccepted
    have htoken := hwithin.1 hcookie
    refine ⟨?_, nofun, ?_⟩
    · rintro userID row ⟨input, credential, heq, -⟩
      cases heq
    · rintro cookie request user heq
      cases heq
      refine ⟨htoken, fun hrole => ?_⟩
      obtain ⟨row', hrow', hadmin⟩ := h.sessions _ htoken _ _ hsession
      rw [hrow] at hrow'
      cases hrow'
      have henabledAdmin : row.enabledAdmin = true :=
        Bool.and_eq_true_iff.mpr ⟨decide_eq_true hrole, henabled⟩
      exact Bool.false_ne_true (hadmin.symm.trans henabledAdmin)

theorem receive_asked {visit : Visit} (hwithin : k.Within visit) :
    Asked acc k s (receive acc s visit) := by
  obtain ⟨husers, hsession⟩ := receive_same acc s visit
  refine ⟨husers, hsession, fun input credential hreceive => ?_⟩
  rcases receive_ok hreceive with
    ⟨limited, input', credential', hrequest, heq, hread⟩ | ⟨request, user, -, -, heq, -⟩
  · cases heq
    exact ⟨hwithin.2 _ _ hrequest, hread _ rfl⟩
  · cases heq

/-- A request under way stays harmless while more is held and no user it logs in becomes an
administrator. -/
theorem Pending.Harmless.of_le (h : pending.Harmless acc k s) {k' : Holder}
    (htokens : k.tokens ⊆ k'.tokens) (hpasswords : k.passwords ⊆ k'.passwords)
    (husers : ∀ userID row', pending.LogsIn acc userID → s'.users.find? userID = some row' →
      row'.enabledAdmin = true →
        ∃ row, s.users.find? userID = some row ∧ row.enabledAdmin = true) :
    pending.Harmless acc k' s' := by
  refine ⟨fun userID row' hlogsIn hrow' => Bool.eq_false_iff.mpr fun hadmin => ?_,
    fun input credential heq => hpasswords (h.known input credential heq),
    fun cookie request user heq => ?_⟩
  · obtain ⟨row, hrow, hadmin'⟩ := husers userID row' hlogsIn hrow' hadmin
    exact Bool.false_ne_true ((h.login userID row hlogsIn hrow).symm.trans hadmin')
  · obtain ⟨htoken, hrole⟩ := h.cookie cookie request user heq
    exact ⟨htokens htoken, hrole⟩

/-- Accounts stay as they are, so nobody becomes an administrator. -/
theorem Confined.find? (h : Confined acc k now pending s answer s') {id : UUID}
    {row' : UserCredential} (hrow' : s'.users.find? id = some row') :
    ∃ row, s.users.find? id = some row ∧ row'.enabledAdmin = row.enabledAdmin := by
  have hsame := h.accounts id
  rw [hrow'] at hsame
  obtain ⟨row, hrow, haccount⟩ := Option.map_eq_some_iff.mp hsame.symm
  refine ⟨row, hrow, ?_⟩
  show (account row').enabledAdmin = (account row).enabledAdmin
  rw [haccount]

theorem Harmless.start (h : Harmless acc k s) {now : Timestamp} {id : UUID} {salt : Nat}
    {username : String} {password : ByteArray} (hunknown : k.Unknown acc salt password) :
    Harmless acc k (bootstrapAdmin acc s now id salt username password).2 := by
  rcases bootstrapAdmin_inserts acc s now id salt username password with
    hsame | ⟨row, hid, hhash, hsame | ⟨hput, hfree⟩⟩
  · rw [hsame]
    exact h
  · rw [hsame]
    exact h
  · rw [hput]
    exact h.put hfree.1 rfl rfl fun _ => hunknown _ hhash

/-- A start makes no administrator of a user there is. -/
theorem bootstrapAdmin_find? {now : Timestamp} {id userID : UUID} {salt : Nat} {username : String}
    {password : ByteArray} (hne : userID ≠ id) {row' : UserCredential}
    (hrow' : (bootstrapAdmin acc s now id salt username password).2.users.find? userID =
      some row') : s.users.find? userID = some row' := by
  rcases bootstrapAdmin_inserts acc s now id salt username password with
    hsame | ⟨row, rfl, hhash, hsame | ⟨hput, hfree⟩⟩
  · rwa [hsame] at hrow'
  · rwa [hsame] at hrow'
  · rw [hput] at hrow'
    rwa [Table.find?_put, if_neg (show row.key ≠ userID from hne.symm)] at hrow'

end Steps

/-! ## Every run

The step lemma has one case for each move; `complete` is the one with work in it, and splits
on whose request it is. The main theorem is then an induction on the moves, with what each
of the holder's requests did read off at the store it met. -/

section

variable {acc : Accounts} {order : List User → List User} {mine : ι → Bool} {w : Watched ι}

omit [DecidableEq ι] in
theorem answered_mine {id : ι} {outside : Outside} {pending : Pending}
    (hmine : mine id = true) (hunder : w.world.underWay id = some pending) :
    w.answered acc order mine id outside =
      w.holder.learn (complete acc order w.world.store outside pending).1 := by
  unfold Watched.answered
  rw [hmine, hunder]

/-- The rest of a request, of the holder or of others. -/
theorem Watched.Harmless.complete (h : w.Harmless acc mine) {id : ι} {outside : Outside}
    (hallowed : w.Allowed acc mine (.event (.complete id outside))) :
    (w.next acc order mine (.event (.complete id outside))).Harmless acc mine := by
  show Watched.Harmless acc mine
    ⟨w.world.next acc order (.complete id outside), w.answered acc order mine id outside⟩
  unfold Watched.answered
  cases hnow : w.world.underWay id with
  | none =>
    rw [World.complete_none hnow]
    cases mine id <;> exact h
  | some pending =>
    have heffect := complete_effect acc order w.world.store outside pending
    have hstore : (w.world.next acc order (.complete id outside)).store =
        (Api.complete acc order w.world.store outside pending).2 := World.complete_store hnow
    cases hmine : mine id with
    | true =>
      obtain ⟨hconfined, hheld⟩ := h.held.own (h.underWay id pending hmine hnow) heffect
      refine ⟨hstore ▸ hheld, fun other pending' hmine' hunder => ?_⟩
      refine (h.underWay other pending' hmine' (World.underWay_complete hunder)).of_le
        (learn_le _ _) (learn_passwords _ _ ▸ subset_rfl) fun userID row' _ hrow' hadmin => ?_
      rw [hstore] at hrow'
      obtain ⟨row, hrow, hsame⟩ := hconfined.find? hrow'
      exact ⟨row, hrow, hsame ▸ hadmin⟩
    | false =>
      have hprudent := hallowed hmine pending hnow
      refine ⟨hstore ▸ h.held.effect hprudent heffect, fun other pending' hmine' hunder => ?_⟩
      have hold := World.underWay_complete hunder
      refine (h.underWay other pending' hmine' hold).of_le subset_rfl subset_rfl
        fun userID row' hlogsIn hrow' hadmin => ?_
      rw [hstore] at hrow'
      have hlogin : w.LogsIn acc mine userID := ⟨other, pending', hmine', hold, hlogsIn⟩
      exact hlogin.not_promoted hprudent heffect hrow' hadmin

/-- Others, or the holder, go on between the two calls of a request of the holder. -/
theorem Watched.Harmless.next (h : w.Harmless acc mine) {move : Move ι}
    (hallowed : w.Allowed acc mine move) : (w.next acc order mine move).Harmless acc mine := by
  cases move with
  | told password =>
    refine ⟨⟨h.held.sessions, fun id row hrow hopens => ?_⟩, fun id pending hmine hunder => ?_⟩
    · obtain ⟨held, hheld, hcompare⟩ := hopens
      rcases Set.mem_insert_iff.mp hheld with rfl | hheld
      · refine Bool.eq_false_iff.mpr fun hadmin => ?_
        rw [hallowed id row hrow hadmin] at hcompare
        cases hcompare
      · exact h.held.passwords id row hrow ⟨held, hheld, hcompare⟩
    · exact (h.underWay id pending hmine hunder).of_le subset_rfl (Set.subset_insert _ _)
        fun userID row _ hrow hadmin => ⟨row, hrow, hadmin⟩
  | event event =>
    cases event with
    | receive id visit =>
      obtain ⟨husers, hsession⟩ := World.receive_same acc order w.world id visit
      refine ⟨h.held.same husers hsession, fun other pending hmine hunder => ?_⟩
      have hunder' : (w.world.next acc order (.receive id visit)).underWay other = some pending :=
        hunder
      have hpending : pending.Harmless acc w.holder w.world.store := by
        rcases World.underWay_receive hunder' with hold | ⟨rfl, hreceive⟩
        · exact h.underWay other pending hmine hold
        · exact h.held.receives (hallowed hmine) hreceive
      exact hpending.of_le subset_rfl subset_rfl
        fun userID row _ hrow hadmin => ⟨row, husers ▸ hrow, hadmin⟩
    | complete id outside => exact h.complete hallowed
    | start now id salt username password =>
      refine ⟨h.held.start hallowed.1, fun other pending hmine hunder => ?_⟩
      refine (h.underWay other pending hmine hunder).of_le subset_rfl subset_rfl
        fun userID row' hlogsIn hrow' hadmin => ?_
      have hne : userID ≠ id := by
        rintro rfl
        exact hallowed.2 ⟨other, pending, hmine, hunder, hlogsIn⟩
      exact ⟨row', bootstrapAdmin_find? hne hrow', hadmin⟩

theorem along_append {before after : List (Move ι)} :
    w.Along acc order mine (before ++ after) ↔
      w.Along acc order mine before ∧ (w.play acc order mine before).Along acc order mine after := by
  induction before generalizing w with
  | nil => exact ⟨fun h => ⟨trivial, h⟩, fun h => h.2⟩
  | cons move before ih =>
    constructor
    · rintro ⟨hmove, h⟩
      exact ⟨⟨hmove, (ih.mp h).1⟩, (ih.mp h).2⟩
    · rintro ⟨⟨hmove, hbefore⟩, h⟩
      exact ⟨hmove, ih.mpr ⟨hbefore, h⟩⟩

theorem Watched.Harmless.play (h : w.Harmless acc mine) {moves : List (Move ι)}
    (halong : w.Along acc order mine moves) : (w.play acc order mine moves).Harmless acc mine := by
  induction moves generalizing w with
  | nil => exact h
  | cons move moves ih => exact ih (h.next halong.1) halong.2

end

/-- **No request makes its sender an administrator.** -/
theorem holder_confined (acc : Accounts) (order : List User → List User) (mine : ι → Bool)
    (w : Watched ι) (moves : List (Move ι)) (hharmless : w.Harmless acc mine)
    (halong : w.Along acc order mine moves) :
    (w.play acc order mine moves).Harmless acc mine ∧
      ∀ before event after, moves = before ++ .event event :: after →
        let now := w.play acc order mine before
        (∀ id visit, event = .receive id visit → mine id = true →
          Asked acc now.holder now.world.store (receive acc now.world.store visit)) ∧
        ∀ id outside pending, event = .complete id outside → mine id = true →
          now.world.underWay id = some pending →
            Confined acc now.holder outside.now pending now.world.store
              (complete acc order now.world.store outside pending).1
              (complete acc order now.world.store outside pending).2 := by
  refine ⟨hharmless.play halong, ?_⟩
  rintro before event after rfl now
  obtain ⟨hbefore, hallowed, -⟩ := along_append.mp halong
  have hnow : now.Harmless acc mine := hharmless.play hbefore
  constructor
  · rintro id visit rfl hmine
    exact receive_asked (hallowed hmine)
  · rintro id outside pending rfl hmine hunder
    exact (hnow.held.own (hnow.underWay id pending hmine hunder)
      (complete_effect acc order _ outside pending)).1

/-! ## A login across a reset

The holder's login reads the user, the password is reset, and only then the session is
opened: a viewer's session, under a password no longer valid. With it the holder asks for a
deletion and is refused. The run ends with that refusal, so that the theorem is applied to a
holder who has a session and uses it. -/

def holders (id : Nat) : Bool := decide (id = 1)

def viewerLogin : Visit := ⟨"", .login false (.ok ⟨"guest", letters 9⟩), 3⟩

def deletion : Visit := ⟨"guest", .session (.deleteUser adminID), 5⟩

def lateOutside : Outside := ⟨4, 4, 4, some "guest", 0, 0⟩

def lastOutside : Outside := ⟨5, 5, 5, none, 0, 0⟩

/-- The holder has the password of a viewer and logs in while an administrator resets it. -/
def crossedReset : List (Move Nat) :=
  twoUsers.map .event ++ [.event (.receive 1 viewerLogin)] ++
    (rootRequest (.resetUserPassword secondID (.ok (letters 10))) 3 0).map .event

/-- The login is answered, and an administrator is to be deleted with its token. -/
def crossedDeletion : List (Move Nat) :=
  crossedReset ++ [.event (.complete 1 lateOutside), .event (.receive 1 deletion)]

def intruder : List (Move Nat) := crossedDeletion ++ [.event (.complete 1 lastOutside)]

def emptyCenter : Watched Nat := ⟨World.opening .empty, ⟨∅, {letters 9}⟩⟩

section

variable {w : Watched Nat} {request : SessionRequest} {visit : Visit} {t : Timestamp} {new : UUID}
  {pending : Pending}

theorem received (hfree : w.world.underWay 0 = none)
    (h : (w.next plainAccounts id holders (.event (.receive 0 visit))).world.underWay 0 =
      some pending) : (receive plainAccounts w.world.store visit).1 = .ok pending := by
  have h' : (w.world.next plainAccounts id (.receive 0 visit)).underWay 0 = some pending := h
  rcases World.underWay_receive h' with hold | ⟨-, hreceive⟩
  · rw [hfree] at hold
    cases hold
  · exact hreceive

/-- Others log in with a token of their own. -/
theorem along_login {limited : Bool} {body : Except String LoginBody} {outside : Outside}
    (hfree : w.world.underWay 0 = none) (htokens : w.holder.tokens = ∅) :
    w.Along plainAccounts id holders [.event (.receive 0 ⟨"", .login limited body, t⟩),
      .event (.complete 0 outside)] := by
  refine ⟨nofun, fun _ pending hunder => ?_, trivial⟩
  rcases receive_ok (received hfree hunder) with
    ⟨_, input, credential, -, rfl, -⟩ | ⟨request, user, heq, -⟩
  · intro drawn _ token htoken
    have hnone : token ∈ (∅ : Set String) := htokens ▸ htoken
    exact absurd hnone (Set.notMem_empty token)
  · cases heq

/-- An administrator's request that gives nothing away. -/
theorem along_rootRequest (hfree : w.world.underWay 0 = none)
    (hprudent : ∀ w' : Watched Nat, w'.world.store.users = w.world.store.users → ∀ user,
      Prudent plainAccounts holders w' ⟨t, t, t, none, new, 0⟩ (.session "root" request user)) :
    w.Along plainAccounts id holders ((rootRequest request t new).map .event) := by
  refine ⟨nofun, fun _ pending hunder => ?_, trivial⟩
  rcases receive_ok (received hfree hunder) with
    ⟨_, input, credential, heq, -⟩ | ⟨request, user, heq, -, rfl, -⟩
  · cases heq
  · cases heq
    exact hprudent _ (World.receive_same plainAccounts id w.world 0 _).1 user

end

theorem along_twoUsers : emptyCenter.Along plainAccounts id holders (twoUsers.map .event) := by
  unfold twoUsers
  rw [List.map_append, along_append]
  refine ⟨⟨⟨?_, ?_⟩, along_login rfl rfl⟩, along_rootRequest rfl ?_⟩
  · rintro hash hhash ⟨password, rfl, hcompare⟩
    cases hhash
    exact absurd hcompare (by decide)
  · rintro ⟨id, pending, -, hunder, -⟩
    cases hunder
  · intro w' _ user hrole
    exact absurd hrole (by decide)

def crossed : Watched Nat := emptyCenter.play plainAccounts id holders crossedReset

/-- The session is opened for the password there was. -/
theorem crossed_answer : (crossed.world.underWay 1).map (fun pending =>
    (complete plainAccounts id crossed.world.store lateOutside pending).1) =
      some (.response (.user 200 ⟨2, "guest", "Guest", roleViewer, true, some 4, 2, 2⟩)
        (.set "guest" (4 + 24 * 60 * minute))) := by
  decide +kernel

theorem along_intruder : emptyCenter.Along plainAccounts id holders intruder := by
  unfold intruder crossedDeletion
  rw [List.append_assoc, along_append]
  constructor
  · unfold crossedReset
    simp only [along_append]
    refine ⟨⟨along_twoUsers, ?_, trivial⟩, along_rootRequest rfl ?_⟩
    · intro _
      refine ⟨fun hcookie => absurd rfl hcookie, fun limited input hlogin => ?_⟩
      cases hlogin
      exact rfl
    · intro w' husers user row huuid hrow hadmin
      have hid : row.id = 2 := (Option.some.inj huuid).symm
      have hviewer : ((emptyCenter.play plainAccounts id holders (twoUsers.map .event ++
          [.event (.receive 1 viewerLogin)])).world.store.users.find? 2).all
            (fun row => !row.enabledAdmin) = true := by
        decide +kernel
      rw [husers, hid] at hrow
      rw [hrow] at hviewer
      simp [hadmin] at hviewer
  · refine ⟨nofun, fun _ => ⟨fun _ => ?_, nofun⟩, nofun, trivial⟩
    obtain ⟨pending, hunder, hanswer⟩ := Option.map_eq_some_iff.mp crossed_answer
    show "guest" ∈ (crossed.answered plainAccounts id holders 1 lateOutside).tokens
    rw [answered_mine rfl hunder, hanswer]
    exact Set.mem_insert _ _

/-- Between the calls of the deletion. -/
def asked : Watched Nat :=
  emptyCenter.play plainAccounts id holders crossedDeletion

theorem asked_answer : (asked.world.underWay 1).map (fun pending =>
    (complete plainAccounts id asked.world.store lastOutside pending).1) =
      some (.response (.error 403 "permission_denied" "当前账号只有查看权限") .unchanged) := by
  decide +kernel

/-- The login that was under way is let in as the viewer, who may not delete. -/
theorem holder_confined_intruder :
    (emptyCenter.play plainAccounts id holders intruder).Harmless plainAccounts holders ∧
      (∃ pending, crossed.world.underWay 1 = some pending ∧
        Confined plainAccounts crossed.holder 4 pending crossed.world.store
          (complete plainAccounts id crossed.world.store lateOutside pending).1
          (complete plainAccounts id crossed.world.store lateOutside pending).2) ∧
      ∃ pending, asked.world.underWay 1 = some pending ∧
        Confined plainAccounts asked.holder 5 pending asked.world.store
          (.response (.error 403 "permission_denied" "当前账号只有查看权限") .unchanged)
          (complete plainAccounts id asked.world.store lastOutside pending).2 := by
  obtain ⟨hharmless, hconfined⟩ := holder_confined plainAccounts id holders emptyCenter intruder
    ⟨⟨fun _ h => absurd h (Set.notMem_empty _), nofun⟩, nofun⟩ along_intruder
  obtain ⟨login, hlogin, -⟩ := Option.map_eq_some_iff.mp crossed_answer
  obtain ⟨request, hrequest, hanswer⟩ := Option.map_eq_some_iff.mp asked_answer
  refine ⟨hharmless, ⟨login, hlogin, ?_⟩, request, hrequest, hanswer ▸ ?_⟩
  · exact (hconfined crossedReset _ _ rfl).2 1 lateOutside login rfl rfl hlogin
  · exact (hconfined crossedDeletion (.complete 1 lastOutside) [] rfl).2 1 lastOutside request rfl
      rfl hrequest

end Cfscan.Users.Api
