import Cfscan.Lib.Statement
import Cfscan.Store.Postgres

/-!
# Users and their sessions — `internal/store/postgres/auth.go`

The tables `app_users` and `auth_sessions`, and the transactions on them: the SQL statements each
call sends, in order, with the Go control flow between them. A statement outside a transaction is a
transaction of its own.

`NOW()` is passed in, and so is the uuid a new user gets. `LOWER` is the server's, and `toLower` is
`strings.ToLower`. The share lock a foreign key takes on the row it refers to is left out: without
it more interleavings are possible, not fewer.

The unique index on `LOWER(username)` is a key that is locked like a row (`UserKey`), so that two
insertions of one name come one after the other. The advisory lock of the administrators is another.
-/

set_option autoImplicit false

namespace Cfscan.Users

open Cfscan.Lib Cfscan.Store

/-! ## Tables

Besides the rows, a transaction here locks things that are no rows: a user name being
inserted, for the unique index, and the two advisory locks. They have keys but no versions. -/

def roleAdmin : String := "admin"

def roleViewer : String := "viewer"

structure User where
  id : UUID
  username : String
  displayName : String
  role : String
  enabled : Bool
  lastLoginAt : Option Timestamp
  createdAt : Timestamp
  updatedAt : Timestamp
deriving DecidableEq, Repr

/-- A row of `app_users`. -/
structure UserCredential extends User where
  passwordHash : String
deriving DecidableEq, Repr

def UserCredential.key (row : UserCredential) : UUID := row.id

structure AuthSession where
  tokenHash : String
  userID : UUID
  expiresAt : Timestamp
  createdAt : Timestamp
  lastSeenAt : Timestamp
deriving DecidableEq, Repr

structure UserStore where
  users : Table UUID UserCredential UserCredential.key
  sessions : Table String AuthSession AuthSession.tokenHash

def UserStore.empty : UserStore := ⟨.empty, .empty⟩

/-- What a transaction can lock: a row, a username in the unique index, an advisory lock. -/
inductive UserKey where
  | user (id : UUID)
  | username (name : String)
  | session (tokenHash : String)
  | advisory (n : Nat)
deriving DecidableEq, Repr

inductive UserWrite where
  | user (row : UserCredential)
  /-- `DELETE FROM app_users`, one row. -/
  | unuser (id : UUID)
  | session (row : AuthSession)
  /-- `DELETE FROM auth_sessions`, one row. -/
  | unsession (tokenHash : String)
deriving DecidableEq, Repr

inductive UserVersion where
  | user (row : Option UserCredential)
  | session (row : Option AuthSession)
  /-- There is no row behind the key. -/
  | none

def UserStore.row (s : UserStore) : UserKey → UserVersion
  | .user id => .user (s.users.find? id)
  | .session tokenHash => .session (s.sessions.find? tokenHash)
  | .username _ => .none
  | .advisory _ => .none

def UserWrite.key : UserWrite → UserKey
  | .user row => .user row.id
  | .unuser id => .user id
  | .session row => .session row.tokenHash
  | .unsession tokenHash => .session tokenHash

def UserStore.apply (s : UserStore) : UserWrite → UserStore
  | .user row => { s with users := s.users.put row }
  | .unuser id => { s with users := s.users.erase id }
  | .session row => { s with sessions := s.sessions.put row }
  | .unsession tokenHash => { s with sessions := s.sessions.erase tokenHash }

instance : RowStore UserStore UserKey UserVersion UserWrite where
  row := UserStore.row
  key := UserWrite.key
  apply := UserStore.apply
  row_apply := by
    intro s w k hne
    cases w <;> cases k <;> simp only [UserStore.row, UserStore.apply, Table.find?_put,
      Table.find?_erase] <;> try rfl
    all_goals
      rw [if_neg]
      intro heq
      apply hne
      simp_all [UserWrite.key, UserCredential.key]

def users : TableIn UserStore UserKey UserVersion UserWrite UUID UserCredential
    UserCredential.key where
  get := UserStore.users
  set := fun s t => { s with users := t }
  lockKey := .user
  version := .user
  get_set := fun _ _ => rfl
  set_get := fun _ => rfl
  set_set := fun _ _ _ => rfl
  apply_version := fun _ _ => rfl
  key_version := fun _ => rfl
  find?_row := fun _ _ _ h => by injection h

abbrev Program (α : Type) := Tx UserStore UserKey UserWrite α

/-- Texts are compared by `lower`; `toLower` is Go's. -/
structure Server extends Postgres where
  lower : String → String
  toLower : String → String

/-! ## Statements -/

/-- `role = 'admin' AND enabled`. -/
def UserCredential.enabledAdmin (row : UserCredential) : Bool :=
  decide (row.role = roleAdmin) && row.enabled

/-- What the columns of `app_users` accept. -/
def UserCredential.refused (row : UserCredential) : Option DbError :=
  if [row.username, row.displayName, row.passwordHash, row.role].all storable = false then
    some .valueRefused
  else if row.role ≠ roleAdmin ∧ row.role ≠ roleViewer then some .checkViolation
  else none

/-- `INSERT INTO app_users`. -/
def insertUser (server : Server) (row : UserCredential) : Program (Option DbError) :=
  match row.refused with
  | some error => pure (some error)
  | none => do
    Tx.acquire (.user row.id)
    Tx.acquire (.username (server.lower row.username))
    if ← Tx.read fun s => s.users.rows.any fun other => decide (other.id = row.id) ||
        decide (server.lower other.username = server.lower row.username) then
      pure (some .uniqueViolation)
    else do
      Tx.put (.user row)
      pure none

/-- The rows of a `DELETE FROM auth_sessions`, one by one. -/
def deleteEachSession (p : AuthSession → Bool) : List String → Program Unit
  | [] => pure ()
  | tokenHash :: rest => do
    Tx.acquire (.session tokenHash)
    match ← Tx.read fun s => s.sessions.find? tokenHash with
    | none => deleteEachSession p rest
    | some row =>
      if p row then do
        Tx.put (.unsession tokenHash)
        deleteEachSession p rest
      else deleteEachSession p rest

/-- `DELETE FROM auth_sessions WHERE p`. -/
def deleteSessions (p : AuthSession → Bool) : Program Unit := do
  let candidates ← Tx.read fun s => (s.sessions.rows.filter p).map AuthSession.tokenHash
  deleteEachSession p candidates

/-- `DELETE FROM app_users WHERE id = $1`, and the cascade of `auth_sessions`. -/
def deleteUserRow (id : UUID) : Program Unit := do
  match ← users.selectForUpdate id with
  | none => pure ()
  | some _ => do
    Tx.put (.unuser id)
    deleteSessions fun row => decide (row.userID = id)

/-- `SELECT COUNT(*) FROM app_users WHERE role = 'admin' AND enabled`. -/
def countAdmins (s : UserStore) : Nat := s.users.rows.countP UserCredential.enabledAdmin

/-! ## The calls

`updateUser` and `deleteUser` take the lock on administrators, `ensureBootstrapAdmin` has
one of its own. The password reset and the login take neither. -/

def newUser (id : UUID) (username displayName passwordHash role : String) (now : Timestamp) :
    UserCredential where
  id := id
  username := username
  displayName := displayName
  role := role
  enabled := true
  lastLoginAt := none
  createdAt := now
  updatedAt := now
  passwordHash := passwordHash

def bootstrapLock : Nat := 687326091

def ensureBootstrapAdmin (server : Server) (now : Timestamp) (id : UUID)
    (username displayName passwordHash : String) :
    Program (Ending (Except StoreError Unit)) := do
  Tx.acquire (.advisory bootstrapLock)
  let count ← Tx.read fun s => s.users.rows.length
  if count = 0 then do
    match ← insertUser server
      (newUser id (server.toLower username) displayName passwordHash roleAdmin now) with
    | some error => pure (.rollback (.error (.db "create bootstrap admin" error)))
    | none => pure (.commit (.ok ()))
  else pure (.commit (.ok ()))

structure CreateUserRequest where
  username : String
  displayName : String
  role : String
deriving DecidableEq, Repr

def createUser (server : Server) (now : Timestamp) (id : UUID) (input : CreateUserRequest)
    (passwordHash : String) : Program (Ending (Except StoreError User)) := do
  let row := newUser id (server.lower input.username) input.displayName passwordHash input.role now
  match ← insertUser server row with
  | some error => pure (.rollback (.error (.db "create user" error)))
  | none => pure (.commit (.ok row.toUser))

structure UpdateUserRequest where
  displayName : String
  role : String
  enabled : Bool
deriving DecidableEq, Repr

def UserCredential.update (now : Timestamp) (input : UpdateUserRequest) (row : UserCredential) :
    UserCredential :=
  { row with
    displayName := input.displayName
    role := input.role
    enabled := input.enabled
    updatedAt := now }

@[simp] theorem UserCredential.key_update (now : Timestamp) (input : UpdateUserRequest)
    (row : UserCredential) : (row.update now input).key = row.key := rfl

/-- The lock of `UpdateUser` and `DeleteUser`. -/
def adminLock : Nat := 687326092

/-- Whether the target is an administrator that would be missed: the count is taken only when it
is an enabled one, and would no longer be. -/
def lastAdmin (current : UserCredential) (leaves : Bool) : Program Bool :=
  if current.enabledAdmin && leaves then do
    let admins ← Tx.read countAdmins
    pure (decide (admins ≤ 1))
  else pure false

def lastAdminUpdate : StoreError :=
  .message "cannot disable or demote the last enabled administrator"

/-- From the check on. -/
def updateUserRow (now : Timestamp) (id : UUID) (input : UpdateUserRequest)
    (current : UserCredential) : Program (Ending (Except StoreError User)) :=
  match (current.update now input).refused with
  | some error => pure (.rollback (.error (.db "update user" error)))
  | none => do
    match ← users.updateWhere (fun row => decide (row.id = id)) (UserCredential.update now input) with
    | [] => pure (.rollback (.error (.db "update user" .noRows)))
    | row :: _ =>
      if input.enabled then pure (.commit (.ok row.toUser))
      else do
        deleteSessions fun sess => decide (sess.userID = id)
        pure (.commit (.ok row.toUser))

def updateUser (server : Server) (now : Timestamp) (userID : String) (input : UpdateUserRequest) :
    Program (Ending (Except StoreError User)) := do
  Tx.acquire (.advisory adminLock)
  match server.uuid userID with
  | none => pure (.rollback (.error (.db "load user for update" .castFailed)))
  | some id => do
    match ← users.selectForUpdate id with
    | none => pure (.rollback (.error (.db "load user for update" .noRows)))
    | some current => do
      if ← lastAdmin current (decide (input.role ≠ roleAdmin) || !input.enabled) then
        pure (.rollback (.error lastAdminUpdate))
      else updateUserRow now id input current

def UserCredential.reset (now : Timestamp) (passwordHash : String) (row : UserCredential) :
    UserCredential :=
  { row with passwordHash := passwordHash, updatedAt := now }

@[simp] theorem UserCredential.key_reset (now : Timestamp) (passwordHash : String)
    (row : UserCredential) : (row.reset now passwordHash).key = row.key := rfl

def resetUserPassword (server : Server) (now : Timestamp) (userID passwordHash : String) :
    Program (Ending (Except StoreError Unit)) :=
  match server.uuid userID with
  | none => pure (.rollback (.error (.db "reset user password" .castFailed)))
  | some id =>
    if storable passwordHash = false then
      pure (.rollback (.error (.db "reset user password" .valueRefused)))
    else do
      match ← users.updateWhere (fun row => decide (row.id = id))
        (UserCredential.reset now passwordHash) with
      | [] => pure (.rollback (.error (.message "user not found")))
      | _ => do
        deleteSessions fun sess => decide (sess.userID = id)
        pure (.commit (.ok ()))

def lastAdminDelete : StoreError := .message "cannot delete the last enabled administrator"

def deleteUser (server : Server) (userID : String) : Program (Ending (Except StoreError Unit)) := do
  Tx.acquire (.advisory adminLock)
  match server.uuid userID with
  | none => pure (.rollback (.error (.db "load user for deletion" .castFailed)))
  | some id => do
    match ← users.selectForUpdate id with
    | none => pure (.rollback (.error (.db "load user for deletion" .noRows)))
    | some current => do
      if ← lastAdmin current true then pure (.rollback (.error lastAdminDelete))
      else do
        deleteUserRow id
        pure (.commit (.ok ()))

def UserCredential.login (now : Timestamp) (row : UserCredential) : UserCredential :=
  { row with lastLoginAt := some now, updatedAt := now }

@[simp] theorem UserCredential.key_login (now : Timestamp) (row : UserCredential) :
    (row.login now).key = row.key := rfl

/-- `INSERT INTO auth_sessions`. -/
def insertSession (row : AuthSession) : Program (Option DbError) :=
  if storable row.tokenHash = false then pure (some .valueRefused)
  else do
    Tx.acquire (.session row.tokenHash)
    match ← Tx.read fun s => s.sessions.find? row.tokenHash with
    | some _ => pure (some .uniqueViolation)
    | none => do
      match ← Tx.read fun s => s.users.find? row.userID with
      | none => pure (some .foreignKeyViolation)
      | some _ => do
        Tx.put (.session row)
        pure none

def createAuthSession (server : Server) (now : Timestamp) (tokenHash userID : String)
    (expiresAt : Timestamp) : Program (Ending (Except StoreError Unit)) := do
  deleteSessions fun sess => decide (sess.expiresAt ≤ now)
  match server.uuid userID with
  | none => pure (.rollback (.error (.db "create auth session" .castFailed)))
  | some id => do
    match ← insertSession ⟨tokenHash, id, expiresAt, now, now⟩ with
    | some error => pure (.rollback (.error (.db "create auth session" error)))
    | none => do
      let _ ← users.updateWhere (fun row => decide (row.id = id)) (UserCredential.login now)
      pure (.commit (.ok ()))

/-! ## Two reads -/

def findUserByUsername (server : Server) (s : UserStore) (username : String) :
    Except StoreError UserCredential :=
  match s.users.rows.find? fun row =>
    decide (server.lower row.username = server.lower username) with
  | none => .error (.db "find user by username" .noRows)
  | some row => .ok row

/-- The user behind a session, and its row. -/
def getUserBySession (s : UserStore) (now : Timestamp) (tokenHash : String) :
    Except StoreError User :=
  match s.sessions.find? tokenHash with
  | none => .error (.db "get user by session" .noRows)
  | some sess =>
    match s.users.find? sess.userID with
    | none => .error (.db "get user by session" .noRows)
    | some row =>
      if sess.expiresAt > now ∧ row.enabled = true then .ok row.toUser
      else .error (.db "get user by session" .noRows)

end Cfscan.Users
