import Cfscan.Users.Login

/-!
# The handlers of user accounts — `internal/api/users.go`

What a request for a user account is answered, and what it leaves of the database, with the checks
of `internal/auth/service.go` it goes through. A body is what `decodeJSON` makes of it. A password is
a sequence of bytes; `bcrypt` is passed in with the limit it has, and `unicode.ToLower` with what
makes two texts one up to the case of their letters.

A body that does not decode is its refusal, and what makes it one is not told. The store calls of
one handler run one after the other on one state; where other requests come between them,
`Users.Sessions` has the handlers in their two halves.
-/

set_option autoImplicit false

namespace Cfscan.Users

open Cfscan.Lib Cfscan.Store

/-- The characters of a username. -/
def usernameChar (c : Char) : Bool :=
  (decide ('a' ≤ c) && decide (c ≤ 'z')) || (decide ('0' ≤ c) && decide (c ≤ '9')) || c == '.' ||
    c == '_' || c == '-'

structure Accounts where
  auth : AuthService
  /-- `bcrypt.GenerateFromPassword`, for the salt it draws. -/
  generate : Nat → ByteArray → Except String String
  /-- `bcrypt.CompareHashAndPassword` succeeds. -/
  compare : String → ByteArray → Bool
  compare_text : ∀ hash text, auth.compare hash text = compare hash text.toUTF8
  generate_long : ∀ salt password, 72 < password.size → ∃ cause, generate salt password = .error cause
  generate_short : ∀ salt password, password.size ≤ 72 → ∃ hash, generate salt password = .ok hash ∧
    storable hash = true ∧ compare hash password = true
  /-- `unicode.ToLower`. -/
  lowerRune : Char → Char
  toLower_eq : ∀ text, auth.toLower text = String.ofList (text.toList.map lowerRune)
  lowerRune_lowerRune : ∀ c, lowerRune (lowerRune c) = lowerRune c
  isSpace_lowerRune : ∀ c, isSpace (lowerRune c) = isSpace c
  /-- The characters of a username are lower case for the server too. -/
  lower_username : ∀ text, text.toList.all usernameChar = true → auth.lower text = text
  /-- Hexadecimal digits. -/
  storable_hashToken : ∀ token, storable (auth.hashToken token) = true

inductive Response where
  /-- `writeError`. -/
  | error (status : Nat) (code message : String)
  /-- `writeError` with the text of an error of the store. -/
  | storeError (status : Nat) (code : String) (cause : StoreError)
  | user (status : Nat) (item : User)
  | noContent (clearCookie : Bool)
deriving DecidableEq

def internalError : Response := .error 500 "internal_error" "request failed"

structure CreateUserBody extends CreateUserRequest where
  password : ByteArray

section Service

variable (acc : Accounts)

/-! ## Checks

Lengths are in bytes, as Go's `len` counts them, though the messages speak of characters: a
password of forty-three Chinese characters is too long. -/

def validateUsername (value : String) : Except String Unit :=
  let value := acc.auth.normalizeUsername value
  if value.utf8ByteSize < 3 ∨ value.utf8ByteSize > 64 then
    .error "username must contain 3 to 64 characters"
  else if value.toList.all usernameChar then .ok ()
  else .error
    "username may only contain lowercase letters, numbers, dot, underscore, and hyphen"

def validatePassword (value : ByteArray) : Except String Unit :=
  if value.size < 8 ∨ value.size > 128 then .error "password must contain 8 to 128 characters"
  else .ok ()

def validateRole (role : String) : Except String Unit :=
  if role ≠ roleAdmin ∧ role ≠ roleViewer then .error "role must be admin or viewer" else .ok ()

def hashPassword (salt : Nat) (value : ByteArray) : Except String String :=
  (acc.generate salt value).mapError ("hash password: " ++ ·)

/-! ## The first administrator and logins

`login` is the two halves of `Service.Login` run without anything between them. Requests
that overlap use the halves (`loginAs` with what was read before); `loginAs_acts` says that
the second half does what the two acts of `Cfscan.Users.Login` do. -/

inductive BootstrapError where
  | message (text : String)
  | store (cause : StoreError)
deriving DecidableEq

/-- `Service.EnsureBootstrapAdmin`. -/
def bootstrapAdmin (s : UserStore) (now : Timestamp) (id : UUID) (salt : Nat) (username : String)
    (password : ByteArray) : Except BootstrapError Unit × UserStore :=
  if s.users.rows.length > 0 then (.ok (), s)
  else
    let username := acc.auth.normalizeUsername username
    if username = "" ∨ password.size = 0 then
      (.error (.message
        "bootstrap administrator username and password are required when no users exist"), s)
    else
      match validateUsername acc username with
      | .error cause => (.error (.message ("bootstrap administrator: " ++ cause)), s)
      | .ok () =>
        match validatePassword password with
        | .error cause => (.error (.message ("bootstrap administrator: " ++ cause)), s)
        | .ok () =>
          match hashPassword acc salt password with
          | .error cause => (.error (.message cause), s)
          | .ok hash =>
            let done := (ensureBootstrapAdmin acc.auth.toServer now id username "Administrator"
              hash).exec s
            (done.1.mapError .store, done.2)

/-- The check of a login, for any password. -/
def Accounts.check (password : ByteArray) : Except StoreError UserCredential → LoginPhase
  | .error _ => .over (.error .invalidCredentials)
  | .ok credential =>
    if acc.compare credential.passwordHash password = false ∨ credential.enabled = false then
      .over (.error .invalidCredentials)
    else .compared credential

theorem check_cases (svc : AuthService) (password : String)
    (credential : Except StoreError UserCredential) :
    svc.check password credential = .over (.error .invalidCredentials) ∨
      ∃ row, svc.check password credential = .compared row := by
  cases credential with
  | error cause => exact .inl rfl
  | ok row =>
    unfold AuthService.check
    dsimp only
    split
    · exact .inl rfl
    · exact .inr ⟨row, rfl⟩

/-- For a password that is a text it is the check of the login. -/
theorem check_text (password : String) (credential : Except StoreError UserCredential) :
    acc.check password.toUTF8 credential = acc.auth.check password credential := by
  cases credential with
  | error cause => rfl
  | ok credential =>
    unfold Accounts.check AuthService.check
    dsimp only
    rw [acc.compare_text]

/-- `Service.Login` with what it has read of the user, and the token it draws and its readings of the
clock. -/
def loginAs (s : UserStore) (password : ByteArray) (credential : Except StoreError UserCredential)
    (token : Option String) (clock now done : Timestamp) : LoginResult × UserStore :=
  match acc.check password credential with
  | .over result => (result, s)
  | .compared credential => acc.auth.open s credential clock now done token
  | _ => (.error .invalidCredentials, s)

/-- **The login of `AuthWorld`**: its comparison, and its insertion into whatever the tables have
become, are `loginAs` with what it has found. -/
theorem loginAs_acts {ι : Type} [DecidableEq ι] (w : AuthWorld ι) {client : ι} {password : String}
    {credential : Except StoreError UserCredential}
    (hfound : w.logins client = .found password credential) (s : UserStore) (token : Option String)
    (clock now done : Timestamp) :
    let compared := w.act acc.auth (.compare client)
    let opened := { compared with db := s }.act acc.auth (.insert client token clock now done)
    opened.db = (loginAs acc s password.toUTF8 credential token clock now done).2 ∧
      opened.logins client =
        .over (loginAs acc s password.toUTF8 credential token clock now done).1 := by
  have hphase : (w.act acc.auth (.compare client)).logins client =
      acc.auth.check password credential := by
    unfold AuthWorld.act
    dsimp only
    rw [hfound]
    exact Function.update_self ..
  dsimp only
  generalize w.act acc.auth (.compare client) = compared at hphase
  unfold loginAs AuthWorld.act
  rw [check_text]
  dsimp only
  rw [hphase]
  rcases check_cases acc.auth password credential with hover | ⟨row, hcompared⟩
  · rw [hover] at hphase ⊢
    exact ⟨rfl, hphase⟩
  · rw [hcompared]
    exact ⟨rfl, Function.update_self ..⟩

/-- `Service.Login`, with nothing between its two calls of the store. -/
def login (s : UserStore) (username : String) (password : ByteArray) (token : Option String)
    (clock now done : Timestamp) : LoginResult × UserStore :=
  loginAs acc s password
    (findUserByUsername acc.auth.toServer s (acc.auth.normalizeUsername username)) token clock now
    done

end Service

namespace Api

/-! ## The handlers -/

section Handlers

variable (acc : Accounts) (s : UserStore)

def createUser (now : Timestamp) (id : UUID) (salt : Nat) (body : Except String CreateUserBody) :
    Response × UserStore :=
  match body with
  | .error message => (.error 400 "invalid_request" message, s)
  | .ok input =>
    let username := acc.auth.normalizeUsername input.username
    let displayName := trimSpace input.displayName
    let displayName := if displayName = "" then username else displayName
    match validateUsername acc username with
    | .error message => (.error 400 "invalid_username" message, s)
    | .ok () =>
      match validatePassword input.password with
      | .error message => (.error 400 "invalid_password" message, s)
      | .ok () =>
        match validateRole input.role with
        | .error message => (.error 400 "invalid_role" message, s)
        | .ok () =>
          match hashPassword acc salt input.password with
          | .error _ => (internalError, s)
          | .ok hash =>
            match (Users.createUser acc.auth.toServer now id ⟨username, displayName, input.role⟩
              hash).exec s with
            | (.error cause, s') => (.storeError 400 "create_user_failed" cause, s')
            | (.ok item, s') => (.user 201 item, s')

def updateUser (now : Timestamp) (actor : User) (userID : String)
    (body : Except String UpdateUserRequest) : Response × UserStore :=
  match body with
  | .error message => (.error 400 "invalid_request" message, s)
  | .ok input =>
    let input := { input with displayName := trimSpace input.displayName }
    if input.displayName = "" then
      (.error 400 "invalid_display_name" "显示名称不能为空", s)
    else
      match validateRole input.role with
      | .error message => (.error 400 "invalid_role" message, s)
      | .ok () =>
        if acc.auth.uuidText actor.id = userID ∧ (input.enabled = false ∨ input.role ≠ actor.role)
        then (.error 400 "cannot_change_self_access" "不能停用或修改自己的管理员权限", s)
        else
          match (Users.updateUser acc.auth.toServer now userID input).exec s with
          | (.error cause, s') => (.storeError 400 "update_user_failed" cause, s')
          | (.ok item, s') => (.user 200 item, s')

/-- The body is the password of `model.ResetUserPasswordRequest`. -/
def resetUserPassword (now : Timestamp) (actor : User) (userID : String) (salt : Nat)
    (body : Except String ByteArray) : Response × UserStore :=
  match body with
  | .error message => (.error 400 "invalid_request" message, s)
  | .ok password =>
    match validatePassword password with
    | .error message => (.error 400 "invalid_password" message, s)
    | .ok () =>
      match hashPassword acc salt password with
      | .error _ => (internalError, s)
      | .ok hash =>
        match (Users.resetUserPassword acc.auth.toServer now userID hash).exec s with
        | (.error cause, s') => (.storeError 400 "reset_password_failed" cause, s')
        | (.ok (), s') => (.noContent (decide (acc.auth.uuidText actor.id = userID)), s')

def deleteUser (actor : User) (userID : String) : Response × UserStore :=
  if acc.auth.uuidText actor.id = userID then
    (.error 400 "cannot_delete_self" "不能删除当前登录账号", s)
  else
    match (Users.deleteUser acc.auth.toServer userID).exec s with
    | (.error cause, s') => (.storeError 400 "delete_user_failed" cause, s')
    | (.ok (), s') => (.noContent false, s')

end Handlers

end Api

end Cfscan.Users
