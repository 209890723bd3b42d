import Cfscan.Users.Passwords

/-!
# Requests with a session — `internal/api/auth.go`, `internal/api/users.go`

What a request is answered that goes through `requireSession` and, for user accounts, through
`requireAdmin`, and a login, which is where sessions come from. Every request makes at most two calls
of the store, and a request is modelled as the two: `receive` is what it does up to the first, which
reads the user of the session or the user a login names, and `complete` is the rest. Between the two
a request is `Pending`, with what it has read, and the store may become another.

What a request meets outside comes with its calls: the clocks, the random token, the salt and the
uuid of a new user, and the verdict of the login limiter. The order of the server under
`ORDER BY role, username` is passed in.

The second part says what each call of the store leaves of users and sessions, row by row. It does
**not** take a call apart: `Users.Admins` does, for the calls an administrator makes.
-/

set_option autoImplicit false

namespace Cfscan.Users

open Cfscan.Lib Cfscan.Store

/-! ## `internal/store/postgres/auth.go` -/

/-- `DELETE FROM auth_sessions WHERE token_hash = $1`. -/
def deleteAuthSession (tokenHash : String) : Program (Ending (Except StoreError Unit)) :=
  if storable tokenHash = false then
    pure (.rollback (.error (.db "delete auth session" .valueRefused)))
  else do
    deleteSessions fun sess => decide (sess.tokenHash = tokenHash)
    pure (.commit (.ok ()))

/-- `UPDATE auth_sessions SET last_seen_at = NOW()` of a session that was not seen for five
minutes. -/
def UserStore.touch (s : UserStore) (now : Timestamp) (tokenHash : String) : UserStore :=
  { s with
    sessions := s.sessions.updateWhere
      (fun sess =>
        decide (sess.tokenHash = tokenHash) && decide (sess.lastSeenAt < now - 5 * minute))
      (fun sess => { sess with lastSeenAt := now }) fun _ => rfl }

/-! ## `internal/auth/service.go` -/

section Service

variable (acc : Accounts)

/-- `Service.Authenticate`, with what `GetUserBySession` writes. -/
def authenticate (s : UserStore) (now : Timestamp) (token : String) :
    Except LoginError User × UserStore :=
  if token = "" then (.error .invalidCredentials, s)
  else
    match getUserBySession s now (acc.auth.hashToken token) with
    | .error cause => (.error (.store cause), s)
    | .ok user => (.ok user, s.touch now (acc.auth.hashToken token))

/-- `Service.Logout` -/
def logout (s : UserStore) (token : String) : Except StoreError Unit × UserStore :=
  if token = "" then (.ok (), s)
  else (deleteAuthSession (acc.auth.hashToken token)).exec s

end Service

/-! ## Requests

A request is cut between its two calls of the store: `receive` makes the first and reads
(the user a login names, or the session's user), `complete` makes the second and answers.
The second part meets whatever store there is by then, with the user as read before. -/

namespace Api

structure LoginBody where
  username : String
  password : ByteArray

/-- What is behind `requireSession`. -/
inductive SessionRequest where
  | me
  | logout
  | listUsers
  | createUser (body : Except String CreateUserBody)
  | updateUser (userID : String) (body : Except String UpdateUserRequest)
  | resetUserPassword (userID : String) (body : Except String ByteArray)
  | deleteUser (userID : String)

inductive Request where
  /-- `limited` is what the limiter says of the client. -/
  | login (limited : Bool) (body : Except String LoginBody)
  | session (request : SessionRequest)

/-- A request with its session cookie, empty when there is none, and `NOW()` of its first call. -/
structure Visit where
  cookie : String
  request : Request
  seen : Timestamp

/-- What the second call meets outside: `NOW()`, the clock of the center before and after it, and
what is drawn for it. -/
structure Outside where
  now : Timestamp
  clock : Timestamp
  done : Timestamp
  token : Option String
  id : UUID
  salt : Nat

/-- A request between its two calls of the store. -/
inductive Pending where
  | login (input : LoginBody) (credential : Except StoreError UserCredential)
  /-- The user is who the session was for when it was looked up. -/
  | session (cookie : String) (request : SessionRequest) (user : User)

/-- The session cookie of an answer. -/
inductive Cookie where
  | unchanged
  | set (token : String) (expiresAt : Timestamp)
  | cleared
deriving DecidableEq

inductive Answer where
  | response (response : Response) (cookie : Cookie)
  | users (items : List User)
deriving DecidableEq

/-- An answer of the handlers of user accounts. -/
def plain : Response → Answer
  | .noContent true => .response (.noContent true) .cleared
  | response => .response response .unchanged

section Serve

variable (acc : Accounts) (order : List User → List User) (s : UserStore)

/-- `login`, up to `FindUserByUsername`. -/
def receiveLogin (limited : Bool) (body : Except String LoginBody) : Except Answer Pending :=
  if limited then
    .error (.response (.error 429 "too_many_login_attempts" "登录尝试过多，请稍后再试") .unchanged)
  else
    match body with
    | .error message => .error (.response (.error 400 "invalid_request" message) .unchanged)
    | .ok input =>
      .ok (.login input (findUserByUsername acc.auth.toServer s
        (acc.auth.normalizeUsername input.username)))

/-- A request up to its first call of the store; `requireSession` is in front of every request but a
login. -/
def receive (visit : Visit) : Except Answer Pending × UserStore :=
  match visit.request with
  | .login limited body => (receiveLogin acc s limited body, s)
  | .session request =>
    match authenticate acc s visit.seen visit.cookie with
    | (.error _, s') =>
      (.error (.response (.error 401 "authentication_required" "请先登录") .cleared), s')
    | (.ok user, s') => (.ok (.session visit.cookie request user), s')

variable (outside : Outside)

/-- `login`, with the user that was read. -/
def login (input : LoginBody) (credential : Except StoreError UserCredential) :
    Answer × UserStore :=
  match loginAs acc s input.password credential outside.token outside.clock outside.now
    outside.done with
  | (.error .invalidCredentials, s') =>
    (.response (.error 401 "invalid_credentials" "用户名或密码错误") .unchanged, s')
  | (.error _, s') => (.response internalError .unchanged, s')
  | (.ok (user, token, expiresAt), s') => (.response (.user 200 user) (.set token expiresAt), s')

def logout (cookie : String) : Answer × UserStore :=
  match Users.logout acc s cookie with
  | (.error _, s') => (.response internalError .unchanged, s')
  | (.ok (), s') => (.response (.noContent true) .cleared, s')

/-- `requireAdmin` -/
def requireAdmin (user : User) (next : Answer × UserStore) : Answer × UserStore :=
  if user.role ≠ roleAdmin then
    (.response (.error 403 "permission_denied" "当前账号只有查看权限") .unchanged, s)
  else next

/-- The handlers behind `requireSession`, for the user of the session. -/
def handle (cookie : String) (user : User) : SessionRequest → Answer × UserStore
  | .me => (.response (.user 200 user) .unchanged, s)
  | .logout => logout acc s cookie
  | .listUsers => requireAdmin s user (.users (order (s.users.rows.map UserCredential.toUser)), s)
  | .createUser body =>
    let done := createUser acc s outside.now outside.id outside.salt body
    requireAdmin s user (plain done.1, done.2)
  | .updateUser userID body =>
    let done := updateUser acc s outside.now user userID body
    requireAdmin s user (plain done.1, done.2)
  | .resetUserPassword userID body =>
    let done := resetUserPassword acc s outside.now user userID outside.salt body
    requireAdmin s user (plain done.1, done.2)
  | .deleteUser userID =>
    let done := deleteUser acc s user userID
    requireAdmin s user (plain done.1, done.2)

/-- A request from its first call of the store to its answer. -/
def complete : Pending → Answer × UserStore
  | .login input credential => login acc s outside input credential
  | .session cookie request user => handle acc order s outside cookie user request

end Serve

end Api

/-! ## What the calls leave

Exact results of the store's calls, as tables. The loops over sessions come out as one
`keepWhere`; the errors leave the store as it was, whatever they are. -/

section Calls

variable (server : Server) (s : UserStore)

/-- The sessions that are not of one user. -/
def UserStore.without (s : UserStore) (id : UUID) :
    Table String AuthSession AuthSession.tokenHash :=
  s.sessions.keepWhere fun sess => !decide (sess.userID = id)

theorem deleteEachSession_run (p : AuthSession → Bool) (tokens : List String) (s : UserStore) :
    (deleteEachSession p tokens).run s = ((), { s with
      sessions := s.sessions.keepWhere fun sess =>
        !(decide (sess.tokenHash ∈ tokens) && p sess) }) := by
  induction tokens generalizing s with
  | nil =>
    have hall : s.sessions.keepWhere (fun sess => !(decide (sess.tokenHash ∈ []) && p sess)) =
        s.sessions := Table.ext_rows (List.filter_eq_self.mpr fun sess _ => by simp)
    rw [hall]
    rfl
  | cons token tokens ih =>
    unfold deleteEachSession
    simp only [Tx.bind_eq, Tx.run_bind, Tx.run_acquire, Tx.run_read]
    cases hfind : s.sessions.find? token with
    | none =>
      dsimp only
      rw [ih]
      have hsame :
          s.sessions.keepWhere (fun sess => !(decide (sess.tokenHash ∈ tokens) && p sess)) =
            s.sessions.keepWhere fun sess =>
              !(decide (sess.tokenHash ∈ token :: tokens) && p sess) := by
        refine Table.ext_rows (List.filter_congr fun sess hsess => ?_)
        have hne : sess.tokenHash ≠ token := Table.find?_eq_none.mp hfind sess hsess
        simp [hne]
      rw [hsame]
    | some row =>
      obtain ⟨hrow, rfl⟩ := Table.find?_eq_some.mp hfind
      dsimp only
      by_cases hp : p row = true
      · simp only [if_pos hp, Tx.run_bind, Tx.run_put]
        rw [ih]
        refine congrArg (Prod.mk ()) (congrArg (UserStore.mk s.users) (Table.ext_rows ?_))
        show (s.sessions.rows.filter _).filter _ = s.sessions.rows.filter _
        -- the two deletions are one, for a token has at most one row
        rw [List.filter_filter]
        refine List.filter_congr fun sess hsess => ?_
        by_cases hsame : sess.tokenHash = row.tokenHash
        · simp [Table.eq_of_key hsess hrow hsame, hp]
        · simp [hsame]
      · rw [if_neg hp, ih]
        refine congrArg (Prod.mk ()) (congrArg (UserStore.mk s.users) (Table.ext_rows ?_))
        refine List.filter_congr fun sess hsess => ?_
        by_cases hsame : sess.tokenHash = row.tokenHash
        · simp [Table.eq_of_key hsess hrow hsame, hp]
        · simp [hsame]

/-- A `DELETE FROM auth_sessions` leaves the rows it does not select. -/
theorem deleteSessions_keep (p : AuthSession → Bool) (s : UserStore) :
    (deleteSessions p).run s =
      ((), { s with sessions := s.sessions.keepWhere fun sess => !p sess }) := by
  unfold deleteSessions
  simp only [Tx.bind_eq, Tx.run_bind, Tx.run_read]
  rw [deleteEachSession_run]
  refine congrArg (Prod.mk ()) (congrArg (UserStore.mk s.users) (Table.ext_rows ?_))
  refine List.filter_congr fun sess hsess => ?_
  by_cases hp : p sess = true
  · have hmem : sess.tokenHash ∈ (s.sessions.rows.filter p).map AuthSession.tokenHash :=
      List.mem_map_of_mem (List.mem_filter.mpr ⟨hsess, hp⟩)
    simp [hmem, hp]
  · simp [hp]

/-- The rows of a statement that names a user by its id. -/
theorem users_filter (s : UserStore) (id : UUID) :
    (users.get s).rows.filter (fun row => decide (row.id = id)) = (s.users.find? id).toList := by
  show s.users.rows.filter _ = _
  have hone : ∀ row ∈ s.users.rows.filter (fun row => decide (row.id = id)),
      s.users.find? id = some row := fun row hrow =>
    Table.find?_eq_some.mpr ⟨(List.mem_filter.mp hrow).1,
      of_decide_eq_true (List.mem_filter.mp hrow).2⟩
  have hnodup : (s.users.rows.filter fun row => decide (row.id = id)).Nodup :=
    List.Nodup.sublist List.filter_sublist (List.Nodup.of_map _ s.users.nodup)
  cases hrow : s.users.find? id with
  | none =>
    refine List.filter_eq_nil_iff.mpr fun row hmem hid => ?_
    exact Table.find?_eq_none.mp hrow row hmem (of_decide_eq_true hid)
  | some row =>
    have hmem : row ∈ s.users.rows.filter fun row => decide (row.id = id) :=
      List.mem_filter.mpr ⟨Table.mem_of_find? hrow,
        decide_eq_true (Table.key_of_find? hrow : row.key = id)⟩
    rw [hrow] at hone
    generalize s.users.rows.filter (fun row => decide (row.id = id)) = l at hone hnodup hmem
    rcases l with _ | ⟨first, _ | ⟨second, rest⟩⟩
    · cases hmem
    · rw [Option.some.inj (hone first List.mem_cons_self)]
      rfl
    · have hfirst := Option.some.inj (hone first List.mem_cons_self)
      have hsecond := Option.some.inj (hone second (List.mem_cons_of_mem _ List.mem_cons_self))
      rw [← hfirst, ← hsecond] at hnodup
      exact absurd List.mem_cons_self (List.nodup_cons.mp hnodup).1

theorem resetUserPassword_exact (now : Timestamp) (userID passwordHash : String) :
    (∃ error, (resetUserPassword server now userID passwordHash).exec s = (.error error, s)) ∨
      ∃ id row, server.uuid userID = some id ∧ s.users.find? id = some row ∧
        (resetUserPassword server now userID passwordHash).exec s = (.ok (),
          ⟨s.users.updateWhere (fun row => decide (row.id = id))
            (UserCredential.reset now passwordHash) (UserCredential.key_reset now passwordHash),
            s.without id⟩) := by
  unfold Tx.exec resetUserPassword
  cases huuid : server.uuid userID with
  | none => exact .inl ⟨_, rfl⟩
  | some id =>
    dsimp only
    by_cases hstorable : storable passwordHash = false
    · rw [if_pos hstorable]
      exact .inl ⟨_, rfl⟩
    · rw [if_neg hstorable]
      simp only [Tx.bind_eq, Tx.run_bind,
        users.run_updateWhere (UserCredential.key_reset now passwordHash), users_filter]
      cases hrow : s.users.find? id with
      | none => exact .inl ⟨_, rfl⟩
      | some row =>
        refine .inr ⟨id, row, rfl, hrow, ?_⟩
        simp only [Option.toList_some, List.map_cons, List.map_nil, Tx.run_bind,
          deleteSessions_keep]
        rfl

theorem updateUser_exact (now : Timestamp) (userID : String) (input : UpdateUserRequest) :
    (∃ error, (updateUser server now userID input).exec s = (.error error, s)) ∨
      ∃ id row, server.uuid userID = some id ∧ s.users.find? id = some row ∧
        (updateUser server now userID input).exec s = (.ok (row.update now input).toUser,
          ⟨s.users.updateWhere (fun row => decide (row.id = id)) (UserCredential.update now input)
            (UserCredential.key_update now input),
            if input.enabled then s.sessions else s.without id⟩) := by
  unfold Tx.exec updateUser
  simp only [Tx.bind_eq, Tx.run_bind, Tx.run_acquire]
  cases huuid : server.uuid userID with
  | none => exact .inl ⟨_, rfl⟩
  | some id =>
    simp only [Tx.run_bind, users.run_selectForUpdate]
    cases hrow : (users.get s).find? id with
    | none => exact .inl ⟨_, rfl⟩
    | some row =>
      simp only [Tx.run_bind, lastAdmin_run_eq]
      by_cases hlast : (row.enabledAdmin && (decide (input.role ≠ roleAdmin) || !input.enabled) &&
        decide (countAdmins s ≤ 1)) = true
      · rw [if_pos hlast]
        exact .inl ⟨_, rfl⟩
      · rw [if_neg hlast]
        unfold updateUserRow
        cases hrefused : (row.update now input).refused with
        | some error => exact .inl ⟨_, rfl⟩
        | none =>
          have hfound : s.users.find? id = some row := hrow
          simp only [Tx.bind_eq, Tx.run_bind, users_filter, hfound, Option.toList_some,
            users.run_updateWhere (UserCredential.key_update now input), List.map_cons]
          refine .inr ⟨id, row, rfl, hfound, ?_⟩
          cases input.enabled with
          | true => rfl
          | false =>
            simp only [Bool.false_eq_true, if_false, Tx.run_bind, deleteSessions_keep]
            rfl

theorem deleteUser_exact (userID : String) :
    (∃ error, (deleteUser server userID).exec s = (.error error, s)) ∨
      ∃ id row, server.uuid userID = some id ∧ s.users.find? id = some row ∧
        (deleteUser server userID).exec s = (.ok (), ⟨s.users.erase id, s.without id⟩) := by
  unfold Tx.exec deleteUser
  simp only [Tx.bind_eq, Tx.run_bind, Tx.run_acquire]
  cases huuid : server.uuid userID with
  | none => exact .inl ⟨_, rfl⟩
  | some id =>
    simp only [Tx.run_bind, users.run_selectForUpdate]
    cases hrow : (users.get s).find? id with
    | none => exact .inl ⟨_, rfl⟩
    | some row =>
      simp only [Tx.run_bind, lastAdmin_run_eq]
      by_cases hlast : (row.enabledAdmin && true && decide (countAdmins s ≤ 1)) = true
      · rw [if_pos hlast]
        exact .inl ⟨_, rfl⟩
      · rw [if_neg hlast]
        unfold deleteUserRow
        simp only [Tx.bind_eq, Tx.run_bind, users.run_selectForUpdate, hrow, Tx.run_put,
          deleteSessions_keep]
        exact .inr ⟨id, row, rfl, hrow, rfl⟩

theorem createUser_exact (now : Timestamp) (id : UUID) (input : CreateUserRequest)
    (passwordHash : String) :
    (∃ error, (createUser server now id input passwordHash).exec s = (.error error, s)) ∨
      ∃ row, row = newUser id (server.lower input.username) input.displayName passwordHash
          input.role now ∧ Free server s row ∧
        (createUser server now id input passwordHash).exec s =
          (.ok row.toUser, { s with users := s.users.put row }) := by
  unfold Tx.exec createUser
  simp only [Tx.bind_eq, Tx.run_bind]
  rcases insertUser_run server (newUser id (server.lower input.username) input.displayName
    passwordHash input.role now) s with ⟨⟨error, hrun⟩, -⟩ | ⟨hrun, hfree⟩
  · simp only [hrun]
    exact .inl ⟨_, rfl⟩
  · simp only [hrun]
    exact .inr ⟨_, rfl, hfree, rfl⟩

theorem deleteAuthSession_exact (tokenHash : String) (hstorable : storable tokenHash = true) :
    (deleteAuthSession tokenHash).exec s = (.ok (), { s with
      sessions := s.sessions.keepWhere fun sess => !decide (sess.tokenHash = tokenHash) }) := by
  unfold Tx.exec deleteAuthSession
  rw [if_neg (by rw [hstorable]; decide)]
  simp only [Tx.bind_eq, Tx.run_bind, deleteSessions_keep]
  rfl

theorem createAuthSession_exact (now : Timestamp) (tokenHash userID : String)
    (expiresAt : Timestamp) :
    (∃ error,
      (createAuthSession server now tokenHash userID expiresAt).exec s = (.error error, s)) ∨
      ∃ id row, server.uuid userID = some id ∧ s.users.find? id = some row ∧
        (s.sessions.keepWhere fun sess => !decide (sess.expiresAt ≤ now)).find? tokenHash = none ∧
        (createAuthSession server now tokenHash userID expiresAt).exec s = (.ok (),
          ⟨s.users.updateWhere (fun row => decide (row.id = id)) (UserCredential.login now)
            (UserCredential.key_login now),
            (s.sessions.keepWhere fun sess => !decide (sess.expiresAt ≤ now)).put
              ⟨tokenHash, id, expiresAt, now, now⟩⟩) := by
  unfold Tx.exec createAuthSession
  simp only [Tx.bind_eq, Tx.run_bind, deleteSessions_keep]
  cases huuid : server.uuid userID with
  | none => exact .inl ⟨_, rfl⟩
  | some id =>
    simp only [Tx.run_bind]
    unfold insertSession
    by_cases hstorable : storable tokenHash = false
    · simp only [if_pos hstorable]
      exact .inl ⟨_, rfl⟩
    · simp only [if_neg hstorable, Tx.bind_eq, Tx.run_bind, Tx.run_acquire, Tx.run_read]
      cases htoken : (s.sessions.keepWhere fun sess => !decide (sess.expiresAt ≤ now)).find?
          tokenHash with
      | some sess => exact .inl ⟨_, rfl⟩
      | none =>
        simp only [Tx.run_bind, Tx.run_read]
        cases hrow : s.users.find? id with
        | none => exact .inl ⟨_, rfl⟩
        | some row =>
          refine .inr ⟨id, row, rfl, hrow, trivial, ?_⟩
          simp only [Tx.run_bind, Tx.run_put, Tx.pure_eq, Tx.run_done,
            users.run_updateWhere (UserCredential.key_login now)]
          rfl

end Calls

end Cfscan.Users
