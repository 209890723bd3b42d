import Cfscan.Users.Sessions

/-!
# What a request does to accounts

The first call of a request changes nothing that is told here (`receive_same`), and what it reads is
what its second call goes by. `Effect` lists all that one can do to users and sessions, with what was
read before and the answer it gives; `complete_effect` is the inversion that says there is no other.

Nothing in `Effect` ties what was read to the store of the second call. A user may have another
password by then, another role, or be gone: a login that has compared its password opens a session
all the same, and a request that was let in as an administrator's is carried out. What can be said
about runs in spite of that is in `Users.Live` and `Users.Escalation`.

`last_seen_at` is not told: no request reads it but to write it.
-/

set_option autoImplicit false

namespace Cfscan.Users

open Cfscan.Lib Cfscan.Store

/-! ## Sessions

A session as far as requests can tell: its user and when it expires, by the hash of the
token. `last_seen_at` changes with every request and is left out here, so that a request
that only looks at its session changes nothing. -/

/-- The user of a session, and when it expires. -/
def UserStore.session (s : UserStore) (tokenHash : String) : Option (UUID × Timestamp) :=
  (s.sessions.find? tokenHash).map fun sess => (sess.userID, sess.expiresAt)

@[simp] theorem users_touch (s : UserStore) (now : Timestamp) (tokenHash : String) :
    (s.touch now tokenHash).users = s.users := rfl

@[simp] theorem session_touch (s : UserStore) (now : Timestamp) (tokenHash : String) :
    (s.touch now tokenHash).session = s.session := by
  funext h
  unfold UserStore.session UserStore.touch
  rw [Table.find?_updateWhere]
  cases s.sessions.find? h with
  | none => rfl
  | some sess =>
    rw [Option.map_some, Option.map_some, Option.map_some]
    split <;> rfl

theorem session_keepWhere {s : UserStore} {t : Table UUID UserCredential UserCredential.key}
    {p : AuthSession → Bool} {q : UUID × Timestamp → Bool}
    (hpq : ∀ sess, p sess = q (sess.userID, sess.expiresAt)) (tokenHash : String) :
    (⟨t, s.sessions.keepWhere p⟩ : UserStore).session tokenHash =
      (s.session tokenHash).filter q := by
  unfold UserStore.session
  dsimp only
  rw [Table.find?_keepWhere]
  cases s.sessions.find? tokenHash with
  | none => rfl
  | some sess =>
    rw [Option.map_some]
    cases hq : q (sess.userID, sess.expiresAt) with
    | true =>
      rw [Option.filter_some_pos (hpq sess ▸ hq), Option.filter_some_pos hq, Option.map_some]
    | false =>
      rw [Option.filter_some_neg (hpq sess ▸ hq), Option.filter_some_neg hq, Option.map_none]

/-- Whom a session is accepted for. -/
def Accepted (users : Table UUID UserCredential UserCredential.key)
    (session : String → Option (UUID × Timestamp)) (now : Timestamp) (tokenHash : String)
    (user : User) : Prop :=
  ∃ row expiresAt, session tokenHash = some (row.id, expiresAt) ∧ now < expiresAt ∧
    users.find? row.id = some row ∧ row.enabled = true ∧ user = row.toUser

theorem getUserBySession_iff {s : UserStore} {now : Timestamp} {tokenHash : String} {user : User} :
    getUserBySession s now tokenHash = .ok user ↔
      Accepted s.users s.session now tokenHash user := by
  unfold getUserBySession Accepted UserStore.session
  cases hsess : s.sessions.find? tokenHash with
  | none =>
    refine ⟨nofun, ?_⟩
    rintro ⟨row, expiresAt, hnone, -⟩
    cases hnone
  | some sess =>
    dsimp only
    cases hrow : s.users.find? sess.userID with
    | none =>
      refine ⟨nofun, ?_⟩
      rintro ⟨row, expiresAt, hsession, -, hfound, -⟩
      have hid : sess.userID = row.id := (Prod.mk.inj (Option.some.inj hsession)).1
      rw [← hid, hrow] at hfound
      cases hfound
    | some row =>
      have hid : row.key = sess.userID := Table.key_of_find? hrow
      change row.id = sess.userID at hid
      dsimp only
      constructor
      · intro h
        split at h
        · rename_i hcond
          cases h
          exact ⟨row, sess.expiresAt, by rw [Option.map_some, hid], hcond.1, hid ▸ hrow, hcond.2,
            rfl⟩
        · cases h
      · rintro ⟨row', expiresAt, hsession, hlt, hfound, henabled, rfl⟩
        have hpair := Option.some.inj hsession
        obtain ⟨hid', rfl⟩ := Prod.mk.inj hpair
        rw [← hid', hrow] at hfound
        cases hfound
        rw [if_pos ⟨hlt, henabled⟩]

theorem findUserByUsername_find? {server : Server} {s : UserStore} {name : String}
    {row : UserCredential} (h : findUserByUsername server s name = .ok row) :
    s.users.find? row.id = some row := by
  unfold findUserByUsername at h
  split at h
  · cases h
  · rename_i hfind
    cases h
    exact Table.find?_eq_some.mpr ⟨List.mem_of_find?_eq_some hfind, rfl⟩

/-- A login fails and changes nothing, or it opens a session for the user it has read, whose row may
have changed and is still there. -/
theorem loginAs_exact (acc : Accounts) (s : UserStore) (password : ByteArray)
    (read : Except StoreError UserCredential) (drawn : Option String) (clock now done : Timestamp) :
    (∃ error, loginAs acc s password read drawn clock now done = (.error error, s)) ∨
      ∃ credential token row s', read = .ok credential ∧ drawn = some token ∧
        acc.compare credential.passwordHash password = true ∧ credential.enabled = true ∧
        s.users.find? credential.id = some row ∧
        (s.session (acc.auth.hashToken token)).filter (fun sess => !decide (sess.2 ≤ now)) = none ∧
        s'.users = s.users.updateWhere (fun row => decide (row.id = credential.id))
          (UserCredential.login now) (UserCredential.key_login now) ∧
        (∀ h, s'.session h = if acc.auth.hashToken token = h then
            some (credential.id, clock + acc.auth.sessionTTL)
          else (s.session h).filter fun sess => !decide (sess.2 ≤ now)) ∧
        loginAs acc s password read drawn clock now done =
          (.ok ({ credential.toUser with lastLoginAt := some done }, token,
            clock + acc.auth.sessionTTL), s') := by
  unfold loginAs
  cases read with
  | error cause => exact .inl ⟨_, rfl⟩
  | ok credential =>
    unfold Accounts.check
    dsimp only
    -- the check, the draw of a token and the insertion can each end the login
    by_cases hcond : acc.compare credential.passwordHash password = false ∨
        credential.enabled = false
    · rw [if_pos hcond]
      exact .inl ⟨_, rfl⟩
    · rw [if_neg hcond]
      rw [not_or, Bool.not_eq_false, Bool.not_eq_false] at hcond
      cases drawn with
      | none => exact .inl ⟨_, rfl⟩
      | some token =>
        dsimp only
        unfold AuthService.open
        dsimp only
        rcases createAuthSession_exact acc.auth.toServer s now
          (acc.auth.hashToken token) (acc.auth.uuidText credential.id)
          (clock + acc.auth.sessionTTL) with ⟨error, hexec⟩ | ⟨id, row, huuid, hrow, hfresh, hexec⟩
        · rw [hexec]
          exact .inl ⟨_, rfl⟩
        · -- the session is inserted for the id the credential was read with
          rw [acc.auth.uuid_uuidText] at huuid
          cases huuid
          rw [hexec]
          -- the sessions that are over are deleted before the new one is put
          have hkeep : ∀ h, (⟨s.users, s.sessions.keepWhere fun sess =>
              !decide (sess.expiresAt ≤ now)⟩ : UserStore).session h =
                (s.session h).filter fun sess => !decide (sess.2 ≤ now) :=
            session_keepWhere (q := fun sess => !decide (sess.2 ≤ now)) fun _ => rfl
          have hfree : (s.session (acc.auth.hashToken token)).filter
              (fun sess => !decide (sess.2 ≤ now)) = none := by
            rw [← hkeep]
            unfold UserStore.session
            rw [hfresh]
            rfl
          refine .inr ⟨credential, token, row, _, rfl, rfl, hcond.1, hcond.2, hrow, hfree, rfl,
            fun h => ?_, rfl⟩
          rw [← hkeep]
          unfold UserStore.session
          dsimp only
          rw [Table.find?_put]
          by_cases htoken : acc.auth.hashToken token = h
          · rw [if_pos htoken, if_pos htoken]
            rfl
          · rw [if_neg htoken, if_neg htoken]

/-- A login ends no session that has not expired. -/
theorem login_keeps {session session' : String → Option (UUID × Timestamp)}
    {opened tokenHash : String} {new : UUID × Timestamp} {now : Timestamp} {userID : UUID}
    {expiresAt : Timestamp}
    (hfresh : (session opened).filter (fun sess => !decide (sess.2 ≤ now)) = none)
    (hsession : ∀ h, session' h = if opened = h then some new
      else (session h).filter fun sess => !decide (sess.2 ≤ now))
    (hs : session tokenHash = some (userID, expiresAt)) (hlt : now < expiresAt) :
    session' tokenHash = some (userID, expiresAt) := by
  have hunexpired : (session tokenHash).filter (fun sess => !decide (sess.2 ≤ now)) =
      some (userID, expiresAt) := by
    rw [hs, Option.filter_some_pos (by simpa using hlt)]
  rw [hsession, if_neg, hunexpired]
  -- the token drawn is not that of such a session
  rintro rfl
  rw [hfresh] at hunexpired
  cases hunexpired

namespace Api

/-- What an answer tells of sessions. -/
inductive Entry where
  | opened (tokenHash : String) (userID : UUID) (expiresAt : Timestamp)
  | closed (tokenHash : String)
  /-- The sessions of a user. -/
  | revoked (userID : UUID)
deriving DecidableEq

def revokedBy (acc : Accounts) (userID : String) : List Entry :=
  (acc.auth.uuid userID).toList.map .revoked

def entries (acc : Accounts) (pending : Pending) : Answer → List Entry
  | .response (.user _ user) (.set token expiresAt) =>
    [.opened (acc.auth.hashToken token) user.id expiresAt]
  | .response (.user _ user) _ =>
    match pending with
    | .session _ (.updateUser _ (.ok input)) _ => if input.enabled then [] else [.revoked user.id]
    | _ => []
  | .response (.noContent _) _ =>
    match pending with
    -- a request without a cookie logs nobody out
    | .session cookie .logout _ => if cookie = "" then [] else [.closed (acc.auth.hashToken cookie)]
    | .session _ (.resetUserPassword userID _) _ => revokedBy acc userID
    | .session _ (.deleteUser userID) _ => revokedBy acc userID
    | _ => []
  | _ => []

/-- The request was let in as an administrator's. -/
def Pending.ByAdmin (pending : Pending) (request : SessionRequest) : Prop :=
  ∃ cookie actor, pending = .session cookie request actor ∧ actor.role = roleAdmin

/-- All a request can do to users and sessions, with the answer it then gives. -/
inductive Effect (acc : Accounts) (outside : Outside) (pending : Pending)
    (users : Table UUID UserCredential UserCredential.key)
    (session : String → Option (UUID × Timestamp)) : Answer → UserStore → Prop where
  | nothing {response : Response} {cookie : Cookie} {s' : UserStore} (husers : s'.users = users)
      (hsession : s'.session = session)
      (hentries : entries acc pending (.response response cookie) = []) :
      Effect acc outside pending users session (.response response cookie) s'
  | list {items : List User} {s' : UserStore} (hadmin : pending.ByAdmin .listUsers)
      (husers : s'.users = users) (hsession : s'.session = session) :
      Effect acc outside pending users session (.users items) s'
  | login {input : LoginBody} {credential row : UserCredential} {token : String} {s' : UserStore}
      (hpending : pending = .login input (.ok credential)) (htoken : outside.token = some token)
      (hpassword : acc.compare credential.passwordHash input.password = true)
      (henabled : credential.enabled = true) (hrow : users.find? credential.id = some row)
      (hfresh : (session (acc.auth.hashToken token)).filter
        (fun sess => !decide (sess.2 ≤ outside.now)) = none)
      (husers : s'.users = users.updateWhere (fun row => decide (row.id = credential.id))
        (UserCredential.login outside.now) (UserCredential.key_login outside.now))
      (hsession : ∀ h, s'.session h = if acc.auth.hashToken token = h then
          some (credential.id, outside.clock + acc.auth.sessionTTL)
        else (session h).filter fun sess => !decide (sess.2 ≤ outside.now)) :
      Effect acc outside pending users session
        (.response (.user 200 { credential.toUser with lastLoginAt := some outside.done })
          (.set token (outside.clock + acc.auth.sessionTTL))) s'
  | logout {cookie : String} {user : User} {s' : UserStore}
      (hpending : pending = .session cookie .logout user) (hcookie : cookie ≠ "")
      (husers : s'.users = users)
      (hsession : ∀ h, s'.session h = if acc.auth.hashToken cookie = h then none else session h) :
      Effect acc outside pending users session (.response (.noContent true) .cleared) s'
  | create {body : CreateUserBody} {row : UserCredential} {hash : String} {s' : UserStore}
      (hadmin : pending.ByAdmin (.createUser (.ok body)))
      (hhash : acc.generate outside.salt body.password = .ok hash)
      (hid : row.id = outside.id) (hpassword : row.passwordHash = hash) (hrole : row.role = body.role)
      (hfree : users.find? row.id = none) (husers : s'.users = users.put row)
      (hsession : s'.session = session) :
      Effect acc outside pending users session (.response (.user 201 row.toUser) .unchanged) s'
  | update {userID : String} {body input : UpdateUserRequest} {row : UserCredential}
      {s' : UserStore} (hadmin : pending.ByAdmin (.updateUser userID (.ok body)))
      (hinput : input = { body with displayName := trimSpace body.displayName })
      (huuid : acc.auth.uuid userID = some row.id) (hrow : users.find? row.id = some row)
      (husers : s'.users = users.updateWhere (fun other => decide (other.id = row.id))
        (UserCredential.update outside.now input) (UserCredential.key_update outside.now input))
      (hsession : ∀ h, s'.session h = if input.enabled then session h
        else (session h).filter fun sess => !decide (sess.1 = row.id)) :
      Effect acc outside pending users session
        (.response (.user 200 (row.update outside.now input).toUser) .unchanged) s'
  | reset {userID hash : String} {password : ByteArray} {row : UserCredential}
      {response : Response} {cookie : Cookie} {s' : UserStore}
      (hadmin : pending.ByAdmin (.resetUserPassword userID (.ok password)))
      (hentries : entries acc pending (.response response cookie) = [.revoked row.id])
      (hhash : acc.generate outside.salt password = .ok hash)
      (huuid : acc.auth.uuid userID = some row.id) (hrow : users.find? row.id = some row)
      (husers : s'.users = users.updateWhere (fun other => decide (other.id = row.id))
        (UserCredential.reset outside.now hash) (UserCredential.key_reset outside.now hash))
      (hsession : ∀ h, s'.session h = (session h).filter fun sess => !decide (sess.1 = row.id)) :
      Effect acc outside pending users session (.response response cookie) s'
  | delete {userID : String} {row : UserCredential} {response : Response} {cookie : Cookie}
      {s' : UserStore} (hadmin : pending.ByAdmin (.deleteUser userID))
      (hentries : entries acc pending (.response response cookie) = [.revoked row.id])
      (huuid : acc.auth.uuid userID = some row.id) (hrow : users.find? row.id = some row)
      (husers : s'.users = users.erase row.id)
      (hsession : ∀ h, s'.session h = (session h).filter fun sess => !decide (sess.1 = row.id)) :
      Effect acc outside pending users session (.response response cookie) s'

section Serve

variable {acc : Accounts} {order : List User → List User} {s : UserStore} {outside : Outside}
  {pending : Pending} {user : User} {cookie : String}

/-- The first call of a request writes no more than `last_seen_at`. -/
theorem receive_same (acc : Accounts) (s : UserStore) (visit : Visit) :
    (receive acc s visit).2.users = s.users ∧ (receive acc s visit).2.session = s.session := by
  unfold receive authenticate
  cases visit.request with
  | login limited body => exact ⟨rfl, rfl⟩
  | session request =>
    dsimp only
    by_cases hcookie : visit.cookie = ""
    · rw [if_pos hcookie]
      exact ⟨rfl, rfl⟩
    · rw [if_neg hcookie]
      cases getUserBySession s visit.seen (acc.auth.hashToken visit.cookie) with
      | error cause => exact ⟨rfl, rfl⟩
      | ok user => exact ⟨users_touch .., session_touch ..⟩

theorem authenticate_iff {now : Timestamp} (hcookie : cookie ≠ "") :
    (authenticate acc s now cookie).1 = .ok user ↔
      Accepted s.users s.session now (acc.auth.hashToken cookie) user := by
  rw [← getUserBySession_iff]
  unfold authenticate
  rw [if_neg hcookie]
  cases getUserBySession s now (acc.auth.hashToken cookie) with
  | error cause => exact ⟨nofun, nofun⟩
  | ok user' => exact ⟨fun h => by cases h; rfl, fun h => by cases h; rfl⟩

/-- A request under way has read a user: the one its login names, or the one of its session. -/
theorem receive_ok {visit : Visit} (h : (receive acc s visit).1 = .ok pending) :
    (∃ limited input credential, visit.request = .login limited (.ok input) ∧
      pending = .login input credential ∧
        ∀ row, credential = .ok row → s.users.find? row.id = some row) ∨
      ∃ request user, visit.request = .session request ∧ visit.cookie ≠ "" ∧
        pending = .session visit.cookie request user ∧
          Accepted s.users s.session visit.seen (acc.auth.hashToken visit.cookie) user := by
  unfold receive at h
  cases hrequest : visit.request with
  | login limited body =>
    rw [hrequest] at h
    dsimp only [receiveLogin] at h
    split at h
    · cases h
    cases body with
    | error message => cases h
    | ok input =>
      cases h
      refine .inl ⟨limited, input, _, rfl, rfl, fun row hfound => ?_⟩
      exact findUserByUsername_find? hfound
  | session request =>
    rw [hrequest] at h
    dsimp only at h
    split at h
    · cases h
    · rename_i user s' hauth
      cases h
      have hcookie : visit.cookie ≠ "" := by
        intro hempty
        rw [authenticate, if_pos hempty] at hauth
        cases hauth
      exact .inr ⟨request, user, rfl, hcookie, rfl,
        (authenticate_iff hcookie).mp (congrArg Prod.fst hauth)⟩

theorem effect_same {response : Response} {answered : Cookie}
    (h : entries acc pending (.response response answered) = []) :
    Effect acc outside pending s.users s.session (.response response answered) s := .nothing rfl rfl h

theorem login_effect {input : LoginBody} {credential : Except StoreError UserCredential}
    (hpending : pending = .login input credential) :
    Effect acc outside pending s.users s.session (login acc s outside input credential).1
      (login acc s outside input credential).2 := by
  unfold login
  rcases loginAs_exact acc s input.password credential outside.token outside.clock outside.now
    outside.done with ⟨error, hlogin⟩ | ⟨credential, token, row, s', rfl, htoken, hpassword, henabled,
      hrow, hfresh, husers, hsession, hlogin⟩
  · rw [hlogin]
    cases error with
    | invalidCredentials => exact effect_same rfl
    | noToken => exact effect_same rfl
    | store cause => exact effect_same rfl
  · rw [hlogin]
    exact .login hpending htoken hpassword henabled hrow hfresh husers hsession

theorem session_without (s : UserStore) {t : Table UUID UserCredential UserCredential.key}
    (id : UUID) (h : String) :
    (⟨t, s.without id⟩ : UserStore).session h =
      (s.session h).filter fun sess => !decide (sess.1 = id) :=
  session_keepWhere (q := fun sess => !decide (sess.1 = id)) (fun _ => rfl) h

theorem createUser_effect {body : Except String CreateUserBody}
    (hpending : pending = .session cookie (.createUser body) user) (hrole : user.role = roleAdmin) :
    Effect acc outside pending s.users s.session
      (plain (createUser acc s outside.now outside.id outside.salt body).1)
      (createUser acc s outside.now outside.id outside.salt body).2 := by
  unfold createUser
  cases body with
  | error message => exact effect_same rfl
  | ok input =>
    dsimp only
    split
    · exact effect_same rfl
    split
    · exact effect_same rfl
    split
    · exact effect_same rfl
    unfold hashPassword
    cases hhash : acc.generate outside.salt input.password with
    | error cause => exact effect_same rfl
    | ok hash =>
      dsimp only [Except.mapError]
      rcases createUser_exact acc.auth.toServer s outside.now outside.id
        ⟨acc.auth.normalizeUsername input.username,
          if trimSpace input.displayName = "" then acc.auth.normalizeUsername input.username
          else trimSpace input.displayName, input.role⟩ hash with
        ⟨error, hexec⟩ | ⟨row, hrow, hfree, hexec⟩
      · rw [hexec]
        exact effect_same rfl
      · rw [hexec]
        exact .create ⟨cookie, user, hpending, hrole⟩ hhash (by rw [hrow]; rfl) (by rw [hrow]; rfl)
          (by rw [hrow]; rfl) hfree.1 rfl rfl

theorem updateUser_effect {userID : String} {body : Except String UpdateUserRequest}
    (hpending : pending = .session cookie (.updateUser userID body) user)
    (hrole : user.role = roleAdmin) :
    Effect acc outside pending s.users s.session
      (plain (updateUser acc s outside.now user userID body).1)
      (updateUser acc s outside.now user userID body).2 := by
  unfold updateUser
  cases body with
  | error message => exact effect_same rfl
  | ok input =>
    dsimp only
    split
    · exact effect_same rfl
    split
    · exact effect_same rfl
    split
    · exact effect_same rfl
    rcases updateUser_exact acc.auth.toServer s outside.now userID
      { input with displayName := trimSpace input.displayName } with
      ⟨error, hexec⟩ | ⟨id, row, huuid, hrow, hexec⟩
    · rw [hexec]
      exact effect_same rfl
    · rw [hexec]
      obtain rfl : row.key = id := Table.key_of_find? hrow
      refine .update ⟨cookie, user, hpending, hrole⟩ rfl huuid hrow rfl fun h => ?_
      dsimp only
      cases input.enabled with
      | true => rfl
      | false => exact session_without s row.id h

theorem resetUserPassword_effect {userID : String} {body : Except String ByteArray}
    (hpending : pending = .session cookie (.resetUserPassword userID body) user)
    (hrole : user.role = roleAdmin) :
    Effect acc outside pending s.users s.session
      (plain (resetUserPassword acc s outside.now user userID outside.salt body).1)
      (resetUserPassword acc s outside.now user userID outside.salt body).2 := by
  unfold resetUserPassword
  cases body with
  | error message => exact effect_same rfl
  | ok password =>
    dsimp only
    split
    · exact effect_same rfl
    unfold hashPassword
    cases hhash : acc.generate outside.salt password with
    | error cause => exact effect_same rfl
    | ok hash =>
      dsimp only [Except.mapError]
      rcases resetUserPassword_exact acc.auth.toServer s outside.now userID hash with
        ⟨error, hexec⟩ | ⟨id, row, huuid, hrow, hexec⟩
      · rw [hexec]
        exact effect_same rfl
      · rw [hexec]
        obtain rfl : row.key = id := Table.key_of_find? hrow
        have huuid' : revokedBy acc userID = [.revoked row.id] := by
          unfold revokedBy
          rw [huuid]
          rfl
        dsimp only
        cases decide (acc.auth.uuidText user.id = userID) <;>
        · refine .reset ⟨cookie, user, hpending, hrole⟩ ?_ hhash huuid hrow rfl fun h =>
            session_without s row.id h
          subst hpending
          exact huuid'

theorem deleteUser_effect {userID : String}
    (hpending : pending = .session cookie (.deleteUser userID) user)
    (hrole : user.role = roleAdmin) :
    Effect acc outside pending s.users s.session (plain (deleteUser acc s user userID).1)
      (deleteUser acc s user userID).2 := by
  unfold deleteUser
  split
  · exact effect_same rfl
  rcases deleteUser_exact acc.auth.toServer s userID with
    ⟨error, hexec⟩ | ⟨id, row, huuid, hrow, hexec⟩
  · rw [hexec]
    exact effect_same rfl
  · rw [hexec]
    obtain rfl : row.key = id := Table.key_of_find? hrow
    refine .delete ⟨cookie, user, hpending, hrole⟩ ?_ huuid hrow rfl fun h =>
      session_without s row.id h
    subst hpending
    show revokedBy acc userID = _
    unfold revokedBy
    rw [huuid]
    rfl

theorem requireAdmin_effect {next : Answer × UserStore}
    (hnext : user.role = roleAdmin →
      Effect acc outside pending s.users s.session next.1 next.2) :
    Effect acc outside pending s.users s.session (requireAdmin s user next).1
      (requireAdmin s user next).2 := by
  unfold requireAdmin
  by_cases hrole : user.role = roleAdmin
  · rw [if_neg (not_not_intro hrole)]
    exact hnext hrole
  · rw [if_pos hrole]
    exact .nothing rfl rfl rfl

theorem logout_effect (hpending : pending = .session cookie .logout user) :
    Effect acc outside pending s.users s.session (logout acc s cookie).1 (logout acc s cookie).2 := by
  unfold logout Users.logout
  by_cases hcookie : cookie = ""
  · rw [if_pos hcookie]
    subst hpending
    exact effect_same (if_pos hcookie)
  · rw [if_neg hcookie, deleteAuthSession_exact s _ (acc.storable_hashToken cookie)]
    refine .logout hpending hcookie rfl fun h => ?_
    unfold UserStore.session
    dsimp only
    rw [Table.find?_keepWhere]
    cases hsess : s.sessions.find? h with
    | none =>
      rw [Option.filter_none, Option.map_none]
      split <;> rfl
    | some sess =>
      obtain rfl : sess.tokenHash = h := Table.key_of_find? hsess
      by_cases hsame : acc.auth.hashToken cookie = sess.tokenHash
      · rw [if_pos hsame, Option.filter_some_neg (by rw [hsame]; simp), Option.map_none]
      · rw [if_neg hsame, Option.filter_some_pos (by simp [Ne.symm hsame])]

/-- **What a request does**: nothing, or one of the ways of `Effect`. -/
theorem complete_effect (acc : Accounts) (order : List User → List User) (s : UserStore)
    (outside : Outside) (pending : Pending) :
    Effect acc outside pending s.users s.session (complete acc order s outside pending).1
      (complete acc order s outside pending).2 := by
  cases pending with
  | login input credential => exact login_effect rfl
  | session cookie request user =>
    cases request with
    | me => exact effect_same rfl
    | logout => exact logout_effect rfl
    | listUsers =>
      exact requireAdmin_effect fun hrole => .list ⟨cookie, user, rfl, hrole⟩ rfl rfl
    | createUser body => exact requireAdmin_effect (createUser_effect rfl)
    | updateUser userID body => exact requireAdmin_effect (updateUser_effect rfl)
    | resetUserPassword userID body => exact requireAdmin_effect (resetUserPassword_effect rfl)
    | deleteUser userID => exact requireAdmin_effect (deleteUser_effect rfl)

end Serve

end Api

end Cfscan.Users
