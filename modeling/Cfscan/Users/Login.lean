import Cfscan.Users.Store

/-!
# Logins — `internal/auth/service.go`

`Login` as the three steps it takes: it reads the user, it compares the password with the hash it
has read, and it inserts the session. Each is one act of the client that logs in, so that acts of
others can come between them: other logins, and the two calls of an administrator that revoke
sessions, `ResetUserPassword` and `UpdateUser`. A store call is one act here. `ResetUserPassword`,
`UpdateUser` and `CreateAuthSession` all write the user's row and hold its lock to the end, so they
come one after the other for one user.

What `bcrypt` and `sha256` compute is passed in, and so are the clocks and the random token. The
comparison with the dummy hash decides nothing and is left out.

An act that does not apply, a comparison by a client that has not read a user, changes nothing, so
that every list of acts is a run. Clients are told apart by an index of any type; one client that
logs in twice at the same time is two.
-/

set_option autoImplicit false

namespace Cfscan.Users

open Cfscan.Lib Cfscan.Store

structure AuthService extends Server where
  sessionTTL : Timestamp
  /-- `bcrypt.CompareHashAndPassword` succeeds. -/
  compare : String → String → Bool
  hashToken : String → String
  /-- The `::text` of a user's id, which the statements cast back. -/
  uuidText : UUID → String
  uuid_uuidText : ∀ id, uuid (uuidText id) = some id

def AuthService.normalizeUsername (svc : AuthService) (value : String) : String :=
  svc.toLower (trimSpace value)

inductive LoginError where
  /-- `invalid username or password` -/
  | invalidCredentials
  /-- `generate session token` -/
  | noToken
  | store (error : StoreError)
deriving Repr

/-- The user, the token and when it expires. -/
abbrev LoginResult := Except LoginError (User × String × Timestamp)

inductive LoginPhase where
  | idle
  | found (password : String) (credential : Except StoreError UserCredential)
  /-- The password is right, for the hash that was read. -/
  | compared (credential : UserCredential)
  | over (result : LoginResult)

structure AuthWorld (ι : Type) where
  db : UserStore
  logins : ι → LoginPhase

/-- An act with the clock readings and the random values it meets. -/
inductive AuthAct (ι : Type) where
  | find (client : ι) (username password : String)
  | compare (client : ι)
  | insert (client : ι) (token : Option String) (clock now done : Timestamp)
  | reset (now : Timestamp) (userID passwordHash : String)
  | update (now : Timestamp) (userID : String) (input : UpdateUserRequest)

/-- The check between the two calls of the store. -/
def AuthService.check (svc : AuthService) (password : String) :
    Except StoreError UserCredential → LoginPhase
  | .error _ => .over (.error .invalidCredentials)
  | .ok credential =>
    if svc.compare credential.passwordHash password = false ∨ credential.enabled = false then
      .over (.error .invalidCredentials)
    else .compared credential

/-- `CreateAuthSession`, for a login that has come so far. -/
def AuthService.open (svc : AuthService) (db : UserStore) (credential : UserCredential)
    (clock now done : Timestamp) : Option String → LoginResult × UserStore
  | none => (.error .noToken, db)
  | some token =>
    let expiresAt := clock + svc.sessionTTL
    match (createAuthSession svc.toServer now (svc.hashToken token) (svc.uuidText credential.id)
      expiresAt).exec db with
    | (.error error, db') => (.error (.store error), db')
    | (.ok _, db') =>
      (.ok ({ credential.toUser with lastLoginAt := some done }, token, expiresAt), db')

namespace AuthWorld

variable {ι : Type} [DecidableEq ι]

def setLogin (w : AuthWorld ι) (client : ι) (phase : LoginPhase) : AuthWorld ι :=
  { w with logins := Function.update w.logins client phase }

def act (svc : AuthService) (w : AuthWorld ι) : AuthAct ι → AuthWorld ι
  | .find client username password =>
    match w.logins client with
    | .idle => w.setLogin client
        (.found password (findUserByUsername svc.toServer w.db (svc.normalizeUsername username)))
    | _ => w
  | .compare client =>
    match w.logins client with
    | .found password credential => w.setLogin client (svc.check password credential)
    | _ => w
  | .insert client token clock now done =>
    match w.logins client with
    | .compared credential =>
      let opened := svc.open w.db credential clock now done token
      { w with db := opened.2 }.setLogin client (.over opened.1)
    | _ => w
  | .reset now userID passwordHash =>
    { w with db := ((resetUserPassword svc.toServer now userID passwordHash).exec w.db).2 }
  | .update now userID input =>
    { w with db := ((updateUser svc.toServer now userID input).exec w.db).2 }

/-- No session yet, and any users. -/
def start (users : Table UUID UserCredential UserCredential.key) : AuthWorld ι where
  db := ⟨users, .empty⟩
  logins := fun _ => .idle

def play (svc : AuthService) (users : Table UUID UserCredential UserCredential.key)
    (acts : List (AuthAct ι)) : AuthWorld ι :=
  acts.foldl (act svc) (start users)

theorem play_concat (svc : AuthService) (users : Table UUID UserCredential UserCredential.key)
    (acts : List (AuthAct ι)) (a : AuthAct ι) :
    play svc users (acts ++ [a]) = (play svc users acts).act svc a := by
  simp only [play, List.foldl_append, List.foldl_cons, List.foldl_nil]

end AuthWorld

/-! ## What the calls do to sessions and to their users

For each call of the store, what becomes of a session that is still there afterwards: it was
there before, and its user still stands (`Stands`), or it is the one just inserted. Session
rows only appear in `createAuthSession`. -/

section Effect

variable {s : UserStore}

theorem deleteSessions_run (p : AuthSession → Bool) (s : UserStore) :
    ∃ t, (deleteSessions p).run s = ((), { s with sessions := t }) ∧
      ∀ sess ∈ t.rows, sess ∈ s.sessions.rows ∧ p sess = false := by
  have heach : ∀ (tokens : List String) (s : UserStore), ∃ t,
      (deleteEachSession p tokens).run s = ((), { s with sessions := t }) ∧
        ∀ sess ∈ t.rows, sess ∈ s.sessions.rows ∧ (sess.tokenHash ∈ tokens → p sess = false) := by
    intro tokens
    induction tokens with
    | nil => exact fun s => ⟨s.sessions, rfl, fun sess h => ⟨h, fun hmem => by cases hmem⟩⟩
    | cons tokenHash rest ih =>
      intro s
      unfold deleteEachSession
      simp only [Tx.bind_eq, Tx.run_bind, Tx.run_acquire, Tx.run_read]
      cases hrow : s.sessions.find? tokenHash with
      | none =>
        obtain ⟨t, hrun, ht⟩ := ih s
        refine ⟨t, hrun, fun sess h => ⟨(ht sess h).1, fun hmem => ?_⟩⟩
        rcases List.mem_cons.mp hmem with hhead | htail
        · exact absurd hhead (Table.find?_eq_none.mp hrow sess (ht sess h).1)
        · exact (ht sess h).2 htail
      | some row =>
        dsimp only
        split
        · obtain ⟨t, hrun, ht⟩ := ih { s with sessions := s.sessions.erase tokenHash }
          refine ⟨t, hrun, fun sess h => ?_⟩
          obtain ⟨hmem, hne⟩ := Table.mem_erase.mp (ht sess h).1
          exact ⟨hmem, fun hin => (ht sess h).2 ((List.mem_cons.mp hin).resolve_left hne)⟩
        · rename_i hp
          obtain ⟨t, hrun, ht⟩ := ih s
          refine ⟨t, hrun, fun sess h => ⟨(ht sess h).1, fun hmem => ?_⟩⟩
          rcases List.mem_cons.mp hmem with hhead | htail
          · have hsame : sess = row := Table.eq_of_key (ht sess h).1 (Table.mem_of_find? hrow)
              (hhead.trans (Table.key_of_find? hrow).symm)
            simpa [hsame] using hp
          · exact (ht sess h).2 htail
  obtain ⟨t, hrun, ht⟩ := heach ((s.sessions.rows.filter p).map AuthSession.tokenHash) s
  refine ⟨t, hrun, fun sess h => ⟨(ht sess h).1, ?_⟩⟩
  by_contra hp
  have hp : p sess = true := by simpa using hp
  refine Bool.noConfusion (((ht sess h).2 ?_).symm.trans hp)
  exact List.mem_map_of_mem (List.mem_filter.mpr ⟨(ht sess h).1, hp⟩)

/-- The user is who it was: the same password, and enabled. -/
def Stands (s s' : UserStore) (id : UUID) : Prop :=
  ∀ row, s.users.find? id = some row → row.enabled = true →
    ∃ row', s'.users.find? id = some row' ∧ row'.passwordHash = row.passwordHash ∧
      row'.enabled = true

theorem Stands.of_find? {s' : UserStore} {id : UUID}
    (h : s'.users.find? id = s.users.find? id) : Stands s s' id :=
  fun row hrow henabled => ⟨row, h.trans hrow, rfl, henabled⟩

/-- Whoever still has a session stands. -/
def Revokes (s s' : UserStore) : Prop :=
  ∀ sess ∈ s'.sessions.rows, sess ∈ s.sessions.rows ∧ Stands s s' sess.userID

theorem Revokes.refl (s : UserStore) : Revokes s s := fun _ h => ⟨h, .of_find? rfl⟩

/-- An update, by what it does to each user it writes. -/
theorem stands_updateWhere {p : UserCredential → Bool} {f : UserCredential → UserCredential}
    (hf : ∀ row, (f row).key = row.key) {t : Table String AuthSession AuthSession.tokenHash}
    {id : UUID} (hkeeps : ∀ row, row.key = id → p row = true → row.enabled = true →
      (f row).passwordHash = row.passwordHash ∧ (f row).enabled = true) :
    Stands s ⟨s.users.updateWhere p f hf, t⟩ id := by
  intro row hrow henabled
  have hfound : (s.users.updateWhere p f hf).find? id = some (if p row then f row else row) := by
    rw [Table.find?_updateWhere, hrow]
    rfl
  refine ⟨_, hfound, ?_⟩
  by_cases hp : p row = true
  · simpa only [if_pos hp] using hkeeps row (Table.key_of_find? hrow) hp henabled
  · simp only [if_neg hp, henabled, and_self]

/-- The sessions of the users an update writes are deleted with it. -/
theorem revokes_update {f : UserCredential → UserCredential} (hf : ∀ row, (f row).key = row.key)
    {t : Table String AuthSession AuthSession.tokenHash} {id : UUID}
    (ht : ∀ sess ∈ t.rows, sess ∈ s.sessions.rows ∧ decide (sess.userID = id) = false) :
    Revokes s ⟨s.users.updateWhere (fun row => decide (row.id = id)) f hf, t⟩ := by
  intro sess hsess
  obtain ⟨hold, hother⟩ := ht sess hsess
  refine ⟨hold, stands_updateWhere hf fun row hid hp _ => ?_⟩
  exact absurd (hid.symm.trans (of_decide_eq_true hp)) (of_decide_eq_false hother)

theorem resetUserPassword_revokes (server : Server) (now : Timestamp)
    (userID passwordHash : String) (s : UserStore) :
    Revokes s ((resetUserPassword server now userID passwordHash).exec s).2 := by
  refine Tx.exec_cases (P := fun e => Revokes s e.2) (fun _ => .refl s) fun result s' hrun => ?_
  unfold resetUserPassword at hrun
  split at hrun
  · cases hrun
  rename_i id _
  split at hrun
  · cases hrun
  simp only [Tx.bind_eq, Tx.run_bind,
    users.run_updateWhere (UserCredential.key_reset now passwordHash)] at hrun
  split at hrun
  · cases hrun
  · obtain ⟨t, hdelete, ht⟩ := deleteSessions_run (fun sess => decide (sess.userID = id))
      (users.set s ((users.get s).updateWhere (fun row => decide (row.id = id))
        (UserCredential.reset now passwordHash) (UserCredential.key_reset now passwordHash)))
    rw [Tx.run_bind, hdelete] at hrun
    cases hrun
    exact revokes_update (UserCredential.key_reset now passwordHash) ht

theorem lastAdmin_run (current : UserCredential) (leaves : Bool) (s : UserStore) :
    ∃ refused, (lastAdmin current leaves).run s = (refused, s) := by
  unfold lastAdmin
  split
  · exact ⟨_, rfl⟩
  · exact ⟨_, rfl⟩

theorem updateUser_revokes (server : Server) (now : Timestamp) (userID : String)
    (input : UpdateUserRequest) (s : UserStore) :
    Revokes s ((updateUser server now userID input).exec s).2 := by
  refine Tx.exec_cases (P := fun e => Revokes s e.2) (fun _ => .refl s) fun result s' hrun => ?_
  unfold updateUser at hrun
  simp only [Tx.bind_eq, Tx.run_bind, Tx.run_acquire] at hrun
  split at hrun
  · cases hrun
  rename_i id _
  simp only [Tx.run_bind, users.run_selectForUpdate] at hrun
  split at hrun
  · cases hrun
  rename_i current _
  obtain ⟨refused, hcheck⟩ := lastAdmin_run current (decide (input.role ≠ roleAdmin) ||
    !input.enabled) s
  rw [Tx.run_bind, hcheck] at hrun
  split at hrun
  · cases hrun
  unfold updateUserRow at hrun
  split at hrun
  · cases hrun
  simp only [Tx.bind_eq, Tx.run_bind,
    users.run_updateWhere (UserCredential.key_update now input)] at hrun
  split at hrun
  · cases hrun
  split at hrun
  · rename_i henabled
    cases hrun
    exact fun sess hsess => ⟨hsess, stands_updateWhere (UserCredential.key_update now input)
      fun row _ _ _ => ⟨rfl, henabled⟩⟩
  · obtain ⟨t, hdelete, ht⟩ := deleteSessions_run (fun sess => decide (sess.userID = id))
      (users.set s ((users.get s).updateWhere (fun row => decide (row.id = id))
        (UserCredential.update now input) (UserCredential.key_update now input)))
    rw [Tx.run_bind, hdelete] at hrun
    cases hrun
    exact revokes_update (UserCredential.key_update now input) ht

theorem insertSession_run (row : AuthSession) (s : UserStore) :
    (∃ error, (insertSession row).run s = (some error, s)) ∨
      (insertSession row).run s = (none, { s with sessions := s.sessions.put row }) := by
  unfold insertSession
  split
  · exact Or.inl ⟨_, rfl⟩
  simp only [Tx.bind_eq, Tx.run_bind, Tx.run_acquire, Tx.run_read]
  split
  · exact Or.inl ⟨_, rfl⟩
  simp only [Tx.run_bind, Tx.run_read]
  split
  · exact Or.inl ⟨_, rfl⟩
  · exact Or.inr rfl

/-- A new session, if there is one, is for the user named, and everybody stands. -/
theorem createAuthSession_opens (server : Server) (now : Timestamp) (tokenHash userID : String)
    (expiresAt : Timestamp) (s : UserStore) :
    (∀ sess ∈ ((createAuthSession server now tokenHash userID expiresAt).exec s).2.sessions.rows,
      sess ∈ s.sessions.rows ∨ server.uuid userID = some sess.userID ∧ sess.tokenHash = tokenHash ∧
        ((createAuthSession server now tokenHash userID expiresAt).exec s).1 = .ok ()) ∧
      ∀ id, Stands s ((createAuthSession server now tokenHash userID expiresAt).exec s).2 id := by
  refine Tx.exec_cases (P := fun e : Except StoreError Unit × UserStore =>
    (∀ sess ∈ e.2.sessions.rows, sess ∈ s.sessions.rows ∨
      server.uuid userID = some sess.userID ∧ sess.tokenHash = tokenHash ∧ e.1 = .ok ()) ∧
        ∀ id, Stands s e.2 id)
    (fun _ => ⟨fun _ h => Or.inl h, fun _ => .of_find? rfl⟩) fun result s' hrun => ?_
  obtain ⟨t, hdelete, ht⟩ := deleteSessions_run (fun sess => decide (sess.expiresAt ≤ now)) s
  unfold createAuthSession at hrun
  simp only [Tx.bind_eq, Tx.run_bind, hdelete] at hrun
  split at hrun
  · cases hrun
  rename_i id huuid
  rw [Tx.run_bind] at hrun
  rcases insertSession_run ⟨tokenHash, id, expiresAt, now, now⟩ ⟨s.users, t⟩ with
    ⟨error, hinsert⟩ | hinsert
  · rw [hinsert] at hrun
    cases hrun
  · rw [hinsert] at hrun
    simp only [Tx.run_bind, users.run_updateWhere (UserCredential.key_login now)] at hrun
    cases hrun
    refine ⟨fun sess hsess => ?_, fun id => ?_⟩
    · rcases Table.mem_put.mp hsess with rfl | ⟨hold, _⟩
      · exact Or.inr ⟨huuid, rfl, rfl⟩
      · exact Or.inl (ht sess hold).1
    · exact stands_updateWhere (UserCredential.key_login now) fun row _ _ henabled =>
        ⟨rfl, henabled⟩

theorem open_opens (svc : AuthService) (db : UserStore) (credential : UserCredential)
    (clock now done : Timestamp) (token : Option String) :
    (∀ sess ∈ (svc.open db credential clock now done token).2.sessions.rows,
      sess ∈ db.sessions.rows ∨ credential.id = sess.userID ∧
        (∃ text, token = some text ∧ svc.hashToken text = sess.tokenHash) ∧
        ∃ result, (svc.open db credential clock now done token).1 = .ok result) ∧
      ∀ id, Stands db (svc.open db credential clock now done token).2 id := by
  cases token with
  | none => exact ⟨fun _ h => Or.inl h, fun _ => .of_find? rfl⟩
  | some token =>
    obtain ⟨hopens, hstands⟩ := createAuthSession_opens svc.toServer now (svc.hashToken token)
      (svc.uuidText credential.id) (clock + svc.sessionTTL) db
    unfold AuthService.open
    dsimp only
    split
    · rename_i hexec
      rw [hexec] at hopens hstands
      refine ⟨fun sess hsess => Or.inl ?_, hstands⟩
      exact (hopens sess hsess).resolve_right fun hnew => by cases hnew.2.2
    · rename_i hexec
      rw [hexec] at hopens hstands
      refine ⟨fun sess hsess => (hopens sess hsess).imp_right ?_, hstands⟩
      rintro ⟨huuid, htoken, _⟩
      exact ⟨Option.some.inj ((svc.uuid_uuidText credential.id).symm.trans huuid),
        ⟨token, rfl, htoken.symm⟩, _, rfl⟩

end Effect

/-! ## What an act does

The two facts about one act that the history needs: where a login that has compared its
password comes from, and where a session row comes from. -/

namespace AuthWorld

variable {ι : Type} [DecidableEq ι] {svc : AuthService} {w : AuthWorld ι} {a : AuthAct ι}

/-- A login waits to insert its session since its own comparison. -/
theorem act_compared {client : ι} {credential : UserCredential}
    (h : (w.act svc a).logins client = .compared credential) :
    w.logins client = .compared credential ∨ a = .compare client ∧ ∃ password,
      w.logins client = .found password (.ok credential) ∧
        svc.compare credential.passwordHash password = true := by
  -- an act that moves a login to another phase has not moved this one here
  have hother : ∀ (other : ι) (phase : LoginPhase) (w' : AuthWorld ι), w'.logins = w.logins →
      phase ≠ .compared credential → (w'.setLogin other phase).logins client = .compared credential →
      w.logins client = .compared credential := by
    intro other phase w' hsame hphase hlogin
    by_cases heq : client = other
    · subst heq
      exact absurd ((Function.update_self ..).symm.trans hlogin) hphase
    · rw [← hsame]
      exact (Function.update_of_ne heq ..).symm.trans hlogin
  cases a with
  | find other username password =>
    unfold act at h
    dsimp only at h
    split at h
    · exact Or.inl (hother other _ w rfl (fun hphase => by cases hphase) h)
    · exact Or.inl h
  | compare other =>
    unfold act at h
    dsimp only at h
    split at h
    · rename_i password found hfound
      by_cases heq : client = other
      · subst heq
        have hcheck : svc.check password found = .compared credential :=
          (Function.update_self ..).symm.trans h
        unfold AuthService.check at hcheck
        split at hcheck
        · cases hcheck
        split at hcheck
        · cases hcheck
        · rename_i hright
          cases hcheck
          refine Or.inr ⟨rfl, password, hfound, ?_⟩
          simpa using fun hwrong => hright (Or.inl hwrong)
      · exact Or.inl ((Function.update_of_ne heq ..).symm.trans h)
    · exact Or.inl h
  | insert other token clock now done =>
    unfold act at h
    dsimp only at h
    split at h
    · exact Or.inl (hother other _ _ rfl (fun hphase => by cases hphase) h)
    · exact Or.inl h
  | reset now userID passwordHash => exact Or.inl h
  | update now userID input => exact Or.inl h

/-- A session after an act was there before, or the act is the insertion it comes from. Either way
its user stands. -/
theorem act_sessions {sess : AuthSession} (h : sess ∈ (w.act svc a).db.sessions.rows) :
    Stands w.db (w.act svc a).db sess.userID ∧ (sess ∈ w.db.sessions.rows ∨
      ∃ client token clock now done credential, a = .insert client (some token) clock now done ∧
        w.logins client = .compared credential ∧ credential.id = sess.userID ∧
        svc.hashToken token = sess.tokenHash ∧
        ∃ result, (w.act svc a).logins client = .over (.ok result)) := by
  have hsame : ∀ w' : AuthWorld ι, w'.db = w.db → sess ∈ w'.db.sessions.rows →
      Stands w.db w'.db sess.userID ∧ sess ∈ w.db.sessions.rows := by
    intro w' hdb hmem
    rw [hdb] at hmem ⊢
    exact ⟨.of_find? rfl, hmem⟩
  cases a with
  | find client username password =>
    have hdb : (w.act svc (.find client username password)).db = w.db := by
      unfold act
      dsimp only
      split <;> rfl
    exact (hsame _ hdb h).imp_right Or.inl
  | compare client =>
    have hdb : (w.act svc (.compare client)).db = w.db := by
      unfold act
      dsimp only
      split <;> rfl
    exact (hsame _ hdb h).imp_right Or.inl
  | insert client token clock now done =>
    unfold act at h ⊢
    dsimp only at h ⊢
    split at h
    · rename_i credential hphase
      obtain ⟨hopens, hstands⟩ := open_opens svc w.db credential clock now done token
      refine ⟨hstands _, (hopens sess h).imp_right ?_⟩
      rintro ⟨hid, ⟨text, rfl, htoken⟩, result, hresult⟩
      refine ⟨client, text, clock, now, done, credential, rfl, hphase, hid, htoken, result, ?_⟩
      rw [← hresult]
      exact Function.update_self ..
    · exact ⟨.of_find? rfl, Or.inl h⟩
  | reset now userID passwordHash =>
    obtain ⟨hold, hstands⟩ := resetUserPassword_revokes svc.toServer now userID passwordHash w.db _ h
    exact ⟨hstands, Or.inl hold⟩
  | update now userID input =>
    obtain ⟨hold, hstands⟩ := updateUser_revokes svc.toServer now userID input w.db _ h
    exact ⟨hstands, Or.inl hold⟩

end AuthWorld

end Cfscan.Users
