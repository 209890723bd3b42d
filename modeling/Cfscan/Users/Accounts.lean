import Cfscan.Store.Trim
import Cfscan.Users.Admins
import Cfscan.Users.OwnAccess

/-!
# What later calls leave of an account

No two users have one name, in whatever case, and what a user logs in with changes only when its
password is reset or it is deleted. `runCalls_kept` says so for any sequence of calls.

The calls come one after the other here, each run by itself. What two of them do to one another when
they overlap is in `Users.Admins`; for what a user logs in with it makes no difference, since one
call alone writes it.
-/

set_option autoImplicit false

namespace Cfscan.Users

open Cfscan.Lib Cfscan.Store

/-- The unique index on `LOWER(username)`. -/
def UniqueNames (server : Server) (s : UserStore) : Prop :=
  ∀ row ∈ s.users.rows, ∀ other ∈ s.users.rows,
    server.lower row.username = server.lower other.username → row.id = other.id

/-- The call resets the password of the user, or deletes it. -/
def UserCall.Resets (server : Server) (id : UUID) : UserCall → Prop
  | .resetUserPassword _ userID _ | .deleteUser userID => server.uuid userID = some id
  | _ => False

/-- The calls one after the other. -/
def runCalls (server : Server) (s : UserStore) (calls : List UserCall) : UserStore :=
  calls.foldl (fun s call => ((call.program server).exec s).2) s

/-- What a call keeps of what users log in with. `resets` are the users it is meant for. -/
structure Kept (server : Server) (resets : UUID → Prop) (s s' : UserStore) : Prop where
  unique : UniqueNames server s → UniqueNames server s'
  credential : ∀ id row, ¬ resets id → s.users.find? id = some row →
    ∃ row', s'.users.find? id = some row' ∧ row'.username = row.username ∧
      row'.passwordHash = row.passwordHash

section Kept

variable {server : Server} {s s' : UserStore} {resets : UUID → Prop}

theorem kept_of_users (h : s'.users = s.users) : Kept server resets s s' where
  unique := by
    intro hunique
    unfold UniqueNames
    rw [h]
    exact hunique
  credential := fun id row _ hrow => ⟨row, by rw [h, hrow], rfl, rfl⟩

theorem kept_of_update {p : UserCredential → Bool} {f : UserCredential → UserCredential}
    (hf : ∀ row, (f row).key = row.key) (h : s'.users = s.users.updateWhere p f hf)
    (hname : ∀ row, (f row).username = row.username)
    (hhash : ∀ row, p row = true → ¬ resets row.id → (f row).passwordHash = row.passwordHash) :
    Kept server resets s s' where
  unique := by
    -- no statement writes the id or the name of a user
    have hsame : ∀ row : UserCredential, (if p row then f row else row).username = row.username ∧
        (if p row then f row else row).id = row.id := by
      intro row
      split
      · exact ⟨hname row, hf row⟩
      · exact ⟨rfl, rfl⟩
    intro hunique row hrow other hother hlower
    rw [h] at hrow hother
    obtain ⟨row₀, hrow₀, rfl⟩ := Table.mem_updateWhere.mp hrow
    obtain ⟨other₀, hother₀, rfl⟩ := Table.mem_updateWhere.mp hother
    rw [(hsame row₀).1, (hsame other₀).1] at hlower
    rw [(hsame row₀).2, (hsame other₀).2]
    exact hunique row₀ hrow₀ other₀ hother₀ hlower
  credential := by
    intro id row hresets hrow
    have hid : row.id = id := (Table.key_of_find? hrow : row.key = id)
    refine ⟨if p row then f row else row, ?_, ?_⟩
    · rw [h, Table.find?_updateWhere, hrow]
      rfl
    · split
      · exact ⟨hname row, hhash row ‹_› (hid ▸ hresets)⟩
      · exact ⟨rfl, rfl⟩

theorem kept_of_put {new : UserCredential} (h : s'.users = s.users.put new)
    (hid : s.users.find? new.id = none)
    (hname : ∀ row ∈ s.users.rows, server.lower row.username ≠ server.lower new.username) :
    Kept server resets s s' where
  unique := by
    intro hunique row hrow other hother hlower
    rw [h] at hrow hother
    rcases Table.mem_put.mp hrow with hnew | ⟨hold, -⟩
    · rcases Table.mem_put.mp hother with hnew' | ⟨hold', -⟩
      · rw [hnew, hnew']
      · exact absurd (hnew ▸ hlower.symm) (hname other hold')
    · rcases Table.mem_put.mp hother with hnew' | ⟨hold', -⟩
      · exact absurd (hnew' ▸ hlower) (hname row hold)
      · exact hunique row hold other hold' hlower
  credential := by
    intro id row _ hrow
    refine ⟨row, ?_, rfl, rfl⟩
    have hne : ¬ new.key = id := by
      rintro rfl
      rw [show s.users.find? new.key = none from hid] at hrow
      cases hrow
    rw [h, Table.find?_put, if_neg hne, hrow]

theorem kept_of_erase {target : UUID} (h : s'.users = s.users.erase target)
    (htarget : resets target) : Kept server resets s s' where
  unique := by
    intro hunique row hrow other hother
    rw [h] at hrow hother
    exact hunique row (Table.mem_erase.mp hrow).1 other (Table.mem_erase.mp hother).1
  credential := by
    intro id row hresets hrow
    have hne : ¬ target = id := fun heq => hresets (heq ▸ htarget)
    exact ⟨row, by rw [h, Table.find?_erase, if_neg hne, hrow], rfl, rfl⟩

end Kept

/-! ## The calls

Two kinds of lemma about the calls of the store: what any run of one leaves (`_cases`,
`_inserts`, `_users`), for the invariant, and when a run succeeds (`_ok`), for the later
login. The second kind asks for a row that its columns take and an id and a name still free. -/

section Calls

variable {server : Server} {s : UserStore}

theorem exec_map {α β : Type} (x : Program (Ending α)) (f : α → β) (s : UserStore) :
    (x >>= fun e => pure (e.map f) : Program (Ending β)).exec s =
      (f (x.exec s).1, (x.exec s).2) := by
  unfold Tx.exec
  simp only [Tx.bind_eq, Tx.run_bind, Tx.pure_eq, Tx.run_done]
  rcases hrun : x.run s with ⟨e, s'⟩
  cases e <;> rfl

/-- No other user has the id or the name. -/
def Free (server : Server) (s : UserStore) (row : UserCredential) : Prop :=
  s.users.find? row.id = none ∧
    ∀ other ∈ s.users.rows, server.lower other.username ≠ server.lower row.username

theorem insertUser_run (server : Server) (row : UserCredential) (s : UserStore) :
    ((∃ error, (insertUser server row).run s = (some error, s)) ∧
      ¬ (row.refused = none ∧ Free server s row)) ∨
    ((insertUser server row).run s = (none, { s with users := s.users.put row }) ∧
      Free server s row) := by
  unfold insertUser
  cases hrefused : row.refused with
  | some error => exact .inl ⟨⟨error, rfl⟩, fun h => by cases h.1⟩
  | none =>
    by_cases htaken : (s.users.rows.any fun other => decide (other.id = row.id) ||
        decide (server.lower other.username = server.lower row.username)) = true
    · simp only [Tx.bind_eq, Tx.run_bind, Tx.run_acquire, Tx.run_read, htaken, if_true]
      refine .inl ⟨⟨_, rfl⟩, fun h => ?_⟩
      obtain ⟨other, hother, hsame⟩ := List.any_eq_true.mp htaken
      rw [Bool.or_eq_true, decide_eq_true_eq, decide_eq_true_eq] at hsame
      rcases hsame with hid | hname
      · exact Table.find?_eq_none.mp h.2.1 other hother hid
      · exact h.2.2 other hother hname
    · simp only [Tx.bind_eq, Tx.run_bind, Tx.run_acquire, Tx.run_read, htaken, if_false,
        Bool.false_eq_true]
      refine .inr ⟨rfl, Table.find?_eq_none.mpr fun other hother hid => htaken ?_,
        fun other hother hname => htaken ?_⟩
      · exact List.any_eq_true.mpr ⟨other, hother, by
          rw [Bool.or_eq_true]; exact .inl (decide_eq_true hid)⟩
      · exact List.any_eq_true.mpr ⟨other, hother, by
          rw [Bool.or_eq_true]; exact .inr (decide_eq_true hname)⟩

theorem resetUserPassword_users (server : Server) (now : Timestamp) (userID passwordHash : String)
    (s : UserStore) :
    ((resetUserPassword server now userID passwordHash).exec s).2 = s ∨
    ∃ id t, server.uuid userID = some id ∧
      ((resetUserPassword server now userID passwordHash).exec s).2 =
        ⟨s.users.updateWhere (fun row => decide (row.id = id)) (UserCredential.reset now passwordHash)
          (UserCredential.key_reset now passwordHash), t⟩ := by
  refine Tx.exec_cases (P := fun e => e.2 = s ∨ ∃ id t, server.uuid userID = some id ∧ e.2 =
    ⟨s.users.updateWhere (fun row => decide (row.id = id)) (UserCredential.reset now passwordHash)
      (UserCredential.key_reset now passwordHash), t⟩) (fun _ => .inl rfl) fun result s' hrun => ?_
  unfold resetUserPassword at hrun
  split at hrun
  · cases hrun
  rename_i id huuid
  split at hrun
  · cases hrun
  simp only [Tx.bind_eq, Tx.run_bind,
    users.run_updateWhere (UserCredential.key_reset now passwordHash)] at hrun
  split at hrun
  · cases hrun
  · obtain ⟨t, hdelete, -⟩ := deleteSessions_run (fun sess => decide (sess.userID = id))
      (users.set s ((users.get s).updateWhere (fun row => decide (row.id = id))
        (UserCredential.reset now passwordHash) (UserCredential.key_reset now passwordHash)))
    rw [Tx.run_bind, hdelete] at hrun
    cases hrun
    exact .inr ⟨id, t, huuid, rfl⟩

/-- A session is inserted for a user there is, under a token that is not in use. -/
theorem insertSession_ok (s : UserStore) (row : AuthSession)
    (hstorable : storable row.tokenHash = true)
    (hfresh : s.sessions.find? row.tokenHash = none)
    (huser : ∃ user, s.users.find? row.userID = some user) :
    (insertSession row).run s = (none, { s with sessions := s.sessions.put row }) := by
  obtain ⟨user, huser⟩ := huser
  unfold insertSession
  rw [if_neg (by rw [hstorable]; decide)]
  simp only [Tx.bind_eq, Tx.run_bind, Tx.run_acquire, Tx.run_read, hfresh, huser]
  rfl

/-- A session is opened for a user there is, under a token that is not in use. -/
theorem createAuthSession_cases (server : Server) (now : Timestamp) (tokenHash userID : String)
    (expiresAt : Timestamp) (s : UserStore) :
    (((createAuthSession server now tokenHash userID expiresAt).exec s).2 = s ∧
      ¬ (storable tokenHash = true ∧ s.sessions.find? tokenHash = none ∧
        ∃ id row, server.uuid userID = some id ∧ s.users.find? id = some row)) ∨
    ∃ id t, (createAuthSession server now tokenHash userID expiresAt).exec s = (.ok (),
        ⟨s.users.updateWhere (fun row => decide (row.id = id)) (UserCredential.login now)
          (UserCredential.key_login now), t⟩) := by
  obtain ⟨t, hdelete, ht⟩ := deleteSessions_run (fun sess => decide (sess.expiresAt ≤ now)) s
  unfold Tx.exec createAuthSession
  simp only [Tx.bind_eq, Tx.run_bind, hdelete]
  cases huuid : server.uuid userID with
  | none =>
    refine .inl ⟨rfl, ?_⟩
    rintro ⟨-, -, id, row, hid, -⟩
    cases hid
  | some id =>
    rcases insertSession_run ⟨tokenHash, id, expiresAt, now, now⟩ ⟨s.users, t⟩ with
      ⟨error, hrefused⟩ | hput
    · simp only [Tx.run_bind, hrefused]
      refine .inl ⟨rfl, ?_⟩
      rintro ⟨hstorable, hfresh, id', row, hid, hrow⟩
      cases hid
      -- the sessions deleted first do not make the token a used one
      have hstill : t.find? tokenHash = none := Table.find?_eq_none.mpr fun sess hsess =>
        Table.find?_eq_none.mp hfresh sess (ht sess hsess).1
      have hinsert := insertSession_ok ⟨s.users, t⟩ ⟨tokenHash, id, expiresAt, now, now⟩ hstorable
        hstill ⟨row, hrow⟩
      rw [hrefused] at hinsert
      cases hinsert
    · simp only [Tx.run_bind, hput, users.run_updateWhere (UserCredential.key_login now)]
      exact .inr ⟨id, _, rfl⟩

/-- What an insertion leaves: nothing new, or a user whose id and name were free. -/
def Inserts (server : Server) (row : UserCredential) (s s' : UserStore) : Prop :=
  s' = s ∨ s' = { s with users := s.users.put row } ∧ Free server s row

theorem Inserts.kept {row : UserCredential} {resets : UUID → Prop} {s' : UserStore}
    (h : Inserts server row s s') : Kept server resets s s' := by
  rcases h with rfl | ⟨rfl, hid, hname⟩
  · exact kept_of_users rfl
  · exact kept_of_put rfl hid hname

theorem createUser_inserts (server : Server) (s : UserStore) (now : Timestamp) (id : UUID)
    (input : CreateUserRequest) (passwordHash : String) :
    Inserts server (newUser id (server.lower input.username) input.displayName passwordHash input.role
      now) s ((createUser server now id input passwordHash).exec s).2 := by
  unfold Tx.exec createUser
  simp only [Tx.bind_eq, Tx.run_bind]
  rcases insertUser_run server (newUser id (server.lower input.username) input.displayName
    passwordHash input.role now) s with ⟨⟨error, hrun⟩, -⟩ | ⟨hrun, hfree⟩
  · simp only [hrun]
    exact .inl rfl
  · simp only [hrun]
    exact .inr ⟨rfl, hfree⟩

theorem ensureBootstrapAdmin_inserts (server : Server) (s : UserStore) (now : Timestamp) (id : UUID)
    (username displayName passwordHash : String) :
    Inserts server (newUser id (server.toLower username) displayName passwordHash roleAdmin now) s
      ((ensureBootstrapAdmin server now id username displayName passwordHash).exec s).2 := by
  unfold Tx.exec ensureBootstrapAdmin
  by_cases hcount : s.users.rows.length = 0
  · simp only [Tx.bind_eq, Tx.run_bind, Tx.run_acquire, Tx.run_read, hcount, if_true]
    rcases insertUser_run server (newUser id (server.toLower username) displayName passwordHash
      roleAdmin now) s with ⟨⟨error, hrun⟩, -⟩ | ⟨hrun, hfree⟩
    · simp only [hrun]
      exact .inl rfl
    · simp only [hrun]
      exact .inr ⟨rfl, hfree⟩
  · simp only [Tx.bind_eq, Tx.run_bind, Tx.run_acquire, Tx.run_read, hcount, if_false]
    exact .inl rfl

theorem insertUser_ok {row : UserCredential} (hrefused : row.refused = none)
    (hfree : Free server s row) :
    (insertUser server row).run s = (none, { s with users := s.users.put row }) := by
  rcases insertUser_run server row s with ⟨-, hnot⟩ | ⟨hrun, -⟩
  · exact absurd ⟨hrefused, hfree⟩ hnot
  · exact hrun

theorem createUser_ok {now : Timestamp} {id : UUID} {input : CreateUserRequest}
    {passwordHash : String} (row : UserCredential)
    (hrow : row = newUser id (server.lower input.username) input.displayName passwordHash input.role
      now) (hrefused : row.refused = none) (hfree : Free server s row) :
    (createUser server now id input passwordHash).exec s =
      (.ok row.toUser, { s with users := s.users.put row }) := by
  subst hrow
  unfold Tx.exec createUser
  simp only [Tx.bind_eq, Tx.run_bind, insertUser_ok hrefused hfree]
  rfl

theorem ensureBootstrapAdmin_ok {now : Timestamp} {id : UUID}
    {username displayName passwordHash : String} (row : UserCredential)
    (hrow : row = newUser id (server.toLower username) displayName passwordHash roleAdmin now)
    (hrefused : row.refused = none) (hnobody : s.users.rows = []) :
    (ensureBootstrapAdmin server now id username displayName passwordHash).exec s =
      (.ok (), { s with users := s.users.put row }) := by
  subst hrow
  have hfree : Free server s (newUser id (server.toLower username) displayName passwordHash
      roleAdmin now) := by
    refine ⟨Table.find?_eq_none.mpr fun other hother => ?_, fun other hother => ?_⟩ <;>
    · rw [hnobody] at hother
      cases hother
  unfold Tx.exec ensureBootstrapAdmin
  simp only [Tx.bind_eq, Tx.run_bind, Tx.run_acquire, Tx.run_read, hnobody, List.length_nil, if_true,
    insertUser_ok hrefused hfree]
  rfl

theorem resetUserPassword_ok (server : Server) (now : Timestamp) {userID passwordHash : String}
    {id : UUID} {row : UserCredential} (huuid : server.uuid userID = some id)
    (hrow : s.users.find? id = some row) (hhash : storable passwordHash = true) :
    ∃ t, (resetUserPassword server now userID passwordHash).exec s = (.ok (),
      ⟨s.users.updateWhere (fun row => decide (row.id = id)) (UserCredential.reset now passwordHash)
        (UserCredential.key_reset now passwordHash), t⟩) := by
  obtain ⟨t, hdelete, -⟩ := deleteSessions_run (fun sess => decide (sess.userID = id))
    (users.set s ((users.get s).updateWhere (fun row => decide (row.id = id))
      (UserCredential.reset now passwordHash) (UserCredential.key_reset now passwordHash)))
  have hmem : row ∈ (users.get s).rows.filter fun row => decide (row.id = id) :=
    List.mem_filter.mpr ⟨Table.mem_of_find? hrow,
      decide_eq_true (Table.key_of_find? hrow : row.key = id)⟩
  obtain ⟨first, rest, hrows⟩ := List.exists_cons_of_ne_nil (List.ne_nil_of_mem
    (List.mem_map_of_mem (f := UserCredential.reset now passwordHash) hmem))
  unfold Tx.exec resetUserPassword
  simp only [huuid, hhash, Bool.true_eq_false, if_false, Tx.bind_eq, Tx.run_bind,
    users.run_updateWhere (UserCredential.key_reset now passwordHash), hrows, hdelete]
  exact ⟨t, rfl⟩

theorem call_kept (server : Server) (s : UserStore) (call : UserCall) :
    Kept server (fun id => call.Resets server id) s ((call.program server).exec s).2 := by
  cases call with
  | ensureBootstrapAdmin now id username displayName passwordHash =>
    unfold UserCall.program
    rw [exec_map]
    exact (ensureBootstrapAdmin_inserts server s now id username displayName passwordHash).kept
  | createUser now id input passwordHash =>
    unfold UserCall.program
    rw [exec_map]
    exact (createUser_inserts server s now id input passwordHash).kept
  | updateUser now userID input =>
    unfold UserCall.program
    rw [exec_map]
    rcases target_cases server s userID with ⟨id, current, huuid, hrow⟩ | hnobody
    · have husers := updateUser_users now input huuid hrow
      split at husers
      · exact kept_of_users husers
      · exact kept_of_update (UserCredential.key_update now input) husers (fun _ => rfl)
          fun _ _ _ => rfl
    · rw [updateUser_nobody hnobody]
      exact kept_of_users rfl
  | resetUserPassword now userID passwordHash =>
    unfold UserCall.program
    rw [exec_map]
    rcases resetUserPassword_users server now userID passwordHash s with hsame | ⟨id, t, huuid, heq⟩
    · exact kept_of_users (congrArg UserStore.users hsame)
    · refine kept_of_update (UserCredential.key_reset now passwordHash)
        (congrArg UserStore.users heq) (fun _ => rfl) fun row hrow hresets => ?_
      have hid : row.id = id := of_decide_eq_true hrow
      -- the row written is that of the user the call is about
      exact absurd (show server.uuid userID = some row.id from huuid.trans (congrArg some hid.symm))
        hresets
  | deleteUser userID =>
    unfold UserCall.program
    rw [exec_map]
    rcases target_cases server s userID with ⟨id, current, huuid, hrow⟩ | hnobody
    · have husers := deleteUser_users huuid hrow
      split at husers
      · exact kept_of_users husers
      · exact kept_of_erase husers huuid
    · rw [deleteUser_nobody hnobody]
      exact kept_of_users rfl
  | createAuthSession now tokenHash userID expiresAt =>
    unfold UserCall.program
    rw [exec_map]
    rcases createAuthSession_cases server now tokenHash userID expiresAt s with
      ⟨hsame, -⟩ | ⟨id, t, heq⟩
    · exact kept_of_users (congrArg UserStore.users hsame)
    · exact kept_of_update (UserCredential.key_login now)
        (congrArg (fun r => r.2.users) heq) (fun _ => rfl) fun _ _ _ => rfl

theorem runCalls_kept {id : UUID} {row : UserCredential} {calls : List UserCall}
    (hcalls : ∀ call ∈ calls, ¬ call.Resets server id) (hunique : UniqueNames server s)
    (hrow : s.users.find? id = some row) :
    UniqueNames server (runCalls server s calls) ∧
      ∃ row', (runCalls server s calls).users.find? id = some row' ∧ row'.username = row.username ∧
        row'.passwordHash = row.passwordHash := by
  unfold runCalls
  induction calls generalizing s row with
  | nil => exact ⟨hunique, row, hrow, rfl, rfl⟩
  | cons call calls ih =>
    rw [List.forall_mem_cons] at hcalls
    have hkept := call_kept server s call
    obtain ⟨row₁, hrow₁, hname, hhash⟩ := hkept.credential id row hcalls.1 hrow
    obtain ⟨hunique', row₂, hrow₂, hname₂, hhash₂⟩ := ih hcalls.2 (hkept.unique hunique) hrow₁
    exact ⟨hunique', row₂, hrow₂, hname₂.trans hname, hhash₂.trans hhash⟩

end Calls

end Cfscan.Users
