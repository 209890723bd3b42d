import Cfscan.Users.Accounts

/-!
# Accepted passwords — `internal/auth/service.go`, `internal/api/users.go`

A username and a password that pass the checks are given to a new user, to a user there is, or to
the first administrator, and the user logs in with them. `bcrypt` takes no more than 72 bytes, and
the checks let 128 through: `accepted_works_iff`.

To work (`Works`) is to be good for a login at any later time, whatever other calls came in between
that do not reset the password or touch the account. `Users.Accounts` is where that is shown. The
three ways to get a password into the store share one check and one hash, and the 72 bytes are a
limit of the hash.
-/

set_option autoImplicit false

namespace Cfscan.Users

open Cfscan.Lib Cfscan.Store

/-- The texts are the same but for the case of their letters. -/
def SameLetters (acc : Accounts) (text other : String) : Prop :=
  text.toList.map acc.lowerRune = other.toList.map acc.lowerRune

/-- Whatever calls come later, the user logs in until its password is reset or it is deleted, as
long as it is enabled and the token drawn is a new one. -/
def LogsIn (acc : Accounts) (s : UserStore) (id : UUID) (username : String) (password : ByteArray) :
    Prop :=
  ∀ (calls : List UserCall) (row : UserCredential) (spelling token : String)
    (clock now done : Timestamp), (∀ call ∈ calls, ¬ call.Resets acc.auth.toServer id) →
    (runCalls acc.auth.toServer s calls).users.find? id = some row → row.enabled = true →
    SameLetters acc spelling username →
    (runCalls acc.auth.toServer s calls).sessions.find? (acc.auth.hashToken token) = none →
    (login acc (runCalls acc.auth.toServer s calls) spelling password (some token) clock now
      done).1 = .ok ({ row.toUser with lastLoginAt := some done }, token,
        clock + acc.auth.sessionTTL)

/-- The three ways a user gets its password succeed, and the user logs in. -/
structure Works (acc : Accounts) (username : String) (password : ByteArray) : Prop where
  create : ∀ (s : UserStore) (now : Timestamp) (id : UUID) (salt : Nat) (displayName role : String),
    UniqueNames acc.auth.toServer s → s.users.find? id = none →
    (∀ other ∈ s.users.rows,
      acc.auth.lower other.username ≠ acc.auth.lower (acc.auth.normalizeUsername username)) →
    validateRole role = .ok () → storable displayName = true →
    ∃ item s', Api.createUser acc s now id salt (.ok ⟨⟨username, displayName, role⟩, password⟩) =
      (.user 201 item, s') ∧ item.id = id ∧ LogsIn acc s' id username password
  reset : ∀ (s : UserStore) (now : Timestamp) (actor : User) (userID : String) (salt : Nat)
    (row : UserCredential), UniqueNames acc.auth.toServer s →
    acc.auth.uuid userID = some row.id → s.users.find? row.id = some row →
    row.username = acc.auth.normalizeUsername username →
    ∃ clear s', Api.resetUserPassword acc s now actor userID salt (.ok password) =
      (.noContent clear, s') ∧ LogsIn acc s' row.id username password
  bootstrap : ∀ (s : UserStore) (now : Timestamp) (id : UUID) (salt : Nat), s.users.rows = [] →
    ∃ s', bootstrapAdmin acc s now id salt username password = (.ok (), s') ∧
      LogsIn acc s' id username password

section Names

variable {acc : Accounts} {username : String}

theorem normalizeUsername_eq (acc : Accounts) (text : String) :
    acc.auth.normalizeUsername text =
      trimSpace (String.ofList (text.toList.map acc.lowerRune)) := by
  unfold AuthService.normalizeUsername
  rw [acc.toLower_eq, trimSpace_map acc.isSpace_lowerRune]

/-- A login finds the name in whatever case it is typed. -/
theorem normalizeUsername_congr {spelling : String} (h : SameLetters acc spelling username) :
    acc.auth.normalizeUsername spelling = acc.auth.normalizeUsername username := by
  unfold SameLetters at h
  rw [normalizeUsername_eq, normalizeUsername_eq, h]

theorem toLower_toLower (acc : Accounts) (text : String) :
    acc.auth.toLower (acc.auth.toLower text) = acc.auth.toLower text := by
  have hlower : acc.lowerRune ∘ acc.lowerRune = acc.lowerRune := funext acc.lowerRune_lowerRune
  rw [acc.toLower_eq, acc.toLower_eq, String.toList_ofList, List.map_map, hlower]

/-- The handlers normalise a name that the check normalises again. -/
theorem normalizeUsername_normalizeUsername (acc : Accounts) (text : String) :
    acc.auth.normalizeUsername (acc.auth.normalizeUsername text) =
      acc.auth.normalizeUsername text := by
  have htrim : trimSpace (acc.auth.toLower (trimSpace text)) = acc.auth.toLower (trimSpace text) := by
    rw [acc.toLower_eq, trimSpace_map acc.isSpace_lowerRune, trimSpace_trimSpace]
  unfold AuthService.normalizeUsername
  rw [htrim, toLower_toLower]

theorem validateUsername_normalizeUsername (acc : Accounts) (text : String) :
    validateUsername acc (acc.auth.normalizeUsername text) = validateUsername acc text := by
  unfold validateUsername
  rw [normalizeUsername_normalizeUsername]

theorem validateUsername_ok (h : validateUsername acc username = .ok ()) :
    3 ≤ (acc.auth.normalizeUsername username).utf8ByteSize ∧
      (acc.auth.normalizeUsername username).toList.all usernameChar = true := by
  unfold validateUsername at h
  dsimp only at h
  split at h
  · cases h
  · rename_i hsize
    split at h
    · exact ⟨by omega, ‹_›⟩
    · cases h

/-- An accepted name is stored as it is. -/
theorem lower_accepted (h : validateUsername acc username = .ok ()) :
    acc.auth.lower (acc.auth.normalizeUsername username) = acc.auth.normalizeUsername username :=
  acc.lower_username _ (validateUsername_ok h).2

theorem storable_accepted (h : validateUsername acc username = .ok ()) :
    storable (acc.auth.normalizeUsername username) = true := by
  refine List.all_eq_true.mpr fun c hc => decide_eq_true ?_
  rintro rfl
  exact Bool.noConfusion (List.all_eq_true.mp (validateUsername_ok h).2 _ hc)

theorem accepted_ne_empty (h : validateUsername acc username = .ok ()) :
    acc.auth.normalizeUsername username ≠ "" := by
  intro hempty
  have hsize := (validateUsername_ok h).1
  rw [hempty] at hsize
  exact absurd hsize (by decide)

end Names

section Logins

variable {acc : Accounts} {s : UserStore} {username : String} {password : ByteArray}
  {row : UserCredential}

theorem findUserByUsername_ok {server : Server} {name : String} (hunique : UniqueNames server s)
    (hrow : row ∈ s.users.rows) (hname : row.username = name) :
    findUserByUsername server s name = .ok row := by
  subst hname
  unfold findUserByUsername
  cases hfind : s.users.rows.find? fun other =>
      decide (server.lower other.username = server.lower row.username) with
  | none =>
    exact absurd (decide_eq_true rfl) (List.find?_eq_none.mp hfind row hrow)
  | some other =>
    have hother := List.mem_of_find?_eq_some hfind
    have hlower : server.lower other.username = server.lower row.username := by
      simpa using List.find?_some hfind
    rw [Table.eq_of_key hother hrow (hunique other hother row hrow hlower)]

/-- A user is let in by the password of its hash. -/
theorem login_ok {spelling token : String} {clock now done : Timestamp}
    (hunique : UniqueNames acc.auth.toServer s) (hrow : s.users.find? row.id = some row)
    (hname : row.username = acc.auth.normalizeUsername spelling) (henabled : row.enabled = true)
    (hcompare : acc.compare row.passwordHash password = true)
    (hfresh : s.sessions.find? (acc.auth.hashToken token) = none) :
    (login acc s spelling password (some token) clock now done).1 =
      .ok ({ row.toUser with lastLoginAt := some done }, token, clock + acc.auth.sessionTTL) := by
  have hfound := findUserByUsername_ok hunique (Table.mem_of_find? hrow) hname
  have hcheck : acc.check password (.ok row) = .compared row := by
    unfold Accounts.check
    simp [hcompare, henabled]
  unfold login loginAs
  rw [hfound, hcheck]
  dsimp only [AuthService.open]
  rcases createAuthSession_cases acc.auth.toServer now (acc.auth.hashToken token)
    (acc.auth.uuidText row.id) (clock + acc.auth.sessionTTL) s with ⟨-, hnot⟩ | ⟨id, t, hexec⟩
  · exact absurd ⟨acc.storable_hashToken token, hfresh, row.id, row, acc.auth.uuid_uuidText row.id,
      hrow⟩ hnot
  · rw [hexec]

/-- A user whose hash is that of the password logs in with it. -/
theorem logsIn_of (hunique : UniqueNames acc.auth.toServer s)
    (hrow : s.users.find? row.id = some row)
    (hname : row.username = acc.auth.normalizeUsername username)
    (hcompare : acc.compare row.passwordHash password = true) :
    LogsIn acc s row.id username password := by
  intro calls row' spelling token clock now done hcalls hrow' henabled hsame hfresh
  obtain ⟨hunique', kept, hkept, hkname, hkhash⟩ := runCalls_kept hcalls hunique hrow
  have heq : kept = row' := Option.some_inj.mp (hkept.symm.trans hrow')
  subst heq
  have hid : kept.id = row.id := (Table.key_of_find? hkept : kept.key = row.id)
  refine login_ok hunique' (hid ▸ hkept) ?_ henabled (hkhash ▸ hcompare) hfresh
  rw [hkname, hname, normalizeUsername_congr hsame]

/-- A user is put next to others whose names are not its own. -/
theorem logsIn_put (hunique : UniqueNames acc.auth.toServer s)
    (hfree : Free acc.auth.toServer s row)
    (hname : row.username = acc.auth.normalizeUsername username)
    (hcompare : acc.compare row.passwordHash password = true) :
    LogsIn acc { s with users := s.users.put row } row.id username password := by
  have hkept : Kept acc.auth.toServer (fun _ => False) s { s with users := s.users.put row } :=
    kept_of_put rfl hfree.1 hfree.2
  refine logsIn_of (hkept.unique hunique) ?_ hname hcompare
  rw [Table.find?_put]
  exact if_pos rfl

end Logins

section Accepted

variable {acc : Accounts} {username : String} {password : ByteArray}

theorem refused_newUser {id : UUID} {displayName role hash : String} {now : Timestamp}
    (hname : storable username = true) (hdisplay : storable displayName = true)
    (hhash : storable hash = true) (hrole : validateRole role = .ok ()) :
    (newUser id username displayName hash role now).refused = none := by
  have hknown : ¬ (role ≠ roleAdmin ∧ role ≠ roleViewer) := by
    intro h
    unfold validateRole at hrole
    rw [if_pos h] at hrole
    cases hrole
  have hrole : storable role = true := by
    by_cases hadmin : role = roleAdmin
    · rw [hadmin]
      decide
    · rw [show role = roleViewer by tauto]
      decide
  unfold UserCredential.refused newUser
  simp only [List.all_cons, List.all_nil, hname, hdisplay, hhash, hrole, Bool.and_self,
    Bool.true_eq_false, if_false]
  exact if_neg hknown

theorem hashPassword_ok (acc : Accounts) (salt : Nat) (h : password.size ≤ 72) :
    ∃ hash, hashPassword acc salt password = .ok hash ∧ storable hash = true ∧
      acc.compare hash password = true := by
  obtain ⟨hash, hgenerate, hstorable, hcompare⟩ := acc.generate_short salt password h
  exact ⟨hash, by rw [hashPassword, hgenerate]; rfl, hstorable, hcompare⟩

theorem hashPassword_error (acc : Accounts) (salt : Nat) (h : 72 < password.size) :
    ∃ cause, hashPassword acc salt password = .error cause := by
  obtain ⟨cause, hgenerate⟩ := acc.generate_long salt password h
  exact ⟨_, by rw [hashPassword, hgenerate]; rfl⟩

theorem works_create (husername : validateUsername acc username = .ok ())
    (hpassword : validatePassword password = .ok ()) (hsize : password.size ≤ 72) {s : UserStore}
    {now : Timestamp} {id : UUID} {salt : Nat} {displayName role : String}
    (hunique : UniqueNames acc.auth.toServer s) (hid : s.users.find? id = none)
    (hfree : ∀ other ∈ s.users.rows,
      acc.auth.lower other.username ≠ acc.auth.lower (acc.auth.normalizeUsername username))
    (hrole : validateRole role = .ok ()) (hdisplay : storable displayName = true) :
    ∃ item s', Api.createUser acc s now id salt (.ok ⟨⟨username, displayName, role⟩, password⟩) =
      (.user 201 item, s') ∧ item.id = id ∧ LogsIn acc s' id username password := by
  obtain ⟨hash, hhash, hstorable, hcompare⟩ := hashPassword_ok acc salt hsize
  have hname := storable_accepted husername
  have hlower := lower_accepted husername
  unfold Api.createUser
  simp only [validateUsername_normalizeUsername, husername, hpassword, hrole, hhash]
  -- a blank display name is replaced by the username, which is storable as well
  set shown := if trimSpace displayName = "" then acc.auth.normalizeUsername username
    else trimSpace displayName with hshown
  have hshown : storable shown = true := by
    rw [hshown]
    split
    · exact hname
    · exact storable_trimSpace hdisplay
  have hrow : Free acc.auth.toServer s
      (newUser id (acc.auth.normalizeUsername username) shown hash role now) := ⟨hid, hfree⟩
  rw [createUser_ok (newUser id (acc.auth.normalizeUsername username) shown hash role now)
    (by rw [hlower]) (refused_newUser hname hshown hstorable hrole) hrow]
  exact ⟨_, _, rfl, rfl, logsIn_put hunique hrow rfl hcompare⟩

theorem works_reset (hpassword : validatePassword password = .ok ()) (hsize : password.size ≤ 72)
    {s : UserStore} {now : Timestamp} {actor : User} {userID : String} {salt : Nat}
    {row : UserCredential} (hunique : UniqueNames acc.auth.toServer s)
    (huuid : acc.auth.uuid userID = some row.id) (hrow : s.users.find? row.id = some row)
    (hname : row.username = acc.auth.normalizeUsername username) :
    ∃ clear s', Api.resetUserPassword acc s now actor userID salt (.ok password) =
      (.noContent clear, s') ∧ LogsIn acc s' row.id username password := by
  obtain ⟨hash, hhash, hstorable, hcompare⟩ := hashPassword_ok acc salt hsize
  obtain ⟨t, hexec⟩ := resetUserPassword_ok acc.auth.toServer now huuid hrow hstorable
  have hkept : Kept acc.auth.toServer (fun id => id = row.id) s
      ⟨s.users.updateWhere (fun other => decide (other.id = row.id)) (UserCredential.reset now hash)
        (UserCredential.key_reset now hash), t⟩ :=
    kept_of_update (UserCredential.key_reset now hash) rfl (fun _ => rfl) fun other hother hne =>
      absurd (of_decide_eq_true hother) hne
  unfold Api.resetUserPassword
  simp only [hpassword, hhash, hexec]
  refine ⟨_, _, rfl, ?_⟩
  have hreset : LogsIn acc _ (row.reset now hash).id username password :=
    logsIn_of (hkept.unique hunique) ?_ hname hcompare
  · exact hreset
  · have hfound : (s.users.updateWhere (fun other => decide (other.id = row.id))
        (UserCredential.reset now hash) (UserCredential.key_reset now hash)).find? row.id =
          some (row.reset now hash) := by
      rw [Table.find?_updateWhere, hrow, Option.map_some, if_pos (decide_eq_true rfl)]
    exact hfound

theorem works_bootstrap (husername : validateUsername acc username = .ok ())
    (hpassword : validatePassword password = .ok ()) (hsize : password.size ≤ 72) {s : UserStore}
    {now : Timestamp} {id : UUID} {salt : Nat} (hnobody : s.users.rows = []) :
    ∃ s', bootstrapAdmin acc s now id salt username password = (.ok (), s') ∧
      LogsIn acc s' id username password := by
  obtain ⟨hash, hhash, hstorable, hcompare⟩ := hashPassword_ok acc salt hsize
  have hname := storable_accepted husername
  -- the two are looked at for emptiness before they are checked
  have hfilled : ¬ (acc.auth.normalizeUsername username = "" ∨ password.size = 0) := by
    rintro (hempty | hempty)
    · exact accepted_ne_empty husername hempty
    · rw [validatePassword, hempty] at hpassword
      cases hpassword
  have hlower : acc.auth.toLower (acc.auth.normalizeUsername username) =
      acc.auth.normalizeUsername username := toLower_toLower acc (trimSpace username)
  have hunique : UniqueNames acc.auth.toServer s := by
    unfold UniqueNames
    rw [hnobody]
    exact fun row hrow => by cases hrow
  unfold bootstrapAdmin
  rw [if_neg (by rw [hnobody]; decide), if_neg hfilled]
  simp only [validateUsername_normalizeUsername, husername, hpassword, hhash]
  rw [ensureBootstrapAdmin_ok (newUser id (acc.auth.normalizeUsername username)
    "Administrator" hash roleAdmin now) (by rw [hlower])
    (refused_newUser hname (by decide) hstorable rfl) hnobody]
  refine ⟨_, rfl, logsIn_put hunique ⟨Table.find?_eq_none.mpr fun other hother => ?_,
    fun other hother => ?_⟩ rfl hcompare⟩ <;>
  · rw [hnobody] at hother
    cases hother

theorem bootstrapAdmin_long (husername : validateUsername acc username = .ok ())
    (hpassword : validatePassword password = .ok ()) (hsize : 72 < password.size) {s : UserStore}
    {now : Timestamp} {id : UUID} {salt : Nat} (hnobody : s.users.rows = []) :
    (bootstrapAdmin acc s now id salt username password).1 ≠ .ok () := by
  obtain ⟨cause, hhash⟩ := hashPassword_error acc salt hsize
  unfold bootstrapAdmin
  rw [if_neg (by rw [hnobody]; decide)]
  simp only [validateUsername_normalizeUsername, husername, hpassword, hhash]
  split
  · intro h
    cases h
  · intro h
    cases h

/-- **A username and a password the checks accept work if and only if the password is at most
72 bytes long.** -/
theorem accepted_works_iff (acc : Accounts) (username : String) (password : ByteArray)
    (husername : validateUsername acc username = .ok ())
    (hpassword : validatePassword password = .ok ()) :
    Works acc username password ↔ password.size ≤ 72 := by
  constructor
  · intro hworks
    by_contra hlong
    obtain ⟨s', hdone, -⟩ := hworks.bootstrap .empty 0 0 0 rfl
    exact bootstrapAdmin_long husername hpassword (not_le.mp hlong) rfl (congrArg Prod.fst hdone)
  · intro hsize
    exact {
      create := fun s now id salt displayName role hunique hid hfree hrole hdisplay =>
        works_create husername hpassword hsize hunique hid hfree hrole hdisplay
      reset := fun s now actor userID salt row hunique huuid hrow hname =>
        works_reset hpassword hsize hunique huuid hrow hname
      bootstrap := fun s now id salt hnobody =>
        works_bootstrap husername hpassword hsize hnobody }

end Accepted

/-- `'a'`, so many times. -/
def letters (n : Nat) : ByteArray := ⟨Array.replicate n 97⟩

theorem accepted_works_letters : Works plainAccounts " Admin" (letters 72) := by
  have husername : validateUsername plainAccounts " Admin" = .ok () := by decide +kernel
  have hpassword : validatePassword (letters 72) = .ok () := by decide +kernel
  exact (accepted_works_iff plainAccounts " Admin" (letters 72) husername hpassword).mpr (by
    decide +kernel)

/-- A password of 73 bytes passes the check, and no administrator gets it. -/
theorem accepted_refused : ¬ ∀ (acc : Accounts) (username : String) (password : ByteArray),
    validateUsername acc username = .ok () → validatePassword password = .ok () →
    Works acc username password := by
  intro h
  have husername : validateUsername plainAccounts "admin" = .ok () := by decide +kernel
  have hpassword : validatePassword (letters 73) = .ok () := by decide +kernel
  obtain ⟨s', hdone, -⟩ := (h plainAccounts "admin" (letters 73) husername hpassword).bootstrap
    .empty 0 0 0 rfl
  exact bootstrapAdmin_long husername hpassword (by decide +kernel) rfl (congrArg Prod.fst hdone)

end Cfscan.Users
