import Cfscan.Users.Handlers

/-!
# An administrator's own access — `internal/api/users.go`

The handlers compare the id of the path with that of the actor as texts, and the statements cast it
to a uuid, which has many spellings. `own_access_iff` names the requests that get past the one and
reach the actor's own row by the other.

The condition is about the text of the path, `OtherSpelling`: it is read as the actor's uuid and is
not the text the server prints for it. Capital letters are one way, and which others there are is up
to the server's input function, which is passed in.

With the last administrator the statements of the store refuse what the handlers let through, so
that two enabled administrators are needed for the actor to lose its own access.
-/

set_option autoImplicit false

namespace Cfscan.Users

open Cfscan.Lib Cfscan.Store

/-! ## What the two calls of the store leave of a user

The guard for the last administrator, seen as a condition on the store: with it the table is
as it was, without it the row is rewritten or gone. Errors of the columns leave the table
alone too, which is the disjunction in `updateUserRow_run`. -/

section Store

variable {server : Server} {s : UserStore} {now : Timestamp} {userID : String} {id : UUID}
  {input : UpdateUserRequest} {current : UserCredential}

theorem lastAdmin_run_eq (leaves : Bool) : (lastAdmin current leaves).run s =
    (current.enabledAdmin && leaves && decide (countAdmins s ≤ 1), s) := by
  unfold lastAdmin
  cases current.enabledAdmin <;> cases leaves <;> rfl

theorem updateUserRow_run (now : Timestamp) (input : UpdateUserRequest)
    (hrow : s.users.find? id = some current) :
    (∃ error, (current.update now input).refused = some error ∧
      (updateUserRow now id input current).run s = (.rollback (.error (.db "update user" error)), s)) ∨
    (current.update now input).refused = none ∧ ∃ item t,
      (updateUserRow now id input current).run s = (.commit (.ok item),
        ⟨s.users.updateWhere (fun row => decide (row.id = id)) (UserCredential.update now input)
          (UserCredential.key_update now input), t⟩) := by
  unfold updateUserRow
  cases hrefused : (current.update now input).refused with
  | some error => exact .inl ⟨error, rfl, rfl⟩
  | none =>
    refine .inr ⟨rfl, ?_⟩
    simp only [Tx.bind_eq, Tx.run_bind, users.run_updateWhere (UserCredential.key_update now input)]
    -- the row was selected for update, so `RETURNING` has it
    have hfound : ∃ row rest, ((users.get s).rows.filter fun row => decide (row.id = id)).map
        (UserCredential.update now input) = row :: rest := by
      refine List.exists_cons_of_ne_nil fun hnil => ?_
      have hmem : current ∈ (users.get s).rows.filter fun row => decide (row.id = id) :=
        List.mem_filter.mpr ⟨Table.mem_of_find? hrow,
          decide_eq_true (Table.key_of_find? hrow : current.key = id)⟩
      rw [List.map_eq_nil_iff] at hnil
      exact List.ne_nil_of_mem hmem hnil
    obtain ⟨row, rest, hrows⟩ := hfound
    rw [hrows]
    dsimp only
    split
    · exact ⟨_, _, rfl⟩
    · rw [Tx.run_bind]
      obtain ⟨t, hdelete, -⟩ := deleteSessions_run (fun sess => decide (sess.userID = id))
        (users.set s ((users.get s).updateWhere (fun row => decide (row.id = id))
          (UserCredential.update now input) (UserCredential.key_update now input)))
      rw [hdelete]
      exact ⟨_, t, rfl⟩

/-- An update reaches the user its id is cast to, unless it is refused. -/
theorem updateUser_users (now : Timestamp) (input : UpdateUserRequest)
    (huuid : server.uuid userID = some id) (hrow : s.users.find? id = some current) :
    ((updateUser server now userID input).exec s).2.users =
      if (current.enabledAdmin && (decide (input.role ≠ roleAdmin) || !input.enabled) &&
          decide (countAdmins s ≤ 1)) = true ∨ (current.update now input).refused ≠ none then s.users
      else s.users.updateWhere (fun row => decide (row.id = id)) (UserCredential.update now input)
        (UserCredential.key_update now input) := by
  have hselect : (users.get s).find? id = some current := hrow
  unfold Tx.exec updateUser
  simp only [Tx.bind_eq, Tx.run_bind, Tx.run_acquire, huuid, users.run_selectForUpdate, hselect,
    lastAdmin_run_eq]
  by_cases hlast : (current.enabledAdmin && (decide (input.role ≠ roleAdmin) || !input.enabled) &&
    decide (countAdmins s ≤ 1)) = true
  · rw [if_pos hlast, if_pos (.inl hlast)]
    rfl
  · rw [if_neg hlast]
    rcases updateUserRow_run now input hrow with
      ⟨error, hrefused, hrun⟩ | ⟨hrefused, item, t, hrun⟩
    · rw [hrun, if_pos (.inr (by simp [hrefused]))]
    · rw [hrun, if_neg (not_or.mpr ⟨hlast, not_not_intro hrefused⟩)]

theorem deleteUserRow_run (hrow : s.users.find? id = some current) :
    ∃ t, (deleteUserRow id).run s = ((), ⟨s.users.erase id, t⟩) := by
  have hselect : (users.get s).find? id = some current := hrow
  obtain ⟨t, hdelete, -⟩ := deleteSessions_run (fun sess => decide (sess.userID = id))
    (⟨s.users.erase id, s.sessions⟩ : UserStore)
  unfold deleteUserRow
  simp only [Tx.bind_eq, Tx.run_bind, users.run_selectForUpdate, hselect, Tx.run_put]
  exact ⟨t, hdelete⟩

theorem deleteUser_users (huuid : server.uuid userID = some id)
    (hrow : s.users.find? id = some current) :
    ((deleteUser server userID).exec s).2.users =
      if (current.enabledAdmin && decide (countAdmins s ≤ 1)) = true then s.users
      else s.users.erase id := by
  have hselect : (users.get s).find? id = some current := hrow
  unfold Tx.exec deleteUser
  simp only [Tx.bind_eq, Tx.run_bind, Tx.run_acquire, huuid, users.run_selectForUpdate, hselect,
    lastAdmin_run_eq, Bool.and_true]
  by_cases hlast : (current.enabledAdmin && decide (countAdmins s ≤ 1)) = true
  · rw [if_pos hlast, if_pos hlast]
    rfl
  · rw [if_neg hlast, if_neg hlast]
    obtain ⟨t, hdelete⟩ := deleteUserRow_run hrow
    rw [Tx.run_bind, hdelete]
    rfl

/-- Nobody is touched by a call whose id is no uuid, or that of nobody. -/
theorem updateUser_nobody (h : ∀ id, server.uuid userID = some id → s.users.find? id = none) :
    ((updateUser server now userID input).exec s).2 = s := by
  unfold Tx.exec updateUser
  simp only [Tx.bind_eq, Tx.run_bind, Tx.run_acquire]
  cases huuid : server.uuid userID with
  | none => rfl
  | some id =>
    have hnone : (users.get s).find? id = none := h id huuid
    simp only [Tx.run_bind, users.run_selectForUpdate, hnone]
    rfl

theorem deleteUser_nobody (h : ∀ id, server.uuid userID = some id → s.users.find? id = none) :
    ((deleteUser server userID).exec s).2 = s := by
  unfold Tx.exec deleteUser
  simp only [Tx.bind_eq, Tx.run_bind, Tx.run_acquire]
  cases huuid : server.uuid userID with
  | none => rfl
  | some id =>
    have hnone : (users.get s).find? id = none := h id huuid
    simp only [Tx.run_bind, users.run_selectForUpdate, hnone]
    rfl

/-- Whether there is somebody a call is about. -/
theorem target_cases (server : Server) (s : UserStore) (userID : String) :
    (∃ id current, server.uuid userID = some id ∧ s.users.find? id = some current) ∨
      ∀ id, server.uuid userID = some id → s.users.find? id = none := by
  cases huuid : server.uuid userID with
  | none => exact .inr nofun
  | some id =>
    cases hrow : s.users.find? id with
    | some current => exact .inl ⟨id, current, rfl, hrow⟩
    | none =>
      refine .inr fun id' hid => ?_
      cases hid
      exact hrow

theorem updateUser_others (h : server.uuid userID ≠ some id) :
    ((updateUser server now userID input).exec s).2.users.find? id = s.users.find? id := by
  rcases target_cases server s userID with ⟨target, current, huuid, hrow⟩ | hnobody
  · rw [updateUser_users now input huuid hrow]
    split
    · rfl
    · rw [Table.find?_updateWhere]
      cases hfound : s.users.find? id with
      | none => rfl
      | some row =>
        have hid : row.key = id := Table.key_of_find? hfound
        have hother : row.id ≠ target := fun heq => h (huuid.trans (congrArg some (heq.symm.trans hid)))
        simp [hother]
  · rw [updateUser_nobody hnobody]

theorem deleteUser_others (h : server.uuid userID ≠ some id) :
    ((deleteUser server userID).exec s).2.users.find? id = s.users.find? id := by
  rcases target_cases server s userID with ⟨target, current, huuid, hrow⟩ | hnobody
  · rw [deleteUser_users huuid hrow]
    split
    · rfl
    · rw [Table.find?_erase, if_neg fun heq => h (huuid.trans (congrArg some heq))]
  · rw [deleteUser_nobody hnobody]

end Store

/-! ## Through the handlers

The comparison of texts comes first and only then the cast. A path gets past the first and
hits the own row by the second if it is another spelling of the own id; for an update the
body must also ask for the loss, and both need a second enabled administrator. -/

/-- The account is there, enabled, and has the role it had. -/
def KeepsAccess (row : UserCredential) (s : UserStore) : Prop :=
  ∃ row', s.users.find? row.id = some row' ∧ row'.enabled = true ∧ row'.role = row.role

/-- The path has the id of the actor, but not as the server prints it. -/
def OtherSpelling (acc : Accounts) (actor : User) (userID : String) : Prop :=
  acc.auth.uuidText actor.id ≠ userID ∧ acc.auth.uuid userID = some actor.id

/-- The body of an update that the columns take, and that disables the user or changes its role. -/
def TakesAccess (now : Timestamp) (row : UserCredential) (body : Except String UpdateUserRequest) :
    Prop :=
  ∃ input, body = .ok input ∧ trimSpace input.displayName ≠ "" ∧
    (row.update now { input with displayName := trimSpace input.displayName }).refused = none ∧
    (input.enabled = false ∨ input.role ≠ row.role)

section Handlers

variable {acc : Accounts} {s : UserStore} {now : Timestamp} {row : UserCredential} {userID : String}
  {body : Except String UpdateUserRequest}

theorem keepsAccess_of_find? {s' : UserStore} (hrow : s.users.find? row.id = some row)
    (henabled : row.enabled = true) (h : s'.users.find? row.id = s.users.find? row.id) :
    KeepsAccess row s' :=
  ⟨row, h.trans hrow, henabled, rfl⟩

/-- The roles a column takes are those a body may ask for. -/
theorem validateRole_of_refused (h : row.refused = none) : validateRole row.role = .ok () := by
  unfold UserCredential.refused at h
  split at h
  · cases h
  · split at h
    · cases h
    · rename_i hrole
      exact if_neg hrole

/-- An update reaches the store when the body is in order and the texts of the ids differ, or it
takes nothing. -/
theorem api_updateUser_cases (acc : Accounts) (s : UserStore) (now : Timestamp) (actor : User)
    (userID : String) (body : Except String UpdateUserRequest) :
    (∃ input, body = .ok input ∧ trimSpace input.displayName ≠ "" ∧
      ¬ (acc.auth.uuidText actor.id = userID ∧ (input.enabled = false ∨ input.role ≠ actor.role)) ∧
      (Api.updateUser acc s now actor userID body).2 = ((Users.updateUser acc.auth.toServer now userID
        { input with displayName := trimSpace input.displayName }).exec s).2) ∨
    (Api.updateUser acc s now actor userID body).2 = s ∧ ∀ input, body = .ok input →
      trimSpace input.displayName ≠ "" → validateRole input.role = .ok () →
      acc.auth.uuidText actor.id = userID := by
  cases body with
  | error message => exact .inr ⟨rfl, nofun⟩
  | ok input =>
    unfold Api.updateUser
    dsimp only
    by_cases hname : trimSpace input.displayName = ""
    · rw [if_pos hname]
      refine .inr ⟨rfl, fun input' hinput hfilled => ?_⟩
      cases hinput
      exact absurd hname hfilled
    rw [if_neg hname]
    cases hrole : validateRole input.role with
    | error message =>
      refine .inr ⟨rfl, fun input' hinput _ hvalid => ?_⟩
      cases hinput
      rw [hrole] at hvalid
      cases hvalid
    | ok _ =>
      dsimp only
      -- the guard compares texts, and only this path ends in it
      by_cases hguard : acc.auth.uuidText actor.id = userID ∧
          (input.enabled = false ∨ input.role ≠ actor.role)
      · rw [if_pos hguard]
        exact .inr ⟨rfl, fun _ _ _ _ => hguard.1⟩
      · rw [if_neg hguard]
        refine .inl ⟨input, rfl, hname, hguard, ?_⟩
        split <;> rename_i hexec <;> rw [hexec]

theorem api_deleteUser_eq (acc : Accounts) (s : UserStore) (actor : User) (userID : String) :
    (Api.deleteUser acc s actor userID).2 = if acc.auth.uuidText actor.id = userID then s
      else ((Users.deleteUser acc.auth.toServer userID).exec s).2 := by
  unfold Api.deleteUser
  split
  · rfl
  · split <;> rename_i hexec <;> rw [hexec]

/-- An update of an administrator by its own id, past the comparison of the texts. -/
theorem keepsAccess_update {input : UpdateUserRequest} (hrow : s.users.find? row.id = some row)
    (hadmin : row.enabledAdmin = true) (huuid : acc.auth.uuid userID = some row.id) :
    KeepsAccess row ((Users.updateUser acc.auth.toServer now userID input).exec s).2 ↔
      ¬ ((input.enabled = false ∨ input.role ≠ row.role) ∧ (row.update now input).refused = none ∧
        2 ≤ countAdmins s) := by
  obtain ⟨hrole, henabled⟩ : row.role = roleAdmin ∧ row.enabled = true := by
    simpa [UserCredential.enabledAdmin] using hadmin
  have hleaves : (decide (input.role ≠ roleAdmin) || !input.enabled) = true ↔
      input.enabled = false ∨ input.role ≠ row.role := by
    rw [hrole, Bool.or_eq_true, decide_eq_true_eq, Bool.not_eq_true', or_comm]
  unfold KeepsAccess
  rw [updateUser_users now input huuid hrow]
  simp only [hadmin, Bool.true_and, Bool.and_eq_true, hleaves, decide_eq_true_eq]
  split
  -- the statement was refused: the row is as it was
  case isTrue hrefused =>
    refine iff_of_true ⟨row, hrow, henabled, rfl⟩ ?_
    rintro ⟨hleave, htaken, hmany⟩
    rcases hrefused with ⟨-, hfew⟩ | hrefused
    · omega
    · exact hrefused htaken
  case isFalse hgoes =>
    obtain ⟨hmany, htaken⟩ := not_or.mp hgoes
    have hfound : (s.users.updateWhere (fun other => decide (other.id = row.id))
        (UserCredential.update now input) (UserCredential.key_update now input)).find? row.id =
          some (row.update now input) := by
      rw [Table.find?_updateWhere, hrow, Option.map_some, if_pos (decide_eq_true rfl)]
    rw [hfound]
    -- what was written is what the body asks for
    have hkept : (∃ row', some (row.update now input) = some row' ∧ row'.enabled = true ∧
        row'.role = row.role) ↔ ¬ (input.enabled = false ∨ input.role ≠ row.role) := by
      rw [not_or, Bool.not_eq_false, not_not]
      constructor
      · rintro ⟨row', hrow', hkeeps⟩
        cases hrow'
        exact hkeeps
      · exact fun hkeeps => ⟨_, rfl, hkeeps⟩
    rw [hkept, not_iff_not]
    constructor
    · intro hleave
      refine ⟨hleave, not_not.mp htaken, ?_⟩
      by_contra hfew
      exact hmany ⟨hleave, by omega⟩
    · exact And.left

theorem keepsAccess_delete (hrow : s.users.find? row.id = some row)
    (hadmin : row.enabledAdmin = true) (huuid : acc.auth.uuid userID = some row.id) :
    KeepsAccess row ((Users.deleteUser acc.auth.toServer userID).exec s).2 ↔
      ¬ 2 ≤ countAdmins s := by
  have henabled : row.enabled = true := by
    simp only [UserCredential.enabledAdmin, Bool.and_eq_true] at hadmin
    exact hadmin.2
  unfold KeepsAccess
  rw [deleteUser_users huuid hrow]
  simp only [hadmin, Bool.true_and, decide_eq_true_eq]
  split
  case isTrue hfew => exact iff_of_true ⟨row, hrow, henabled, rfl⟩ (by omega)
  case isFalse hmany =>
    rw [Table.find?_erase, if_pos rfl]
    exact iff_of_false nofun (by omega)

/-- **Administrators keep their own access, unless the path spells their id in another way**, the
body takes it, and they are not the last ones. -/
theorem own_access_iff (acc : Accounts) (s : UserStore) (now : Timestamp) {row : UserCredential}
    (hrow : s.users.find? row.id = some row) (hadmin : row.enabledAdmin = true) (userID : String)
    (body : Except String UpdateUserRequest) :
    (KeepsAccess row (Api.updateUser acc s now row.toUser userID body).2 ↔
      ¬ (OtherSpelling acc row.toUser userID ∧ TakesAccess now row body ∧ 2 ≤ countAdmins s)) ∧
    (KeepsAccess row (Api.deleteUser acc s row.toUser userID).2 ↔
      ¬ (OtherSpelling acc row.toUser userID ∧ 2 ≤ countAdmins s)) := by
  have henabled : row.enabled = true := by
    simp only [UserCredential.enabledAdmin, Bool.and_eq_true] at hadmin
    exact hadmin.2
  constructor
  · rcases api_updateUser_cases acc s now row.toUser userID body with
      ⟨input, rfl, hname, hguard, heq⟩ | ⟨heq, hrefused⟩
    · rw [heq]
      by_cases huuid : acc.auth.uuid userID = some row.id
      · rw [keepsAccess_update hrow hadmin huuid, not_iff_not]
        constructor
        · rintro ⟨htakes, htaken, hmany⟩
          exact ⟨⟨fun htext => hguard ⟨htext, htakes⟩, huuid⟩, ⟨input, rfl, hname, htaken, htakes⟩,
            hmany⟩
        · rintro ⟨-, ⟨input', hinput, -, htaken, htakes⟩, hmany⟩
          cases hinput
          exact ⟨htakes, htaken, hmany⟩
      · refine iff_of_true (keepsAccess_of_find? hrow henabled (updateUser_others huuid)) ?_
        exact fun h => huuid h.1.2
    · rw [heq]
      refine iff_of_true ⟨row, hrow, henabled, rfl⟩ ?_
      rintro ⟨hspelling, ⟨input, hinput, hname, htaken, -⟩, -⟩
      exact hspelling.1 (hrefused input hinput hname (validateRole_of_refused htaken))
  · rw [api_deleteUser_eq]
    split
    case isTrue htext =>
      exact iff_of_true ⟨row, hrow, henabled, rfl⟩ fun h => h.1.1 htext
    case isFalse htext =>
      by_cases huuid : acc.auth.uuid userID = some row.id
      · rw [keepsAccess_delete hrow hadmin huuid]
        exact not_congr ⟨fun hmany => ⟨⟨htext, huuid⟩, hmany⟩, And.right⟩
      · refine iff_of_true (keepsAccess_of_find? hrow henabled (deleteUser_others huuid)) ?_
        exact fun h => huuid h.1.2

end Handlers

/-! ## An id in capitals

A concrete server for the counterexample. It reads the first administrator's id in small and
in capital letters and prints it in small ones, as PostgreSQL does; every other id has one
text only. Names, hashes and tokens are the plainest that meet the assumptions. -/

/-- `unicode.ToLower` on ASCII. -/
def asciiLower (c : Char) : Char :=
  if 65 ≤ c.toNat ∧ c.toNat ≤ 90 then Char.ofNat (c.toNat + 32) else c

/-- What holds of capitals and of what is no capital holds of all characters. -/
theorem asciiLower_cases {P : Char → Char → Prop}
    (hcapital : ∀ n < 26, P (Char.ofNat (65 + n)) (Char.ofNat (97 + n)))
    (hother : ∀ c, P c c) (c : Char) : P c (asciiLower c) := by
  unfold asciiLower
  split
  case isTrue h =>
    have hc := hcapital (c.toNat - 65) (by omega)
    rwa [show 65 + (c.toNat - 65) = c.toNat by omega, Char.ofNat_toNat,
      show 97 + (c.toNat - 65) = c.toNat + 32 by omega] at hc
  case isFalse => exact hother c

theorem asciiLower_asciiLower (c : Char) : asciiLower (asciiLower c) = asciiLower c := by
  have h := asciiLower_cases (P := fun c d => c = d ∨ asciiLower d = d) (by decide)
    (fun _ => .inl rfl) c
  rcases h with h | h
  · rw [← h, ← h]
  · exact h

theorem isSpace_asciiLower (c : Char) : isSpace (asciiLower c) = isSpace c :=
  asciiLower_cases (P := fun c d => isSpace d = isSpace c) (by decide) (fun _ => rfl) c

theorem asciiLower_username (text : String) (h : text.toList.all usernameChar = true) :
    String.ofList (text.toList.map asciiLower) = text := by
  have hsame : text.toList.map asciiLower = text.toList.map id :=
    List.map_congr_left fun c hc => by
      have hlower := asciiLower_cases (P := fun c d => usernameChar c = true → d = c) (by decide)
        (fun _ _ => rfl) c
      exact hlower (List.all_eq_true.mp h c hc)
  rw [hsame, List.map_id, String.ofList_toList]

def adminID : String := "a1111111-1111-4111-9111-111111111111"

def adminIDCapital : String := "A1111111-1111-4111-9111-111111111111"

def secondID : String := "b2222222-2222-4222-a222-222222222222"

def accountText (id : UUID) : String :=
  if id = 1 then adminID else if id = 2 then secondID else String.ofList (List.replicate id 'x')

def accountUUID (text : String) : Option UUID :=
  some (if text = adminID ∨ text = adminIDCapital then 1 else if text = secondID then 2
    else text.length)

theorem accountUUID_text (id : UUID) : accountUUID (accountText id) = some id := by
  have hdash : ∀ text : String, '-' ∈ text.toList →
      String.ofList (List.replicate id 'x') ≠ text := by
    rintro text hmem rfl
    rw [String.toList_ofList] at hmem
    cases List.eq_of_mem_replicate hmem
  unfold accountText accountUUID
  by_cases hadmin : id = 1
  · rw [if_pos hadmin, if_pos (.inl rfl), hadmin]
  by_cases hsecond : id = 2
  · rw [if_neg hadmin, if_pos hsecond, hsecond]
    rfl
  · rw [if_neg hadmin, if_neg hsecond, if_neg (not_or.mpr ⟨hdash _ (by decide), hdash _ (by decide)⟩),
      if_neg (hdash _ (by decide))]
    simp

theorem storable_ofList {α : Type} {f : α → Char} {l : List α} (h : ∀ a, f a ≠ Char.ofNat 0) :
    storable (String.ofList (l.map f)) = true := by
  unfold storable
  rw [String.toList_ofList, List.all_map]
  exact List.all_eq_true.mpr fun a _ => decide_eq_true (h a)

/-- A hash that can be read back. -/
def plainHash (password : ByteArray) : String :=
  String.ofList (password.data.toList.map fun b => Char.ofNat (33 + b.toNat))

theorem storable_plainHash (password : ByteArray) : storable (plainHash password) = true := by
  have hprinted : ∀ n < 256, Char.ofNat (33 + n) ≠ Char.ofNat 0 := by decide +kernel
  exact storable_ofList fun b => hprinted b.toNat b.toNat_lt

/-- Hexadecimal digits, one for each character. -/
def plainToken (token : String) : String :=
  String.ofList (token.toList.map fun c => Char.ofNat (97 + c.toNat % 16))

theorem storable_plainToken (token : String) : storable (plainToken token) = true := by
  have hprinted : ∀ n < 16, Char.ofNat (97 + n) ≠ Char.ofNat 0 := by decide
  exact storable_ofList fun c => hprinted _ (Nat.mod_lt _ (by decide))

def plainService : AuthService where
  toPostgres := .withoutAddresses accountUUID
  lower := fun text => String.ofList (text.toList.map asciiLower)
  toLower := fun text => String.ofList (text.toList.map asciiLower)
  sessionTTL := 24 * 60 * minute
  compare := fun hash password => decide (hash = plainHash password.toUTF8)
  hashToken := plainToken
  uuidText := accountText
  uuid_uuidText := accountUUID_text

def plainGenerate (_ : Nat) (password : ByteArray) : Except String String :=
  if 72 < password.size then .error "bcrypt: password length exceeds 72 bytes"
  else .ok (plainHash password)

theorem plainGenerate_long (salt : Nat) (password : ByteArray) (h : 72 < password.size) :
    ∃ cause, plainGenerate salt password = .error cause :=
  ⟨_, if_pos h⟩

theorem plainGenerate_short (salt : Nat) (password : ByteArray) (h : password.size ≤ 72) :
    ∃ hash, plainGenerate salt password = .ok hash ∧ storable hash = true ∧
      decide (hash = plainHash password) = true :=
  ⟨_, if_neg (by omega), storable_plainHash password, decide_eq_true rfl⟩

def plainAccounts : Accounts where
  auth := plainService
  generate := plainGenerate
  compare := fun hash password => decide (hash = plainHash password)
  compare_text := fun _ _ => rfl
  generate_long := plainGenerate_long
  generate_short := plainGenerate_short
  lowerRune := asciiLower
  toLower_eq := fun _ => rfl
  lowerRune_lowerRune := asciiLower_asciiLower
  isSpace_lowerRune := isSpace_asciiLower
  lower_username := asciiLower_username
  storable_hashToken := storable_plainToken

def firstAdmin : UserCredential := newUser 1 "admin" "Administrator" "!" roleAdmin 0

def twoAccounts : UserStore where
  users := ⟨[firstAdmin, newUser 2 "second" "Second" "!" roleAdmin 0], by decide⟩
  sessions := .empty

/-- By the id the server prints, the request is refused. -/
theorem own_access_adminID : KeepsAccess firstAdmin
    (Api.deleteUser plainAccounts twoAccounts firstAdmin.toUser adminID).2 := by
  have hrow : twoAccounts.users.find? firstAdmin.id = some firstAdmin := rfl
  have hadmin : firstAdmin.enabledAdmin = true := rfl
  refine ((own_access_iff plainAccounts twoAccounts 0 hrow hadmin adminID (.error "EOF")).2).mpr ?_
  exact fun h => h.1.1 rfl

/-- With the first letter of its id in capitals, an administrator deletes itself. -/
theorem own_access_lost : ¬ ∀ (acc : Accounts) (s : UserStore) (now : Timestamp)
    (row : UserCredential), s.users.find? row.id = some row → row.enabledAdmin = true →
    ∀ (userID : String) (body : Except String UpdateUserRequest),
      KeepsAccess row (Api.updateUser acc s now row.toUser userID body).2 ∧
        KeepsAccess row (Api.deleteUser acc s row.toUser userID).2 := by
  intro h
  obtain ⟨row', hrow', -⟩ := (h plainAccounts twoAccounts 0 firstAdmin rfl rfl adminIDCapital
    (.error "EOF")).2
  have hgone : (Api.deleteUser plainAccounts twoAccounts firstAdmin.toUser
      adminIDCapital).2.users.find? firstAdmin.id = none := by
    decide +kernel
  rw [hgone] at hrow'
  cases hrow'

end Cfscan.Users
