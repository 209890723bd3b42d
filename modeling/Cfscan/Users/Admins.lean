import Cfscan.Lib.Guarded
import Cfscan.Users.Store

/-!
# The last administrator

`UpdateUser` and `DeleteUser` count the enabled administrators and then write a row that is not
among those they counted on. What makes the count stand until the commit is a lock on no row at
all: whoever takes the last step away from being an administrator holds `adminLock` from before
the count to the commit, and nobody else takes that step (`adminGuard`).

So a transaction is one of two things at each of its steps. It leaves every enabled administrator
one (`Mild`), or it holds the lock, writes one row, and knows another enabled administrator that
nobody can take away meanwhile (`Demoting`).

A refusal is true at a moment only: when the call was decided its target was the only enabled
administrator, and by the time the caller hears of it another may have been created. That is why
`last_admin_kept` names the moment, and says that the transaction was open from then on.

`ensureBootstrapAdmin` is one of the calls, so that a center can come to its first administrator; of
a center that has none nothing is claimed.
-/

set_option autoImplicit false

namespace Cfscan.Users

open Cfscan.Lib Cfscan.Store

/-! ## The calls -/

inductive UserCall where
  | ensureBootstrapAdmin (now : Timestamp) (id : UUID) (username displayName passwordHash : String)
  | createUser (now : Timestamp) (id : UUID) (input : CreateUserRequest) (passwordHash : String)
  | updateUser (now : Timestamp) (userID : String) (input : UpdateUserRequest)
  | resetUserPassword (now : Timestamp) (userID passwordHash : String)
  | deleteUser (userID : String)
  | createAuthSession (now : Timestamp) (tokenHash userID : String) (expiresAt : Timestamp)
deriving Repr

inductive UserReply where
  | unit (result : Except StoreError Unit)
  | user (result : Except StoreError User)

def UserCall.program (server : Server) : UserCall → Program (Ending UserReply)
  | .ensureBootstrapAdmin now id username displayName passwordHash => do
    let e ← Users.ensureBootstrapAdmin server now id username displayName passwordHash
    pure (e.map .unit)
  | .createUser now id input passwordHash => do
    let e ← Users.createUser server now id input passwordHash
    pure (e.map .user)
  | .updateUser now userID input => do
    let e ← Users.updateUser server now userID input
    pure (e.map .user)
  | .resetUserPassword now userID passwordHash => do
    let e ← Users.resetUserPassword server now userID passwordHash
    pure (e.map .unit)
  | .deleteUser userID => do
    let e ← Users.deleteUser server userID
    pure (e.map .unit)
  | .createAuthSession now tokenHash userID expiresAt => do
    let e ← Users.createAuthSession server now tokenHash userID expiresAt
    pure (e.map .unit)

/-- The target of a call that ends refused for the sake of the last administrator. -/
def UserCall.refusedFor : UserCall → Ending UserReply → Option String
  | .updateUser _ userID _, .rollback (.user (.error error)) =>
    if error = lastAdminUpdate then some userID else none
  | .deleteUser userID, .rollback (.unit (.error error)) =>
    if error = lastAdminDelete then some userID else none
  | _, _ => none

/-! ## Administrators

`adminGuard` is what other transactions are bound to while a lock is held: a locked row does
not change, and while the advisory lock is held no enabled administrator ceases to be one.
It is all the proof knows of them, so that each call can be looked at alone. -/

/-- An enabled user with role admin. -/
def UserStore.Admin (s : UserStore) (id : UUID) : Prop :=
  ∃ row, s.users.find? id = some row ∧ row.enabledAdmin = true

def UserStore.OnlyAdmin (s : UserStore) (id : UUID) : Prop :=
  s.Admin id ∧ ∀ other, s.Admin other → other = id

/-- The database keeps an administrator if it has one. -/
def AdminKept (s s' : UserStore) : Prop := (∃ id, s.Admin id) → ∃ id, s'.Admin id

/-- What the holder of a lock can expect of the others. -/
def adminGuard : UserKey → UserStore → UserStore → Prop
  | .user id, s, s' => s'.users.find? id = s.users.find? id
  | .advisory n, s, s' => n = adminLock → ∀ id, s.Admin id → s'.Admin id
  | .username _, _, _ => True
  | .session _, _, _ => True

/-- A refusal names the only administrator there is. -/
def adminDecided (server : Server) (call : UserCall) (e : Ending UserReply) (s : UserStore) :
    Prop :=
  ∀ userID, call.refusedFor e = some userID → ∃ id, server.uuid userID = some id ∧ s.OnlyAdmin id

theorem AdminKept.refl (s : UserStore) : AdminKept s s := id

theorem AdminKept.trans (s s' s'' : UserStore) (h : AdminKept s s') (h' : AdminKept s' s'') :
    AdminKept s s'' := h' ∘ h

theorem isGuard_adminGuard : IsGuard adminGuard where
  refl := by
    intro key s
    cases key with
    | user id => rfl
    | username name => trivial
    | session tokenHash => trivial
    | advisory n => exact fun _ _ h => h
  trans := by
    intro key s s' s'' h h'
    cases key with
    | user id => exact h'.trans h
    | username name => trivial
    | session tokenHash => trivial
    | advisory n => exact fun hn id hid => h' hn id (h hn id hid)

section Rows

variable {locked : UserKey → Prop} {writes : List UserWrite} {s s' : UserStore} {id : UUID}

theorem UserStore.Admin.congr (hrow : s'.users.find? id = s.users.find? id) (h : s.Admin id) :
    s'.Admin id := by
  obtain ⟨row, hfound, hadmin⟩ := h
  exact ⟨row, hrow.trans hfound, hadmin⟩

/-- A row as the transaction sees it follows from the committed one and the writes. -/
theorem find?_applyAll_congr (writes : List UserWrite)
    (h : s'.users.find? id = s.users.find? id) :
    (applyAll s' writes).users.find? id = (applyAll s writes).users.find? id := by
  induction writes generalizing s s' with
  | nil => exact h
  | cons w writes ih =>
    refine ih ?_
    cases w with
    | user row =>
      change (s'.users.put row).find? id = (s.users.put row).find? id
      rw [Table.find?_put, Table.find?_put, h]
    | unuser id' =>
      change (s'.users.erase id').find? id = (s.users.erase id').find? id
      rw [Table.find?_erase, Table.find?_erase, h]
    | session row => exact h
    | unsession tokenHash => exact h

theorem find?_applyAll_of_not (h : ∀ w ∈ writes, w.key ≠ .user id) :
    (applyAll s writes).users.find? id = s.users.find? id :=
  users.find?_row _ _ id (row_applyAll h)

theorem find?_concat_of_ne {w : UserWrite} (h : w.key ≠ .user id) :
    (applyAll s (writes ++ [w])).users.find? id = (applyAll s writes).users.find? id := by
  rw [applyAll_append]
  exact users.find?_row _ _ id (RowStore.row_apply _ _ _ h)

theorem find?_concat_user (row : UserCredential) :
    (applyAll s (writes ++ [.user row])).users.find? row.id = some row := by
  rw [applyAll_append]
  change ((applyAll s writes).users.put row).find? row.id = some row
  rw [Table.find?_put]
  exact if_pos rfl

end Rows

/-! ## The two kinds of transaction

Most calls only ever write rows that keep or gain an enabled administrator (`Mild`). An
update or a deletion may take one away (`Demoting`), and then it holds the advisory lock and
has counted another one. A password reset is mild: the role and the enabled flag stay. -/

/-- A transaction writes only users it has locked. -/
def OwnsUsers (locked : UserKey → Prop) (writes : List UserWrite) : Prop :=
  ∀ w ∈ writes, ∀ id, w.key = .user id → locked (.user id)

/-- Every enabled administrator is one after the writes. -/
structure Mild (locked : UserKey → Prop) (writes : List UserWrite) (s : UserStore) : Prop where
  owns : OwnsUsers locked writes
  admins : ∀ id, s.Admin id → (applyAll s writes).Admin id

/-- Only `id` is written, and another enabled administrator is there to stay. -/
structure Demoting (id : UUID) (locked : UserKey → Prop) (writes : List UserWrite)
    (s : UserStore) : Prop where
  owns : OwnsUsers locked writes
  lock : locked (.advisory adminLock)
  only : ∀ w ∈ writes, ∀ id', w.key = .user id' → id' = id
  other : ∃ other, other ≠ id ∧ s.Admin other

section Kinds

variable {locked locked' : UserKey → Prop} {writes : List UserWrite} {s s' : UserStore} {id : UUID}

theorem OwnsUsers.mono (h : OwnsUsers locked writes) (hle : ∀ key, locked key → locked' key) :
    OwnsUsers locked' writes :=
  fun w hw id hid => hle _ (h w hw id hid)

theorem OwnsUsers.concat {w : UserWrite} (h : OwnsUsers locked writes)
    (hw : ∀ id, w.key = .user id → locked (.user id)) : OwnsUsers locked (writes ++ [w]) := by
  intro w' hw' id hid
  rcases List.mem_append.mp hw' with hold | hnew
  · exact h w' hold id hid
  · rw [List.mem_singleton.mp hnew] at hid
    exact hw id hid

/-- A row that is not locked is not written. -/
theorem OwnsUsers.find? (h : OwnsUsers locked writes) (hid : ¬ locked (.user id)) :
    (applyAll s writes).users.find? id = s.users.find? id :=
  find?_applyAll_of_not fun w hw heq => hid (h w hw id heq)

theorem Mild.nil (locked : UserKey → Prop) (s : UserStore) : Mild locked [] s :=
  ⟨fun _ hw => absurd hw List.not_mem_nil, fun _ h => h⟩

theorem lasts_mild : Lasts adminGuard Mild where
  later := by
    intro locked writes s s' h hlater
    refine ⟨h.owns, fun id hadmin => ?_⟩
    by_cases hid : locked (.user id)
    · have hrow : s'.users.find? id = s.users.find? id := hlater _ hid
      exact (h.admins id (hadmin.congr hrow.symm)).congr (find?_applyAll_congr writes hrow)
    · exact hadmin.congr (h.owns.find? hid)
  lock := fun _ _ _ _ h => ⟨h.owns.mono fun _ => Or.inr, h.admins⟩

theorem lasts_demoting (id : UUID) : Lasts adminGuard (Demoting id) where
  later := by
    intro locked writes s s' h hlater
    obtain ⟨other, hne, hadmin⟩ := h.other
    exact ⟨h.owns, h.lock, h.only, other, hne, hlater _ h.lock rfl other hadmin⟩
  lock := fun _ _ _ _ h => ⟨h.owns.mono fun _ => Or.inr, Or.inr h.lock, h.only, h.other⟩

/-- A commit of either kind is one the others are prepared for. -/
theorem Mild.settles {result : UserReply} (h : Mild locked writes s) :
    Settles adminGuard AdminKept (.commit result) locked writes s := by
  intro s' hlater
  have h' := lasts_mild.later _ _ _ _ h hlater
  refine ⟨fun ⟨id, hid⟩ => ⟨id, h'.admins id hid⟩, fun key hkey => ?_⟩
  cases key with
  | user id => exact h'.owns.find? hkey
  | username name => trivial
  | session tokenHash => trivial
  | advisory n => exact fun _ => h'.admins

theorem Demoting.settles {result : UserReply} (h : Demoting id locked writes s) :
    Settles adminGuard AdminKept (.commit result) locked writes s := by
  intro s' hlater
  have h' := (lasts_demoting id).later _ _ _ _ h hlater
  refine ⟨fun _ => ?_, fun key hkey => ?_⟩
  · obtain ⟨other, hne, hadmin⟩ := h'.other
    exact ⟨other, hadmin.congr (find?_applyAll_of_not fun w hw heq => hne (h'.only w hw _ heq))⟩
  · cases key with
    | user id => exact h'.owns.find? hkey
    | username name => trivial
    | session tokenHash => trivial
    | advisory n => exact fun hn => absurd (hn ▸ h'.lock) hkey

theorem Mild.putUser {row : UserCredential} (h : Mild locked writes s)
    (hlocked : locked (.user row.id))
    (hadmin : (applyAll s writes).Admin row.id → row.enabledAdmin = true) :
    Mild locked (writes ++ [.user row]) s := by
  refine ⟨h.owns.concat fun id hid => ?_, fun id hid => ?_⟩
  · cases hid
    exact hlocked
  · by_cases heq : row.id = id
    · subst heq
      exact ⟨row, find?_concat_user row, hadmin (h.admins _ hid)⟩
    · have hne : (UserWrite.user row).key ≠ .user id := fun hkey => heq (UserKey.user.inj hkey)
      exact (h.admins id hid).congr (find?_concat_of_ne hne)

/-- A write to no user. -/
theorem Mild.putOther {w : UserWrite} (h : Mild locked writes s) (hw : ∀ id, w.key ≠ .user id) :
    Mild locked (writes ++ [w]) s :=
  ⟨h.owns.concat fun id hid => absurd hid (hw id),
    fun id hid => (h.admins id hid).congr (find?_concat_of_ne (hw id))⟩

theorem Mild.unuser (h : Mild locked writes s) (hlocked : locked (.user id))
    (hadmin : ¬ (applyAll s writes).Admin id) : Mild locked (writes ++ [.unuser id]) s := by
  refine ⟨h.owns.concat fun id' hid => ?_, fun id' hid => ?_⟩
  · cases hid
    exact hlocked
  · have hne : (UserWrite.unuser id).key ≠ .user id' := by
      intro hkey
      obtain rfl : id = id' := UserKey.user.inj hkey
      exact hadmin (h.admins _ hid)
    exact (h.admins id' hid).congr (find?_concat_of_ne hne)

theorem Demoting.put {w : UserWrite} (h : Demoting id locked writes s)
    (hw : ∀ id', w.key = .user id' → id' = id ∧ locked (.user id)) :
    Demoting id locked (writes ++ [w]) s := by
  refine ⟨h.owns.concat fun id' hid => ?_, h.lock, fun w' hw' id' hid => ?_, h.other⟩
  · obtain ⟨rfl, hlocked⟩ := hw id' hid
    exact hlocked
  · rcases List.mem_append.mp hw' with hold | hnew
    · exact h.only w' hold id' hid
    · rw [List.mem_singleton.mp hnew] at hid
      exact (hw id' hid).1

/-- What a transaction knows of a user it has locked. -/
def Knows (id : UUID) (p : UserCredential → Prop) (locked : UserKey → Prop)
    (writes : List UserWrite) (s : UserStore) : Prop :=
  locked (.user id) ∧ ∀ row, (applyAll s writes).users.find? id = some row → p row

theorem lasts_knows {p : UserCredential → Prop} : Lasts adminGuard (Knows id p) where
  later := by
    intro locked writes s s' h hlater
    refine ⟨h.1, fun row hrow => h.2 row ?_⟩
    exact (find?_applyAll_congr writes (hlater _ h.1)).symm.trans hrow
  lock := fun _ _ _ _ h => ⟨Or.inr h.1, h.2⟩

theorem Knows.putOther {p : UserCredential → Prop} {w : UserWrite} (h : Knows id p locked writes s)
    (hw : w.key ≠ .user id) : Knows id p locked (writes ++ [w]) s :=
  ⟨h.1, fun row hrow => h.2 row ((find?_concat_of_ne hw).symm.trans hrow)⟩

end Kinds

/-! ## Statements

For mild transactions each statement is one rule. Deleting sessions is stated for any
invariant that survives the removal of a session, since both kinds of transaction do it. -/

section Statements

variable {locked : UserKey → Prop} {writes : List UserWrite} {s : UserStore}

theorem secure_insertUser {server : Server} {row : UserCredential} (h : Mild locked writes s) :
    Secure adminGuard (fun _ => Mild) (insertUser server row) locked writes s := by
  unfold insertUser
  split
  · exact h
  refine secure_acquire fun s₁ h₁ => secure_acquire fun s₂ h₂ => secure_read fun s₃ h₃ => ?_
  have hmild : Mild _ writes s₃ := lasts_mild.later _ _ _ _ (lasts_mild.lock _ _ _ _
    (lasts_mild.later _ _ _ _ (lasts_mild.lock _ _ _ (.user row.id)
      (lasts_mild.later _ _ _ _ h h₁)) h₂)) h₃
  split
  · exact hmild
  · rename_i hfree
    refine secure_put fun s₄ h₄ => lasts_mild.later _ _ _ _
      (hmild.putUser (Or.inr (Or.inl rfl)) ?_) h₄
    -- there is no row under the new id
    rintro ⟨other, hother, _⟩
    refine absurd (List.any_eq_true.mpr ⟨other, Table.mem_of_find? hother, ?_⟩) hfree
    have hid : other.key = row.id := Table.key_of_find? hother
    simp [show other.id = row.id from hid]

/-- `DELETE FROM auth_sessions`, for any invariant that looks at no session. -/
theorem secure_deleteSessions {p : AuthSession → Bool}
    {inv : (UserKey → Prop) → List UserWrite → UserStore → Prop} (hlasts : Lasts adminGuard inv)
    (hput : ∀ locked writes s tokenHash, inv locked writes s →
      inv locked (writes ++ [.unsession tokenHash]) s) (h : inv locked writes s) :
    Secure adminGuard (fun _ => inv) (deleteSessions p) locked writes s := by
  have heach : ∀ (tokens : List String) (locked : UserKey → Prop) (writes : List UserWrite)
      (s : UserStore), inv locked writes s →
        Secure adminGuard (fun _ => inv) (deleteEachSession p tokens) locked writes s := by
    intro tokens
    induction tokens with
    | nil => exact fun _ _ _ h => h
    | cons tokenHash rest ih =>
      intro locked writes s h
      unfold deleteEachSession
      refine secure_acquire fun s₁ h₁ => secure_read fun s₂ h₂ => ?_
      have hinv := hlasts.later _ _ _ _
        (hlasts.lock _ _ _ (.session tokenHash) (hlasts.later _ _ _ _ h h₁)) h₂
      split
      · exact ih _ _ _ hinv
      · split
        · exact secure_put fun s₃ h₃ => ih _ _ _
            (hlasts.later _ _ _ _ (hput _ _ _ tokenHash hinv) h₃)
        · exact ih _ _ _ hinv
  unfold deleteSessions
  exact secure_read fun s₁ h₁ => heach _ _ _ _ (hlasts.later _ _ _ _ h h₁)

theorem secure_deleteSessions_mild {p : AuthSession → Bool} (h : Mild locked writes s) :
    Secure adminGuard (fun _ => Mild) (deleteSessions p) locked writes s :=
  secure_deleteSessions lasts_mild
    (fun _ _ _ _ h => h.putOther fun _ hkey => by cases hkey) h

theorem secure_insertSession {row : AuthSession} (h : Mild locked writes s) :
    Secure adminGuard (fun _ => Mild) (insertSession row) locked writes s := by
  unfold insertSession
  split
  · exact h
  refine secure_acquire fun s₁ h₁ => secure_read fun s₂ h₂ => ?_
  have hmild := lasts_mild.later _ _ _ _ (lasts_mild.lock _ _ _ (.session row.tokenHash)
    (lasts_mild.later _ _ _ _ h h₁)) h₂
  split
  · exact hmild
  refine secure_read fun s₃ h₃ => ?_
  have hmild' := lasts_mild.later _ _ _ _ hmild h₃
  split
  · exact hmild'
  · exact secure_put fun s₄ h₄ => lasts_mild.later _ _ _ _
      (hmild'.putOther fun _ hkey => by cases hkey) h₄

/-- An `UPDATE` that makes no administrator less than one. -/
theorem secure_updateUsers {p : UserCredential → Bool} {f : UserCredential → UserCredential}
    (hf : ∀ row, (f row).key = row.key)
    (hadmin : ∀ row, row.enabledAdmin = true → (f row).enabledAdmin = true)
    (h : Mild locked writes s) :
    Secure adminGuard (fun _ => Mild) (users.updateWhere p f) locked writes s := by
  refine secure_updateWhere users lasts_mild (fun locked writes s row h hlocked hseen _ => ?_) h
  have hid : (f row).id = row.id := hf row
  refine h.putUser (hid ▸ hlocked) fun ⟨seen, hfound, hseenAdmin⟩ => hadmin row ?_
  rw [hid] at hfound
  rw [Option.some.inj (hseen.symm.trans hfound)]
  exact hseenAdmin

end Statements

/-! ## The count

`countAdmins` counts rows, the claim is about ids. With ids unique, a count of at most one
beside an enabled administrator means that there is no other, and a larger count that there
is. -/

section Count

variable {s : UserStore} {id : UUID} {row : UserCredential}

theorem admin_iff_mem : s.Admin id ↔
    ∃ row ∈ s.users.rows.filter UserCredential.enabledAdmin, row.id = id := by
  constructor
  · rintro ⟨row, hfound, hadmin⟩
    have hid : row.key = id := Table.key_of_find? hfound
    exact ⟨row, List.mem_filter.mpr ⟨Table.mem_of_find? hfound, hadmin⟩, hid⟩
  · rintro ⟨row, hmem, rfl⟩
    obtain ⟨hrow, hadmin⟩ := List.mem_filter.mp hmem
    exact ⟨row, Table.find?_key hrow, hadmin⟩

theorem onlyAdmin_of_count (h : s.users.find? id = some row) (hadmin : row.enabledAdmin = true)
    (hcount : countAdmins s ≤ 1) : s.OnlyAdmin id := by
  refine ⟨⟨row, h, hadmin⟩, fun other hother => ?_⟩
  rw [countAdmins, List.countP_eq_length_filter] at hcount
  obtain ⟨row', hrow', rfl⟩ := admin_iff_mem.mp hother
  obtain ⟨row'', hrow'', rfl⟩ := admin_iff_mem.mp ⟨row, h, hadmin⟩
  rcases hadmins : s.users.rows.filter UserCredential.enabledAdmin with _ | ⟨first, _ | ⟨_, _⟩⟩
  · rw [hadmins] at hrow'
    cases hrow'
  · rw [hadmins] at hrow' hrow''
    rw [List.mem_singleton.mp hrow', List.mem_singleton.mp hrow'']
  · rw [hadmins] at hcount
    simp at hcount

theorem other_of_count (h : s.users.find? id = some row)
    (hcount : ¬ countAdmins s ≤ 1) : ∃ other, other ≠ id ∧ s.Admin other := by
  by_contra hnone
  refine hcount ?_
  have hall : ∀ row' ∈ s.users.rows.filter UserCredential.enabledAdmin, row' = row := by
    intro row' hrow'
    obtain ⟨hmem, _⟩ := List.mem_filter.mp hrow'
    have hid : row'.id = id := by
      by_contra hne
      exact hnone ⟨_, hne, admin_iff_mem.mpr ⟨row', hrow', rfl⟩⟩
    exact Table.eq_of_key hmem (Table.mem_of_find? h) (hid.trans (Table.key_of_find? h).symm)
  have hnodup : (s.users.rows.filter UserCredential.enabledAdmin).Nodup :=
    s.users.nodup.of_map.filter _
  rw [countAdmins, List.countP_eq_length_filter]
  exact hnodup.length_le_of_subset fun row' hrow' => List.mem_singleton.mpr (hall row' hrow')

end Count

/-! ## The calls, one by one

`updateUser` and `deleteUser` share the pattern lock, read the target, count, write;
`secure_target` and `secure_lastAdmin` are its two halves. The refusal is decided by the
count under the lock, and that the answer says so is the second half of `Finishes`. -/

section Calls

variable {server : Server} {locked : UserKey → Prop} {writes : List UserWrite} {s : UserStore}

/-- The end of a call: it settles, and what it decides is so. -/
def Finishes (server : Server) (call : UserCall) (e : Ending UserReply) (locked : UserKey → Prop)
    (writes : List UserWrite) (s : UserStore) : Prop :=
  Settles adminGuard AdminKept e locked writes s ∧ adminDecided server call e s

theorem finishes_commit {call : UserCall} {result : UserReply}
    (h : Settles adminGuard AdminKept (.commit result) locked writes s) :
    Finishes server call (.commit result) locked writes s := by
  refine ⟨h, fun userID hrefused => ?_⟩
  cases call <;> cases hrefused

theorem finishes_rollback {call : UserCall} {result : UserReply}
    (h : call.refusedFor (.rollback result) = none) :
    Finishes server call (.rollback result) locked writes s :=
  ⟨trivial, fun userID hrefused => by cases h.symm.trans hrefused⟩

theorem ensureBootstrapAdmin_secure (now : Timestamp) (id : UUID)
    (username displayName passwordHash : String) :
    Secure adminGuard
      (Finishes server (.ensureBootstrapAdmin now id username displayName passwordHash))
      ((UserCall.ensureBootstrapAdmin now id username displayName passwordHash).program server)
      (fun _ => False) [] s := by
  unfold UserCall.program Users.ensureBootstrapAdmin
  refine secure_bind.mpr (secure_acquire fun s₁ h₁ => secure_read fun s₂ h₂ => ?_)
  split
  · refine secure_bind.mpr ((secure_insertUser (.nil _ _)).weaken fun failed locked writes s h => ?_)
    split
    · exact finishes_rollback rfl
    · exact finishes_commit h.settles
  · exact finishes_commit (Mild.nil _ _).settles

theorem createUser_secure (now : Timestamp) (id : UUID) (input : CreateUserRequest)
    (passwordHash : String) :
    Secure adminGuard (Finishes server (.createUser now id input passwordHash))
      ((UserCall.createUser now id input passwordHash).program server) (fun _ => False) [] s := by
  unfold UserCall.program Users.createUser
  refine secure_bind.mpr (secure_bind.mpr
    ((secure_insertUser (.nil _ _)).weaken fun failed locked writes s h => ?_))
  split
  · exact finishes_rollback rfl
  · exact finishes_commit h.settles

theorem resetUserPassword_secure (now : Timestamp) (userID passwordHash : String) :
    Secure adminGuard (Finishes server (.resetUserPassword now userID passwordHash))
      ((UserCall.resetUserPassword now userID passwordHash).program server) (fun _ => False) []
      s := by
  unfold UserCall.program Users.resetUserPassword
  refine secure_bind.mpr ?_
  split
  · exact finishes_rollback rfl
  split
  · exact finishes_rollback rfl
  refine secure_bind.mpr ((secure_updateUsers (UserCredential.key_reset now passwordHash)
    (fun _ h => h) (.nil _ _)).weaken fun rows locked writes s h => ?_)
  split
  · exact finishes_rollback rfl
  · exact secure_bind.mpr ((secure_deleteSessions_mild h).weaken
      fun _ locked writes s h => finishes_commit h.settles)

theorem createAuthSession_secure (now : Timestamp) (tokenHash userID : String)
    (expiresAt : Timestamp) :
    Secure adminGuard (Finishes server (.createAuthSession now tokenHash userID expiresAt))
      ((UserCall.createAuthSession now tokenHash userID expiresAt).program server)
      (fun _ => False) [] s := by
  unfold UserCall.program Users.createAuthSession
  refine secure_bind.mpr (secure_bind.mpr
    ((secure_deleteSessions_mild (.nil _ _)).weaken fun _ locked writes s h => ?_))
  split
  · exact finishes_rollback rfl
  refine secure_bind.mpr ((secure_insertSession h).weaken fun failed locked writes s h => ?_)
  split
  · exact finishes_rollback rfl
  · exact secure_bind.mpr ((secure_updateUsers (UserCredential.key_login now) (fun _ h => h)
      h).weaken fun _ locked writes s h => finishes_commit h.settles)

/-- The two calls that may take an administrator away, up to where they know their target. -/
theorem secure_target {id : UUID} {β : Type} {next : Option UserCredential → Program β}
    {post : β → (UserKey → Prop) → List UserWrite → UserStore → Prop}
    (hlocked : locked (.advisory adminLock))
    (hnone : ∀ locked s, Secure adminGuard post (next none) locked [] s)
    (hsome : ∀ current locked s, locked (.advisory adminLock) →
      Knows id (fun row => row = current) locked [] s → s.users.find? id = some current →
      Secure adminGuard post (next (some current)) locked [] s) :
    Secure adminGuard post ((users.selectForUpdate id).bind next) locked [] s := by
  have hlasts : Lasts adminGuard fun (locked : UserKey → Prop) (writes : List UserWrite)
      (_ : UserStore) => writes = [] ∧ locked (.advisory adminLock) :=
    ⟨fun _ _ _ _ h _ => h, fun _ _ _ _ h => ⟨h.1, Or.inr h.2⟩⟩
  refine secure_bind.mpr ((secure_selectForUpdate users hlasts ⟨rfl, hlocked⟩).weaken ?_)
  rintro row locked writes s ⟨⟨rfl, hlocked⟩, hrow⟩
  cases row with
  | none => exact hnone locked s
  | some current =>
    obtain ⟨hheld, hfound⟩ := hrow current rfl
    exact hsome current locked s hlocked
      ⟨hheld, fun row hrow => Option.some.inj (hrow.symm.trans hfound)⟩ hfound

/-- The check: refused because there is no other, or free to go on. -/
theorem secure_lastAdmin {id : UUID} {current : UserCredential} {leaves : Bool} {β : Type}
    {next : Bool → Program β} {post : β → (UserKey → Prop) → List UserWrite → UserStore → Prop}
    (hlocked : locked (.advisory adminLock)) (hknows : Knows id (fun row => row = current) locked [] s)
    (hfound : s.users.find? id = some current)
    (hrefused : ∀ s', s'.OnlyAdmin id → Secure adminGuard post (next true) locked [] s')
    (hstays : current.enabledAdmin = false ∨ leaves = false →
      Secure adminGuard post (next false) locked [] s)
    (hdemotes : ∀ s', Demoting id locked [] s' → locked (.user id) →
      Secure adminGuard post (next false) locked [] s') :
    Secure adminGuard post ((lastAdmin current leaves).bind next) locked [] s := by
  unfold lastAdmin
  split
  · rename_i hcheck
    obtain ⟨hadmin, _⟩ := (Bool.and_eq_true ..).mp hcheck
    refine secure_read fun s' hlater => ?_
    have hrow : s'.users.find? id = some current := (hlater _ hknows.1).trans hfound
    by_cases hcount : countAdmins s' ≤ 1
    · have hdec : decide (countAdmins (applyAll s' []) ≤ 1) = true := decide_eq_true hcount
      change Secure adminGuard post (next _) locked [] s'
      rw [hdec]
      exact hrefused s' (onlyAdmin_of_count hrow hadmin hcount)
    · have hdec : decide (countAdmins (applyAll s' []) ≤ 1) = false := decide_eq_false hcount
      change Secure adminGuard post (next _) locked [] s'
      rw [hdec]
      exact hdemotes s' ⟨fun _ hw => absurd hw List.not_mem_nil, hlocked,
        fun _ hw => absurd hw List.not_mem_nil, other_of_count hrow hcount⟩ hknows.1
  · rename_i hcheck
    exact hstays (by simpa [← Bool.not_eq_true, or_iff_not_imp_left] using hcheck)

/-- From the check on, for any invariant that the writes keep and that a commit settles. -/
theorem updateUserRow_secure {now : Timestamp} {userID : String} {id : UUID}
    {input : UpdateUserRequest} {current : UserCredential}
    {inv : (UserKey → Prop) → List UserWrite → UserStore → Prop} (hlasts : Lasts adminGuard inv)
    (hrow : ∀ locked writes s row, inv locked writes s → locked (.user id) →
      (applyAll s writes).users.find? id = some row → row.key = id →
      inv locked (writes ++ [.user (row.update now input)]) s)
    (hsession : ∀ locked writes s tokenHash, inv locked writes s →
      inv locked (writes ++ [.unsession tokenHash]) s)
    (hsettles : ∀ locked writes s (result : UserReply), inv locked writes s →
      Settles adminGuard AdminKept (.commit result) locked writes s)
    (h : inv locked writes s) :
    Secure adminGuard (fun e => Finishes server (.updateUser now userID input) (e.map .user))
      (updateUserRow now id input current) locked writes s := by
  unfold updateUserRow
  split
  · exact finishes_rollback rfl
  refine secure_bind.mpr ((secure_updateWhere users hlasts
    (fun locked writes s row h hlocked hseen hp => ?_) h).weaken fun rows locked writes s h => ?_)
  · obtain rfl : row.key = id := of_decide_eq_true hp
    exact hrow _ _ _ _ h hlocked hseen rfl
  split
  · exact finishes_rollback rfl
  · split
    · exact finishes_commit (hsettles _ _ _ _ h)
    · exact secure_bind.mpr ((secure_deleteSessions hlasts hsession h).weaken
        fun _ locked writes s h => finishes_commit (hsettles _ _ _ _ h))

theorem updateUser_secure (now : Timestamp) (userID : String) (input : UpdateUserRequest) :
    Secure adminGuard (Finishes server (.updateUser now userID input))
      ((UserCall.updateUser now userID input).program server) (fun _ => False) [] s := by
  unfold UserCall.program Users.updateUser
  refine secure_bind.mpr (secure_acquire fun s₁ h₁ => ?_)
  split
  · exact finishes_rollback rfl
  rename_i id huuid
  refine secure_target (Or.inl rfl) (fun _ _ => finishes_rollback rfl)
    fun current locked s hlocked hknows hfound => ?_
  refine secure_lastAdmin hlocked hknows hfound (fun s' honly => ?_) (fun hstays => ?_)
    fun s' hdemoting hheld => ?_
  · refine ⟨trivial, fun userID' hrefused => ⟨id, ?_, honly⟩⟩
    obtain rfl : userID = userID' := by simpa [UserCall.refusedFor, Ending.map] using hrefused
    exact huuid
  · -- nobody stops being an enabled administrator
    refine updateUserRow_secure (lasts_mild.and (lasts_knows (p := fun row =>
      row.enabledAdmin = true → input.role = roleAdmin ∧ input.enabled = true))) ?_ ?_
      (fun _ _ _ _ h => h.1.settles) ⟨.nil _ _, hknows.1, fun row hrow hadmin => ?_⟩
    · rintro locked writes s row ⟨hmild, hheld, hrole⟩ _ hseen rfl
      refine ⟨hmild.putUser hheld fun ⟨seen, hfound, hadmin⟩ => ?_, hheld, fun row' hrow' hadmin => ?_⟩
      · obtain ⟨hadminRole, henabled⟩ := hrole seen hfound hadmin
        simp [UserCredential.enabledAdmin, UserCredential.update, hadminRole, henabled]
      · obtain rfl := Option.some.inj ((find?_concat_user (row.update now input)).symm.trans hrow')
        obtain ⟨hrole', henabled⟩ := (Bool.and_eq_true ..).mp hadmin
        exact ⟨of_decide_eq_true hrole', henabled⟩
    · rintro locked writes s tokenHash ⟨hmild, hknown⟩
      exact ⟨hmild.putOther (fun _ hkey => by cases hkey), hknown.putOther fun hkey => by cases hkey⟩
    · obtain rfl := hknows.2 row hrow
      rcases hstays with hnot | hstays
      · cases hnot.symm.trans hadmin
      · simpa using hstays
  · refine updateUserRow_secure (lasts_demoting id) ?_ ?_ (fun _ _ _ _ h => h.settles)
      hdemoting
    · rintro locked writes s row h hheld _ rfl
      exact h.put fun id' hkey => ⟨(UserKey.user.inj hkey).symm, hheld⟩
    · exact fun _ _ _ _ h => h.put fun _ hkey => by cases hkey

/-- `deleteUserRow`, likewise. -/
theorem deleteUserRow_secure {userID : String} {id : UUID}
    {inv : (UserKey → Prop) → List UserWrite → UserStore → Prop} (hlasts : Lasts adminGuard inv)
    (hrow : ∀ locked writes s, inv locked writes s → locked (.user id) →
      inv locked (writes ++ [.unuser id]) s)
    (hsession : ∀ locked writes s tokenHash, inv locked writes s →
      inv locked (writes ++ [.unsession tokenHash]) s)
    (hsettles : ∀ locked writes s (result : UserReply), inv locked writes s →
      Settles adminGuard AdminKept (.commit result) locked writes s)
    (h : inv locked writes s) :
    Secure adminGuard (fun _ => Finishes server (.deleteUser userID) (.commit (.unit (.ok ()))))
      (deleteUserRow id) locked writes s := by
  unfold deleteUserRow
  refine secure_bind.mpr ((secure_selectForUpdate users hlasts h).weaken ?_)
  rintro row locked writes s ⟨h, hfound⟩
  cases row with
  | none => exact finishes_commit (hsettles _ _ _ _ h)
  | some row =>
    refine secure_put fun s' hlater => ?_
    have hinv := hlasts.later _ _ _ _ (hrow _ _ _ h (hfound row rfl).1) hlater
    exact (secure_deleteSessions hlasts hsession hinv).weaken
      fun _ locked writes s h => finishes_commit (hsettles _ _ _ _ h)

theorem deleteUser_secure (userID : String) :
    Secure adminGuard (Finishes server (.deleteUser userID))
      ((UserCall.deleteUser userID).program server) (fun _ => False) [] s := by
  unfold UserCall.program Users.deleteUser
  refine secure_bind.mpr (secure_acquire fun s₁ h₁ => ?_)
  split
  · exact finishes_rollback rfl
  rename_i id huuid
  refine secure_target (Or.inl rfl) (fun _ _ => finishes_rollback rfl)
    fun current locked s hlocked hknows hfound => ?_
  refine secure_lastAdmin hlocked hknows hfound (fun s' honly => ?_) (fun hstays => ?_)
    fun s' hdemoting hheld => ?_
  · refine ⟨trivial, fun userID' hrefused => ⟨id, ?_, honly⟩⟩
    obtain rfl : userID = userID' := by simpa [UserCall.refusedFor, Ending.map] using hrefused
    exact huuid
  · -- the target is no enabled administrator
    refine secure_bind.mpr (deleteUserRow_secure (lasts_mild.and
      (lasts_knows (p := fun row => ¬ row.enabledAdmin = true))) ?_ ?_
      (fun _ _ _ _ h => h.1.settles) ⟨.nil _ _, hknows.1, fun row hrow hadmin => ?_⟩)
    · rintro locked writes s ⟨hmild, hheld, hnot⟩ _
      refine ⟨hmild.unuser hheld fun ⟨row, hrow, hadmin⟩ => hnot row hrow hadmin, hheld,
        fun row hrow => ?_⟩
      rw [applyAll_append] at hrow
      change ((applyAll s writes).users.erase id).find? id = some row at hrow
      rw [Table.find?_erase, if_pos rfl] at hrow
      cases hrow
    · rintro locked writes s tokenHash ⟨hmild, hknown⟩
      exact ⟨hmild.putOther (fun _ hkey => by cases hkey), hknown.putOther fun hkey => by cases hkey⟩
    · obtain rfl := hknows.2 row hrow
      rcases hstays with hnot | hstays
      · cases hnot.symm.trans hadmin
      · cases hstays
  · refine secure_bind.mpr (deleteUserRow_secure (lasts_demoting id) ?_ ?_
      (fun _ _ _ _ h => h.settles) hdemoting)
    · exact fun _ _ _ h hheld => h.put fun id' hkey => ⟨(UserKey.user.inj hkey).symm, hheld⟩
    · exact fun _ _ _ _ h => h.put fun _ hkey => by cases hkey

theorem userCall_secure (server : Server) (call : UserCall) (s : UserStore) :
    Secure adminGuard (fun e locked writes s =>
      Settles adminGuard AdminKept e locked writes s ∧ adminDecided server call e s)
      (call.program server) (fun _ => False) [] s := by
  cases call with
  | ensureBootstrapAdmin now id username displayName passwordHash =>
    exact ensureBootstrapAdmin_secure now id username displayName passwordHash
  | createUser now id input passwordHash => exact createUser_secure now id input passwordHash
  | updateUser now userID input => exact updateUser_secure now userID input
  | resetUserPassword now userID passwordHash =>
    exact resetUserPassword_secure now userID passwordHash
  | deleteUser userID => exact deleteUser_secure userID
  | createAuthSession now tokenHash userID expiresAt =>
    exact createAuthSession_secure now tokenHash userID expiresAt

end Calls

/-! ## Runs -/

section Runs

variable {ι : Type} [DecidableEq ι]

/-- Any number of clients, on any database. -/
def userRun (server : Server) (db : UserStore) (acts : List (Act ι UserCall)) :
    System ι UserStore UserKey UserWrite UserCall UserReply :=
  (System.initial db).play (UserCall.program server) acts

/-- **The last administrator.** Once there is an enabled administrator, there is one in every later
database. A call that ends refused for the sake of the last one was decided at a moment, with its
transaction open since, when its target was the only one. -/
theorem last_admin_kept (server : Server) (db : UserStore) (acts : List (Act ι UserCall)) :
    (∀ later, (∃ id, (userRun server db acts).db.Admin id) →
      ∃ id, (userRun server db (acts ++ later)).db.Admin id) ∧
    ∀ a e userID, ((userRun server db acts).act (UserCall.program server) a).2 = some e →
      e.call.refusedFor e.ending = some userID →
      ∃ before since id, acts = before ++ since ∧ server.uuid userID = some id ∧
        (userRun server db before).db.OnlyAdmin id ∧
        ∀ acts', acts' <+: since → ∃ session,
          (userRun server db (before ++ acts')).sessions a.client = some session ∧
            session.call = e.call ∧ session.prog = .done e.ending := by
  constructor
  · intro later
    have hguarded : (userRun server db acts).Guarded adminGuard AdminKept (adminDecided server) :=
      ((System.Guarded.initial db).play isGuard_adminGuard .refl .trans (userCall_secure server) acts).1
    have happend : userRun server db (acts ++ later) =
        (userRun server db acts).play (UserCall.program server) later := List.foldl_append
    rw [happend]
    exact (hguarded.play isGuard_adminGuard .refl .trans (userCall_secure server) later).2
  · intro a e userID hended hrefused
    obtain ⟨session, hsession, hcall, hdone⟩ := System.act_ending hended
    obtain ⟨before, since, hacts, hdecided, hopen⟩ := System.decided_since isGuard_adminGuard .refl
      .trans (userCall_secure server) db hsession hdone
    obtain ⟨id, huuid, honly⟩ := hdecided userID (hcall ▸ hrefused)
    exact ⟨before, since, id, hacts, huuid, honly, fun acts' hacts' =>
      ⟨session, hopen acts' hacts', hcall.symm, hdone⟩⟩

def twoAdminsServer : Server where
  toPostgres := .withoutAddresses fun text =>
    if text = "11111111-1111-4111-9111-111111111111" then some 1
    else if text = "22222222-2222-4222-a222-222222222222" then some 2
    else none
  lower := String.toLower
  toLower := String.toLower

def twoAdmins : UserStore where
  users := ⟨[newUser 1 "admin" "Administrator" "$2a$10$" roleAdmin 0,
    newUser 2 "second" "Second" "$2a$10$" roleAdmin 0], by decide⟩
  sessions := .empty

/-- One client disables the first administrator, the other deletes the second one meanwhile. -/
def bothLeave : List (Act Bool UserCall) :=
  [.send true (.updateUser 5 "11111111-1111-4111-9111-111111111111"
      ⟨"Administrator", roleAdmin, false⟩),
    .send false (.deleteUser "22222222-2222-4222-a222-222222222222"),
    .step true, .step false] ++ List.replicate 10 (.step true) ++ List.replicate 5 (.step false)

theorem last_admin_kept_bothLeave :
    (∃ id, (userRun twoAdminsServer twoAdmins bothLeave).db.Admin id) ∧
    ∃ before since id, bothLeave = before ++ since ∧
      twoAdminsServer.uuid "22222222-2222-4222-a222-222222222222" = some id ∧
      (userRun twoAdminsServer twoAdmins before).db.OnlyAdmin id := by
  refine ⟨(last_admin_kept twoAdminsServer twoAdmins []).1 bothLeave ⟨1, _, rfl, rfl⟩, ?_⟩
  obtain ⟨before, since, id, hacts, huuid, honly, _⟩ :=
    (last_admin_kept twoAdminsServer twoAdmins bothLeave).2 (.step false)
      ⟨.deleteUser "22222222-2222-4222-a222-222222222222",
        .rollback (.unit (.error lastAdminDelete))⟩
      "22222222-2222-4222-a222-222222222222" rfl (by decide)
  exact ⟨before, since, id, hacts, huuid, honly⟩

end Runs

end Cfscan.Users
