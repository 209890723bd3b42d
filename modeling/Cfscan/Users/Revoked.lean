import Cfscan.Users.Login

/-!
# Revoked sessions

Resetting a password and disabling a user delete the sessions the user has at that moment. A login
that has compared the password and not yet inserted its session has none, and what it inserts
afterwards stays (`revocation_missed`). It is the only gap: where no login inserts a session for a
user who has been given another password, or has been disabled, since the comparison, every
session that is accepted goes back to a comparison with the present password, and to a user who
has been enabled ever since (`revocation_effective`).

`Undisturbed` speaks of what happens between two steps of a login, and leaves out this one order of
events and no other. The run that shows the gap has four acts.
-/

set_option autoImplicit false

namespace Cfscan.Users

open Cfscan.Lib Cfscan.Store AuthWorld

variable {ι : Type} [DecidableEq ι]

/-- A login that has passed: it compared the password right after `before`, and has not inserted
its session after `since`. -/
structure Passed (svc : AuthService) (accounts : Table UUID UserCredential UserCredential.key)
    (before since : List (AuthAct ι)) (client : ι) (password : String)
    (credential : UserCredential) : Prop where
  found : (play svc accounts before).logins client = .found password (.ok credential)
  right : svc.compare credential.passwordHash password = true
  waiting : (play svc accounts (before ++ .compare client :: since)).logins client =
    .compared credential

/-- The user has the password that was compared, and has been enabled since. -/
structure Unrevoked (svc : AuthService) (accounts : Table UUID UserCredential UserCredential.key)
    (before since : List (AuthAct ι)) (client : ι) (credential : UserCredential) : Prop where
  password : ∃ row, (play svc accounts (before ++ .compare client :: since)).db.users.find?
    credential.id = some row ∧ row.passwordHash = credential.passwordHash
  enabled : ∀ acts, acts <+: since → ∃ row,
    (play svc accounts (before ++ .compare client :: acts)).db.users.find? credential.id = some row ∧
      row.enabled = true

/-- A session that a login created, and whose user has not been revoked since it compared. -/
def Backed (svc : AuthService) (accounts : Table UUID UserCredential UserCredential.key)
    (acts : List (AuthAct ι)) (sess : AuthSession) : Prop :=
  ∃ before client password credential mid insert rest,
    acts = before ++ .compare client :: (mid ++ insert :: rest) ∧
      (∃ token clock now done, insert = .insert client (some token) clock now done ∧
        svc.hashToken token = sess.tokenHash) ∧
      credential.id = sess.userID ∧ Passed svc accounts before mid client password credential ∧
      (∃ result, (play svc accounts (before ++ .compare client :: (mid ++ [insert]))).logins client =
        .over (.ok result)) ∧
      (∀ acts', acts' <+: rest → sess ∈ (play svc accounts
        (before ++ .compare client :: (mid ++ insert :: acts'))).db.sessions.rows) ∧
      Unrevoked svc accounts before (mid ++ insert :: rest) client credential

/-- What a session is worth after some acts: whoever is let in by it is backed. -/
def RevocationEffective (svc : AuthService)
    (accounts : Table UUID UserCredential UserCredential.key) (acts : List (AuthAct ι)) : Prop :=
  ∀ now tokenHash user,
    getUserBySession (play svc accounts acts).db now tokenHash = .ok user →
    ∃ sess, (play svc accounts acts).db.sessions.find? tokenHash = some sess ∧
      sess.userID = user.id ∧ Backed svc accounts acts sess

/-- No login inserts its session after its user has been revoked. -/
def Undisturbed (svc : AuthService) (accounts : Table UUID UserCredential UserCredential.key)
    (acts : List (AuthAct ι)) : Prop :=
  ∀ before client password credential mid token clock now done rest,
    acts = before ++ .compare client :: (mid ++ .insert client (some token) clock now done :: rest) →
    Passed svc accounts before mid client password credential →
    Unrevoked svc accounts before mid client credential

section Steps

variable {svc : AuthService} {accounts : Table UUID UserCredential UserCredential.key}
  {acts before since : List (AuthAct ι)} {client : ι} {password : String}
  {credential : UserCredential} {sess : AuthSession} {a : AuthAct ι}

theorem Undisturbed.earlier {acts' : List (AuthAct ι)} (h : Undisturbed svc accounts acts)
    (hearlier : acts' <+: acts) : Undisturbed svc accounts acts' := by
  obtain ⟨more, rfl⟩ := hearlier
  intro before client password credential mid token clock now done rest hacts
  exact h before client password credential mid token clock now done (rest ++ more)
    (by rw [hacts]; simp only [List.append_assoc, List.cons_append])

theorem Unrevoked.concat (h : Unrevoked svc accounts before since client credential)
    (hstands : Stands (play svc accounts (before ++ .compare client :: since)).db
      (play svc accounts (before ++ .compare client :: (since ++ [a]))).db credential.id) :
    Unrevoked svc accounts before (since ++ [a]) client credential := by
  obtain ⟨row, hrow, hpassword⟩ := h.password
  obtain ⟨row', hrow', henabled⟩ := h.enabled since (List.prefix_refl _)
  cases hrow.symm.trans hrow'
  obtain ⟨row', hrow', hsame, henabled'⟩ := hstands row hrow henabled
  refine ⟨⟨row', hrow', hsame.trans hpassword⟩, fun acts hacts => ?_⟩
  rcases List.prefix_concat_iff.mp hacts with rfl | hshort
  · exact ⟨row', hrow', henabled'⟩
  · exact h.enabled acts hshort

/-- A login that waits to insert has compared at some moment, and read before. -/
theorem passed_of_compared (acts : List (AuthAct ι))
    (h : (play svc accounts acts).logins client = .compared credential) :
    ∃ before since password, acts = before ++ .compare client :: since ∧
      Passed svc accounts before since client password credential := by
  induction acts using List.reverseRecOn with
  | nil => cases h
  | append_singleton acts a ih =>
    have hlast := h
    rw [play_concat] at hlast
    rcases act_compared hlast with hold | ⟨rfl, password, hfound, hright⟩
    · obtain ⟨before, since, password, rfl, hpassed⟩ := ih hold
      refine ⟨before, since ++ [a], password, by simp, hpassed.found, hpassed.right, ?_⟩
      simpa using h
    · exact ⟨acts, [], password, rfl, hfound, hright, h⟩

theorem Backed.concat (h : Backed svc accounts acts sess)
    (hmem : sess ∈ (play svc accounts (acts ++ [a])).db.sessions.rows)
    (hstands : Stands (play svc accounts acts).db (play svc accounts (acts ++ [a])).db sess.userID) :
    Backed svc accounts (acts ++ [a]) sess := by
  obtain ⟨before, client, password, credential, mid, insert, rest, rfl, hinsert, hid, hpassed, hover,
    hstays, hunrevoked⟩ := h
  have happend : before ++ .compare client :: (mid ++ insert :: rest) ++ [a] =
      before ++ .compare client :: (mid ++ insert :: (rest ++ [a])) := by simp
  rw [happend] at hmem hstands ⊢
  refine ⟨before, client, password, credential, mid, insert, rest ++ [a], rfl, hinsert, hid, hpassed,
    hover, fun acts' hacts' => ?_, ?_⟩
  · rcases List.prefix_concat_iff.mp hacts' with rfl | hshort
    · exact hmem
    · exact hstays acts' hshort
  · have hlast : mid ++ insert :: (rest ++ [a]) = mid ++ insert :: rest ++ [a] := by simp
    rw [hlast] at hstands ⊢
    exact hunrevoked.concat (hid ▸ hstands)

/-- The invariant: every session is backed, accepted or not. -/
theorem backed_of_undisturbed (h : Undisturbed svc accounts acts) :
    ∀ sess ∈ (play svc accounts acts).db.sessions.rows, Backed svc accounts acts sess := by
  induction acts using List.reverseRecOn with
  | nil => exact fun _ hsess => absurd hsess List.not_mem_nil
  | append_singleton acts a ih =>
    intro sess hsess
    have hlast := hsess
    rw [play_concat] at hlast
    obtain ⟨hstands, hold | ⟨client, token, clock, now, done, credential, rfl, hphase, hid, htoken,
      result, hover⟩⟩ := act_sessions hlast
    · rw [← play_concat] at hstands
      exact (ih (h.earlier (List.prefix_append _ _)) sess hold).concat hsess hstands
    · rw [← play_concat] at hstands hover
      obtain ⟨before, mid, password, rfl, hpassed⟩ := passed_of_compared acts hphase
      have happend : before ++ .compare client :: mid ++ [.insert client (some token) clock now done] =
          before ++ .compare client :: (mid ++ [.insert client (some token) clock now done]) := by
        simp
      rw [happend] at h hsess hstands hover ⊢
      have hunrevoked := h before client password credential mid token clock now done [] rfl hpassed
      refine ⟨before, client, password, credential, mid, _, [], rfl,
        ⟨token, clock, now, done, rfl, htoken⟩, hid, hpassed, ⟨result, hover⟩,
        fun acts' hacts' => ?_, ?_⟩
      · rw [List.prefix_nil.mp hacts']
        exact hsess
      · exact hunrevoked.concat (hid ▸ hstands)

end Steps

/-- **Revocation**: as long as no login inserts its session after its user has been revoked. -/
theorem revocation_effective (svc : AuthService)
    (accounts : Table UUID UserCredential UserCredential.key) (acts : List (AuthAct ι))
    (h : Undisturbed svc accounts acts) :
    ∀ acts', acts' <+: acts → RevocationEffective svc accounts acts' := by
  intro acts' hearlier now tokenHash user haccepted
  unfold getUserBySession at haccepted
  split at haccepted
  · cases haccepted
  rename_i sess hsess
  split at haccepted
  · cases haccepted
  rename_i row hrow
  split at haccepted
  · cases haccepted
    exact ⟨sess, hsess, (Table.key_of_find? hrow).symm,
      backed_of_undisturbed (h.earlier hearlier) sess (Table.mem_of_find? hsess)⟩
  · cases haccepted

/-! ## A login in between

One run that meets the condition, where the password changes after the login has finished,
and one that does not, where it changes between the comparison and the insertion and leaves
a session that was opened with the password of before. -/

def aliceID : String := "11111111-1111-4111-9111-111111111111"

def alice : UserCredential :=
  newUser 0x11111111111141119111111111111111 "alice" "Alice" "$2a$10$oldoldoldoldoldoldoldo"
    roleViewer 0

def aliceService : AuthService where
  toPostgres := .withoutAddresses fun text =>
    if text = aliceID then some alice.id else some text.length
  lower := fun text => text
  toLower := fun text => text
  sessionTTL := 24 * 60 * minute
  compare := fun passwordHash password =>
    decide ((passwordHash, password) = (alice.passwordHash, "old password"))
  hashToken := fun token => "sha256:" ++ token
  uuidText := fun id => if id = alice.id then aliceID else String.ofList (List.replicate id '0')
  uuid_uuidText := by
    intro id
    by_cases hid : id = alice.id
    · simp [Postgres.withoutAddresses, hid]
    · have hne : String.ofList (List.replicate id '0') ≠ aliceID := by
        intro heq
        have hmem : '1' ∈ (String.ofList (List.replicate id '0')).toList := heq ▸ by decide
        rw [String.toList_ofList] at hmem
        cases List.eq_of_mem_replicate hmem
      simp [Postgres.withoutAddresses, hid, hne]

def aliceAccounts : Table UUID UserCredential UserCredential.key := ⟨[alice], by decide⟩

/-- A login that nobody interferes with; the password is reset and the user disabled later. -/
def earlyLogin : List (AuthAct Unit) :=
  [.find () "alice" "old password", .compare (), .insert () (some "token") 20 20 20,
    .reset 30 aliceID "$2a$10$newnewnewnewnewnewnewn",
    .update 40 aliceID ⟨"Alice", roleViewer, false⟩]

theorem undisturbed_earlyLogin : Undisturbed aliceService aliceAccounts earlyLogin := by
  intro before client password credential mid token clock now done rest hacts hpassed
  obtain ⟨rfl, rfl⟩ : before = [.find () "alice" "old password"] ∧ mid = [] := by
    unfold earlyLogin at hacts
    rcases before with _ | ⟨first, _ | ⟨second, _ | ⟨third, _ | ⟨fourth, _ | ⟨fifth, more⟩⟩⟩⟩⟩ <;>
      rcases mid with _ | ⟨first, _ | ⟨second, _ | ⟨third, more⟩⟩⟩ <;> simp_all
  have hread : (play aliceService aliceAccounts [.find () "alice" "old password"]).logins () =
    .found "old password" (.ok alice) := rfl
  cases hread.symm.trans hpassed.found
  refine ⟨⟨alice, rfl, rfl⟩, fun acts hacts => ⟨alice, ?_, rfl⟩⟩
  rw [List.prefix_nil.mp hacts]
  rfl

theorem revocation_effective_earlyLogin :
    RevocationEffective aliceService aliceAccounts (earlyLogin.take 3) ∧
      RevocationEffective aliceService aliceAccounts earlyLogin :=
  ⟨revocation_effective aliceService aliceAccounts earlyLogin undisturbed_earlyLogin _
      (List.take_prefix 3 earlyLogin),
    revocation_effective aliceService aliceAccounts earlyLogin undisturbed_earlyLogin _
      (List.prefix_refl _)⟩

/-- The password is reset after a login has compared the old one. -/
def lateLogin : List (AuthAct Unit) :=
  [.find () "alice" "old password", .compare (),
    .reset 10 aliceID "$2a$10$newnewnewnewnewnewnewn", .insert () (some "token") 20 20 20]

theorem revocation_missed : ¬ RevocationEffective aliceService aliceAccounts lateLogin := by
  intro h
  obtain ⟨_, _, _, before, client, password, credential, mid, insert, rest, hacts, _, _, hpassed, _,
    _, hunrevoked⟩ := h 30 "sha256:token"
      { alice.toUser with lastLoginAt := some 20, updatedAt := 20 } rfl
  -- the one comparison of the run is its second act
  obtain rfl : before = [.find () "alice" "old password"] := by
    unfold lateLogin at hacts
    rcases before with _ | ⟨first, _ | ⟨second, _ | ⟨third, _ | ⟨fourth, rest⟩⟩⟩⟩ <;>
      simp_all
  have hread : (play aliceService aliceAccounts [.find () "alice" "old password"]).logins () =
    .found "old password" (.ok alice) := rfl
  cases hread.symm.trans hpassed.found
  obtain ⟨row, hrow, hpassword⟩ := hunrevoked.password
  rw [← hacts] at hrow
  have hreset : ((play aliceService aliceAccounts lateLogin).db.users.find? alice.id).map
    UserCredential.passwordHash = some "$2a$10$newnewnewnewnewnewnewn" := rfl
  rw [hrow] at hreset
  exact absurd (hpassword.symm.trans (Option.some.inj hreset)) (by decide)

end Cfscan.Users
