import Cfscan.Users.Requests

/-!
# How long a session lives — `internal/auth/service.go`, `internal/store/postgres/auth.go`

Requests of any number of clients, each taken apart at its two calls of the store, so that all of
them come between the calls of the others; a request that is never completed is one that was given
up. The log of a run is what its answers tell of sessions: a login opens one, a logout closes it, and
a password reset, a disabling and a deletion revoke those of a user, each at the moment of its second
call.

`accepted_iff`: a token is accepted from the login that returned it until the first of these, or
until it expires, while its user is enabled. The last is no part of the log. A login that has
compared its password opens its session whatever becomes of the user in between, so there are
sessions of users who were disabled before they were opened, and these are accepted once the user is
enabled again.
-/

set_option autoImplicit false

namespace Cfscan.Users.Api

open Cfscan.Lib Cfscan.Store

/-! ## Runs

A request is in the world between its two calls of the store, under an id of its own; any
number can be. A restart of the center inserts the first administrator if there is no user
yet and leaves the requests under way, which may but need not be completed afterwards. -/

variable {ι : Type} [DecidableEq ι]

/-- The tables, the requests under way by the names they have while they are, and the log. -/
structure World (ι : Type) where
  store : UserStore
  underWay : ι → Option Pending
  log : List Entry

inductive Event (ι : Type) where
  | receive (id : ι) (visit : Visit)
  | complete (id : ι) (outside : Outside)
  /-- The center starts: `EnsureBootstrapAdmin`. -/
  | start (now : Timestamp) (id : UUID) (salt : Nat) (username : String) (password : ByteArray)

def Event.at : Event ι → Timestamp
  | .receive _ visit => visit.seen
  | .complete _ outside => outside.now
  | .start now _ _ _ _ => now

/-- A name that is taken starts no second request. -/
def World.next (acc : Accounts) (order : List User → List User) (w : World ι) : Event ι → World ι
  | .receive id visit =>
    match w.underWay id, receive acc w.store visit with
    | some _, _ => w
    | none, (.error _, s') => { w with store := s' }
    | none, (.ok pending, s') =>
      { w with store := s', underWay := Function.update w.underWay id (some pending) }
  | .complete id outside =>
    match w.underWay id with
    | none => w
    | some pending =>
      let done := complete acc order w.store outside pending
      ⟨done.2, Function.update w.underWay id none, w.log ++ entries acc pending done.1⟩
  | .start now id salt username password =>
    { w with store := (bootstrapAdmin acc w.store now id salt username password).2 }

def World.play (acc : Accounts) (order : List User → List User) (w : World ι)
    (events : List (Event ι)) : World ι :=
  events.foldl (World.next acc order) w

section Next

variable {acc : Accounts} {order : List User → List User} {w : World ι} {id other : ι}
  {visit : Visit} {outside : Outside} {pending : Pending}

theorem World.receive_same (acc : Accounts) (order : List User → List User) (w : World ι) (id : ι)
    (visit : Visit) :
    (w.next acc order (.receive id visit)).store.users = w.store.users ∧
      (w.next acc order (.receive id visit)).store.session = w.store.session := by
  have hsame := Api.receive_same acc w.store visit
  unfold World.next
  dsimp only
  split
  · exact ⟨rfl, rfl⟩
  · rename_i heq
    rwa [heq] at hsame
  · rename_i heq
    rwa [heq] at hsame

theorem World.underWay_receive
    (h : (w.next acc order (.receive id visit)).underWay other = some pending) :
    w.underWay other = some pending ∨
      other = id ∧ (receive acc w.store visit).1 = .ok pending := by
  unfold World.next at h
  dsimp only at h
  split at h
  · exact .inl h
  · exact .inl h
  · rename_i heq
    rcases eq_or_ne other id with rfl | hne
    · dsimp only at h
      rw [Function.update_self] at h
      cases h
      exact .inr ⟨rfl, by rw [heq]⟩
    · dsimp only at h
      rw [Function.update_of_ne hne] at h
      exact .inl h

theorem World.complete_none (h : w.underWay id = none) :
    w.next acc order (.complete id outside) = w := by
  unfold World.next
  dsimp only
  rw [h]

theorem World.complete_store (h : w.underWay id = some pending) :
    (w.next acc order (.complete id outside)).store =
      (complete acc order w.store outside pending).2 := by
  unfold World.next
  dsimp only
  rw [h]

theorem World.underWay_complete
    (h : (w.next acc order (.complete id outside)).underWay other = some pending) :
    w.underWay other = some pending := by
  unfold World.next at h
  dsimp only at h
  split at h
  · exact h
  · rcases eq_or_ne other id with rfl | hne
    · dsimp only at h
      rw [Function.update_self] at h
      cases h
    · dsimp only at h
      rwa [Function.update_of_ne hne] at h

end Next

/-- Nobody has a session, and no request is under way. -/
def World.opening (users : Table UUID UserCredential UserCredential.key) : World ι :=
  ⟨⟨users, .empty⟩, fun _ => none, []⟩

/-- The clock of the server does not go back. -/
def Ordered : Timestamp → List (Event ι) → Prop
  | _, [] => True
  | t, event :: events => t ≤ event.at ∧ Ordered event.at events

instance decidableOrdered : ∀ (t : Timestamp) (events : List (Event ι)), Decidable (Ordered t events)
  | _, [] => .isTrue trivial
  | t, event :: events =>
    have := decidableOrdered event.at events
    inferInstanceAs (Decidable (t ≤ event.at ∧ Ordered event.at events))

def lastAt (t : Timestamp) (events : List (Event ι)) : Timestamp :=
  events.foldl (fun _ event => event.at) t

/-! ## The log

What the answers say has happened to sessions, in order: opened by a login, closed by a
logout, all of a user's revoked. `Live` reads off the log alone whether a session should be
accepted. -/

/-- After it the session is over. -/
def Entry.Ends (tokenHash : String) (userID : UUID) : Entry → Prop
  | .opened _ _ _ => False
  | .closed tokenHash' => tokenHash' = tokenHash
  | .revoked userID' => userID' = userID

/-- The session was opened, and not ended since. -/
def Live (log : List Entry) (tokenHash : String) (userID : UUID) (expiresAt : Timestamp) : Prop :=
  ∃ before after, log = before ++ .opened tokenHash userID expiresAt :: after ∧
    ∀ entry ∈ after, ¬ entry.Ends tokenHash userID

section Log

variable {log : List Entry} {entry : Entry} {tokenHash : String} {userID : UUID}
  {expiresAt : Timestamp}

theorem live_nil : ¬ Live [] tokenHash userID expiresAt := by
  rintro ⟨before, after, hlog, -⟩
  cases before <;> cases hlog

theorem live_concat : Live (log ++ [entry]) tokenHash userID expiresAt ↔
    entry = .opened tokenHash userID expiresAt ∨
      Live log tokenHash userID expiresAt ∧ ¬ entry.Ends tokenHash userID := by
  constructor
  · rintro ⟨before, after, hlog, hafter⟩
    rcases List.eq_nil_or_concat after with rfl | ⟨after, last, rfl⟩
    · exact .inl (List.append_inj_right' hlog rfl |> List.singleton_inj.mp)
    · rw [List.concat_eq_append] at hlog hafter
      have hsplit : log ++ [entry] =
          (before ++ .opened tokenHash userID expiresAt :: after) ++ [last] := by
        rw [hlog, List.append_assoc, List.cons_append]
      obtain ⟨rfl, hentry⟩ := List.append_inj' hsplit rfl
      obtain rfl := List.singleton_inj.mp hentry
      exact .inr ⟨⟨before, after, rfl, fun e he => hafter e (List.mem_append_left _ he)⟩,
        hafter entry (List.mem_append_right _ List.mem_cons_self)⟩
  · rintro (rfl | ⟨⟨before, after, rfl, hafter⟩, hends⟩)
    · exact ⟨log, [], rfl, fun _ h => absurd h List.not_mem_nil⟩
    · refine ⟨before, after ++ [entry], by rw [List.append_assoc, List.cons_append], fun e he => ?_⟩
      rcases List.mem_append.mp he with hold | hnew
      · exact hafter e hold
      · rw [List.mem_singleton.mp hnew]
        exact hends

end Log

/-! ## The tables follow the log

A session in the table is live in the log and its user exists; a live one that has not
expired is in the table. Nothing is said of expired ones: they are deleted at some later
login. -/

/-- At the time `now`. -/
structure Follows (now : Timestamp) (log : List Entry) (s : UserStore) : Prop where
  live : ∀ tokenHash userID expiresAt, s.session tokenHash = some (userID, expiresAt) →
    Live log tokenHash userID expiresAt
  kept : ∀ tokenHash userID expiresAt, Live log tokenHash userID expiresAt → now < expiresAt →
    s.session tokenHash = some (userID, expiresAt)
  standing : ∀ tokenHash userID expiresAt, s.session tokenHash = some (userID, expiresAt) →
    ∃ row, s.users.find? userID = some row

section Steps

variable {acc : Accounts} {order : List User → List User} {now : Timestamp} {log : List Entry}
  {s s' : UserStore} {outside : Outside} {pending : Pending} {answer : Answer}

theorem Follows.later (h : Follows now log s) {now' : Timestamp} (hle : now ≤ now') :
    Follows now' log s :=
  ⟨h.live, fun _ _ _ hlive hlt => h.kept _ _ _ hlive (Int.lt_of_le_of_lt hle hlt), h.standing⟩

/-- Users may change while they stay. -/
theorem Follows.same (h : Follows now log s) (hsession : s'.session = s.session)
    (husers : ∀ id row, s.users.find? id = some row → ∃ row', s'.users.find? id = some row') :
    Follows now log s' := by
  refine ⟨?_, ?_, ?_⟩
  · rw [hsession]
    exact h.live
  · rw [hsession]
    exact h.kept
  · intro tokenHash userID expiresAt hs
    rw [hsession] at hs
    obtain ⟨row, hrow⟩ := h.standing _ _ _ hs
    exact husers userID row hrow

/-- The sessions of a user are revoked. -/
theorem Follows.revoke (h : Follows now log s) {id : UUID}
    (hsession : ∀ tokenHash, s'.session tokenHash =
      (s.session tokenHash).filter fun sess => !decide (sess.1 = id))
    (husers : ∀ other, other ≠ id → s'.users.find? other = s.users.find? other) :
    Follows now (log ++ [.revoked id]) s' := by
  have hiff : ∀ tokenHash userID expiresAt, s'.session tokenHash = some (userID, expiresAt) ↔
      s.session tokenHash = some (userID, expiresAt) ∧ userID ≠ id := by
    intro tokenHash userID expiresAt
    rw [hsession, Option.filter_eq_some_iff]
    simp
  refine ⟨fun tokenHash userID expiresAt hs => ?_, fun tokenHash userID expiresAt hlive hlt => ?_,
    fun tokenHash userID expiresAt hs => ?_⟩
  · obtain ⟨hold, hne⟩ := (hiff _ _ _).mp hs
    exact live_concat.mpr (.inr ⟨h.live _ _ _ hold, fun hends => hne hends.symm⟩)
  · rcases live_concat.mp hlive with hnew | ⟨hold, hends⟩
    · cases hnew
    · exact (hiff _ _ _).mpr ⟨h.kept _ _ _ hold hlt, fun heq => hends heq.symm⟩
  · obtain ⟨hold, hne⟩ := (hiff _ _ _).mp hs
    obtain ⟨row, hrow⟩ := h.standing _ _ _ hold
    exact ⟨row, (husers userID hne).trans hrow⟩

/-- A login opens a session, and those that are over go. -/
theorem Follows.opened (h : Follows now log s) {tokenHash : String} {id : UUID}
    {row : UserCredential} {expiresAt : Timestamp} (hrow : s.users.find? id = some row)
    (hfresh : (s.session tokenHash).filter (fun sess => !decide (sess.2 ≤ now)) = none)
    (husers : ∀ id row, s.users.find? id = some row → ∃ row', s'.users.find? id = some row')
    (hsession : ∀ h, s'.session h = if tokenHash = h then some (id, expiresAt)
      else (s.session h).filter fun sess => !decide (sess.2 ≤ now)) :
    Follows now (log ++ [.opened tokenHash id expiresAt]) s' := by
  refine ⟨fun tokenHash' userID until' hs => ?_, fun tokenHash' userID until' hlive hlt => ?_,
    fun tokenHash' userID until' hs => ?_⟩
  · rw [hsession] at hs
    split at hs
    · rename_i hsame
      cases hs
      exact live_concat.mpr (.inl (by rw [hsame]))
    · have hold := (Option.filter_eq_some_iff.mp hs).1
      exact live_concat.mpr (.inr ⟨h.live _ _ _ hold, fun hends => hends⟩)
  · rcases live_concat.mp hlive with hnew | ⟨hold, -⟩
    · injection hnew with htokenHash huserID huntil
      rw [hsession, if_pos htokenHash, huserID, huntil]
    · exact login_keeps hfresh hsession (h.kept _ _ _ hold hlt) hlt
  · rw [hsession] at hs
    split at hs
    · cases hs
      exact husers _ _ hrow
    · obtain ⟨row, hrow'⟩ := h.standing _ _ _ (Option.filter_eq_some_iff.mp hs).1
      exact husers _ _ hrow'

/-- A logout closes one. -/
theorem Follows.closed (h : Follows now log s) {tokenHash : String}
    (husers : ∀ id row, s.users.find? id = some row → ∃ row', s'.users.find? id = some row')
    (hsession : ∀ h, s'.session h = if tokenHash = h then none else s.session h) :
    Follows now (log ++ [.closed tokenHash]) s' := by
  have hiff : ∀ tokenHash' userID expiresAt, s'.session tokenHash' = some (userID, expiresAt) ↔
      s.session tokenHash' = some (userID, expiresAt) ∧ tokenHash ≠ tokenHash' := by
    intro tokenHash' userID expiresAt
    rw [hsession]
    by_cases hsame : tokenHash = tokenHash' <;> simp [hsame]
  refine ⟨fun tokenHash' userID expiresAt hs => ?_,
    fun tokenHash' userID expiresAt hlive hlt => ?_, fun tokenHash' userID expiresAt hs => ?_⟩
  · obtain ⟨hold, hne⟩ := (hiff _ _ _).mp hs
    exact live_concat.mpr (.inr ⟨h.live _ _ _ hold, hne⟩)
  · rcases live_concat.mp hlive with hnew | ⟨hold, hends⟩
    · cases hnew
    · exact (hiff _ _ _).mpr ⟨h.kept _ _ _ hold hlt, hends⟩
  · obtain ⟨row, hrow⟩ := h.standing _ _ _ ((hiff _ _ _).mp hs).1
    exact husers _ _ hrow

theorem exists_updateWhere {t : Table UUID UserCredential UserCredential.key}
    {p : UserCredential → Bool} {f : UserCredential → UserCredential}
    {hf : ∀ row, (f row).key = row.key} (id : UUID) (row : UserCredential)
    (hrow : t.find? id = some row) : ∃ row', (t.updateWhere p f hf).find? id = some row' := by
  rw [Table.find?_updateWhere, hrow, Option.map_some]
  exact ⟨_, rfl⟩

theorem find?_updateWhere_of_ne {t : Table UUID UserCredential UserCredential.key} {id other : UUID}
    {f : UserCredential → UserCredential} {hf : ∀ row, (f row).key = row.key} (hne : other ≠ id) :
    (t.updateWhere (fun row => decide (row.id = id)) f hf).find? other = t.find? other := by
  rw [Table.find?_updateWhere]
  cases hrow : t.find? other with
  | none => rfl
  | some row =>
    have hid : row.key = other := Table.key_of_find? hrow
    have hfalse : ¬ row.id = id := fun heq => hne (hid.symm.trans heq)
    rw [Option.map_some, decide_eq_false hfalse]
    rfl

/-- **The second call of a request.** -/
theorem Follows.effect (h : Follows now log s) (hnow : now ≤ outside.now)
    (heffect : Effect acc outside pending s.users s.session answer s') :
    Follows outside.now (log ++ entries acc pending answer) s' := by
  have hlater := h.later hnow
  cases heffect with
  | nothing husers hsession hentries =>
    rw [hentries, List.append_nil]
    exact hlater.same hsession fun id row hrow => ⟨row, husers ▸ hrow⟩
  | list hadmin husers hsession =>
    rw [show entries acc pending (.users _) = [] from rfl, List.append_nil]
    exact hlater.same hsession fun id row hrow => ⟨row, husers ▸ hrow⟩
  | @login input credential row token _ hpending htoken hpassword henabled hrow hfresh husers
      hsession =>
    rw [show entries acc pending (.response (.user 200 _) (.set _ _)) = [.opened _ _ _] from rfl]
    -- a login writes the row of its user too, which stays where it is
    refine hlater.opened hrow hfresh ?_ hsession
    rw [husers]
    exact exists_updateWhere
  | @logout cookie user _ hpending hcookie husers hsession =>
    have hentries : entries acc pending (.response (.noContent true) .cleared) =
        [.closed (acc.auth.hashToken cookie)] := by
      subst hpending
      exact if_neg hcookie
    rw [hentries]
    exact hlater.closed (fun id row hrow => ⟨row, husers ▸ hrow⟩) hsession
  | @create body row hash _ hadmin hhash hid hpassword hrole hfree husers hsession =>
    have hentries : entries acc pending (.response (.user 201 row.toUser) .unchanged) = [] := by
      obtain ⟨cookie, actor, rfl, -⟩ := hadmin
      rfl
    rw [hentries, List.append_nil]
    refine hlater.same hsession fun id other hother => ⟨other, ?_⟩
    -- the new row is under a key that was free, so that it is nobody's row of before
    have hne : row.key ≠ id := by
      rintro rfl
      rw [show s.users.find? row.key = none from hfree] at hother
      cases hother
    rw [husers, Table.find?_put, if_neg hne, hother]
  | @update userID body input row _ hadmin hinput huuid hrow husers hsession =>
    have hentries : entries acc pending (.response (.user 200 (row.update outside.now input).toUser)
        .unchanged) = if input.enabled then [] else [.revoked row.id] := by
      obtain ⟨cookie, actor, rfl, -⟩ := hadmin
      rw [hinput]
      rfl
    rw [hentries]
    -- an update revokes the sessions of the user when it disables him, and only then
    cases henabled : input.enabled with
    | true =>
      rw [if_pos rfl, List.append_nil]
      have hsame : s'.session = s.session := funext fun tokenHash => by
        rw [hsession, henabled, if_pos rfl]
      refine hlater.same hsame ?_
      rw [husers]
      exact exists_updateWhere
    | false =>
      rw [if_neg Bool.false_ne_true]
      refine hlater.revoke (fun tokenHash => ?_) fun other hne =>
        husers ▸ find?_updateWhere_of_ne hne
      rw [hsession, henabled, if_neg Bool.false_ne_true]
  | reset hadmin hentries hhash huuid hrow husers hsession =>
    rw [hentries]
    exact hlater.revoke hsession fun other hne => husers ▸ find?_updateWhere_of_ne hne
  | delete hadmin hentries huuid hrow husers hsession =>
    rw [hentries]
    refine hlater.revoke hsession fun other hne => ?_
    rw [husers, Table.find?_erase, if_neg (Ne.symm hne)]

theorem bootstrapAdmin_inserts (acc : Accounts) (s : UserStore) (now : Timestamp) (id : UUID)
    (salt : Nat) (username : String) (password : ByteArray) :
    (bootstrapAdmin acc s now id salt username password).2 = s ∨
      ∃ row, row.id = id ∧ acc.generate salt password = .ok row.passwordHash ∧
        Inserts acc.auth.toServer row s
          (bootstrapAdmin acc s now id salt username password).2 := by
  unfold bootstrapAdmin
  split
  · exact .inl rfl
  dsimp only
  split
  · exact .inl rfl
  split
  · exact .inl rfl
  split
  · exact .inl rfl
  unfold hashPassword
  cases hhash : acc.generate salt password with
  | error cause => exact .inl rfl
  | ok hash =>
    exact .inr ⟨_, rfl, rfl,
      ensureBootstrapAdmin_inserts acc.auth.toServer s now id _ "Administrator" hash⟩

theorem Follows.inserts (h : Follows now log s) {row : UserCredential}
    (hinserts : Inserts acc.auth.toServer row s s') : Follows now log s' := by
  rcases hinserts with rfl | ⟨rfl, hfree⟩
  · exact h
  · refine h.same rfl fun id other hother => ⟨other, ?_⟩
    have hne : row.key ≠ id := by
      rintro rfl
      rw [show s.users.find? row.key = none from hfree.1] at hother
      cases hother
    rw [Table.find?_put, if_neg hne, hother]

theorem Follows.next {w : World ι} (h : Follows now w.log w.store) {event : Event ι}
    (hnow : now ≤ event.at) :
    Follows event.at (w.next acc order event).log (w.next acc order event).store := by
  cases event with
  | receive id visit =>
    obtain ⟨husers, hsession⟩ := World.receive_same acc order w id visit
    have hlog : (w.next acc order (.receive id visit)).log = w.log := by
      unfold World.next
      dsimp only
      split <;> rfl
    rw [hlog]
    exact (h.later hnow).same hsession fun id row hrow => ⟨row, husers ▸ hrow⟩
  | complete id outside =>
    unfold World.next
    dsimp only
    split
    · exact h.later hnow
    · exact h.effect hnow (complete_effect acc order w.store outside _)
  | start now' id salt username password =>
    have hfollows : Follows now w.log
        (bootstrapAdmin acc w.store now' id salt username password).2 := by
      rcases bootstrapAdmin_inserts acc w.store now' id salt username password with
        hsame | ⟨row, -, -, hinserts⟩
      · rw [hsame]
        exact h
      · exact h.inserts hinserts
    exact hfollows.later hnow

theorem Follows.play {w : World ι} {events : List (Event ι)} (h : Follows now w.log w.store)
    (hordered : Ordered now events) :
    Follows (lastAt now events) (w.play acc order events).log (w.play acc order events).store := by
  induction events generalizing now w with
  | nil => exact h
  | cons event events ih => exact ih (h.next hordered.1) hordered.2

end Steps

/-- **How long a session lives**: a token is accepted, for its user as the user is then, from the
login that returned it until its logout, the revocation of its user's sessions, or its expiry, and
while its user is enabled. -/
theorem accepted_iff (acc : Accounts) (order : List User → List User)
    (users : Table UUID UserCredential UserCredential.key) (t : Timestamp)
    (events : List (Event ι)) (hordered : Ordered t events) (now : Timestamp)
    (hnow : lastAt t events ≤ now) (cookie : String) (hcookie : cookie ≠ "") (user : User) :
    let w := World.play acc order (World.opening users) events
    (authenticate acc w.store now cookie).1 = .ok user ↔
      ∃ row expiresAt, Live w.log (acc.auth.hashToken cookie) row.id expiresAt ∧ now < expiresAt ∧
        w.store.users.find? row.id = some row ∧ row.enabled = true ∧ user = row.toUser := by
  intro w
  have hnone : Follows t (World.opening users : World ι).log (World.opening users : World ι).store :=
    ⟨nofun, fun _ _ _ hlive => absurd hlive live_nil, nofun⟩
  have hfollows : Follows now w.log w.store := (Follows.play hnone hordered).later hnow
  rw [authenticate_iff hcookie]
  constructor
  · rintro ⟨row, expiresAt, hsession, hlt, hrow, henabled, huser⟩
    exact ⟨row, expiresAt, hfollows.live _ _ _ hsession, hlt, hrow, henabled, huser⟩
  · rintro ⟨row, expiresAt, hlive, hlt, hrow, henabled, huser⟩
    exact ⟨row, expiresAt, hfollows.kept _ _ _ hlive hlt, hlt, hrow, henabled, huser⟩

/-! ## A login across a disabling -/

def rootRequest (request : SessionRequest) (t : Timestamp) (id : UUID) : List (Event Nat) :=
  [.receive 0 ⟨"root", .session request, t⟩, .complete 0 ⟨t, t, t, none, id, 0⟩]

/-- The administrator logs in and makes a user. -/
def twoUsers : List (Event Nat) :=
  [.start 0 1 0 "admin" (letters 8),
    .receive 0 ⟨"", .login false (.ok ⟨"admin", letters 8⟩), 1⟩,
    .complete 0 ⟨1, 1, 1, some "root", 0, 0⟩] ++
  rootRequest (.createUser (.ok ⟨⟨"guest", "Guest", roleViewer⟩, letters 9⟩)) 2 2

/-- The user is disabled while they log in, and enabled again. -/
def crossedLogin : List (Event Nat) :=
  twoUsers ++ [.receive 1 ⟨"", .login false (.ok ⟨"guest", letters 9⟩), 3⟩] ++
  rootRequest (.updateUser secondID (.ok ⟨"Guest", roleViewer, false⟩)) 3 0 ++
  [.complete 1 ⟨4, 4, 4, some "guest", 0, 0⟩] ++
  rootRequest (.updateUser secondID (.ok ⟨"Guest", roleViewer, true⟩)) 5 0

/-- As all this leaves it. -/
def guest : UserCredential :=
  (((newUser 2 "guest" "Guest" (plainHash (letters 9)) roleViewer 2).update 3
    ⟨"Guest", roleViewer, false⟩).login 4).update 5 ⟨"Guest", roleViewer, true⟩

/-- The session that was opened for the disabled user is accepted in the end. -/
theorem accepted_iff_crossedLogin :
    (authenticate plainAccounts
      (World.play plainAccounts id (World.opening .empty) crossedLogin).store 6 "guest").1 =
        .ok guest.toUser := by
  have hlog : (World.play plainAccounts id (World.opening .empty) crossedLogin).log =
      [.opened (plainAccounts.auth.hashToken "root") 1 (1 + 24 * 60 * minute), .revoked 2,
        .opened (plainAccounts.auth.hashToken "guest") 2 (4 + 24 * 60 * minute)] := by
    decide +kernel
  have hrow : (World.play plainAccounts id (World.opening .empty)
      crossedLogin).store.users.find? 2 = some guest := by
    decide +kernel
  refine (accepted_iff plainAccounts id .empty 0 crossedLogin (by decide +kernel) 6
    (by decide +kernel) "guest" (by decide) guest.toUser).mpr
      ⟨guest, 4 + 24 * 60 * minute, ⟨[_, _], [], hlog, nofun⟩, by decide, hrow, rfl, rfl⟩

end Cfscan.Users.Api
