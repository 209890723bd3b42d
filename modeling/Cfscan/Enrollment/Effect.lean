import Cfscan.Enrollment.Store

/-!
# What an enrollment call can do to the store

`Effect` lists the ways a call ends and leaves the store, with everything the call had checked
before; `exec_effect` is the inversion that says there is no other. No later proof unfolds a
store function: invariants and frames are proved by cases on `Effect`.

The cases are named for what they do to the tables: nothing (`refused`, `replayed`), one new row
(`created`), a change of the rows a decision names (`decided`), the three writes of a first claim
(`claimed`), and the time of a use (`authenticated`). Each carries the guards of its branch, since a
proof that needs a guard has nowhere else to get it.

What an effect does **not** say is why a call was refused. The errors are in the store functions,
and the two results that speak of them, `Enrollment.Endpoint` and `Enrollment.Answered`, invert
those.
-/

set_option autoImplicit false

namespace Cfscan.Enrollment

open Cfscan.Lib Cfscan.Store

/-! ## Calls

An event is a call with its two clocks. A refusal keeps the store, which `settle` says once
for all of them: the model of a rollback. -/

/-- The calls, with the uuids `gen_random_uuid()` will return in them. The two creations are the
ones the API makes: a pending device, and an approved pre-authorisation. -/
inductive Op where
  | createDevice (id : UUID) (input : CreateAgentEnrollment)
  | createPreauthorized (id : UUID) (input : CreateAgentEnrollment)
  | approve (tokenHash : String) (input : ApproveAgentEnrollmentRequest)
  | approveByID (enrollmentID : String) (input : ApproveAgentEnrollmentRequest)
  | reject (tokenHash : String)
  | rejectByID (enrollmentID : String)
  | claim (agentID : UUID) (tokenHash : String) (input : ClaimInput)
  | authenticate (credentialID credentialHash : String)
deriving Repr

/-- A call and the two clocks it meets. -/
structure Event where
  op : Op
  now : Timestamp
  centerNow : Timestamp
deriving Repr

inductive Outcome where
  | enrollment (item : AgentEnrollment)
  | agent (id : UUID)
  | refused (error : StoreError)
deriving Repr

/-- A refused call rolled back: the store it met is the store it leaves. -/
def settle {α : Type} (s : EnrollmentStore) (result : α → Outcome) :
    Except StoreError (α × EnrollmentStore) → Outcome × EnrollmentStore
  | .ok (a, s') => (result a, s')
  | .error e => (.refused e, s)

def exec (pg : Postgres) (s : EnrollmentStore) (ev : Event) : Outcome × EnrollmentStore :=
  match ev.op with
  | .createDevice id input =>
    settle s .enrollment
      (createAgentEnrollment s ev.now id { input with mode := .device, status := .pending })
  | .createPreauthorized id input =>
    settle s .enrollment
      (createAgentEnrollment s ev.now id
        { input with mode := .preauthorized, status := .approved })
  | .approve tokenHash input =>
    settle s .enrollment (approveAgentEnrollment s ev.now tokenHash input)
  | .approveByID enrollmentID input =>
    settle s .enrollment (approveAgentEnrollmentByID pg s ev.now enrollmentID input)
  | .reject tokenHash => settle s .enrollment (rejectAgentEnrollment s ev.now tokenHash)
  | .rejectByID enrollmentID =>
    settle s .enrollment (rejectAgentEnrollmentByID pg s ev.now enrollmentID)
  | .claim agentID tokenHash input =>
    settle s .enrollment (claimAgentEnrollment pg s ev.now ev.centerNow agentID tokenHash input)
  | .authenticate credentialID credentialHash =>
    settle s .agent (authenticateAgentCredential pg s ev.now credentialID credentialHash)

/-- The store after a sequence of calls. -/
def replay (pg : Postgres) (s : EnrollmentStore) (events : List Event) : EnrollmentStore :=
  events.foldl (fun s ev => (exec pg s ev).2) s

/-! ## Effects -/

/-- The four fields an approval settles. -/
def EnrollmentRow.details (row : EnrollmentRow) : ApproveAgentEnrollmentRequest :=
  ⟨row.name, row.region, row.continent, row.concurrency⟩

/-- The details a call approves, when it is one that approves. -/
def Op.approval : Op → Option ApproveAgentEnrollmentRequest
  | .createPreauthorized _ input =>
    some ⟨input.name, input.region, input.continent, input.concurrency⟩
  | .approve _ input => some input
  | .approveByID _ input => some input
  | _ => none

/-- Approvals and rejections. -/
def Op.decides : Op → Bool
  | .approve _ _ | .approveByID _ _ | .reject _ | .rejectByID _ => true
  | _ => false

/-- The enrollments a decision is addressed to. -/
def Op.names (pg : Postgres) (op : Op) (row : EnrollmentRow) : Bool :=
  match op with
  | .approve tokenHash _ => decide (row.tokenHash = tokenHash)
  | .reject tokenHash => decide (row.tokenHash = tokenHash)
  | .approveByID enrollmentID _ => decide (pg.uuid enrollmentID = some row.id)
  | .rejectByID enrollmentID => decide (pg.uuid enrollmentID = some row.id)
  | _ => false

/-- What an approval or a rejection does to the row it selects. -/
inductive Decision (ev : Event) : (EnrollmentRow → EnrollmentRow) → Prop where
  | approve (input : ApproveAgentEnrollmentRequest) (happroval : ev.op.approval = some input) :
      Decision ev (EnrollmentRow.approve input ev.now)
  | reject : Decision ev (EnrollmentRow.reject ev.now)

/-- How a call ends, and how it leaves the store. -/
inductive Effect (pg : Postgres) (s : EnrollmentStore) (ev : Event) :
    Outcome → EnrollmentStore → Prop where
  | refused (error : StoreError) : Effect pg s ev (.refused error) s
  | created (row : EnrollmentRow) (hdecides : ev.op.decides = false)
      (hid : s.enrollments.find? row.id = none) (htoken : s.byToken row.tokenHash = none)
      (hstorable : storable row.tokenHash = true) (hagent : row.agentID = none)
      (hstatus : row.status = .pending ∨
        (row.status = .approved ∧ ev.op.approval = some row.details)) :
      Effect pg s ev (.enrollment (scanEnrollment ev.now row))
        { s with enrollments := s.enrollments.put row }
  | decided (named : EnrollmentRow → Bool) (set : EnrollmentRow → EnrollmentRow)
      (hset : ∀ row, (set row).id = row.id) (hdecides : ev.op.decides = true)
      (hnamed : ∀ row, named row = ev.op.names pg row) (hdecision : Decision ev set)
      (row : EnrollmentRow) (hrow : row ∈ s.enrollments.rows)
      (hselected : (named row && row.openAt ev.now) = true) :
      Effect pg s ev (.enrollment (scanEnrollment ev.now (set row)))
        { s with
          enrollments := s.enrollments.updateWhere (fun row => named row && row.openAt ev.now) set
            hset }
  | replayed (row : EnrollmentRow) (hdecides : ev.op.decides = false)
      (hrow : row ∈ s.enrollments.rows) (hstatus : row.status = .claimed) :
      Effect pg s ev (.enrollment (scanEnrollment ev.now row)) s
  | claimed (row : EnrollmentRow) (input : ClaimInput) (agentID credentialID : UUID)
      (hop : ev.op = .claim agentID row.tokenHash input)
      (hrow : row ∈ s.enrollments.rows) (hstatus : row.status = .approved)
      (hterm : row.expiresAt > ev.now ∧ row.expiresAt > ev.centerNow)
      (hagent : s.agents.find? agentID = none)
      (huuid : pg.uuid input.credentialID = some credentialID)
      (hcredential : s.credentials.find? credentialID = none) :
      Effect pg s ev (.enrollment (scanEnrollment ev.now (row.claim input agentID ev.now)))
        { enrollments := s.enrollments.put (row.claim input agentID ev.now)
          agents := s.agents.put (claimedAgent row input agentID ev.now)
          credentials := s.credentials.put
            { id := credentialID, agentID := agentID, secretHash := input.credentialHash,
              createdAt := ev.now, lastUsedAt := none, revokedAt := none } }
  | authenticated (row : CredentialRow) (hrow : row ∈ s.credentials.rows) :
      Effect pg s ev (.agent row.agentID)
        { s with credentials := s.credentials.put { row with lastUsedAt := some ev.now } }

/-! ## Inversion, function by function

From "it returned this" to what the store and the row were like. These are the only proofs
that open the functions of `Enrollment.Store`; the guards come out as equations, in the
order in which the functions test them. -/

theorem createAgentEnrollment_ok {s s' : EnrollmentStore} {now : Timestamp} {id : UUID}
    {input : CreateAgentEnrollment} {item : AgentEnrollment}
    (h : createAgentEnrollment s now id input = .ok (item, s')) :
    s.enrollments.find? id = none ∧ s.byToken input.tokenHash = none ∧
      storable input.tokenHash = true ∧ item = scanEnrollment now (input.row id now) ∧
      s' = { s with enrollments := s.enrollments.put (input.row id now) } := by
  unfold createAgentEnrollment at h
  split at h
  · cases h
  rename_i hstorable
  split at h
  · cases h
  split at h
  · cases h
  · rename_i hfresh
    simp only [not_or, ne_eq, not_not] at hfresh
    simp only [CreateAgentEnrollment.storable, List.all_cons, Bool.not_eq_false,
      Bool.and_eq_true] at hstorable
    cases h
    exact ⟨hfresh.1, hfresh.2, hstorable.1.1.1, rfl, rfl⟩

/-- A successful decision reached an open row, and rewrote the rows it named. -/
theorem updatePending_ok {s s' : EnrollmentStore} {now : Timestamp} {context : String}
    {named : EnrollmentRow → Bool} {refusal : Option DbError}
    {set : EnrollmentRow → EnrollmentRow} {hset : ∀ row, (set row).id = row.id}
    {item : AgentEnrollment}
    (h : updatePending s now context named refusal set hset = .ok (item, s')) :
    ∃ row ∈ s.enrollments.rows, named row = true ∧ row.openAt now = true ∧
      item = scanEnrollment now (set row) ∧
      s' = { s with
        enrollments := s.enrollments.updateWhere (fun row => named row && row.openAt now) set
          hset } := by
  unfold updatePending at h
  split at h
  · rename_i row hfound
    have hsel := List.find?_some hfound
    simp only [Bool.and_eq_true] at hsel
    split at h
    · cases h
    · cases h
      exact ⟨row, List.mem_of_find?_eq_some hfound, hsel.1, hsel.2, rfl, rfl⟩
  · split at h <;> cases h

theorem shownStatus_eq_stored {now : Timestamp} {row : EnrollmentRow} {status : StoredStatus}
    (h : shownStatus now row = .stored status) : row.status = status := by
  unfold shownStatus at h
  split at h
  · cases h
  · simpa using h

theorem byToken_mem {s : EnrollmentStore} {tokenHash : String} {row : EnrollmentRow}
    (h : s.byToken tokenHash = some row) :
    row ∈ s.enrollments.rows ∧ row.tokenHash = tokenHash :=
  ⟨List.mem_of_find?_eq_some h, by simpa using List.find?_some h⟩

theorem credential_some {pg : Postgres} {s : EnrollmentStore} {credentialID credentialHash : String}
    {row : CredentialRow} (h : s.credential pg credentialID credentialHash = some row) :
    row ∈ s.credentials.rows ∧ pg.uuid credentialID = some row.id ∧
      row.secretHash = credentialHash ∧ row.revokedAt = none := by
  unfold EnrollmentStore.credential at h
  split at h
  · cases h
  · rename_i id huuid
    split at h
    · cases h
    · rename_i found hfound
      split at h
      · rename_i hok
        cases h
        obtain ⟨hmem, hkey⟩ := Table.find?_eq_some.mp hfound
        exact ⟨hmem, by rw [huuid, ← hkey], hok.1, hok.2⟩
      · cases h

/-- A claim that found an enrollment not yet claimed succeeds only out of an approved row whose
term is over on neither clock, and with an agent and a credential that are new. -/
theorem finishClaim_ok {pg : Postgres} {s s' : EnrollmentStore} {now : Timestamp}
    {row : EnrollmentRow} {input : ClaimInput} {agent : AgentRow} {item : AgentEnrollment}
    (h : finishClaim pg s now row input agent = .ok (item, s')) :
    ∃ credentialID, pg.uuid input.credentialID = some credentialID ∧
      s.agents.find? agent.id = none ∧ s.credentials.find? credentialID = none ∧
      item = scanEnrollment now (row.claim input agent.id now) ∧
      s' =
        { enrollments := s.enrollments.put (row.claim input agent.id now)
          agents := s.agents.put agent
          credentials := s.credentials.put
            { id := credentialID, agentID := agent.id, secretHash := input.credentialHash,
              createdAt := now, lastUsedAt := none, revokedAt := none } } := by
  unfold finishClaim at h
  split at h
  · cases h
  split at h
  · cases h
  split at h
  · cases h
  rename_i hagent
  split at h
  · cases h
  rename_i credentialID huuid
  split at h
  · cases h
  split at h
  · cases h
  rename_i hcredential
  cases h
  simp only [EnrollmentStore.agentConflict, not_or, ne_eq, not_not] at hagent hcredential
  exact ⟨credentialID, huuid, hagent.1, hcredential, rfl, rfl⟩

/-- A successful claim replays a claimed enrollment, or is the first claim of an approved one. -/
theorem claimAgentEnrollment_ok {pg : Postgres} {s s' : EnrollmentStore}
    {now centerNow : Timestamp} {agentID : UUID} {tokenHash : String} {input : ClaimInput}
    {item : AgentEnrollment}
    (h : claimAgentEnrollment pg s now centerNow agentID tokenHash input = .ok (item, s')) :
    ∃ row, s.byToken tokenHash = some row ∧
      ((row.status = .claimed ∧ item = scanEnrollment now row ∧ s' = s) ∨
        (row.status = .approved ∧ row.expiresAt > now ∧ row.expiresAt > centerNow ∧
          finishClaim pg s now row input (claimedAgent row input agentID now) =
            .ok (item, s'))) := by
  unfold claimAgentEnrollment at h
  split at h
  · cases h
  split at h
  · cases h
  rename_i row hrow
  refine ⟨row, hrow, ?_⟩
  dsimp only at h
  split at h
  · rename_i hclaimed
    split at h
    · split at h
      · cases h
        exact Or.inl ⟨shownStatus_eq_stored hclaimed, rfl, rfl⟩
      · cases h
    · cases h
  split at h
  · cases h
  rename_i hterm
  split at h
  · cases h
  split at h
  · cases h
  split at h
  · cases h
  split at h
  · cases h
  rename_i happroved
  simp only [not_or, ne_eq, not_not] at hterm happroved
  have hstatus := shownStatus_eq_stored happroved
  refine Or.inr ⟨hstatus, ?_, hterm.2, h⟩
  by_contra hexpired
  exact hterm.1 (if_pos ⟨Or.inr hstatus, Int.not_lt.mp hexpired⟩)

theorem authenticateAgentCredential_ok {pg : Postgres} {s s' : EnrollmentStore} {now : Timestamp}
    {credentialID credentialHash : String} {agentID : UUID}
    (h : authenticateAgentCredential pg s now credentialID credentialHash = .ok (agentID, s')) :
    ∃ row, s.credential pg credentialID credentialHash = some row ∧ agentID = row.agentID ∧
      s' = { s with credentials := s.credentials.put { row with lastUsedAt := some now } } := by
  unfold authenticateAgentCredential at h
  dsimp only at h
  split at h
  · cases h
  split at h
  · cases h
  split at h
  · cases h
  rename_i row hrow
  cases h
  exact ⟨row, hrow, rfl, rfl⟩

/-! ## Inversion of a call

`exec_effect` has one case for each call, and in each the lemma above gives either an error
or the fields of one constructor. The four decisions share `effect_of_decision`. -/

/-- Either a call was refused and left the store alone, or its function returned. -/
theorem settle_cases {α : Type} (s : EnrollmentStore) (result : α → Outcome)
    (x : Except StoreError (α × EnrollmentStore)) :
    (∃ e, x = .error e ∧ settle s result x = (.refused e, s)) ∨
      ∃ a s', x = .ok (a, s') ∧ settle s result x = (result a, s') := by
  cases x with
  | error e => exact Or.inl ⟨e, rfl, rfl⟩
  | ok r => exact Or.inr ⟨r.1, r.2, rfl, rfl⟩

theorem effect_of_create {pg : Postgres} {s : EnrollmentStore} {ev : Event} {id : UUID}
    {input : CreateAgentEnrollment} (hdecides : ev.op.decides = false)
    (hstatus : input.status = .pending ∨ (input.status = .approved ∧
      ev.op.approval = some ⟨input.name, input.region, input.continent, input.concurrency⟩)) :
    Effect pg s ev (settle s .enrollment (createAgentEnrollment s ev.now id input)).1
      (settle s .enrollment (createAgentEnrollment s ev.now id input)).2 := by
  rcases settle_cases s .enrollment (createAgentEnrollment s ev.now id input)
    with ⟨e, _, hx⟩ | ⟨item, s', hok, hx⟩
  · rw [hx]
    exact .refused e
  · obtain ⟨hid, htoken, hstorable, rfl, rfl⟩ := createAgentEnrollment_ok hok
    rw [hx]
    exact .created _ hdecides hid htoken hstorable rfl hstatus

theorem effect_of_decision {pg : Postgres} {s : EnrollmentStore} {ev : Event} {context : String}
    {named : EnrollmentRow → Bool} {refusal : Option DbError}
    {set : EnrollmentRow → EnrollmentRow} {hset : ∀ row, (set row).id = row.id}
    (hdecides : ev.op.decides = true) (hnamed : ∀ row, named row = ev.op.names pg row)
    (hdecision : Decision ev set) :
    Effect pg s ev (settle s .enrollment (updatePending s ev.now context named refusal set hset)).1
      (settle s .enrollment (updatePending s ev.now context named refusal set hset)).2 := by
  rcases settle_cases s .enrollment
    (updatePending s ev.now context named refusal set hset) with ⟨e, _, hx⟩ | ⟨item, s', hok, hx⟩
  · rw [hx]
    exact .refused e
  · obtain ⟨row, hrow, hname, hopen, rfl, rfl⟩ := updatePending_ok hok
    rw [hx]
    exact .decided named set hset hdecides hnamed hdecision row hrow (by rw [hname, hopen]; rfl)

theorem effect_of_claim {pg : Postgres} {s : EnrollmentStore} {ev : Event} {agentID : UUID}
    {tokenHash : String} {input : ClaimInput} (hop : ev.op = .claim agentID tokenHash input) :
    Effect pg s ev
      (settle s .enrollment
        (claimAgentEnrollment pg s ev.now ev.centerNow agentID tokenHash input)).1
      (settle s .enrollment
        (claimAgentEnrollment pg s ev.now ev.centerNow agentID tokenHash input)).2 := by
  rcases settle_cases s .enrollment
    (claimAgentEnrollment pg s ev.now ev.centerNow agentID tokenHash input)
    with ⟨e, _, hx⟩ | ⟨item, s', hok, hx⟩
  · rw [hx]
    exact .refused e
  · rw [hx]
    obtain ⟨row, hfound, ⟨hstatus, rfl, rfl⟩ | ⟨hstatus, hterm, hcenter, hfinish⟩⟩ :=
      claimAgentEnrollment_ok hok
    · exact .replayed row (by rw [hop]; rfl) (byToken_mem hfound).1 hstatus
    · obtain ⟨credentialID, huuid, hagent, hcredential, rfl, rfl⟩ := finishClaim_ok hfinish
      obtain ⟨hrow, rfl⟩ := byToken_mem hfound
      exact .claimed row input agentID credentialID hop hrow hstatus ⟨hterm, hcenter⟩ hagent huuid
        hcredential

/-- **There is no other way a call can end.** -/
theorem exec_effect (pg : Postgres) (s : EnrollmentStore) (ev : Event) :
    Effect pg s ev (exec pg s ev).1 (exec pg s ev).2 := by
  unfold exec
  -- one case for each call; a refusal by the cast of an id leaves the tables alone
  split
  case h_1 id input hop => exact effect_of_create (by rw [hop]; rfl) (Or.inl rfl)
  case h_2 id input hop =>
    exact effect_of_create (by rw [hop]; rfl) (Or.inr ⟨rfl, by rw [hop]; rfl⟩)
  case h_3 tokenHash input hop =>
    unfold approveAgentEnrollment
    dsimp only
    split
    · exact .refused _
    · exact effect_of_decision (by rw [hop]; rfl) (fun row => by rw [hop]; rfl)
        (.approve input (by rw [hop]; rfl))
  case h_4 enrollmentID input hop =>
    unfold approveAgentEnrollmentByID
    dsimp only
    split
    · exact .refused _
    rename_i id huuid
    split
    · exact .refused _
    · exact effect_of_decision (by rw [hop]; rfl)
        (fun row => by rw [hop]; simp [Op.names, huuid, eq_comm])
        (.approve input (by rw [hop]; rfl))
  case h_5 tokenHash hop =>
    unfold rejectAgentEnrollment
    dsimp only
    split
    · exact .refused _
    · exact effect_of_decision (by rw [hop]; rfl) (fun row => by rw [hop]; rfl) .reject
  case h_6 enrollmentID hop =>
    unfold rejectAgentEnrollmentByID
    dsimp only
    split
    · exact .refused _
    rename_i id huuid
    exact effect_of_decision (by rw [hop]; rfl)
      (fun row => by rw [hop]; simp [Op.names, huuid, eq_comm]) .reject
  case h_7 agentID tokenHash input hop => exact effect_of_claim hop
  case h_8 credentialID credentialHash hop =>
    rcases settle_cases s .agent
      (authenticateAgentCredential pg s ev.now credentialID credentialHash)
      with ⟨e, _, hx⟩ | ⟨agentID, s', hok, hx⟩
    · rw [hx]
      exact .refused e
    · rw [hx]
      obtain ⟨row, hrow, rfl, rfl⟩ := authenticateAgentCredential_ok hok
      exact .authenticated row (credential_some hrow).1

end Cfscan.Enrollment
