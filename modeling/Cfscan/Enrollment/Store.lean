import Cfscan.Store.Postgres

/-!
# The enrollment store — `internal/store/postgres/enrollments.go`

Three tables: `agent_enrollments`, `agents` and `agent_credentials`, with the columns the store's
functions read or return. A call is one transaction, and it is modelled as a function of the
store: `.error` means the transaction rolled back, so the store it started from is still there.

What the calls draw from outside is passed in: the clock of the database (`NOW()`), the clock of
the center (`time.Now()` in `ClaimAgentEnrollment`), and the uuids `gen_random_uuid()` returns.

The checks stand in the order in which PostgreSQL meets them: the values a column takes, the
`CHECK`s, the unique keys. A call has one of these errors at a time, with the context the Go code
wraps it in.

The rows are read under a lock where the code takes one (`FOR UPDATE`), and a call is therefore one
step. Columns that no function of this file reads or returns are left out.
-/

set_option autoImplicit false

namespace Cfscan.Enrollment

open Cfscan.Lib Cfscan.Store

/-! ## Rows -/

inductive EnrollmentMode where
  | device
  | preauthorized
deriving DecidableEq, Repr

/-- The values the `CHECK` on `agent_enrollments.status` allows. -/
inductive StoredStatus where
  | pending
  | approved
  | claimed
  | rejected
  | revoked
deriving DecidableEq, Repr

/-- The status a reader sees: `expired` is computed, never stored. -/
inductive EnrollmentStatus where
  | stored (status : StoredStatus)
  | expired
deriving DecidableEq, Repr

structure EnrollmentRow where
  id : UUID
  tokenHash : String
  mode : EnrollmentMode
  status : StoredStatus
  requestedName : String
  os : String
  architecture : String
  version : String
  requestedConcurrency : Int
  name : String
  region : String
  continent : String
  concurrency : Int
  agentID : Option UUID
  expiresAt : Timestamp
  approvedAt : Option Timestamp
  claimedAt : Option Timestamp
  createdAt : Timestamp
  updatedAt : Timestamp
deriving DecidableEq, Repr

/-- `agents.status` is `'online'` in every row the claim inserts. -/
structure AgentRow where
  id : UUID
  name : String
  region : String
  continent : String
  concurrency : Int
  status : String
  os : String
  architecture : String
  version : String
  lastSeenAt : Timestamp
  createdAt : Timestamp
  updatedAt : Timestamp
deriving DecidableEq, Repr

structure CredentialRow where
  id : UUID
  agentID : UUID
  secretHash : String
  createdAt : Timestamp
  lastUsedAt : Option Timestamp
  revokedAt : Option Timestamp
deriving DecidableEq, Repr

structure EnrollmentStore where
  enrollments : Table UUID EnrollmentRow EnrollmentRow.id
  agents : Table UUID AgentRow AgentRow.id
  credentials : Table UUID CredentialRow CredentialRow.id

def EnrollmentStore.empty : EnrollmentStore := ⟨.empty, .empty, .empty⟩

/-! ## Reading

The status a reader sees is computed at the time of reading. A claim looks at the same
status, and at the center's own clock besides. -/

/-- `model.AgentEnrollment`, the columns of `enrollmentColumns`; an empty `agent_id` text is
`none`. -/
structure AgentEnrollment where
  id : UUID
  mode : EnrollmentMode
  status : EnrollmentStatus
  requestedName : String
  os : String
  architecture : String
  version : String
  requestedConcurrency : Int
  name : String
  region : String
  continent : String
  concurrency : Int
  agentID : Option UUID
  expiresAt : Timestamp
  approvedAt : Option Timestamp
  claimedAt : Option Timestamp
  createdAt : Timestamp
  updatedAt : Timestamp
deriving DecidableEq, Repr

/-- The `CASE` of `enrollmentColumns`. -/
def shownStatus (now : Timestamp) (row : EnrollmentRow) : EnrollmentStatus :=
  if (row.status = .pending ∨ row.status = .approved) ∧ row.expiresAt ≤ now then .expired
  else .stored row.status

def scanEnrollment (now : Timestamp) (row : EnrollmentRow) : AgentEnrollment where
  id := row.id
  mode := row.mode
  status := shownStatus now row
  requestedName := row.requestedName
  os := row.os
  architecture := row.architecture
  version := row.version
  requestedConcurrency := row.requestedConcurrency
  name := row.name
  region := row.region
  continent := row.continent
  concurrency := row.concurrency
  agentID := row.agentID
  expiresAt := row.expiresAt
  approvedAt := row.approvedAt
  claimedAt := row.claimedAt
  createdAt := row.createdAt
  updatedAt := row.updatedAt

def enrollmentStateError : EnrollmentStatus → StoreError
  | .stored .pending => .enrollmentPending
  | .expired => .enrollmentExpired
  | .stored .rejected => .enrollmentRejected
  | .stored .revoked => .enrollmentRevoked
  | .stored .claimed => .enrollmentClaimed
  | .stored .approved => .enrollmentConflict

/-! ## Creating -/

/-- `model.CreateAgentEnrollment`. -/
structure CreateAgentEnrollment where
  tokenHash : String
  mode : EnrollmentMode
  status : StoredStatus
  requestedName : String
  os : String
  architecture : String
  version : String
  requestedConcurrency : Int
  name : String
  region : String
  continent : String
  concurrency : Int
  expiresAt : Timestamp
deriving DecidableEq, Repr

def CreateAgentEnrollment.storable (input : CreateAgentEnrollment) : Bool :=
  [input.tokenHash, input.requestedName, input.os, input.architecture, input.version, input.name,
      input.region, input.continent].all Store.storable &&
    int4 input.requestedConcurrency && int4 input.concurrency

def CreateAgentEnrollment.row (input : CreateAgentEnrollment) (id : UUID) (now : Timestamp) :
    EnrollmentRow where
  id := id
  tokenHash := input.tokenHash
  mode := input.mode
  status := input.status
  requestedName := input.requestedName
  os := input.os
  architecture := input.architecture
  version := input.version
  requestedConcurrency := input.requestedConcurrency
  name := input.name
  region := input.region
  continent := input.continent
  concurrency := input.concurrency
  agentID := none
  expiresAt := input.expiresAt
  approvedAt := if input.status = .approved then some now else none
  claimedAt := none
  createdAt := now
  updatedAt := now

/-- The row a token hash names; `token_hash` is `UNIQUE`. -/
def EnrollmentStore.byToken (s : EnrollmentStore) (tokenHash : String) : Option EnrollmentRow :=
  s.enrollments.rows.find? fun row => decide (row.tokenHash = tokenHash)

def createAgentEnrollment (s : EnrollmentStore) (now : Timestamp) (id : UUID)
    (input : CreateAgentEnrollment) : Except StoreError (AgentEnrollment × EnrollmentStore) :=
  let context := "create agent enrollment"
  if input.storable = false then .error (.db context .valueRefused)
  else if ¬ (input.requestedConcurrency > 0 ∧ input.concurrency > 0) then
    .error (.db context .checkViolation)
  else if s.enrollments.find? id ≠ none ∨ s.byToken input.tokenHash ≠ none then
    .error (.db context .uniqueViolation)
  else
    .ok (scanEnrollment now (input.row id now),
      { s with enrollments := s.enrollments.put (input.row id now) })

/-! ## Approving and rejecting

The four functions are one `UPDATE … WHERE <key> AND status='pending' AND expires_at > NOW()`
followed, when it hits no row, by a read that decides the error. -/

/-- `model.ApproveAgentEnrollmentRequest`. -/
structure ApproveAgentEnrollmentRequest where
  name : String
  region : String
  continent : String
  concurrency : Int
deriving DecidableEq, Repr

def ApproveAgentEnrollmentRequest.storable (input : ApproveAgentEnrollmentRequest) : Bool :=
  [input.name, input.region, input.continent].all Store.storable && int4 input.concurrency

def EnrollmentRow.approve (input : ApproveAgentEnrollmentRequest) (now : Timestamp)
    (row : EnrollmentRow) : EnrollmentRow :=
  { row with
    status := .approved
    name := input.name
    region := input.region
    continent := input.continent
    concurrency := input.concurrency
    approvedAt := some now
    updatedAt := now }

def EnrollmentRow.reject (now : Timestamp) (row : EnrollmentRow) : EnrollmentRow :=
  { row with status := .rejected, updatedAt := now }

/-- The `WHERE` clause of the four updates, below its key condition. -/
def EnrollmentRow.openAt (now : Timestamp) (row : EnrollmentRow) : Bool :=
  decide (row.status = .pending) && decide (row.expiresAt > now)

/-- `refusal`: the violation the update would raise on a row it reaches. -/
def updatePending (s : EnrollmentStore) (now : Timestamp) (context : String)
    (named : EnrollmentRow → Bool) (refusal : Option DbError) (set : EnrollmentRow → EnrollmentRow)
    (hset : ∀ row, (set row).id = row.id) :
    Except StoreError (AgentEnrollment × EnrollmentStore) :=
  match s.enrollments.rows.find? fun row => named row && row.openAt now with
  | some row =>
    match refusal with
    | some cause => .error (.db context cause)
    | none =>
      .ok (scanEnrollment now (set row),
        { s with
          enrollments := s.enrollments.updateWhere (fun row => named row && row.openAt now) set
            hset })
  | none =>
    match s.enrollments.rows.find? named with
    | none => .error .notFound
    | some row => .error (enrollmentStateError (shownStatus now row))

/-- `concurrency INTEGER NOT NULL CHECK (concurrency > 0)`. -/
def ApproveAgentEnrollmentRequest.refusal (input : ApproveAgentEnrollmentRequest) :
    Option DbError :=
  if input.concurrency > 0 then none else some .checkViolation

def approveAgentEnrollment (s : EnrollmentStore) (now : Timestamp) (tokenHash : String)
    (input : ApproveAgentEnrollmentRequest) :
    Except StoreError (AgentEnrollment × EnrollmentStore) :=
  let context := "approve agent enrollment"
  if (Store.storable tokenHash && input.storable) = false then .error (.db context .valueRefused)
  else
    updatePending s now context (fun row => decide (row.tokenHash = tokenHash)) input.refusal
      (EnrollmentRow.approve input now) (fun _ => rfl)

def approveAgentEnrollmentByID (pg : Postgres) (s : EnrollmentStore) (now : Timestamp)
    (enrollmentID : String) (input : ApproveAgentEnrollmentRequest) :
    Except StoreError (AgentEnrollment × EnrollmentStore) :=
  let context := "approve agent enrollment by id"
  match pg.uuid enrollmentID with
  | none => .error (.db context .castFailed)
  | some id =>
    if input.storable = false then .error (.db context .valueRefused)
    else
      updatePending s now context (fun row => decide (row.id = id)) input.refusal
        (EnrollmentRow.approve input now) (fun _ => rfl)

def rejectAgentEnrollment (s : EnrollmentStore) (now : Timestamp) (tokenHash : String) :
    Except StoreError (AgentEnrollment × EnrollmentStore) :=
  let context := "reject agent enrollment"
  if Store.storable tokenHash = false then .error (.db context .valueRefused)
  else
    updatePending s now context (fun row => decide (row.tokenHash = tokenHash)) none
      (EnrollmentRow.reject now) (fun _ => rfl)

def rejectAgentEnrollmentByID (pg : Postgres) (s : EnrollmentStore) (now : Timestamp)
    (enrollmentID : String) : Except StoreError (AgentEnrollment × EnrollmentStore) :=
  let context := "reject agent enrollment by id"
  match pg.uuid enrollmentID with
  | none => .error (.db context .castFailed)
  | some id =>
    updatePending s now context (fun row => decide (row.id = id)) none (EnrollmentRow.reject now)
      (fun _ => rfl)

/-! ## Claiming

The row is locked, then the state decides: a claimed one is replayed if the credential is
the one it was claimed with, an approved one gets its agent and credential. Labels that the
claim leaves blank are taken from the row. -/

/-- The credential row a lookup `WHERE id=$1::uuid AND secret_hash=$2 AND revoked_at IS NULL`
finds. -/
def EnrollmentStore.credential (pg : Postgres) (s : EnrollmentStore)
    (credentialID credentialHash : String) : Option CredentialRow :=
  match pg.uuid credentialID with
  | none => none
  | some id =>
    match s.credentials.find? id with
    | none => none
    | some row => if row.secretHash = credentialHash ∧ row.revokedAt = none then some row else none

/-- A text of the claim request replaces the enrollment's own unless it is blank. -/
def claimText (requested stored : String) : String :=
  if trimSpace requested ≠ "" then trimSpace requested else stored

/-- What a claim request carries besides the token. -/
structure ClaimInput where
  credentialID : String
  credentialHash : String
  osName : String
  architecture : String
  version : String
deriving DecidableEq, Repr

def claimedAgent (row : EnrollmentRow) (input : ClaimInput) (agentID : UUID) (now : Timestamp) :
    AgentRow where
  id := agentID
  name := row.name
  region := row.region
  continent := row.continent
  concurrency := row.concurrency
  status := "online"
  os := claimText input.osName row.os
  architecture := claimText input.architecture row.architecture
  version := claimText input.version row.version
  lastSeenAt := now
  createdAt := now
  updatedAt := now

def EnrollmentRow.claim (input : ClaimInput) (agentID : UUID) (now : Timestamp)
    (row : EnrollmentRow) : EnrollmentRow :=
  { row with
    status := .claimed
    agentID := some agentID
    os := claimText input.osName row.os
    architecture := claimText input.architecture row.architecture
    version := claimText input.version row.version
    claimedAt := some now
    updatedAt := now }

/-- The texts the claim adds to the ones the enrollment already stores. -/
def AgentRow.storable (agent : AgentRow) : Bool :=
  [agent.os, agent.architecture, agent.version].all Store.storable

/-- Code 23505 on the insert into `agents`: the primary key, or `agents.name`. -/
def EnrollmentStore.agentConflict (s : EnrollmentStore) (agent : AgentRow) : Prop :=
  s.agents.find? agent.id ≠ none ∨ ∃ other ∈ s.agents.rows, other.name = agent.name

instance (s : EnrollmentStore) (agent : AgentRow) : Decidable (s.agentConflict agent) :=
  inferInstanceAs (Decidable (_ ∨ _))

/-- The three writes of a first claim, in the order the transaction makes them. -/
def finishClaim (pg : Postgres) (s : EnrollmentStore) (now : Timestamp) (row : EnrollmentRow)
    (input : ClaimInput) (agent : AgentRow) :
    Except StoreError (AgentEnrollment × EnrollmentStore) :=
  if agent.storable = false then .error (.db "create enrolled agent" .valueRefused)
  else if ¬ agent.concurrency > 0 then .error (.db "create enrolled agent" .checkViolation)
  else if s.agentConflict agent then .error .enrollmentConflict
  else
    match pg.uuid input.credentialID with
    | none => .error (.db "create agent credential" .castFailed)
    | some credentialID =>
      if Store.storable input.credentialHash = false then
        .error (.db "create agent credential" .valueRefused)
      else if s.credentials.find? credentialID ≠ none then
        .error (.db "create agent credential" .uniqueViolation)
      else
        .ok (scanEnrollment now (row.claim input agent.id now),
          { enrollments := s.enrollments.put (row.claim input agent.id now)
            agents := s.agents.put agent
            credentials := s.credentials.put
              { id := credentialID, agentID := agent.id, secretHash := input.credentialHash,
                createdAt := now, lastUsedAt := none, revokedAt := none } })

def claimAgentEnrollment (pg : Postgres) (s : EnrollmentStore) (now centerNow : Timestamp)
    (agentID : UUID) (tokenHash : String) (input : ClaimInput) :
    Except StoreError (AgentEnrollment × EnrollmentStore) :=
  if Store.storable tokenHash = false then .error (.db "load enrollment for claim" .valueRefused)
  else
    match s.byToken tokenHash with
    | none => .error .notFound
    | some row =>
      let status := shownStatus now row
      if status = .stored .claimed then
        match s.credential pg input.credentialID input.credentialHash with
        | some credential =>
          if some credential.agentID = row.agentID then .ok (scanEnrollment now row, s)
          else .error .enrollmentClaimed
        | none => .error .enrollmentClaimed
      else if status = .expired ∨ ¬ row.expiresAt > centerNow then .error .enrollmentExpired
      else if status = .stored .pending then .error .enrollmentPending
      else if status = .stored .rejected then .error .enrollmentRejected
      else if status = .stored .revoked then .error .enrollmentRevoked
      else if status ≠ .stored .approved then .error (enrollmentStateError status)
      else finishClaim pg s now row input (claimedAgent row input agentID now)

/-! ## Authenticating -/

def authenticateAgentCredential (pg : Postgres) (s : EnrollmentStore) (now : Timestamp)
    (credentialID credentialHash : String) : Except StoreError (UUID × EnrollmentStore) :=
  let context := "authenticate agent credential"
  if pg.uuid credentialID = none then .error (.db context .castFailed)
  else if Store.storable credentialHash = false then .error (.db context .valueRefused)
  else
    match s.credential pg credentialID credentialHash with
    | none => .error .invalidAgentCredential
    | some row =>
      .ok (row.agentID,
        { s with credentials := s.credentials.put { row with lastUsedAt := some now } })

end Cfscan.Enrollment
