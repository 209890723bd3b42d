import Cfscan.Enrollment.Endpoint
import Cfscan.Lib.Along
import Cfscan.Scan.Rows

/-!
# What an agent can ask for — `internal/api/api.go`

The handlers behind `requireAgentToken`: heartbeat, claiming tasks, submitting results. Whatever
the body of a request says, the agent a handler works for is the one the token named.

The token is checked first, in a transaction of its own that writes the time of its last use, and
the handler runs on what that left. A body that `decodeJSON` refuses is a request here, `malformed`,
answered after the token has been checked.

Decoding itself is not modelled, nor is the size a body may have. `AllBy` is the condition on a
sequence of requests that each of them is authenticated as one agent when it arrives: a credential
that is revoked between two of them ends it.
-/

set_option autoImplicit false

namespace Cfscan.Agent

open Cfscan.Lib Cfscan.Store Cfscan.Enrollment Cfscan.Scan

/-- The database, as agents reach it. -/
structure Center where
  enrollment : EnrollmentStore
  scan : ScanStore

/-! ## Heartbeat -/

/-- `status = 'online', last_seen_at = NOW(), updated_at = NOW()`. -/
def beat (now : Timestamp) (agent : AgentRow) : AgentRow :=
  { agent with status := "online", lastSeenAt := now, updatedAt := now }

def heartbeat (pg : Postgres) (s : EnrollmentStore) (now : Timestamp) (agentID : String) :
    Except StoreError EnrollmentStore :=
  match pg.uuid agentID with
  | none => .error (.db "heartbeat" .castFailed)
  | some id =>
    match s.agents.find? id with
    | none => .error (.message "agent not found")
    | some agent => .ok { s with agents := s.agents.put (beat now agent) }

/-! ## Requests and replies

`serve` checks the token and then runs the handler; the order matters, since the check
writes as well. The id the handler works with is the text the server prints for the agent of
the token, and is cast again by every statement. -/

inductive Request where
  /-- A body `decodeJSON` refuses, and its message. -/
  | malformed (message : String)
  | heartbeat
  | claimTask (limit : Int)
  | submitResults (input : ResultBatch)

inductive Reply where
  | noContent
  | batch (body : TaskBatch)
  | error (status : Nat) (code message : String)
  /-- The message is the text of the store's error. -/
  | storeError (status : Nat) (code : String) (error : StoreError)
deriving DecidableEq

/-- A request with its `Authorization` header, the instants of its two transactions and the order
of the server between jobs of one instant. -/
structure Visit where
  authorization : String
  request : Request
  seen : Timestamp
  now : Timestamp
  tie : UUID → Nat

def internalError : Reply := .error 500 "internal_error" "request failed"

def claimTask (pg : Postgres) (visit : Visit) (c : Center) (agentID : String) (limit : Int) :
    Reply × Center :=
  match (claimTasks pg visit.tie visit.now agentID limit).exec c.scan with
  | (.error _, s) => (internalError, { c with scan := s })
  | (.ok none, s) => (.noContent, { c with scan := s })
  | (.ok (some batch), s) =>
    (if batch.tasks = [] then .noContent else .batch batch, { c with scan := s })

def submitResults (pg : Postgres) (visit : Visit) (c : Center) (agentID : String)
    (input : ResultBatch) : Reply × Center :=
  if input.jobID = "" ∨ input.results = [] then
    (.error 400 "invalid_request" "job_id and results are required", c)
  else
    match (Scan.submitResults pg visit.now { input with agentID := agentID }).exec c.scan with
    | (.error _, s) => (internalError, { c with scan := s })
    | (.ok (), s) => (.noContent, { c with scan := s })

/-- The three handlers, for the agent the token named. -/
def handle (pg : Postgres) (visit : Visit) (c : Center) (agentID : String) : Reply × Center :=
  match visit.request with
  | .malformed message => (.error 400 "invalid_request" message, c)
  | .heartbeat =>
    match heartbeat pg c.enrollment visit.now agentID with
    | .error error => (.storeError 404 "agent_not_found" error, c)
    | .ok s => (.noContent, { c with enrollment := s })
  | .claimTask limit => claimTask pg visit c agentID limit
  | .submitResults input => submitResults pg visit c agentID input

/-- `uuidText` is the `::text` of an agent id, which is what `AuthenticateAgentCredential`
returns. -/
def serve (pg : Postgres) (sha256 : String → Vector UInt8 32) (uuidText : UUID → String)
    (c : Center) (visit : Visit) : Reply × Center :=
  match Api.requireAgentToken pg sha256 visit.seen c.enrollment visit.authorization with
  | (.unauthorized, s) =>
    (.error 401 "unauthorized" "invalid agent token", { c with enrollment := s })
  | (.internalError, s) => (internalError, { c with enrollment := s })
  | (.agent id, s) => handle pg visit { c with enrollment := s } (uuidText id)

/-- The replies to a sequence of requests, and the database after it. -/
def serveEach (pg : Postgres) (sha256 : String → Vector UInt8 32) (uuidText : UUID → String)
    (c : Center) : List Visit → List Reply × Center
  | [] => ([], c)
  | visit :: visits =>
    let first := serve pg sha256 uuidText c visit
    let rest := serveEach pg sha256 uuidText first.2 visits
    (first.1 :: rest.1, rest.2)

/-- Every request of the sequence is authenticated as `agentID` when it arrives. -/
def AllBy (pg : Postgres) (sha256 : String → Vector UInt8 32) (uuidText : UUID → String)
    (agentID : UUID) (c : Center) (visits : List Visit) : Prop :=
  Along (fun c visit => (serve pg sha256 uuidText c visit).2)
    (fun c visit =>
      (Api.requireAgentToken pg sha256 visit.seen c.enrollment visit.authorization).1 =
        .agent agentID)
    c visits

instance (pg : Postgres) (sha256 : String → Vector UInt8 32) (uuidText : UUID → String)
    (agentID : UUID) (c : Center) (visits : List Visit) :
    Decidable (AllBy pg sha256 uuidText agentID c visits) :=
  inferInstanceAs (Decidable (Along _ _ _ _))

end Cfscan.Agent
