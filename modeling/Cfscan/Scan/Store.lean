import Cfscan.Scan.Schema
import Mathlib.Data.List.Sort

/-!
# Claiming, submitting, stopping — `internal/store/postgres/store.go`

`ClaimTasks`, `SubmitResults` and `StopScanJob` as transactions: the SQL statements each of them
sends, in order, with the Go control flow between them. A `return` before `tx.Commit` is a
rollback, by the deferred `tx.Rollback`, whether it returns an error or not.

`NOW()` is the start of the transaction and is passed in. Where a statement leaves an order open
(`ORDER BY j.created_at` between jobs of one instant), the choice of the server is passed in too.

The texts of the errors are kept where the store forms them, with the context it puts in front. What
the agents and the API make of an error is not told here.

An agent's id and a job's come as texts, and a text that is no uuid is refused by the first
statement that casts it. Leases are three minutes, from the start of the transaction that claims.
-/

set_option autoImplicit false

namespace Cfscan.Scan

open Cfscan.Lib Cfscan.Store

abbrev Program (α : Type) := Tx ScanStore RowKey Write α

/-! ## `ClaimTasks`

The query for jobs orders by creation time only, so among equals any order is possible:
`tie` is the choice. `FOR UPDATE SKIP LOCKED` is `lockUpTo`, which passes over rows that
another transaction holds and stops at the limit. -/

/-- One task of `model.TaskBatch`. -/
structure ClaimedTask where
  id : Int
  targetIP : String
deriving DecidableEq, Repr

structure TaskBatch where
  jobID : UUID
  jobName : String
  scheme : String
  hostname : String
  path : String
  port : Int
  attempts : Int
  timeoutMS : Int
  tasks : List ClaimedTask
deriving DecidableEq, Repr

def claimLimit (limit : Int) : Nat :=
  if limit ≤ 0 then 32 else if limit > 512 then 512 else limit.toNat

/-- `preferred_agent_id = $1 AND status = 'leased' AND lease_until < NOW()`. -/
def ScanTask.leaseExpired (agent : UUID) (now : Timestamp) (task : ScanTask) : Bool :=
  decide (task.preferredAgentID = agent) && decide (task.status = .leased) &&
    match task.leaseUntil with
    | none => false
    | some leaseUntil => decide (leaseUntil < now)

def ScanTask.expire (task : ScanTask) : ScanTask :=
  { task with status := .pending, leaseUntil := none }

@[simp] theorem ScanTask.id_expire (task : ScanTask) : task.expire.id = task.id := rfl

/-- `job_id = $1 AND preferred_agent_id = $2 AND status = 'pending'`. -/
def ScanTask.claimable (jobID agent : UUID) (task : ScanTask) : Bool :=
  decide (task.jobID = jobID) && decide (task.preferredAgentID = agent) &&
    decide (task.status = .pending)

/-- `status IN ('pending', 'running')`. -/
def ScanJob.active (job : ScanJob) : Bool :=
  decide (job.status = .pending) || decide (job.status = .running)

/-- The jobs the claim may take, oldest first. -/
def claimableJobs (tie : UUID → Nat) (agent : UUID) (s : ScanStore) : List UUID :=
  let candidates := s.jobs.rows.filter fun job =>
    job.active && s.tasks.rows.any (ScanTask.claimable job.id agent)
  (candidates.insertionSort fun a b => a.createdAt < b.createdAt ∨
    (a.createdAt = b.createdAt ∧ tie a.id ≤ tie b.id)).map ScanJob.id

/-- The tasks it may take of that job, by id. -/
def claimableTasks (jobID agent : UUID) (s : ScanStore) : List Int :=
  ((s.tasks.rows.filter (ScanTask.claimable jobID agent)).insertionSort fun a b =>
    a.id ≤ b.id).map ScanTask.id

/-- `INTERVAL '3 minutes'`. -/
def leaseTerm : Timestamp := 3 * minute

def ScanTask.lease (now : Timestamp) (task : ScanTask) : ScanTask :=
  { task with status := .leased, leaseUntil := some (now + leaseTerm) }

@[simp] theorem ScanTask.id_lease (now : Timestamp) (task : ScanTask) :
    (task.lease now).id = task.id := rfl

def ScanJob.start (now : Timestamp) (job : ScanJob) : ScanJob :=
  { job with status := .running, startedAt := some (job.startedAt.getD now) }

@[simp] theorem ScanJob.id_start (now : Timestamp) (job : ScanJob) :
    (job.start now).id = job.id := rfl

def ScanTask.claimed (task : ScanTask) : ClaimedTask := ⟨task.id, task.targetIP.host⟩

def taskBatch (job : ScanJob) (leased : List ScanTask) : TaskBatch where
  jobID := job.id
  jobName := job.name
  scheme := job.scheme
  hostname := job.hostname
  path := job.path
  port := job.port
  attempts := job.attempts
  timeoutMS := job.timeoutMS
  tasks := leased.map ScanTask.claimed

/-- From the job lock on. -/
def claimFrom (now : Timestamp) (agent : UUID) (limit : Int) (job : ScanJob) :
    Program (Ending (Except StoreError (Option TaskBatch))) := do
  let candidates ← Tx.read (claimableTasks job.id agent)
  let picked ← tasks.lockUpTo (ScanTask.claimable job.id agent) (claimLimit limit) candidates []
  let leased ← tasks.updateWhere (fun task => decide (task.id ∈ picked.map ScanTask.id))
    (ScanTask.lease now)
  if leased = [] then pure (.rollback (.ok none))
  else do
    let _ ← jobs.updateWhere (fun row => decide (row.id = job.id)) (ScanJob.start now)
    pure (.commit (.ok (some (taskBatch job leased))))

def claimTasks (pg : Postgres) (tie : UUID → Nat) (now : Timestamp) (agentID : String)
    (limit : Int) : Program (Ending (Except StoreError (Option TaskBatch))) :=
  match pg.uuid agentID with
  | none => pure (.rollback (.error (.db "" .castFailed)))
  | some agent => do
    let _ ← tasks.updateWhere (ScanTask.leaseExpired agent now) ScanTask.expire
    let candidates ← Tx.read (claimableJobs tie agent)
    match ← jobs.lockUpTo ScanJob.active 1 candidates [] with
    | [] => pure (.rollback (.ok none))
    | job :: _ => claimFrom now agent limit job

/-! ## `SubmitResults`

Errors that PostgreSQL raises are results of the statements: a text with a NUL, a number
past its column, a cast that fails. Each of them ends the loop, and the transaction is then
rolled back by the caller. -/

structure ProbeResult where
  taskID : Int
  targetIP : String
  available : Bool
  latencyMS : ℚ
  packetLoss : ℚ
  tcpConnectMS : ℚ
  tlsHandshakeMS : ℚ
  ttfbMS : ℚ
  totalMS : ℚ
  httpStatus : Int
  httpVersion : String
  tlsVersion : String
  colo : String
  cfRay : String
  errorCode : String
  errorMessage : String
  successfulTries : Int
  attempts : Int
deriving DecidableEq, Repr

structure ResultBatch where
  agentID : String
  jobID : String
  results : List ProbeResult
deriving DecidableEq, Repr

/-- `id = $1 AND job_id = $2 AND preferred_agent_id = $3 AND status = 'leased'`. -/
def ScanTask.submittable (jobID agent : UUID) (taskID : Int) (task : ScanTask) : Bool :=
  decide (task.id = taskID) && decide (task.jobID = jobID) &&
    decide (task.preferredAgentID = agent) && decide (task.status = .leased)

def ScanTask.complete (now : Timestamp) (task : ScanTask) : ScanTask :=
  { task with status := .completed, leaseUntil := none, completedAt := some now }

@[simp] theorem ScanTask.id_complete (now : Timestamp) (task : ScanTask) :
    (task.complete now).id = task.id := rfl

/-- `COALESCE(target_prefix::text, '')`. -/
def ScanTask.prefixText (task : ScanTask) : String :=
  match task.targetPrefix with
  | none => ""
  | some targetPrefix => targetPrefix.text

/-- `NULLIF($5::text, '')::cidr`. -/
def nullableCidr (pg : Postgres) (text : String) : Option (Option Cidr) :=
  if text = "" then some none else (pg.cidr text).map some

/-- The row of the `INSERT INTO scan_results`; `none` when the server refuses a value of it. -/
def ProbeResult.row (pg : Postgres) (now : Timestamp) (job : ScanJob) (agent : UUID)
    (task : ScanTask) (result : ProbeResult) : Option ScanResult := do
  let targetIP ← pg.inet task.targetIP.host
  let targetPrefix ← nullableCidr pg task.prefixText
  let errorMessage ← truncate result.errorMessage 1000
  guard ([result.httpVersion, result.tlsVersion, result.colo, result.cfRay, result.errorCode,
    errorMessage].all storable)
  guard ([result.httpStatus, result.successfulTries, result.attempts].all int4)
  some
    { jobID := job.id
      taskID := result.taskID
      agentID := agent
      targetIP := targetIP
      targetPrefix := targetPrefix
      available := result.available
      latencyMS := result.latencyMS
      packetLoss := result.packetLoss
      tcpConnectMS := result.tcpConnectMS
      tlsHandshakeMS := result.tlsHandshakeMS
      ttfbMS := result.ttfbMS
      totalMS := result.totalMS
      httpStatus := result.httpStatus
      httpVersion := result.httpVersion
      tlsVersion := result.tlsVersion
      colo := result.colo
      cfRay := result.cfRay
      errorCode := result.errorCode
      errorMessage := errorMessage
      successfulTries := result.successfulTries
      attempts := result.attempts
      scannedAt := now }

/-- `ON CONFLICT (task_id) DO UPDATE`: the columns it sets. -/
def ScanResult.overwrite (old new : ScanResult) : ScanResult :=
  { new with jobID := old.jobID, taskID := old.taskID, agentID := old.agentID,
             targetIP := old.targetIP }

def upsertResult (row : ScanResult) : Program Unit := do
  Tx.acquire (.result row.taskID)
  match ← Tx.read fun s => s.results.find? row.taskID with
  | none => Tx.put (.result row)
  | some old => Tx.put (.result (old.overwrite row))

/-- The `switch` of `SubmitResults`: why a result blacklists its target, or nothing. -/
def blacklistReason (job : ScanJob) (result : ProbeResult) : String :=
  if !result.available then
    if result.errorCode = "" then "UNAVAILABLE" else result.errorCode
  else if result.packetLoss > job.maxPacketLoss then "HIGH_PACKET_LOSS"
  else if result.latencyMS > job.maxLatencyMS then "HIGH_LATENCY"
  else ""

def ScanJob.retryAfter (job : ScanJob) (now : Timestamp) : Timestamp :=
  now + job.blacklistMinutes * minute

def newEntry (job : ScanJob) (now : Timestamp) (agent : UUID) (targetIP : Inet) (reason : String) :
    BlacklistEntry where
  agentID := agent
  targetIP := targetIP
  reason := reason
  failureCount := 1
  blockedAt := now
  retryAfter := job.retryAfter now
  updatedAt := now

def BlacklistEntry.again (job : ScanJob) (now : Timestamp) (reason : String)
    (entry : BlacklistEntry) : BlacklistEntry :=
  { entry with
    reason := reason
    failureCount := entry.failureCount + 1
    blockedAt := now
    retryAfter := job.retryAfter now
    updatedAt := now }

/-- The upsert of a blacklist entry; its error is a `failure_count` out of range. -/
def block (job : ScanJob) (now : Timestamp) (agent : UUID) (targetIP : Inet) (reason : String) :
    Program (Option StoreError) := do
  Tx.acquire (.blacklist agent targetIP)
  match ← Tx.read fun s => s.blacklist.find? (agent, targetIP) with
  | none => do
    Tx.put (.blacklist (newEntry job now agent targetIP reason))
    pure none
  | some entry =>
    if int4 (entry.failureCount + 1) then do
      Tx.put (.blacklist (entry.again job now reason))
      pure none
    else pure (some (.db "update blacklist" .valueRefused))

/-- `DELETE FROM blacklist_entries WHERE agent_id = $1 AND target_ip = $2::inet`. -/
def unblock (agent : UUID) (targetIP : Inet) : Program (Option StoreError) := do
  match ← Tx.read fun s => s.blacklist.find? (agent, targetIP) with
  | none => pure none
  | some _ =>
    Tx.acquire (.blacklist agent targetIP)
    match ← Tx.read fun s => s.blacklist.find? (agent, targetIP) with
    | none => pure none
    | some _ => do
      Tx.put (.unlist agent targetIP)
      pure none

/-- One result of the batch, from its completed task on. -/
def recordResult (pg : Postgres) (now : Timestamp) (job : ScanJob) (agent : UUID)
    (task : ScanTask) (result : ProbeResult) : Program (Option StoreError) :=
  if result.targetIP ≠ task.targetIP.host then
    pure (some (.message ("task " ++ toString result.taskID ++ " target mismatch")))
  else
    match result.row pg now job agent task with
    | none =>
      pure (some (.db ("insert result for task " ++ toString result.taskID) .valueRefused))
    | some row => do
      upsertResult row
      let reason := blacklistReason job result
      if reason ≠ "" then block job now agent row.targetIP reason
      else unblock agent row.targetIP

def submitResult (pg : Postgres) (now : Timestamp) (agentID : String) (job : ScanJob)
    (result : ProbeResult) : Program (Option StoreError) :=
  match pg.uuid agentID with
  | none => pure (some (.db ("complete task " ++ toString result.taskID) .castFailed))
  | some agent => do
    match ← tasks.updateWhere (ScanTask.submittable job.id agent result.taskID)
      (ScanTask.complete now) with
    | [] =>
      pure (some (.message
        ("task " ++ toString result.taskID ++ " does not belong to job or agent")))
    | task :: _ => recordResult pg now job agent task result

def submitEach (pg : Postgres) (now : Timestamp) (agentID : String) (job : ScanJob) :
    List ProbeResult → Program (Option StoreError)
  | [] => pure none
  | result :: results => do
    match ← submitResult pg now agentID job result with
    | some error => pure (some error)
    | none => submitEach pg now agentID job results

/-- The subquery `stats` of the progress update. -/
structure Stats where
  completed : Nat
  success : Nat
  failed : Nat
deriving DecidableEq, Repr

/-- `r.available AND r.packet_loss <= j2.max_packet_loss AND r.latency_ms <= j2.max_latency_ms`. -/
def ScanResult.passes (job : ScanJob) (row : ScanResult) : Bool :=
  row.available && decide (row.packetLoss ≤ job.maxPacketLoss) &&
    decide (row.latencyMS ≤ job.maxLatencyMS)

/-- `NOT r.available OR r.packet_loss > … OR r.latency_ms > …`. -/
def ScanResult.fails (job : ScanJob) (row : ScanResult) : Bool :=
  !row.available || decide (row.packetLoss > job.maxPacketLoss) ||
    decide (row.latencyMS > job.maxLatencyMS)

/-- A task counted under a condition on its result; a missing result is a `NULL` condition. -/
def ScanStore.counts (s : ScanStore) (condition : ScanResult → Bool) (task : ScanTask) : Bool :=
  decide (task.status = .completed) &&
    match s.results.find? task.id with
    | none => false
    | some row => condition row

def ScanStore.jobTasks (s : ScanStore) (jobID : UUID) : List ScanTask :=
  s.tasks.rows.filter fun task => decide (task.jobID = jobID)

/-- No row when the job has no task: `GROUP BY` has no group then. -/
def ScanStore.stats (s : ScanStore) (jobID : UUID) : Option Stats :=
  match s.jobs.find? jobID with
  | none => none
  | some job =>
    if s.jobTasks jobID = [] then none
    else
      some
        { completed := (s.jobTasks jobID).countP fun task => decide (task.status = .completed)
          success := (s.jobTasks jobID).countP (s.counts (ScanResult.passes job))
          failed := (s.jobTasks jobID).countP (s.counts (ScanResult.fails job)) }

def ScanJob.progress (now : Timestamp) (stats : Stats) (job : ScanJob) : ScanJob :=
  { job with
    completedTargets := stats.completed
    successTargets := stats.success
    failedTargets := stats.failed
    status := if (stats.completed : Int) ≥ job.totalTargets then .completed else .running
    finishedAt := if (stats.completed : Int) ≥ job.totalTargets then some now else none }

@[simp] theorem ScanJob.id_progress (now : Timestamp) (stats : Stats) (job : ScanJob) :
    (job.progress now stats).id = job.id := rfl

/-- The progress update. The job row has been locked since the first statement, so reading it
and reading `stats` can be two actions. -/
def updateProgress (now : Timestamp) (jobID : UUID) : Program (Option StoreError) := do
  match ← Tx.read fun s => s.stats jobID with
  | none => pure none
  | some stats =>
    if [stats.completed, stats.success, stats.failed].all fun n => int4 n then do
      let _ ← jobs.updateWhere (fun row => decide (row.id = jobID)) (ScanJob.progress now stats)
      pure none
    else pure (some (.db "update job progress" .valueRefused))

def submitResults (pg : Postgres) (now : Timestamp) (batch : ResultBatch) :
    Program (Ending (Except StoreError Unit)) :=
  match pg.uuid batch.jobID with
  | none => pure (.rollback (.error (.db "load job thresholds" .castFailed)))
  | some jobID => do
    match ← jobs.selectForUpdate jobID with
    | none => pure (.rollback (.error (.db "load job thresholds" .noRows)))
    | some job =>
      if job.status = .stopped then pure (.commit (.ok ()))
      else do
        match ← submitEach pg now batch.agentID job batch.results with
        | some error => pure (.rollback (.error error))
        | none => do
          match ← updateProgress now job.id with
          | some error => pure (.rollback (.error error))
          | none => pure (.commit (.ok ()))

/-! ## `StopScanJob` -/

def JobStatus.text : JobStatus → String
  | .pending => "pending"
  | .running => "running"
  | .completed => "completed"
  | .stopped => "stopped"

/-- `job_id = $1 AND status IN ('pending','leased')`. -/
def ScanTask.stoppable (jobID : UUID) (task : ScanTask) : Bool :=
  decide (task.jobID = jobID) && (decide (task.status = .pending) || decide (task.status = .leased))

def ScanTask.cancel (task : ScanTask) : ScanTask :=
  { task with status := .cancelled, leaseUntil := none }

@[simp] theorem ScanTask.id_cancel (task : ScanTask) : task.cancel.id = task.id := rfl

def ScanJob.stop (now : Timestamp) (job : ScanJob) : ScanJob :=
  { job with status := .stopped, finishedAt := some now }

@[simp] theorem ScanJob.id_stop (now : Timestamp) (job : ScanJob) :
    (job.stop now).id = job.id := rfl

def stopScanJob (pg : Postgres) (now : Timestamp) (id : String) :
    Program (Ending (Except StoreError ScanJob)) :=
  match pg.uuid id with
  | none => pure (.rollback (.error (.db "load job for stop" .castFailed)))
  | some jobID => do
    match ← jobs.selectForUpdate jobID with
    | none => pure (.rollback (.error (.db "load job for stop" .noRows)))
    | some job =>
      if job.status ≠ .pending ∧ job.status ≠ .running then
        pure (.rollback (.error (.message
          ("job cannot be stopped from status " ++ job.status.text))))
      else do
        let _ ← tasks.updateWhere (ScanTask.stoppable jobID) ScanTask.cancel
        let _ ← jobs.updateWhere (fun row => decide (row.id = jobID)) (ScanJob.stop now)
        match ← Tx.read fun s => s.jobs.find? jobID with
        | none => pure (.rollback (.error (.db "" .noRows)))
        | some item => pure (.commit (.ok item))

end Cfscan.Scan
