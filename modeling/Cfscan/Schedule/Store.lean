import Cfscan.Scan.Create

/-!
# The recurring automations in the store — `internal/store/postgres/store.go`

Three tables with a cron expression, a timezone and a `next_run_at`: `scan_schedules`,
`blacklist_recheck_settings` and `source_sync_schedules`. Each has an update, a claim that moves
`next_run_at` of a due row ahead by a lease, and a record that settles it after the run.

`robfig/cron` is passed in: an expression and a timezone give an error or the function from an
instant to the next one. The columns of a scan schedule that only the choice of targets reads
(`agent_ids`, `target_count`, `include_ipv6`) are left out.

`SKIP LOCKED` leaves out the rows somebody else holds, and which these are is passed in with every
claim, as is the order among rows that are due at the same time. A claim is otherwise one step: the
rows it returns are the rows it has moved.

What a row of `scan_schedules` has beyond this, and that the statements write what they are given,
is `Scans.Schedules`.
-/

set_option autoImplicit false

namespace Cfscan.Schedule

open Cfscan.Lib Cfscan.Store Cfscan.Scan

/-! ## Cron -/

/-- The expression and the timezone of an automation. -/
structure Plan where
  cronExpression : String
  timezone : String
deriving DecidableEq, Repr

/-- `scheduling.Next`, parsed: the error, or the instant after a given one. -/
abbrev Cron := Plan → Except String (Timestamp → Timestamp)

/-- `scheduling.Next`. -/
def next (cron : Cron) (plan : Plan) (after : Timestamp) : Except String Timestamp :=
  (cron plan).map fun due => due after

/-- How long a claim moves `next_run_at` ahead. -/
def claimLease : Timestamp := 5 * minute

/-- `last_error`: empty, or the error cut to 2000 bytes; `none` when the server refuses the text. -/
def lastErrorText (runErr : Option String) : Option String :=
  match runErr with
  | none => some ""
  | some text => (truncate text 2000).filter storable

/-! ## Scan schedules

A claim moves `next_run_at` ahead by the lease and returns the row as it was claimed, so
that a crash of the center delays a run and does not lose it. -/

structure ScanSchedule where
  id : UUID
  enabled : Bool
  plan : Plan
  /-- What `JobRequest` makes of the other columns. -/
  jobRequest : CreateScanJobRequest
  nextRunAt : Timestamp
  lastRunAt : Option Timestamp
  lastJobID : Option UUID
  lastError : String
  createdAt : Timestamp
  updatedAt : Timestamp
deriving DecidableEq, Repr

abbrev ScanSchedules := Table UUID ScanSchedule ScanSchedule.id

/-- `model.UpsertScanScheduleRequest`, after `normalizeSchedule`. -/
structure UpsertScanScheduleRequest where
  enabled : Bool
  plan : Plan
  jobRequest : CreateScanJobRequest
deriving DecidableEq, Repr

def createScanSchedule (s : ScanSchedules) (now : Timestamp) (id : UUID)
    (input : UpsertScanScheduleRequest) (nextRun : Timestamp) :
    Except StoreError ScanSchedules :=
  if s.find? id ≠ none then .error (.db "create scan schedule" .uniqueViolation)
  else
    .ok (s.put
      { id := id, enabled := input.enabled, plan := input.plan, jobRequest := input.jobRequest
        nextRunAt := nextRun, lastRunAt := none, lastJobID := none, lastError := ""
        createdAt := now, updatedAt := now })

def ScanSchedule.update (now : Timestamp) (input : UpsertScanScheduleRequest)
    (nextRun : Timestamp) (row : ScanSchedule) : ScanSchedule :=
  { row with
    enabled := input.enabled
    plan := input.plan
    jobRequest := input.jobRequest
    nextRunAt := nextRun
    lastError := ""
    updatedAt := now }

def updateScanSchedule (s : ScanSchedules) (now : Timestamp) (id : UUID)
    (input : UpsertScanScheduleRequest) (nextRun : Timestamp) : Except StoreError ScanSchedules :=
  match s.find? id with
  | none => .error (.message "scan schedule not found")
  | some row => .ok (s.put (row.update now input nextRun))

/-- `limit <= 0 || limit > 100`. -/
def scheduleLimit (limit : Int) : Nat := if limit ≤ 0 ∨ limit > 100 then 20 else limit.toNat

/-- The `WHERE` clause of the claim. `active` says of a job whether its status is pending or
running. -/
def ScanSchedule.due (active : UUID → Bool) (now : Timestamp) (row : ScanSchedule) : Bool :=
  row.enabled && decide (row.nextRunAt ≤ now) &&
    match row.lastJobID with
    | none => true
    | some job => !active job

/-- The rows a claim picks: due, not locked by somebody else, soonest first. -/
def pickedSchedules (s : ScanSchedules) (active : UUID → Bool) (locked : UUID → Bool)
    (tie : UUID → Nat) (now : Timestamp) (limit : Int) : List ScanSchedule :=
  let candidates := s.rows.filter fun row => row.due active now && !locked row.id
  (candidates.insertionSort fun a b => a.nextRunAt < b.nextRunAt ∨
    (a.nextRunAt = b.nextRunAt ∧ tie a.id ≤ tie b.id)).take (scheduleLimit limit)

def ScanSchedule.claim (now leaseUntil : Timestamp) (row : ScanSchedule) : ScanSchedule :=
  { row with nextRunAt := leaseUntil, updatedAt := now }

@[simp] theorem ScanSchedule.id_claim (now leaseUntil : Timestamp) (row : ScanSchedule) :
    (row.claim now leaseUntil).id = row.id := rfl

/-- `ClaimDueScanSchedules`, executed at `instant`; `now` is what its caller read off the clock. -/
def claimDueScanSchedules (s : ScanSchedules) (active : UUID → Bool) (locked : UUID → Bool)
    (tie : UUID → Nat) (instant now leaseUntil : Timestamp) (limit : Int) :
    List ScanSchedule × ScanSchedules :=
  let picked := pickedSchedules s active locked tie now limit
  (picked.map (ScanSchedule.claim instant leaseUntil),
    s.updateWhere (fun row => decide (row.id ∈ picked.map ScanSchedule.id))
      (ScanSchedule.claim instant leaseUntil) (ScanSchedule.id_claim instant leaseUntil))

def ScanSchedule.record (now : Timestamp) (nextRun : Option Timestamp) (jobID : Option UUID)
    (lastError : String) (row : ScanSchedule) : ScanSchedule :=
  { row with
    nextRunAt := nextRun.getD row.nextRunAt
    lastRunAt := some now
    lastJobID := jobID
    lastError := lastError
    updatedAt := now }

@[simp] theorem ScanSchedule.id_record (now : Timestamp) (nextRun : Option Timestamp)
    (jobID : Option UUID) (lastError : String) (row : ScanSchedule) :
    (row.record now nextRun jobID lastError).id = row.id := rfl

/-- An `UPDATE` that reaches no row is no error. -/
def recordScanScheduleRun (s : ScanSchedules) (now : Timestamp) (id : UUID)
    (nextRun : Option Timestamp) (jobID : Option UUID) (runErr : Option String) :
    Except StoreError ScanSchedules :=
  match lastErrorText runErr with
  | none => .error (.db "record scan schedule run" .valueRefused)
  | some lastError =>
    .ok (s.updateWhere (fun row => decide (row.id = id))
      (ScanSchedule.record now nextRun jobID lastError)
      (ScanSchedule.id_record now nextRun jobID lastError))

/-! ## The other automations

`blacklist_recheck_settings` and `source_sync_schedules` have these columns in common; `settings`
are the others. The first has one row, under the key `default`. -/

structure AutomationRow (β : Type) where
  key : String
  enabled : Bool
  plan : Plan
  settings : β
  nextRunAt : Timestamp
  lastRunAt : Option Timestamp
  lastError : String
  updatedAt : Timestamp
deriving DecidableEq, Repr

abbrev AutomationRows (β : Type) := Table String (AutomationRow β) AutomationRow.key

/-- An update request, after the API has normalised it. -/
structure UpdateAutomation (β : Type) where
  enabled : Bool
  plan : Plan
  settings : β
deriving DecidableEq, Repr

/-- Which rows a claim picks, how it reads them, and which rows run when the center starts. What
the server decides is passed in: the rows with a run in `automation_runs` that is still going, the
rows locked by somebody else, and the order between equals. -/
structure AutomationKind (β : Type) where
  picked : (busy locked : String → Bool) → (tie : String → Nat) → Timestamp → AutomationRows β →
    List (AutomationRow β)
  /-- The claim returns the rows; otherwise they are read by a statement of their own. -/
  returning : Bool
  startup : AutomationRow β → Bool

section Rows

variable {β : Type}

def AutomationRow.update (now : Timestamp) (input : UpdateAutomation β) (nextRun : Timestamp)
    (row : AutomationRow β) : AutomationRow β :=
  { row with
    enabled := input.enabled
    plan := input.plan
    settings := input.settings
    nextRunAt := nextRun
    lastError := ""
    updatedAt := now }

@[simp] theorem AutomationRow.key_update (now : Timestamp) (input : UpdateAutomation β)
    (nextRun : Timestamp) (row : AutomationRow β) : (row.update now input nextRun).key = row.key :=
  rfl

/-- `UpdateBlacklistRecheckSettings`, `UpdateSourceSyncSchedule`. -/
def updateAutomation (s : AutomationRows β) (now : Timestamp) (key : String)
    (input : UpdateAutomation β) (nextRun : Timestamp) : AutomationRows β :=
  s.updateWhere (fun row => decide (row.key = key)) (AutomationRow.update now input nextRun)
    (AutomationRow.key_update now input nextRun)

def AutomationRow.claim (now leaseUntil : Timestamp) (row : AutomationRow β) : AutomationRow β :=
  { row with nextRunAt := leaseUntil, updatedAt := now }

@[simp] theorem AutomationRow.key_claim (now leaseUntil : Timestamp) (row : AutomationRow β) :
    (row.claim now leaseUntil).key = row.key := rfl

/-- `ClaimDueBlacklistRecheck`, `ClaimDueSourceSyncSchedules`, on the rows picked. -/
def claimAutomations (s : AutomationRows β) (instant leaseUntil : Timestamp)
    (picked : List (AutomationRow β)) : AutomationRows β :=
  s.updateWhere (fun row => decide (row.key ∈ picked.map AutomationRow.key))
    (AutomationRow.claim instant leaseUntil) (AutomationRow.key_claim instant leaseUntil)

def AutomationRow.record (now : Timestamp) (nextRun : Option Timestamp) (lastError : String)
    (row : AutomationRow β) : AutomationRow β :=
  { row with
    nextRunAt := nextRun.getD row.nextRunAt
    lastRunAt := some now
    lastError := lastError
    updatedAt := now }

@[simp] theorem AutomationRow.key_record (now : Timestamp) (nextRun : Option Timestamp)
    (lastError : String) (row : AutomationRow β) :
    (row.record now nextRun lastError).key = row.key := rfl

/-- `RecordBlacklistRecheckRun`, `RecordSourceSyncRun`; `none` when the server refuses the text of
the error. -/
def recordAutomationRun (s : AutomationRows β) (now : Timestamp) (key : String)
    (nextRun : Option Timestamp) (runErr : Option String) : Option (AutomationRows β) :=
  (lastErrorText runErr).map fun lastError =>
    s.updateWhere (fun row => decide (row.key = key)) (AutomationRow.record now nextRun lastError)
      (AutomationRow.key_record now nextRun lastError)

end Rows

/-- The claim updates the row and then reads it. -/
def blacklistRecheck : AutomationKind BlacklistRecheckSettings where
  picked := fun _ _ _ now s => s.rows.filter fun row =>
    decide (row.key = "default") && row.enabled && decide (row.nextRunAt ≤ now)
  returning := false
  startup := fun _ => false

structure SourceSyncSettings where
  name : String
  runOnStartup : Bool
deriving DecidableEq, Repr

/-- `limit <= 0 || limit > 10`; `RunDue` asks for 3. -/
def sourceLimit (limit : Int) : Nat := if limit ≤ 0 ∨ limit > 10 then 2 else limit.toNat

def sourceSync : AutomationKind SourceSyncSettings where
  picked := fun busy locked tie now s =>
    let candidates := s.rows.filter fun row =>
      row.enabled && decide (row.nextRunAt ≤ now) && !busy row.key && !locked row.key
    (candidates.insertionSort fun a b => a.nextRunAt < b.nextRunAt ∨
      (a.nextRunAt = b.nextRunAt ∧ tie a.key ≤ tie b.key)).take (sourceLimit 3)
  returning := true
  startup := fun row => row.enabled && row.settings.runOnStartup

end Cfscan.Schedule
