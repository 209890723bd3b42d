import Cfscan.Lib.Statement
import Cfscan.Store.Postgres
import Mathlib.Data.Rat.Defs

/-!
# The scan tables — `internal/store/postgres/schema.sql`

`scan_jobs`, `scan_tasks`, `scan_results` and `blacklist_entries`, with every column the scan
functions write or read, and the database made of them. `double precision` columns hold finite
values here (they arrive through JSON), read as the rationals they are.

Two columns are left out: `scan_results.id`, which none of these functions reads, and
`scan_jobs.progress`, which is not a column but an expression of the listing query. Results are
keyed by `task_id`, which is `UNIQUE` and never null in a row the store writes.

The foreign keys that matter are invariants of `Scan.Rows` and not fields of the database: a result
has its task, a task its job. No function here deletes a job, a task or a result, so that `ON
DELETE` is left out with the calls that do.
-/

set_option autoImplicit false

namespace Cfscan.Scan

open Cfscan.Lib Cfscan.Store

/-! ## Rows -/

inductive JobStatus where
  | pending
  | running
  | completed
  | stopped
deriving DecidableEq, Repr

inductive TaskStatus where
  | pending
  | leased
  | completed
  | cancelled
deriving DecidableEq, Repr

/-- The two states a task stays in. -/
def TaskStatus.final : TaskStatus → Bool
  | .completed => true
  | .cancelled => true
  | _ => false

structure ScanJob where
  id : UUID
  name : String
  kind : String
  status : JobStatus
  samplingMode : String
  scheme : String
  hostname : String
  path : String
  port : Int
  attempts : Int
  timeoutMS : Int
  maxLatencyMS : ℚ
  maxPacketLoss : ℚ
  blacklistMinutes : Int
  totalTargets : Int
  completedTargets : Int
  successTargets : Int
  failedTargets : Int
  createdAt : Timestamp
  startedAt : Option Timestamp
  finishedAt : Option Timestamp
deriving DecidableEq, Repr

structure ScanTask where
  id : Int
  jobID : UUID
  preferredAgentID : UUID
  targetIP : Inet
  targetPrefix : Option Cidr
  status : TaskStatus
  leaseUntil : Option Timestamp
  createdAt : Timestamp
  completedAt : Option Timestamp
deriving DecidableEq, Repr

structure ScanResult where
  jobID : UUID
  taskID : Int
  agentID : UUID
  targetIP : Inet
  targetPrefix : Option Cidr
  available : Bool
  latencyMS : ℚ
  packetLoss : ℚ
  tcpConnectMS : ℚ
  tlsHandshakeMS : ℚ
  ttfbMS : ℚ
  totalMS : ℚ
  httpStatus : Int
  httpVersion : String
  tlsVersion : String
  colo : String
  cfRay : String
  errorCode : String
  errorMessage : String
  successfulTries : Int
  attempts : Int
  scannedAt : Timestamp
deriving DecidableEq, Repr

structure BlacklistEntry where
  agentID : UUID
  targetIP : Inet
  reason : String
  failureCount : Int
  blockedAt : Timestamp
  retryAfter : Timestamp
  updatedAt : Timestamp
deriving DecidableEq, Repr

/-- `PRIMARY KEY (agent_id, target_ip)`. -/
def BlacklistEntry.key (entry : BlacklistEntry) : UUID × Inet := (entry.agentID, entry.targetIP)

/-- The tables, and the sequence behind `scan_tasks.id`. -/
structure ScanStore where
  jobs : Table UUID ScanJob ScanJob.id
  tasks : Table Int ScanTask ScanTask.id
  results : Table Int ScanResult ScanResult.taskID
  blacklist : Table (UUID × Inet) BlacklistEntry BlacklistEntry.key
  taskSeq : Int

def ScanStore.empty : ScanStore := ⟨.empty, .empty, .empty, .empty, 1⟩

/-! ## Rows as things to lock and write

What the transactions of `Cfscan.Lib.Transaction` need of a store: the rows have keys to
lock by, and a committed write replaces, inserts or removes one row. Nothing here says which
statement locks what; that is in the programs. -/

inductive RowKey where
  | job (id : UUID)
  | task (id : Int)
  | result (taskID : Int)
  | blacklist (agentID : UUID) (targetIP : Inet)
deriving DecidableEq, Repr

inductive RowVersion where
  | job (row : Option ScanJob)
  | task (row : Option ScanTask)
  | result (row : Option ScanResult)
  | blacklist (row : Option BlacklistEntry)

inductive Write where
  | job (row : ScanJob)
  | task (row : ScanTask)
  | result (row : ScanResult)
  | blacklist (row : BlacklistEntry)
  /-- `DELETE FROM blacklist_entries`, one row. -/
  | unlist (agentID : UUID) (targetIP : Inet)
deriving DecidableEq, Repr

def ScanStore.row (s : ScanStore) : RowKey → RowVersion
  | .job id => .job (s.jobs.find? id)
  | .task id => .task (s.tasks.find? id)
  | .result taskID => .result (s.results.find? taskID)
  | .blacklist agentID targetIP => .blacklist (s.blacklist.find? (agentID, targetIP))

def Write.key : Write → RowKey
  | .job row => .job row.id
  | .task row => .task row.id
  | .result row => .result row.taskID
  | .blacklist row => .blacklist row.agentID row.targetIP
  | .unlist agentID targetIP => .blacklist agentID targetIP

def ScanStore.apply (s : ScanStore) : Write → ScanStore
  | .job row => { s with jobs := s.jobs.put row }
  | .task row => { s with tasks := s.tasks.put row }
  | .result row => { s with results := s.results.put row }
  | .blacklist row => { s with blacklist := s.blacklist.put row }
  | .unlist agentID targetIP => { s with blacklist := s.blacklist.erase (agentID, targetIP) }

instance : RowStore ScanStore RowKey RowVersion Write where
  row := ScanStore.row
  key := Write.key
  apply := ScanStore.apply
  row_apply := by
    intro s w k hne
    cases w <;> cases k <;> simp only [ScanStore.row, ScanStore.apply, Table.find?_put,
      Table.find?_erase] <;> try rfl
    all_goals
      rw [if_neg]
      intro heq
      apply hne
      simp_all [Write.key, BlacklistEntry.key]

@[simp] theorem apply_eq (s : ScanStore) (w : Write) : RowStore.apply s w = s.apply w := rfl

/-! ## The tables of the database -/

def jobs : TableIn ScanStore RowKey RowVersion Write UUID ScanJob ScanJob.id where
  get := ScanStore.jobs
  set := fun s t => { s with jobs := t }
  lockKey := .job
  version := .job
  get_set := fun _ _ => rfl
  set_get := fun _ => rfl
  set_set := fun _ _ _ => rfl
  apply_version := fun _ _ => rfl
  key_version := fun _ => rfl
  find?_row := fun _ _ _ h => by injection h

def tasks : TableIn ScanStore RowKey RowVersion Write Int ScanTask ScanTask.id where
  get := ScanStore.tasks
  set := fun s t => { s with tasks := t }
  lockKey := .task
  version := .task
  get_set := fun _ _ => rfl
  set_get := fun _ => rfl
  set_set := fun _ _ _ => rfl
  apply_version := fun _ _ => rfl
  key_version := fun _ => rfl
  find?_row := fun _ _ _ h => by injection h

@[simp] theorem jobs_get (s : ScanStore) : jobs.get s = s.jobs := rfl

@[simp] theorem jobs_set (s : ScanStore) (t : Table UUID ScanJob ScanJob.id) :
    jobs.set s t = { s with jobs := t } := rfl

@[simp] theorem tasks_get (s : ScanStore) : tasks.get s = s.tasks := rfl

@[simp] theorem tasks_set (s : ScanStore) (t : Table Int ScanTask ScanTask.id) :
    tasks.set s t = { s with tasks := t } := rfl

end Cfscan.Scan
