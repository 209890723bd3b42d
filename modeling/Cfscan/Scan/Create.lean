import Cfscan.Scan.Store
import Cfscan.Targets.Sample

/-!
# Creating jobs — `CreateScanJob` and `CreateBlacklistRechecks`

Both insert a job row and then its tasks, one `INSERT … ON CONFLICT DO NOTHING` a target. They
lock nothing that another transaction could hold, so they are modelled as functions of the
database. The ids `gen_random_uuid()` returns are passed in, and so is the `agents` table, as the
names of the agents there are: neither function writes it.

A task id is drawn from its sequence by every attempted insert and is not given back by a
rollback. The writes to `ip_targets` and `prefix_league_entries` are left out: no function modelled
here reads what they write, and what could make them fail is checked where it would.

Blocked addresses are left out of a job unless it asks for them, by the entries there are at the
time of the insert. Whether an entry holds an address back is decided by its `retry_after` alone.

Nothing here checks that a target is a single address, or that two are different. The first is up to
the callers; of the second the conflict clause takes care.
-/

set_option autoImplicit false

namespace Cfscan.Scan

open Cfscan.Lib Cfscan.Store

/-- `agents`: the name under each id. -/
abbrev Agents := UUID → Option String

/-! ## `CreateScanJob`

One transaction: the job row, then the targets of every agent in turn. A `Draft` carries
what the inner loops write (tasks, sequence, number of inserted targets) and the first
failure, which rolls the transaction back. The sequence is not rolled back, as PostgreSQL's
are not, so a failed creation can still use up task ids. -/

structure CreateScanJobRequest where
  kind : String
  name : String
  samplingMode : String
  scheme : String
  hostname : String
  path : String
  port : Int
  attempts : Int
  timeoutMS : Int
  maxLatencyMS : ℚ
  maxPacketLoss : ℚ
  blacklistMinutes : Int
  includeBlocked : Bool
deriving DecidableEq, Repr

structure AgentScanTargets where
  agentID : String
  targets : List ScanTarget
deriving DecidableEq, Repr

def CreateScanJobRequest.job (input : CreateScanJobRequest) (id : UUID) (now : Timestamp) :
    ScanJob where
  id := id
  name := input.name
  kind := input.kind
  status := .pending
  samplingMode := input.samplingMode
  scheme := input.scheme
  hostname := input.hostname
  path := input.path
  port := input.port
  attempts := input.attempts
  timeoutMS := input.timeoutMS
  maxLatencyMS := input.maxLatencyMS
  maxPacketLoss := input.maxPacketLoss
  blacklistMinutes := input.blacklistMinutes
  totalTargets := 0
  completedTargets := 0
  successTargets := 0
  failedTargets := 0
  createdAt := now
  startedAt := none
  finishedAt := none

/-- What the columns of `scan_jobs` accept. -/
def ScanJob.storable (job : ScanJob) : Bool :=
  [job.name, job.kind, job.samplingMode, job.scheme, job.hostname, job.path].all Store.storable &&
    [job.port, job.attempts, job.timeoutMS, job.blacklistMinutes, job.totalTargets].all int4

/-- The tasks of a job being created. -/
structure Draft where
  tasks : Table Int ScanTask ScanTask.id
  taskSeq : Int
  inserted : Nat
  failure : Option StoreError

def newTask (id : Int) (jobID agent : UUID) (targetIP : Inet) (targetPrefix : Option Cidr)
    (now : Timestamp) : ScanTask where
  id := id
  jobID := jobID
  preferredAgentID := agent
  targetIP := targetIP
  targetPrefix := targetPrefix
  status := .pending
  leaseUntil := none
  createdAt := now
  completedAt := none

/-- `UNIQUE (job_id, preferred_agent_id, target_ip)`. -/
def Draft.taken (d : Draft) (jobID agent : UUID) (targetIP : Inet) : Bool :=
  d.tasks.rows.any fun task =>
    decide (task.jobID = jobID) && decide (task.preferredAgentID = agent) &&
      decide (task.targetIP = targetIP)

/-- `INSERT INTO scan_tasks … ON CONFLICT DO NOTHING`. -/
def Draft.insertTask (agents : Agents) (now : Timestamp) (jobID agent : UUID) (targetIP : Inet)
    (targetPrefix : Option Cidr) (context : String) (d : Draft) : Draft :=
  if d.tasks.find? d.taskSeq ≠ none ∨ d.taken jobID agent targetIP = true then
    { d with taskSeq := d.taskSeq + 1 }
  else if agents agent = none then
    { d with taskSeq := d.taskSeq + 1, failure := some (.db context .foreignKeyViolation) }
  else
    { d with
      tasks := d.tasks.put (newTask d.taskSeq jobID agent targetIP targetPrefix now)
      taskSeq := d.taskSeq + 1
      inserted := d.inserted + 1 }

/-- The `NOT EXISTS` of the insert. -/
def blocked (s : ScanStore) (now : Timestamp) (agent : UUID) (targetIP : Inet) : Bool :=
  s.blacklist.rows.any fun entry =>
    decide (entry.agentID = agent) && decide (entry.targetIP = targetIP) &&
      decide (entry.retryAfter > now)

/-- One target of one agent. -/
def Draft.insertTarget (pg : Postgres) (agents : Agents) (s : ScanStore) (now : Timestamp)
    (jobID : UUID) (input : CreateScanJobRequest) (agentID : String) (d : Draft)
    (target : ScanTarget) : Draft :=
  if d.failure ≠ none then d
  else if target.targetIP = "" then d
  else
    match pg.inet target.targetIP with
    | none => { d with failure := some (.db ("upsert target " ++ target.targetIP) .castFailed) }
    | some targetIP =>
      match pg.uuid agentID, nullableCidr pg target.prefixCIDR with
      | some agent, some targetPrefix =>
        if !input.includeBlocked && blocked s now agent targetIP then d
        else d.insertTask agents now jobID agent targetIP targetPrefix "insert scan task"
      | _, _ => { d with failure := some (.db "insert scan task" .castFailed) }

/-- The targets of one agent. -/
def Draft.insertAgent (pg : Postgres) (agents : Agents) (s : ScanStore) (now : Timestamp)
    (jobID : UUID) (input : CreateScanJobRequest) (d : Draft) (agentSet : AgentScanTargets) :
    Draft :=
  if d.failure ≠ none then d
  else if agentSet.agentID = "" then
    { d with failure := some (.message "scan target set is missing agent_id") }
  else
    agentSet.targets.foldl (Draft.insertTarget pg agents s now jobID input agentSet.agentID) d

def ScanStore.draft (s : ScanStore) : Draft := ⟨s.tasks, s.taskSeq, 0, none⟩

def createScanJob (pg : Postgres) (agents : Agents) (s : ScanStore) (now : Timestamp)
    (jobID : UUID) (input : CreateScanJobRequest) (agentTargets : List AgentScanTargets) :
    Except StoreError ScanJob × ScanStore :=
  let job := input.job jobID now
  let d := agentTargets.foldl (Draft.insertAgent pg agents s now jobID input) s.draft
  if agentTargets = [] then (.error (.message "no scan agents selected"), s)
  else if job.storable = false then (.error (.db "insert scan job" .valueRefused), s)
  else if s.jobs.find? jobID ≠ none then (.error (.db "insert scan job" .uniqueViolation), s)
  else
    match d.failure with
    | some error => (.error error, { s with taskSeq := d.taskSeq })
    | none =>
      if d.inserted = 0 then
        (.error (.message "no tasks created; all selected targets may be blacklisted"),
          { s with taskSeq := d.taskSeq })
      else if int4 d.inserted = false then
        (.error (.db "" .valueRefused), { s with taskSeq := d.taskSeq })
      else
        (.ok { job with totalTargets := d.inserted },
          { s with
            jobs := s.jobs.put { job with totalTargets := d.inserted }
            tasks := d.tasks
            taskSeq := d.taskSeq })

/-! ## `CreateBlacklistRechecks`

One transaction for each agent with candidates, up to the number of tasks a round may make.
The query is modelled as the list it returns: the entries of existing agents, only the due
ones or all as the settings say, in the order of its `ORDER BY`, cut at its `LIMIT`. What
the source leaves to floating-point arithmetic, to the server's choice among equals and to
the drawing of uuids is in `RecheckWorld`. -/

structure BlacklistRecheckSettings where
  dueOnly : Bool
  fraction : ℚ
  maxTargets : Int
  skipIfRunning : Bool
  attempts : Int
  timeoutMS : Int
  maxLatencyMS : ℚ
  maxPacketLoss : ℚ
  retryMinutes : Int
deriving DecidableEq, Repr

/-- The defaults for what is out of range. -/
def BlacklistRecheckSettings.clamp (settings : BlacklistRecheckSettings) :
    BlacklistRecheckSettings :=
  { settings with
    fraction :=
      if settings.fraction ≤ 0 ∨ settings.fraction > 1 then 1 / 2 else settings.fraction
    maxTargets :=
      if settings.maxTargets ≤ 0 ∨ settings.maxTargets > 5000 then 500 else settings.maxTargets
    attempts := if settings.attempts < 1 ∨ settings.attempts > 10 then 3 else settings.attempts
    timeoutMS :=
      if settings.timeoutMS < 500 ∨ settings.timeoutMS > 30000 then 5000 else settings.timeoutMS
    maxLatencyMS := if settings.maxLatencyMS ≤ 0 then 1000 else settings.maxLatencyMS
    maxPacketLoss :=
      if settings.maxPacketLoss < 0 ∨ settings.maxPacketLoss > 100 then 50
      else settings.maxPacketLoss
    retryMinutes :=
      if settings.retryMinutes < 1 ∨ settings.retryMinutes > 10080 then 120
      else settings.retryMinutes }

structure BlacklistRecheckResult where
  jobs : Nat
  targets : Nat
  jobIDs : List UUID
  skipped : Bool
  reason : String
deriving DecidableEq, Repr

/-- What the call meets besides the database: rounded floating-point arithmetic, the order
`ORDER BY` leaves open, and the uuid of its `n`-th job. -/
structure RecheckWorld where
  /-- `int(math.Ceil(float64(n) / x))`. -/
  ceilQuotient : Int → ℚ → Int
  /-- `int(math.Ceil(float64(n) * x))`. -/
  ceilProduct : Nat → ℚ → Int
  tie : BlacklistEntry → Nat
  newID : Nat → UUID

/-- `SELECT COUNT(*) … WHERE kind = 'blacklist_recheck' AND status IN ('pending', 'running')`. -/
def activeRechecks (s : ScanStore) : Nat :=
  s.jobs.rows.countP fun job => decide (job.kind = "blacklist_recheck") && job.active

def candidateLimit (world : RecheckWorld) (settings : BlacklistRecheckSettings) : Nat :=
  let limit := world.ceilQuotient settings.maxTargets settings.fraction
  let limit := if limit < settings.maxTargets then settings.maxTargets else limit
  (if limit > 20000 then 20000 else limit).toNat

/-- `ORDER BY b.agent_id, b.retry_after, b.failure_count DESC`. -/
def recheckBefore (world : RecheckWorld) (a b : BlacklistEntry) : Prop :=
  a.agentID < b.agentID ∨ (a.agentID = b.agentID ∧ (a.retryAfter < b.retryAfter ∨
    (a.retryAfter = b.retryAfter ∧ (a.failureCount > b.failureCount ∨
      (a.failureCount = b.failureCount ∧ world.tie a ≤ world.tie b)))))

instance (world : RecheckWorld) : DecidableRel (recheckBefore world) := fun _ _ =>
  inferInstanceAs (Decidable (_ ∨ _))

/-- The candidates: `JOIN agents`, the condition on `retry_after`, the order and the limit. -/
def recheckCandidates (world : RecheckWorld) (agents : Agents) (s : ScanStore) (now : Timestamp)
    (settings : BlacklistRecheckSettings) : List BlacklistEntry :=
  let eligible := s.blacklist.rows.filter fun entry =>
    decide (agents entry.agentID ≠ none) && (!settings.dueOnly || decide (entry.retryAfter ≤ now))
  (eligible.insertionSort (recheckBefore world)).take (candidateLimit world settings)

/-- How many of `n` candidates a group takes when `remaining` are left to take. -/
def recheckCount (world : RecheckWorld) (settings : BlacklistRecheckSettings) (n : Nat)
    (remaining : Int) : Nat :=
  let count := world.ceilProduct n settings.fraction
  let count := if count < 1 ∧ n > 0 then 1 else count
  let count := if count > n then (n : Int) else count
  (if count > remaining then remaining else count).toNat

def recheckJob (settings : BlacklistRecheckSettings) (id : UUID) (now : Timestamp)
    (agentName : String) (total : Nat) : ScanJob where
  id := id
  name := if agentName ≠ "" then "黑名单复查" ++ " · " ++ agentName else "黑名单复查"
  kind := "blacklist_recheck"
  status := .pending
  samplingMode := "count"
  scheme := "https"
  hostname := "cloudflare.com"
  path := "/cdn-cgi/trace"
  port := 443
  attempts := settings.attempts
  timeoutMS := settings.timeoutMS
  maxLatencyMS := settings.maxLatencyMS
  maxPacketLoss := settings.maxPacketLoss
  blacklistMinutes := settings.retryMinutes
  totalTargets := total
  completedTargets := 0
  successTargets := 0
  failedTargets := 0
  createdAt := now
  startedAt := none
  finishedAt := none

def BlacklistEntry.postpone (settings : BlacklistRecheckSettings) (now : Timestamp)
    (entry : BlacklistEntry) : BlacklistEntry :=
  { entry with retryAfter := now + settings.retryMinutes * minute, updatedAt := now }

@[simp] theorem BlacklistEntry.key_postpone (settings : BlacklistRecheckSettings)
    (now : Timestamp) (entry : BlacklistEntry) : (entry.postpone settings now).key = entry.key :=
  rfl

/-- The inserts of one group. -/
def Draft.insertRecheck (pg : Postgres) (agents : Agents) (now : Timestamp) (jobID agent : UUID)
    (d : Draft) (item : BlacklistEntry) : Draft :=
  if d.failure ≠ none then d
  else
    match pg.inet item.targetIP.host with
    | none => { d with failure := some (.db "" .castFailed) }
    | some targetIP => d.insertTask agents now jobID agent targetIP none ""

/-- The `UPDATE`s of one group: `retry_after` of every selected target. -/
def postponeAll (pg : Postgres) (settings : BlacklistRecheckSettings) (now : Timestamp)
    (agent : UUID) (selected : List BlacklistEntry)
    (blacklist : Table (UUID × Inet) BlacklistEntry BlacklistEntry.key) :
    Table (UUID × Inet) BlacklistEntry BlacklistEntry.key :=
  blacklist.updateWhere
    (fun entry => decide (entry.agentID = agent) &&
      selected.any fun item => decide (pg.inet item.targetIP.host = some entry.targetIP))
    (BlacklistEntry.postpone settings now) (BlacklistEntry.key_postpone settings now)

/-- The transaction of one agent. -/
def recheckAgent (pg : Postgres) (agents : Agents) (s : ScanStore) (now : Timestamp)
    (settings : BlacklistRecheckSettings) (jobID agent : UUID) (selected : List BlacklistEntry) :
    Option StoreError × ScanStore :=
  let job := recheckJob settings jobID now ((agents agent).getD "") selected.length
  let d := selected.foldl (Draft.insertRecheck pg agents now jobID agent) s.draft
  if job.storable = false then (some (.db "" .valueRefused), s)
  else if s.jobs.find? jobID ≠ none then (some (.db "" .uniqueViolation), s)
  else
    match d.failure with
    | some error => (some error, { s with taskSeq := d.taskSeq })
    | none =>
      (none,
        { s with
          jobs := s.jobs.put job
          tasks := d.tasks
          blacklist := postponeAll pg settings now agent selected s.blacklist
          taskSeq := d.taskSeq })

/-- The loop over the agents; `n` counts the uuids drawn. An error ends the call, with the groups
before it committed. -/
def recheckEach (pg : Postgres) (world : RecheckWorld) (agents : Agents) (now : Timestamp)
    (settings : BlacklistRecheckSettings) (candidates : List BlacklistEntry) :
    List UUID → Nat → Int → BlacklistRecheckResult → ScanStore →
      BlacklistRecheckResult × Option StoreError × ScanStore
  | [], _, _, result, s => (result, none, s)
  | agent :: order, n, remaining, result, s =>
    let group := candidates.filter fun entry => decide (entry.agentID = agent)
    let count := recheckCount world settings group.length remaining
    if remaining ≤ 0 then (result, none, s)
    else if count = 0 then
      recheckEach pg world agents now settings candidates order n remaining result s
    else
      match recheckAgent pg agents s now settings (world.newID n) agent (group.take count) with
      | (some error, s') => (result, some error, s')
      | (none, s') =>
        recheckEach pg world agents now settings candidates order (n + 1) (remaining - count)
          { result with
            jobs := result.jobs + 1
            targets := result.targets + count
            jobIDs := result.jobIDs ++ [world.newID n] }
          s'

def createBlacklistRechecks (pg : Postgres) (world : RecheckWorld) (agents : Agents)
    (s : ScanStore) (now : Timestamp) (input : BlacklistRecheckSettings) :
    BlacklistRecheckResult × Option StoreError × ScanStore :=
  let settings := input.clamp
  let result : BlacklistRecheckResult := ⟨0, 0, [], false, ""⟩
  if settings.skipIfRunning = true ∧ activeRechecks s > 0 then
    ({ result with skipped := true, reason := "上一轮黑名单复查仍在等待或运行" }, none, s)
  else
    let candidates := recheckCandidates world agents s now settings
    match recheckEach pg world agents now settings candidates
      (candidates.map BlacklistEntry.agentID).eraseDups 0 settings.maxTargets result s with
    | (result, some error, s') => (result, some error, s')
    | (result, none, s') =>
      if result.targets = 0 then
        ({ result with skipped := true, reason := "当前没有符合复查条件的黑名单目标" }, none, s')
      else (result, none, s')

end Cfscan.Scan
