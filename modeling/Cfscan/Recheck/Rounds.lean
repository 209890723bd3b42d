import Cfscan.Lib.Along
import Cfscan.Scan.Interleaved

/-!
# Rounds of blacklist rechecks — `CreateBlacklistRechecks`, statement by statement

A round looks for active recheck jobs, selects its candidates and then opens one transaction for
each agent. The two `SELECT`s and every statement of a transaction are steps of their own here, and
the transactions of other rounds, claims, submissions and stops may act between any two of them.

`NOW()`, the names of the agents and the ids the sequence hands out are read when the statement
that needs them runs. What a round meets besides the database is its `RecheckWorld`.

The functions of `Scan.Create` are the same calls run by themselves. They say what a call does in
one go, and `Recheck.Allotment` is about them; here the same statements are taken apart, since the
question is what comes between them. A `SELECT` of a round is one step, as it has one snapshot.
-/

set_option autoImplicit false

namespace Cfscan.Recheck

open Cfscan.Lib Cfscan.Store Cfscan.Scan

/-! ## The transaction of one agent

The statements of `recheckAgent` as a program. Each selected target gets its task and is put
off before the next one is looked at, and the conflict clause reads the tasks before it
inserts. -/

theorem set_blacklist_self (s : ScanStore) : { s with blacklist := s.blacklist } = s := rfl

def blacklist :
    TableIn ScanStore RowKey RowVersion Write (UUID × Inet) BlacklistEntry BlacklistEntry.key where
  get := ScanStore.blacklist
  set := fun s t => { s with blacklist := t }
  lockKey := fun key => .blacklist key.1 key.2
  version := .blacklist
  get_set := fun _ _ => rfl
  set_get := set_blacklist_self
  set_set := fun _ _ _ => rfl
  apply_version := fun _ _ => rfl
  key_version := fun _ => rfl
  find?_row := fun _ _ _ h => by injection h

structure Group where
  /-- The `agents` table, for the foreign key. -/
  agents : Agents
  now : Timestamp
  settings : BlacklistRecheckSettings
  jobID : UUID
  agent : UUID
  agentName : String
  /-- The id the sequence gives to the `n`-th insert. -/
  taskID : Nat → Int
  selected : List BlacklistEntry

/-- `INSERT INTO scan_jobs`. -/
def insertJob (job : ScanJob) : Program (Option StoreError) :=
  if job.storable = false then pure (some (.db "" .valueRefused))
  else do
    Tx.acquire (.job job.id)
    match ← Tx.read fun s => s.jobs.find? job.id with
    | some _ => pure (some (.db "" .uniqueViolation))
    | none => do
      Tx.put (.job job)
      pure none

/-- `UNIQUE (job_id, preferred_agent_id, target_ip)`. -/
def taken (jobID agent : UUID) (targetIP : Inet) (s : ScanStore) : Bool :=
  s.tasks.rows.any fun task =>
    decide (task.jobID = jobID) && decide (task.preferredAgentID = agent) &&
      decide (task.targetIP = targetIP)

/-- `INSERT INTO scan_tasks … ON CONFLICT DO NOTHING`. -/
def insertTask (g : Group) (id : Int) (targetIP : Inet) : Program (Option StoreError) := do
  if ← Tx.read (taken g.jobID g.agent targetIP) then pure none
  else do
    Tx.acquire (.task id)
    match ← Tx.read fun s => s.tasks.find? id with
    | some _ => pure none
    | none =>
      if g.agents g.agent = none then pure (some (.db "" .foreignKeyViolation))
      else do
        Tx.put (.task (newTask id g.jobID g.agent targetIP none g.now))
        pure none

/-- The inserts and updates of the selected targets; `n` counts the inserts. -/
def insertTargets (pg : Postgres) (g : Group) :
    Nat → List BlacklistEntry → Program (Option StoreError)
  | _, [] => pure none
  | n, item :: items =>
    match pg.inet item.targetIP.host with
    | none => pure (some (.db "" .castFailed))
    | some targetIP => do
      match ← insertTask g (g.taskID n) targetIP with
      | some error => pure (some error)
      | none => do
        let _ ← blacklist.updateWhere
          (fun entry => decide (entry.agentID = g.agent) && decide (entry.targetIP = targetIP))
          (BlacklistEntry.postpone g.settings g.now)
        insertTargets pg g (n + 1) items

def recheckGroup (pg : Postgres) (g : Group) : Program (Ending (Option StoreError)) := do
  match ← insertJob (recheckJob g.settings g.jobID g.now g.agentName g.selected.length) with
  | some error => pure (.rollback (some error))
  | none => do
    match ← insertTargets pg g 0 g.selected with
    | some error => pure (.rollback (some error))
    | none => pure (.commit none)

/-- The transactions there are: those of a scan call, and those of a round. -/
inductive RecheckCall where
  | scan (call : Call)
  | group (g : Group)

inductive RecheckReply where
  | scan (reply : Reply)
  | group (error : Option StoreError)

def RecheckReply.error : RecheckReply → Option StoreError
  | .scan _ => none
  | .group error => error

def RecheckCall.program (pg : Postgres) : RecheckCall → Program (Ending RecheckReply)
  | .scan call => do
    let e ← call.program pg
    pure (e.map .scan)
  | .group g => do
    let e ← recheckGroup pg g
    pure (e.map .group)

/-! ## The round

What a call keeps between its statements, as a phase and the result so far. The check and
the selection are plain reads; only from the first group on is a transaction open. -/

/-- The candidates of an agent, with the name they were read with. -/
structure Candidates where
  agent : UUID
  agentName : String
  entries : List BlacklistEntry

inductive RoundPhase where
  /-- Before the running check. -/
  | checking
  | selecting
  /-- Between two transactions: the agents to come, and how many targets may still be taken. -/
  | grouping (rest : List Candidates) (remaining : Int)
  /-- The transaction of a group is open. -/
  | inserting (g : Group) (rest : List Candidates) (remaining : Int)
  | over (error : Option StoreError)

structure Round where
  world : RecheckWorld
  settings : BlacklistRecheckSettings
  phase : RoundPhase
  result : BlacklistRecheckResult

def Round.start (world : RecheckWorld) (settings : BlacklistRecheckSettings) : Round :=
  ⟨world, settings, .checking, ⟨0, 0, [], false, ""⟩⟩

/-- What the running check makes of a round. -/
def Round.check (round : Round) (s : ScanStore) : Round :=
  if round.settings.skipIfRunning = true ∧ activeRechecks s > 0 then
    { round with
      phase := .over none
      result := { round.result with
        skipped := true, reason := "上一轮黑名单复查仍在等待或运行" } }
  else { round with phase := .selecting }

/-- The groups, in the order in which their agents come first. -/
def candidateGroups (agents : Agents) (entries : List BlacklistEntry) : List Candidates :=
  (entries.map BlacklistEntry.agentID).eraseDups.map fun agent =>
    { agent := agent
      agentName := (agents agent).getD ""
      entries := entries.filter fun entry => decide (entry.agentID = agent) }

def Round.select (round : Round) (agents : Agents) (now : Timestamp) (s : ScanStore) : Round :=
  let settings := round.settings.clamp
  { round with
    phase := .grouping (candidateGroups agents
      (recheckCandidates round.world agents s now settings)) settings.maxTargets }

/-- The next agent the loop takes targets of, and the agents after it. -/
def nextGroup (world : RecheckWorld) (settings : BlacklistRecheckSettings) (remaining : Int) :
    List Candidates → Option (Candidates × List Candidates)
  | [] => none
  | group :: rest =>
    if remaining ≤ 0 then none
    else
      match recheckCount world settings group.entries.length remaining with
      | 0 => nextGroup world settings remaining rest
      | count => some ({ group with entries := group.entries.take count }, rest)

/-- The transaction of a group of targets. -/
def Round.group (round : Round) (agents : Agents) (now : Timestamp) (taskID : Nat → Int)
    (group : Candidates) : Group where
  agents := agents
  now := now
  settings := round.settings.clamp
  jobID := round.world.newID round.result.jobs
  agent := group.agent
  agentName := group.agentName
  taskID := taskID
  selected := group.entries

/-- The end of the loop. -/
def Round.finish (round : Round) : Round :=
  { round with
    phase := .over none
    result :=
      if round.result.targets = 0 then
        { round.result with skipped := true, reason := "当前没有符合复查条件的黑名单目标" }
      else round.result }

/-- The transaction of a group has committed. -/
def Round.commit (round : Round) (g : Group) (rest : List Candidates) (remaining : Int) : Round :=
  { round with
    phase := .grouping rest (remaining - g.selected.length)
    result := { round.result with
      jobs := round.result.jobs + 1
      targets := round.result.targets + g.selected.length
      jobIDs := round.result.jobIDs ++ [g.jobID] } }

def Round.fail (round : Round) (error : Option StoreError) : Round :=
  { round with phase := .over error }

/-- Past the running check, and not over. -/
def Round.underWay (round : Round) : Bool :=
  match round.phase with
  | .selecting => true
  | .grouping _ _ => true
  | .inserting _ _ _ => true
  | _ => false

/-! ## Many rounds -/

/-- The database with its open transactions, and the rounds there have been. The transactions of
the `n`-th round are those of the client `.inr n`. -/
structure Rounds (ι : Type) where
  system : System (ι ⊕ Nat) ScanStore RowKey Write RecheckCall RecheckReply
  rounds : List Round

inductive RoundAct (ι : Type) where
  /-- An act of a client that claims, submits or stops. -/
  | scan (a : Lib.Act ι Call)
  | call (world : RecheckWorld) (settings : BlacklistRecheckSettings)
  | check (round : Nat)
  | select (round : Nat) (agents : Agents) (now : Timestamp)
  /-- The transaction of the next group begins, or the loop is over. -/
  | next (round : Nat) (agents : Agents) (now : Timestamp) (taskID : Nat → Int)
  /-- Its next action. -/
  | step (round : Nat)
  /-- A statement fails, or the connection does. -/
  | fail (round : Nat) (error : StoreError)

section Rounds

variable {ι : Type} [DecidableEq ι]

def Rounds.start (ι : Type) (db : ScanStore) : Rounds ι := ⟨.initial db, []⟩

def Rounds.setRound (w : Rounds ι) (n : Nat) (round : Round) : Rounds ι :=
  { w with rounds := w.rounds.set n round }

/-- An act of a client that scans, as one of the whole system. -/
def scanAct : Lib.Act ι Call → Lib.Act (ι ⊕ Nat) RecheckCall
  | .send client call => .send (.inl client) (.scan call)
  | .step client => .step (.inl client)
  | .abort client => .abort (.inl client)

def Rounds.act (pg : Postgres) (w : Rounds ι) : RoundAct ι → Rounds ι
  | .scan a => { w with system := (w.system.act (RecheckCall.program pg) (scanAct a)).1 }
  | .call world settings => { w with rounds := w.rounds ++ [.start world settings] }
  | .check n =>
    match w.rounds[n]? with
    | none => w
    | some round =>
      match round.phase with
      | .checking => w.setRound n (round.check w.system.db)
      | _ => w
  | .select n agents now =>
    match w.rounds[n]? with
    | none => w
    | some round =>
      match round.phase with
      | .selecting => w.setRound n (round.select agents now w.system.db)
      | _ => w
  | .next n agents now taskID =>
    match w.rounds[n]? with
    | none => w
    | some round =>
      match round.phase with
      | .grouping groups remaining =>
        match nextGroup round.world round.settings.clamp remaining groups with
        | none => w.setRound n round.finish
        | some (group, rest) =>
          let g := round.group agents now taskID group
          { w with
            system := (w.system.act (RecheckCall.program pg) (.send (.inr n) (.group g))).1
          }.setRound n { round with phase := .inserting g rest remaining }
      | _ => w
  | .step n =>
    match w.rounds[n]? with
    | none => w
    | some round =>
      match round.phase with
      | .inserting g rest remaining =>
        match w.system.act (RecheckCall.program pg) (.step (.inr n)) with
        | (system, none) => { w with system := system }
        | (system, some ⟨_, .commit _⟩) =>
          { w with system := system }.setRound n (round.commit g rest remaining)
        | (system, some ⟨_, .rollback reply⟩) =>
          { w with system := system }.setRound n (round.fail reply.error)
      | _ => w
  | .fail n error =>
    match w.rounds[n]? with
    | none => w
    | some round =>
      match round.phase with
      | .over _ => w
      | _ =>
        { w with
          system := (w.system.act (RecheckCall.program pg) (.abort (.inr n))).1
        }.setRound n (round.fail (some error))

end Rounds

end Cfscan.Recheck
