import Cfscan.Lib.Along
import Cfscan.Scan.Progress
import Cfscan.Schedule.Store

/-!
# Scheduled scans at work — `internal/scheduling/runner.go`, `runScheduleNow`

Any number of schedulers tick, administrators edit schedules and start them by hand, and the jobs
they create are worked on. A run of a schedule is three steps: the row is claimed (or read, when
started by hand), the job is created or not, and the outcome is recorded. Between the steps of one
run anything else may happen.

How a run chooses its targets is left out: `create` brings them with it, and they are arbitrary. So
is the reason why a run gives up before it gets that far. What the creation of a job does to the
scan tables is `Scan.createScanJob`, and what becomes of the job afterwards is any call of the scan
store.

Each act is one statement, or one transaction, and takes effect at one instant. A tick reads the
clock of its own process first (`age`), and that is the time by which a row is due.
-/

set_option autoImplicit false

namespace Cfscan.Schedule

open Cfscan.Lib Cfscan.Store Cfscan.Scan

/-! ## Runs

The phases of one run. A run that fails before it has a job is finished with an error and no
job, and its record then writes that there is none. -/

inductive Trigger where
  | scheduled
  | manual
deriving DecidableEq, Repr

/-- What became of `creator.Create`. -/
inductive Outcome where
  | created (jobID : UUID)
  /-- `ErrNoLeagueTargetsDue`. -/
  | skipped
  | failed (error : String)
deriving DecidableEq, Repr

inductive Phase where
  | started
  | finished (outcome : Outcome)
  | recorded (outcome : Outcome)
  /-- The record call itself failed. -/
  | lost (outcome : Outcome)
deriving DecidableEq, Repr

structure Run where
  /-- The row as it was claimed or read. -/
  item : ScanSchedule
  trigger : Trigger
  /-- What the run read off the clock before it claimed. -/
  seen : Timestamp
  phase : Phase
deriving DecidableEq, Repr

def Outcome.job : Outcome → Option UUID
  | .created jobID => some jobID
  | _ => none

def Run.outcome (run : Run) : Option Outcome :=
  match run.phase with
  | .started => none
  | .finished outcome => some outcome
  | .recorded outcome => some outcome
  | .lost outcome => some outcome

/-- The job a run created. -/
def Run.job (run : Run) : Option UUID := run.outcome.bind Outcome.job

def Run.recorded (run : Run) : Bool :=
  match run.phase with
  | .recorded _ => true
  | _ => false

/-- The outcome a run is about to record. -/
def Run.unrecorded (run : Run) : Option Outcome :=
  match run.phase with
  | .finished outcome => some outcome
  | _ => none

/-- Between the claim and the record. -/
def Run.inFlight (run : Run) : Bool :=
  match run.phase with
  | .started => true
  | .finished _ => true
  | _ => false

/-- The error a run records: a run that found no target due is one that failed when it was started
by hand, and is none when it was scheduled. -/
def Outcome.error (trigger : Trigger) : Outcome → Option String
  | .created _ => none
  | .skipped =>
    match trigger with
    | .scheduled => none
    | .manual => some "no league targets are due"
  | .failed error => some error

/-- The `nextRun` a run records: none when it was started by hand, or the plan does not parse. -/
def Run.nextRun (cron : Cron) (run : Run) : Option Timestamp :=
  match run.trigger with
  | .manual => none
  | .scheduled => (next cron run.item.plan run.seen).toOption

/-- A claimed row is given up at once when its plan does not parse. -/
def claimedRun (cron : Cron) (seen : Timestamp) (item : ScanSchedule) : Run where
  item := item
  trigger := .scheduled
  seen := seen
  phase :=
    match next cron item.plan seen with
    | .error error => .finished (.failed error)
    | .ok _ => .started

/-! ## The world

Schedules, runs and scan tables together, with a clock. Scan calls of any kind are acts too,
so that jobs finish, or are stopped, at any time. -/

structure World where
  clock : Timestamp
  schedules : ScanSchedules
  scan : ScanStore
  runs : List Run

def World.start (clock : Timestamp) : World := ⟨clock, .empty, .empty, []⟩

inductive Act where
  /-- Time goes by, in microseconds. -/
  | pass (duration : Nat)
  | createSchedule (id : UUID) (input : UpsertScanScheduleRequest)
  | updateSchedule (id : UUID) (input : UpsertScanScheduleRequest)
  /-- `RunDue` claims, `age` after it read the clock. -/
  | tick (age : Nat) (locked : UUID → Bool) (tie : UUID → Nat)
  | runNow (id : UUID)
  /-- A run reaches `CreateScanJob`; `error` is the text of the error if it fails. -/
  | create (run : Nat) (agents : Agents) (jobID : UUID) (input : CreateScanJobRequest)
    (targets : List AgentScanTargets) (error : String)
  /-- A run ends without a job before it gets that far. -/
  | giveUp (run : Nat) (outcome : Outcome)
  | record (run : Nat)
  /-- Any call of the scan store. -/
  | scan (op : Op)

/-- The status of a job is pending or running. -/
def activeJob (s : ScanStore) (jobID : UUID) : Bool :=
  match s.jobs.find? jobID with
  | none => false
  | some job => job.active

def World.setPhase (w : World) (n : Nat) (run : Run) (phase : Phase) : World :=
  { w with runs := w.runs.set n { run with phase := phase } }

/-- What `RunDue` claims of a world. -/
def World.claim (w : World) (age : Nat) (locked : UUID → Bool) (tie : UUID → Nat) :
    List ScanSchedule × ScanSchedules :=
  claimDueScanSchedules w.schedules (activeJob w.scan) locked tie w.clock (w.clock - age)
    (w.clock - age + claimLease) 20

def act (pg : Postgres) (cron : Cron) (w : World) : Act → World
  | .pass duration => { w with clock := w.clock + duration }
  | .createSchedule id input =>
    match next cron input.plan w.clock with
    | .error _ => w
    | .ok nextRun =>
      match createScanSchedule w.schedules w.clock id input nextRun with
      | .error _ => w
      | .ok schedules => { w with schedules := schedules }
  | .updateSchedule id input =>
    match next cron input.plan w.clock with
    | .error _ => w
    | .ok nextRun =>
      match updateScanSchedule w.schedules w.clock id input nextRun with
      | .error _ => w
      | .ok schedules => { w with schedules := schedules }
  | .tick age locked tie =>
    { w with
      schedules := (w.claim age locked tie).2
      runs := w.runs ++ (w.claim age locked tie).1.map (claimedRun cron (w.clock - age)) }
  | .runNow id =>
    match w.schedules.find? id with
    | none => w
    | some item => { w with runs := w.runs ++ [⟨item, .manual, w.clock, .started⟩] }
  | .create n agents jobID input targets error =>
    match w.runs[n]? with
    | none => w
    | some run =>
      if run.phase ≠ .started then w
      else
        match createScanJob pg agents w.scan w.clock jobID input targets with
        | (.ok job, scan) => { w with scan := scan }.setPhase n run (.finished (.created job.id))
        | (.error _, scan) => { w with scan := scan }.setPhase n run (.finished (.failed error))
  | .giveUp n outcome =>
    match w.runs[n]? with
    | none => w
    | some run =>
      if run.phase ≠ .started ∨ outcome.job ≠ none then w
      else w.setPhase n run (.finished outcome)
  | .record n =>
    match w.runs[n]? with
    | none => w
    | some run =>
      match run.phase with
      | .finished outcome =>
        match recordScanScheduleRun w.schedules w.clock run.item.id (run.nextRun cron) outcome.job
          (outcome.error run.trigger) with
        | .error _ => w.setPhase n run (.lost outcome)
        | .ok schedules => { w with schedules := schedules }.setPhase n run (.recorded outcome)
      | _ => w
  | .scan op => { w with scan := (serve pg w.clock w.scan op).2 }

/-- The world after a sequence of acts. -/
def play (pg : Postgres) (cron : Cron) (w : World) (acts : List Act) : World :=
  acts.foldl (act pg cron) w

/-! ## Two plans -/

def hour : Timestamp := 60 * minute

def day : Timestamp := 24 * hour

def hourly : Plan := ⟨"0 * * * *", "UTC"⟩

def daily : Plan := ⟨"0 0 * * *", "UTC"⟩

/-- A cron library that knows the two. -/
def twoPlans : Cron := fun plan =>
  if plan = hourly then .ok fun t => (t / hour + 1) * hour
  else if plan = daily then .ok fun t => (t / day + 1) * day
  else .error "invalid cron expression"

/-- One schedule, due for the first time. -/
def oneSchedule : List Act :=
  [.createSchedule 9 { enabled := true, plan := hourly, jobRequest := oneTarget },
    .pass 3600000000]

/-- A run of it, with a job of one task. -/
def oneRun : List Act :=
  [.tick 0 (fun _ => false) (fun _ => 0),
    .create 0 (fun _ => some "agent") 0x7d4448409dc041d1b2455ffdce74fad2
      { oneTarget with kind := "scheduled" } [⟨oneAgent, [⟨"104.16.0.1", ""⟩]⟩] "",
    .record 0]

end Cfscan.Schedule
