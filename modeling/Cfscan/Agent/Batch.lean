import Cfscan.Errors.Truncate
import Cfscan.Lib.WorkerPool
import Cfscan.Scan.Store

/-!
# Running a batch of probes — `cmd/agent/main.go` and `internal/probe/probe.go`

`runBatch` is a pool of workers: `batch.Tasks` goes through the unbuffered channel `jobs`, the
channel `results` has room for one result of every task, and `wg` is what the caller waits on. The
schedule of the goroutines, the cancellation of the context and how each attempt ends come from
outside.

`run_batch` is about the pool and not about the network. However the goroutines are scheduled, a
schedule is only so long and can always go on; a run that is not cancelled returns one result of
each task, in the order in which the workers sent them; and a cancelled one returns results of some.

One attempt is the argument `Network`, the outcome of an HTTP request by its number. Nothing is said
of how long it takes, and the times and rates are exact rationals where the code has `float64`. That
a probe which answers nothing is reported as such is in `Tally.finish`; that its result is of its
own task, `taskID_run`.
-/

set_option autoImplicit false

namespace Cfscan.Agent

open Cfscan.Lib Cfscan.Scan

/-! ## One probe

A fold over the attempts. A failed attempt leaves its error and its code for the end, a
successful one its times, which the end averages; with no success the last error is
reported. -/

structure Config where
  scheme : String
  hostname : String
  path : String
  port : Int
  attempts : Int
  timeoutMS : Int
deriving DecidableEq, Repr

structure AttemptResult where
  tcpConnectMS : ℚ
  tlsHandshakeMS : ℚ
  ttfbMS : ℚ
  totalMS : ℚ
  httpStatus : Int
  httpVersion : String
  tlsVersion : String
  colo : String
  cfRay : String
deriving DecidableEq, Repr

/-- The text of an error, and whether the first `net.Error` in its chain, if there is one, is a
timeout. -/
structure AttemptError where
  text : Utf8.Bytes
  netTimeout : Option Bool
deriving DecidableEq, Repr

/-- `runAttempt`, by the number of the attempt. -/
abbrev Network := String → Config → Nat → Except AttemptError AttemptResult

def classifyError (letters : Utf8.Letters) (err : AttemptError) : String :=
  let lowered := letters.lower err.text
  if Utf8.text "timeout" <:+: lowered ∨ Utf8.text "deadline exceeded" <:+: lowered then "TIMEOUT"
  else
    match err.netTimeout with
    | some true => "TIMEOUT"
    | some false => "NETWORK_ERROR"
    | none => if Utf8.text "HTTP status" <:+: err.text then "HTTP_ERROR" else "PROBE_ERROR"

/-- The variables of the loop of `Run`. -/
structure Tally where
  result : ProbeResult
  tcpTotal : ℚ
  tlsTotal : ℚ
  ttfbTotal : ℚ
  totalTotal : ℚ
  lastError : Option AttemptError
  lastCode : String

def Tally.next (letters : Utf8.Letters) (t : Tally) :
    Except AttemptError AttemptResult → Tally
  | .error err => { t with lastError := some err, lastCode := classifyError letters err }
  | .ok attempt =>
    { t with
      tcpTotal := t.tcpTotal + attempt.tcpConnectMS
      tlsTotal := t.tlsTotal + attempt.tlsHandshakeMS
      ttfbTotal := t.ttfbTotal + attempt.ttfbMS
      totalTotal := t.totalTotal + attempt.totalMS
      result :=
        { t.result with
          successfulTries := t.result.successfulTries + 1
          httpStatus := attempt.httpStatus
          httpVersion := attempt.httpVersion
          tlsVersion := attempt.tlsVersion
          colo := if attempt.colo ≠ "" then attempt.colo else t.result.colo
          cfRay := if attempt.cfRay ≠ "" then attempt.cfRay else t.result.cfRay } }

/-- `truncate(err.Error(), 500)`, as `json.Marshal` writes it: a byte that is not UTF-8 becomes
U+FFFD. -/
def errorMessage (err : AttemptError) : String :=
  String.ofList (Utf8.runes (Errors.Probe.truncate err.text 500))

/-- The defaults of `Run`. -/
def Config.normalize (cfg : Config) : Config :=
  { cfg with
    attempts := if cfg.attempts < 1 then 1 else cfg.attempts
    timeoutMS := if cfg.timeoutMS < 500 then 5000 else cfg.timeoutMS }

def Tally.start (task : ClaimedTask) (cfg : Config) : Tally where
  result :=
    { taskID := task.id, targetIP := task.targetIP, available := false, latencyMS := 0
      packetLoss := 0, tcpConnectMS := 0, tlsHandshakeMS := 0, ttfbMS := 0, totalMS := 0
      httpStatus := 0, httpVersion := "", tlsVersion := "", colo := "", cfRay := ""
      errorCode := "", errorMessage := "", successfulTries := 0, attempts := cfg.attempts }
  tcpTotal := 0
  tlsTotal := 0
  ttfbTotal := 0
  totalTotal := 0
  lastError := none
  lastCode := ""

/-- What `Run` makes of the loop's variables. -/
def Tally.finish (cfg : Config) (t : Tally) : ProbeResult :=
  let tries := t.result.successfulTries
  let result :=
    { t.result with
      packetLoss := ((cfg.attempts - tries : Int) : ℚ) / cfg.attempts * 100
      available := decide (tries > 0) }
  if tries > 0 then
    { result with
      tcpConnectMS := t.tcpTotal / tries
      tlsHandshakeMS := t.tlsTotal / tries
      ttfbMS := t.ttfbTotal / tries
      totalMS := t.totalTotal / tries
      latencyMS := t.ttfbTotal / tries }
  else
    { result with
      errorCode := t.lastCode
      errorMessage := (t.lastError.map Agent.errorMessage).getD "" }

/-- `probe.Run`. -/
def run (letters : Utf8.Letters) (cfg : Config) (task : ClaimedTask) (network : Network) :
    ProbeResult :=
  let cfg := cfg.normalize
  ((List.range cfg.attempts.toNat).foldl
    (fun t i => t.next letters (network task.targetIP cfg i)) (Tally.start task cfg)).finish cfg

theorem Tally.taskID_next (letters : Utf8.Letters) (t : Tally)
    (attempt : Except AttemptError AttemptResult) :
    (t.next letters attempt).result.taskID = t.result.taskID := by
  cases attempt <;> rfl

theorem Tally.taskID_finish (cfg : Config) (t : Tally) :
    (t.finish cfg).taskID = t.result.taskID := by
  unfold Tally.finish
  dsimp only
  split <;> rfl

/-- Whatever happens to a probe, its result is that of its task. -/
theorem taskID_run (letters : Utf8.Letters) (cfg : Config) (task : ClaimedTask)
    (network : Network) : (run letters cfg task network).taskID = task.id := by
  unfold run
  dsimp only
  rw [Tally.taskID_finish]
  generalize List.range _ = numbers
  generalize hstart : Tally.start task cfg.normalize = t
  have ht : t.result.taskID = task.id := by rw [← hstart]; rfl
  clear hstart
  induction numbers generalizing t with
  | nil => exact ht
  | cons i numbers ih =>
    rw [List.foldl_cons]
    exact ih _ ((t.taskID_next letters _).trans ht)

/-! ## The batch

`Pool` is the library's account of workers around two channels; here it is given the tasks,
the probe and the number of workers the source computes. An act that the pool refuses, such
as a worker taking from an empty channel, makes the whole schedule `none`. -/

def TaskBatch.config (batch : TaskBatch) : Config :=
  ⟨batch.scheme, batch.hostname, batch.path, batch.port, batch.attempts, batch.timeoutMS⟩

/-- How many workers are started. -/
def workersFor (batch : TaskBatch) (concurrency : Int) : Nat :=
  let concurrency := if concurrency < 1 then 1 else concurrency
  let concurrency :=
    if concurrency > batch.tasks.length then (batch.tasks.length : Int) else concurrency
  concurrency.toNat

/-- The state of `runBatch` after a schedule of its goroutines, if that schedule can happen. The
workers are all started before the first of them can receive. -/
def runBatch (letters : Utf8.Letters) (batch : TaskBatch) (concurrency : Int)
    (acts : List (Pool.Act Network)) : Option (Pool.State ClaimedTask ProbeResult) :=
  Pool.play (run letters (TaskBatch.config batch)) batch.tasks.length
    (Pool.start batch.tasks (workersFor batch concurrency)) acts

theorem workersFor_pos {batch : TaskBatch} (concurrency : Int) (h : batch.tasks ≠ []) :
    0 < workersFor batch concurrency := by
  have hlen := List.length_pos_iff.mpr h
  unfold workersFor
  dsimp only
  split <;> split <;> omega

section Run

variable {letters : Utf8.Letters} {batch : TaskBatch} {concurrency : Int}
  {acts : List (Pool.Act Network)} {p : Pool.State ClaimedTask ProbeResult}

theorem sound_runBatch (h : runBatch letters batch concurrency acts = some p) :
    Pool.Sound ClaimedTask.id ProbeResult.taskID batch.tasks p :=
  (Pool.sound_start batch.tasks _).play (taskID_run letters _) h

/-- There are workers, if there are tasks. -/
theorem crew_runBatch (h : runBatch letters batch concurrency acts = some p) :
    p.workers ≠ [] ∨ batch.tasks = [] := by
  by_cases htasks : batch.tasks = []
  · exact Or.inr htasks
  · left
    have hlen := Pool.length_workers_play h
    rw [Pool.start, List.length_replicate] at hlen
    rw [← List.length_pos_iff, hlen]
    exact workersFor_pos concurrency htasks

/-- **The pool loses and repeats nothing**, under every schedule of the producer, the workers and
the caller. A schedule is only so long, it can go on until `runBatch` returns, nobody sends on the
closed channel, and the results returned are of some tasks of the batch, each once: of all of them
when the context was not cancelled. -/
theorem run_batch (h : runBatch letters batch concurrency acts = some p) :
    acts.length ≤ 4 * batch.tasks.length + workersFor batch concurrency + 5 ∧
    (∀ result, .sending result ∈ p.workers → p.caller = .waiting) ∧
    ((∀ items, p.caller ≠ .returned items) →
      ∃ a, a ≠ .cancel ∧ (runBatch letters batch concurrency (acts ++ [a])).isSome = true) ∧
    ∀ items, p.caller = .returned items →
      (items.map ProbeResult.taskID : Multiset Int) ≤ batch.tasks.map ClaimedTask.id ∧
      (.cancel ∉ acts →
        (items.map ProbeResult.taskID : Multiset Int) = batch.tasks.map ClaimedTask.id) := by
  have hsound := sound_runBatch h
  refine ⟨?_, fun result hmem => ?_, fun hcaller => ?_, fun items hret => ?_⟩
  · have hlen := Pool.play_length h
    rw [Pool.weight_start] at hlen
    omega
  · obtain ⟨i, hw⟩ := List.mem_iff_getElem?.mp hmem
    exact hsound.waiting hw (by simp)
  · have : Nonempty Network := ⟨fun _ _ _ => .error ⟨[], none⟩⟩
    obtain ⟨a, ha, hstep⟩ := hsound.exists_step (run letters (TaskBatch.config batch))
      (le_refl _) hcaller
    refine ⟨a, ha, ?_⟩
    rw [runBatch, Pool.play_concat h]
    exact hstep
  · obtain ⟨dropped, hall, hdropped⟩ := hsound.returned (crew_runBatch h) hret
    rw [Multiset.map_coe, Multiset.map_coe] at hall
    refine ⟨hall ▸ Multiset.le_add_right _ _, fun hacts => ?_⟩
    rw [hdropped (Pool.cancelled_play h hacts), add_zero] at hall
    exact hall

end Run

def twoTasks : TaskBatch where
  jobID := 1
  jobName := "job"
  scheme := "https"
  hostname := "example.com"
  path := "/cdn-cgi/trace"
  port := 443
  attempts := 1
  timeoutMS := 5000
  tasks := [⟨7, "192.0.2.1"⟩, ⟨8, "192.0.2.2"⟩]

/-- Nothing answers, and the second worker is the first to send. -/
def oneSchedule : List (Pool.Act Network) :=
  let silence : Network := fun _ _ _ => .error ⟨[], none⟩
  [.handOff 0, .handOff 1, .finish 1 silence, .send 1, .finish 0 silence, .leave, .close, .exit 1,
    .send 0, .exit 0, .wake, .collect, .collect, .ret]

theorem run_batch_twoTasks : ∃ p items, runBatch .ascii twoTasks 32 oneSchedule = some p ∧
    p.caller = .returned items ∧
    (items.map ProbeResult.taskID : Multiset Int) = twoTasks.tasks.map ClaimedTask.id :=
  have hrun : runBatch .ascii twoTasks 32 oneSchedule = some _ := rfl
  ⟨_, _, hrun, rfl, ((run_batch hrun).2.2.2 _ rfl).2 (by simp [oneSchedule])⟩

end Cfscan.Agent
