import Cfscan.Scan.Creation

/-!
# Runs of scan calls

The calls of the store, each taking effect at one instant of a clock that never goes back, and
the sequences of them from an empty database. `serve_steps` reduces a call to the transactions it
commits; an invariant of the database is proved by cases on `Step`.

What happens **within** a call, while others run, is not seen at this level. `Scan.Interleaved` and
`Scan.Stop` take the transactions apart for the questions where that matters, and the interleavings
there begin with a database that a run has reached.
-/

set_option autoImplicit false

namespace Cfscan.Scan

open Cfscan.Lib Cfscan.Store

/-! ## Calls -/

/-- A call, with what it meets outside the four tables. -/
inductive Op where
  | createScanJob (agents : Agents) (jobID : UUID) (input : CreateScanJobRequest)
    (agentTargets : List AgentScanTargets)
  | createBlacklistRechecks (world : RecheckWorld) (agents : Agents)
    (settings : BlacklistRecheckSettings)
  | claimTasks (tie : UUID → Nat) (agentID : String) (limit : Int)
  | submitResults (batch : ResultBatch)
  | stopScanJob (id : String)

inductive Reply where
  | job (reply : Except StoreError ScanJob)
  | rechecks (result : BlacklistRecheckResult) (error : Option StoreError)
  | batch (reply : Except StoreError (Option TaskBatch))
  | submitted (reply : Except StoreError Unit)
deriving DecidableEq

def serve (pg : Postgres) (now : Timestamp) (s : ScanStore) : Op → Reply × ScanStore
  | .createScanJob agents jobID input agentTargets =>
    let r := createScanJob pg agents s now jobID input agentTargets
    (.job r.1, r.2)
  | .createBlacklistRechecks world agents settings =>
    let r := createBlacklistRechecks pg world agents s now settings
    (.rechecks r.1 r.2.1, r.2.2)
  | .claimTasks tie agentID limit =>
    let r := (claimTasks pg tie now agentID limit).exec s
    (.batch r.1, r.2)
  | .submitResults batch =>
    let r := (submitResults pg now batch).exec s
    (.submitted r.1, r.2)
  | .stopScanJob id =>
    let r := (stopScanJob pg now id).exec s
    (.job r.1, r.2)

/-! ## Runs

Calls come one after another here, each at the clock's time; what happens when the calls of
several connections overlap is the subject of `Cfscan.Scan.Interleaved` and
`Cfscan.Scan.Stop`. The clock never goes back. -/

inductive Event where
  /-- Time goes by, in microseconds. -/
  | pass (duration : Nat)
  | call (op : Op)

structure Service where
  clock : Timestamp
  store : ScanStore

def Service.next (pg : Postgres) (w : Service) : Event → Service
  | .pass duration => { w with clock := w.clock + duration }
  | .call op => { w with store := (serve pg w.clock w.store op).2 }

/-- The service after a sequence of events, from an empty database. -/
def replay (pg : Postgres) (start : Timestamp) (events : List Event) : Service :=
  events.foldl (Service.next pg) ⟨start, .empty⟩

@[simp] theorem replay_append (pg : Postgres) (start : Timestamp) (events : List Event)
    (ev : Event) : replay pg start (events ++ [ev]) = (replay pg start events).next pg ev := by
  simp [replay]

/-! ## Committed transactions

A call in terms of what it commits. One call can be several transactions (a round of
rechecks is one for each agent), hence the closure: an invariant of `Step` is one of every
call. -/

/-- One transaction that changed something. -/
inductive Step (pg : Postgres) (now : Timestamp) : ScanStore → ScanStore → Prop where
  | creation {s s' : ScanStore} (h : Creation pg s s') : Step pg now s s'
  | claim {s : ScanStore} {agent : UUID} {job : ScanJob} {ids : List Int}
      (h : ClaimOf s now agent job ids) :
      Step pg now s ((s.expired agent now).leased now job.id ids)
  | submit {s s' : ScanStore} {job : ScanJob} {agentID : String} {results : List ProbeResult}
      (hjob : job ∈ s.jobs.rows) (hopen : job.status ≠ .stopped)
      (h : Submitted pg now agentID job s results s') :
      Step pg now s (s'.progressed now job.id)
  | stop {s : ScanStore} {job : ScanJob} (hjob : job ∈ s.jobs.rows) (hactive : job.active = true) :
      Step pg now s (s.stopped now job.id)

/-- What a call commits: a creating call any number of transactions, the others at most one. -/
theorem serve_cases {pg : Postgres} {s : ScanStore} (hready : RecheckReady pg s)
    (hsingle : ∀ entry ∈ s.blacklist.rows, entry.Single pg) (now : Timestamp) (op : Op) :
    Relation.ReflTransGen (Creation pg) s (serve pg now s op).2 ∨
      Step pg now s (serve pg now s op).2 := by
  cases op with
  | createScanJob agents jobID input agentTargets =>
    exact Or.inl (.single (createScanJob_cases pg agents s now jobID input agentTargets))
  | createBlacklistRechecks world agents settings =>
    exact Or.inl (createBlacklistRechecks_steps hready hsingle world agents now settings)
  | claimTasks tie agentID limit =>
    rcases claimTasks_exec pg tie now agentID limit s with ⟨hsame, _⟩ | ⟨_, _, _, _, hclaim, hexec⟩
    · simp only [serve, hsame]
      exact Or.inl .refl
    · simp only [serve, hexec]
      exact Or.inr (.claim hclaim)
  | submitResults batch =>
    rcases submitResults_exec pg now batch s with
      ⟨_, hexec⟩ | ⟨_, _, _, _, hexec⟩ | ⟨job, hjob, s', _, hopen, hsubmitted, hexec⟩ <;>
      simp only [serve, hexec]
    · exact Or.inl .refl
    · exact Or.inl .refl
    · exact Or.inr (.submit hjob hopen hsubmitted)
  | stopScanJob id =>
    rcases stopScanJob_exec pg now id s with ⟨hsame, _⟩ | ⟨job, _, hjob, hactive, hexec⟩
    · simp only [serve, hsame]
      exact Or.inl .refl
    · simp only [serve, hexec]
      exact Or.inr (.stop hjob hactive)

theorem serve_steps {pg : Postgres} {s : ScanStore} (hready : RecheckReady pg s)
    (hsingle : ∀ entry ∈ s.blacklist.rows, entry.Single pg) (now : Timestamp) (op : Op) :
    Relation.ReflTransGen (Step pg now) s (serve pg now s op).2 := by
  rcases serve_cases hready hsingle now op with hcreations | hstep
  · exact hcreations.lift id fun _ _ => Step.creation
  · exact .single hstep

/-! ## A small run

One agent, one job, one address, for the witnesses of this directory. The cast functions
read the two ids and the one address and nothing else. -/

def oneAgent : String := "6f9619ff-8b86-4011-b42d-00c04fc964ff"

def oneJob : String := "7d444840-9dc0-41d1-b245-5ffdce74fad2"

/-- A server that knows one agent, one job and one address. -/
def oneAddress : Postgres where
  uuid := fun text =>
    if text = oneAgent then some 0x6f9619ff8b864011b42d00c04fc964ff
    else if text = oneJob then some 0x7d4448409dc041d1b2455ffdce74fad2
    else none
  inet := fun text => if text = "104.16.0.1" then some ⟨"104.16.0.1", none⟩ else none
  cidr := fun _ => none
  inet_host := by
    intro text ip h
    split at h
    · cases h
      rfl
    · cases h
  cidr_text := by
    intro text c h
    cases h

def oneTarget : CreateScanJobRequest where
  kind := "manual"
  name := "scan"
  samplingMode := "count"
  scheme := "https"
  hostname := "cloudflare.com"
  path := "/cdn-cgi/trace"
  port := 443
  attempts := 3
  timeoutMS := 5000
  maxLatencyMS := 300
  maxPacketLoss := 20
  blacklistMinutes := 60
  includeBlocked := false

/-- A job with one target, claimed by its agent. -/
def claimedJob : List Event :=
  [.call (.createScanJob (fun _ => some "agent") 0x7d4448409dc041d1b2455ffdce74fad2 oneTarget
      [⟨oneAgent, [⟨"104.16.0.1", ""⟩]⟩]),
    .call (.claimTasks (fun _ => 0) oneAgent 32)]

def goodResult : ProbeResult where
  taskID := 1
  targetIP := "104.16.0.1"
  available := true
  latencyMS := 25
  packetLoss := 0
  tcpConnectMS := 5
  tlsHandshakeMS := 8
  ttfbMS := 10
  totalMS := 30
  httpStatus := 200
  httpVersion := "HTTP/2"
  tlsVersion := "TLS 1.3"
  colo := "SJC"
  cfRay := ""
  errorCode := ""
  errorMessage := ""
  successfulTries := 3
  attempts := 3

/-- The one result, a good one. -/
def oneResult : ResultBatch where
  agentID := oneAgent
  jobID := oneJob
  results := [goodResult]

end Cfscan.Scan
