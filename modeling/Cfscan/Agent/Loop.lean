import Cfscan.Agent.Batch
import Cfscan.Agent.Requests
import Cfscan.Scan.Claimed

/-!
# The agent at work — `processAvailable` of `cmd/agent/main.go`

The loop claims a batch, probes it and submits the results until there is nothing to claim. What
other callers do, how long everything takes, how the goroutines of `runBatch` are scheduled and
whether a request comes back are all given from outside, a `Turn` for each round of the loop.

The requests are the ones behind `requireAgentToken`; a token that is refused is a request that
comes back with an error and was not handled.

`claimed_work_accepted` is about one batch, from the claim to the submission. It is accepted exactly
when the columns take the results or the job has been stopped meanwhile; the time that has passed
and what others have done make no difference, as long as the agent itself does nothing that ends the
leases (`Keeps`). A lease that has run out is no reason for a refusal: a task is not handed to
another agent, and it is a claim of the agent's own that would end the lease.

The targets are single addresses (`Event.Plain`), and the table holds fewer than 2^31 tasks.

It does **not** say that a result reaches the center: a request may be lost in either direction
(`Delivery`), and then the loop ends (`Outcome.submitFailed`) and the next one claims again.
-/

set_option autoImplicit false

namespace Cfscan.Agent

open Cfscan.Lib Cfscan.Store Cfscan.Scan

/-! ## The client

A request may be lost on its way, handled with its answer lost, or handled and answered. A
loss looks the same to the client in both cases, and the loop treats it as an error. -/

/-- How a request of the client comes back. -/
inductive Delivery where
  /-- With the reply of its handler. -/
  | answered
  /-- With an error, when the handler has run all the same or has not. -/
  | failed (handled : Bool)
deriving DecidableEq

def Delivery.bring {α : Type} (delivery : Delivery) (w : Service) (handled : Option α × Service) :
    Option α × Service :=
  match delivery with
  | .answered => handled
  | .failed true => (none, handled.2)
  | .failed false => (none, w)

/-- One round of the loop. -/
structure Turn where
  /-- What goes on before the claim. -/
  before : List Event
  tie : UUID → Nat
  claim : Delivery
  /-- What goes on between the claim and the submission. -/
  during : List Event
  acts : List (Pool.Act Network)
  submit : Delivery

/-- What `claim` makes of a reply; `none` is an error. -/
def Reply.claimed : Reply → Option (Option TaskBatch)
  | .batch body => some (some body)
  | .noContent => some none
  | _ => none

def Reply.submitted : Reply → Option Unit
  | .noContent => some ()
  | _ => none

def visitNow (w : Service) (tie : UUID → Nat) (request : Request) : Visit :=
  ⟨"", request, w.clock, w.clock, tie⟩

section Client

variable (pg : Postgres) (uuidText : UUID → String) (letters : Utf8.Letters)
  (accounts : Enrollment.EnrollmentStore) (agentID : String) (concurrency : Int)

def claim (turn : Turn) (w : Service) : Option (Option TaskBatch) × Service :=
  let r := claimTask pg (visitNow w turn.tie (.claimTask concurrency)) ⟨accounts, w.store⟩ agentID
    concurrency
  turn.claim.bring w (r.1.claimed, ⟨w.clock, r.2.scan⟩)

def submit (turn : Turn) (jobID : UUID) (results : List ProbeResult) (w : Service) :
    Option Unit × Service :=
  let input : ResultBatch := ⟨"", uuidText jobID, results⟩
  let r := submitResults pg (visitNow w turn.tie (.submitResults input)) ⟨accounts, w.store⟩ agentID
    input
  turn.submit.bring w (r.1.submitted, ⟨w.clock, r.2.scan⟩)

/-! ## The loop -/

inductive Outcome where
  /-- The turns are over, the loop is not. -/
  | looping
  /-- `runBatch` has not returned. -/
  | probing
  | idle
  | claimFailed
  | submitFailed (results : List ProbeResult)
deriving DecidableEq

def processAvailable : Service → List Turn → Outcome × Service
  | w, [] => (.looping, w)
  | w, turn :: turns =>
    match claim pg accounts agentID concurrency turn (turn.before.foldl (Service.next pg) w) with
    | (none, w) => (.claimFailed, w)
    | (some none, w) => (.idle, w)
    | (some (some batch), w) =>
      if batch.tasks = [] then (.idle, w)
      else
        let w := turn.during.foldl (Service.next pg) w
        match (runBatch letters batch concurrency turn.acts).map Pool.State.caller with
        | some (.returned results) =>
          match submit pg uuidText accounts agentID turn batch.jobID results w with
          | (none, w) => (.submitFailed results, w)
          | (some (), w) => processAvailable w turns
        | _ => (.probing, w)

end Client

/-! ## What goes on around the loop

Other calls come before each turn and between its claim and its submission. In a calm turn
they are any calls but the agent's own: one process runs one loop, and the leases are its
own to lose. -/

/-- A call that is not one of the agent's. -/
def ByOthers (pg : Postgres) (agent : UUID) : Event → Prop
  | .call (.claimTasks _ agentID _) => pg.uuid agentID ≠ some agent
  | .call (.submitResults batch) => pg.uuid batch.agentID ≠ some agent
  | _ => True

/-- A call that creates no tasks. -/
def CreatesNothing : Event → Prop
  | .call (.createScanJob ..) => False
  | .call (.createBlacklistRechecks ..) => False
  | _ => True

/-- A turn whose requests come back and whose context is not cancelled, among calls of others. -/
structure Turn.Calm (pg : Postgres) (agent : UUID) (turn : Turn) : Prop where
  claim : turn.claim = .answered
  submit : turn.submit = .answered
  context : .cancel ∉ turn.acts
  plain : ∀ ev ∈ turn.before ++ turn.during, ev.Plain pg
  others : ∀ ev ∈ turn.before ++ turn.during, ByOthers pg agent ev

theorem keeps_of_byOthers {pg : Postgres} {agent : UUID} (ids : List Int) (deadline : Timestamp)
    (w : Service) {ev : Event} (h : ByOthers pg agent ev) : Keeps pg agent ids deadline w ev := by
  cases ev with
  | pass duration => trivial
  | call op =>
    cases op with
    | createScanJob => trivial
    | createBlacklistRechecks => trivial
    | claimTasks tie agentID limit => exact fun huuid => absurd huuid h
    | submitResults batch => exact fun huuid => absurd huuid h
    | stopScanJob id => trivial

theorem keeps_along {pg : Postgres} {agent : UUID} (ids : List Int) (deadline : Timestamp)
    {w : Service} {events : List Event} (h : ∀ ev ∈ events, ByOthers pg agent ev) :
    Along (Service.next pg) (Keeps pg agent ids deadline) w events := by
  induction events generalizing w with
  | nil => trivial
  | cons ev events ih =>
    obtain ⟨hev, hrest⟩ := List.forall_mem_cons.mp h
    exact ⟨keeps_of_byOthers ids deadline w hev, ih hrest⟩

/-! ## What the pool returns -/

section Pool

variable {letters : Utf8.Letters} {batch : TaskBatch} {concurrency : Int}
  {acts : List (Pool.Act Network)} {p : Pool.State ClaimedTask ProbeResult}
  {results : List ProbeResult}

theorem Tally.targetIP_next (letters : Utf8.Letters) (t : Tally)
    (attempt : Except AttemptError AttemptResult) :
    (t.next letters attempt).result.targetIP = t.result.targetIP := by
  cases attempt <;> rfl

theorem Tally.targetIP_finish (cfg : Config) (t : Tally) :
    (t.finish cfg).targetIP = t.result.targetIP := by
  unfold Tally.finish
  dsimp only
  split <;> rfl

theorem targetIP_run (letters : Utf8.Letters) (cfg : Config) (task : ClaimedTask)
    (network : Network) : (run letters cfg task network).targetIP = task.targetIP := by
  unfold run
  dsimp only
  rw [Tally.targetIP_finish]
  generalize List.range _ = numbers
  generalize hstart : Tally.start task cfg.normalize = t
  have ht : t.result.targetIP = task.targetIP := by rw [← hstart]; rfl
  clear hstart
  induction numbers generalizing t with
  | nil => exact ht
  | cons i numbers ih =>
    rw [List.foldl_cons]
    exact ih _ ((t.targetIP_next letters _).trans ht)

/-- The results are of some tasks of the batch and their addresses, each once: of all of them when
the context was not cancelled. -/
theorem runBatch_returned (hrun : runBatch letters batch concurrency acts = some p)
    (hret : p.caller = .returned results) :
    (results.map fun result => (result.taskID, result.targetIP) : Multiset (Int × String)) ≤
        batch.tasks.map (fun c => (c.id, c.targetIP)) ∧
      (.cancel ∉ acts →
        (results.map fun result => (result.taskID, result.targetIP) : Multiset (Int × String)) =
          batch.tasks.map fun c => (c.id, c.targetIP)) := by
  have hsound : Pool.Sound (fun c : ClaimedTask => (c.id, c.targetIP))
      (fun result : ProbeResult => (result.taskID, result.targetIP)) batch.tasks p :=
    (Pool.sound_start batch.tasks _).play (fun task network =>
      Prod.ext (taskID_run letters _ task network) (targetIP_run letters _ task network)) hrun
  obtain ⟨dropped, hall, hdropped⟩ := hsound.returned (crew_runBatch hrun) hret
  rw [Multiset.map_coe, Multiset.map_coe] at hall
  refine ⟨hall ▸ Multiset.le_add_right _ _, fun hacts => ?_⟩
  rw [hdropped (Pool.cancelled_play hrun hacts), add_zero] at hall
  exact hall

/-- What a submission of them asks for. -/
theorem runBatch_of (hrun : runBatch letters batch concurrency acts = some p)
    (hret : p.caller = .returned results) (hdistinct : (batch.tasks.map ClaimedTask.id).Nodup) :
    (results.map ProbeResult.taskID).Nodup ∧ ∀ result ∈ results, ∃ c ∈ batch.tasks,
      result.taskID = c.id ∧ result.targetIP = c.targetIP := by
  obtain ⟨hle, -⟩ := runBatch_returned hrun hret
  have hsub := Multiset.coe_le.mp hle
  constructor
  · have hids := Multiset.map_le_map (f := Prod.fst) hle
    rw [Multiset.map_coe, Multiset.map_coe, List.map_map, List.map_map] at hids
    exact Multiset.coe_nodup.mp (Multiset.nodup_of_le hids (Multiset.coe_nodup.mpr hdistinct))
  · intro result hresult
    obtain ⟨c, hc, heq⟩ := List.mem_map.mp (hsub.subset (List.mem_map_of_mem hresult))
    exact ⟨c, hc, (congrArg Prod.fst heq).symm, (congrArg Prod.snd heq).symm⟩

/-- Every task of the batch has its result. -/
theorem runBatch_all (hrun : runBatch letters batch concurrency acts = some p)
    (hret : p.caller = .returned results) (hacts : .cancel ∉ acts) :
    ∀ c ∈ batch.tasks, ∃ result ∈ results, result.taskID = c.id := by
  have hall := (runBatch_returned hrun hret).2 hacts
  intro c hc
  have hmem : (c.id, c.targetIP) ∈
      results.map fun result => (result.taskID, result.targetIP) :=
    (Multiset.coe_eq_coe.mp hall).mem_iff.mpr
      (List.mem_map_of_mem (f := fun c : ClaimedTask => (c.id, c.targetIP)) hc)
  obtain ⟨result, hresult, heq⟩ := List.mem_map.mp hmem
  exact ⟨result, hresult, congrArg Prod.fst heq⟩

end Pool

/-! ## What stays

Tasks are never deleted and jobs neither, which lets a bound on the final table stand for
one on every table before it. -/

/-- Jobs and tasks stay where they are. -/
structure Grows (s s' : ScanStore) : Prop where
  tasks : ∀ task ∈ s.tasks.rows, ∃ task' ∈ s'.tasks.rows, task'.id = task.id
  jobs : ∀ job ∈ s.jobs.rows, ∃ job' ∈ s'.jobs.rows, job'.id = job.id

section Grows

variable {pg : Postgres} {s s' s'' : ScanStore} {w : Service}

theorem Grows.refl (s : ScanStore) : Grows s s :=
  ⟨fun task htask => ⟨task, htask, rfl⟩, fun job hjob => ⟨job, hjob, rfl⟩⟩

theorem Grows.trans (h : Grows s s') (h' : Grows s' s'') : Grows s s'' := by
  constructor
  · intro task htask
    obtain ⟨task', htask', hid⟩ := h.tasks task htask
    obtain ⟨task'', htask'', hid'⟩ := h'.tasks task' htask'
    exact ⟨task'', htask'', hid'.trans hid⟩
  · intro job hjob
    obtain ⟨job', hjob', hid⟩ := h.jobs job hjob
    obtain ⟨job'', hjob'', hid'⟩ := h'.jobs job' hjob'
    exact ⟨job'', hjob'', hid'.trans hid⟩

theorem Grows.length_le (h : Grows s s') : s.tasks.rows.length ≤ s'.tasks.rows.length := by
  have hsub : (s.tasks.rows.map ScanTask.id).Subperm (s'.tasks.rows.map ScanTask.id) := by
    refine List.subperm_of_subset s.tasks.nodup fun id hid => ?_
    obtain ⟨task, htask, rfl⟩ := List.mem_map.mp hid
    obtain ⟨task', htask', heq⟩ := h.tasks task htask
    exact heq ▸ List.mem_map_of_mem htask'
  have hle := hsub.length_le
  rwa [List.length_map, List.length_map] at hle

theorem Grows.int4 (h : Grows s s') (hfits : int4 s'.tasks.rows.length = true) :
    int4 s.tasks.rows.length = true := by
  have hle := h.length_le
  simp only [Store.int4, Bool.and_eq_true, decide_eq_true_eq] at hfits ⊢
  omega

theorem grows_next (hsound : Sound pg w.store) (ev : Scan.Event) :
    Grows w.store (w.next pg ev).store := by
  constructor
  · intro task htask
    cases ev with
    | pass duration => exact ⟨task, htask, rfl⟩
    | call op =>
      obtain ⟨task', htask', hstep⟩ := (serve_evolves hsound.rows w.clock op).steps task htask
      exact ⟨task', htask', hstep.same.id⟩
  · intro job hjob
    obtain ⟨job', hjob', hid, -⟩ := (next_goesOn hsound.rows ev).1.job job hjob
    exact ⟨job', hjob', hid⟩

theorem sound_foldl (hsound : Sound pg w.store) (events : List Scan.Event) :
    Sound pg (events.foldl (Service.next pg) w).store := by
  induction events generalizing w with
  | nil => exact hsound
  | cons ev events ih => exact ih (hsound.next ev)

theorem grows_foldl (hsound : Sound pg w.store) (events : List Scan.Event) :
    Grows w.store (events.foldl (Service.next pg) w).store := by
  induction events generalizing w with
  | nil => exact .refl _
  | cons ev events ih => exact (grows_next hsound ev).trans (ih (hsound.next ev))

end Grows

/-! ## One batch -/

section Batch

variable {pg : Postgres} {tie : UUID → Nat} {agentID jobText : String} {limit : Int} {agent : UUID}
  {batch : TaskBatch} {letters : Utf8.Letters} {concurrency : Int}
  {acts : List (Pool.Act Network)} {p : Pool.State ClaimedTask ProbeResult}
  {results : List ProbeResult} {w late : Service} {mid : List Scan.Event} {since : Timestamp}

theorem HandsOut.later (hhands : HandsOut w.store since agent batch) (hsound : Sound pg w.store)
    (hkeeps : Along (Service.next pg) (Keeps pg agent (batch.tasks.map ClaimedTask.id)
      (since + leaseTerm)) w mid) :
    ∀ c ∈ batch.tasks, ∃ task, Out batch.jobID agent (since + leaseTerm) c task ∧
      (task ∈ (mid.foldl (Service.next pg) w).store.tasks.rows ∨
        task.cancel ∈ (mid.foldl (Service.next pg) w).store.tasks.rows) := by
  intro c hc
  obtain ⟨task, htask, hout⟩ := hhands.out c hc
  have hmem : task.id ∈ batch.tasks.map ClaimedTask.id := hout.id ▸ List.mem_map_of_mem hc
  exact ⟨task, hout, kept_along hsound htask hmem hout.status hout.lease (le_refl _)
    (hout.agent ▸ hkeeps)⟩

/-- The results of a batch, submitted after any events that keep its leases. -/
theorem submit_probed (hsteady : Steady pg w.store) (hhands : HandsOut w.store since agent batch)
    (hplain : ∀ ev ∈ mid, ev.Plain pg)
    (hkeeps : Along (Service.next pg) (Keeps pg agent (batch.tasks.map ClaimedTask.id)
      (since + leaseTerm)) w mid)
    (hlate : mid.foldl (Service.next pg) w = late) (huuid : pg.uuid agentID = some agent)
    (hid : pg.uuid jobText = some batch.jobID) (hlength : int4 late.store.tasks.rows.length = true)
    (hrun : runBatch letters batch concurrency acts = some p)
    (hret : p.caller = .returned results) :
    ((Scan.submitResults pg late.clock ⟨agentID, jobText, results⟩).exec late.store).1 = .ok () ↔
      late.store.hasStopped pg jobText ∨ ∀ result ∈ results, result.Fits := by
  subst hlate
  have hlate := hsteady.foldl hplain
  obtain ⟨hdistinct, hof⟩ := runBatch_of hrun hret hhands.distinct
  obtain ⟨job, hjob, hjobID⟩ := hhands.job
  obtain ⟨job', hjob', hjobID'⟩ := (grows_foldl hsteady.sound mid).jobs job hjob
  exact submit_claimed hlate _ huuid hid ⟨job', hjob', hjobID'.trans hjobID⟩ hlength
    (HandsOut.later hhands hsteady.sound hkeeps) hdistinct hof

/-- **Claimed work is never refused.** After a claim, let others do anything for any time, and the
agent itself whatever keeps its leases: what `runBatch` returns is accepted exactly when the columns
take it or the job has been stopped, and unless it has been stopped every result is recorded. -/
theorem claimed_work_accepted (pg : Postgres) (start : Timestamp) (before mid : List Scan.Event)
    (tie : UUID → Nat) (limit : Int) (hplain : ∀ ev ∈ before ++ mid, ev.Plain pg)
    (huuid : pg.uuid agentID = some agent) (hid : pg.uuid jobText = some batch.jobID)
    (hclaim : (Scan.serve pg (replay pg start before).clock (replay pg start before).store
      (.claimTasks tie agentID limit)).1 = .batch (.ok (some batch)))
    (hkeeps : Along (Service.next pg)
      (Keeps pg agent (batch.tasks.map ClaimedTask.id) ((replay pg start before).clock + leaseTerm))
      (replay pg start (before ++ [.call (.claimTasks tie agentID limit)])) mid)
    (hlate : replay pg start (before ++ [.call (.claimTasks tie agentID limit)] ++ mid) = late)
    (hlength : int4 late.store.tasks.rows.length = true)
    (hrun : runBatch letters batch concurrency acts = some p)
    (hret : p.caller = .returned results) :
    ((Scan.serve pg late.clock late.store (.submitResults ⟨agentID, jobText, results⟩)).1 =
        .submitted (.ok ()) ↔
      late.store.hasStopped pg jobText ∨ ∀ result ∈ results, result.Fits) ∧
    ((Scan.serve pg late.clock late.store (.submitResults ⟨agentID, jobText, results⟩)).1 =
        .submitted (.ok ()) → ¬ late.store.hasStopped pg jobText →
      ∃ job ∈ late.store.jobs.rows, pg.uuid jobText = some job.id ∧ ∀ result ∈ results,
        Recorded pg (Scan.serve pg late.clock late.store
          (.submitResults ⟨agentID, jobText, results⟩)).2 late.clock job result) := by
  obtain ⟨hbefore, hmid⟩ := List.forall_mem_append.mp hplain
  have hstart : Steady pg (replay pg start before).store := (Steady.empty pg).foldl hbefore
  have hstep : Steady pg ((replay pg start before).next pg
      (.call (.claimTasks tie agentID limit))).store := hstart.next trivial
  rw [replay_append] at hkeeps
  have hclaimed : ((claimTasks pg tie (replay pg start before).clock agentID limit).exec
      (replay pg start before).store).1 = .ok (some batch) := by
    simpa only [Scan.serve, Scan.Reply.batch.injEq] using hclaim
  have hlate' : mid.foldl (Service.next pg)
      ((replay pg start before).next pg (.call (.claimTasks tie agentID limit))) = late := by
    rw [← hlate, ← replay_append]
    simp only [replay, List.foldl_append]
  have hreply : (Scan.serve pg late.clock late.store
      (.submitResults ⟨agentID, jobText, results⟩)).1 = .submitted (.ok ()) ↔
        ((Scan.submitResults pg late.clock ⟨agentID, jobText, results⟩).exec late.store).1 =
          .ok () := by
    simp only [Scan.serve, Scan.Reply.submitted.injEq]
  rw [hreply]
  have hsound : Sound pg late.store := hlate' ▸ (hstep.foldl hmid).sound
  exact ⟨submit_probed hstep (claimTasks_handsOut huuid hclaimed) hmid hkeeps hlate' huuid hid
    hlength hrun hret, fun hok hopen => submit_recorded hsound.rows hok hopen⟩

end Batch

/-! ## An hour later -/

def claimedBatch : TaskBatch where
  jobID := 0x7d4448409dc041d1b2455ffdce74fad2
  jobName := "scan"
  scheme := "https"
  hostname := "cloudflare.com"
  path := "/cdn-cgi/trace"
  port := 443
  attempts := 3
  timeoutMS := 5000
  tasks := [⟨1, "104.16.0.1"⟩]

/-- The one worker, and an answer to every attempt. -/
def oneProbe : List (Pool.Act Network) :=
  let answer : Network := fun _ _ _ => .ok ⟨5, 8, 10, 30, 200, "HTTP/2", "TLS 1.3", "SJC", ""⟩
  [.handOff 0, .finish 0 answer, .leave, .close, .send 0, .exit 0, .wake, .collect, .ret]

theorem claimed_work_accepted_hourLater : ∃ p results,
    runBatch .ascii claimedBatch 32 oneProbe = some p ∧ p.caller = .returned results ∧
      (Scan.serve oneAddress (replay oneAddress 0 (claimedJob ++ [.pass (3600 * 1000000)])).clock
        (replay oneAddress 0 (claimedJob ++ [.pass (3600 * 1000000)])).store
        (.submitResults ⟨oneAgent, oneJob, results⟩)).1 = .submitted (.ok ()) := by
  have hrun : runBatch .ascii claimedBatch 32 oneProbe = some _ := rfl
  have hplain : ∀ ev ∈ claimedJob.take 1 ++ [.pass (3600 * 1000000)], ev.Plain oneAddress := by
    intro ev hev
    rcases List.mem_append.mp hev with hev | hev
    · exact plain_claimedJob ev (List.mem_of_mem_take hev)
    · rw [List.mem_singleton.mp hev]
      trivial
  refine ⟨_, _, hrun, rfl, ?_⟩
  refine (claimed_work_accepted oneAddress 0 (claimedJob.take 1) [.pass (3600 * 1000000)] (fun _ => 0)
    32 hplain (by decide +kernel : oneAddress.uuid oneAgent = some 0x6f9619ff8b864011b42d00c04fc964ff)
    (by decide +kernel : oneAddress.uuid oneJob = some claimedBatch.jobID) (by decide +kernel)
    (by decide +kernel) rfl (by decide +kernel) hrun rfl).1.mpr (Or.inr ?_)
  intro result hresult
  rw [List.mem_singleton.mp hresult]
  exact ⟨"", by decide +kernel, by decide +kernel, by decide +kernel⟩

end Cfscan.Agent
