import Cfscan.Lib.Streak
import Cfscan.Scan.Progress

/-!
# The blacklist is the fold of the accepted results

`ledger` writes down every result a submission committed, in commit order, with the verdict the
documentation gives it (`ProbeResult.bad`). The blacklist entry of an address is the streak of its
history in that ledger, and the two verdict counters of a job count its part of it. The verdict is
computed twice in the source, by a `switch` in Go and by `FILTER` clauses in SQL; `reason_ne_empty`
and `fails_eq_bad` are where each is compared with the definition here.

The law has four parts: which addresses are listed, with which count and reason, and the two
counters of a job. It is about the reason and the count of an entry. Its times are left out, since a
recheck puts an entry off without a result, and what a later job makes of the list is in
`Scan.Create`.

The ledger is not a table of the source. It is the list of everything that was ever accepted, and
stands here for the sentence "consecutive failures since the last success".
-/

set_option autoImplicit false

namespace Cfscan.Scan

open Cfscan.Lib Cfscan.Store

/-! ## The ledger

What the center has accepted, in the order it accepted it: one entry for each result of each
`SubmitResults` that committed for a job that was not stopped, with its verdict. A result is
bad if the address is unavailable or misses the loss or the latency its job allows, which is
how the documentation puts it; the reason is the one the source writes. -/

/-- A result that is bad for its target. -/
def ProbeResult.bad (job : ScanJob) (result : ProbeResult) : Bool :=
  !result.available || decide (result.packetLoss > job.maxPacketLoss) ||
    decide (result.latencyMS > job.maxLatencyMS)

structure Accepted where
  jobID : UUID
  agentID : UUID
  targetIP : Inet
  bad : Bool
  reason : String
deriving DecidableEq, Repr

def ProbeResult.accepted (job : ScanJob) (agent : UUID) (result : ProbeResult) : Accepted where
  jobID := job.id
  agentID := agent
  targetIP := ⟨result.targetIP, none⟩
  bad := result.bad job
  reason := blacklistReason job result

/-- The results an event commits: those of a submission that succeeds for a job not stopped. -/
def acceptedBy (pg : Postgres) (w : Service) : Event → List Accepted
  | .call (.submitResults batch) =>
    match ((submitResults pg w.clock batch).exec w.store).1,
      (pg.uuid batch.jobID).bind w.store.jobs.find?, pg.uuid batch.agentID with
    | .ok (), some job, some agent =>
      if job.status = .stopped then [] else batch.results.map (ProbeResult.accepted job agent)
    | _, _, _ => []
  | _ => []

/-- The run, with everything it has accepted so far. -/
def ledger (pg : Postgres) (start : Timestamp) (events : List Event) : List Accepted :=
  (events.foldl (fun (w, log) ev => (w.next pg ev, log ++ acceptedBy pg w ev))
    ((⟨start, .empty⟩ : Service), ([] : List Accepted))).2

/-- The history of one agent and one address. -/
def historyOf (agent : UUID) (targetIP : Inet) (log : List Accepted) : List Accepted :=
  log.filter fun a => decide (a.agentID = agent) && decide (a.targetIP = targetIP)

theorem ledger_append (pg : Postgres) (start : Timestamp) (events : List Event) (ev : Event) :
    ledger pg start (events ++ [ev]) =
      ledger pg start events ++ acceptedBy pg (replay pg start events) ev := by
  have hrun : ∀ events : List Event,
      (events.foldl (fun (w, log) ev => (Service.next pg w ev, log ++ acceptedBy pg w ev))
        ((⟨start, .empty⟩ : Service), ([] : List Accepted))).1 = replay pg start events := by
    intro events
    induction events using List.reverseRecOn with
    | nil => rfl
    | append_singleton events ev ih =>
      rw [List.foldl_append, replay_append, ← ih]
      rfl
  unfold ledger
  rw [List.foldl_append, ← hrun events]
  rfl

/-! ## The two verdicts

The source decides twice whether a result is bad: a Go switch picks the reason for the
blacklist, and an SQL `FILTER` counts the failures of the job. Each is compared with the
documented verdict, so that neither can drift from the other unseen. -/

/-- The Go `switch` names a reason exactly for the bad results. -/
theorem reason_ne_empty (job : ScanJob) (result : ProbeResult) :
    blacklistReason job result ≠ "" ↔ result.bad job = true := by
  unfold blacklistReason ProbeResult.bad
  by_cases havailable : result.available = true
  · by_cases hloss : result.packetLoss > job.maxPacketLoss
    · simp [havailable, hloss]
    · by_cases hlatency : result.latencyMS > job.maxLatencyMS
      · simp [havailable, hloss, hlatency]
      · simp [havailable, hloss, hlatency]
  · by_cases hcode : result.errorCode = ""
    · simp [havailable, hcode]
    · simp [havailable, hcode]

/-- The SQL filter, on the row inserted for the result. -/
theorem fails_eq_bad {pg : Postgres} {now : Timestamp} {job : ScanJob} {agent : UUID}
    {task : ScanTask} {result : ProbeResult} {row : ScanResult}
    (h : result.row pg now job agent task = some row) : row.fails job = result.bad job := by
  simp only [ProbeResult.row, Option.bind_eq_bind, Option.bind_eq_some_iff] at h
  obtain ⟨_, _, _, _, _, _, _, _, _, _, hrow⟩ := h
  cases hrow
  rfl

/-! ## The invariant

The blacklist shows, for each agent and address, the streak of bad verdicts at the end of
its history, with the last reason. Most calls leave both sides alone; `Shows.keep` says what
that takes, so that only `SubmitResults` needs an argument of its own. -/

/-- The ledger, as the blacklist and the jobs show it. -/
structure Shows (s : ScanStore) (log : List Accepted) : Prop where
  entry : ∀ agent targetIP, (s.blacklist.find? (agent, targetIP)).map BlacklistEntry.record =
    (streak Accepted.bad Accepted.reason (historyOf agent targetIP log)).map
      fun p => (p.1, (p.2 : Int))
  owner : ∀ a ∈ log, ∃ job ∈ s.jobs.rows, job.id = a.jobID
  failed : ∀ job ∈ s.jobs.rows, job.failedTargets =
    (log.countP fun a => decide (a.jobID = job.id) && a.bad : Nat)
  success : ∀ job ∈ s.jobs.rows, job.successTargets =
    (log.countP fun a => decide (a.jobID = job.id) && !a.bad : Nat)

/-- Two versions of a job with the same verdict counters. -/
def SameVerdicts (job job' : ScanJob) : Prop :=
  job'.id = job.id ∧ job'.failedTargets = job.failedTargets ∧
    job'.successTargets = job.successTargets

/-- A call that accepts nothing and leaves counters and entries as they are. -/
theorem Shows.keep {s s' : ScanStore} {log : List Accepted} (h : Shows s log)
    (hblacklist : ∀ k, (s'.blacklist.find? k).map BlacklistEntry.record =
      (s.blacklist.find? k).map BlacklistEntry.record)
    (hkept : ∀ job ∈ s.jobs.rows, ∃ job' ∈ s'.jobs.rows, SameVerdicts job job')
    (hback : ∀ job' ∈ s'.jobs.rows, ∃ job ∈ s.jobs.rows, SameVerdicts job job') :
    Shows s' log := by
  refine ⟨fun agent targetIP => (hblacklist _).trans (h.entry agent targetIP), fun a ha => ?_,
    fun job' hjob' => ?_, fun job' hjob' => ?_⟩
  · obtain ⟨job, hjob, hid⟩ := h.owner a ha
    obtain ⟨job', hjob', hid', _⟩ := hkept job hjob
    exact ⟨job', hjob', hid'.trans hid⟩
  · obtain ⟨job, hjob, hid, hfailed, _⟩ := hback job' hjob'
    rw [hfailed, hid]
    exact h.failed job hjob
  · obtain ⟨job, hjob, hid, _, hsuccess⟩ := hback job' hjob'
    rw [hsuccess, hid]
    exact h.success job hjob

/-- The job update of a claim or a stop, for `Shows.keep`. -/
theorem sameVerdicts_updateWhere {t : Table UUID ScanJob ScanJob.id} {p : ScanJob → Bool}
    {f : ScanJob → ScanJob} (hf : ∀ job, (f job).id = job.id)
    (hsame : ∀ job, SameVerdicts job (f job)) :
    (∀ job ∈ t.rows, ∃ job' ∈ (t.updateWhere p f hf).rows, SameVerdicts job job') ∧
      ∀ job' ∈ (t.updateWhere p f hf).rows, ∃ job ∈ t.rows, SameVerdicts job job' := by
  have hone : ∀ job, SameVerdicts job (if p job then f job else job) := by
    intro job
    split
    · exact hsame job
    · exact ⟨rfl, rfl, rfl⟩
  refine ⟨fun job hjob => ⟨_, Table.mem_updateWhere_of_mem hjob, hone job⟩, fun job' hjob' => ?_⟩
  obtain ⟨job, hjob, rfl⟩ := Table.mem_updateWhere.mp hjob'
  exact ⟨job, hjob, hone job⟩

/-! ## Creations -/

theorem Shows.creation {pg : Postgres} {s s' : ScanStore} {log : List Accepted} (h : Shows s log)
    (hstep : Creation pg s s') : Shows s' log := by
  rcases hstep with ⟨n, _, rfl⟩ | ⟨job, hc⟩
  · exact ⟨h.entry, h.owner, h.failed, h.success⟩
  -- no accepted result can name a job that was not there
  have hnone : ∀ q : Accepted → Bool,
      log.countP (fun a => decide (a.jobID = job.id) && q a) = 0 := by
    intro q
    refine List.countP_eq_zero.mpr fun a ha hsel => ?_
    obtain ⟨owner, howner, hid⟩ := h.owner a ha
    have hne := Table.find?_eq_none.mp hc.fresh owner howner
    exact hne (hid.trans (of_decide_eq_true (Bool.and_eq_true _ _ ▸ hsel).1))
  obtain ⟨_, hsuccess, hfailed⟩ := hc.zero
  refine ⟨fun agent targetIP => (hc.blacklist _).trans (h.entry agent targetIP), fun a ha => ?_,
    fun job' hjob' => ?_, fun job' hjob' => ?_⟩
  · obtain ⟨owner, howner, hid⟩ := h.owner a ha
    rw [hc.jobs]
    exact ⟨owner, Table.mem_put.mpr (Or.inr ⟨howner, Table.find?_eq_none.mp hc.fresh owner howner⟩),
      hid⟩
  · rw [hc.jobs] at hjob'
    rcases Table.mem_put.mp hjob' with rfl | ⟨hold, _⟩
    · rw [hfailed, hnone]
      rfl
    · exact h.failed job' hold
  · rw [hc.jobs] at hjob'
    rcases Table.mem_put.mp hjob' with rfl | ⟨hold, _⟩
    · rw [hsuccess, hnone]
      rfl
    · exact h.success job' hold

theorem Shows.creations {pg : Postgres} {s s' : ScanStore} {log : List Accepted} (h : Shows s log)
    (hsteps : Relation.ReflTransGen (Creation pg) s s') : Shows s' log := by
  induction hsteps with
  | refl => exact h
  | tail _ hstep ih => exact ih.creation hstep

/-! ## Submissions

Both sides advance by one result at a time. The `blacklist` part follows the upsert or the
deletion of one key, the `counts` part the failures of the job, which grow by the result's
verdict because its task had no row before. -/

section Submit

variable {pg : Postgres} {now : Timestamp} {agentID : String} {job : ScanJob} {s s' : ScanStore}

/-- One result, in the entry of its own address and in every other. -/
theorem reblacklisted_find? (s : ScanStore) (now : Timestamp) (job : ScanJob) (agent : UUID)
    (result : ProbeResult) (targetIP : Inet) (k : UUID × Inet) :
    ((s.reblacklisted now job agent targetIP (blacklistReason job result)).find? k).map
        BlacklistEntry.record =
      if (agent, targetIP) = k then
        if result.bad job then
          some (blacklistReason job result, match s.blacklist.find? k with
            | none => 1
            | some entry => entry.failureCount + 1)
        else none
      else (s.blacklist.find? k).map BlacklistEntry.record := by
  unfold ScanStore.reblacklisted
  by_cases hbad : result.bad job = true
  · rw [if_pos ((reason_ne_empty job result).mpr hbad), if_pos hbad]
    cases hfound : s.blacklist.find? (agent, targetIP) with
    | none =>
      simp only [Table.find?_put]
      have hkey : (newEntry job now agent targetIP (blacklistReason job result)).key =
          (agent, targetIP) := rfl
      rw [hkey]
      split
      · rename_i hk
        rw [← hk, hfound]
        rfl
      · rfl
    | some entry =>
      simp only [Table.find?_put]
      have hkey : (entry.again job now (blacklistReason job result)).key = (agent, targetIP) :=
        show entry.key = _ from Table.key_of_find? hfound
      rw [hkey]
      split
      · rename_i hk
        rw [← hk, hfound]
        rfl
      · rfl
  · rw [if_neg (mt (reason_ne_empty job result).mp hbad), if_neg hbad, Table.find?_erase]
    split <;> rfl

/-- The streak of one address, one accepted result later. -/
theorem streak_accepted (agent : UUID) (targetIP : Inet) (log : List Accepted) (a : Accepted) :
    streak Accepted.bad Accepted.reason (historyOf agent targetIP (log ++ [a])) =
      if (a.agentID, a.targetIP) = (agent, targetIP) then
        streakStep Accepted.bad Accepted.reason
          (streak Accepted.bad Accepted.reason (historyOf agent targetIP log)) a
      else streak Accepted.bad Accepted.reason (historyOf agent targetIP log) := by
  unfold historyOf
  rw [List.filter_append]
  by_cases hk : a.agentID = agent ∧ a.targetIP = targetIP
  · obtain ⟨hagent, hip⟩ := hk
    have hsel : (decide (a.agentID = agent) && decide (a.targetIP = targetIP)) = true := by
      simp [hagent, hip]
    rw [if_pos (by rw [hagent, hip]), List.filter_singleton, hsel, cond_true, streak_concat]
  · have hsel : (decide (a.agentID = agent) && decide (a.targetIP = targetIP)) = false := by
      simpa using hk
    rw [if_neg (by simpa using hk), List.filter_singleton, hsel, cond_false, List.append_nil]

theorem Submitted.blacklist {results : List ProbeResult} {log : List Accepted} {agent : UUID}
    (hagent : ∀ agent', pg.uuid agentID = some agent' → agent' = agent) (hrows : Rows pg s)
    (hsubmitted : Submitted pg now agentID job s results s')
    (h : ∀ agent targetIP, (s.blacklist.find? (agent, targetIP)).map BlacklistEntry.record =
      (streak Accepted.bad Accepted.reason (historyOf agent targetIP log)).map
        fun p => (p.1, (p.2 : Int))) :
    ∀ agent' targetIP, (s'.blacklist.find? (agent', targetIP)).map BlacklistEntry.record =
      (streak Accepted.bad Accepted.reason (historyOf agent' targetIP
        (log ++ results.map (ProbeResult.accepted job agent)))).map
          fun p => (p.1, (p.2 : Int)) := by
  induction hsubmitted generalizing log with
  | nil => simpa using h
  | @cons s s' result results agent' task row hrecord hrest ih =>
    obtain rfl : agent' = agent := hagent agent' hrecord.uuid
    have hip : row.targetIP = ⟨result.targetIP, none⟩ := by
      rw [(hrecord.row_of hrows).targetIP, hrecord.target]
    rw [List.map_cons, ← List.singleton_append, ← List.append_assoc]
    refine ih (hrows.recorded hrecord) fun agent targetIP => ?_
    have hrecorded : (s.recorded now job agent' result row).blacklist =
        s.reblacklisted now job agent' row.targetIP (blacklistReason job result) := rfl
    rw [hrecorded, hip, reblacklisted_find?, streak_accepted]
    by_cases hk : (agent', (⟨result.targetIP, none⟩ : Inet)) = (agent, targetIP)
    · have hk' : ((result.accepted job agent').agentID, (result.accepted job agent').targetIP) =
          (agent, targetIP) := hk
      have hold := h agent targetIP
      rw [if_pos hk, if_pos hk']
      -- this result is of the entry: a bad one adds to the streak, any other ends it
      by_cases hbad : result.bad job = true
      · have hbad' : (result.accepted job agent').bad = true := hbad
        rw [if_pos hbad, streakStep, if_pos hbad']
        cases hfound : s.blacklist.find? (agent, targetIP) with
        | none =>
          rw [hfound] at hold
          have hnone := Option.map_eq_none_iff.mp hold.symm
          rw [hnone]
          rfl
        | some entry =>
          rw [hfound] at hold
          obtain ⟨p, hp, heq⟩ := Option.map_eq_some_iff.mp hold.symm
          rw [hp]
          have hcount : entry.failureCount = (p.2 : Int) := (congrArg Prod.snd heq).symm
          simp [hcount, ProbeResult.accepted]
      · have hbad' : ¬ (result.accepted job agent').bad = true := hbad
        rw [if_neg hbad, streakStep, if_neg hbad']
        rfl
    · have hk' : ((result.accepted job agent').agentID, (result.accepted job agent').targetIP) ≠
          (agent, targetIP) := hk
      rw [if_neg hk, if_neg hk']
      exact h agent targetIP

/-- A count over rows with distinct keys, when one row comes to count and no other changes. -/
theorem countP_one_more {l : List ScanTask} (hnodup : (l.map ScanTask.id).Nodup) {task : ScanTask}
    (htask : task ∈ l) {q q' : ScanTask → Bool} (hbefore : q task = false)
    (hothers : ∀ t ∈ l, t.id ≠ task.id → q' t = q t) :
    l.countP q' = l.countP q + if q' task then 1 else 0 := by
  induction l with
  | nil => cases htask
  | cons t l ih =>
    rw [List.map_cons, List.nodup_cons] at hnodup
    rw [List.countP_cons, List.countP_cons]
    rcases List.mem_cons.mp htask with rfl | hrest
    · have hsame : l.countP q' = l.countP q := by
        refine List.countP_congr fun t ht => ?_
        rw [hothers t (.tail _ ht) fun hid => hnodup.1 (hid ▸ List.mem_map_of_mem ht)]
      rw [hsame, hbefore]
      simp
    · have hne : t.id ≠ task.id := fun hid => hnodup.1 (hid ▸ List.mem_map_of_mem hrest)
      rw [ih hnodup.2 hrest fun t' ht' => hothers t' (.tail _ ht'), hothers t (.head _) hne]
      omega

/-- One result, in the counts of its job. -/
theorem recorded_counts (hrows : Rows pg s) {result : ProbeResult} {agent : UUID} {task : ScanTask}
    {row : ScanResult} (hrecord : RecordOf pg s now agentID job result agent task row)
    (condition : ScanResult → Bool) :
    ((s.recorded now job agent result row).jobTasks job.id).countP
        ((s.recorded now job agent result row).counts condition) =
      (s.jobTasks job.id).countP (s.counts condition) + if condition row then 1 else 0 := by
  obtain ⟨hid, hjobID, _, hleased⟩ := submittable_eq hrecord.submittable
  have hof := hrecord.row_of hrows
  have hresults : (s.recorded now job agent result row).results = s.results.put row :=
    congrArg s.results.put (hrecord.resultVersion hrows).1
  have htasks : (s.recorded now job agent result row).jobTasks job.id = (s.jobTasks job.id).map
      (rewritten (ScanTask.submittable job.id agent result.taskID) (ScanTask.complete now)) :=
    jobTasks_rewritten (ScanTask.id_complete now) s.jobs (same_complete now) job.id
  have hnodup : ((s.jobTasks job.id).map ScanTask.id).Nodup :=
    (List.Sublist.map ScanTask.id List.filter_sublist).nodup s.tasks.nodup
  have hmem : task ∈ s.jobTasks job.id := mem_jobTasks.mpr ⟨hrecord.mem, hjobID⟩
  have hbefore : s.counts condition task = false := by simp [ScanStore.counts, hleased]
  have hafter : ((s.recorded now job agent result row).counts condition ∘ rewritten
      (ScanTask.submittable job.id agent result.taskID) (ScanTask.complete now)) task =
      condition row := by
    simp only [Function.comp_apply, rewritten, if_pos hrecord.submittable, ScanStore.counts,
      hresults, ScanTask.id_complete, Table.find?_put, hof.taskID, if_true]
    rfl
  rw [htasks, List.countP_map, countP_one_more hnodup hmem hbefore, hafter]
  intro t ht hne
  have hsel : ¬ t.submittable job.id agent result.taskID = true := fun hsel =>
    hne ((submittable_eq hsel).1.trans hid.symm)
  simp only [Function.comp_apply, rewritten, if_neg hsel, ScanStore.counts, hresults,
    Table.find?_put, hof.taskID, if_neg (Ne.symm hne)]

theorem Submitted.counts (hrows : Rows pg s) {results : List ProbeResult}
    (hsubmitted : Submitted pg now agentID job s results s') :
    (s'.jobTasks job.id).countP (s'.counts (ScanResult.fails job)) =
        (s.jobTasks job.id).countP (s.counts (ScanResult.fails job)) +
          results.countP (ProbeResult.bad job) ∧
      (s'.jobTasks job.id).countP (s'.counts (ScanResult.passes job)) =
        (s.jobTasks job.id).countP (s.counts (ScanResult.passes job)) +
          results.countP fun result => !result.bad job := by
  induction hsubmitted with
  | nil => exact ⟨rfl, rfl⟩
  | @cons s s' result results agent task row hrecord _ ih =>
    obtain ⟨hfails, hpasses⟩ := ih (hrows.recorded hrecord)
    have hbad := fails_eq_bad hrecord.built
    rw [recorded_counts hrows hrecord] at hfails hpasses
    rw [passes_iff_not_fails, hbad] at hpasses
    rw [hbad] at hfails
    rw [List.countP_cons, List.countP_cons, hfails, hpasses]
    constructor <;> omega

/-- A batch, in the ledger and in the counters of its job. -/
theorem Shows.submitted {results : List ProbeResult} {log : List Accepted} {agent : UUID}
    (hagent : ∀ agent', pg.uuid agentID = some agent' → agent' = agent) (hrows : Rows pg s)
    (hok : ∀ job ∈ s.jobs.rows, JobOk s job) (hjob : job ∈ s.jobs.rows) (h : Shows s log)
    (hsubmitted : Submitted pg now agentID job s results s') :
    Shows (s'.progressed now job.id) (log ++ results.map (ProbeResult.accepted job agent)) := by
  obtain ⟨hfails, hpasses⟩ := hsubmitted.counts hrows
  -- the new part of the ledger, counted for one job
  have hnew : ∀ (jobID : UUID) (q : Accepted → Bool),
      (results.map (ProbeResult.accepted job agent)).countP
          (fun a => decide (a.jobID = jobID) && q a) =
        if job.id = jobID then results.countP (fun result => q (result.accepted job agent))
        else 0 := by
    intro jobID q
    rw [List.countP_map]
    split
    · rename_i hid
      exact List.countP_congr fun result _ => by simp [ProbeResult.accepted, hid]
    · rename_i hid
      exact List.countP_eq_zero.mpr fun result _ => by simp [ProbeResult.accepted, hid]
  obtain ⟨stats, hsuccessful, hfailed, hprogressed⟩ :=
    hsubmitted.progressed_jobs hrows (hok job hjob) hjob
  constructor
  · intro agent' targetIP
    have hblacklist : (s'.progressed now job.id).blacklist = s'.blacklist := by
      unfold ScanStore.progressed
      split <;> rfl
    rw [hblacklist]
    exact hsubmitted.blacklist hagent hrows h.entry agent' targetIP
  · intro a ha
    have hkept : ∃ owner ∈ s.jobs.rows, owner.id = a.jobID := by
      rcases List.mem_append.mp ha with hold | hrecent
      · exact h.owner a hold
      · obtain ⟨result, _, rfl⟩ := List.mem_map.mp hrecent
        exact ⟨job, hjob, rfl⟩
    obtain ⟨owner, howner, hid⟩ := hkept
    rw [hprogressed]
    refine ⟨_, Table.mem_updateWhere_of_mem howner, ?_⟩
    split <;> exact hid
  · intro job' hjob'
    rw [hprogressed] at hjob'
    rcases mem_jobs_updated (ScanJob.id_progress now stats) hjob' with
      ⟨hold, hother⟩ | ⟨old, hold, hid, rfl⟩
    · rw [List.countP_append, hnew, if_neg (Ne.symm hother), h.failed job' hold]
      rfl
    · obtain rfl : old = job := Table.eq_of_key hold hjob hid
      have hbooks := (hok old hold).totals.failed
      have hledger := h.failed old hold
      rw [List.countP_append, ScanJob.id_progress, hnew, if_pos rfl]
      show (stats.failed : Int) = _
      rw [hfailed, hfails]
      have hsame : (ProbeResult.bad old) = fun result => (result.accepted old agent).bad := rfl
      rw [hsame]
      omega
  · intro job' hjob'
    rw [hprogressed] at hjob'
    rcases mem_jobs_updated (ScanJob.id_progress now stats) hjob' with
      ⟨hold, hother⟩ | ⟨old, hold, hid, rfl⟩
    · rw [List.countP_append, hnew, if_neg (Ne.symm hother), h.success job' hold]
      rfl
    · obtain rfl : old = job := Table.eq_of_key hold hjob hid
      have hbooks := (hok old hold).totals.success
      have hledger := h.success old hold
      rw [List.countP_append, ScanJob.id_progress, hnew, if_pos rfl]
      show (stats.success : Int) = _
      rw [hsuccessful, hpasses]
      have hsame : (fun result => !ProbeResult.bad old result) =
          fun result => !(result.accepted old agent).bad := rfl
      rw [hsame]
      omega

end Submit

/-! ## Runs -/

theorem Shows.serve {pg : Postgres} {now : Timestamp} {s : ScanStore} {log : List Accepted}
    (hrows : Rows pg s) (hok : ∀ job ∈ s.jobs.rows, JobOk s job) (h : Shows s log) (op : Op) :
    Shows (serve pg now s op).2 (log ++ acceptedBy pg ⟨now, s⟩ (.call op)) := by
  cases op with
  | createScanJob agents jobID input agentTargets =>
    simp only [acceptedBy, List.append_nil]
    exact h.creation (createScanJob_cases pg agents s now jobID input agentTargets)
  | createBlacklistRechecks world agents settings =>
    simp only [acceptedBy, List.append_nil]
    exact h.creations (createBlacklistRechecks_steps hrows.ready hrows.single world agents now
      settings)
  | claimTasks tie agentID limit =>
    simp only [acceptedBy, List.append_nil]
    rcases claimTasks_exec pg tie now agentID limit s with ⟨hsame, _⟩ | ⟨agent, job, _, _, _, hexec⟩
    · simpa only [Scan.serve, hsame] using h
    · simp only [Scan.serve, hexec]
      obtain ⟨hkept, hback⟩ := sameVerdicts_updateWhere (t := s.jobs)
        (p := fun row => decide (row.id = job.id)) (ScanJob.id_start now)
        fun _ => ⟨rfl, rfl, rfl⟩
      exact h.keep (fun _ => rfl) hkept hback
  | submitResults batch =>
    rcases submitResults_exec pg now batch s with
      ⟨error, hexec⟩ | ⟨job, hjob, hid, hstopped, hexec⟩ |
        ⟨job, hjob, s', hid, hopen, hsubmitted, hexec⟩
    · simpa only [Scan.serve, acceptedBy, hexec, List.append_nil] using h
    · have hnone : acceptedBy pg ⟨now, s⟩ (.call (.submitResults batch)) = [] := by
        simp only [acceptedBy, hexec, hid, Option.bind_some, Table.find?_key hjob]
        cases pg.uuid batch.agentID with
        | none => rfl
        | some agent => simp only [if_pos hstopped]
      simpa only [Scan.serve, hnone, hexec, List.append_nil] using h
    · simp only [Scan.serve, acceptedBy, hexec, hid, Option.bind_some, Table.find?_key hjob]
      cases hagent : pg.uuid batch.agentID with
      | some agent =>
        simp only [if_neg hopen]
        exact h.submitted (fun agent' h' => Option.some.inj (h'.symm.trans hagent)) hrows hok hjob
          hsubmitted
      | none =>
        -- without an agent only the empty batch gets here
        have hempty : batch.results = [] := by
          generalize batch.results = results at hsubmitted
          cases hsubmitted with
          | nil => rfl
          | cons hrecord _ =>
            exact absurd (hagent.symm.trans hrecord.uuid) (Option.some_ne_none _).symm
        have hnone : ∀ agent', pg.uuid batch.agentID = some agent' → agent' = job.id := by
          intro agent' h'
          rw [hagent] at h'
          cases h'
        have := h.submitted hnone hrows hok hjob hsubmitted
        rwa [hempty] at this
  | stopScanJob id =>
    simp only [acceptedBy, List.append_nil]
    rcases stopScanJob_exec pg now id s with ⟨hsame, _⟩ | ⟨job, _, _, _, hexec⟩
    · simpa only [Scan.serve, hsame] using h
    · simp only [Scan.serve, hexec]
      obtain ⟨hkept, hback⟩ := sameVerdicts_updateWhere (t := s.jobs)
        (p := fun row => decide (row.id = job.id)) (ScanJob.id_stop now)
        fun _ => ⟨rfl, rfl, rfl⟩
      exact h.keep (fun _ => rfl) hkept hback

/-- The ledger and the tables, after any run. -/
theorem Shows.replay (pg : Postgres) (start : Timestamp) (events : List Event) :
    Shows (replay pg start events).store (ledger pg start events) := by
  induction events using List.reverseRecOn with
  | nil =>
    refine ⟨fun _ _ => rfl, ?_, ?_, ?_⟩ <;> intro _ h <;> cases h
  | append_singleton events ev ih =>
    rw [ledger_append, replay_append]
    cases ev with
    | pass duration =>
      simp only [acceptedBy, List.append_nil]
      exact ih
    | call op =>
      exact ih.serve (Rows.replay pg start events) (JobOk.replay pg start events) op

/-- The blacklist and the verdict counters, read off the accepted results `log`. -/
structure BlacklistLaw (s : ScanStore) (log : List Accepted) : Prop where
  listed : ∀ agent targetIP, (s.blacklist.find? (agent, targetIP)).isSome ↔
    ∃ last, (historyOf agent targetIP log).getLast? = some last ∧ last.bad = true
  entry : ∀ agent targetIP entry, s.blacklist.find? (agent, targetIP) = some entry →
    entry.failureCount = (trailing Accepted.bad (historyOf agent targetIP log) : Nat) ∧
      ∃ last, (historyOf agent targetIP log).getLast? = some last ∧ entry.reason = last.reason
  failed : ∀ job ∈ s.jobs.rows, job.failedTargets =
    (log.countP fun a => decide (a.jobID = job.id) && a.bad : Nat)
  success : ∀ job ∈ s.jobs.rows, job.successTargets =
    (log.countP fun a => decide (a.jobID = job.id) && !a.bad : Nat)

/-- **The blacklist is the fold of the accepted results**, after any run from an empty store. -/
theorem blacklist_fold (pg : Postgres) (start : Timestamp) (events : List Event) :
    BlacklistLaw (replay pg start events).store (ledger pg start events) := by
  have h := Shows.replay pg start events
  -- an entry is what the streak of its history is
  have hstreak : ∀ agent targetIP entry,
      (replay pg start events).store.blacklist.find? (agent, targetIP) = some entry →
      ∃ n : Nat, entry.failureCount = n ∧ streak Accepted.bad Accepted.reason
        (historyOf agent targetIP (ledger pg start events)) = some (entry.reason, n) := by
    intro agent targetIP entry hentry
    have hshown := h.entry agent targetIP
    rw [hentry] at hshown
    obtain ⟨⟨reason, n⟩, hn, heq⟩ := Option.map_eq_some_iff.mp hshown.symm
    obtain ⟨rfl, hcount⟩ := Prod.mk.inj heq
    exact ⟨n, hcount.symm, hn⟩
  refine ⟨fun agent targetIP => ⟨fun hsome => ?_, ?_⟩, fun agent targetIP entry hentry => ?_,
    h.failed, h.success⟩
  · obtain ⟨entry, hentry⟩ := Option.isSome_iff_exists.mp hsome
    obtain ⟨n, _, hn⟩ := hstreak agent targetIP entry hentry
    obtain ⟨last, hlast, hbad, _⟩ := (streak_eq_some _ _).mp hn
    exact ⟨last, hlast, hbad⟩
  · rintro ⟨last, hlast, hbad⟩
    have hshown := h.entry agent targetIP
    rw [(streak_eq_some _ _).mpr ⟨last, hlast, hbad, rfl, rfl⟩] at hshown
    obtain ⟨entry, hentry, _⟩ := Option.map_eq_some_iff.mp hshown
    rw [hentry]
    rfl
  · obtain ⟨n, hcount, hn⟩ := hstreak agent targetIP entry hentry
    obtain ⟨last, hlast, _, hreason, hlen⟩ := (streak_eq_some _ _).mp hn
    exact ⟨by rw [hcount, hlen], last, hlast, hreason⟩

end Cfscan.Scan
