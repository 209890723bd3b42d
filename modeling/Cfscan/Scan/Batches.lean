import Cfscan.Scan.Contents
import Cfscan.Scan.Slots

/-!
# Which batches are accepted, and in which order

A batch is accepted when it names leased tasks, each once, and the columns take what it reports:
`submitEach_iff`. Each result is for an address of its own, so that neither the order of the results
nor the number of calls they come in shows in what they leave: `submit_valid_iff`.

Two things are behind this that the statements do not check. **The targets are single addresses**
(`Event.Plain`): with a netmask two tasks of a job can be for one host, and then the last of their
results decides what is on the blacklist (`submit_valid_refused`). The callers of `CreateScanJob`
print their targets from addresses. And nothing is said of whether a batch is accepted that has a
message cut inside a character (`Uncut`).

"The same rows" is said of `Contents`, the database without its times: results of two calls carry
two times, and so do the tasks they complete and the blacklist entries they touch. A batch that is
refused leaves everything as it was, the times included.
-/

set_option autoImplicit false

namespace Cfscan.Scan

open Cfscan.Lib Cfscan.Store

/-! ## One result

When one result of a batch is taken: its task is out for this agent under the address the
result names, the row fits its columns, and the blacklist entry it would raise can count one
failure more. `acceptable_recorded` is the step everything below rests on: recording one
result changes whether another is taken in one way only, that the task it was for is done. -/

/-- The columns take what the agent reports. -/
def ProbeResult.Fits (result : ProbeResult) : Prop :=
  ∃ errorMessage, truncate result.errorMessage 1000 = some errorMessage ∧
    [result.httpVersion, result.tlsVersion, result.colo, result.cfRay, result.errorCode,
      errorMessage].all storable = true ∧
    [result.httpStatus, result.successfulTries, result.attempts].all int4 = true

/-- The result names a leased task of the job and the agent, and its address. -/
def Leased (s : ScanStore) (jobID agent : UUID) (result : ProbeResult) : Prop :=
  ∃ task ∈ s.tasks.rows, task.submittable jobID agent result.taskID = true ∧
    result.targetIP = task.targetIP.host

/-- The failures of the address can be counted once more, when the result is one. -/
def HasRoom (s : ScanStore) (job : ScanJob) (agent : UUID) (result : ProbeResult) : Prop :=
  blacklistReason job result ≠ "" → ∀ entry,
    s.blacklist.find? (agent, ⟨result.targetIP, none⟩) = some entry →
      int4 (entry.failureCount + 1) = true

structure Acceptable (s : ScanStore) (job : ScanJob) (agent : UUID) (result : ProbeResult) :
    Prop where
  leased : Leased s job.id agent result
  fits : result.Fits
  room : HasRoom s job agent result

section One

variable {pg : Postgres} {s : ScanStore} {now : Timestamp} {agentID : String} {job : ScanJob}
  {result : ProbeResult} {agent : UUID} {task : ScanTask} {row : ScanResult}

theorem row_iff_fits (now : Timestamp) (job : ScanJob) (agent : UUID) (hread : task.Readable pg) :
    (∃ row, result.row pg now job agent task = some row) ↔ result.Fits := by
  obtain ⟨hip, hprefix⟩ := hread
  unfold ProbeResult.row ProbeResult.Fits
  rw [hip, hprefix]
  simp only [Option.bind_eq_bind, Option.bind_some, Option.bind_eq_some_iff]
  constructor
  · rintro ⟨row, errorMessage, htext, u, hstorable, v, hint, -⟩
    exact ⟨errorMessage, htext, (Option.guard_eq_some' u).mp hstorable,
      (Option.guard_eq_some' v).mp hint⟩
  · rintro ⟨errorMessage, htext, hstorable, hint⟩
    exact ⟨_, errorMessage, htext, (), (Option.guard_eq_some' ()).mpr hstorable, (),
      (Option.guard_eq_some' ()).mpr hint, rfl⟩

theorem reblacklist_fst (job : ScanJob) (now : Timestamp) (agent : UUID) (targetIP : Inet)
    (reason : String) (s : ScanStore) :
    ((if reason ≠ "" then block job now agent targetIP reason
        else unblock agent targetIP).run s).1 = none ↔
      (reason ≠ "" → ∀ entry, s.blacklist.find? (agent, targetIP) = some entry →
        int4 (entry.failureCount + 1) = true) := by
  by_cases hreason : reason ≠ ""
  · rw [if_pos hreason]
    unfold block
    simp only [Tx.bind_eq, Tx.run_bind, Tx.run_acquire, Tx.run_read]
    cases hentry : s.blacklist.find? (agent, targetIP) with
    | none => exact iff_of_true rfl fun _ entry h => by cases h
    | some entry =>
      dsimp only
      by_cases hroom : int4 (entry.failureCount + 1) = true
      · rw [if_pos hroom]
        refine iff_of_true rfl fun _ entry' h => ?_
        cases h
        exact hroom
      · rw [if_neg hroom]
        refine iff_of_false (fun h => by cases h) fun h => hroom (h hreason entry rfl)
  · rw [if_neg hreason, unblock_run now job]
    exact iff_of_true rfl fun h => absurd h hreason

/-- Past its checks a result is refused only by the blacklist. -/
theorem submitResult_fst (hrecord : RecordOf pg s now agentID job result agent task row) :
    ((submitResult pg now agentID job result).run s).1 = ((if blacklistReason job result ≠ "" then
      block job now agent row.targetIP (blacklistReason job result)
        else unblock agent row.targetIP).run (s.filed now job agent result row)).1 := by
  unfold submitResult
  rw [hrecord.uuid]
  simp only [Tx.bind_eq, Tx.run_bind, tasks.run_updateWhere (ScanTask.id_complete now), tasks_get,
    tasks_set]
  have hmem : task ∈ s.tasks.rows.filter (ScanTask.submittable job.id agent result.taskID) :=
    List.mem_filter.mpr ⟨hrecord.mem, hrecord.submittable⟩
  cases hfilter : s.tasks.rows.filter (ScanTask.submittable job.id agent result.taskID) with
  | nil =>
    rw [hfilter] at hmem
    cases hmem
  | cons first rest =>
    obtain ⟨hfirst, hsubmittable⟩ := List.mem_filter.mp (hfilter ▸ List.mem_cons_self :
      first ∈ s.tasks.rows.filter (ScanTask.submittable job.id agent result.taskID))
    obtain rfl : first = task := Table.eq_of_key hfirst hrecord.mem
      ((submittable_eq hsubmittable).1.trans (submittable_eq hrecord.submittable).1.symm)
    simp only [List.map_cons, recordResult]
    have htarget : ¬ result.targetIP ≠ (first.complete now).targetIP.host :=
      not_not_intro hrecord.target
    have hbuilt : result.row pg now job agent (first.complete now) = some row := hrecord.built
    rw [if_neg htarget, hbuilt]
    simp only [Tx.bind_eq, Tx.run_bind, upsertResult_run]
    rfl

/-- **A result is taken when it is acceptable**, and then it is recorded. -/
theorem submitResult_iff (now : Timestamp) (job : ScanJob) (result : ProbeResult) (hrows : Rows pg s)
    (huuid : pg.uuid agentID = some agent) :
    ((submitResult pg now agentID job result).run s).1 = none ↔ Acceptable s job agent result := by
  have hroom : ∀ task row, RecordOf pg s now agentID job result agent task row →
      (((submitResult pg now agentID job result).run s).1 = none ↔ HasRoom s job agent result) := by
    intro task row hrecord
    have hip : row.targetIP = ⟨result.targetIP, none⟩ := by
      rw [(hrecord.row_of hrows).targetIP, hrecord.target]
    rw [submitResult_fst hrecord, reblacklist_fst, hip]
    rfl
  constructor
  · intro hnone
    rcases submitResult_run pg now agentID job result s with
      ⟨error, s', hrun⟩ | ⟨agent', task, row, hrecord, -⟩
    · rw [hrun] at hnone
      cases hnone
    · obtain rfl := Option.some_inj.mp (huuid.symm.trans hrecord.uuid)
      exact ⟨⟨task, hrecord.mem, hrecord.submittable, hrecord.target⟩,
        (row_iff_fits now job agent (hrows.readable task hrecord.mem)).mp ⟨row, hrecord.built⟩,
        (hroom task row hrecord).mp hnone⟩
  · rintro ⟨⟨task, htask, hsubmittable, htarget⟩, hfits, hspace⟩
    obtain ⟨row, hbuilt⟩ := (row_iff_fits now job agent
      (hrows.readable task htask)).mpr hfits
    exact (hroom task row ⟨huuid, htask, hsubmittable, htarget, hbuilt⟩).mpr hspace

/-- What another result finds after one is recorded. -/
theorem acceptable_recorded (hrows : Rows pg s) (hslots : Slots s.tasks)
    (hrecord : RecordOf pg s now agentID job result agent task row) (other : ProbeResult) :
    Acceptable (s.recorded now job agent result row) job agent other ↔
      result.taskID ≠ other.taskID ∧ Acceptable s job agent other := by
  obtain ⟨hid, hjob, hagent, -⟩ := submittable_eq hrecord.submittable
  have hmem : ∀ t', t' ∈ (s.recorded now job agent result row).tasks.rows ↔ ∃ t ∈ s.tasks.rows,
      rewritten (ScanTask.submittable job.id agent result.taskID) (ScanTask.complete now) t = t' :=
    fun _ => mem_rewritten (ScanTask.id_complete now)
  have hleased : Leased (s.recorded now job agent result row) job.id agent other ↔
      result.taskID ≠ other.taskID ∧ Leased s job.id agent other := by
    constructor
    · rintro ⟨t', ht', hsub, htarget⟩
      obtain ⟨t, ht, rfl⟩ := (hmem t').mp ht'
      by_cases hsel : t.submittable job.id agent result.taskID = true
      · rw [rewritten, if_pos hsel] at hsub
        cases (submittable_eq hsub).2.2.2
      · rw [rewritten, if_neg hsel] at hsub htarget
        refine ⟨fun heq => hsel ?_, t, ht, hsub, htarget⟩
        rw [heq]
        exact hsub
    · rintro ⟨hne, t, ht, hsub, htarget⟩
      refine ⟨t, (hmem t).mpr ⟨t, ht, ?_⟩, hsub, htarget⟩
      rw [rewritten, if_neg]
      exact fun hsel => hne ((submittable_eq hsel).1.symm.trans (submittable_eq hsub).1)
  have hroom : result.taskID ≠ other.taskID → Leased s job.id agent other →
      (HasRoom (s.recorded now job agent result row) job agent other ↔
        HasRoom s job agent other) := by
    rintro hne ⟨t, ht, hsub, htarget⟩
    obtain ⟨htid, htjob, htagent, -⟩ := submittable_eq hsub
    -- the other task is for another address, and so its entry is another one
    have hhost : row.targetIP.host ≠ other.targetIP := by
      rw [(hrecord.row_of hrows).targetIP, htarget]
      intro heq
      have hsame := hslots.eq_of_host hrecord.mem ht (hjob.trans htjob.symm)
        (hagent.trans htagent.symm) heq
      exact hne (hid.symm.trans ((congrArg ScanTask.id hsame).trans htid))
    have hkey : ((agent, row.targetIP) : UUID × Inet) ≠ (agent, ⟨other.targetIP, none⟩) :=
      fun heq => hhost (congrArg (fun key => key.2.host) heq)
    have hentry : (s.recorded now job agent result row).blacklist.find?
        (agent, ⟨other.targetIP, none⟩) = s.blacklist.find? (agent, ⟨other.targetIP, none⟩) :=
      find?_reblacklisted_of_ne s now job agent row.targetIP _ hkey
    unfold HasRoom
    rw [hentry]
  constructor
  · rintro ⟨hl, hfits, hr⟩
    obtain ⟨hne, hl'⟩ := hleased.mp hl
    exact ⟨hne, hl', hfits, (hroom hne hl').mp hr⟩
  · rintro ⟨hne, hl, hfits, hr⟩
    exact ⟨hleased.mpr ⟨hne, hl⟩, hfits, (hroom hne hl).mpr hr⟩

end One

/-! ## A batch

The batch is gone through from the front and the first failure rolls all of it back, so the
condition on the whole batch is on the store as the batch found it: every result is
acceptable there, and no two name one task. -/

section Batch

variable {pg : Postgres} {s s' : ScanStore} {now : Timestamp} {agentID : String} {job : ScanJob}
  {results : List ProbeResult} {agent : UUID} {batch : ResultBatch}

/-- Results for different tasks that are acceptable. -/
structure AcceptableAll (s : ScanStore) (job : ScanJob) (agent : UUID)
    (results : List ProbeResult) : Prop where
  distinct : (results.map ProbeResult.taskID).Nodup
  acceptable : ∀ result ∈ results, Acceptable s job agent result

theorem acceptableAll_cons {result : ProbeResult} : AcceptableAll s job agent (result :: results) ↔
    Acceptable s job agent result ∧ (results.map ProbeResult.taskID).Nodup ∧
      ∀ other ∈ results, result.taskID ≠ other.taskID ∧ Acceptable s job agent other := by
  constructor
  · rintro ⟨hdistinct, hall⟩
    rw [List.map_cons, List.nodup_cons] at hdistinct
    rw [List.forall_mem_cons] at hall
    refine ⟨hall.1, hdistinct.2, fun other hother => ⟨fun heq => hdistinct.1 ?_, hall.2 other hother⟩⟩
    exact heq ▸ List.mem_map_of_mem hother
  · rintro ⟨hfirst, hdistinct, hrest⟩
    refine ⟨?_, List.forall_mem_cons.mpr ⟨hfirst, fun other hother => (hrest other hother).2⟩⟩
    rw [List.map_cons, List.nodup_cons]
    refine ⟨fun hmem => ?_, hdistinct⟩
    obtain ⟨other, hother, heq⟩ := List.mem_map.mp hmem
    exact (hrest other hother).1 heq.symm

theorem AcceptableAll.of_append {more : List ProbeResult}
    (h : AcceptableAll s job agent (results ++ more)) : AcceptableAll s job agent results := by
  have hdistinct := h.distinct
  rw [List.map_append] at hdistinct
  exact ⟨hdistinct.of_append_left, fun result hresult =>
    h.acceptable result (List.mem_append_left _ hresult)⟩

theorem submitEach_iff (now : Timestamp) (hrows : Rows pg s) (hslots : Slots s.tasks)
    (huuid : pg.uuid agentID = some agent) :
    ((submitEach pg now agentID job results).run s).1 = none ↔
      AcceptableAll s job agent results := by
  induction results generalizing s with
  | nil => exact iff_of_true rfl ⟨List.nodup_nil, fun result h => by cases h⟩
  | cons result results ih =>
    have hfirst := submitResult_iff now job result hrows huuid
    rw [acceptableAll_cons, ← hfirst]
    unfold submitEach
    simp only [Tx.bind_eq, Tx.run_bind]
    rcases submitResult_run pg now agentID job result s with
      ⟨error, s', hrun⟩ | ⟨agent', task, row, hrecord, hrun⟩
    · rw [hrun]
      exact iff_of_false (fun h => by cases h) fun h => by cases h.1
    · obtain rfl := Option.some_inj.mp (huuid.symm.trans hrecord.uuid)
      have hslots' : Slots (s.recorded now job agent result row).tasks :=
        hslots.rewrite (ScanTask.id_complete now) (same_complete now)
      rw [hrun]
      refine (ih (hrows.recorded hrecord) hslots').trans ?_
      constructor
      · rintro ⟨hdistinct, hall⟩
        exact ⟨rfl, hdistinct, fun other hother =>
          (acceptable_recorded hrows hslots hrecord other).mp (hall other hother)⟩
      · rintro ⟨-, hdistinct, hall⟩
        exact ⟨hdistinct, fun other hother =>
          (acceptable_recorded hrows hslots hrecord other).mpr (hall other hother)⟩

/-- What is left of a batch when its first part is recorded. -/
theorem acceptableAll_submitted (hrows : Rows pg s) (hslots : Slots s.tasks)
    (huuid : pg.uuid agentID = some agent) {more : List ProbeResult}
    (hsubmitted : Submitted pg now agentID job s results s')
    (hall : AcceptableAll s job agent (results ++ more)) : AcceptableAll s' job agent more := by
  induction hsubmitted with
  | nil => exact hall
  | @cons s s' result results agent' task row hrecord hrest ih =>
    obtain rfl := Option.some_inj.mp (huuid.symm.trans hrecord.uuid)
    obtain ⟨-, hdistinct, hothers⟩ := acceptableAll_cons.mp hall
    exact ih (hrows.recorded hrecord)
      (hslots.rewrite (ScanTask.id_complete now) (same_complete now))
      ⟨hdistinct, fun other hother =>
        (acceptable_recorded hrows hslots hrecord other).mpr (hothers other hother)⟩

/-- A batch for a job that is not stopped is accepted when its results are. -/
theorem submitResults_iff (now : Timestamp) (hrows : Rows pg s) (hslots : Slots s.tasks)
    (huuid : pg.uuid batch.agentID = some agent) (hid : pg.uuid batch.jobID = some job.id)
    (hjob : job ∈ s.jobs.rows) (hopen : job.status ≠ .stopped)
    (hfits : int4 (s.jobTasks job.id).length = true) :
    ((submitResults pg now batch).exec s).1 = .ok () ↔
      AcceptableAll s job agent batch.results := by
  rw [submitResults_ok now hid hjob, or_iff_right hopen, ← submitEach_iff now hrows hslots huuid]
  refine and_iff_left_of_imp fun heach => ?_
  rcases submitEach_run pg now batch.agentID job batch.results s with
    ⟨error, s', hrun⟩ | ⟨s', hsubmitted, hrun⟩
  · rw [hrun] at heach
    cases heach
  · have hlength := (hsubmitted.elsewhere hrows).2.length
    rw [hrun, updateProgress_ok now (hlength ▸ hfits)]

/-- Acceptable results are for different addresses. -/
theorem AcceptableAll.addresses (h : AcceptableAll s job agent results) (hslots : Slots s.tasks) :
    (results.map ProbeResult.targetIP).Nodup := by
  refine h.distinct.of_map.map_on fun result hresult other hother heq => ?_
  obtain ⟨task, htask, hsub, htarget⟩ := (h.acceptable result hresult).leased
  obtain ⟨task', htask', hsub', htarget'⟩ := (h.acceptable other hother).leased
  obtain ⟨hid, hjob, hagent, -⟩ := submittable_eq hsub
  obtain ⟨hid', hjob', hagent', -⟩ := submittable_eq hsub'
  have hsame := hslots.eq_of_host htask htask' (hjob.trans hjob'.symm) (hagent.trans hagent'.symm)
    (htarget.symm.trans (heq.trans htarget'))
  refine List.inj_on_of_nodup_map h.distinct hresult hother ?_
  exact hid.symm.trans ((congrArg ScanTask.id hsame).trans hid')

theorem acceptable_progressed {result : ProbeResult} {stats : Stats} (jobID : UUID)
    (h : Acceptable s job agent result) :
    Acceptable (s.progressed now jobID) (job.progress now stats) agent result := by
  obtain ⟨htasks, -, hblacklist⟩ := progressed_tasks s now jobID
  obtain ⟨hleased, hfits, hroom⟩ := h
  refine ⟨?_, hfits, ?_⟩
  · unfold Leased
    rw [htasks]
    exact hleased
  · unfold HasRoom
    rw [hblacklist]
    exact hroom

/-- The progress update finds its counts after any batch. -/
theorem stats_submitted (hrows : Rows pg s) (hok : JobOk s job) (hjob : job ∈ s.jobs.rows)
    (hsubmitted : Submitted pg now agentID job s results s') : s'.stats job.id ≠ none := by
  unfold ScanStore.stats
  rw [(hsubmitted.elsewhere hrows).1.jobs, Table.find?_key hjob]
  simp only [hsubmitted.jobTasks_ne_nil hrows hok, if_false]
  intro h
  cases h

end Batch

/-! ## Batches in turn

`submitInTurn` delivers the parts of a cut batch one after another, each at its own later
time, and stops at the first that is refused. Each part leaves the contents its results
leave (`Leaves`), parts compose, and the contents do not depend on the order of the results,
which is why any permutation and any cutting can be treated at once. -/

/-- The same results in several calls, each after some time; `none` when one of them is refused. -/
def submitInTurn (pg : Postgres) (agentID jobID : String) :
    Service → List (Nat × List ProbeResult) → Option Service
  | w, [] => some w
  | w, (duration, results) :: parts =>
    let later := w.next pg (.pass duration)
    let op : Op := .submitResults ⟨agentID, jobID, results⟩
    if (serve pg later.clock later.store op).1 = .submitted (.ok ()) then
      submitInTurn pg agentID jobID (later.next pg (.call op)) parts
    else none

section Turns

variable {pg : Postgres} {start : Timestamp} {before : List Event} {job : ScanJob} {agent : UUID}
  {batch : ResultBatch}

/-- The jobs of a run have no more targets than their columns can count. -/
theorem jobTasks_fit (pg : Postgres) (start : Timestamp) (events : List Event) {job : ScanJob}
    (hjob : job ∈ (replay pg start events).store.jobs.rows) :
    int4 ((replay pg start events).store.jobTasks job.id).length = true := by
  have hfits := (replay_goesOn pg start [] events).1.fits fun _ h => by cases h
  rw [List.nil_append] at hfits
  rw [← (JobOk.replay pg start events job hjob).totals.total]
  exact hfits job hjob

/-- What an accepted batch leaves, in a run. -/
theorem submitResults_replay (batch : ResultBatch) (hplain : ∀ ev ∈ before, ev.Plain pg)
    (huuid : pg.uuid batch.agentID = some agent) (hid : pg.uuid batch.jobID = some job.id)
    (hjob : job ∈ (replay pg start before).store.jobs.rows) (hopen : job.status ≠ .stopped)
    (hall : AcceptableAll (replay pg start before).store job agent batch.results) :
    ∃ s', Submitted pg (replay pg start before).clock batch.agentID job
        (replay pg start before).store batch.results s' ∧
      (submitResults pg (replay pg start before).clock batch).exec (replay pg start before).store =
        (.ok (), s'.progressed (replay pg start before).clock job.id) := by
  have hok := (submitResults_iff (replay pg start before).clock
    (Rows.replay pg start before) (Slots.replay hplain) huuid hid hjob hopen
    (jobTasks_fit pg start before hjob)).mpr hall
  rcases submitResults_exec pg (replay pg start before).clock batch
    (replay pg start before).store with
    ⟨error, hexec⟩ | ⟨job', hjob', hid', hstopped, -⟩ | ⟨job', hjob', s', hid', -, hsubmitted, hexec⟩
  · rw [hexec] at hok
    cases hok
  · obtain rfl : job' = job :=
      Table.eq_of_key hjob' hjob (Option.some_inj.mp (hid'.symm.trans hid))
    exact absurd hstopped hopen
  · obtain rfl : job' = job :=
      Table.eq_of_key hjob' hjob (Option.some_inj.mp (hid'.symm.trans hid))
    exact ⟨s', hsubmitted, hexec⟩

/-- A store the progress update has made, with the contents that results leave. -/
def Leaves (pg : Postgres) (agent : UUID) (job : ScanJob) (s : ScanStore)
    (results : List ProbeResult) (s' : ScanStore) : Prop :=
  ∃ mid now, s' = ScanStore.progressed mid now job.id ∧ mid.stats job.id ≠ none ∧
    mid.contents job.id = results.foldl (Contents.record pg job.plan agent) (s.contents job.id)

theorem Leaves.contents {s s' : ScanStore} {results : List ProbeResult}
    (h : Leaves pg agent job s results s') : s'.contents job.id =
      results.foldl (Contents.record pg job.plan agent) (s.contents job.id) := by
  obtain ⟨mid, now, rfl, -, hcontents⟩ := h
  rw [contents_progressed, hcontents]

theorem Leaves.trans {s s' s'' : ScanStore} {results results' : List ProbeResult}
    (h : Leaves pg agent job s results s') (h' : Leaves pg agent job s' results' s'') :
    Leaves pg agent job s (results ++ results') s'' := by
  obtain ⟨mid, now, heq, hstats, hcontents⟩ := h'
  exact ⟨mid, now, heq, hstats, by rw [hcontents, h.contents, List.foldl_append]⟩

/-- The first part of acceptable results: it is accepted, and the others stay acceptable. -/
theorem submitResults_next (batch : ResultBatch) (hplain : ∀ ev ∈ before, ev.Plain pg)
    (huuid : pg.uuid batch.agentID = some agent) (hid : pg.uuid batch.jobID = some job.id)
    (hjob : job ∈ (replay pg start before).store.jobs.rows) (hopen : job.status ≠ .stopped)
    {more : List ProbeResult}
    (hall : AcceptableAll (replay pg start before).store job agent (batch.results ++ more)) :
    (serve pg (replay pg start before).clock (replay pg start before).store
        (.submitResults batch)).1 = .submitted (.ok ()) ∧
      Leaves pg agent job (replay pg start before).store batch.results
        (serve pg (replay pg start before).clock (replay pg start before).store
          (.submitResults batch)).2 ∧
      ∃ job' ∈ (serve pg (replay pg start before).clock (replay pg start before).store
          (.submitResults batch)).2.jobs.rows, job'.id = job.id ∧ job'.plan = job.plan ∧
        job'.status ≠ .stopped ∧ AcceptableAll (serve pg (replay pg start before).clock
          (replay pg start before).store (.submitResults batch)).2 job' agent more := by
  have hrows := Rows.replay pg start before
  have hok := JobOk.replay pg start before job hjob
  obtain ⟨mid, hsubmitted, hexec⟩ :=
    submitResults_replay batch hplain huuid hid hjob hopen hall.of_append
  obtain ⟨stats, -, -, hjobs⟩ := hsubmitted.progressed_jobs hrows hok hjob
  have hmore := acceptableAll_submitted hrows (Slots.replay hplain) huuid hsubmitted hall
  simp only [serve, hexec]
  refine ⟨trivial, ⟨mid, _, rfl, stats_submitted hrows hok hjob hsubmitted,
    contents_submitted hrows huuid hsubmitted⟩,
    job.progress (replay pg start before).clock stats, ?_, rfl, rfl, ?_, ?_⟩
  · rw [hjobs]
    exact Table.mem_updateWhere.mpr ⟨job, hjob, if_pos (decide_eq_true rfl)⟩
  · simp only [ScanJob.progress]
    split <;> decide
  · exact ⟨hmore.distinct, fun result hresult =>
      acceptable_progressed job.id (hmore.acceptable result hresult)⟩

/-- **Batches in turn**: all are accepted, and the last progress update is made on what their
results leave together. -/
theorem submitInTurn_leaves {agentID jobID : String} (huuid : pg.uuid agentID = some agent)
    (hplain : ∀ ev ∈ before, ev.Plain pg) (hid : pg.uuid jobID = some job.id)
    (hjob : job ∈ (replay pg start before).store.jobs.rows) (hopen : job.status ≠ .stopped)
    (parts : List (Nat × List ProbeResult))
    (hall : AcceptableAll (replay pg start before).store job agent
      (parts.map Prod.snd).flatten) :
    ∃ w', submitInTurn pg agentID jobID (replay pg start before) parts = some w' ∧
      (parts ≠ [] → Leaves pg agent job (replay pg start before).store (parts.map Prod.snd).flatten
        w'.store) := by
  induction parts generalizing before job with
  | nil => exact ⟨_, rfl, fun h => absurd rfl h⟩
  | cons part parts ih =>
    obtain ⟨duration, results⟩ := part
    rw [List.map_cons, List.flatten_cons] at hall
    set pass : Event := .pass duration
    set call : Event := .call (.submitResults ⟨agentID, jobID, results⟩)
    have hpass : ∀ ev ∈ before ++ [pass], ev.Plain pg :=
      List.forall_mem_append.mpr ⟨hplain, List.forall_mem_singleton.mpr trivial⟩
    have hcall : ∀ ev ∈ before ++ [pass] ++ [call], ev.Plain pg :=
      List.forall_mem_append.mpr ⟨hpass, List.forall_mem_singleton.mpr trivial⟩
    -- time that goes by ends no lease: only a claim looks for leases that are over
    have hstore : (replay pg start (before ++ [pass])).store = (replay pg start before).store := by
      rw [replay_append]
      rfl
    rw [← hstore] at hjob hall ⊢
    obtain ⟨hreply, hleaves, job', hjob', hsame, hplan, hopen', hmore⟩ :=
      submitResults_next ⟨agentID, jobID, results⟩ hpass huuid hid hjob hopen hall
    have hnext : (replay pg start (before ++ [pass] ++ [call])).store =
        (serve pg (replay pg start (before ++ [pass])).clock
          (replay pg start (before ++ [pass])).store
            (.submitResults ⟨agentID, jobID, results⟩)).2 := by
      rw [replay_append]
      rfl
    rw [← hnext] at hleaves hjob' hmore
    obtain ⟨w', hturn, hrest⟩ := ih hcall (hsame ▸ hid) hjob' hopen' hmore
    refine ⟨w', ?_, fun _ => ?_⟩
    · simp only [submitInTurn, ← replay_append]
      rw [if_pos hreply]
      exact hturn
    · rw [List.map_cons, List.flatten_cons]
      by_cases hparts : parts = []
      · subst hparts
        cases hturn
        rwa [List.map_nil, List.flatten_nil, List.append_nil]
      · have hrest := hrest hparts
        unfold Leaves at hrest
        rw [hsame, hplan] at hrest
        exact hleaves.trans hrest

/-- Different tasks, each a leased one of the job and the agent, with its address. -/
structure ValidBatch (pg : Postgres) (s : ScanStore) (job : ScanJob) (batch : ResultBatch) :
    Prop where
  distinct : (batch.results.map ProbeResult.taskID).Nodup
  leased : ∃ agent, pg.uuid batch.agentID = some agent ∧
    ∀ result ∈ batch.results, Leased s job.id agent result

/-- No error message of the batch is cut inside a character. What `truncate` leaves of one that is
has no place here: that batch is refused, and no statement below says whether it should be. -/
def Uncut (batch : ResultBatch) : Prop :=
  ∀ result ∈ batch.results, truncate result.errorMessage 1000 ≠ none

/-- The columns take the values of the batch, and the failure counts it would raise have room. -/
def Recordable (pg : Postgres) (s : ScanStore) (job : ScanJob) (batch : ResultBatch) : Prop :=
  ∀ result ∈ batch.results,
    [result.httpVersion, result.tlsVersion, result.colo, result.cfRay, result.errorCode].all
      storable = true ∧
    (∀ errorMessage, truncate result.errorMessage 1000 = some errorMessage →
      storable errorMessage = true) ∧
    [result.httpStatus, result.successfulTries, result.attempts].all int4 = true ∧
    ∀ agent, pg.uuid batch.agentID = some agent → HasRoom s job agent result

/-- What a message that is not cut inside a character leaves of the condition on the columns. -/
theorem fits_iff {result : ProbeResult} (hcut : truncate result.errorMessage 1000 ≠ none) :
    result.Fits ↔
      [result.httpVersion, result.tlsVersion, result.colo, result.cfRay, result.errorCode].all
        storable = true ∧
      (∀ errorMessage, truncate result.errorMessage 1000 = some errorMessage →
        storable errorMessage = true) ∧
      [result.httpStatus, result.successfulTries, result.attempts].all int4 = true := by
  obtain ⟨text, htext⟩ := Option.ne_none_iff_exists'.mp hcut
  unfold ProbeResult.Fits
  simp only [htext, Option.some.injEq, exists_eq_left', forall_eq', List.all_cons, List.all_nil,
    Bool.and_true, Bool.and_eq_true]
  tauto

theorem acceptableAll_iff {s : ScanStore} (huuid : pg.uuid batch.agentID = some agent)
    (hcut : Uncut batch) :
    AcceptableAll s job agent batch.results ↔ ValidBatch pg s job batch ∧ Recordable pg s job batch := by
  constructor
  · rintro ⟨hdistinct, hall⟩
    refine ⟨⟨hdistinct, agent, huuid, fun result hresult => (hall result hresult).leased⟩,
      fun result hresult => ?_⟩
    obtain ⟨htexts, hmessage, hnumbers⟩ :=
      (fits_iff (hcut result hresult)).mp (hall result hresult).fits
    refine ⟨htexts, hmessage, hnumbers, fun agent' huuid' => ?_⟩
    obtain rfl := Option.some_inj.mp (huuid.symm.trans huuid')
    exact (hall result hresult).room
  · rintro ⟨⟨hdistinct, agent', huuid', hleased⟩, htaken⟩
    obtain rfl := Option.some_inj.mp (huuid.symm.trans huuid')
    refine ⟨hdistinct, fun result hresult => ?_⟩
    obtain ⟨htexts, hmessage, hnumbers, hroom⟩ := htaken result hresult
    exact ⟨hleased result hresult,
      (fits_iff (hcut result hresult)).mpr ⟨htexts, hmessage, hnumbers⟩, hroom agent huuid⟩

/-- An agent id that is no uuid submits nothing. -/
theorem submitted_uuid {s s' : ScanStore} {now : Timestamp} {agentID : String}
    {results : List ProbeResult} (hsubmitted : Submitted pg now agentID job s results s')
    (hne : results ≠ []) : ∃ agent, pg.uuid agentID = some agent := by
  cases hsubmitted with
  | nil => exact absurd rfl hne
  | cons hrecord _ => exact ⟨_, hrecord.uuid⟩

/-- **The batches that are accepted, in whatever order and however many calls.** In any run whose
targets are single addresses, a batch for a job that is not stopped, with no message cut inside a
character, is accepted exactly when it is valid and the columns take it; any batch that is refused
leaves the store as it was; and the results of one that is accepted leave the same rows in any order
and in any number of calls, timestamps aside. -/
theorem submit_valid_iff (pg : Postgres) (start : Timestamp) (before : List Event)
    (hplain : ∀ ev ∈ before, ev.Plain pg) {job : ScanJob}
    (hjob : job ∈ (replay pg start before).store.jobs.rows) (hopen : job.status ≠ .stopped)
    (batch : ResultBatch) (hid : pg.uuid batch.jobID = some job.id) (hne : batch.results ≠ []) :
    (Uncut batch →
      ((serve pg (replay pg start before).clock (replay pg start before).store
          (.submitResults batch)).1 = .submitted (.ok ()) ↔
        ValidBatch pg (replay pg start before).store job batch ∧
          Recordable pg (replay pg start before).store job batch)) ∧
    ((serve pg (replay pg start before).clock (replay pg start before).store
        (.submitResults batch)).1 ≠ .submitted (.ok ()) →
      (serve pg (replay pg start before).clock (replay pg start before).store
        (.submitResults batch)).2 = (replay pg start before).store) ∧
    ((serve pg (replay pg start before).clock (replay pg start before).store
        (.submitResults batch)).1 = .submitted (.ok ()) →
      ∀ parts : List (Nat × List ProbeResult), (parts.map Prod.snd).flatten.Perm batch.results →
        ∃ w', submitInTurn pg batch.agentID batch.jobID (replay pg start before) parts = some w' ∧
          SameButTimes (serve pg (replay pg start before).clock (replay pg start before).store
            (.submitResults batch)).2 w'.store) := by
  have hrows := Rows.replay pg start before
  have hslots : Slots (replay pg start before).store.tasks := Slots.replay hplain
  have hreply : (serve pg (replay pg start before).clock (replay pg start before).store
      (.submitResults batch)).1 = .submitted (.ok ()) ↔ ((submitResults pg
        (replay pg start before).clock batch).exec (replay pg start before).store).1 = .ok () := by
    simp only [serve, Reply.submitted.injEq]
  have hagent : ((submitResults pg (replay pg start before).clock batch).exec
      (replay pg start before).store).1 = .ok () → ∃ agent, pg.uuid batch.agentID = some agent := by
    intro hok
    rcases submitResults_exec pg (replay pg start before).clock batch
      (replay pg start before).store with
      ⟨error, hexec⟩ | ⟨job', hjob', hid', hstopped, -⟩ | ⟨job', -, s', -, -, hsubmitted, -⟩
    · rw [hexec] at hok
      cases hok
    · rw [Table.eq_of_key hjob' hjob (Option.some_inj.mp (hid'.symm.trans hid))] at hstopped
      exact absurd hstopped hopen
    · exact submitted_uuid hsubmitted hne
  have haccepted : ∀ agent, pg.uuid batch.agentID = some agent →
      (((submitResults pg (replay pg start before).clock batch).exec
        (replay pg start before).store).1 = .ok () ↔
          AcceptableAll (replay pg start before).store job agent batch.results) :=
    fun agent huuid => submitResults_iff _ hrows hslots huuid hid hjob hopen
      (jobTasks_fit pg start before hjob)
  rw [hreply]
  refine ⟨fun hcut => ⟨fun hok => ?_, fun hvalid => ?_⟩, fun hrefused => ?_,
    fun hok parts hperm => ?_⟩
  · obtain ⟨agent, huuid⟩ := hagent hok
    exact (acceptableAll_iff huuid hcut).mp ((haccepted agent huuid).mp hok)
  · obtain ⟨agent, huuid, -⟩ := hvalid.1.leased
    exact (haccepted agent huuid).mpr ((acceptableAll_iff huuid hcut).mpr hvalid)
  · simp only [serve]
    rcases submitResults_exec pg (replay pg start before).clock batch
      (replay pg start before).store with
      ⟨error, hexec⟩ | ⟨_, -, -, -, hexec⟩ | ⟨_, -, s', -, -, -, hexec⟩
    · rw [hexec]
    · rw [hexec]
    · exact absurd (hreply.mpr (congrArg Prod.fst hexec)) hrefused
  · obtain ⟨agent, huuid⟩ := hagent hok
    have hall := (haccepted agent huuid).mp hok
    have hids := hperm.map ProbeResult.taskID
    have hturns : AcceptableAll (replay pg start before).store job agent
        (parts.map Prod.snd).flatten :=
      ⟨hids.nodup_iff.mpr hall.distinct, fun result hresult =>
        hall.acceptable result (hperm.mem_iff.mp hresult)⟩
    have hparts : parts ≠ [] := by
      rintro rfl
      exact hne (List.nil_perm.mp hperm)
    -- both runs end in a progress update on the same contents, in whatever order they got there
    obtain ⟨w', hturn, hleaves⟩ := submitInTurn_leaves huuid hplain hid hjob hopen parts hturns
    obtain ⟨mid, now, hstore, -, hcontents⟩ := hleaves hparts
    have hall' : AcceptableAll (replay pg start before).store job agent (batch.results ++ []) := by
      rwa [List.append_nil]
    obtain ⟨-, ⟨mid', now', hstore', hstats', hcontents'⟩, -⟩ :=
      submitResults_next batch hplain huuid hid hjob hopen hall'
    refine ⟨w', hturn, ?_⟩
    rw [hstore, hstore']
    refine sameButTimes_progressed (hcontents'.trans ?_) hstats' now' now
    rw [hcontents]
    exact (Contents.foldl_record_perm _ hperm hturns.distinct (hturns.addresses hslots)).symm

end Turns

/-! ## Two results -/

/-- A server that reads two addresses, and one of them with a netmask. -/
def twoAddresses : Postgres where
  uuid := oneAddress.uuid
  inet := fun text =>
    if text = "104.16.0.1" then some ⟨"104.16.0.1", none⟩
    else if text = "104.16.0.1/24" then some ⟨"104.16.0.1", some 24⟩
    else if text = "104.16.0.2" then some ⟨"104.16.0.2", none⟩ else none
  cidr := fun _ => none
  inet_host := by
    intro text ip h
    split at h
    · cases h
      rfl
    split at h
    · cases h
      rfl
    split at h
    · cases h
      rfl
    · cases h
  cidr_text := cidr_text_of_none

/-- A job with two targets, out with its agent. -/
def claimedPair (first second : String) : List Event :=
  [.call (.createScanJob (fun _ => some "agent") 0x7d4448409dc041d1b2455ffdce74fad2 oneTarget
      [⟨oneAgent, [⟨first, ""⟩, ⟨second, ""⟩]⟩]),
    .call (.claimTasks (fun _ => 0) oneAgent 32)]

/-- The second target does not answer. -/
def failedResult (targetIP : String) : ProbeResult :=
  { goodResult with taskID := 2, targetIP := targetIP, available := false, errorCode := "TIMEOUT" }

def pairResults (second : String) : ResultBatch where
  agentID := oneAgent
  jobID := oneJob
  results := [goodResult, failedResult second]

/-- The job of a pair is out with its agent. -/
theorem claimedPair_running (second : String)
    (hjobs : (replay twoAddresses 0 (claimedPair "104.16.0.1" second)).store.jobs.rows.map
      (fun job => (job.id, job.status)) = [(0x7d4448409dc041d1b2455ffdce74fad2, .running)]) :
    ∃ job ∈ (replay twoAddresses 0 (claimedPair "104.16.0.1" second)).store.jobs.rows,
      twoAddresses.uuid oneJob = some job.id ∧ job.status ≠ .stopped := by
  obtain ⟨job, hjob, hpair⟩ := List.mem_map.mp (hjobs.symm ▸ List.mem_singleton_self _)
  obtain ⟨hid, hstatus⟩ := Prod.mk.injEq _ _ _ _ ▸ hpair
  exact ⟨job, hjob, by rw [hid]; decide +kernel, by rw [hstatus]; decide⟩

theorem plain_claimedPair : ∀ ev ∈ claimedPair "104.16.0.1" "104.16.0.2",
    ev.Plain twoAddresses := by
  intro ev hev
  rcases List.mem_cons.mp hev with rfl | hev
  · intro agentSet hset target htarget ip hip
    rw [List.mem_singleton.mp hset] at htarget
    rcases List.mem_pair.mp htarget with rfl | rfl
    · cases hip
      rfl
    · cases hip
      rfl
  · rw [List.mem_singleton.mp hev]
    trivial

/-- The failure first, and the other result a minute later in a call of its own. -/
theorem submit_valid_twoResults :
    (∃ job ∈ (replay twoAddresses 0 (claimedPair "104.16.0.1" "104.16.0.2")).store.jobs.rows,
      ValidBatch twoAddresses (replay twoAddresses 0 (claimedPair "104.16.0.1" "104.16.0.2")).store
        job (pairResults "104.16.0.2")) ∧
    ∃ w', submitInTurn twoAddresses oneAgent oneJob
        (replay twoAddresses 0 (claimedPair "104.16.0.1" "104.16.0.2"))
        [(0, [failedResult "104.16.0.2"]), (60, [goodResult])] = some w' ∧
      SameButTimes (serve twoAddresses
        (replay twoAddresses 0 (claimedPair "104.16.0.1" "104.16.0.2")).clock
        (replay twoAddresses 0 (claimedPair "104.16.0.1" "104.16.0.2")).store
        (.submitResults (pairResults "104.16.0.2"))).2 w'.store := by
  obtain ⟨job, hjob, hid, hopen⟩ := claimedPair_running "104.16.0.2" (by decide +kernel)
  obtain ⟨hiff, -, hparts⟩ := submit_valid_iff twoAddresses 0
    (claimedPair "104.16.0.1" "104.16.0.2") plain_claimedPair hjob hopen
    (pairResults "104.16.0.2") hid (by decide)
  have hok : (serve twoAddresses
      (replay twoAddresses 0 (claimedPair "104.16.0.1" "104.16.0.2")).clock
      (replay twoAddresses 0 (claimedPair "104.16.0.1" "104.16.0.2")).store
      (.submitResults (pairResults "104.16.0.2"))).1 = .submitted (.ok ()) := by
    decide +kernel
  have hcut : Uncut (pairResults "104.16.0.2") := by
    intro result hresult
    rcases List.mem_pair.mp hresult with rfl | rfl
    · decide
    · decide
  exact ⟨⟨job, hjob, ((hiff hcut).mp hok).1⟩,
    hparts hok [(0, [failedResult "104.16.0.2"]), (60, [goodResult])] (List.Perm.swap ..)⟩

/-! ## An answer no column takes, and an address with a netmask

The two reasons why acceptance and order need more than valid batches. An HTTP status past
the integer column is refused by PostgreSQL though nothing is wrong with the batch; and
where targets carry a netmask, two tasks of a job share a host, so that the later of two
results for it decides what is on the blacklist. -/

theorem plain_claimedJob : ∀ ev ∈ claimedJob, ev.Plain oneAddress := by
  intro ev hev
  rcases List.mem_cons.mp hev with rfl | hev
  · intro agentSet hset target htarget ip hip
    rw [List.mem_singleton.mp hset, List.mem_singleton] at htarget
    rw [htarget] at hip
    cases hip
    rfl
  · rw [List.mem_singleton.mp hev]
    trivial

/-- The job of `claimedJob` is out with its agent. -/
theorem claimedJob_running : ∃ job ∈ (replay oneAddress 0 claimedJob).store.jobs.rows,
    oneAddress.uuid oneJob = some job.id ∧ job.status ≠ .stopped := by
  have hjobs : (replay oneAddress 0 claimedJob).store.jobs.rows.map
      (fun job => (job.id, job.status)) = [(0x7d4448409dc041d1b2455ffdce74fad2, .running)] := by
    decide +kernel
  obtain ⟨job, hjob, hpair⟩ := List.mem_map.mp (hjobs.symm ▸ List.mem_singleton_self _)
  obtain ⟨hid, hstatus⟩ := Prod.mk.injEq _ _ _ _ ▸ hpair
  exact ⟨job, hjob, by rw [hid]; decide +kernel, by rw [hstatus]; decide⟩

/-- An HTTP status above the range of its column. -/
def largeResult : ResultBatch where
  agentID := oneAgent
  jobID := oneJob
  results := [{ goodResult with httpStatus := 3000000000 }]

/-- The task is leased and for its address. -/
theorem validBatch_large {job : ScanJob} (hid : oneAddress.uuid oneJob = some job.id) :
    ValidBatch oneAddress (replay oneAddress 0 claimedJob).store job largeResult := by
  refine ⟨by decide, 0x6f9619ff8b864011b42d00c04fc964ff, by decide +kernel, fun result hresult => ?_⟩
  obtain rfl := List.mem_singleton.mp hresult
  have htasks : ((replay oneAddress 0 claimedJob).store.tasks.rows.any fun task =>
      task.submittable 0x7d4448409dc041d1b2455ffdce74fad2 0x6f9619ff8b864011b42d00c04fc964ff 1 &&
        decide ("104.16.0.1" = task.targetIP.host)) = true := by
    decide +kernel
  obtain ⟨task, htask, hboth⟩ := List.any_eq_true.mp htasks
  rw [Bool.and_eq_true, decide_eq_true_eq] at hboth
  have hone : oneAddress.uuid oneJob = some 0x7d4448409dc041d1b2455ffdce74fad2 := by
    decide +kernel
  have hjobID : job.id = 0x7d4448409dc041d1b2455ffdce74fad2 :=
    Option.some_inj.mp (hid.symm.trans hone)
  rw [hjobID]
  exact ⟨task, htask, hboth.1, hboth.2⟩

/-- Whether the address of the two tasks is on the blacklist. -/
def ScanStore.lists (s : ScanStore) : Bool :=
  (s.blacklist.find? (0x6f9619ff8b864011b42d00c04fc964ff, ⟨"104.16.0.1", none⟩)).isSome

/-- A valid batch is refused for the range of a column. And two tasks for one host, the second with
a netmask, answer for one entry of the blacklist: there the last result decides. -/
theorem submit_valid_refused :
    (¬ ∀ (pg : Postgres) (start : Timestamp) (before : List Event),
      (∀ ev ∈ before, ev.Plain pg) → ∀ job ∈ (replay pg start before).store.jobs.rows,
        job.status ≠ .stopped → ∀ batch : ResultBatch, pg.uuid batch.jobID = some job.id →
          batch.results ≠ [] →
            ((serve pg (replay pg start before).clock (replay pg start before).store
                (.submitResults batch)).1 = .submitted (.ok ()) ↔
              ValidBatch pg (replay pg start before).store job batch)) ∧
    ¬ ∀ (pg : Postgres) (start : Timestamp) (before : List Event),
      ∀ job ∈ (replay pg start before).store.jobs.rows, job.status ≠ .stopped →
        ∀ batch : ResultBatch, pg.uuid batch.jobID = some job.id → batch.results ≠ [] →
          (serve pg (replay pg start before).clock (replay pg start before).store
              (.submitResults batch)).1 = .submitted (.ok ()) →
            ∀ parts : List (Nat × List ProbeResult),
              (parts.map Prod.snd).flatten.Perm batch.results →
              ∃ w', submitInTurn pg batch.agentID batch.jobID (replay pg start before) parts =
                  some w' ∧
                SameButTimes (serve pg (replay pg start before).clock
                  (replay pg start before).store (.submitResults batch)).2 w'.store := by
  refine ⟨fun h => ?_, fun h => ?_⟩
  · obtain ⟨job, hjob, hid, hopen⟩ := claimedJob_running
    have hiff := h oneAddress 0 claimedJob plain_claimedJob job hjob hopen largeResult hid
      (by decide)
    have hrefused : (serve oneAddress (replay oneAddress 0 claimedJob).clock
        (replay oneAddress 0 claimedJob).store (.submitResults largeResult)).1 ≠
          .submitted (.ok ()) := by
      decide +kernel
    exact hrefused (hiff.mpr (validBatch_large hid))
  · obtain ⟨job, hjob, hid, hopen⟩ := claimedPair_running "104.16.0.1/24" (by decide +kernel)
    obtain ⟨w', hw', hsame⟩ := h twoAddresses 0 (claimedPair "104.16.0.1" "104.16.0.1/24") job hjob
      hopen (pairResults "104.16.0.1") hid (by decide) (by decide +kernel)
      [(0, [failedResult "104.16.0.1", goodResult])] (List.Perm.swap ..)
    have hlisted : (serve twoAddresses
        (replay twoAddresses 0 (claimedPair "104.16.0.1" "104.16.0.1/24")).clock
        (replay twoAddresses 0 (claimedPair "104.16.0.1" "104.16.0.1/24")).store
        (.submitResults (pairResults "104.16.0.1"))).2.lists = true := by
      decide +kernel
    have hfree : (submitInTurn twoAddresses oneAgent oneJob
        (replay twoAddresses 0 (claimedPair "104.16.0.1" "104.16.0.1/24"))
        [(0, [failedResult "104.16.0.1", goodResult])]).map (fun w => w.store.lists) =
          some false := by
      decide +kernel
    have hfree' : w'.store.lists = false := by
      have hmap := congrArg (Option.map fun w : Service => w.store.lists) hw'
      exact Option.some_inj.mp (hmap.symm.trans hfree)
    have hsome := congrArg Option.isSome (hsame.blacklist
      (0x6f9619ff8b864011b42d00c04fc964ff, ⟨"104.16.0.1", none⟩))
    rw [Option.isSome_map, Option.isSome_map] at hsome
    exact absurd (hsome.symm.trans hfree') (by rw [show Option.isSome _ = true from hlisted]; decide)

end Cfscan.Scan
