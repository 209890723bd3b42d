import Cfscan.Scan.Progress
import Cfscan.Scan.Tasks

/-!
# Submitting a batch twice

The second delivery of a batch the store accepted, at any later time. The documentation calls the
submission of results idempotent and the result insert has an `ON CONFLICT` branch for it, but the
`UPDATE` in front of that insert selects leased tasks only, and the first delivery completed them.
So the second one is refused, unless there is nothing to select: the batch is empty, or the job has
been stopped and the batch is not looked at.

`Absorbed` is what a client that delivers at least once would hope for: success, and nothing
changed. The first delivery may be any time ago and the runs before and between are arbitrary, so
the job may have been stopped in the meantime, or finished.
-/

set_option autoImplicit false

namespace Cfscan.Scan

open Cfscan.Lib Cfscan.Store

/-! ## What idempotence asks for

The second delivery is absorbed if it is answered with success and nothing but clock
readings and row ids differ. Row ids of results are not modelled at all, so `SameContents`
only has the times of the job row to set aside. -/

/-- A job without its timestamps. -/
def ScanJob.untimed (job : ScanJob) : ScanJob :=
  { job with createdAt := 0, startedAt := none, finishedAt := none }

/-- The same rows, timestamps aside. -/
structure SameContents (s s' : ScanStore) : Prop where
  jobs : s'.jobs.rows.map ScanJob.untimed = s.jobs.rows.map ScanJob.untimed
  tasks : s'.tasks = s.tasks
  results : s'.results = s.results
  blacklist : s'.blacklist = s.blacklist

theorem SameContents.refl (s : ScanStore) : SameContents s s := ⟨rfl, rfl, rfl, rfl⟩

/-- A batch that is accepted at `w` and changes nothing there. -/
def Absorbed (pg : Postgres) (w : Service) (batch : ResultBatch) : Prop :=
  (serve pg w.clock w.store (.submitResults batch)).1 = .submitted (.ok ()) ∧
    SameContents w.store (serve pg w.clock w.store (.submitResults batch)).2

/-- The job a batch is for has been stopped. -/
def ScanStore.hasStopped (pg : Postgres) (s : ScanStore) (jobID : String) : Prop :=
  ∃ job ∈ s.jobs.rows, pg.uuid jobID = some job.id ∧ job.status = .stopped

/-! ## Jobs and tasks along a run -/

/-- Jobs stay, a stopped one stopped and a started one started. -/
structure JobsGoOn (s s' : ScanStore) : Prop where
  job : ∀ job ∈ s.jobs.rows, ∃ job' ∈ s'.jobs.rows, job'.id = job.id ∧
    (job.status = .stopped → job'.status = .stopped) ∧
    (job.status ≠ .pending → job'.status ≠ .pending)
  fits : (∀ job ∈ s.jobs.rows, int4 job.totalTargets = true) →
    ∀ job ∈ s'.jobs.rows, int4 job.totalTargets = true

theorem JobsGoOn.refl (s : ScanStore) : JobsGoOn s s :=
  ⟨fun job hjob => ⟨job, hjob, rfl, fun h => h, fun h => h⟩, fun h => h⟩

theorem JobsGoOn.trans {s s' s'' : ScanStore} (h : JobsGoOn s s') (h' : JobsGoOn s' s'') :
    JobsGoOn s s'' := by
  refine ⟨fun job hjob => ?_, fun hfits => h'.fits (h.fits hfits)⟩
  obtain ⟨job', hjob', hid, hstopped, hstarted⟩ := h.job job hjob
  obtain ⟨job'', hjob'', hid', hstopped', hstarted'⟩ := h'.job job' hjob'
  exact ⟨job'', hjob'', hid'.trans hid, fun hst => hstopped' (hstopped hst),
    fun hst => hstarted' (hstarted hst)⟩

/-- The update of one job that is not stopped, to a state that is not pending. -/
theorem jobsGoOn_update {s s' : ScanStore} {jobID : UUID} {f : ScanJob → ScanJob}
    (hf : ∀ job, (f job).id = job.id)
    (hjobs : s'.jobs = s.jobs.updateWhere (fun row => decide (row.id = jobID)) f hf)
    (hopen : ∀ job ∈ s.jobs.rows, job.id = jobID → job.status ≠ .stopped)
    (hstarts : ∀ job, (f job).status ≠ .pending)
    (htotal : ∀ job, (f job).totalTargets = job.totalTargets) : JobsGoOn s s' := by
  refine ⟨fun job hjob => ?_, fun hfits job' hjob' => ?_⟩
  · rw [hjobs]
    refine ⟨_, Table.mem_updateWhere_of_mem hjob, ?_⟩
    by_cases hid : job.id = jobID
    · rw [if_pos (decide_eq_true hid)]
      exact ⟨hf job, fun hst => absurd hst (hopen job hjob hid), fun _ => hstarts job⟩
    · rw [if_neg (by simpa using hid)]
      exact ⟨rfl, fun hst => hst, fun hst => hst⟩
  · rw [hjobs] at hjob'
    rcases mem_jobs_updated hf hjob' with ⟨hold, _⟩ | ⟨old, hold, _, rfl⟩
    · exact hfits job' hold
    · rw [htotal]
      exact hfits old hold

theorem JobsGoOn.step {pg : Postgres} {now : Timestamp} {s s' : ScanStore} (hrows : Rows pg s)
    (hstep : Step pg now s s') : JobsGoOn s s' := by
  have hactive : ∀ job ∈ s.jobs.rows, job.active = true →
      ∀ other ∈ s.jobs.rows, other.id = job.id → other.status ≠ .stopped := by
    intro job hjob hactive other hother hid hst
    rw [Table.eq_of_key hother hjob hid] at hst
    simp [ScanJob.active, hst] at hactive
  cases hstep with
  | creation hcreation =>
    rcases hcreation with ⟨n, _, rfl⟩ | ⟨new, hc⟩
    · exact ⟨(JobsGoOn.refl s).job, fun h => h⟩
    · refine ⟨fun job hjob => ⟨job, ?_, rfl, fun h => h, fun h => h⟩, fun hfits job hjob => ?_⟩
      · rw [hc.jobs]
        exact Table.mem_put.mpr (Or.inr ⟨hjob, Table.find?_eq_none.mp hc.fresh job hjob⟩)
      · rw [hc.jobs] at hjob
        rcases Table.mem_put.mp hjob with rfl | ⟨hold, _⟩
        · exact hc.fits
        · exact hfits job hold
  | claim hclaim =>
    exact jobsGoOn_update (ScanJob.id_start now) rfl (hactive _ hclaim.mem hclaim.active)
      (fun _ => by simp [ScanJob.start]) fun _ => rfl
  | @submit s₁ job _ _ hjob hopen hsubmitted =>
    have hjobs := (hsubmitted.elsewhere hrows).1.jobs
    unfold ScanStore.progressed
    split
    · exact ⟨by rw [hjobs]; exact (JobsGoOn.refl s).job, by rw [hjobs]; exact fun h => h⟩
    · rename_i stats _
      refine jobsGoOn_update (ScanJob.id_progress now stats) (by rw [← hjobs]) ?_ ?_ fun _ => rfl
      · intro other hother hid
        rw [Table.eq_of_key hother hjob hid]
        exact hopen
      · intro other
        simp only [ScanJob.progress]
        split <;> decide
  | stop hjob hact =>
    exact jobsGoOn_update (ScanJob.id_stop now) rfl (hactive _ hjob hact)
      (fun _ => by simp [ScanJob.stop]) fun _ => rfl

theorem JobsGoOn.steps {pg : Postgres} {now : Timestamp} {s s' : ScanStore} (hrows : Rows pg s)
    (hsteps : Relation.ReflTransGen (Step pg now) s s') : JobsGoOn s s' := by
  induction hsteps with
  | refl => exact .refl s
  | tail hbefore hstep ih => exact ih.trans (.step (hrows.steps hbefore) hstep)

/-- What one event leaves of jobs and of final tasks. -/
theorem next_goesOn {pg : Postgres} {w : Service} (hrows : Rows pg w.store) (ev : Event) :
    JobsGoOn w.store (w.next pg ev).store ∧
      ∀ task ∈ w.store.tasks.rows, task.status.final = true →
        task ∈ (w.next pg ev).store.tasks.rows := by
  cases ev with
  | pass duration => exact ⟨.refl _, fun task htask _ => htask⟩
  | call op =>
    refine ⟨.steps hrows (serve_steps hrows.ready hrows.single _ op), fun task htask hfinal => ?_⟩
    obtain ⟨task', htask', hstep⟩ := (serve_evolves hrows w.clock op).steps task htask
    rwa [hstep.final hfinal] at htask'

theorem replay_goesOn (pg : Postgres) (start : Timestamp) (before later : List Event) :
    JobsGoOn (replay pg start before).store (replay pg start (before ++ later)).store ∧
      ∀ task ∈ (replay pg start before).store.tasks.rows, task.status.final = true →
        task ∈ (replay pg start (before ++ later)).store.tasks.rows := by
  induction later using List.reverseRecOn with
  | nil => rw [List.append_nil]; exact ⟨.refl _, fun task htask _ => htask⟩
  | append_singleton later ev ih =>
    rw [← List.append_assoc, replay_append]
    obtain ⟨hjobs, htasks⟩ := next_goesOn (Rows.replay pg start (before ++ later)) ev
    exact ⟨ih.1.trans hjobs, fun task htask hfinal => htasks task (ih.2 task htask hfinal) hfinal⟩

/-! ## The second delivery

For a job that is not stopped the guard on the task's status decides: an accepted result has
completed its task, and completed tasks are never leased again, so the first result of the
batch is refused at any later time. The empty batch has no first result and is the
exception. -/

section Second

variable {pg : Postgres} {now : Timestamp} {batch : ResultBatch} {s : ScanStore} {job : ScanJob}

theorem submitResults_stopped (hid : pg.uuid batch.jobID = some job.id) (hjob : job ∈ s.jobs.rows)
    (hstopped : job.status = .stopped) : (submitResults pg now batch).exec s = (.ok (), s) := by
  unfold submitResults
  rw [hid]
  simp only [Tx.exec, Tx.bind_eq, Tx.run_bind, jobs.run_selectForUpdate, jobs_get,
    Table.find?_key hjob, if_pos hstopped, Tx.pure_eq, Tx.run_done]

theorem ScanStore.hasStopped.absorbed {w : Service}
    (h : w.store.hasStopped pg batch.jobID) : Absorbed pg w batch := by
  obtain ⟨job, hjob, hid, hstopped⟩ := h
  unfold Absorbed
  simp only [serve, submitResults_stopped hid hjob hstopped]
  exact ⟨trivial, .refl _⟩

theorem ScanStore.hasStopped.later {s' : ScanStore} {jobID : String}
    (h : s.hasStopped pg jobID) (hgoes : JobsGoOn s s') : s'.hasStopped pg jobID := by
  obtain ⟨job, hjob, hid, hstopped⟩ := h
  obtain ⟨job', hjob', hid', hstopped', _⟩ := hgoes.job job hjob
  exact ⟨job', hjob', by rw [hid, hid'], hstopped' hstopped⟩

/-- The counts of a job fit their columns when the number of its tasks does. -/
theorem updateProgress_ok (now : Timestamp) {jobID : UUID}
    (hfits : int4 (s.jobTasks jobID).length = true) :
    (updateProgress now jobID).run s = (none, s.progressed now jobID) := by
  have hcount : ∀ q : ScanTask → Bool, int4 ((s.jobTasks jobID).countP q : Nat) = true := by
    intro q
    have hle := List.countP_le_length (p := q) (l := s.jobTasks jobID)
    simp only [int4, Bool.and_eq_true, decide_eq_true_eq] at hfits ⊢
    omega
  rcases updateProgress_run now jobID s with ⟨error, hrun⟩ | hrun
  · unfold updateProgress ScanStore.stats at hrun
    simp only [Tx.bind_eq, Tx.run_bind, Tx.run_read] at hrun
    cases hjob : s.jobs.find? jobID with
    | none => simp [hjob] at hrun
    | some job =>
      by_cases hempty : s.jobTasks jobID = []
      · simp [hjob, hempty] at hrun
      · simp [hjob, hempty, hcount] at hrun
  · exact hrun

/-- An empty batch only recomputes the progress of its job, and the counters fit their columns. -/
theorem submitResults_empty (now : Timestamp) (hid : pg.uuid batch.jobID = some job.id)
    (hjob : job ∈ s.jobs.rows) (hopen : job.status ≠ .stopped) (hempty : batch.results = [])
    (hok : JobOk s job) (hfits : int4 job.totalTargets = true) :
    (submitResults pg now batch).exec s = (.ok (), s.progressed now job.id) := by
  have hprogress := updateProgress_ok now (hok.totals.total ▸ hfits)
  unfold submitResults
  rw [hid]
  simp only [Tx.exec, Tx.bind_eq, Tx.run_bind, jobs.run_selectForUpdate, jobs_get,
    Table.find?_key hjob, if_neg hopen, hempty, submitEach, Tx.pure_eq, Tx.run_done, hprogress]

/-- The progress update of a job that is in order and has started writes what is there. -/
theorem progressed_contents (hjob : job ∈ s.jobs.rows) (hok : JobOk s job)
    (hstarted : job.status ≠ .pending) (hopen : job.status ≠ .stopped) :
    SameContents s (s.progressed now job.id) := by
  obtain ⟨htasks, hresults, hblacklist⟩ := progressed_tasks s now job.id
  refine ⟨?_, htasks, hresults, hblacklist⟩
  have hall := completed_ge_length (s.jobTasks job.id)
  rw [← hok.totals.total, ← hok.totals.completed] at hall
  unfold ScanStore.progressed ScanStore.stats
  simp only [Table.find?_key hjob, hok.totals.nonempty, if_false]
  unfold Table.updateWhere
  rw [List.map_map]
  refine List.map_congr_left fun row hrow => ?_
  rw [Function.comp_apply]
  by_cases hid : row.id = job.id
  · obtain rfl := Table.eq_of_key hrow hjob hid
    rw [if_pos (decide_eq_true rfl)]
    have hstatus : (if row.completedTargets ≥ row.totalTargets then JobStatus.completed
        else .running) = row.status := by
      cases hst : row.status with
      | pending => exact absurd hst hstarted
      | stopped => exact absurd hst hopen
      | completed => rw [if_pos (hall.mpr (hok.phase.completed hst))]
      | running =>
        obtain ⟨⟨task, htask, hne⟩, _⟩ := hok.phase.running hst
        rw [if_neg fun hge => hne (hall.mp hge task htask)]
    simp only [ScanJob.untimed, ScanJob.progress, ← hok.totals.completed, ← hok.totals.success,
      ← hok.totals.failed, hstatus]
  · rw [if_neg (by simpa using hid)]

/-- A batch whose first result names a task that is final is refused, unless the job is stopped. -/
theorem submitResults_final {result : ProbeResult} {results : List ProbeResult} {task : ScanTask}
    (hresults : batch.results = result :: results) (htask : task ∈ s.tasks.rows)
    (hid : task.id = result.taskID) (hfinal : task.status.final = true)
    (hok : ((submitResults pg now batch).exec s).1 = .ok ()) :
    s.hasStopped pg batch.jobID := by
  rcases submitResults_exec pg now batch s with
    ⟨error, hexec⟩ | ⟨job, hjob, hjobID, hstopped, _⟩ | ⟨job, _, s', _, _, hsubmitted, _⟩
  · rw [hexec] at hok
    cases hok
  · exact ⟨job, hjob, hjobID, hstopped⟩
  · rw [hresults] at hsubmitted
    cases hsubmitted with
    | cons hrecord _ =>
      obtain ⟨hid', _, _, hleased⟩ := submittable_eq hrecord.submittable
      obtain rfl := Table.eq_of_key htask hrecord.mem (hid.trans hid'.symm)
      rw [hleased] at hfinal
      cases hfinal

end Second

/-- **What the first delivery leaves behind**: a stopped job, or a job that has started and the
first result's task completed. -/
theorem accepted_leaves {pg : Postgres} {now : Timestamp} {batch : ResultBatch} {s s' : ScanStore}
    (hrows : Rows pg s) (hok : ∀ job ∈ s.jobs.rows, JobOk s job)
    (haccepted : (submitResults pg now batch).exec s = (.ok (), s')) :
    s'.hasStopped pg batch.jobID ∨
      (∃ job ∈ s'.jobs.rows, pg.uuid batch.jobID = some job.id ∧ job.status ≠ .pending) ∧
        ∀ result ∈ batch.results.head?, ∃ task ∈ s'.tasks.rows, task.id = result.taskID ∧
          task.status = .completed := by
  rcases submitResults_exec pg now batch s with
    ⟨error, hexec⟩ | ⟨job, hjob, hid, hstopped, hexec⟩ |
      ⟨job, hjob, s'', hid, _, hsubmitted, hexec⟩
  · rw [hexec] at haccepted
    cases haccepted
  · rw [hexec] at haccepted
    cases haccepted
    exact Or.inl ⟨job, hjob, hid, hstopped⟩
  · rw [hexec] at haccepted
    cases haccepted
    refine Or.inr ⟨?_, fun result hresult => ?_⟩
    · obtain ⟨stats, _, _, hjobs⟩ := hsubmitted.progressed_jobs hrows (hok job hjob) hjob
      refine ⟨job.progress now stats, ?_, hid, ?_⟩
      · rw [hjobs]
        have hmem : (if decide (job.id = job.id) then job.progress now stats else job) ∈
            (s.jobs.updateWhere (fun row => decide (row.id = job.id)) (·.progress now stats)
              (ScanJob.id_progress now stats)).rows := Table.mem_updateWhere_of_mem hjob
        rwa [if_pos (decide_eq_true rfl)] at hmem
      · simp only [ScanJob.progress]
        split <;> decide
    · rw [(progressed_tasks s'' now job.id).1]
      cases hresults : batch.results with
      | nil => rw [hresults] at hresult; cases hresult
      | cons first rest =>
        rw [hresults] at hresult hsubmitted
        obtain rfl : first = result := Option.some.inj hresult
        cases hsubmitted with
        | @cons _ _ _ _ agent task row hrecord hrest =>
          -- the rest of the batch leaves a completed task alone
          have hdone : task.complete now ∈ (s.recorded now job agent first row).tasks.rows := by
            refine (mem_rewritten (ScanTask.id_complete now)).mpr ⟨task, hrecord.mem, ?_⟩
            rw [rewritten, if_pos hrecord.submittable]
          obtain ⟨task', htask', heq | ⟨hleased, _⟩⟩ :=
            (hrest.evolves (hrows.recorded hrecord)).1 _ hdone
          · exact ⟨task', htask', by rw [heq]; exact (submittable_eq hrecord.submittable).1,
              by rw [heq]; rfl⟩
          · cases hleased

/-- **A second delivery is absorbed exactly when there is nothing in it to record.** -/
theorem resubmission_iff (pg : Postgres) (start : Timestamp) (before later : List Event)
    (batch : ResultBatch)
    (haccepted : (serve pg (replay pg start before).clock (replay pg start before).store
      (.submitResults batch)).1 = .submitted (.ok ())) :
    Absorbed pg (replay pg start (before ++ [.call (.submitResults batch)] ++ later)) batch ↔
      batch.results = [] ∨ (replay pg start
        (before ++ [.call (.submitResults batch)] ++ later)).store.hasStopped pg batch.jobID := by
  have hrows := Rows.replay pg start before
  have hfirst : (submitResults pg (replay pg start before).clock batch).exec
      (replay pg start before).store =
      (.ok (), (replay pg start (before ++ [.call (.submitResults batch)])).store) := by
    rw [replay_append]
    exact Prod.ext (by simpa [serve] using haccepted) rfl
  have hleaves := accepted_leaves hrows (JobOk.replay pg start before) hfirst
  obtain ⟨hgoes, htasks⟩ :=
    replay_goesOn pg start (before ++ [.call (.submitResults batch)]) later
  have hok := JobOk.replay pg start (before ++ [.call (.submitResults batch)] ++ later)
  have hfits := (replay_goesOn pg start []
    (before ++ [.call (.submitResults batch)] ++ later)).1.fits fun _ hjob => by cases hjob
  rw [List.nil_append] at hfits
  generalize replay pg start (before ++ [.call (.submitResults batch)] ++ later) = w at *
  generalize (replay pg start (before ++ [.call (.submitResults batch)])).store = s at *
  -- from here `s` is the store after the first delivery, `w` the service at the second
  constructor
  · rintro ⟨hsecond, _⟩
    have hsecond' : ((submitResults pg w.clock batch).exec w.store).1 = .ok () := by
      simpa [serve] using hsecond
    rcases hleaves with hstopped | ⟨_, hfirstTask⟩
    · exact Or.inr (hstopped.later hgoes)
    · cases hresults : batch.results with
      | nil => exact Or.inl rfl
      | cons result results =>
        obtain ⟨task, htask, hid, hst⟩ := hfirstTask result (by rw [hresults]; rfl)
        -- the task of the first result is completed since, so only a stopped job absorbs it
        have hfinal : task.status.final = true := by rw [hst]; rfl
        exact Or.inr (submitResults_final hresults (htasks task htask hfinal) hid hfinal hsecond')
  · rintro (hempty | ⟨job, hjob, hid, hstopped⟩)
    · rcases hleaves with hstopped | ⟨⟨job, hjob, hid, hstarted⟩, _⟩
      · exact (hstopped.later hgoes).absorbed
      · obtain ⟨job', hjob', hid', _, hstarted'⟩ := hgoes.job job hjob
        rw [← hid'] at hid
        by_cases hopen : job'.status = .stopped
        · exact ScanStore.hasStopped.absorbed ⟨job', hjob', hid, hopen⟩
        · -- an empty batch only counts the totals again, which are right already
          have hexec := submitResults_empty w.clock hid hjob' hopen hempty (hok job' hjob')
            (hfits job' hjob')
          unfold Absorbed
          simp only [serve, hexec]
          exact ⟨trivial, progressed_contents hjob' (hok job' hjob') (hstarted' hstarted) hopen⟩
    · exact ScanStore.hasStopped.absorbed ⟨job, hjob, hid, hstopped⟩

theorem resubmission_iff_oneResult :
    Absorbed oneAddress
        (replay oneAddress 0 (claimedJob ++ [.call (.submitResults oneResult)] ++ [])) oneResult ↔
      oneResult.results = [] ∨ (replay oneAddress 0
        (claimedJob ++ [.call (.submitResults oneResult)] ++ [])).store.hasStopped oneAddress
          oneResult.jobID :=
  resubmission_iff oneAddress 0 claimedJob [] oneResult (by decide +kernel)

/-- The second delivery of `oneResult` is an error. -/
theorem resubmission_refused :
    ¬ ∀ (pg : Postgres) (start : Timestamp) (before later : List Event) (batch : ResultBatch),
      (serve pg (replay pg start before).clock (replay pg start before).store
        (.submitResults batch)).1 = .submitted (.ok ()) →
      Absorbed pg (replay pg start (before ++ [.call (.submitResults batch)] ++ later)) batch := by
  intro h
  have hsecond := (h oneAddress 0 claimedJob [] oneResult (by decide +kernel)).1
  exact absurd hsecond (by decide +kernel)

end Cfscan.Scan
