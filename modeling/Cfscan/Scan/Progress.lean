import Cfscan.Scan.Rows

/-!
# The books of a job

`JobOk` is the invariant about one job and its tasks. Its counters are the ones the progress
update would compute now, although only that update writes them: every other statement moves tasks
between states none of the three counts looks at. Its status says which states the tasks may be in;
for a stopped job it has to remember a cancelled task, or a stop of a finished job could not be
told from the completion of it.

`Totals` and `Phase` are the two halves. A claim moves tasks between `pending` and `leased`, and the
job to `running`; a submission completes tasks and then counts them; a stop cancels what is open and
counts nothing, since none of the counters is about that.

`InOrder` is what a reader of the tables sees, and no more than the invariant gives. It is stated
apart from `JobOk`, so that the invariant can be another one and the result the same.
-/

set_option autoImplicit false

namespace Cfscan.Scan

open Cfscan.Lib Cfscan.Store

/-! ## The invariant

`Totals` ties the numbers in the job row to the rows of the other tables, `Phase` its status
to the statuses of its tasks. Both are needed for either: a job is set to completed by
comparing its counters, so that the comparison must mean something. -/

/-- The counters of a job. -/
structure Totals (s : ScanStore) (job : ScanJob) : Prop where
  total : job.totalTargets = (s.jobTasks job.id).length
  nonempty : s.jobTasks job.id ≠ []
  completed : job.completedTargets =
    (s.jobTasks job.id).countP fun task => decide (task.status = .completed)
  success : job.successTargets = (s.jobTasks job.id).countP (s.counts (ScanResult.passes job))
  failed : job.failedTargets = (s.jobTasks job.id).countP (s.counts (ScanResult.fails job))

/-- What the status of a job says about its tasks. -/
structure Phase (s : ScanStore) (job : ScanJob) : Prop where
  pending : job.status = .pending → ∀ task ∈ s.jobTasks job.id, task.status = .pending
  running : job.status = .running → (∃ task ∈ s.jobTasks job.id, task.status ≠ .completed) ∧
    ∀ task ∈ s.jobTasks job.id, task.status ≠ .cancelled
  completed : job.status = .completed → ∀ task ∈ s.jobTasks job.id, task.status = .completed
  stopped : job.status = .stopped → (∀ task ∈ s.jobTasks job.id, task.status.final = true) ∧
    ∃ task ∈ s.jobTasks job.id, task.status = .cancelled
  finished : job.finishedAt.isSome ↔ job.status = .completed ∨ job.status = .stopped

structure JobOk (s : ScanStore) (job : ScanJob) : Prop where
  totals : Totals s job
  phase : Phase s job

theorem mem_jobTasks {s : ScanStore} {jobID : UUID} {task : ScanTask} :
    task ∈ s.jobTasks jobID ↔ task ∈ s.tasks.rows ∧ task.jobID = jobID := by
  simp [ScanStore.jobTasks]

/-- A job that is not stopped has no cancelled task. -/
theorem JobOk.no_cancelled {s : ScanStore} {job : ScanJob} (h : JobOk s job)
    (hopen : job.status ≠ .stopped) : ∀ task ∈ s.jobTasks job.id, task.status ≠ .cancelled := by
  intro task htask
  cases hstatus : job.status with
  | pending => rw [h.phase.pending hstatus task htask]; decide
  | running => exact (h.phase.running hstatus).2 task htask
  | completed => rw [h.phase.completed hstatus task htask]; decide
  | stopped => exact absurd hstatus hopen

/-! ## Frames

A job is judged by its own tasks and their results. Any step that leaves those alone leaves
the invariant alone, and so does one that only moves tasks between pending, leased and
cancelled as far as the counters go. -/

/-- A job whose tasks and results are where they were is in order as it was. -/
theorem JobOk.congr {s s' : ScanStore} {job : ScanJob} (h : JobOk s job)
    (htasks : s'.jobTasks job.id = s.jobTasks job.id)
    (hresults : ∀ task ∈ s.jobTasks job.id, s'.results.find? task.id = s.results.find? task.id) :
    JobOk s' job := by
  have hcounts : ∀ condition, (s.jobTasks job.id).countP (s'.counts condition) =
      (s.jobTasks job.id).countP (s.counts condition) := by
    intro condition
    refine List.countP_congr fun task htask => ?_
    unfold ScanStore.counts
    rw [hresults task htask]
  constructor
  · constructor <;> rw [htasks]
    · exact h.totals.total
    · exact h.totals.nonempty
    · exact h.totals.completed
    · rw [hcounts]
      exact h.totals.success
    · rw [hcounts]
      exact h.totals.failed
  · refine ⟨?_, ?_, ?_, ?_, h.phase.finished⟩ <;> rw [htasks]
    · exact h.phase.pending
    · exact h.phase.running
    · exact h.phase.completed
    · exact h.phase.stopped

section Rewrite

variable {s : ScanStore} {p : ScanTask → Bool} {f : ScanTask → ScanTask}
  {hf : ∀ task, (f task).id = task.id} {jobs' : Table UUID ScanJob ScanJob.id} {job : ScanJob}

theorem jobTasks_rewritten (hf : ∀ task, (f task).id = task.id)
    (jobs' : Table UUID ScanJob ScanJob.id) (hsame : ∀ task, SameTask task (f task))
    (jobID : UUID) :
    ({ s with tasks := s.tasks.updateWhere p f hf, jobs := jobs' } : ScanStore).jobTasks jobID =
      (s.jobTasks jobID).map (rewritten p f) := by
  simp only [ScanStore.jobTasks, Table.updateWhere, List.filter_map]
  refine congrArg _ (List.filter_congr fun task _ => ?_)
  have hjob := (rewritten_same (p := p) hsame task).jobID
  simp only [rewritten] at hjob
  simp only [Function.comp_apply, hjob]

/-- The same, for a job whose tasks the condition does not select. -/
theorem jobTasks_untouched (hf : ∀ task, (f task).id = task.id)
    (jobs' : Table UUID ScanJob ScanJob.id) (hsame : ∀ task, SameTask task (f task)) {jobID : UUID}
    (hnone : ∀ task ∈ s.jobTasks jobID, p task = false) :
    ({ s with tasks := s.tasks.updateWhere p f hf, jobs := jobs' } : ScanStore).jobTasks jobID =
      s.jobTasks jobID := by
  rw [jobTasks_rewritten hf jobs' hsame]
  conv_rhs => rw [← List.map_id (s.jobTasks jobID)]
  refine List.map_congr_left fun task htask => ?_
  simp [rewritten, hnone task htask]

/-- An update that moves no task into or out of `completed` keeps every counter right. -/
theorem Totals.rewrite (h : Totals s job) (hf : ∀ task, (f task).id = task.id)
    (jobs' : Table UUID ScanJob ScanJob.id) (hsame : ∀ task, SameTask task (f task))
    (hopen : ∀ task ∈ s.jobTasks job.id, p task = true →
      task.status ≠ .completed ∧ (f task).status ≠ .completed) :
    Totals { s with tasks := s.tasks.updateWhere p f hf, jobs := jobs' } job := by
  have hcompleted : ∀ task ∈ s.jobTasks job.id,
      decide ((rewritten p f task).status = .completed) = decide (task.status = .completed) := by
    intro task htask
    unfold rewritten
    split
    · rename_i hp
      obtain ⟨hbefore, hafter⟩ := hopen task htask hp
      rw [decide_eq_false hbefore, decide_eq_false hafter]
    · rfl
  have hcounts : ∀ condition, (s.jobTasks job.id).countP
      ((({ s with tasks := s.tasks.updateWhere p f hf, jobs := jobs' } : ScanStore).counts
        condition) ∘ rewritten p f) = (s.jobTasks job.id).countP (s.counts condition) := by
    intro condition
    refine List.countP_congr fun task htask => ?_
    simp only [Function.comp_apply, ScanStore.counts, hcompleted task htask,
      (rewritten_same (p := p) hsame task).id]
  constructor <;> rw [jobTasks_rewritten hf jobs' hsame]
  · rw [List.length_map]
    exact h.total
  · simpa using h.nonempty
  · rw [h.completed, List.countP_map]
    exact congrArg _ (List.countP_congr fun task htask => by
      rw [Function.comp_apply, hcompleted task htask]).symm
  · rw [h.success, List.countP_map, hcounts]
  · rw [h.failed, List.countP_map, hcounts]

end Rewrite

/-! ## Claims -/

/-- A lease that has expired takes its task back to pending; nothing else moves. -/
theorem rewritten_expire (agent : UUID) (now : Timestamp) (task : ScanTask) :
    rewritten (ScanTask.leaseExpired agent now) ScanTask.expire task = task ∨
      (task.status = .leased ∧
        (rewritten (ScanTask.leaseExpired agent now) ScanTask.expire task).status = .pending) := by
  unfold rewritten
  split
  · rename_i hp
    exact Or.inr ⟨leaseExpired_leased hp, rfl⟩
  · exact Or.inl rfl

/-- A final task is left as it is. -/
theorem rewritten_expire_final {agent : UUID} {now : Timestamp} {task : ScanTask}
    (h : task.status.final = true) :
    rewritten (ScanTask.leaseExpired agent now) ScanTask.expire task = task := by
  rcases rewritten_expire agent now task with heq | ⟨hleased, -⟩
  · exact heq
  · rw [hleased] at h
    cases h

theorem JobOk.expired {s : ScanStore} {job : ScanJob} (h : JobOk s job) (agent : UUID)
    (now : Timestamp) : JobOk (s.expired agent now) job := by
  have htasks : (s.expired agent now).jobTasks job.id =
      (s.jobTasks job.id).map (rewritten (ScanTask.leaseExpired agent now) ScanTask.expire) :=
    jobTasks_rewritten ScanTask.id_expire s.jobs same_expire job.id
  refine ⟨h.totals.rewrite ScanTask.id_expire s.jobs same_expire fun task _ hp => ?_, ?_⟩
  · -- an expired task was leased, and is pending afterwards: no total counts either
    rw [leaseExpired_leased hp]
    exact ⟨by decide, by simp [ScanTask.expire]⟩
  refine ⟨?_, ?_, ?_, ?_, h.phase.finished⟩ <;> rw [htasks]
  · intro hstatus task' htask'
    obtain ⟨task, htask, rfl⟩ := List.mem_map.mp htask'
    rcases rewritten_expire agent now task with heq | ⟨-, hpending⟩
    · rw [heq]
      exact h.phase.pending hstatus task htask
    · exact hpending
  · intro hstatus
    obtain ⟨⟨task, htask, hne⟩, hall⟩ := h.phase.running hstatus
    refine ⟨⟨_, List.mem_map_of_mem htask, ?_⟩, fun task' htask' => ?_⟩
    · rcases rewritten_expire agent now task with heq | ⟨-, hpending⟩
      · rw [heq]
        exact hne
      · rw [hpending]
        decide
    · obtain ⟨task, htask, rfl⟩ := List.mem_map.mp htask'
      rcases rewritten_expire agent now task with heq | ⟨-, hpending⟩
      · rw [heq]
        exact hall task htask
      · rw [hpending]
        decide
  · -- no task of a job that is completed or stopped has a lease to lose
    intro hstatus task' htask'
    obtain ⟨task, htask, rfl⟩ := List.mem_map.mp htask'
    have hst := h.phase.completed hstatus task htask
    rw [rewritten_expire_final (by rw [hst]; rfl)]
    exact hst
  · intro hstatus
    obtain ⟨hall, task, htask, hst⟩ := h.phase.stopped hstatus
    have hsame : ∀ task ∈ s.jobTasks job.id,
        rewritten (ScanTask.leaseExpired agent now) ScanTask.expire task = task :=
      fun task htask => rewritten_expire_final (hall task htask)
    refine ⟨fun task' htask' => ?_, ⟨task, List.mem_map.mpr ⟨task, htask, hsame task htask⟩, hst⟩⟩
    obtain ⟨task, htask, rfl⟩ := List.mem_map.mp htask'
    rw [hsame task htask]
    exact hall task htask

/-- The row a one-job update makes of a row. -/
theorem mem_jobs_updated {t : Table UUID ScanJob ScanJob.id} {jobID : UUID} {f : ScanJob → ScanJob}
    (hf : ∀ job, (f job).id = job.id) {job : ScanJob}
    (h : job ∈ (t.updateWhere (fun row => decide (row.id = jobID)) f hf).rows) :
    (job ∈ t.rows ∧ job.id ≠ jobID) ∨ ∃ old ∈ t.rows, old.id = jobID ∧ job = f old := by
  obtain ⟨old, hold, rfl⟩ := Table.mem_updateWhere.mp h
  by_cases hid : old.id = jobID
  · exact Or.inr ⟨old, hold, hid, if_pos (decide_eq_true hid)⟩
  · rw [if_neg (by simpa using hid)]
    exact Or.inl ⟨hold, hid⟩

/-- Handing out pending tasks of an active job, which runs from then on. -/
theorem JobOk.leased {s : ScanStore} (h : ∀ job ∈ s.jobs.rows, JobOk s job) {now : Timestamp}
    {agent : UUID} {job : ScanJob} {ids : List Int} (hjob : job ∈ s.jobs.rows)
    (hactive : job.active = true) (hne : ids ≠ [])
    (hids : ∀ id ∈ ids, ∃ task ∈ s.tasks.rows, task.id = id ∧
      task.claimable job.id agent = true) :
    ∀ job' ∈ (s.leased now job.id ids).jobs.rows, JobOk (s.leased now job.id ids) job' := by
  -- a selected row is a pending task of the job
  have hselected : ∀ task ∈ s.tasks.rows, decide (task.id ∈ ids) = true →
      task.jobID = job.id ∧ task.status = .pending := by
    intro task htask hid
    obtain ⟨task', htask', hsame, hclaimable⟩ := hids _ (of_decide_eq_true hid)
    rw [← Table.eq_of_key htask' htask hsame]
    exact ⟨(claimable_eq hclaimable).1, (claimable_eq hclaimable).2.2⟩
  intro job' hjob'
  rcases mem_jobs_updated (ScanJob.id_start now) hjob' with
    ⟨hold, hother⟩ | ⟨old, hold, hid, rfl⟩
  · refine (h job' hold).congr
      (jobTasks_untouched (ScanTask.id_lease now) _ (same_lease now) fun task htask => ?_)
      fun _ _ => rfl
    obtain ⟨hmem, htaskJob⟩ := mem_jobTasks.mp htask
    by_contra hsel
    exact hother (htaskJob.symm.trans (hselected task hmem (by simpa using hsel)).1)
  · obtain rfl : old = job := Table.eq_of_key hold hjob hid
    have htotals := (h old hold).totals.rewrite (ScanTask.id_lease now)
      (s.leased now old.id ids).jobs (p := fun task => decide (task.id ∈ ids)) (same_lease now)
      fun task htask hp => by
        rw [(hselected task (mem_jobTasks.mp htask).1 hp).2]
        exact ⟨by decide, by simp [ScanTask.lease]⟩
    have htasks : (s.leased now old.id ids).jobTasks old.id = (s.jobTasks old.id).map
        (rewritten (fun task => decide (task.id ∈ ids)) (ScanTask.lease now)) :=
      jobTasks_rewritten (ScanTask.id_lease now) _ (same_lease now) old.id
    have hstopped : old.status ≠ .stopped := by
      intro hst
      simp [ScanJob.active, hst] at hactive
    have hunfinished : old.finishedAt.isSome = false := by
      rw [← Bool.not_eq_true]
      intro hsome
      rcases (h old hold).phase.finished.mp hsome with hst | hst <;>
        simp [ScanJob.active, hst] at hactive
    refine ⟨⟨htotals.total, htotals.nonempty, htotals.completed, htotals.success,
      htotals.failed⟩, ?_⟩
    constructor
    · intro hst; cases hst
    · intro _
      rw [ScanJob.id_start, htasks]
      constructor
      · obtain ⟨id, hid⟩ := List.exists_mem_of_ne_nil ids hne
        obtain ⟨task, htask, rfl, hclaimable⟩ := hids id hid
        refine ⟨_, List.mem_map_of_mem (mem_jobTasks.mpr ⟨htask, (claimable_eq hclaimable).1⟩), ?_⟩
        simp [rewritten, hid, ScanTask.lease]
      · intro task' htask'
        obtain ⟨task, htask, rfl⟩ := List.mem_map.mp htask'
        unfold rewritten
        split
        · simp [ScanTask.lease]
        · exact (h old hold).no_cancelled hstopped task htask
    · intro hst; cases hst
    · intro hst; cases hst
    · simp [ScanJob.start, hunfinished]

/-! ## Stops -/

/-- An active job has a task that is not completed. -/
theorem JobOk.exists_open {s : ScanStore} {job : ScanJob} (h : JobOk s job)
    (hactive : job.active = true) : ∃ task ∈ s.jobTasks job.id, task.status ≠ .completed := by
  rcases (by simpa [ScanJob.active] using hactive :
    job.status = .pending ∨ job.status = .running) with hst | hst
  · obtain ⟨task, htask⟩ := List.exists_mem_of_ne_nil _ h.totals.nonempty
    refine ⟨task, htask, ?_⟩
    rw [h.phase.pending hst task htask]
    decide
  · exact (h.phase.running hst).1

theorem JobOk.stopped {s : ScanStore} (h : ∀ job ∈ s.jobs.rows, JobOk s job) (now : Timestamp)
    {job : ScanJob} (hjob : job ∈ s.jobs.rows) (hactive : job.active = true) :
    ∀ job' ∈ (s.stopped now job.id).jobs.rows, JobOk (s.stopped now job.id) job' := by
  intro job' hjob'
  rcases mem_jobs_updated (ScanJob.id_stop now) hjob' with
    ⟨hold, hother⟩ | ⟨old, hold, hid, rfl⟩
  · -- another job: none of its tasks is touched
    refine (h job' hold).congr
      (jobTasks_untouched ScanTask.id_cancel _ same_cancel fun task htask => ?_) fun _ _ => rfl
    by_contra hsel
    have := (stoppable_eq (by simpa using hsel)).1
    exact hother ((mem_jobTasks.mp htask).2.symm.trans this)
  · obtain rfl : old = job := Table.eq_of_key hold hjob hid
    -- no count of the totals changes, since what is cancelled was pending or leased
    have htotals := (h old hold).totals.rewrite ScanTask.id_cancel (s.stopped now old.id).jobs
      (p := ScanTask.stoppable old.id) same_cancel
      fun task _ hp => by
        rcases (stoppable_eq hp).2 with hst | hst <;> rw [hst] <;>
          exact ⟨by decide, by simp [ScanTask.cancel]⟩
    have htasks : (s.stopped now old.id).jobTasks old.id = (s.jobTasks old.id).map
        (rewritten (ScanTask.stoppable old.id) ScanTask.cancel) :=
      jobTasks_rewritten ScanTask.id_cancel _ same_cancel old.id
    refine ⟨⟨htotals.total, htotals.nonempty, htotals.completed, htotals.success,
      htotals.failed⟩, ?_⟩
    constructor
    · intro hst; cases hst
    · intro hst; cases hst
    · intro hst; cases hst
    · intro _
      rw [ScanJob.id_stop, htasks]
      constructor
      · intro task' htask'
        obtain ⟨task, htask, rfl⟩ := List.mem_map.mp htask'
        unfold rewritten
        split
        · rfl
        · rename_i hsel
          have hjobID := (mem_jobTasks.mp htask).2
          cases hst : task.status with
          | pending => simp [ScanTask.stoppable, hst, hjobID] at hsel
          | leased => simp [ScanTask.stoppable, hst, hjobID] at hsel
          | completed => rfl
          | cancelled => rfl
      · -- a task that is not completed is cancelled now
        obtain ⟨task, htask, hne⟩ := (h old hold).exists_open hactive
        refine ⟨_, List.mem_map_of_mem htask, ?_⟩
        have hnot := (h old hold).no_cancelled
          (fun hst => by simp [ScanJob.active, hst] at hactive) task htask
        have hjobID := (mem_jobTasks.mp htask).2
        have hsel : task.stoppable old.id = true := by
          cases hst : task.status <;> simp_all [ScanTask.stoppable]
        simp [rewritten, hsel, ScanTask.cancel]
    · simp [ScanJob.stop]

/-! ## Submissions

For the job submitted to, the invariant does not survive the single statements: between the
first result and the recount the counters are behind. The proof therefore goes round them,
with the frame for the other jobs (`Elsewhere`) and the recount alone for this one. -/

section Submit

variable {pg : Postgres} {now : Timestamp} {agentID : String} {job : ScanJob} {s s' : ScanStore}

/-- What a batch leaves alone: the jobs, and the tasks and results of other jobs. -/
structure Elsewhere (job : ScanJob) (s s' : ScanStore) : Prop where
  jobs : s'.jobs = s.jobs
  tasks : ∀ other, other ≠ job.id → s'.jobTasks other = s.jobTasks other
  results : ∀ other, other ≠ job.id → ∀ task ∈ s.jobTasks other,
    s'.results.find? task.id = s.results.find? task.id

/-- What a batch does to the tasks of its own job: their number stays, and none is cancelled. -/
structure Here (job : ScanJob) (s s' : ScanStore) : Prop where
  length : (s'.jobTasks job.id).length = (s.jobTasks job.id).length
  cancelled : (∀ task ∈ s.jobTasks job.id, task.status ≠ .cancelled) →
    ∀ task ∈ s'.jobTasks job.id, task.status ≠ .cancelled

theorem recorded_elsewhere (h : Rows pg s) {result : ProbeResult} {agent : UUID} {task : ScanTask}
    {row : ScanResult} (hrecord : RecordOf pg s now agentID job result agent task row) :
    Elsewhere job s (s.recorded now job agent result row) ∧
      Here job s (s.recorded now job agent result row) := by
  have htasks : ∀ jobID, (s.recorded now job agent result row).jobTasks jobID =
      (s.jobTasks jobID).map
        (rewritten (ScanTask.submittable job.id agent result.taskID) (ScanTask.complete now)) :=
    fun jobID => jobTasks_rewritten (ScanTask.id_complete now) s.jobs
      (same_complete now) jobID
  have hversion := (hrecord.resultVersion h).1
  have htaskJob := (submittable_eq hrecord.submittable).2.1
  refine ⟨⟨rfl, fun other hne => ?_, fun other hne task' htask' => ?_⟩, ⟨?_, fun hall => ?_⟩⟩
  · exact jobTasks_untouched (ScanTask.id_complete now) s.jobs (same_complete now)
      fun task' htask' => by
        by_contra hsel
        have := (submittable_eq (by simpa using hsel)).2.1
        exact hne ((mem_jobTasks.mp htask').2.symm.trans this)
  · have hresults : (s.recorded now job agent result row).results = s.results.put row :=
      congrArg s.results.put hversion
    rw [hresults, Table.find?_put, if_neg]
    intro hid
    obtain ⟨hmem, hother⟩ := mem_jobTasks.mp htask'
    have hsame : task = task' :=
      Table.eq_of_key hrecord.mem hmem ((hrecord.row_of h).taskID.symm.trans hid)
    exact hne (hother.symm.trans (hsame ▸ htaskJob))
  · rw [htasks, List.length_map]
  · intro task' htask'
    rw [htasks] at htask'
    obtain ⟨t, ht, rfl⟩ := List.mem_map.mp htask'
    unfold rewritten
    split
    · simp [ScanTask.complete]
    · exact hall t ht

theorem Submitted.elsewhere {results : List ProbeResult}
    (hsubmitted : Submitted pg now agentID job s results s') (h : Rows pg s) :
    Elsewhere job s s' ∧ Here job s s' := by
  induction hsubmitted with
  | nil => exact ⟨⟨rfl, fun _ _ => rfl, fun _ _ _ _ => rfl⟩, ⟨rfl, fun hall => hall⟩⟩
  | cons hrecord _ ih =>
    obtain ⟨helse, hhere⟩ := recorded_elsewhere h hrecord
    obtain ⟨helse', hhere'⟩ := ih (h.recorded hrecord)
    refine ⟨⟨helse'.jobs.trans helse.jobs, fun other hne => ?_, fun other hne task htask => ?_⟩,
      ⟨hhere'.length.trans hhere.length, fun hall => hhere'.cancelled (hhere.cancelled hall)⟩⟩
    · rw [helse'.tasks other hne, helse.tasks other hne]
    · rw [helse'.results other hne task (by rw [helse.tasks other hne]; exact htask),
        helse.results other hne task htask]

/-- The completed tasks are as many as there are tasks exactly when all are completed. -/
theorem completed_ge_length (l : List ScanTask) :
    ((l.countP fun task => decide (task.status = .completed) : Nat) : Int) ≥ l.length ↔
      ∀ task ∈ l, task.status = .completed := by
  have hle := List.countP_le_length (p := fun task : ScanTask => decide (task.status = .completed))
    (l := l)
  constructor
  · intro hge
    have heq := List.countP_eq_length.mp (Nat.le_antisymm hle (Int.ofNat_le.mp hge))
    exact fun task htask => of_decide_eq_true (heq task htask)
  · intro hcompleted
    exact Int.ofNat_le.mpr (Nat.le_of_eq (List.countP_eq_length.mpr fun task htask =>
      decide_eq_true (hcompleted task htask)).symm)

/-- The progress update, over the tasks the batch left. -/
theorem JobOk.progressed (hjob : job ∈ s.jobs.rows)
    (hothers : ∀ other ∈ s.jobs.rows, other.id ≠ job.id → JobOk s other)
    (htotal : job.totalTargets = (s.jobTasks job.id).length) (hnonempty : s.jobTasks job.id ≠ [])
    (hcancelled : ∀ task ∈ s.jobTasks job.id, task.status ≠ .cancelled) :
    ∀ job' ∈ (s.progressed now job.id).jobs.rows, JobOk (s.progressed now job.id) job' := by
  unfold ScanStore.progressed ScanStore.stats
  rw [Table.find?_key hjob]
  simp only [hnonempty, if_false]
  intro job' hjob'
  rcases mem_jobs_updated (ScanJob.id_progress now _) hjob' with
    ⟨hold, hother⟩ | ⟨old, hold, hid, rfl⟩
  · exact (hothers job' hold hother).congr rfl fun _ _ => rfl
  -- the stopped job: its open tasks are cancelled and its totals do not move
  obtain rfl : old = job := Table.eq_of_key hold hjob hid
  refine ⟨⟨htotal, hnonempty, rfl, rfl, rfl⟩, ?_⟩
  have hall := completed_ge_length (s.jobTasks old.id)
  rw [← htotal] at hall
  by_cases hdone : ∀ task ∈ s.jobTasks old.id, task.status = .completed
  · constructor <;> simp only [ScanJob.progress, if_pos (hall.mpr hdone)]
    · intro hst; cases hst
    · intro hst; cases hst
    · exact fun _ => hdone
    · intro hst; cases hst
    · simp
  · constructor <;> simp only [ScanJob.progress, if_neg (mt hall.mp hdone)]
    · intro hst; cases hst
    · intro _
      refine ⟨?_, hcancelled⟩
      by_contra hnone
      exact hdone fun task htask => by
        by_contra hne
        exact hnone ⟨task, htask, hne⟩
    · intro hst; cases hst
    · intro hst; cases hst
    · simp

theorem Submitted.jobTasks_ne_nil (hrows : Rows pg s) (hok : JobOk s job)
    {results : List ProbeResult} (hsubmitted : Submitted pg now agentID job s results s') :
    s'.jobTasks job.id ≠ [] := by
  rw [← List.length_pos_iff_ne_nil, (hsubmitted.elsewhere hrows).2.length]
  exact List.length_pos_of_ne_nil hok.totals.nonempty

/-- The progress update after a batch: it finds its counts, and writes them to the job. -/
theorem Submitted.progressed_jobs (hrows : Rows pg s) (hok : JobOk s job) (hjob : job ∈ s.jobs.rows)
    {results : List ProbeResult} (hsubmitted : Submitted pg now agentID job s results s') :
    ∃ stats : Stats,
      stats.success = (s'.jobTasks job.id).countP (s'.counts (ScanResult.passes job)) ∧
      stats.failed = (s'.jobTasks job.id).countP (s'.counts (ScanResult.fails job)) ∧
      (s'.progressed now job.id).jobs = s.jobs.updateWhere (fun row => decide (row.id = job.id))
        (ScanJob.progress now stats) (ScanJob.id_progress now stats) := by
  unfold ScanStore.progressed ScanStore.stats
  rw [(hsubmitted.elsewhere hrows).1.jobs, Table.find?_key hjob]
  simp only [hsubmitted.jobTasks_ne_nil hrows hok, if_false]
  exact ⟨_, rfl, rfl, rfl⟩

theorem JobOk.submitted (hrows : Rows pg s) (h : ∀ job ∈ s.jobs.rows, JobOk s job)
    {results : List ProbeResult} (hjob : job ∈ s.jobs.rows) (hopen : job.status ≠ .stopped)
    (hsubmitted : Submitted pg now agentID job s results s') :
    ∀ job' ∈ (s'.progressed now job.id).jobs.rows, JobOk (s'.progressed now job.id) job' := by
  obtain ⟨helse, hhere⟩ := hsubmitted.elsewhere hrows
  have hok := h job hjob
  refine JobOk.progressed (helse.jobs ▸ hjob) ?_ ?_ ?_ (hhere.cancelled (hok.no_cancelled hopen))
  · intro other hother hne
    rw [helse.jobs] at hother
    exact (h other hother).congr (helse.tasks other.id hne) (helse.results other.id hne)
  · rw [hhere.length]
    exact hok.totals.total
  · rw [← List.length_pos_iff_ne_nil, hhere.length]
    exact List.length_pos_of_ne_nil hok.totals.nonempty

end Submit

/-! ## Creations -/

/-- The new job: every task under its id is one of the new ones, and pending. -/
theorem JobOk.created {pg : Postgres} {s s' : ScanStore} {job : ScanJob} (hrows : Rows pg s)
    (hc : Created pg s s' job) : JobOk s' job := by
  have hnone : s.jobTasks job.id = [] := by
    refine List.filter_eq_nil_iff.mpr fun task htask => ?_
    obtain ⟨owner, howner, hid⟩ := hrows.owner task htask
    have := Table.find?_eq_none.mp hc.fresh owner howner
    simpa [hid] using this
  have hpending : ∀ task ∈ s'.jobTasks job.id, task.status = .pending := by
    intro task htask
    obtain ⟨hmem, hjobID⟩ := mem_jobTasks.mp htask
    rcases hc.draft.new task hmem with hold | ⟨_, hst, _⟩
    · have : task ∈ s.jobTasks job.id := mem_jobTasks.mpr ⟨hold, hjobID⟩
      rw [hnone] at this
      cases this
    · exact hst
  have hlength : (s'.jobTasks job.id).length = job.totalTargets.toNat := by
    have := hc.draft.count
    rw [hnone] at this
    simpa [ScanStore.jobTasks] using this
  have hpositive := hc.positive
  have hzero : ∀ q : ScanTask → Bool, (∀ task, q task = true → task.status = .completed) →
      (s'.jobTasks job.id).countP q = 0 := by
    intro q hq
    refine List.countP_eq_zero.mpr fun task htask hsel => ?_
    have := hq task hsel
    rw [hpending task htask] at this
    cases this
  -- the counters count completed tasks only
  have hcounts : ∀ condition task, s'.counts condition task = true →
      task.status = .completed := by
    intro condition task hsel
    unfold ScanStore.counts at hsel
    exact of_decide_eq_true (Bool.and_eq_true _ _ ▸ hsel).1
  obtain ⟨hcompleted, hsuccess, hfailed⟩ := hc.zero
  refine ⟨⟨?_, ?_, ?_, ?_, ?_⟩, ⟨fun _ => hpending, ?_, ?_, ?_, ?_⟩⟩
  · rw [hlength]
    omega
  · rw [← List.length_pos_iff_ne_nil, hlength]
    omega
  · rw [hcompleted, hzero _ fun task => of_decide_eq_true]
    rfl
  · rw [hsuccess, hzero _ (hcounts _)]
    rfl
  · rw [hfailed, hzero _ (hcounts _)]
    rfl
  · intro hst; rw [hc.pending] at hst; cases hst
  · intro hst; rw [hc.pending] at hst; cases hst
  · intro hst; rw [hc.pending] at hst; cases hst
  · simp [hc.unfinished, hc.pending]

theorem JobOk.creation {pg : Postgres} {s s' : ScanStore} (hrows : Rows pg s)
    (h : ∀ job ∈ s.jobs.rows, JobOk s job) (hstep : Creation pg s s') :
    ∀ job ∈ s'.jobs.rows, JobOk s' job := by
  rcases hstep with ⟨n, _, rfl⟩ | ⟨job, hc⟩
  · exact fun job hjob => (h job hjob).congr rfl fun _ _ => rfl
  intro job' hjob'
  rw [hc.jobs] at hjob'
  rcases Table.mem_put.mp hjob' with rfl | ⟨hold, hne⟩
  · exact JobOk.created hrows hc
  · exact (h job' hold).congr (hc.draft.others job'.id hne) fun _ _ => by rw [hc.results]

/-! ## Runs

The step lemma over `Step`, the run lemma over `replay`, and the reading of the invariant in
the terms of the API: what `jobs_in_order` says of each job is derived from `JobOk` and the
row invariant at the end, not carried along. -/

theorem JobOk.step {pg : Postgres} {now : Timestamp} {s s' : ScanStore} (hrows : Rows pg s)
    (h : ∀ job ∈ s.jobs.rows, JobOk s job) (hstep : Step pg now s s') :
    ∀ job ∈ s'.jobs.rows, JobOk s' job := by
  cases hstep with
  | creation hcreation => exact JobOk.creation hrows h hcreation
  | @claim agent _ _ hclaim =>
    exact JobOk.leased (s := s.expired agent now) (fun job hjob => (h job hjob).expired agent now)
      hclaim.mem hclaim.active hclaim.nonempty hclaim.claimable
  | submit hjob hopen hsubmitted => exact JobOk.submitted hrows h hjob hopen hsubmitted
  | stop hjob hactive => exact JobOk.stopped h _ hjob hactive

theorem JobOk.steps {pg : Postgres} {now : Timestamp} {s s' : ScanStore} (hrows : Rows pg s)
    (h : ∀ job ∈ s.jobs.rows, JobOk s job)
    (hsteps : Relation.ReflTransGen (Step pg now) s s') : ∀ job ∈ s'.jobs.rows, JobOk s' job := by
  induction hsteps with
  | refl => exact h
  | tail hbefore hstep ih => exact JobOk.step (hrows.steps hbefore) ih hstep

theorem JobOk.replay (pg : Postgres) (start : Timestamp) (events : List Event) :
    ∀ job ∈ (replay pg start events).store.jobs.rows, JobOk (replay pg start events).store job := by
  induction events using List.reverseRecOn with
  | nil => intro job hjob; cases hjob
  | append_singleton events ev ih =>
    have hrows := Rows.replay pg start events
    rw [replay_append]
    cases ev with
    | pass duration => exact ih
    | call op => exact JobOk.steps hrows ih (serve_steps hrows.ready hrows.single _ op)

/-- The books of a job, as a reader of its row and its tasks sees them. -/
structure InOrder (s : ScanStore) (job : ScanJob) : Prop where
  total : job.totalTargets = (s.jobTasks job.id).length ∧ 1 ≤ job.totalTargets
  completed : job.completedTargets =
    (s.jobTasks job.id).countP fun task => decide (task.status = .completed)
  verdicts : job.successTargets + job.failedTargets = job.completedTargets
  pending : job.status = .pending → ∀ task ∈ s.jobTasks job.id, task.status = .pending
  done : job.status = .completed ↔ ∀ task ∈ s.jobTasks job.id, task.status = .completed
  running : job.status = .running → (∃ task ∈ s.jobTasks job.id, task.status ≠ .completed) ∧
    ∀ task ∈ s.jobTasks job.id, task.status ≠ .cancelled
  stopped : job.status = .stopped → ∀ task ∈ s.jobTasks job.id,
    task.status ≠ .pending ∧ task.status ≠ .leased
  finished : job.finishedAt.isSome ↔ job.status = .completed ∨ job.status = .stopped

/-- A result passes or fails, and never both: the two filters are complements. -/
theorem passes_iff_not_fails (job : ScanJob) (row : ScanResult) :
    row.passes job = !row.fails job := by
  simp only [ScanResult.passes, ScanResult.fails, Bool.not_or, Bool.not_not]
  congr 1
  · congr 1
    rw [← decide_not]
    exact decide_eq_decide.mpr Rat.not_lt.symm
  · rw [← decide_not]
    exact decide_eq_decide.mpr Rat.not_lt.symm

theorem countP_verdicts {pg : Postgres} {s : ScanStore} (hrows : Rows pg s) (job : ScanJob)
    {l : List ScanTask} (hl : ∀ task ∈ l, task ∈ s.tasks.rows) :
    l.countP (s.counts (ScanResult.passes job)) + l.countP (s.counts (ScanResult.fails job)) =
      l.countP fun task => decide (task.status = .completed) := by
  induction l with
  | nil => rfl
  | cons task l ih =>
    have hrest := ih fun task' htask' => hl task' (.tail _ htask')
    simp only [List.countP_cons]
    by_cases hst : task.status = .completed
    · obtain ⟨row, hrow, hid⟩ := hrows.result task (hl task (.head _)) hst
      have hfound : s.results.find? task.id = some row := hid ▸ Table.find?_key hrow
      simp only [ScanStore.counts, hst, hfound, passes_iff_not_fails, decide_true, Bool.true_and]
      cases row.fails job <;> simp <;> omega
    · simp only [ScanStore.counts, hst, decide_false, Bool.false_and]
      simpa using hrest

theorem JobOk.inOrder {pg : Postgres} {s : ScanStore} (hrows : Rows pg s) {job : ScanJob}
    (h : JobOk s job) : InOrder s job where
  total := by
    have := List.length_pos_of_ne_nil h.totals.nonempty
    exact ⟨h.totals.total, by rw [h.totals.total]; omega⟩
  completed := h.totals.completed
  verdicts := by
    have := countP_verdicts hrows job (l := s.jobTasks job.id) fun _ ht => (mem_jobTasks.mp ht).1
    rw [h.totals.success, h.totals.failed, h.totals.completed]
    omega
  pending := h.phase.pending
  done := by
    refine ⟨h.phase.completed, fun hall => ?_⟩
    cases hst : job.status with
    | completed => rfl
    | pending =>
      obtain ⟨task, htask⟩ := List.exists_mem_of_ne_nil _ h.totals.nonempty
      have := h.phase.pending hst task htask
      rw [hall task htask] at this
      cases this
    | running =>
      obtain ⟨⟨task, htask, hne⟩, _⟩ := h.phase.running hst
      exact absurd (hall task htask) hne
    | stopped =>
      obtain ⟨_, task, htask, hcancelled⟩ := h.phase.stopped hst
      rw [hall task htask] at hcancelled
      cases hcancelled
  running := h.phase.running
  stopped := by
    intro hst task htask
    have hfinal := (h.phase.stopped hst).1 task htask
    constructor <;> intro heq <;> rw [heq] at hfinal <;> cases hfinal
  finished := h.phase.finished

def ScanStore.InOrder (s : ScanStore) : Prop := ∀ job ∈ s.jobs.rows, Scan.InOrder s job

/-- **Every job is in order**, whatever calls were made, in whatever order and at whatever times. -/
theorem jobs_in_order (pg : Postgres) (start : Timestamp) (events : List Event) :
    (replay pg start events).store.InOrder := fun job hjob =>
  (JobOk.replay pg start events job hjob).inOrder (Rows.replay pg start events)

end Cfscan.Scan
