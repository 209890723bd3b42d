import Cfscan.Scan.Run
import Mathlib.Data.List.Induction

/-!
# The rows and what ties them together

`Rows` is the part of the invariant that is about single rows: every task has a job, results are
exactly the results of completed tasks, and addresses read back as what they are. It makes the
`ON CONFLICT` branch of the result insert unreachable, which is why a result never changes.

Nothing in it is about times or leases, nor about the number of tasks a job has. An invariant of
this kind is kept by every call for a reason of its own, and the lemmas come in that order:
statements that rewrite tasks, the two calls that create, one result, and then the transactions as a
whole.
-/

set_option autoImplicit false

namespace Cfscan.Scan

open Cfscan.Lib Cfscan.Store

/-- The columns of a task that no statement writes. -/
structure SameTask (t t' : ScanTask) : Prop where
  id : t'.id = t.id
  jobID : t'.jobID = t.jobID
  agent : t'.preferredAgentID = t.preferredAgentID
  targetIP : t'.targetIP = t.targetIP
  targetPrefix : t'.targetPrefix = t.targetPrefix

theorem SameTask.refl (t : ScanTask) : SameTask t t := ⟨rfl, rfl, rfl, rfl, rfl⟩

theorem SameTask.trans {t t' t'' : ScanTask} (h : SameTask t t') (h' : SameTask t' t'') :
    SameTask t t'' :=
  ⟨h'.id.trans h.id, h'.jobID.trans h.jobID, h'.agent.trans h.agent,
    h'.targetIP.trans h.targetIP, h'.targetPrefix.trans h.targetPrefix⟩

theorem same_expire (task : ScanTask) : SameTask task task.expire := ⟨rfl, rfl, rfl, rfl, rfl⟩

theorem same_lease (now : Timestamp) (task : ScanTask) : SameTask task (task.lease now) :=
  ⟨rfl, rfl, rfl, rfl, rfl⟩

theorem same_complete (now : Timestamp) (task : ScanTask) : SameTask task (task.complete now) :=
  ⟨rfl, rfl, rfl, rfl, rfl⟩

theorem same_cancel (task : ScanTask) : SameTask task task.cancel := ⟨rfl, rfl, rfl, rfl, rfl⟩

theorem SameTask.readable {pg : Postgres} {t t' : ScanTask} (h : SameTask t t')
    (hread : t.Readable pg) : t'.Readable pg := by
  unfold ScanTask.Readable ScanTask.prefixText at *
  rw [h.targetIP, h.targetPrefix]
  exact hread

/-- The result of a task: its job, its agent, its address and its prefix. -/
structure ScanResult.Of (row : ScanResult) (task : ScanTask) : Prop where
  taskID : row.taskID = task.id
  jobID : row.jobID = task.jobID
  agent : row.agentID = task.preferredAgentID
  targetIP : row.targetIP = ⟨task.targetIP.host, none⟩
  targetPrefix : row.targetPrefix = task.targetPrefix

theorem ScanResult.Of.same {row : ScanResult} {t t' : ScanTask} (h : row.Of t)
    (hsame : SameTask t t') : row.Of t' :=
  ⟨h.taskID.trans hsame.id.symm, h.jobID.trans hsame.jobID.symm, h.agent.trans hsame.agent.symm,
    by rw [h.targetIP, hsame.targetIP], h.targetPrefix.trans hsame.targetPrefix.symm⟩

structure Rows (pg : Postgres) (s : ScanStore) : Prop where
  owner : ∀ task ∈ s.tasks.rows, ∃ job ∈ s.jobs.rows, job.id = task.jobID
  fresh : ∀ task ∈ s.tasks.rows, task.id < s.taskSeq
  readable : ∀ task ∈ s.tasks.rows, task.Readable pg
  filed : ∀ row ∈ s.results.rows, ∃ task ∈ s.tasks.rows, task.status = .completed ∧ row.Of task
  result : ∀ task ∈ s.tasks.rows, task.status = .completed →
    ∃ row ∈ s.results.rows, row.taskID = task.id
  single : ∀ entry ∈ s.blacklist.rows, entry.Single pg

theorem Rows.ready {pg : Postgres} {s : ScanStore} (h : Rows pg s) : RecheckReady pg s :=
  ⟨h.owner, h.fresh⟩

theorem Rows.empty (pg : Postgres) : Rows pg .empty := by
  constructor <;> intro _ h <;> cases h

/-- A task without the status `completed` has no result. -/
theorem Rows.no_result {pg : Postgres} {s : ScanStore} (h : Rows pg s) {task : ScanTask}
    (htask : task ∈ s.tasks.rows) (hstatus : task.status ≠ .completed) :
    s.results.find? task.id = none := by
  refine Table.find?_eq_none.mpr fun row hrow hid => ?_
  obtain ⟨task', htask', hcompleted, hof⟩ := h.filed row hrow
  have : task' = task := Table.eq_of_key htask' htask (hof.taskID.symm.trans hid)
  exact hstatus (this ▸ hcompleted)

/-! ## Statements that rewrite tasks

Expiry, lease, completion and cancellation write the status and its times, never whose task
it is or what it is for (`SameTask`). One lemma about such rewritings serves all four. -/

section Rewrite

variable {pg : Postgres} {s : ScanStore} {p : ScanTask → Bool} {f : ScanTask → ScanTask}
  {hf : ∀ task, (f task).id = task.id}

/-- The rewriting of an `UPDATE`, as a function on all rows. -/
def rewritten (p : ScanTask → Bool) (f : ScanTask → ScanTask) (task : ScanTask) : ScanTask :=
  if p task then f task else task

theorem rewritten_same (hsame : ∀ task, SameTask task (f task)) (task : ScanTask) :
    SameTask task (rewritten p f task) := by
  unfold rewritten
  split
  · exact hsame task
  · exact .refl task

theorem mem_rewritten (hf : ∀ task, (f task).id = task.id) {task' : ScanTask} :
    task' ∈ (s.tasks.updateWhere p f hf).rows ↔ ∃ task ∈ s.tasks.rows, rewritten p f task = task' :=
  Table.mem_updateWhere

/-- An update that moves no task into or out of `completed`. -/
theorem Rows.rewrite (h : Rows pg s) (hsame : ∀ task, SameTask task (f task))
    (hopen : ∀ task, p task = true → task.status ≠ .completed ∧ (f task).status ≠ .completed)
    {jobs' : Table UUID ScanJob ScanJob.id}
    (hjobs : ∀ job ∈ s.jobs.rows, ∃ job' ∈ jobs'.rows, job'.id = job.id) :
    Rows pg { s with tasks := s.tasks.updateWhere p f hf, jobs := jobs' } := by
  have hcompleted : ∀ task, (rewritten p f task).status = .completed ↔
      task.status = .completed := by
    intro task
    unfold rewritten
    split
    · rename_i hp
      exact ⟨fun hc => absurd hc (hopen task hp).2, fun hc => absurd hc (hopen task hp).1⟩
    · exact Iff.rfl
  have hmem : ∀ task', task' ∈ (s.tasks.updateWhere p f hf).rows ↔
      ∃ task ∈ s.tasks.rows, rewritten p f task = task' := fun _ => mem_rewritten hf
  constructor
  · intro task' htask'
    obtain ⟨task, htask, rfl⟩ := (hmem task').mp htask'
    obtain ⟨job, hjob, hid⟩ := h.owner task htask
    obtain ⟨job', hjob', hid'⟩ := hjobs job hjob
    exact ⟨job', hjob', by rw [hid', hid, (rewritten_same hsame task).jobID]⟩
  · intro task' htask'
    obtain ⟨task, htask, rfl⟩ := (hmem task').mp htask'
    rw [(rewritten_same hsame task).id]
    exact h.fresh task htask
  · intro task' htask'
    obtain ⟨task, htask, rfl⟩ := (hmem task').mp htask'
    exact (rewritten_same hsame task).readable (h.readable task htask)
  · intro row hrow
    obtain ⟨task, htask, hst, hof⟩ := h.filed row hrow
    exact ⟨_, (hmem _).mpr ⟨task, htask, rfl⟩, (hcompleted task).mpr hst,
      hof.same (rewritten_same hsame task)⟩
  · intro task' htask' hst
    obtain ⟨task, htask, rfl⟩ := (hmem task').mp htask'
    rw [(rewritten_same hsame task).id]
    exact h.result task htask ((hcompleted task).mp hst)
  · exact h.single

end Rewrite

theorem leaseExpired_leased {agent : UUID} {now : Timestamp} {task : ScanTask}
    (h : task.leaseExpired agent now = true) : task.status = .leased := by
  simp only [ScanTask.leaseExpired, Bool.and_eq_true, decide_eq_true_eq] at h
  exact h.1.2

theorem claimable_eq {jobID agent : UUID} {task : ScanTask}
    (h : task.claimable jobID agent = true) :
    task.jobID = jobID ∧ task.preferredAgentID = agent ∧ task.status = .pending := by
  simpa [ScanTask.claimable, and_assoc] using h

theorem submittable_eq {jobID agent : UUID} {taskID : Int} {task : ScanTask}
    (h : task.submittable jobID agent taskID = true) :
    task.id = taskID ∧ task.jobID = jobID ∧ task.preferredAgentID = agent ∧
      task.status = .leased := by
  simpa [ScanTask.submittable, and_assoc] using h

theorem stoppable_eq {jobID : UUID} {task : ScanTask} (h : task.stoppable jobID = true) :
    task.jobID = jobID ∧ (task.status = .pending ∨ task.status = .leased) := by
  simpa [ScanTask.stoppable] using h

/-- A job update keeps the ids there are. -/
theorem jobs_kept {t : Table UUID ScanJob ScanJob.id} {p : ScanJob → Bool} {f : ScanJob → ScanJob}
    (hf : ∀ job, (f job).id = job.id) (job : ScanJob) (hjob : job ∈ t.rows) :
    ∃ job' ∈ (t.updateWhere p f hf).rows, job'.id = job.id := by
  refine ⟨_, Table.mem_updateWhere_of_mem hjob, ?_⟩
  split
  · exact hf job
  · rfl

theorem Rows.expired {pg : Postgres} {s : ScanStore} (h : Rows pg s) (agent : UUID)
    (now : Timestamp) : Rows pg (s.expired agent now) :=
  h.rewrite same_expire
    (fun task hp => by
      rw [leaseExpired_leased hp]
      exact ⟨by decide, by simp [ScanTask.expire]⟩)
    fun job hjob => ⟨job, hjob, rfl⟩

/-- The tasks a claim hands out are pending ones. -/
theorem Rows.leased {pg : Postgres} {s : ScanStore} (h : Rows pg s) {now : Timestamp}
    {jobID agent : UUID} {ids : List Int}
    (hids : ∀ id ∈ ids, ∃ task ∈ s.tasks.rows, task.id = id ∧ task.claimable jobID agent = true) :
    Rows pg (s.leased now jobID ids) := by
  -- on the rows of the table, an id of the list is an id of a pending task
  have hpending : ∀ task ∈ s.tasks.rows, (decide (task.id ∈ ids)) =
      (decide (task.id ∈ ids) && decide (task.status = .pending)) := by
    intro task htask
    by_cases hid : task.id ∈ ids
    · obtain ⟨task', htask', hsame, hclaimable⟩ := hids _ hid
      rw [← Table.eq_of_key htask' htask hsame]
      simp [(claimable_eq hclaimable).2.2]
    · simp [hid]
  unfold ScanStore.leased
  rw [Table.updateWhere_congr hpending]
  refine h.rewrite (same_lease now) (fun task hp => ?_) (jobs_kept (ScanJob.id_start now))
  simp only [Bool.and_eq_true, decide_eq_true_eq] at hp
  rw [hp.2]
  exact ⟨by decide, by simp [ScanTask.lease]⟩

theorem Rows.stopped {pg : Postgres} {s : ScanStore} (h : Rows pg s) (now : Timestamp)
    (jobID : UUID) : Rows pg (s.stopped now jobID) :=
  h.rewrite same_cancel
    (fun task hp => by
      rcases (stoppable_eq hp).2 with hst | hst <;> rw [hst] <;>
        exact ⟨by decide, by simp [ScanTask.cancel]⟩)
    (jobs_kept (ScanJob.id_stop now))

theorem Rows.progressed {pg : Postgres} {s : ScanStore} (h : Rows pg s) (now : Timestamp)
    (jobID : UUID) : Rows pg (s.progressed now jobID) := by
  unfold ScanStore.progressed
  split
  · exact h
  · rename_i stats _
    refine ⟨fun task htask => ?_, h.fresh, h.readable, h.filed, h.result, h.single⟩
    obtain ⟨job, hjob, hid⟩ := h.owner task htask
    obtain ⟨job', hjob', hid'⟩ := jobs_kept (ScanJob.id_progress now stats) job hjob
    exact ⟨job', hjob', hid'.trans hid⟩

/-! ## Creations -/

theorem Rows.creation {pg : Postgres} {s s' : ScanStore} (h : Rows pg s)
    (hstep : Creation pg s s') : Rows pg s' := by
  have hready := h.ready.creation hstep
  rcases hstep with ⟨n, _, rfl⟩ | ⟨job, hc⟩
  · exact ⟨hready.owner, hready.fresh, h.readable, h.filed, h.result, h.single⟩
  · refine ⟨hready.owner, hready.fresh, ?_, ?_, ?_, ?_⟩
    · intro task htask
      rcases hc.draft.new task htask with hold | ⟨_, _, _, _, hread⟩
      · exact h.readable task hold
      · exact hread
    · intro row hrow
      rw [hc.results] at hrow
      obtain ⟨task, htask, hst, hof⟩ := h.filed row hrow
      exact ⟨task, hc.draft.old task htask, hst, hof⟩
    · intro task htask hst
      rw [hc.results]
      rcases hc.draft.new task htask with hold | ⟨_, hpending, _⟩
      · exact h.result task hold hst
      · rw [hpending] at hst; cases hst
    · intro entry hentry
      -- the entry is a later version of one under the same key
      have hrecord := hc.blacklist entry.key
      rw [Table.find?_key hentry] at hrecord
      obtain ⟨old, hold, _⟩ := Option.map_eq_some_iff.mp hrecord.symm
      have hkey := Table.key_of_find? hold
      have hip : old.targetIP = entry.targetIP := congrArg Prod.snd hkey
      have hsingle := h.single old (Table.mem_of_find? hold)
      unfold BlacklistEntry.Single at hsingle ⊢
      rwa [← hip]

/-! ## Submissions

The insertion of a result never meets an old row: a submitted task is leased, and only
completed tasks have results. So the `ON CONFLICT` branch of the upsert, though modelled, is
not taken in any run. -/

section Record

variable {pg : Postgres} {s : ScanStore} {now : Timestamp} {agentID : String} {job : ScanJob}
  {result : ProbeResult} {agent : UUID} {task : ScanTask} {row : ScanResult}

/-- The inserted row is the result of its task. -/
theorem RecordOf.row_of (hrecord : RecordOf pg s now agentID job result agent task row)
    (h : Rows pg s) : row.Of task := by
  obtain ⟨hid, hjob, hagent, _⟩ := submittable_eq hrecord.submittable
  obtain ⟨hip, hcidr⟩ := h.readable task hrecord.mem
  have hbuilt := hrecord.built
  simp only [ProbeResult.row, hip, hcidr, Option.bind_eq_bind, Option.bind_some,
    Option.bind_eq_some_iff] at hbuilt
  obtain ⟨_, _, _, _, _, _, hrow⟩ := hbuilt
  cases hrow
  exact ⟨hid.symm, hjob.symm, hagent.symm, rfl, rfl⟩

/-- **The conflict branch of the result insert is unreachable**: the task was leased, and only
completed tasks have a result. -/
theorem RecordOf.resultVersion (hrecord : RecordOf pg s now agentID job result agent task row)
    (h : Rows pg s) : s.resultVersion row = row ∧ s.results.find? row.taskID = none := by
  have hnone : s.results.find? row.taskID = none := by
    rw [(hrecord.row_of h).taskID]
    refine h.no_result hrecord.mem ?_
    rw [(submittable_eq hrecord.submittable).2.2.2]
    decide
  exact ⟨by simp [ScanStore.resultVersion, hnone], hnone⟩

theorem reblacklisted_single (h : ∀ entry ∈ s.blacklist.rows, entry.Single pg) {targetIP : Inet}
    (hmask : targetIP.netmask = none) (hip : pg.inet targetIP.host = some targetIP)
    (reason : String) :
    ∀ entry ∈ (s.reblacklisted now job agent targetIP reason).rows, entry.Single pg := by
  intro entry hentry
  unfold ScanStore.reblacklisted at hentry
  split at hentry
  · split at hentry
    · rcases Table.mem_put.mp hentry with rfl | ⟨hold, _⟩
      · exact ⟨hmask, hip⟩
      · exact h entry hold
    · rename_i old hold
      rcases Table.mem_put.mp hentry with rfl | ⟨hrest, _⟩
      · exact h old (Table.mem_of_find? hold)
      · exact h entry hrest
  · exact h entry (Table.mem_erase.mp hentry).1

theorem Rows.recorded (h : Rows pg s)
    (hrecord : RecordOf pg s now agentID job result agent task row) :
    Rows pg (s.recorded now job agent result row) := by
  have hof := hrecord.row_of h
  obtain ⟨hversion, hnone⟩ := hrecord.resultVersion h
  have htasks : ∀ task', task' ∈ (s.recorded now job agent result row).tasks.rows ↔
      ∃ t ∈ s.tasks.rows, rewritten (ScanTask.submittable job.id agent result.taskID)
        (ScanTask.complete now) t = task' :=
    fun _ => mem_rewritten (ScanTask.id_complete now)
  have hsame : ∀ t, SameTask t (rewritten (ScanTask.submittable job.id agent result.taskID)
      (ScanTask.complete now) t) := rewritten_same (same_complete now)
  have hresults : (s.recorded now job agent result row).results = s.results.put row :=
    congrArg s.results.put hversion
  constructor
  · intro task' htask'
    obtain ⟨t, ht, rfl⟩ := (htasks task').mp htask'
    rw [(hsame t).jobID]
    exact h.owner t ht
  · intro task' htask'
    obtain ⟨t, ht, rfl⟩ := (htasks task').mp htask'
    rw [(hsame t).id]
    exact h.fresh t ht
  · intro task' htask'
    obtain ⟨t, ht, rfl⟩ := (htasks task').mp htask'
    exact (hsame t).readable (h.readable t ht)
  · intro row' hrow'
    rw [hresults] at hrow'
    -- the new result is that of the task just completed; the older ones keep theirs
    rcases Table.mem_put.mp hrow' with rfl | ⟨hold, _⟩
    · refine ⟨_, (htasks _).mpr ⟨task, hrecord.mem, rfl⟩, ?_, hof.same (hsame task)⟩
      simp [rewritten, hrecord.submittable, ScanTask.complete]
    · obtain ⟨t, ht, hst, hof'⟩ := h.filed row' hold
      refine ⟨_, (htasks _).mpr ⟨t, ht, rfl⟩, ?_, hof'.same (hsame t)⟩
      unfold rewritten
      split
      · rfl
      · exact hst
  · intro task' htask' hst
    obtain ⟨t, ht, rfl⟩ := (htasks task').mp htask'
    rw [hresults, (hsame t).id]
    -- a completed task is the one just completed, or was completed before
    by_cases hsel : t.submittable job.id agent result.taskID = true
    · have hid : t.id = task.id :=
        (submittable_eq hsel).1.trans (submittable_eq hrecord.submittable).1.symm
      exact ⟨row, Table.mem_put_self, hof.taskID.trans hid.symm⟩
    · rw [rewritten, if_neg hsel] at hst
      obtain ⟨row', hrow', hid⟩ := h.result t ht hst
      exact ⟨row', Table.mem_put.mpr (Or.inr ⟨hrow', Table.find?_eq_none.mp hnone row' hrow'⟩), hid⟩
  · refine reblacklisted_single h.single ?_ ?_ _
    · rw [hof.targetIP]
    · rw [hof.targetIP]
      exact (h.readable task hrecord.mem).1

theorem Submitted.rows {results : List ProbeResult} {s' : ScanStore}
    (hsubmitted : Submitted pg now agentID job s results s') (h : Rows pg s) : Rows pg s' := by
  induction hsubmitted with
  | nil => exact h
  | cons hrecord _ ih => exact ih (h.recorded hrecord)

end Record

theorem Rows.step {pg : Postgres} {now : Timestamp} {s s' : ScanStore} (h : Rows pg s)
    (hstep : Step pg now s s') : Rows pg s' := by
  cases hstep with
  | creation hcreation => exact h.creation hcreation
  | claim hclaim => exact (h.expired _ _).leased hclaim.claimable
  | submit _ _ hsubmitted => exact (hsubmitted.rows h).progressed _ _
  | stop => exact h.stopped _ _

theorem Rows.steps {pg : Postgres} {now : Timestamp} {s s' : ScanStore} (h : Rows pg s)
    (hsteps : Relation.ReflTransGen (Step pg now) s s') : Rows pg s' := by
  induction hsteps with
  | refl => exact h
  | tail _ hstep ih => exact ih.step hstep

/-- The invariant after any run. -/
theorem Rows.replay (pg : Postgres) (start : Timestamp) (events : List Event) :
    Rows pg (replay pg start events).store := by
  induction events using List.reverseRecOn with
  | nil => exact .empty pg
  | append_singleton events ev ih =>
    rw [replay_append]
    cases ev with
    | pass duration => exact ih
    | call op => exact ih.steps (serve_steps ih.ready ih.single _ op)

end Cfscan.Scan
