import Cfscan.Scan.Progress

/-!
# A job that is over stays over

A completed or stopped job is neither claimed from, nor submitted to, nor stopped: every task of a
completed job is completed, so that no batch with a result in it is accepted.

That a completed job stays so is a matter of its tasks, and of the fact that no task is ever added
to a job. `Sound` puts the two invariants together for the developments that only need to know that
a database was reached.
-/

set_option autoImplicit false

namespace Cfscan.Scan

open Cfscan.Lib Cfscan.Store

/-- The jobs of `s` are in `s'` too, and those that were over still are. -/
def JobsKept (s s' : ScanStore) : Prop :=
  ∀ job ∈ s.jobs.rows, ∃ job' ∈ s'.jobs.rows, job'.id = job.id ∧
    (job.active = false → job'.active = false)

theorem JobsKept.refl (s : ScanStore) : JobsKept s s := fun job hjob => ⟨job, hjob, rfl, id⟩

theorem JobsKept.trans {s s' s'' : ScanStore} (h : JobsKept s s') (h' : JobsKept s' s'') :
    JobsKept s s'' := by
  intro job hjob
  obtain ⟨job', hjob', hid, hover⟩ := h job hjob
  obtain ⟨job'', hjob'', hid', hover'⟩ := h' job' hjob'
  exact ⟨job'', hjob'', hid'.trans hid, hover' ∘ hover⟩

/-- The rows and the jobs of a database the calls can reach. -/
structure Sound (pg : Postgres) (s : ScanStore) : Prop where
  rows : Rows pg s
  jobs : ∀ job ∈ s.jobs.rows, JobOk s job

section Kept

variable {pg : Postgres} {now : Timestamp} {s s' : ScanStore}

theorem Sound.empty (pg : Postgres) : Sound pg .empty :=
  ⟨.empty pg, fun _ hjob => absurd hjob List.not_mem_nil⟩

theorem Sound.steps (h : Sound pg s) (hsteps : Relation.ReflTransGen (Step pg now) s s') :
    Sound pg s' :=
  ⟨h.rows.steps hsteps, JobOk.steps h.rows h.jobs hsteps⟩

theorem Sound.serve (h : Sound pg s) (now : Timestamp) (op : Op) :
    Sound pg (serve pg now s op).2 :=
  h.steps (serve_steps h.rows.ready h.rows.single now op)

/-- An update of one job, when it is not one that is over, or leaves it so. -/
theorem JobsKept.update (jobID : UUID) {f : ScanJob → ScanJob} (hf : ∀ job, (f job).id = job.id)
    (hjobs : s'.jobs = s.jobs.updateWhere (fun row => decide (row.id = jobID)) f hf)
    (hover : ∀ job ∈ s.jobs.rows, job.id = jobID → job.active = false → (f job).active = false) :
    JobsKept s s' := by
  intro job hjob
  have hmem : (if decide (job.id = jobID) then f job else job) ∈
      (s.jobs.updateWhere (fun row => decide (row.id = jobID)) f hf).rows :=
    Table.mem_updateWhere_of_mem hjob
  rw [← hjobs] at hmem
  refine ⟨_, hmem, ?_, fun hactive => ?_⟩
  · split
    · exact hf job
    · rfl
  · split
    · rename_i hid
      exact hover job hjob (by simpa using hid) hactive
    · exact hactive

/-- A batch accepted for a completed job is empty. -/
theorem Submitted.of_completed {agentID : String} {job : ScanJob} {results : List ProbeResult}
    (h : JobOk s job) (hstatus : job.status = .completed)
    (hsubmitted : Submitted pg now agentID job s results s') : s' = s := by
  cases hsubmitted with
  | nil => rfl
  | cons hrecord _ =>
    obtain ⟨_, hjob, _, hleased⟩ := submittable_eq hrecord.submittable
    have := h.phase.completed hstatus _ (mem_jobTasks.mpr ⟨hrecord.mem, hjob⟩)
    rw [this] at hleased
    cases hleased

/-- The progress of a completed job finds it completed. -/
theorem progress_completed {job : ScanJob} {stats : Stats} (hjob : job ∈ s.jobs.rows)
    (h : JobOk s job) (hstatus : job.status = .completed)
    (hstats : s.stats job.id = some stats) : (job.progress now stats).active = false := by
  simp only [ScanStore.stats, Table.find?_key hjob, if_neg h.totals.nonempty,
    Option.some.injEq] at hstats
  subst hstats
  have hge : (((s.jobTasks job.id).countP fun task => decide (task.status = .completed) :
      Nat) : Int) ≥ job.totalTargets := by
    rw [h.totals.total]
    exact (completed_ge_length _).mpr (h.phase.completed hstatus)
  simp [ScanJob.active, ScanJob.progress, hge]

theorem JobsKept.submit (hsound : Sound pg s) {job : ScanJob} {agentID : String}
    {results : List ProbeResult} (hjob : job ∈ s.jobs.rows) (hopen : job.status ≠ .stopped)
    (hsubmitted : Submitted pg now agentID job s results s') :
    JobsKept s (s'.progressed now job.id) := by
  have hjobs : s'.jobs = s.jobs := (hsubmitted.elsewhere hsound.rows).1.jobs
  unfold ScanStore.progressed
  split
  · intro row hrow
    exact ⟨row, by rwa [hjobs], rfl, id⟩
  · rename_i stats hstats
    refine JobsKept.update job.id (ScanJob.id_progress now stats) (by simp only [hjobs])
      fun row hrow hid hover => ?_
    obtain rfl : row = job := Table.eq_of_key hrow hjob hid
    -- not stopped and not active is completed, and then nothing was submitted
    have hstatus : row.status = .completed := by
      simp only [ScanJob.active, Bool.or_eq_false_iff, decide_eq_false_iff_not] at hover
      cases hst : row.status <;> simp_all
    obtain rfl := Submitted.of_completed (hsound.jobs row hrow) hstatus hsubmitted
    exact progress_completed hrow (hsound.jobs row hrow) hstatus hstats

theorem JobsKept.step (hsound : Sound pg s) (hstep : Step pg now s s') : JobsKept s s' := by
  cases hstep with
  | creation hcreation =>
    rcases hcreation with ⟨n, _, rfl⟩ | ⟨new, hc⟩
    · exact .refl s
    · intro job hjob
      refine ⟨job, ?_, rfl, id⟩
      rw [hc.jobs]
      exact Table.mem_put.mpr (Or.inr ⟨hjob, Table.find?_eq_none.mp hc.fresh job hjob⟩)
  | @claim agent job ids hclaim =>
    refine JobsKept.update job.id (ScanJob.id_start now) rfl fun row hrow hid hover => ?_
    rw [Table.eq_of_key hrow hclaim.mem hid, hclaim.active] at hover
    cases hover
  | submit hjob hopen hsubmitted => exact .submit hsound hjob hopen hsubmitted
  | @stop job hjob hactive =>
    refine JobsKept.update job.id (ScanJob.id_stop now) rfl fun row hrow hid hover => ?_
    rw [Table.eq_of_key hrow hjob hid, hactive] at hover
    cases hover

theorem JobsKept.steps (hsound : Sound pg s)
    (hsteps : Relation.ReflTransGen (Step pg now) s s') : JobsKept s s' := by
  induction hsteps with
  | refl => exact .refl s
  | tail hbefore hstep ih => exact ih.trans (.step (hsound.steps hbefore) hstep)

theorem JobsKept.serve (hsound : Sound pg s) (now : Timestamp) (op : Op) :
    JobsKept s (serve pg now s op).2 :=
  .steps hsound (serve_steps hsound.rows.ready hsound.rows.single now op)

end Kept

end Cfscan.Scan
