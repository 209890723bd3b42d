import Cfscan.Scan.Settled
import Cfscan.Schedule.Runner

/-!
# Runs that do not overlap

The claim looks at one job only, the one `last_job_id` names. `Careful` says when that is enough:
no run holds a job it has not recorded, and no record takes the name of a job that is still
active off the row. Then every active job of a schedule is the one its row names.

`Named` is the invariant: the row of a schedule names the active job of every run that has been
recorded. The claim asks for that job, so that a run which **has not** been recorded is what it does
not see, and a record that puts another job, or none, in the place of an active one is what makes it
blind. `Careful` rules out these two at the acts where they happen, a tick and a record.

A run started by hand asks for no active job at all, which is why it is not part of `NoOverlap`, and
why it can be the one that makes the next tick overlap (`overlap_after_failure`).
-/

set_option autoImplicit false

namespace Cfscan.Schedule

open Cfscan.Lib Cfscan.Store Cfscan.Scan

/-! ## The law and the condition

Two jobs of one schedule overlap if both are active. The law is asked of the ticks, since
only a tick is meant to look whether a job is still active. -/

/-- A job that a run of the schedule created is pending or running. -/
def Overlaps (w : World) (scheduleID : UUID) : Prop :=
  ∃ run ∈ w.runs, run.item.id = scheduleID ∧ ∃ job ∈ run.job, activeJob w.scan job = true

instance (w : World) (scheduleID : UUID) : Decidable (Overlaps w scheduleID) :=
  inferInstanceAs (Decidable (∃ run ∈ w.runs, _ ∧ ∃ job ∈ run.job, _))

/-- A tick claims no schedule that has an active job. -/
def NoOverlap (w : World) : Act → Prop
  | .tick age locked tie => ∀ item ∈ (w.claim age locked tie).1, ¬ Overlaps w item.id
  | _ => True

instance (w : World) : (a : Act) → Decidable (NoOverlap w a)
  | .tick age locked tie =>
    inferInstanceAs (Decidable (∀ item ∈ (w.claim age locked tie).1, ¬ Overlaps w item.id))
  | .pass _ | .createSchedule _ _ | .updateSchedule _ _ | .runNow _ | .create _ _ _ _ _ _
  | .giveUp _ _ | .record _ | .scan _ => inferInstanceAs (Decidable True)

/-- The claim is not blind: when a tick comes, no run of a due schedule holds an active job that it
has not recorded; and a record puts its own job, or none, in the place of no other that is
active. -/
def Careful (w : World) : Act → Prop
  | .tick age locked _ =>
    ∀ row ∈ w.schedules.rows, row.due (activeJob w.scan) (w.clock - age) = true →
      locked row.id = false → ∀ run ∈ w.runs, run.item.id = row.id → run.recorded = false →
        ∀ job ∈ run.job, activeJob w.scan job = false
  | .record n =>
    ∀ run ∈ w.runs[n]?, ∀ outcome ∈ run.unrecorded,
      lastErrorText (outcome.error run.trigger) ≠ none →
        ∀ row ∈ w.schedules.rows, row.id = run.item.id →
          ∀ old ∈ row.lastJobID, outcome.job ≠ some old → activeJob w.scan old = false
  | _ => True

instance (w : World) : (a : Act) → Decidable (Careful w a)
  | .tick age locked _ =>
    inferInstanceAs (Decidable (∀ row ∈ w.schedules.rows,
      row.due (activeJob w.scan) (w.clock - age) = true → locked row.id = false →
        ∀ run ∈ w.runs, run.item.id = row.id → run.recorded = false →
          ∀ job ∈ run.job, activeJob w.scan job = false))
  | .record n =>
    inferInstanceAs (Decidable (∀ run ∈ w.runs[n]?, ∀ outcome ∈ run.unrecorded,
      lastErrorText (outcome.error run.trigger) ≠ none →
        ∀ row ∈ w.schedules.rows, row.id = run.item.id →
          ∀ old ∈ row.lastJobID, outcome.job ≠ some old → activeJob w.scan old = false))
  | .pass _ | .createSchedule _ _ | .updateSchedule _ _ | .runNow _ | .create _ _ _ _ _ _
  | .giveUp _ _ | .scan _ => inferInstanceAs (Decidable True)

/-! ## The invariant

`Named` ties the runs to the rows they were claimed from. It is not enough that the row
names some active job of the schedule: it has to name every one, which is why there is one
at most. -/

structure Named (pg : Postgres) (w : World) : Prop where
  sound : Sound pg w.scan
  placed : ∀ run ∈ w.runs, ∃ row ∈ w.schedules.rows, row.id = run.item.id
  known : ∀ run ∈ w.runs, ∀ job ∈ run.job, ∃ row ∈ w.scan.jobs.rows, row.id = job
  /-- The row names the active job of a run that is recorded. -/
  named : ∀ run ∈ w.runs, run.recorded = true → ∀ job ∈ run.job, activeJob w.scan job = true →
    ∀ row ∈ w.schedules.rows, row.id = run.item.id → row.lastJobID = some job

section Named

variable {pg : Postgres} {cron : Cron} {w : World} {s' : ScanStore}

theorem Named.start (pg : Postgres) (clock : Timestamp) : Named pg (World.start clock) :=
  ⟨.empty pg, fun _ h => absurd h List.not_mem_nil, fun _ h => absurd h List.not_mem_nil,
    fun _ h => absurd h List.not_mem_nil⟩

theorem activeJob_of_mem {s : ScanStore} {job : ScanJob} (h : job ∈ s.jobs.rows) :
    activeJob s job.id = job.active := by
  simp [activeJob, Table.find?_key h]

/-- A job that was there before is active only if it was. -/
theorem JobsKept.activeJob {s s' : ScanStore} (h : JobsKept s s') {job : ScanJob}
    (hjob : job ∈ s.jobs.rows) (hactive : activeJob s' job.id = true) :
    activeJob s job.id = true := by
  obtain ⟨job', hjob', hid, hover⟩ := h job hjob
  rw [← hid, activeJob_of_mem hjob'] at hactive
  rw [activeJob_of_mem hjob]
  cases hst : job.active with
  | true => rfl
  | false =>
    rw [hover hst] at hactive
    cases hactive

/-- What happens in the scan tables keeps the invariant. -/
theorem Named.scan (h : Named pg w) (hsound : Sound pg s') (hkept : JobsKept w.scan s') :
    Named pg { w with scan := s' } where
  sound := hsound
  placed := h.placed
  known := by
    intro run hrun job hjob
    obtain ⟨row, hrow, rfl⟩ := h.known run hrun job hjob
    obtain ⟨row', hrow', hid, _⟩ := hkept row hrow
    exact ⟨row', hrow', hid⟩
  named := by
    intro run hrun hrecorded job hjob hactive
    obtain ⟨row, hrow, rfl⟩ := h.known run hrun job hjob
    exact h.named run hrun hrecorded _ hjob (JobsKept.activeJob hkept hrow hactive)

/-- So does a change of the schedules that leaves `last_job_id` alone, and a schedule nobody has
run. -/
theorem Named.schedules (h : Named pg w) {schedules : ScanSchedules}
    (hold : ∀ row ∈ w.schedules.rows, ∃ row' ∈ schedules.rows, row'.id = row.id)
    (hnew : ∀ row' ∈ schedules.rows, (∃ row ∈ w.schedules.rows, row.id = row'.id ∧
      row.lastJobID = row'.lastJobID) ∨ ∀ row ∈ w.schedules.rows, row.id ≠ row'.id) :
    Named pg { w with schedules := schedules } where
  sound := h.sound
  placed := by
    intro run hrun
    obtain ⟨row, hrow, hid⟩ := h.placed run hrun
    obtain ⟨row', hrow', hid'⟩ := hold row hrow
    exact ⟨row', hrow', hid'.trans hid⟩
  known := h.known
  named := by
    intro run hrun hrecorded job hjob hactive row' hrow' hid
    rcases hnew row' hrow' with ⟨row, hrow, hsame, hlast⟩ | hfresh
    · rw [← hlast]
      exact h.named run hrun hrecorded job hjob hactive row hrow (hsame.trans hid)
    · obtain ⟨row, hrow, hplace⟩ := h.placed run hrun
      exact absurd (hplace.trans hid.symm) (hfresh row hrow)

/-- So do new runs of schedules there are, that have no job. -/
theorem Named.newRuns (h : Named pg w) {runs : List Run}
    (hnew : ∀ run ∈ runs, run.job = none ∧ ∃ row ∈ w.schedules.rows, row.id = run.item.id) :
    Named pg { w with runs := w.runs ++ runs } where
  sound := h.sound
  placed := by
    intro run hrun
    rcases List.mem_append.mp hrun with hrun | hrun
    · exact h.placed run hrun
    · exact (hnew run hrun).2
  known := by
    intro run hrun job hjob
    rcases List.mem_append.mp hrun with hrun | hrun
    · exact h.known run hrun job hjob
    · rw [(hnew run hrun).1] at hjob
      cases hjob
  named := by
    intro run hrun hrecorded job hjob
    rcases List.mem_append.mp hrun with hrun | hrun
    · exact h.named run hrun hrecorded job hjob
    · rw [(hnew run hrun).1] at hjob
      cases hjob

/-- A run moves on: its schedule stays, its job is known, and if it is recorded now its row names
that job. -/
theorem Named.setPhase (h : Named pg w) {n : Nat} {run : Run} {phase : Phase}
    (hrun : w.runs[n]? = some run)
    (hknown : ∀ job ∈ ({ run with phase := phase } : Run).job,
      ∃ row ∈ w.scan.jobs.rows, row.id = job)
    (hnamed : ({ run with phase := phase } : Run).recorded = true →
      ∀ job ∈ ({ run with phase := phase } : Run).job, activeJob w.scan job = true →
        ∀ row ∈ w.schedules.rows, row.id = run.item.id → row.lastJobID = some job) :
    Named pg (w.setPhase n run phase) := by
  have hmem : ∀ r ∈ (w.setPhase n run phase).runs, r ∈ w.runs ∨ r = { run with phase := phase } :=
    fun r hr => List.mem_or_eq_of_mem_set hr
  refine ⟨h.sound, fun r hr => ?_, fun r hr => ?_, fun r hr => ?_⟩
  · rcases hmem r hr with hr | rfl
    · exact h.placed r hr
    · exact h.placed run (List.mem_of_getElem? hrun)
  · rcases hmem r hr with hr | rfl
    · exact h.known r hr
    · exact hknown
  · rcases hmem r hr with hr | rfl
    · exact h.named r hr
    · exact hnamed

/-! ### Act by act -/

theorem mem_updateSchedules (p : ScanSchedule → Bool) {f : ScanSchedule → ScanSchedule}
    (hf : ∀ row, (f row).id = row.id) (s : ScanSchedules) :
    (∀ row ∈ s.rows, ∃ row' ∈ (s.updateWhere p f hf).rows, row'.id = row.id) ∧
      ∀ row' ∈ (s.updateWhere p f hf).rows, ∃ row ∈ s.rows, row.id = row'.id ∧
        (row' = row ∨ row' = f row) := by
  constructor
  · intro row hrow
    refine ⟨_, Table.mem_updateWhere_of_mem hrow, ?_⟩
    split
    · exact hf row
    · rfl
  · intro row' hrow'
    obtain ⟨row, hrow, rfl⟩ := Table.mem_updateWhere.mp hrow'
    split
    · exact ⟨row, hrow, (hf row).symm, Or.inr rfl⟩
    · exact ⟨row, hrow, rfl, Or.inl rfl⟩

theorem Named.createSchedule (h : Named pg w) {now nextRun : Timestamp} {id : UUID}
    {input : UpsertScanScheduleRequest} {schedules : ScanSchedules}
    (hok : createScanSchedule w.schedules now id input nextRun = .ok schedules) :
    Named pg { w with schedules := schedules } := by
  unfold createScanSchedule at hok
  split at hok
  · cases hok
  rename_i hfresh
  cases hok
  have hne : ∀ row ∈ w.schedules.rows, row.id ≠ id :=
    Table.find?_eq_none.mp (not_not.mp hfresh)
  refine h.schedules (fun row hrow => ?_) fun row' hrow' => ?_
  · exact ⟨row, Table.mem_put.mpr (Or.inr ⟨hrow, hne row hrow⟩), rfl⟩
  · rcases Table.mem_put.mp hrow' with rfl | ⟨hrow, _⟩
    · exact Or.inr hne
    · exact Or.inl ⟨row', hrow, rfl, rfl⟩

theorem Named.updateSchedule (h : Named pg w) {now nextRun : Timestamp} {id : UUID}
    {input : UpsertScanScheduleRequest} {schedules : ScanSchedules}
    (hok : updateScanSchedule w.schedules now id input nextRun = .ok schedules) :
    Named pg { w with schedules := schedules } := by
  unfold updateScanSchedule at hok
  split at hok
  · cases hok
  rename_i row hfound
  cases hok
  refine h.schedules (fun other hother => ?_) fun row' hrow' => ?_
  · by_cases hid : other.id = row.id
    · exact ⟨_, Table.mem_put_self, hid.symm⟩
    · exact ⟨other, Table.mem_put.mpr (Or.inr ⟨hother, hid⟩), rfl⟩
  · rcases Table.mem_put.mp hrow' with rfl | ⟨hold, _⟩
    · exact Or.inl ⟨row, Table.mem_of_find? hfound, rfl, rfl⟩
    · exact Or.inl ⟨row', hold, rfl, rfl⟩

theorem claimedRun_job (cron : Cron) (seen : Timestamp) (item : ScanSchedule) :
    (claimedRun cron seen item).job = none := by
  unfold claimedRun Run.job Run.outcome
  cases next cron item.plan seen <;> rfl

/-- A claimed row is a due row of the table, with its lease. -/
theorem mem_claim {age : Nat} {locked : UUID → Bool} {tie : UUID → Nat} {item : ScanSchedule}
    (h : item ∈ (w.claim age locked tie).1) :
    ∃ row ∈ w.schedules.rows, row.due (activeJob w.scan) (w.clock - age) = true ∧
      locked row.id = false ∧ row.id = item.id := by
  obtain ⟨row, hrow, rfl⟩ := List.mem_map.mp h
  have hmem := (List.mem_insertionSort _).mp (List.mem_of_mem_take hrow)
  obtain ⟨hrow, hdue⟩ := List.mem_filter.mp hmem
  simp only [Bool.and_eq_true, Bool.not_eq_true'] at hdue
  exact ⟨row, hrow, hdue.1, hdue.2, rfl⟩

theorem Named.tick (h : Named pg w) (age : Nat) (locked : UUID → Bool) (tie : UUID → Nat) :
    Named pg (act pg cron w (.tick age locked tie)) := by
  have hclaimed := mem_updateSchedules
    (fun row => decide (row.id ∈ (pickedSchedules w.schedules (activeJob w.scan) locked tie
      (w.clock - age) 20).map ScanSchedule.id))
    (ScanSchedule.id_claim w.clock (w.clock - age + claimLease)) w.schedules
  have hschedules : Named pg { w with schedules := (w.claim age locked tie).2 } := by
    refine h.schedules hclaimed.1 fun row' hrow' => Or.inl ?_
    obtain ⟨row, hrow, hid, rfl | rfl⟩ := hclaimed.2 row' hrow'
    · exact ⟨row', hrow, rfl, rfl⟩
    · exact ⟨row, hrow, rfl, rfl⟩
  refine hschedules.newRuns fun run hrun => ?_
  obtain ⟨item, hitem, rfl⟩ := List.mem_map.mp hrun
  obtain ⟨row, hrow, -, -, hid⟩ := mem_claim hitem
  obtain ⟨row', hrow', hid'⟩ := hclaimed.1 row hrow
  exact ⟨claimedRun_job cron _ item, row', hrow', hid'.trans hid⟩

theorem createScanJob_ok {agents : Agents} {s s' : ScanStore} {now : Timestamp} {jobID : UUID}
    {input : CreateScanJobRequest} {targets : List AgentScanTargets} {job : ScanJob}
    (h : createScanJob pg agents s now jobID input targets = (.ok job, s')) :
    job ∈ s'.jobs.rows := by
  unfold createScanJob at h
  dsimp only at h
  split at h
  · cases h
  split at h
  · cases h
  split at h
  · cases h
  split at h
  · cases h
  split at h
  · cases h
  split at h
  · cases h
  · cases h
    exact Table.mem_put_self

theorem Run.not_recorded {run : Run} {outcome : Outcome} :
    ({ run with phase := .finished outcome } : Run).recorded = true → False := by
  intro h
  cases h

theorem Named.create (h : Named pg w) (n : Nat) (agents : Agents) (jobID : UUID)
    (input : CreateScanJobRequest) (targets : List AgentScanTargets) (error : String) :
    Named pg (act pg cron w (.create n agents jobID input targets error)) := by
  unfold act
  dsimp only
  split
  · exact h
  rename_i run hrun
  split
  · exact h
  have hkept := JobsKept.serve h.sound w.clock (.createScanJob agents jobID input targets)
  have hsound := h.sound.serve w.clock (.createScanJob agents jobID input targets)
  simp only [serve] at hkept hsound
  split
  · rename_i job s' hcreated
    rw [hcreated] at hkept hsound
    refine (h.scan hsound hkept).setPhase hrun ?_ fun hrecorded => Run.not_recorded hrecorded |>.elim
    rintro _ ⟨⟩
    exact ⟨job, createScanJob_ok hcreated, rfl⟩
  · rename_i s' hcreated
    rw [hcreated] at hkept hsound
    refine (h.scan hsound hkept).setPhase hrun ?_ fun hrecorded => Run.not_recorded hrecorded |>.elim
    rintro _ ⟨⟩

/-- A record writes the row of its schedule. -/
theorem mem_recorded {now : Timestamp} {id : UUID} {nextRun : Option Timestamp}
    {jobID : Option UUID} {runErr : Option String} {s schedules : ScanSchedules}
    (hok : recordScanScheduleRun s now id nextRun jobID runErr = .ok schedules) :
    lastErrorText runErr ≠ none ∧
      (∀ row ∈ s.rows, ∃ row' ∈ schedules.rows, row'.id = row.id) ∧
      ∀ row' ∈ schedules.rows, ∃ row ∈ s.rows, row.id = row'.id ∧
        (if row.id = id then row'.lastJobID = jobID else row' = row) := by
  unfold recordScanScheduleRun at hok
  split at hok
  · cases hok
  rename_i lastError htext
  cases hok
  refine ⟨by rw [htext]; simp, (mem_updateSchedules _ _ s).1, fun row' hrow' => ?_⟩
  obtain ⟨row, hrow, rfl⟩ := Table.mem_updateWhere.mp hrow'
  refine ⟨row, hrow, ?_, ?_⟩
  · split <;> rfl
  · by_cases hid : row.id = id
    · simp only [hid, decide_true, if_true]
      rfl
    · simp only [hid, decide_false, if_false, Bool.false_eq_true]

theorem Named.record (h : Named pg w) {n : Nat} (hcareful : Careful w (.record n)) :
    Named pg (act pg cron w (.record n)) := by
  unfold act
  dsimp only
  split
  · exact h
  rename_i run hrun
  split
  swap
  · exact h
  rename_i outcome hphase
  have hjob : run.job = outcome.job := by
    unfold Run.job Run.outcome
    rw [hphase]
    rfl
  have hknown : ∀ job ∈ outcome.job, ∃ row ∈ w.scan.jobs.rows, row.id = job :=
    fun job hmem => h.known run (List.mem_of_getElem? hrun) job (hjob ▸ hmem)
  split
  · exact h.setPhase hrun hknown fun hrecorded => by cases hrecorded
  rename_i schedules hok
  obtain ⟨htext, hold, hnew⟩ := mem_recorded hok
  have hcareful := hcareful run hrun outcome (by simp [Run.unrecorded, hphase]) htext
  -- the rows that named a job still do, or name the one that is recorded now
  have hschedules : Named pg { w with schedules := schedules } := by
    refine ⟨h.sound, fun r hr => ?_, h.known, fun r hr hrecorded job hmem hactive row' hrow' hid => ?_⟩
    · obtain ⟨row, hrow, hid⟩ := h.placed r hr
      obtain ⟨row', hrow', hid'⟩ := hold row hrow
      exact ⟨row', hrow', hid'.trans hid⟩
    · obtain ⟨row, hrow, hsame, hwrite⟩ := hnew row' hrow'
      have hlast := h.named r hr hrecorded job hmem hactive row hrow (hsame.trans hid)
      split at hwrite
      · rename_i hplace
        rw [hwrite]
        by_contra hother
        have := hcareful row hrow hplace job hlast hother
        rw [hactive] at this
        cases this
      · rw [hwrite]
        exact hlast
  refine hschedules.setPhase hrun hknown fun _ job hmem _ row' hrow' hid => ?_
  obtain ⟨row, hrow, hsame, hwrite⟩ := hnew row' hrow'
  rw [if_pos (hsame.trans hid)] at hwrite
  exact hwrite.trans hmem

theorem Named.act (h : Named pg w) {a : Act} (hcareful : Careful w a) :
    Named pg (act pg cron w a) := by
  cases a with
  | pass duration => exact ⟨h.sound, h.placed, h.known, h.named⟩
  | createSchedule id input =>
    unfold Schedule.act
    dsimp only
    split
    · exact h
    split
    · exact h
    · rename_i hok
      exact h.createSchedule hok
  | updateSchedule id input =>
    unfold Schedule.act
    dsimp only
    split
    · exact h
    split
    · exact h
    · rename_i hok
      exact h.updateSchedule hok
  | tick age locked tie => exact h.tick age locked tie
  | runNow id =>
    unfold Schedule.act
    dsimp only
    split
    · exact h
    · rename_i item hfound
      refine h.newRuns fun run hrun => ?_
      rw [List.mem_singleton.mp hrun]
      exact ⟨rfl, item, Table.mem_of_find? hfound, rfl⟩
  | create n agents jobID input targets error => exact h.create n agents jobID input targets error
  | giveUp n outcome =>
    unfold Schedule.act
    dsimp only
    split
    · exact h
    rename_i run hrun
    split
    · exact h
    · rename_i hnone
      -- a run gives up only with an outcome that has no job, so that it names none
      have hnone : outcome.job = none := by
        by_contra hjob
        exact hnone (Or.inr hjob)
      refine h.setPhase hrun (fun job hmem => ?_) fun hrecorded => Run.not_recorded hrecorded |>.elim
      rw [show ({ run with phase := .finished outcome } : Run).job = outcome.job from rfl,
        hnone] at hmem
      cases hmem
  | record n => exact h.record hcareful
  | scan op => exact h.scan (h.sound.serve w.clock op) (.serve h.sound w.clock op)

/-- A tick meets no active job: the row names the one of a recorded run, and the claim asks for
it; a run that has not recorded its job has none that is active. -/
theorem Named.noOverlap (h : Named pg w) {a : Act} (hcareful : Careful w a) : NoOverlap w a := by
  cases a with
  | tick age locked tie =>
    rintro item hitem ⟨run, hrun, hid, job, hjob, hactive⟩
    obtain ⟨row, hrow, hdue, hfree, hsame⟩ := mem_claim hitem
    cases hrecorded : run.recorded with
    | false =>
      have := hcareful row hrow hdue hfree run hrun (hid.trans hsame.symm) hrecorded job hjob
      rw [hactive] at this
      cases this
    | true =>
      have hlast := h.named run hrun hrecorded job hjob hactive row hrow (hsame.trans hid.symm)
      simp only [ScanSchedule.due, hlast, hactive, Bool.not_true, Bool.and_false,
        Bool.false_eq_true] at hdue
  | _ => trivial

end Named

/-- **Scheduled runs do not overlap**, in every run whose steps all meet the condition. -/
theorem no_overlap (pg : Postgres) (cron : Cron) (clock : Timestamp) (acts : List Act)
    (h : Along (act pg cron) Careful (World.start clock) acts) :
    Along (act pg cron) NoOverlap (World.start clock) acts :=
  h.sound (Named.start pg clock) fun _ _ hnamed hcareful =>
    ⟨hnamed.act hcareful, hnamed.noOverlap hcareful⟩

/-- While its job is pending the schedule is left alone; once it is stopped, it runs again. -/
theorem no_overlap_oneRun :
    Along (act oneAddress twoPlans) NoOverlap (World.start 0)
      (oneSchedule ++ oneRun ++
        [.pass 3600000000, .tick 0 (fun _ => false) (fun _ => 0), .scan (.stopScanJob oneJob),
          .tick 0 (fun _ => false) (fun _ => 0)]) :=
  no_overlap oneAddress twoPlans 0 _ (by decide +kernel)

/-- The run started by hand fails and takes the job of the first run off the row; the next tick
claims the schedule while that job is pending. -/
theorem overlap_after_failure :
    ¬ ∀ (pg : Postgres) (cron : Cron) (clock : Timestamp) (acts : List Act),
      Along (act pg cron) NoOverlap (World.start clock) acts := by
  intro h
  have := h oneAddress twoPlans 0 (oneSchedule ++ oneRun ++
    [.runNow 9, .giveUp 1 (.failed "no online agents selected"), .record 1, .pass 3600000000,
      .tick 0 (fun _ => false) (fun _ => 0)])
  revert this
  decide +kernel

end Cfscan.Schedule
