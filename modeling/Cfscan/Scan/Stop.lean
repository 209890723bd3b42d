import Cfscan.Scan.Interleaved

/-!
# Stopping a job is final

The third transaction, `StopScanJob`, and what the three add up to: from the commit of a stop on,
no act of any interleaving touches the job. A stop leaves no task of the job open because every
task was final when its snapshot was taken, or is a candidate of its `UPDATE` and locked before it
is looked at again; no task is ever added.

The stop may come between the statements of claims and submissions of the same job. A claim passes a
locked job over, and a submission waits for it and then finds it stopped. Only the statement that
ends leases does without that lock, and it looks at each task again once it has the task's own.
-/

set_option autoImplicit false

namespace Cfscan.Scan

open Cfscan.Lib Cfscan.Store

/-! ## `StopScanJob`

The job row is locked first, so that no claim and no submission gets at the job any more,
but the tasks are taken one by one and the job row is written last. `Stopping` keeps the
account in between: every task of the job is final, still to come, or among the writes. -/

/-- A stop under way: the job held, its tasks final, still to come (`ids`) or cancelled, the job
row still to come (`jobIDs`) or written. -/
structure Stopping (jobID : UUID) (ids : List Int) (jobIDs : List UUID) (locked : RowKey → Prop)
    (writes : List Write) (s : ScanStore) : Prop where
  careful : Careful none locked writes s
  held : HeldJob jobID locked s
  tasks : ∀ task ∈ s.tasks.rows, task.jobID = jobID →
    task.status.final = true ∨ task.id ∈ ids ∨ ∃ row, .task row ∈ writes ∧ row.id = task.id
  cancels : ∀ row, .task row ∈ writes → row.status = .cancelled
  job : jobID ∈ jobIDs ∨ ∃ row, .job row ∈ writes ∧ row.id = jobID
  stops : ∀ row, .job row ∈ writes → row.status = .stopped

section StopJob

variable {pg : Postgres} {jobID : UUID} {ids : List Int} {jobIDs : List UUID}
  {locked : RowKey → Prop} {writes : List Write} {s s' : ScanStore}

theorem Stopping.later (h : Stopping jobID ids jobIDs locked writes s)
    (hlater : Later Rely locked s s') : Stopping jobID ids jobIDs locked writes s' where
  careful := h.careful.later hlater
  held := (lasting_heldJob jobID).later _ _ _ h.held hlater
  tasks := by
    intro task' htask' hjobID
    obtain ⟨task, htask, hsame⟩ := hlater.1.tasks task' htask'
    rw [hsame.id]
    rcases h.tasks task htask (hsame.jobID.symm.trans hjobID) with hfinal | hrest
    · left
      rwa [Table.eq_of_key htask' (hlater.1.final task htask hfinal) hsame.id]
    · exact Or.inr hrest
  cancels := h.cancels
  job := h.job
  stops := h.stops

theorem Stopping.lock {locked' : RowKey → Prop} (h : Stopping jobID ids jobIDs locked writes s)
    (hmono : ∀ key, locked key → locked' key) : Stopping jobID ids jobIDs locked' writes s :=
  ⟨h.careful.lock hmono, (lasting_heldJob jobID).lock _ _ _ h.held hmono, h.tasks, h.cancels, h.job,
    h.stops⟩

/-- A task that is not pending or leased is final. -/
theorem final_of_not_stoppable {task : ScanTask} (h : task.stoppable task.jobID = false) :
    task.status.final = true := by
  cases hst : task.status with
  | pending => simp [ScanTask.stoppable, hst] at h
  | leased => simp [ScanTask.stoppable, hst] at h
  | completed => rfl
  | cancelled => rfl

/-- A candidate that is not to be cancelled after all: it was cancelled already, or has become
final. -/
theorem Stopping.skip {id : Int} (h : Stopping jobID (id :: ids) jobIDs locked writes s)
    (hskip : ∀ task, (applyAll s writes).tasks.find? id = some task →
      task.stoppable jobID = false) : Stopping jobID ids jobIDs locked writes s := by
  refine ⟨h.careful, h.held, fun task htask hjobID => ?_, h.cancels, h.job, h.stops⟩
  rcases h.tasks task htask hjobID with hfinal | hmem | hwritten
  · exact Or.inl hfinal
  · rcases List.mem_cons.mp hmem with rfl | hrest
    · rcases visible_task s writes task.id with ⟨_, hsame⟩ | ⟨row, hw, hid, _⟩
      · refine Or.inl (final_of_not_stoppable ?_)
        rw [hjobID]
        exact hskip task (hsame.trans (Table.find?_key htask))
      · exact Or.inr (Or.inr ⟨row, hw, hid⟩)
    · exact Or.inr (Or.inl hrest)
  · exact Or.inr (Or.inr hwritten)

/-- A candidate cancelled. -/
theorem Stopping.cancel {task : ScanTask}
    (h : Stopping jobID (task.id :: ids) jobIDs locked writes s)
    (hlocked : locked (.task task.id))
    (hseen : (applyAll s writes).tasks.find? task.id = some task)
    (hp : task.stoppable jobID = true) :
    Stopping jobID ids jobIDs locked (writes ++ [.task task.cancel]) s := by
  have hopen : task.status.final = false := by
    rcases (stoppable_eq hp).2 with hst | hst <;> rw [hst] <;> rfl
  have hground := h.careful.grounded_task hlocked hseen hopen
  refine ⟨h.careful.put (hground.rewrite same_cancel), h.held, fun task' htask' hjobID => ?_,
    fun row hrow => ?_, ?_, fun row hrow => ?_⟩
  · rcases h.tasks task' htask' hjobID with hfinal | hmem | ⟨row, hw, hid⟩
    · exact Or.inl hfinal
    · rcases List.mem_cons.mp hmem with hid | hrest
      · exact Or.inr (Or.inr ⟨task.cancel, List.mem_append_right _ (List.mem_singleton_self _),
          hid.symm⟩)
      · exact Or.inr (Or.inl hrest)
    · exact Or.inr (Or.inr ⟨row, List.mem_append_left _ hw, hid⟩)
  · rcases List.mem_append.mp hrow with hold | hnew
    · exact h.cancels row hold
    · cases List.mem_singleton.mp hnew
      rfl
  · exact h.job.imp_right fun ⟨row, hw, hid⟩ => ⟨row, List.mem_append_left _ hw, hid⟩
  · rcases List.mem_append.mp hrow with hold | hnew
    · exact h.stops row hold
    · cases List.mem_singleton.mp hnew

/-- The job row written. -/
theorem Stopping.stop {job : ScanJob} (h : Stopping jobID ids jobIDs locked writes s)
    (now : Timestamp) (hid : job.id = jobID) (jobIDs' : List UUID) :
    Stopping jobID ids jobIDs' locked (writes ++ [.job (job.stop now)]) s := by
  have hground : Grounded none locked s (.job (job.stop now)) := by
    show locked (.job job.id) ∧ OpenJob s job.id
    rw [hid]
    exact h.held
  refine ⟨h.careful.put hground, h.held, fun task htask hjobID => ?_, fun row hrow => ?_,
    Or.inr ⟨job.stop now, List.mem_append_right _ (List.mem_singleton_self _), hid⟩,
    fun row hrow => ?_⟩
  · rcases h.tasks task htask hjobID with hfinal | hmem | ⟨row, hw, hid⟩
    · exact Or.inl hfinal
    · exact Or.inr (Or.inl hmem)
    · exact Or.inr (Or.inr ⟨row, List.mem_append_left _ hw, hid⟩)
  · rcases List.mem_append.mp hrow with hold | hnew
    · exact h.cancels row hold
    · cases List.mem_singleton.mp hnew
  · rcases List.mem_append.mp hrow with hold | hnew
    · exact h.stops row hold
    · cases List.mem_singleton.mp hnew
      rfl

/-- **A stop that has written everything freezes its job.** -/
theorem Stopping.frozen (h : Stopping jobID [] [] locked writes s) :
    Frozen jobID (applyAll s writes) := by
  constructor
  · obtain ⟨row, hw, hid⟩ := h.job.resolve_left List.not_mem_nil
    rcases visible_job s writes jobID with ⟨hnone, _⟩ | ⟨row', hw', _, hseen⟩
    · exact absurd hid (hnone row hw)
    · exact ⟨row', hseen, h.stops row' hw'⟩
  · intro task htask hjobID
    obtain ⟨old, hold, hsame, _⟩ := h.careful.task (Table.find?_key htask)
    rcases visible_task s writes task.id with ⟨hnone, hseen⟩ | ⟨row, hw, _, hseen⟩
    · -- a task nobody wrote is the committed one
      have hcommitted := Table.mem_of_find? (hseen.symm.trans (Table.find?_key htask))
      rcases h.tasks task hcommitted hjobID with hfinal | hmem | ⟨row, hw, hid⟩
      · exact hfinal
      · cases hmem
      · exact absurd hid (hnone row hw)
    · obtain rfl := Option.some.inj ((Table.find?_key htask).symm.trans hseen)
      rw [h.cancels task hw]
      rfl

/-- The `UPDATE` of the tasks. -/
theorem stopTasks_safe (hc : Careful none locked [] s) (hheld : HeldJob jobID locked s) :
    Safe Rely (fun _ locked writes s => Stopping jobID [] [jobID] locked writes s)
      (tasks.updateWhere (ScanTask.stoppable jobID) ScanTask.cancel) locked [] s := by
  unfold TableIn.updateWhere
  refine TableIn.safe_read fun s' hlater => ?_
  refine tasks.safe_updateEach ScanTask.id_cancel
    (fun ids _ locked writes s => Stopping jobID ids [jobID] locked writes s)
    (fun _ _ _ _ _ _ h hlater => h.later hlater) (fun _ _ _ _ _ _ h => h.lock fun _ => Or.inr)
    (fun _ _ _ _ _ _ h _ hskip => h.skip hskip) ?_ ?_
  · rintro id ids _ locked writes s task h hlocked hseen hp
    obtain rfl : task.id = id := Table.key_of_find? hseen
    exact h.cancel hlocked hseen hp
  · refine ⟨hc.later hlater, (lasting_heldJob _).later _ _ _ hheld hlater,
      fun task htask hjobID => ?_, fun _ h => absurd h List.not_mem_nil, Or.inl (.head _),
      fun _ h => absurd h List.not_mem_nil⟩
    by_cases hp : task.stoppable jobID = true
    · exact Or.inr (Or.inl (List.mem_map_of_mem (List.mem_filter.mpr ⟨htask, hp⟩)))
    · refine Or.inl (final_of_not_stoppable ?_)
      rw [hjobID]
      simpa using hp

/-- The `UPDATE` of the job. Its row is there to be found, or was written. -/
theorem stopJob_safe (now : Timestamp) (h : Stopping jobID [] jobIDs locked writes s) :
    Safe Rely (fun _ locked writes s => Stopping jobID [] [] locked writes s)
      (jobs.updateWhere (fun row => decide (row.id = jobID)) (ScanJob.stop now)) locked writes
      s := by
  have hthere : ∀ {jobIDs locked writes s}, Stopping jobID [] jobIDs locked writes s →
      (∃ row, .job row ∈ writes ∧ row.id = jobID) ∨
        ∃ job, (applyAll s writes).jobs.find? jobID = some job := by
    intro jobIDs locked writes s h
    rcases visible_job s writes jobID with ⟨_, hsame⟩ | ⟨row, hw, hid, _⟩
    · obtain ⟨job, hjob, _⟩ := h.held.2
      exact Or.inr ⟨job, hsame.trans hjob⟩
    · exact Or.inl ⟨row, hw, hid⟩
  unfold TableIn.updateWhere
  refine TableIn.safe_read fun s' hlater => ?_
  refine jobs.safe_updateEach (ScanJob.id_stop now)
    (fun jobIDs _ locked writes s => Stopping jobID [] jobIDs locked writes s)
    (fun _ _ _ _ _ _ h hlater => h.later hlater) (fun _ _ _ _ _ _ h => h.lock fun _ => Or.inr)
    ?_ ?_ ?_
  · rintro id jobIDs _ locked writes s h _ hskip
    refine ⟨h.careful, h.held, h.tasks, h.cancels, ?_, h.stops⟩
    rcases h.job with hmem | hwritten
    · rcases List.mem_cons.mp hmem with rfl | hrest
      · rcases hthere h with hwritten | ⟨job, hseen⟩
        · exact Or.inr hwritten
        · have := hskip job hseen
          rw [decide_eq_true (Table.key_of_find? hseen)] at this
          cases this
      · exact Or.inl hrest
    · exact Or.inr hwritten
  · rintro id jobIDs _ locked writes s job h _ _ hp
    exact h.stop now (of_decide_eq_true hp) jobIDs
  · have h' := h.later hlater
    refine ⟨h'.careful, h'.held, h'.tasks, h'.cancels, ?_, h'.stops⟩
    rcases hthere h' with hwritten | ⟨job, hseen⟩
    · exact Or.inr hwritten
    · obtain ⟨hmem, hid⟩ := Table.find?_eq_some.mp hseen
      exact Or.inl (List.mem_map.mpr ⟨job, List.mem_filter.mpr ⟨hmem, decide_eq_true hid⟩, hid⟩)

theorem stopScanJob_safe (hsane : Sane s) (now : Timestamp) (id : String) :
    Safe Rely (Ends Rely (CallPost pg (.stopScanJob now id)))
      ((Call.stopScanJob now id).program pg) (fun _ => False) [] s := by
  unfold Call.program stopScanJob
  refine safe_bind.mpr ?_
  split
  · exact ends_rollback [] fun jobID h => by cases h
  rename_i jobID huuid
  simp only [Tx.bind_eq]
  refine safe_bind.mpr (jobs.safe_selectForUpdate Rely.trans (fun s' _ _ => ?_) fun s₁ h₁ => ?_)
  · exact ends_rollback [] fun jobID h => by cases h
  split
  · exact ends_rollback [] fun jobID h => by cases h
  rename_i job hseen
  obtain rfl : job.id = jobID := Table.key_of_find? hseen
  split
  · exact ends_rollback [] fun jobID h => by cases h
  rename_i hactive
  have hc : Careful none (fun key => key = .job job.id ∨ False) [] s₁ := .nil (h₁.1.sane hsane)
  have hopen : job.status ≠ .stopped := by
    intro hst
    rw [hst] at hactive
    exact hactive ⟨by decide, by decide⟩
  have hheld := hc.heldJob (Or.inl rfl) hseen hopen
  refine safe_bind.mpr ((stopTasks_safe hc hheld).weaken ?_)
  rintro _ locked writes s h
  refine safe_bind.mpr ((stopJob_safe now h).weaken ?_)
  rintro _ locked writes s h
  refine TableIn.safe_read fun s₂ h₂ => ?_
  have h' := h.later h₂
  split
  · exact ends_rollback writes fun jobID h => by cases h
  · refine ends_commit h'.careful (fun jobID h => by cases h) (fun batch h => by cases h) ?_
    intro stopped item hcall _ s₃ h₃
    obtain rfl : job.id = stopped := Option.some.inj (huuid.symm.trans hcall)
    exact (h'.later h₃).frozen

end StopJob

/-! ## Finality

The three calls are sound for the interleaving rule of the library. Once a stop has
committed, `Frozen` holds after every further act, and a submission for the job that ends
later ends with success and writes nothing. -/

theorem call_safe {pg : Postgres} {s : ScanStore} (call : Call) (hsane : Sane s) :
    Safe Rely (Ends Rely (CallPost pg call)) (call.program pg) (fun _ => False) [] s := by
  cases call with
  | claimTasks tie now agentID limit => exact claimTasks_safe hsane tie now agentID limit
  | submitResults now batch => exact submitResults_safe hsane now batch
  | stopScanJob now id => exact stopScanJob_safe hsane now id

/-- The clients' transactions after some acts, from a database with none open. -/
def interleave {ι : Type} [DecidableEq ι] (pg : Postgres) (db : ScanStore)
    (acts : List (Act ι Call)) : System ι ScanStore RowKey Write Call Reply :=
  (System.initial db).play (Call.program pg) acts

/-- The job whose stop an act has just committed. -/
def stoppedBy (pg : Postgres) : Option (Ended Call Reply) → Option UUID
  | some ⟨call, .commit (.job (.ok _))⟩ => call.stopsFor pg
  | _ => none

theorem interleave_sound {ι : Type} [DecidableEq ι] (pg : Postgres) {db : ScanStore}
    (hsane : Sane db) (acts : List (Act ι Call)) :
    (interleave pg db acts).Sound Rely Sane (CallPost pg) :=
  ((System.Sound.initial hsane).play Rely.refl Rely.trans (fun _ _ hs hr => hr.sane hs)
    (fun call _ hs => call_safe call hs) acts).1

/-- The job is stopped with every task final, and whatever act comes next, the database does not
move or a call ends in `KeepsStopped`. -/
structure StaysStopped {ι : Type} [DecidableEq ι] (pg : Postgres) (jobID : UUID)
    (c : System ι ScanStore RowKey Write Call Reply) : Prop where
  frozen : Frozen jobID c.db
  next : ∀ a : Act ι Call, Guarantee (KeepsStopped pg jobID) c.db
    (c.act (Call.program pg) a).1.db (c.act (Call.program pg) a).2

/-- **Stopping a job is final.** Start from the database after any run, interleave any acts of any
number of clients, and let an act commit a stop: the job stays stopped through any further acts. -/
theorem stop_is_final {ι : Type} [DecidableEq ι] (pg : Postgres) (start : Timestamp)
    (events : List Event) (before : List (Act ι Call)) (stop : Act ι Call) (jobID : UUID)
    (hstop : stoppedBy pg ((interleave pg (replay pg start events).store before).act
      (Call.program pg) stop).2 = some jobID)
    (after : List (Act ι Call)) :
    StaysStopped pg jobID
      (interleave pg (replay pg start events).store (before ++ [stop] ++ after)) := by
  have hsane := (Rows.replay pg start events).sane
  generalize (replay pg start events).store = db at *
  have hgood : ∀ s s', Sane s → Rely s s' → Sane s' := fun _ _ hs hr => hr.sane hs
  have hprogram : ∀ call s, Sane s → Safe Rely (Ends Rely (CallPost pg call)) (call.program pg)
      (fun _ => False) [] s := fun call _ hs => call_safe call hs
  obtain ⟨hsound, _, hends⟩ := (interleave_sound pg hsane before).act Rely.refl Rely.trans hgood
    hprogram stop
  -- the stop has frozen the job
  have hfrozen : Frozen jobID ((interleave pg db before).act (Call.program pg) stop).1.db := by
    generalize ((interleave pg db before).act (Call.program pg) stop).2 = ended at hstop hends
    unfold stoppedBy at hstop
    split at hstop
    · exact hends.stops jobID _ hstop rfl
    · cases hstop
  obtain ⟨hsound', hrely⟩ := hsound.play Rely.refl Rely.trans hgood hprogram after
  have hlater : interleave pg db (before ++ [stop] ++ after) =
      ((interleave pg db before).act (Call.program pg) stop).1.play (Call.program pg) after := by
    simp only [interleave, System.play, List.foldl_append, List.foldl_cons, List.foldl_nil]
  rw [hlater]
  have hstays := hfrozen.later hrely
  refine ⟨hstays, fun a => ?_⟩
  obtain ⟨_, _, hnext⟩ := hsound'.act Rely.refl Rely.trans hgood hprogram a
  generalize ((((interleave pg db before).act (Call.program pg) stop).1.play (Call.program pg)
    after).act (Call.program pg) a).2 = ended at hnext ⊢
  cases ended with
  | none => exact hnext
  | some e => exact hnext.keeps jobID hstays

/-- A submission opens before a stop of its job and waits for it. -/
def lateResult : List (Act Nat Call) :=
  [.send 1 (.submitResults 0 oneResult), .step 1, .send 0 (.stopScanJob 0 oneJob)] ++
    List.replicate 12 (.step 0) ++ [.step 1]

theorem stop_is_final_lateResult :
    StaysStopped oneAddress 0x7d4448409dc041d1b2455ffdce74fad2 (interleave oneAddress
      (replay oneAddress 0 claimedJob).store (lateResult ++ [.step 0] ++ [.step 1, .step 1])) :=
  stop_is_final oneAddress 0 claimedJob lateResult (.step 0) 0x7d4448409dc041d1b2455ffdce74fad2
    (by decide +kernel) [.step 1, .step 1]

end Cfscan.Scan
