import Cfscan.Lib.Timetable
import Cfscan.Schedule.Runner

/-!
# Edits of a scan schedule

A run works its next time out of the row it claimed, and writes it back when the job is created.
An edit that commits in between has set `next_run_at` by the new expression already, and the
record overwrites it. `Unedited` is the condition under which that does not happen.

Every expression parses here (`valid`), and `Answered` says that no record call fails.

The law that is meant is about the time a schedule is idle. After an edit, or after a run that came
to its record, and with no run of the schedule under way, `next_run_at` belongs to the expression
that is in force. `Unedited` is asked of the record calls alone; that an edit falls between the
claim and the record of a run is only a defect because the run then writes.

The condition says "in force at the instant the run read off the clock" and not "at the claim": a
run reads the clock first, and an edit can come between the two.
-/

set_option autoImplicit false

namespace Cfscan.Schedule

open Cfscan.Lib Cfscan.Store Cfscan.Scan

/-- A cron library for expressions that all parse. -/
def valid (due : Plan → Timestamp → Timestamp) : Cron := fun plan => .ok (due plan)

@[simp] theorem next_valid (due : Plan → Timestamp → Timestamp) (plan : Plan) (t : Timestamp) :
    next (valid due) plan t = .ok (due plan t) := rfl

/-- One schedule, as the timetable sees it. -/
def scheduleDial (id : UUID) : Dial World Plan Timestamp where
  clock := World.clock
  plan := fun w => (w.schedules.find? id).map ScanSchedule.plan
  next := fun w => (w.schedules.find? id).map ScanSchedule.nextRunAt
  leased := fun w => ∃ run ∈ w.runs, run.item.id = id ∧ run.trigger = .scheduled ∧
    run.inFlight = true

/-- No record call fails. -/
def Answered (w : World) : Act → Prop
  | .record n => ∀ run ∈ w.runs[n]?, ∀ outcome ∈ run.unrecorded,
    lastErrorText (outcome.error run.trigger) ≠ none
  | _ => True

/-- When a scheduled run records, its row has the expression and the timezone the run claimed, and
they were in force at the instant the run read off the clock. -/
def Unedited (id : UUID) (x : Traced World) : Act → Prop
  | .record n => ∀ run ∈ x.now.runs[n]?, run.item.id = id → run.trigger = .scheduled →
    run.unrecorded ≠ none →
      (scheduleDial id).plan x.now = some run.item.plan ∧
        (scheduleDial id).Stored x.past run.seen run.item.plan
  | _ => True

/-- The act edits the schedule, or a scheduled run of it is over with the act. -/
def Completes (id : UUID) (w : World) : Act → Prop
  | .createSchedule other _ => other = id ∧ w.schedules.find? id = none
  | .updateSchedule other _ => other = id ∧ w.schedules.find? id ≠ none
  | .record n => ∃ run ∈ w.runs[n]?, run.item.id = id ∧ run.trigger = .scheduled ∧
    run.unrecorded ≠ none
  | _ => False

/-- No run of the schedule is between its claim and its record. -/
def Idle (id : UUID) (w : World) : Prop :=
  ∀ run ∈ w.runs, run.item.id = id → run.inFlight = false

instance (w : World) : (a : Act) → Decidable (Answered w a)
  | .record n => inferInstanceAs (Decidable (∀ run ∈ w.runs[n]?, ∀ outcome ∈ run.unrecorded,
      lastErrorText (outcome.error run.trigger) ≠ none))
  | .pass _ | .createSchedule _ _ | .updateSchedule _ _ | .tick _ _ _ | .runNow _
  | .create _ _ _ _ _ _ | .giveUp _ _ | .scan _ => inferInstanceAs (Decidable True)

instance (id : UUID) (x : Traced World) : (a : Act) → Decidable (Unedited id x a)
  | .record n => inferInstanceAs (Decidable (∀ run ∈ x.now.runs[n]?, run.item.id = id →
      run.trigger = .scheduled → run.unrecorded ≠ none →
        (x.now.schedules.find? id).map ScanSchedule.plan = some run.item.plan ∧
          (scheduleDial id).Stored x.past run.seen run.item.plan))
  | .pass _ | .createSchedule _ _ | .updateSchedule _ _ | .tick _ _ _ | .runNow _
  | .create _ _ _ _ _ _ | .giveUp _ _ | .scan _ => inferInstanceAs (Decidable True)

instance (id : UUID) (w : World) : (a : Act) → Decidable (Completes id w a)
  | .createSchedule other _ =>
    inferInstanceAs (Decidable (other = id ∧ w.schedules.find? id = none))
  | .updateSchedule other _ =>
    inferInstanceAs (Decidable (other = id ∧ w.schedules.find? id ≠ none))
  | .record n => inferInstanceAs (Decidable (∃ run ∈ w.runs[n]?, run.item.id = id ∧
      run.trigger = .scheduled ∧ run.unrecorded ≠ none))
  | .pass _ | .tick _ _ _ | .runNow _ | .create _ _ _ _ _ _ | .giveUp _ _ | .scan _ =>
    inferInstanceAs (Decidable False)

instance (id : UUID) (w : World) : Decidable (Idle id w) :=
  inferInstanceAs (Decidable (∀ run ∈ w.runs, run.item.id = id → run.inFlight = false))

section Edits

variable {pg : Postgres} {due : Plan → Timestamp → Timestamp} {id : UUID} {w : World}
  {past : List World}

theorem Idle.not_leased (h : Idle id w) : ¬ (scheduleDial id).leased w := by
  rintro ⟨run, hrun, hid, -, hflight⟩
  rw [h run hrun hid] at hflight
  cases hflight

/-! ## What an act does to the dial of one schedule

The same moves as for the other automations, with other statements: a schedule is created
and deleted, and a tick both claims the row and starts the run. -/

/-- Nothing, when its row is the same and no run goes away. -/
theorem still_of_row {w' : World} (hrow : w'.schedules.find? id = w.schedules.find? id)
    (hleased : (scheduleDial id).leased w → (scheduleDial id).leased w') :
    (scheduleDial id).Move due past w w' :=
  .still (congrArg (Option.map ScanSchedule.plan) hrow)
    (congrArg (Option.map ScanSchedule.nextRunAt) hrow) hleased

/-- Nor does a lease end with a run that goes on, or one of another schedule. -/
theorem leased_setPhase {n : Nat} {run : Run} {phase : Phase} (hrun : w.runs[n]? = some run)
    (hstays : run.item.id = id → run.trigger = .scheduled →
      ({ run with phase := phase } : Run).inFlight = true)
    (h : (scheduleDial id).leased w) : (scheduleDial id).leased (w.setPhase n run phase) := by
  obtain ⟨other, hother, hid, htrigger, hflight⟩ := h
  obtain ⟨i, hi⟩ := List.mem_iff_getElem?.mp hother
  by_cases hn : n = i
  · subst hn
    obtain rfl : run = other := Option.some.inj (hrun.symm.trans hi)
    refine ⟨{ run with phase := phase }, ?_, hid, htrigger, hstays hid htrigger⟩
    exact List.mem_set (List.getElem?_eq_some_iff.mp hrun).1 _
  · refine ⟨other, ?_, hid, htrigger, hflight⟩
    refine List.mem_of_getElem? (i := i) ?_
    rw [World.setPhase, List.getElem?_set_ne hn]
    exact hi

theorem createSchedule_dial (id : UUID) {other : UUID} {input : UpsertScanScheduleRequest}
    {nextRun : Timestamp} {schedules : ScanSchedules}
    (hok : createScanSchedule w.schedules w.clock other input nextRun = .ok schedules) :
    (other = id → (schedules.find? id).map ScanSchedule.plan = some input.plan ∧
        (schedules.find? id).map ScanSchedule.nextRunAt = some nextRun) ∧
      (other ≠ id → schedules.find? id = w.schedules.find? id) := by
  unfold createScanSchedule at hok
  split at hok
  · cases hok
  cases hok
  constructor
  · rintro rfl
    rw [Table.find?_put, if_pos rfl]
    exact ⟨rfl, rfl⟩
  · intro hne
    rw [Table.find?_put, if_neg hne]

theorem updateSchedule_dial (id : UUID) {other : UUID} {input : UpsertScanScheduleRequest}
    {nextRun : Timestamp} {schedules : ScanSchedules}
    (hok : updateScanSchedule w.schedules w.clock other input nextRun = .ok schedules) :
    (other = id → (schedules.find? id).map ScanSchedule.plan = some input.plan ∧
        (schedules.find? id).map ScanSchedule.nextRunAt = some nextRun) ∧
      (other ≠ id → schedules.find? id = w.schedules.find? id) := by
  unfold updateScanSchedule at hok
  split at hok
  · cases hok
  rename_i row hfound
  have hkey : row.id = other := Table.key_of_find? hfound
  cases hok
  constructor
  · rintro rfl
    rw [Table.find?_put, if_pos (show (row.update _ _ _).id = other from hkey)]
    exact ⟨rfl, rfl⟩
  · intro hne
    rw [Table.find?_put, if_neg (show (row.update _ _ _).id ≠ id from hkey ▸ hne)]

/-- The row a record leaves. -/
theorem record_dial (id : UUID) {now : Timestamp} {other : UUID} {nextRun : Option Timestamp}
    {jobID : Option UUID} {runErr : Option String} {schedules : ScanSchedules}
    (hok : recordScanScheduleRun w.schedules now other nextRun jobID runErr = .ok schedules) :
    (schedules.find? id).map ScanSchedule.plan = (w.schedules.find? id).map ScanSchedule.plan ∧
      (schedules.find? id).map ScanSchedule.nextRunAt =
        (w.schedules.find? id).map fun row =>
          if other = id then nextRun.getD row.nextRunAt else row.nextRunAt := by
  unfold recordScanScheduleRun at hok
  split at hok
  · cases hok
  cases hok
  rw [Table.find?_updateWhere, Option.map_map, Option.map_map]
  cases hfound : w.schedules.find? id with
  | none => exact ⟨rfl, rfl⟩
  | some row =>
    obtain rfl : row.id = id := Table.key_of_find? hfound
    simp only [Option.map_some, Function.comp_apply]
    by_cases hid : row.id = other
    · simp [hid, ScanSchedule.record]
    · simp [hid, Ne.symm hid]

theorem edit_move {schedules : ScanSchedules} {other : UUID} {plan : Plan}
    (h : (other = id → (schedules.find? id).map ScanSchedule.plan = some plan ∧
        (schedules.find? id).map ScanSchedule.nextRunAt = some (due plan w.clock)) ∧
      (other ≠ id → schedules.find? id = w.schedules.find? id)) :
    (scheduleDial id).Move due past w { w with schedules := schedules } := by
  by_cases hid : other = id
  · exact .edit plan (h.1 hid).1 (h.1 hid).2
  · exact still_of_row (h.2 hid) fun hleased => hleased

theorem claimedRun_inFlight (cron : Cron) (seen : Timestamp) (item : ScanSchedule) :
    (claimedRun cron seen item).inFlight = true := by
  unfold claimedRun Run.inFlight
  cases next cron item.plan seen <;> rfl

theorem tick_move (age : Nat) (locked : UUID → Bool) (tie : UUID → Nat) :
    (scheduleDial id).Move due past w (act pg (valid due) w (.tick age locked tie)) := by
  by_cases hpicked : id ∈ (pickedSchedules w.schedules (activeJob w.scan) locked tie
      (w.clock - age) 20).map ScanSchedule.id
  · obtain ⟨row, hrow, rfl⟩ := List.mem_map.mp hpicked
    refine .claim ⟨claimedRun (valid due) (w.clock - age)
      (row.claim w.clock (w.clock - age + claimLease)), ?_, rfl, rfl, claimedRun_inFlight _ _ _⟩
    exact List.mem_append_right _ (List.mem_map_of_mem (List.mem_map_of_mem hrow))
  · have hsame : (w.claim age locked tie).2.find? id = w.schedules.find? id := by
      unfold World.claim claimDueScanSchedules
      dsimp only
      rw [Table.find?_updateWhere]
      cases hfound : w.schedules.find? id with
      | none => rfl
      | some row =>
        obtain rfl : row.id = id := Table.key_of_find? hfound
        rw [Option.map_some, if_neg (by simpa using hpicked)]
    refine still_of_row hsame ?_
    -- a run started by hand leaves the row alone, and a leased run is still there
    rintro ⟨run, hrun, hrest⟩
    exact ⟨run, List.mem_append_left _ hrun, hrest⟩

/-- What the record of a scheduled run leaves of its own row. -/
theorem record_scheduled {n : Nat} {run : Run} {outcome : Outcome} {schedules : ScanSchedules}
    (hid : run.item.id = id) (htrigger : run.trigger = .scheduled)
    (hplan : (scheduleDial id).plan w = some run.item.plan)
    (hok : recordScanScheduleRun w.schedules w.clock run.item.id (run.nextRun (valid due))
      outcome.job (outcome.error run.trigger) = .ok schedules) :
    (scheduleDial id).plan ({ w with schedules := schedules }.setPhase n run (.recorded outcome)) =
        some run.item.plan ∧
      (scheduleDial id).next ({ w with schedules := schedules }.setPhase n run (.recorded outcome)) =
        some (due run.item.plan run.seen) := by
  obtain ⟨hplan', hnext'⟩ := record_dial id hok
  obtain ⟨row, hfound, hrow⟩ := Option.map_eq_some_iff.mp hplan
  refine ⟨hplan'.trans hplan, hnext'.trans ?_⟩
  rw [hfound, Option.map_some, if_pos hid, Run.nextRun, htrigger]
  rfl

/-- A record of another schedule, or of a run started by hand, leaves the dial alone. -/
theorem record_still {n : Nat} {run : Run} {outcome : Outcome} {schedules : ScanSchedules}
    (hrun : w.runs[n]? = some run) (hother : ¬ (run.item.id = id ∧ run.trigger = .scheduled))
    (hok : recordScanScheduleRun w.schedules w.clock run.item.id (run.nextRun (valid due))
      outcome.job (outcome.error run.trigger) = .ok schedules) :
    (scheduleDial id).Move due past w
      ({ w with schedules := schedules }.setPhase n run (.recorded outcome)) := by
  obtain ⟨hplan, hnext⟩ := record_dial id hok
  refine .still hplan (hnext.trans ?_) fun hleased => ?_
  · by_cases hid : run.item.id = id
    · have hmanual : run.nextRun (valid due) = none := by
        cases htrigger : run.trigger with
        | scheduled => exact absurd ⟨hid, htrigger⟩ hother
        | manual => rw [Run.nextRun, htrigger]
      rw [hmanual]
      exact congrArg (fun f => (w.schedules.find? id).map f) (funext fun row => ite_self _)
    · exact congrArg (fun f => (w.schedules.find? id).map f) (funext fun row => if_neg hid)
  · exact leased_setPhase (w := { w with schedules := schedules }) hrun
      (fun hid htrigger => absurd ⟨hid, htrigger⟩ hother) hleased

theorem unrecorded_finished {run : Run} {outcome : Outcome} (h : run.phase = .finished outcome) :
    outcome ∈ run.unrecorded := by
  simp [Run.unrecorded, h]

theorem record_move {x : Traced World} {n : Nat} (hedit : Unedited id x (.record n))
    (hanswer : Answered x.now (.record n)) :
    (scheduleDial id).Move due x.past x.now (act pg (valid due) x.now (.record n)) := by
  unfold act
  dsimp only
  split
  · exact still_of_row rfl fun hleased => hleased
  rename_i run hrun
  split
  swap
  · exact still_of_row rfl fun hleased => hleased
  rename_i outcome hphase
  split
  · -- the record call does not fail
    rename_i hfailed
    have := hanswer run hrun outcome (unrecorded_finished hphase)
    unfold recordScanScheduleRun at hfailed
    split at hfailed
    · contradiction
    · cases hfailed
  rename_i schedules hok
  by_cases hown : run.item.id = id ∧ run.trigger = .scheduled
  · obtain ⟨hplan, hstored⟩ := hedit run hrun hown.1 hown.2
      (Option.ne_none_iff_exists'.mpr ⟨outcome, unrecorded_finished hphase⟩)
    obtain ⟨hplan', hnext'⟩ := record_scheduled (n := n) hown.1 hown.2 hplan hok
    exact .record run.item.plan run.seen hplan' hstored hnext'
  · exact record_still hrun hown hok

theorem act_move {x : Traced World} {a : Act} (hedit : Unedited id x a)
    (hanswer : Answered x.now a) :
    (scheduleDial id).Move due x.past x.now (act pg (valid due) x.now a) := by
  -- edits, ticks and records have lemmas of their own; all other acts leave the row and its lease
  cases a with
  | pass duration => exact still_of_row rfl fun hleased => hleased
  | createSchedule other input =>
    unfold act
    simp only [next_valid]
    split
    · exact still_of_row rfl fun hleased => hleased
    · rename_i hok
      exact edit_move (createSchedule_dial id hok)
  | updateSchedule other input =>
    unfold act
    simp only [next_valid]
    split
    · exact still_of_row rfl fun hleased => hleased
    · rename_i hok
      exact edit_move (updateSchedule_dial id hok)
  | tick age locked tie => exact tick_move age locked tie
  | runNow other =>
    unfold act
    dsimp only
    split
    · exact still_of_row rfl fun hleased => hleased
    · refine still_of_row rfl ?_
      rintro ⟨run, hrun, hrest⟩
      exact ⟨run, List.mem_append_left _ hrun, hrest⟩
  | create n agents jobID input targets error =>
    unfold act
    dsimp only
    split
    · exact still_of_row rfl fun hleased => hleased
    rename_i run hrun
    split
    · exact still_of_row rfl fun hleased => hleased
    split
    · exact still_of_row rfl
        fun hleased => leased_setPhase (w := { x.now with scan := _ }) hrun (fun _ _ => rfl) hleased
    · exact still_of_row rfl
        fun hleased => leased_setPhase (w := { x.now with scan := _ }) hrun (fun _ _ => rfl) hleased
  | giveUp n outcome =>
    unfold act
    dsimp only
    split
    · exact still_of_row rfl fun hleased => hleased
    rename_i run hrun
    split
    · exact still_of_row rfl fun hleased => hleased
    · exact still_of_row rfl fun hleased => leased_setPhase hrun (fun _ _ => rfl) hleased
  | record n => exact record_move hedit hanswer
  | scan op => exact still_of_row rfl fun hleased => hleased

/-- An edit, and the record of a scheduled run, set the time right. -/
theorem completes_onTime {x : Traced World} {a : Act} (hedit : Unedited id x a)
    (hanswer : Answered x.now a) (h : Completes id x.now a) :
    (scheduleDial id).OnTime due (x.step (act pg (valid due)) a) := by
  cases a with
  | createSchedule other input =>
    obtain ⟨rfl, hnone⟩ := h
    have hok : createScanSchedule x.now.schedules x.now.clock other input
        (due input.plan x.now.clock) = .ok _ := if_neg (not_not.mpr hnone)
    obtain ⟨hplan, hnext⟩ := (createSchedule_dial other hok).1 rfl
    refine .edit input.plan ?_ ?_ <;> simp only [act, next_valid, hok]
    · exact hplan
    · exact hnext
  | updateSchedule other input =>
    obtain ⟨rfl, hsome⟩ := h
    obtain ⟨row, hfound⟩ := Option.ne_none_iff_exists'.mp hsome
    -- the row is there, and so the update goes through
    obtain ⟨schedules, hok⟩ : ∃ schedules, updateScanSchedule x.now.schedules x.now.clock other
        input (due input.plan x.now.clock) = .ok schedules := by
      unfold updateScanSchedule
      rw [hfound]
      exact ⟨_, rfl⟩
    obtain ⟨hplan, hnext⟩ := (updateSchedule_dial other hok).1 rfl
    refine .edit input.plan ?_ ?_ <;> simp only [act, next_valid, hok]
    · exact hplan
    · exact hnext
  | record n =>
    obtain ⟨run, hrun, hid, htrigger, hunrecorded⟩ := h
    obtain ⟨hplan, hstored⟩ := hedit run hrun hid htrigger hunrecorded
    obtain ⟨outcome, houtcome⟩ := Option.ne_none_iff_exists'.mp hunrecorded
    have hphase : run.phase = .finished outcome := by
      unfold Run.unrecorded at houtcome
      split at houtcome
      · cases houtcome
        assumption
      · cases houtcome
    -- the text of the error is one the server takes, and so the record goes through
    obtain ⟨lastError, htext⟩ := Option.ne_none_iff_exists'.mp (hanswer run hrun outcome houtcome)
    obtain ⟨schedules, hok⟩ : ∃ schedules, recordScanScheduleRun x.now.schedules x.now.clock
        run.item.id (run.nextRun (valid due)) outcome.job (outcome.error run.trigger) =
          .ok schedules := by
      unfold recordScanScheduleRun
      rw [htext]
      exact ⟨_, rfl⟩
    -- it writes the time that follows from the plan the run has seen, which is still in force
    obtain ⟨hplan', hnext'⟩ := record_scheduled (n := n) hid htrigger hplan hok
    have hrun : x.now.runs[n]? = some run := hrun
    refine .record run.item.plan run.seen ?_ hstored ?_ <;>
      simp only [act, hrun, hphase, hok]
    · exact hplan'
    · exact hnext'
  | _ => exact h.elim

end Edits

/-- The law for one schedule, in the runs whose steps all meet `P`: once it was created, edited or
run, its next time is the one its expression and timezone give, for an instant at which they were
in force, whenever no run of it is in flight. -/
def ScheduleLaw (pg : Postgres) (due : Plan → Timestamp → Timestamp)
    (P : UUID → Traced World → Act → Prop) : Prop :=
  ∀ (clock : Timestamp) (id : UUID) (before after : List Act) (a : Act),
    Along (Traced.step (act pg (valid due))) (P id) (.start (.start clock)) (before ++ a :: after) →
    Completes id (play pg (valid due) (.start clock) before) a →
    Idle id (play pg (valid due) (.start clock) (before ++ a :: after)) →
      (scheduleDial id).OnTime due
        ((before ++ a :: after).foldl (Traced.step (act pg (valid due))) (.start (.start clock)))

theorem scheduleLaw (pg : Postgres) (due : Plan → Timestamp → Timestamp) :
    ScheduleLaw pg due fun id x a => Answered x.now a ∧ Unedited id x a := by
  intro clock id before after a h hcompletes hidle
  have hnow : ∀ acts : List Act,
      (acts.foldl (Traced.step (act pg (valid due))) (.start (.start clock))).now =
        play pg (valid due) (.start clock) acts := fun acts => Traced.foldl_now _ acts _
  refine Dial.onTime (fun x a => Completes id x.now a)
    (fun x a hp => act_move hp.2 hp.1) (fun x a hp => completes_onTime hp.2 hp.1) h ?_ ?_
  · rwa [hnow]
  · rw [hnow]
    exact hidle.not_leased

end Cfscan.Schedule
