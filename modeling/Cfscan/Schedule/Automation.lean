import Cfscan.Schedule.Edits

/-!
# Edits of the other automations — `internal/automation/service.go`

Blacklist rechecks and source syncs go through one loop: `RunDue` claims the due rows and records
the next time of each when its work is done; `RunStartup` does so for the rows it lists, which it
does not claim; a run started by hand records no next time. A run can read the clock some time
before it has its row, or, at startup, after.

The loop is one definition over an `AutomationKind`: which rows a claim picks, whether it returns
them or they are read by a statement of their own, and which rows run at startup. The blacklist
recheck and the source sync are the two kinds, and `automationLaw` is proved once for any of them.
What the work of a run is, a round of rechecks or a sync, plays no part in it: a run ends with an
error or without.

The law is the one of scan schedules with two differences in its condition. A run started by hand is
exempt, since it records no next time, and a run at startup is not, though it holds no lease.
-/

set_option autoImplicit false

namespace Cfscan.Schedule

open Cfscan.Lib Cfscan.Store Cfscan.Scan

/-! ## The service

One loop for two automations. The parameter `kind` has what differs; the phases of a run are
those of the source, from the claim over the reading of the row to the record. -/

inductive AutomationTrigger where
  | scheduled
  | startup
  | manual
deriving DecidableEq, Repr

inductive AutomationPhase where
  | working
  | recorded
  /-- The record call itself failed. -/
  | lost
deriving DecidableEq, Repr

structure AutomationRun (β : Type) where
  key : String
  trigger : AutomationTrigger
  /-- What the run read off the clock. -/
  seen : Option Timestamp
  /-- The row as it was claimed, listed or read. -/
  item : Option (AutomationRow β)
  phase : AutomationPhase

structure Automations (β : Type) where
  clock : Timestamp
  rows : AutomationRows β
  runs : List (AutomationRun β)

inductive AutomationAct (β : Type) where
  | pass (duration : Nat)
  | update (key : String) (input : UpdateAutomation β)
  /-- `RunDue` claims, `age` after it read the clock. -/
  | claim (age : Nat) (busy locked : String → Bool) (tie : String → Nat)
  /-- The row of a claim that does not return it. -/
  | read (run : Nat)
  | listStartup
  /-- `RunStartup` reads the clock. -/
  | readClock (run : Nat)
  | runNow (key : String)
  /-- The work of a run is done, with an error or none, and it records. -/
  | record (run : Nat) (runErr : Option String)

section Service

variable {β : Type}

def Automations.start (clock : Timestamp) (rows : AutomationRows β) : Automations β :=
  ⟨clock, rows, []⟩

def Automations.setRun (w : Automations β) (n : Nat) (run : AutomationRun β) : Automations β :=
  { w with runs := w.runs.set n run }

/-- What a run hands to the record call: the next time, and the error. `none` while it has not
read what it takes. -/
def AutomationRun.outcome (cron : Cron) (run : AutomationRun β) (runErr : Option String) :
    Option (Option Timestamp × Option String) :=
  match run.trigger, run.item, run.seen with
  | .manual, some _, _ => some (none, runErr)
  | _, some item, some seen =>
    match next cron item.plan seen with
    | .error error => some (none, some error)
    | .ok nextRun => some (some nextRun, runErr)
  | _, _, _ => none

def automate (kind : AutomationKind β) (cron : Cron) (w : Automations β) :
    AutomationAct β → Automations β
  | .pass duration => { w with clock := w.clock + duration }
  | .update key input =>
    match next cron input.plan w.clock with
    | .error _ => w
    | .ok nextRun => { w with rows := updateAutomation w.rows w.clock key input nextRun }
  | .claim age busy locked tie =>
    let now := w.clock - age
    let picked := kind.picked busy locked tie now w.rows
    { w with
      rows := claimAutomations w.rows w.clock (now + claimLease) picked
      runs := w.runs ++ picked.map fun row =>
        { key := row.key, trigger := .scheduled, seen := some now, phase := .working
          item := if kind.returning then some (row.claim w.clock (now + claimLease)) else none } }
  | .read n =>
    match w.runs[n]? with
    | none => w
    | some run =>
      match run.item with
      | some _ => w
      | none => w.setRun n { run with item := w.rows.find? run.key }
  | .listStartup =>
    { w with
      runs := w.runs ++ (w.rows.rows.filter kind.startup).map fun row =>
        { key := row.key, trigger := .startup, seen := none, item := some row, phase := .working } }
  | .readClock n =>
    match w.runs[n]? with
    | none => w
    | some run =>
      match run.seen with
      | some _ => w
      | none => w.setRun n { run with seen := some w.clock }
  | .runNow key =>
    match w.rows.find? key with
    | none => w
    | some row =>
      { w with
        runs := w.runs ++
          [{ key := key, trigger := .manual, seen := none, item := some row, phase := .working }] }
  | .record n runErr =>
    match w.runs[n]? with
    | none => w
    | some run =>
      if run.phase ≠ .working then w
      else
        match run.outcome cron runErr with
        | none => w
        | some (nextRun, error) =>
          match recordAutomationRun w.rows w.clock run.key nextRun error with
          | none => w.setRun n { run with phase := .lost }
          | some rows => { w with rows := rows }.setRun n { run with phase := .recorded }

/-- The automations after a sequence of acts. -/
def automateAll (kind : AutomationKind β) (cron : Cron) (w : Automations β)
    (acts : List (AutomationAct β)) : Automations β :=
  acts.foldl (automate kind cron) w

/-! ## The law and the conditions

A dial is what the timetable sees of an automation: its plan, its next time, and whether a
run holds its lease. The law is stated once for dials, in the library. -/

/-- One automation, as the timetable sees it. -/
def automationDial (key : String) : Dial (Automations β) Plan Timestamp where
  clock := Automations.clock
  plan := fun w => (w.rows.find? key).map AutomationRow.plan
  next := fun w => (w.rows.find? key).map AutomationRow.nextRunAt
  leased := fun w => ∃ run ∈ w.runs, run.key = key ∧ run.trigger = .scheduled ∧
    run.phase = .working

/-- No record call fails. -/
def AutomationAnswered (cron : Cron) (w : Automations β) : AutomationAct β → Prop
  | .record n runErr => ∀ run ∈ w.runs[n]?, ∀ outcome ∈ run.outcome cron runErr,
    lastErrorText outcome.2 ≠ none
  | _ => True

/-- When a run records a next time, its row has the expression and the timezone the run read, and
they were in force at the instant the run read off the clock. -/
def AutomationUnedited (key : String) (x : Traced (Automations β)) : AutomationAct β → Prop
  | .record n _ => ∀ run ∈ x.now.runs[n]?, run.key = key → run.trigger ≠ .manual →
    run.phase = .working → ∀ item ∈ run.item, ∀ seen ∈ run.seen,
      (automationDial key).plan x.now = some item.plan ∧
        (automationDial key).Stored x.past seen item.plan
  | _ => True

/-- The act edits the automation, or a run of it that claimed or listed the row is over with the
act. -/
def AutomationCompletes (key : String) (w : Automations β) : AutomationAct β → Prop
  | .update other _ => other = key ∧ w.rows.find? key ≠ none
  | .record n _ => ∃ run ∈ w.runs[n]?, run.key = key ∧ run.trigger ≠ .manual ∧
    run.phase = .working ∧ run.item ≠ none ∧ run.seen ≠ none
  | _ => False

/-- No run of the automation is still going. -/
def AutomationIdle (key : String) (w : Automations β) : Prop :=
  ∀ run ∈ w.runs, run.key = key → run.phase ≠ .working

instance (cron : Cron) (w : Automations β) :
    (a : AutomationAct β) → Decidable (AutomationAnswered cron w a)
  | .record n runErr => inferInstanceAs (Decidable (∀ run ∈ w.runs[n]?,
      ∀ outcome ∈ run.outcome cron runErr, lastErrorText outcome.2 ≠ none))
  | .pass _ | .update _ _ | .claim _ _ _ _ | .read _ | .listStartup | .readClock _ | .runNow _ =>
    inferInstanceAs (Decidable True)

instance (key : String) (w : Automations β) :
    (a : AutomationAct β) → Decidable (AutomationCompletes key w a)
  | .update other _ => decidable_of_iff (other = key ∧ (w.rows.find? key).isSome = true)
      (and_congr_right fun _ => Option.isSome_iff_ne_none)
  | .record n _ => decidable_of_iff (∃ run ∈ w.runs[n]?, run.key = key ∧ run.trigger ≠ .manual ∧
      run.phase = .working ∧ run.item.isSome = true ∧ run.seen ≠ none)
      (by simp only [Option.isSome_iff_ne_none]; exact Iff.rfl)
  | .pass _ | .claim _ _ _ _ | .read _ | .listStartup | .readClock _ | .runNow _ =>
    inferInstanceAs (Decidable False)

instance (key : String) (w : Automations β) : Decidable (AutomationIdle key w) :=
  inferInstanceAs (Decidable (∀ run ∈ w.runs, run.key = key → run.phase ≠ .working))

variable {kind : AutomationKind β} {due : Plan → Timestamp → Timestamp} {key : String}
  {w : Automations β} {past : List (Automations β)}

theorem AutomationIdle.not_leased (h : AutomationIdle key w) :
    ¬ (automationDial key).leased w := by
  rintro ⟨run, hrun, hkey, -, hphase⟩
  exact h run hrun hkey hphase

/-! ## What an act does to the dial of one automation

An act moves the dial in one of the ways the library lists, or leaves it still. Only the
record of a run needs the condition, and it needs it for its own row. -/

theorem still_of_automation {w' : Automations β} (hrow : w'.rows.find? key = w.rows.find? key)
    (hleased : (automationDial key).leased w → (automationDial key).leased w') :
    (automationDial key).Move due past w w' :=
  .still (congrArg (Option.map AutomationRow.plan) hrow)
    (congrArg (Option.map AutomationRow.nextRunAt) hrow) hleased

theorem leased_setRun {n : Nat} {run run' : AutomationRun β} (hrun : w.runs[n]? = some run)
    (hstays : run.key = key → run.trigger = .scheduled → run.phase = .working →
      run'.key = key ∧ run'.trigger = .scheduled ∧ run'.phase = .working)
    (h : (automationDial key).leased w) : (automationDial key).leased (w.setRun n run') := by
  obtain ⟨other, hother, hkey, htrigger, hphase⟩ := h
  obtain ⟨i, hi⟩ := List.mem_iff_getElem?.mp hother
  by_cases hn : n = i
  · subst hn
    obtain rfl : run = other := Option.some.inj (hrun.symm.trans hi)
    exact ⟨run', List.mem_set (List.getElem?_eq_some_iff.mp hrun).1 _,
      hstays hkey htrigger hphase⟩
  · refine ⟨other, List.mem_of_getElem? (i := i) ?_, hkey, htrigger, hphase⟩
    rw [Automations.setRun, List.getElem?_set_ne hn]
    exact hi

theorem leased_append {rows : AutomationRows β} {runs : List (AutomationRun β)}
    (h : (automationDial key).leased w) :
    (automationDial key).leased { w with rows := rows, runs := w.runs ++ runs } := by
  obtain ⟨run, hrun, hrest⟩ := h
  exact ⟨run, List.mem_append_left _ hrun, hrest⟩

theorem update_dial {other : String} (input : UpdateAutomation β) (nextRun now : Timestamp) :
    (other = key → w.rows.find? key ≠ none →
        ((updateAutomation w.rows now other input nextRun).find? key).map AutomationRow.plan =
            some input.plan ∧
          ((updateAutomation w.rows now other input nextRun).find? key).map
            AutomationRow.nextRunAt = some nextRun) ∧
      (other ≠ key ∨ w.rows.find? key = none →
        (updateAutomation w.rows now other input nextRun).find? key = w.rows.find? key) := by
  unfold updateAutomation
  rw [Table.find?_updateWhere]
  cases hfound : w.rows.find? key with
  | none => exact ⟨fun _ hne => absurd rfl hne, fun _ => rfl⟩
  | some row =>
    obtain rfl : row.key = key := Table.key_of_find? hfound
    constructor
    · rintro rfl -
      simp [AutomationRow.update]
    · rintro (hne | hnone)
      · simp [Ne.symm hne]
      · cases hnone

/-- The row a record leaves. -/
theorem recordAutomation_dial (key : String) {now : Timestamp} {other : String}
    {nextRun : Option Timestamp} {runErr : Option String} {rows : AutomationRows β}
    (hok : recordAutomationRun w.rows now other nextRun runErr = some rows) :
    (rows.find? key).map AutomationRow.plan = (w.rows.find? key).map AutomationRow.plan ∧
      (rows.find? key).map AutomationRow.nextRunAt =
        (w.rows.find? key).map fun row =>
          if other = key then nextRun.getD row.nextRunAt else row.nextRunAt := by
  obtain ⟨lastError, _, rfl⟩ := Option.map_eq_some_iff.mp hok
  rw [Table.find?_updateWhere, Option.map_map, Option.map_map]
  cases hfound : w.rows.find? key with
  | none => exact ⟨rfl, rfl⟩
  | some row =>
    obtain rfl : row.key = key := Table.key_of_find? hfound
    simp only [Option.map_some, Function.comp_apply]
    by_cases hkey : row.key = other
    · simp [hkey, AutomationRow.record]
    · simp [hkey, Ne.symm hkey]

theorem claim_move (age : Nat) (busy locked : String → Bool) (tie : String → Nat) :
    (automationDial key).Move due past w
      (automate kind (valid due) w (.claim age busy locked tie)) := by
  unfold automate
  dsimp only
  generalize kind.picked busy locked tie (w.clock - age) w.rows = picked
  by_cases hpicked : key ∈ picked.map AutomationRow.key
  · obtain ⟨row, hrow, rfl⟩ := List.mem_map.mp hpicked
    exact .claim ⟨_, List.mem_append_right _ (List.mem_map_of_mem hrow), rfl, rfl, rfl⟩
  · refine still_of_automation ?_ leased_append
    show (claimAutomations w.rows w.clock _ picked).find? key = w.rows.find? key
    unfold claimAutomations
    rw [Table.find?_updateWhere]
    cases hfound : w.rows.find? key with
    | none => rfl
    | some row =>
      obtain rfl : row.key = key := Table.key_of_find? hfound
      rw [Option.map_some, if_neg (by simpa using hpicked)]

/-- A run started by hand records no next time; the others record the one they worked out. -/
theorem outcome_valid {run : AutomationRun β} {runErr error : Option String}
    {nextRun : Option Timestamp} (h : run.outcome (valid due) runErr = some (nextRun, error)) :
    (run.trigger = .manual ∧ nextRun = none) ∨
      (run.trigger ≠ .manual ∧ ∃ item seen, run.item = some item ∧ run.seen = some seen ∧
        nextRun = some (due item.plan seen)) := by
  unfold AutomationRun.outcome at h
  split at h
  · rename_i htrigger _
    cases h
    exact Or.inl ⟨htrigger, rfl⟩
  · rename_i item seen hitem hseen hmanual
    cases h
    exact Or.inr ⟨hmanual, item, seen, hitem, hseen, rfl⟩
  · cases h

/-- What the record of a run that is not started by hand leaves of its own row. -/
theorem recordAutomation_own (n : Nat) (run' : AutomationRun β) {run : AutomationRun β}
    {item : AutomationRow β} {seen : Timestamp} {error : Option String} {rows : AutomationRows β}
    (hkey : run.key = key)
    (hplan : (automationDial key).plan w = some item.plan)
    (hok : recordAutomationRun w.rows w.clock run.key (some (due item.plan seen)) error =
      some rows) :
    (automationDial key).plan ({ w with rows := rows }.setRun n run') = some item.plan ∧
      (automationDial key).next ({ w with rows := rows }.setRun n run') =
        some (due item.plan seen) := by
  obtain ⟨hplan', hnext'⟩ := recordAutomation_dial key hok
  obtain ⟨row, hfound, _⟩ := Option.map_eq_some_iff.mp hplan
  refine ⟨hplan'.trans hplan, hnext'.trans ?_⟩
  rw [hfound, Option.map_some, if_pos hkey]
  rfl

/-- A record of another automation, or of a run started by hand, leaves the dial alone. -/
theorem recordAutomation_still {n : Nat} {run : AutomationRun β} {nextRun : Option Timestamp}
    {error : Option String} {rows : AutomationRows β} (hrun : w.runs[n]? = some run)
    (hother : run.key = key → run.trigger = .manual ∧ nextRun = none)
    (hok : recordAutomationRun w.rows w.clock run.key nextRun error = some rows) :
    (automationDial key).Move due past w
      ({ w with rows := rows }.setRun n { run with phase := .recorded }) := by
  obtain ⟨hplan, hnext⟩ := recordAutomation_dial key hok
  refine .still hplan (hnext.trans ?_) fun hleased => ?_
  · by_cases hkey : run.key = key
    · rw [(hother hkey).2]
      exact congrArg (fun f => (w.rows.find? key).map f) (funext fun row => ite_self _)
    · exact congrArg (fun f => (w.rows.find? key).map f) (funext fun row => if_neg hkey)
  · refine leased_setRun (w := { w with rows := rows }) hrun (fun hkey htrigger _ => ?_) hleased
    rw [(hother hkey).1] at htrigger
    cases htrigger

theorem recordAutomation_move {x : Traced (Automations β)} {n : Nat} {runErr : Option String}
    (hedit : AutomationUnedited key x (.record n runErr))
    (hanswer : AutomationAnswered (valid due) x.now (.record n runErr)) :
    (automationDial key).Move due x.past x.now
      (automate kind (valid due) x.now (.record n runErr)) := by
  unfold automate
  dsimp only
  split
  · exact still_of_automation rfl fun hleased => hleased
  rename_i run hrun
  split
  · exact still_of_automation rfl fun hleased => hleased
  rename_i hworking
  split
  · exact still_of_automation rfl fun hleased => hleased
  rename_i nextRun error houtcome
  split
  · -- the record call does not fail
    rename_i hfailed
    exact absurd (Option.map_eq_none_iff.mp hfailed) (hanswer run hrun _ houtcome)
  rename_i rows hok
  rcases outcome_valid houtcome with hmanual | ⟨hmanual, item, seen, hitem, hseen, rfl⟩
  · exact recordAutomation_still hrun (fun _ => hmanual) hok
  by_cases hkey : run.key = key
  · obtain ⟨hplan, hstored⟩ :=
      hedit run hrun hkey hmanual (not_not.mp hworking) item hitem seen hseen
    obtain ⟨hplan', hnext'⟩ := recordAutomation_own n
      { run with phase := .recorded } hkey hplan hok
    exact .record item.plan seen hplan' hstored hnext'
  · exact recordAutomation_still hrun (fun hsame => absurd hsame hkey) hok

theorem automate_move {x : Traced (Automations β)} {a : AutomationAct β}
    (hedit : AutomationUnedited key x a) (hanswer : AutomationAnswered (valid due) x.now a) :
    (automationDial key).Move due x.past x.now (automate kind (valid due) x.now a) := by
  cases a with
  | pass duration => exact still_of_automation rfl fun hleased => hleased
  | update other input =>
    unfold automate
    simp only [next_valid]
    by_cases hown : other = key ∧ x.now.rows.find? key ≠ none
    · -- its own row is edited: the plan and the next run are those of the input
      obtain ⟨hplan, hnext⟩ := (update_dial input _ _).1 hown.1 hown.2
      exact .edit input.plan hplan hnext
    · rw [not_and_or, not_not] at hown
      exact still_of_automation ((update_dial input _ _).2 hown) fun hleased => hleased
  | claim age busy locked tie => exact claim_move age busy locked tie
  | read n =>
    unfold automate
    dsimp only
    split
    · exact still_of_automation rfl fun hleased => hleased
    rename_i run hrun
    split
    · exact still_of_automation rfl fun hleased => hleased
    · exact still_of_automation rfl (leased_setRun hrun fun hkey htrigger hphase =>
        ⟨hkey, htrigger, hphase⟩)
  | listStartup => exact still_of_automation rfl leased_append
  | readClock n =>
    unfold automate
    dsimp only
    split
    · exact still_of_automation rfl fun hleased => hleased
    rename_i run hrun
    split
    · exact still_of_automation rfl fun hleased => hleased
    · exact still_of_automation rfl (leased_setRun hrun fun hkey htrigger hphase =>
        ⟨hkey, htrigger, hphase⟩)
  | runNow other =>
    unfold automate
    dsimp only
    split
    · exact still_of_automation rfl fun hleased => hleased
    · exact still_of_automation rfl leased_append
  | record n runErr => exact recordAutomation_move hedit hanswer

/-- An edit, and the record of a run that was not started by hand, set the time right. -/
theorem automationCompletes_onTime {x : Traced (Automations β)} {a : AutomationAct β}
    (hedit : AutomationUnedited key x a) (hanswer : AutomationAnswered (valid due) x.now a)
    (h : AutomationCompletes key x.now a) :
    (automationDial key).OnTime due (x.step (automate kind (valid due)) a) := by
  cases a with
  | update other input =>
    obtain ⟨hother, hsome⟩ := h
    obtain ⟨hplan, hnext⟩ :=
      (update_dial input (due input.plan x.now.clock) x.now.clock).1 hother hsome
    exact .edit input.plan hplan hnext
  | record n runErr =>
    obtain ⟨run, hrun, hkey, hmanual, hworking, hitem, hseen⟩ := h
    obtain ⟨item, hitem⟩ := Option.ne_none_iff_exists'.mp hitem
    obtain ⟨seen, hseen⟩ := Option.ne_none_iff_exists'.mp hseen
    obtain ⟨hplan, hstored⟩ := hedit run hrun hkey hmanual hworking item hitem seen hseen
    have houtcome : run.outcome (valid due) runErr = some (some (due item.plan seen), runErr) := by
      unfold AutomationRun.outcome
      rw [hitem, hseen]
      cases htrigger : run.trigger with
      | manual => exact absurd htrigger hmanual
      | scheduled => rfl
      | startup => rfl
    obtain ⟨lastError, htext⟩ :=
      Option.ne_none_iff_exists'.mp (hanswer run hrun _ houtcome)
    obtain ⟨rows, hok⟩ : ∃ rows, recordAutomationRun x.now.rows x.now.clock run.key
        (some (due item.plan seen)) runErr = some rows := by
      unfold recordAutomationRun
      rw [htext]
      exact ⟨_, rfl⟩
    obtain ⟨hplan', hnext'⟩ := recordAutomation_own n
      { run with phase := .recorded } hkey hplan hok
    have hrun : x.now.runs[n]? = some run := hrun
    have hphase : ¬ run.phase ≠ .working := not_not.mpr hworking
    refine .record item.plan seen ?_ hstored ?_ <;>
      simp only [automate, hrun, if_neg hphase, houtcome, hok]
    · exact hplan'
    · exact hnext'
  | _ => exact h.elim

end Service

/-- The law for one automation of a kind, in the runs whose steps all meet `P`. -/
def AutomationLaw {β : Type} (kind : AutomationKind β) (due : Plan → Timestamp → Timestamp)
    (P : String → Traced (Automations β) → AutomationAct β → Prop) : Prop :=
  ∀ (clock : Timestamp) (rows : AutomationRows β) (key : String)
    (before after : List (AutomationAct β)) (a : AutomationAct β),
    Along (Traced.step (automate kind (valid due))) (P key) (.start (.start clock rows))
      (before ++ a :: after) →
    AutomationCompletes key (automateAll kind (valid due) (.start clock rows) before) a →
    AutomationIdle key (automateAll kind (valid due) (.start clock rows) (before ++ a :: after)) →
      (automationDial key).OnTime due
        ((before ++ a :: after).foldl (Traced.step (automate kind (valid due)))
          (.start (.start clock rows)))

theorem automationLaw {β : Type} (kind : AutomationKind β) (due : Plan → Timestamp → Timestamp) :
    AutomationLaw kind due fun key x a =>
      AutomationAnswered (valid due) x.now a ∧ AutomationUnedited key x a := by
  intro clock rows key before after a h hcompletes hidle
  have hnow : ∀ acts : List (AutomationAct β),
      (acts.foldl (Traced.step (automate kind (valid due))) (.start (.start clock rows))).now =
        automateAll kind (valid due) (.start clock rows) acts := fun acts =>
    Traced.foldl_now _ acts _
  refine Dial.onTime (fun x a => AutomationCompletes key x.now a)
    (fun x a hp => automate_move hp.2 hp.1)
    (fun x a hp => automationCompletes_onTime hp.2 hp.1) h ?_ ?_
  · rwa [hnow]
  · rw [hnow]
    exact hidle.not_leased

/-- **No edit is lost**, in the runs in which no expression or timezone has changed between the
instant a run reads off the clock and its record: of scan schedules, of the blacklist recheck, and
of the source syncs. -/
theorem no_lost_edit (pg : Postgres) (due : Plan → Timestamp → Timestamp) :
    ScheduleLaw pg due (fun id x a => Answered x.now a ∧ Unedited id x a) ∧
      AutomationLaw blacklistRecheck due (fun key x a =>
        AutomationAnswered (valid due) x.now a ∧ AutomationUnedited key x a) ∧
      AutomationLaw sourceSync due (fun key x a =>
        AutomationAnswered (valid due) x.now a ∧ AutomationUnedited key x a) :=
  ⟨scheduleLaw pg due, automationLaw blacklistRecheck due, automationLaw sourceSync due⟩

/-! ## An edit during a run -/

/-- The dues of a cron library for which every expression parses: every hour, but for `daily`. -/
def twoDue (plan : Plan) (t : Timestamp) : Timestamp :=
  if plan = daily then (t / day + 1) * day else (t / hour + 1) * hour

/-- The schedule runs once, and is made daily when the run is over. -/
theorem no_lost_edit_oneRun :
    (scheduleDial 9).OnTime twoDue
      (List.foldl (Traced.step (act oneAddress (valid twoDue))) (.start (.start 0))
        (oneSchedule ++ .tick 0 (fun _ => false) (fun _ => 0) ::
          [.giveUp 0 (.failed "no online agents selected"), .record 0, .updateSchedule 9
            { enabled := true, plan := daily, jobRequest := oneTarget }])) := by
  have hacts : oneSchedule ++ Act.tick 0 (fun _ => false) (fun _ => 0) ::
      [.giveUp 0 (.failed "no online agents selected"), .record 0, .updateSchedule 9
        { enabled := true, plan := daily, jobRequest := oneTarget }] =
      (oneSchedule ++ [.tick 0 (fun _ => false) (fun _ => 0),
        .giveUp 0 (.failed "no online agents selected")]) ++ .record 0 :: [.updateSchedule 9
          { enabled := true, plan := daily, jobRequest := oneTarget }] := by
    rw [List.append_assoc, List.cons_append, List.cons_append, List.nil_append]
  rw [hacts]
  refine (no_lost_edit oneAddress twoDue).1 0 9 _ _ _ ?_ ?_ ?_
  all_goals decide +kernel

/-- The schedule of `oneSchedule` is claimed, made daily, and then the run records. -/
def crossedEdit : List Act :=
  [.tick 0 (fun _ => false) (fun _ => 0),
    .updateSchedule 9 { enabled := true, plan := daily, jobRequest := oneTarget },
    .giveUp 0 (.failed "no online agents selected")]

/-- An hourly automation, due at one o'clock. -/
def oneAutomation {β : Type} (key : String) (settings : β) : AutomationRows β where
  rows := [{ key := key, enabled := true, plan := hourly, settings := settings, nextRunAt := hour
             lastRunAt := none, lastError := "", updatedAt := 0 }]
  nodup := List.nodup_singleton _

/-- It is claimed, its row is read, and it is made daily. -/
def crossedUpdate {β : Type} (key : String) (settings : β) : List (AutomationAct β) :=
  [.claim 0 (fun _ => false) (fun _ => false) (fun _ => 0), .read 0,
    .update key { enabled := true, plan := daily, settings := settings }]

/-- A daily automation is not due at two. -/
theorem twoDue_daily {σ : Type} {d : Dial σ Plan Timestamp} {x : Traced σ}
    (h : d.plan x.now = some daily ∧ d.next x.now = some (2 * hour)) : ¬ d.OnTime twoDue x := by
  rintro ⟨plan, t, hplan, -, hnext⟩
  obtain rfl : daily = plan := Option.some.inj (h.1.symm.trans hplan)
  have hdue : (2 * 3600000000 : Int) = (t / day + 1) * 86400000000 :=
    Option.some.inj (h.2.symm.trans hnext)
  omega

/-- The edit that commits between the claim and the record is lost, on all three paths. -/
theorem edit_lost_in_run :
    ¬ (∀ (pg : Postgres) (due : Plan → Timestamp → Timestamp),
      ScheduleLaw pg due fun _ x a => Answered x.now a) ∧
    ¬ (∀ due : Plan → Timestamp → Timestamp, AutomationLaw blacklistRecheck due
      fun _ x a => AutomationAnswered (valid due) x.now a) ∧
    ¬ (∀ due : Plan → Timestamp → Timestamp, AutomationLaw sourceSync due
      fun _ x a => AutomationAnswered (valid due) x.now a) := by
  refine ⟨fun h => ?_, fun h => ?_, fun h => ?_⟩
  · refine twoDue_daily (d := scheduleDial 9) ?_ (h oneAddress twoDue 0 9
      (oneSchedule ++ crossedEdit) [] (.record 0) ?_ ?_ ?_)
    all_goals decide +kernel
  · let settings : BlacklistRecheckSettings := ⟨true, 1, 100, true, 3, 1000, 200, 0, 30⟩
    refine twoDue_daily (d := automationDial "default") ?_ (h twoDue hour
      (oneAutomation "default" settings) "default" (crossedUpdate "default" settings) []
        (.record 0 none) ?_ ?_ ?_)
    all_goals decide +kernel
  · let settings : SourceSyncSettings := ⟨"official", false⟩
    refine twoDue_daily (d := automationDial "official") ?_ (h twoDue hour
      (oneAutomation "official" settings) "official" (crossedUpdate "official" settings) []
        (.record 0 none) ?_ ?_ ?_)
    all_goals decide +kernel

end Cfscan.Schedule
