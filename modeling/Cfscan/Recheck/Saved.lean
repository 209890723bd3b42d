import Cfscan.Lib.Connection
import Cfscan.Scans.Service
import Cfscan.Schedule.Automation

/-!
# Rechecks run as they were saved — `internal/api/api.go`, `internal/automation/service.go`

The settings of the blacklist rechecks are one row. Administrators save them, scheduled runs claim
the row and then read it, and runs started by hand read it. `CreateBlacklistRechecks` has a default
for every setting that is out of range; what the API has let through is in range, and so is the row
the schema inserts.

`rechecks_as_saved`: what a run works with is what was last saved when it read the row, with nothing
filled in, and this is in the jobs it creates and in the entries it puts off.

A claim does not return the row, so a scheduled run works with the settings that are in force when
it reads, which need not be those that made it due. That is why `rechecks_as_saved` speaks of the
act by which the row was read and not of the claim.

Two calls that change the same row come one after the other. What the jobs do once they are created,
and whether two rounds overlap, is in `Recheck.Apart`.
-/

set_option autoImplicit false

namespace Cfscan.Recheck

open Cfscan.Lib Cfscan.Store Cfscan.Scan Cfscan.Schedule
open Cfscan.Scans (orDefault refuseIf refuseIf_bind refuseIf_eq between_iff)

/-! ## Saving the settings -/

/-- `model.UpdateBlacklistRecheckSettingsRequest`. -/
structure UpdateBlacklistRecheckSettingsRequest extends BlacklistRecheckSettings where
  enabled : Bool
  cronExpression : String
  timezone : String
deriving DecidableEq, Repr

/-- The checks of `normalizeBlacklistRecheck`. -/
def validateRecheck (input : UpdateBlacklistRecheckSettingsRequest) : Except String Unit := do
  refuseIf (decide (input.fraction ≤ 0) || decide (input.fraction > 1))
    "fraction must be greater than 0 and no more than 1"
  refuseIf (decide (input.maxTargets < 1) || decide (input.maxTargets > 5000))
    "max_targets must be between 1 and 5000"
  refuseIf (decide (input.attempts < 1) || decide (input.attempts > 10))
    "attempts must be between 1 and 10"
  refuseIf (decide (input.timeoutMS < 500) || decide (input.timeoutMS > 30000))
    "timeout_ms must be between 500 and 30000"
  refuseIf (decide (input.maxLatencyMS ≤ 0) || decide (input.maxLatencyMS > 60000))
    "max_latency_ms must be between 1 and 60000"
  refuseIf (decide (input.maxPacketLoss < 0) || decide (input.maxPacketLoss > 100))
    "max_packet_loss must be between 0 and 100"
  refuseIf (decide (input.retryMinutes < 1) || decide (input.retryMinutes > 10080))
    "retry_minutes must be between 1 and 10080"

/-- `normalizeBlacklistRecheck`: the input it leaves, and the next run. -/
def normalizeBlacklistRecheck (cron : Cron) (instant : Timestamp)
    (input : UpdateBlacklistRecheckSettingsRequest) :
    Except String (UpdateBlacklistRecheckSettingsRequest × Timestamp) := do
  let input := { input with
    cronExpression := orDefault "" (trimSpace input.cronExpression) "*/15 * * * *"
    timezone := orDefault "" (trimSpace input.timezone) "Asia/Shanghai" }
  validateRecheck input
  let nextRun ← next cron ⟨input.cronExpression, input.timezone⟩ instant
  pure (input, nextRun)

def UpdateBlacklistRecheckSettingsRequest.update (input : UpdateBlacklistRecheckSettingsRequest) :
    UpdateAutomation BlacklistRecheckSettings :=
  ⟨input.enabled, ⟨input.cronExpression, input.timezone⟩, input.toBlacklistRecheckSettings⟩

/-- The defaults of the columns, which are in the row the schema inserts. -/
def initialSettings : UpdateBlacklistRecheckSettingsRequest where
  enabled := true
  cronExpression := "*/15 * * * *"
  timezone := "Asia/Shanghai"
  dueOnly := true
  fraction := 1 / 2
  maxTargets := 500
  skipIfRunning := true
  attempts := 3
  timeoutMS := 5000
  maxLatencyMS := 1000
  maxPacketLoss := 50
  retryMinutes := 120

def initialRow (now : Timestamp) : AutomationRow BlacklistRecheckSettings where
  key := "default"
  enabled := initialSettings.enabled
  plan := initialSettings.update.plan
  settings := initialSettings.toBlacklistRecheckSettings
  nextRunAt := now + 15 * minute
  lastRunAt := none
  lastError := ""
  updatedAt := now

/-! ## Runs

`Saves` has the row beside the automation of `Cfscan.Schedule`, with the input that was
saved last. A save that is refused by the checks or by the cron expression leaves both. -/

/-- The row with its runs, and the settings that were saved, in their order. -/
structure Saves where
  automations : Automations BlacklistRecheckSettings
  saved : List UpdateBlacklistRecheckSettingsRequest

inductive SettingsAct where
  | pass (duration : Nat)
  | save (input : UpdateBlacklistRecheckSettingsRequest)
  /-- `RunDue` claims the row, `age` after it read the clock. -/
  | claim (age : Nat)
  /-- The row of a claim is read. -/
  | read (run : Nat)
  | runNow
  | record (run : Nat) (runErr : Option String)

def Saves.initial (clock : Timestamp) : Saves :=
  ⟨.start clock ⟨[initialRow clock], List.nodup_singleton _⟩, []⟩

/-- The last save, or what the schema inserts. -/
def Saves.latest (w : Saves) : UpdateBlacklistRecheckSettingsRequest :=
  w.saved.getLast?.getD initialSettings

/-- `updateBlacklistRecheckSettings`. The server refuses a text it cannot store. -/
def Saves.save (cron : Cron) (w : Saves) (input : UpdateBlacklistRecheckSettingsRequest) : Saves :=
  match normalizeBlacklistRecheck cron w.automations.clock input with
  | .error _ => w
  | .ok (input, nextRun) =>
    if storable input.cronExpression && storable input.timezone then
      { automations :=
          { w.automations with
            rows := updateAutomation w.automations.rows w.automations.clock "default" input.update
              nextRun }
        saved := w.saved ++ [input] }
    else w

def Saves.work (cron : Cron) (w : Saves) (act : AutomationAct BlacklistRecheckSettings) : Saves :=
  { w with automations := automate blacklistRecheck cron w.automations act }

def Saves.act (cron : Cron) (w : Saves) : SettingsAct → Saves
  | .pass duration => w.work cron (.pass duration)
  | .save input => w.save cron input
  | .claim age => w.work cron (.claim age (fun _ => false) (fun _ => false) fun _ => 0)
  | .read n => w.work cron (.read n)
  | .runNow => w.work cron (.runNow "default")
  | .record n runErr => w.work cron (.record n runErr)

def Saves.play (cron : Cron) (clock : Timestamp) (acts : List SettingsAct) : Saves :=
  acts.foldl (Saves.act cron) (.initial clock)

/-- What a run has read. -/
def Saves.item (w : Saves) (n : Nat) : Option (AutomationRow BlacklistRecheckSettings) :=
  w.automations.runs[n]?.bind AutomationRun.item

/-- The row has what was saved. -/
structure HasSaved (input : UpdateBlacklistRecheckSettingsRequest)
    (row : AutomationRow BlacklistRecheckSettings) : Prop where
  enabled : row.enabled = input.enabled
  plan : row.plan = ⟨input.cronExpression, input.timezone⟩
  settings : row.settings = input.toBlacklistRecheckSettings

/-- A recheck job with the settings. -/
structure RunsWith (settings : BlacklistRecheckSettings) (job : ScanJob) : Prop where
  kind : job.kind = "blacklist_recheck"
  attempts : job.attempts = settings.attempts
  timeoutMS : job.timeoutMS = settings.timeoutMS
  maxLatencyMS : job.maxLatencyMS = settings.maxLatencyMS
  maxPacketLoss : job.maxPacketLoss = settings.maxPacketLoss
  blacklistMinutes : job.blacklistMinutes = settings.retryMinutes

/-- What a call adds has the settings. -/
structure AddsWith (settings : BlacklistRecheckSettings) (now : Timestamp) (s s' : ScanStore) :
    Prop where
  jobs : ∀ job ∈ s'.jobs.rows, job ∈ s.jobs.rows ∨ RunsWith settings job
  blacklist : ∀ entry ∈ s'.blacklist.rows, entry ∈ s.blacklist.rows ∨
    entry.retryAfter = now + settings.retryMinutes * minute

/-! ## What is saved is in range

The checks of the API and the defaults of `CreateBlacklistRechecks` draw the same lines, so
that the defaults never apply to what was let through. The row of the schema is in range as
well. -/

theorem validateRecheck_iff {input : UpdateBlacklistRecheckSettingsRequest} :
    validateRecheck input = .ok () ↔
      (0 < input.fraction ∧ input.fraction ≤ 1) ∧
      (1 ≤ input.maxTargets ∧ input.maxTargets ≤ 5000) ∧
      (1 ≤ input.attempts ∧ input.attempts ≤ 10) ∧
      (500 ≤ input.timeoutMS ∧ input.timeoutMS ≤ 30000) ∧
      (0 < input.maxLatencyMS ∧ input.maxLatencyMS ≤ 60000) ∧
      (0 ≤ input.maxPacketLoss ∧ input.maxPacketLoss ≤ 100) ∧
      (1 ≤ input.retryMinutes ∧ input.retryMinutes ≤ 10080) := by
  unfold validateRecheck
  simp only [refuseIf_bind, refuseIf_eq, between_iff]
  simp only [Bool.or_eq_false_iff, decide_eq_false_iff_not, not_le, not_lt, gt_iff_lt]

/-- `CreateBlacklistRechecks` fills in nothing. -/
theorem clamp_of_valid {input : UpdateBlacklistRecheckSettingsRequest}
    (h : validateRecheck input = .ok ()) :
    input.toBlacklistRecheckSettings.clamp = input.toBlacklistRecheckSettings := by
  obtain ⟨hfraction, hmax, hattempts, htimeout, hlatency, hloss, hretry⟩ := validateRecheck_iff.mp h
  unfold BlacklistRecheckSettings.clamp
  rw [if_neg (not_or.mpr ⟨not_le.mpr hfraction.1, not_lt.mpr hfraction.2⟩), if_neg (by omega),
    if_neg (by omega), if_neg (by omega), if_neg (not_le.mpr hlatency.1),
    if_neg (not_or.mpr ⟨not_lt.mpr hloss.1, not_lt.mpr hloss.2⟩), if_neg (by omega)]

/-- The defaults pass the checks of the API. -/
theorem valid_initialSettings : validateRecheck initialSettings = .ok () :=
  validateRecheck_iff.mpr (by norm_num [initialSettings])

theorem normalizeBlacklistRecheck_ok {cron : Cron} {instant nextRun : Timestamp}
    {raw input : UpdateBlacklistRecheckSettingsRequest}
    (h : normalizeBlacklistRecheck cron instant raw = .ok (input, nextRun)) :
    validateRecheck input = .ok () ∧
      input.toBlacklistRecheckSettings = raw.toBlacklistRecheckSettings := by
  unfold normalizeBlacklistRecheck at h
  obtain ⟨⟨⟩, hvalid, h⟩ := bind_eq_ok h
  obtain ⟨due, -, h⟩ := bind_eq_ok h
  obtain ⟨rfl, -⟩ := Prod.mk.inj (Except.ok.inj h)
  exact ⟨hvalid, rfl⟩

/-! ## What a run reads

No act but a save writes the settings. A run that has read the row keeps its copy, and a
later save does not reach it. -/

/-- What an act that saves nothing leaves of the row, and which items are new. -/
structure Works (w w' : Automations BlacklistRecheckSettings) : Prop where
  row : ∀ row ∈ w.rows.find? "default", ∃ row', w'.rows.find? "default" = some row' ∧
    row'.enabled = row.enabled ∧ row'.plan = row.plan ∧ row'.settings = row.settings
  keys : (∀ run ∈ w.runs, run.key = "default") → ∀ run ∈ w'.runs, run.key = "default"
  item : (∀ run ∈ w.runs, run.key = "default") → ∀ n : Nat,
    ∀ item ∈ w'.runs[n]?.bind AutomationRun.item,
      w.runs[n]?.bind AutomationRun.item = some item ∨
        w.runs[n]?.bind AutomationRun.item = none ∧ w.rows.find? "default" = some item

section Works

variable {cron : Cron} {w : Automations BlacklistRecheckSettings}

theorem Works.refl (w : Automations BlacklistRecheckSettings) : Works w w :=
  ⟨fun row hrow => ⟨row, hrow, rfl, rfl, rfl⟩, fun hkeys => hkeys,
    fun _ _ _ hitem => Or.inl hitem⟩

theorem works_pass (duration : Nat) : Works w (automate blacklistRecheck cron w (.pass duration)) :=
  ⟨(Works.refl w).row, (Works.refl w).keys, (Works.refl w).item⟩

/-- Claims and records leave what was saved. -/
theorem row_updateWhere {rows : AutomationRows BlacklistRecheckSettings}
    {p : AutomationRow BlacklistRecheckSettings → Bool}
    {f : AutomationRow BlacklistRecheckSettings → AutomationRow BlacklistRecheckSettings}
    (hf : ∀ row, (f row).key = row.key)
    (hsame : ∀ row, (f row).enabled = row.enabled ∧ (f row).plan = row.plan ∧
      (f row).settings = row.settings)
    {row : AutomationRow BlacklistRecheckSettings} (hrow : rows.find? "default" = some row) :
    ∃ row', (rows.updateWhere p f hf).find? "default" = some row' ∧
      row'.enabled = row.enabled ∧ row'.plan = row.plan ∧ row'.settings = row.settings := by
  rw [Table.find?_updateWhere, hrow, Option.map_some]
  by_cases h : p row = true
  · exact ⟨f row, congrArg some (if_pos h), hsame row⟩
  · exact ⟨row, congrArg some (if_neg h), rfl, rfl, rfl⟩

theorem works_claim (age : Nat) (busy locked : String → Bool) (tie : String → Nat) :
    Works w (automate blacklistRecheck cron w (.claim age busy locked tie)) := by
  unfold automate
  dsimp only
  generalize hpicked : blacklistRecheck.picked busy locked tie (w.clock - age) w.rows = picked
  refine ⟨fun row hrow => ?_, fun hkeys run hrun => ?_, fun _ n item hitem => Or.inl ?_⟩
  · exact row_updateWhere (AutomationRow.key_claim w.clock (w.clock - age + claimLease))
      (fun _ => ⟨rfl, rfl, rfl⟩) hrow
  · rcases List.mem_append.mp hrun with hold | hnew
    · exact hkeys run hold
    · obtain ⟨row, hrow, rfl⟩ := List.mem_map.mp hnew
      rw [← hpicked] at hrow
      have hkey := (List.mem_filter.mp hrow).2
      simp only [Bool.and_eq_true, decide_eq_true_eq] at hkey
      exact hkey.1.1
  · dsimp only at hitem
    by_cases hn : n < w.runs.length
    · rwa [List.getElem?_append_left hn] at hitem
    -- the runs that are new have read nothing
    · rw [List.getElem?_append_right (not_lt.mp hn), List.getElem?_map] at hitem
      obtain ⟨run, hrun, hitem⟩ := Option.bind_eq_some_iff.mp hitem
      obtain ⟨row, -, rfl⟩ := Option.map_eq_some_iff.mp hrun
      cases hitem

/-- A run is replaced by one of the same key that has read the row, or what it had read. -/
theorem works_setRun {n : Nat} {run run' : AutomationRun BlacklistRecheckSettings}
    (hrun : w.runs[n]? = some run) (hkey : run'.key = run.key)
    (hitem : run'.item = run.item ∨ run.item = none ∧ run'.item = w.rows.find? run.key) :
    Works w (w.setRun n run') := by
  refine ⟨fun row hrow => ⟨row, hrow, rfl, rfl, rfl⟩, fun hkeys other hother => ?_,
    fun hkeys m item hm => ?_⟩
  · rcases List.mem_or_eq_of_mem_set hother with hold | rfl
    · exact hkeys other hold
    · exact hkey.trans (hkeys run (List.mem_of_getElem? hrun))
  · change (w.runs.set n run')[m]?.bind AutomationRun.item = some item at hm
    by_cases hn : n = m
    · subst hn
      rw [List.getElem?_set_self (List.getElem?_eq_some_iff.mp hrun).1, Option.bind_some] at hm
      rw [hrun, Option.bind_some]
      rcases hitem with hsame | ⟨hnone, hread⟩
      · exact Or.inl (hsame.symm.trans hm)
      · rw [hread, hkeys run (List.mem_of_getElem? hrun)] at hm
        exact Or.inr ⟨hnone, hm⟩
    · rw [List.getElem?_set_ne hn] at hm
      exact Or.inl hm

theorem works_read (n : Nat) : Works w (automate blacklistRecheck cron w (.read n)) := by
  unfold automate
  dsimp only
  split
  · exact Works.refl w
  · rename_i run hrun
    split
    · exact Works.refl w
    · rename_i hnone
      exact works_setRun hrun rfl (Or.inr ⟨hnone, rfl⟩)

theorem works_runNow : Works w (automate blacklistRecheck cron w (.runNow "default")) := by
  unfold automate
  dsimp only
  split
  · exact Works.refl w
  · rename_i row hrow
    refine ⟨fun row hrow => ⟨row, hrow, rfl, rfl, rfl⟩, fun hkeys run hrun => ?_,
      fun _ n item hitem => ?_⟩
    · rcases List.mem_append.mp hrun with hold | hnew
      · exact hkeys run hold
      · rw [List.mem_singleton.mp hnew]
    · dsimp only at hitem
      by_cases hn : n < w.runs.length
      · rw [List.getElem?_append_left hn] at hitem
        exact Or.inl hitem
      · rw [List.getElem?_append_right (not_lt.mp hn)] at hitem
        obtain ⟨run, hrun, hitem⟩ := Option.bind_eq_some_iff.mp hitem
        obtain rfl := List.mem_singleton.mp (List.mem_of_getElem? hrun)
        rw [List.getElem?_eq_none (not_lt.mp hn), hrow]
        exact Or.inr ⟨rfl, hitem⟩

theorem works_record (n : Nat) (runErr : Option String) :
    Works w (automate blacklistRecheck cron w (.record n runErr)) := by
  unfold automate
  dsimp only
  split
  · exact Works.refl w
  rename_i run hrun
  split
  · exact Works.refl w
  split
  · exact Works.refl w
  rename_i nextRun error _
  split
  · exact works_setRun hrun rfl (Or.inl rfl)
  · rename_i rows hrows
    have hset : Works w (w.setRun n { run with phase := .recorded }) :=
      works_setRun hrun rfl (Or.inl rfl)
    refine ⟨fun row hrow => ?_, hset.keys, hset.item⟩
    obtain ⟨lastError, _, rfl⟩ := Option.map_eq_some_iff.mp hrows
    exact row_updateWhere (AutomationRow.key_record w.clock nextRun lastError)
      (fun _ => ⟨rfl, rfl, rfl⟩) hrow

end Works

/-! ## The row has what was last saved -/

structure InForce (w : Saves) : Prop where
  row : ∃ row, w.automations.rows.find? "default" = some row ∧ HasSaved w.latest row
  valid : validateRecheck w.latest = .ok ()
  keys : ∀ run ∈ w.automations.runs, run.key = "default"

section InForce

variable {cron : Cron} {w : Saves}

theorem inForce_initial (clock : Timestamp) : InForce (.initial clock) where
  row := ⟨initialRow clock, rfl, rfl, rfl, rfl⟩
  valid := valid_initialSettings
  keys := fun _ hrun => absurd hrun List.not_mem_nil

theorem InForce.works (h : InForce w) {automations : Automations BlacklistRecheckSettings}
    (hworks : Works w.automations automations) :
    InForce { w with automations := automations } := by
  obtain ⟨row, hrow, hsaved⟩ := h.row
  obtain ⟨row', hrow', henabled, hplan, hsettings⟩ := hworks.row row hrow
  exact ⟨⟨row', hrow', henabled.trans hsaved.enabled, hplan.trans hsaved.plan,
    hsettings.trans hsaved.settings⟩, h.valid, hworks.keys h.keys⟩

theorem InForce.save (h : InForce w) (input : UpdateBlacklistRecheckSettingsRequest) :
    InForce (w.save cron input) := by
  unfold Saves.save
  split
  · exact h
  rename_i saved nextRun hok
  split
  · have hlatest : (w.saved ++ [saved]).getLast?.getD initialSettings = saved := by
      rw [List.getLast?_concat, Option.getD_some]
    refine ⟨?_, ?_, h.keys⟩
    · obtain ⟨row, hrow, -⟩ := h.row
      have hkey : row.key = "default" := Table.key_of_find? hrow
      refine ⟨row.update w.automations.clock saved.update nextRun, ?_, ?_⟩
      · rw [updateAutomation, Table.find?_updateWhere, hrow, Option.map_some,
          if_pos (decide_eq_true hkey)]
      · rw [Saves.latest, hlatest]
        exact ⟨rfl, rfl, rfl⟩
    · rw [Saves.latest, hlatest]
      exact (normalizeBlacklistRecheck_ok hok).1
  · exact h

/-- A save starts no run, and no run reads anything by it. -/
theorem item_save (input : UpdateBlacklistRecheckSettingsRequest) (n : Nat) :
    (w.save cron input).item n = w.item n := by
  unfold Saves.save
  split
  · rfl
  · split <;> rfl

/-- Every other act works on the row. -/
theorem act_works (a : SettingsAct) : (∃ input, a = .save input) ∨
    ∃ automations, Works w.automations automations ∧
      w.act cron a = { w with automations := automations } := by
  cases a with
  | pass duration => exact Or.inr ⟨_, works_pass duration, rfl⟩
  | save input => exact Or.inl ⟨input, rfl⟩
  | claim age => exact Or.inr ⟨_, works_claim age _ _ _, rfl⟩
  | read n => exact Or.inr ⟨_, works_read n, rfl⟩
  | runNow => exact Or.inr ⟨_, works_runNow, rfl⟩
  | record n runErr => exact Or.inr ⟨_, works_record n runErr, rfl⟩

theorem InForce.act (h : InForce w) (a : SettingsAct) : InForce (w.act cron a) := by
  rcases act_works a with ⟨input, rfl⟩ | ⟨automations, hworks, heq⟩
  · exact h.save input
  · rw [heq]
    exact h.works hworks

theorem InForce.play (cron : Cron) (clock : Timestamp) (acts : List SettingsAct) :
    InForce (.play cron clock acts) := by
  induction acts using List.reverseRecOn with
  | nil => exact inForce_initial clock
  | append_singleton acts a ih =>
    rw [Saves.play, List.foldl_concat]
    exact ih.act a

/-- What a run has read it had read before, or it is what was last saved. -/
theorem item_act (h : InForce w) (a : SettingsAct) {n : Nat}
    {item : AutomationRow BlacklistRecheckSettings} (hitem : (w.act cron a).item n = some item) :
    w.item n = some item ∨ w.item n = none ∧ HasSaved w.latest item := by
  rcases act_works a with ⟨input, rfl⟩ | ⟨automations, hworks, heq⟩
  · rw [Saves.act, item_save] at hitem
    exact Or.inl hitem
  · rw [heq] at hitem
    rcases hworks.item h.keys n item hitem with hold | ⟨hnone, hread⟩
    · exact Or.inl hold
    · obtain ⟨row, hrow, hsaved⟩ := h.row
      obtain rfl : row = item := Option.some.inj (hrow.symm.trans hread)
      exact Or.inr ⟨hnone, hsaved⟩

end InForce

/-! ## What a call adds

The settings end up in two places, the thresholds in the jobs and the time to the next try
in the entries. Both are said field by field (`RunsWith`, `AddsWith`). -/

section Adds

variable {pg : Postgres} {agents : Agents} {world : RecheckWorld} {now : Timestamp}
  {settings : BlacklistRecheckSettings} {s s' s'' : ScanStore}

theorem AddsWith.refl (s : ScanStore) : AddsWith settings now s s :=
  ⟨fun _ hjob => Or.inl hjob, fun _ hentry => Or.inl hentry⟩

theorem AddsWith.trans (h : AddsWith settings now s s') (h' : AddsWith settings now s' s'') :
    AddsWith settings now s s'' := by
  constructor
  · intro job hjob
    rcases h'.jobs job hjob with hold | hnew
    · exact h.jobs job hold
    · exact Or.inr hnew
  · intro entry hentry
    rcases h'.blacklist entry hentry with hold | hnew
    · exact h.blacklist entry hold
    · exact Or.inr hnew

theorem addsWith_recheckAgent (jobID agent : UUID) (selected : List BlacklistEntry) :
    AddsWith settings now s (recheckAgent pg agents s now settings jobID agent selected).2 := by
  unfold recheckAgent
  dsimp only
  split
  · exact AddsWith.refl s
  split
  · exact AddsWith.refl s
  split
  · exact ⟨fun _ hjob => Or.inl hjob, fun _ hentry => Or.inl hentry⟩
  · refine ⟨fun job hjob => ?_, fun entry hentry => ?_⟩
    · rcases Table.mem_put.mp hjob with rfl | ⟨hold, -⟩
      · exact Or.inr ⟨rfl, rfl, rfl, rfl, rfl, rfl⟩
      · exact Or.inl hold
    · change entry ∈ (postponeAll pg settings now agent selected s.blacklist).rows at hentry
      unfold postponeAll at hentry
      obtain ⟨old, hold, rfl⟩ := Table.mem_updateWhere.mp hentry
      split
      · exact Or.inr rfl
      · exact Or.inl hold

theorem addsWith_recheckEach (candidates : List BlacklistEntry) (order : List UUID) (n : Nat)
    (remaining : Int) (result : BlacklistRecheckResult) (s : ScanStore) :
    AddsWith settings now s
      (recheckEach pg world agents now settings candidates order n remaining result s).2.2 := by
  induction order generalizing n remaining result s with
  | nil => exact AddsWith.refl s
  | cons agent order ih =>
    unfold recheckEach
    dsimp only
    split
    · exact AddsWith.refl s
    split
    · exact ih n remaining result s
    generalize recheckCount world settings _ remaining = count
    have hagent : AddsWith settings now s (recheckAgent pg agents s now settings (world.newID n)
        agent ((candidates.filter fun entry => decide (entry.agentID = agent)).take count)).2 :=
      addsWith_recheckAgent _ agent _
    split
    · rename_i heq
      rw [heq] at hagent
      exact hagent
    · rename_i heq
      rw [heq] at hagent
      exact hagent.trans (ih _ _ _ _)

theorem addsWith_createBlacklistRechecks (pg : Postgres) (world : RecheckWorld) (agents : Agents)
    (s : ScanStore) (now : Timestamp) (input : BlacklistRecheckSettings) :
    AddsWith input.clamp now s (createBlacklistRechecks pg world agents s now input).2.2 := by
  unfold createBlacklistRechecks
  dsimp only
  split
  · exact AddsWith.refl s
  generalize recheckCandidates world agents s now input.clamp = candidates
  have heach : AddsWith input.clamp now s (recheckEach pg world agents now input.clamp candidates
      (candidates.map BlacklistEntry.agentID).eraseDups 0 input.clamp.maxTargets
      ⟨0, 0, [], false, ""⟩ s).2.2 := addsWith_recheckEach candidates _ _ _ _ s
  split
  · rename_i heq
    rw [heq] at heach
    exact heach
  · rename_i heq
    rw [heq] at heach
    split <;> exact heach

end Adds

/-- **Rechecks run as they were saved.** When a run has the settings row, there was one act by which
it read the row, and the row had then what was last saved; `CreateBlacklistRechecks` fills in none
of it, so the jobs it creates have these settings, and what it puts off waits as long as they
say. -/
theorem rechecks_as_saved (cron : Cron) (clock : Timestamp) (acts : List SettingsAct) (n : Nat)
    (item : AutomationRow BlacklistRecheckSettings)
    (hitem : (Saves.play cron clock acts).item n = some item) :
    ∃ earlier read later, acts = earlier ++ read :: later ∧
      (Saves.play cron clock earlier).item n = none ∧
      (Saves.play cron clock (earlier ++ [read])).item n = some item ∧
      HasSaved (Saves.play cron clock earlier).latest item ∧
      item.settings.clamp = item.settings ∧
      ∀ pg world agents s now,
        AddsWith (Saves.play cron clock earlier).latest.toBlacklistRecheckSettings now s
          (createBlacklistRechecks pg world agents s now item.settings).2.2 := by
  induction acts using List.reverseRecOn with
  | nil => cases hitem
  | append_singleton acts a ih =>
    have hforce := InForce.play cron clock acts
    have hplay : Saves.play cron clock (acts ++ [a]) = (Saves.play cron clock acts).act cron a :=
      List.foldl_concat ..
    have hbefore := item_act hforce a (hplay ▸ hitem)
    rcases hbefore with hold | ⟨hnone, hsaved⟩
    · obtain ⟨earlier, read, later, rfl, hrest⟩ := ih hold
      exact ⟨earlier, read, later ++ [a], by simp, hrest⟩
    · have hclamp : item.settings.clamp = item.settings := by
        rw [hsaved.settings]
        exact clamp_of_valid hforce.valid
      refine ⟨acts, a, [], rfl, hnone, hitem, hsaved, hclamp, fun pg world agents s now => ?_⟩
      have hadds := addsWith_createBlacklistRechecks pg world agents s now item.settings
      rw [hclamp] at hadds
      exact hsaved.settings ▸ hadds

/-! ## Saved between a claim and its reading -/

/-- No packet loss is tolerated. -/
def strictSettings : UpdateBlacklistRecheckSettingsRequest where
  enabled := true
  cronExpression := ""
  timezone := " Europe/Berlin "
  dueOnly := false
  fraction := 1
  maxTargets := 10
  skipIfRunning := false
  attempts := 1
  timeoutMS := 500
  maxLatencyMS := 200
  maxPacketLoss := 0
  retryMinutes := 5

/-- `*/15 * * * *` -/
def everyQuarter : Cron := valid fun _ t => (t / (15 * minute) + 1) * (15 * minute)

def savedLate : List SettingsAct := [.pass 1200000000, .claim 0, .save strictSettings, .read 0]

theorem rechecks_as_saved_strict :
    ∃ item, (Saves.play everyQuarter 0 savedLate).item 0 = some item ∧
      item.settings = strictSettings.toBlacklistRecheckSettings ∧
      item.settings.clamp = item.settings := by
  have hread : ((Saves.play everyQuarter 0 savedLate).item 0).map AutomationRow.settings =
      some strictSettings.toBlacklistRecheckSettings := by decide +kernel
  obtain ⟨item, hitem, hsettings⟩ := Option.map_eq_some_iff.mp hread
  obtain ⟨_, _, _, _, _, _, _, hclamp, _⟩ :=
    rechecks_as_saved everyQuarter 0 savedLate 0 item hitem
  exact ⟨item, hitem, hsettings, hclamp⟩

end Cfscan.Recheck
