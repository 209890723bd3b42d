import Cfscan.Cloudflare.Store
import Cfscan.Errors.Truncate
import Cfscan.Scans.Schedules

/-!
# The records of an error — `internal/store/postgres/store.go`

The calls that keep the text of an error in a row of its own: the two of a source, the three of a
planned run and `FinishAutomationRun`. Each sends the shortened text as one parameter of one
statement, and the server refuses the statement when it refuses the text.

`succeeds_iff`: a message that the server would take makes a record fail when its cut is inside a
character, and not otherwise.

A record has other arguments, and they can fail too: an id that is no uuid, a job that is not there,
a connection that is lost. `Record.succeeds` with an empty message is the condition that they do
not, and `succeeds_iff` compares only with that. So a record that fails **because of the text** is
one that would have been made without it.

Five of the calls have a limit of 2000 bytes, each in a statement of its own; `FinishAutomationRun`
has one of 4000. What becomes of an error of a record is not here: most callers drop it.
-/

set_option autoImplicit false

namespace Cfscan.Errors

open Cfscan.Lib Cfscan.Lib.Utf8 Cfscan.Store

/-! ## `automation_runs` -/

/-- The columns that `FinishAutomationRun` writes. -/
structure AutomationRun where
  id : UUID
  status : String
  /-- By the text the server prints. -/
  summary : String
  error : String
  finishedAt : Option Timestamp
deriving DecidableEq, Repr

abbrev AutomationRuns := Table UUID AutomationRun AutomationRun.id

def AutomationRun.finish (now : Timestamp) (status summary error : String) (row : AutomationRun) :
    AutomationRun :=
  { row with status, summary, error, finishedAt := some now }

@[simp] theorem AutomationRun.id_finish (now : Timestamp) (status summary error : String)
    (row : AutomationRun) : (row.finish now status summary error).id = row.id := rfl

/-- `status`, after the call has filled it in. -/
def finishedStatus (status : String) (runErr : Option String) : String :=
  if runErr.isSome then "failed" else if status = "" then "completed" else status

/-- `errorText`; `none` when the server refuses the text. -/
def finishedError : Option String → Option String
  | none => some ""
  | some message => (Store.truncate message 4000).filter storable

/-- An `UPDATE` that reaches no row is no error. -/
def finishAutomationRun (server : Scans.ScheduleServer) (s : AutomationRuns) (now : Timestamp)
    (id status summary : String) (runErr : Option String) :
    Except StoreError Unit × AutomationRuns :=
  match server.uuid id, server.jsonb (if summary = "" then "{}" else summary),
    finishedError runErr with
  | some key, some summary, some error =>
    if storable (finishedStatus status runErr) then
      (.ok (), s.updateWhere (fun row => decide (row.id = key))
        (AutomationRun.finish now (finishedStatus status runErr) summary error)
        (AutomationRun.id_finish now (finishedStatus status runErr) summary error))
    else (.error (.db "finish automation run" .valueRefused), s)
  | _, _, _ => (.error (.db "finish automation run" .valueRefused), s)

/-! ## The calls

One type for the six records, so that what is common to them can be said once. `succeeds`
asks the model of each for its error. -/

def recordBlacklistRecheckRun (s : Schedule.AutomationRows Scan.BlacklistRecheckSettings)
    (now : Timestamp) (nextRun : Option Timestamp) (runErr : Option String) :
    Option (Schedule.AutomationRows Scan.BlacklistRecheckSettings) :=
  Schedule.recordAutomationRun s now "default" nextRun runErr

def recordSourceSyncRun (s : Schedule.AutomationRows Schedule.SourceSyncSettings)
    (now : Timestamp) (source : String) (nextRun : Option Timestamp) (runErr : Option String) :
    Option (Schedule.AutomationRows Schedule.SourceSyncSettings) :=
  Schedule.recordAutomationRun s now source nextRun runErr

/-- A call that keeps an error, with its other arguments and the database it finds. -/
inductive Record where
  | sourceError (link : Link Cloudflare.PoolStore) (now : Timestamp) (source : String)
  | asnError (link : Link Cloudflare.PoolStore) (now : Timestamp) (asn : Int)
  | scanScheduleRun (server : Scans.ScheduleServer) (s : Scans.Schedules) (now : Timestamp)
    (jobs : UUID → Bool) (id : String) (nextRun : Option Timestamp) (jobID : Option String)
  | blacklistRecheckRun (s : Schedule.AutomationRows Scan.BlacklistRecheckSettings)
    (now : Timestamp) (nextRun : Option Timestamp)
  | sourceSyncRun (s : Schedule.AutomationRows Schedule.SourceSyncSettings) (now : Timestamp)
    (source : String) (nextRun : Option Timestamp)
  | automationRun (server : Scans.ScheduleServer) (s : AutomationRuns) (now : Timestamp)
    (id status summary : String)

namespace Record

def limit : Record → Nat
  | automationRun .. => 4000
  | _ => 2000

/-- The call returns no error when it is given this one. -/
def succeeds (message : String) : Record → Bool
  | sourceError link now source => ((Cloudflare.recordSourceError now source message).run link).isOk
  | asnError link now asn => ((Cloudflare.recordASNError now asn message).run link).isOk
  | scanScheduleRun server s now jobs id nextRun jobID =>
    (Scans.recordScanScheduleRun server s now jobs id nextRun jobID (some message)).1.isOk
  | blacklistRecheckRun s now nextRun =>
    (recordBlacklistRecheckRun s now nextRun (some message)).isSome
  | sourceSyncRun s now source nextRun =>
    (recordSourceSyncRun s now source nextRun (some message)).isSome
  | automationRun server s now id status summary =>
    (finishAutomationRun server s now id status summary (some message)).1.isOk

end Record

/-! ## What they read of the text -/

theorem lastErrorText_some (message : String) :
    Schedule.lastErrorText (some message) = textParameter (truncate (text message) 2000) := by
  rw [Schedule.lastErrorText, truncate_text, textParameter]

theorem finishedError_some (message : String) :
    finishedError (some message) = textParameter (truncate (text message) 4000) := by
  rw [finishedError, truncate_text, textParameter]

theorem textParameter_eq_some {message short : String} {limit : Nat} :
    textParameter (truncate (text message) limit) = some short ↔
      Store.truncate message limit = some short ∧ storable short = true := by
  rw [textParameter, ← truncate_text, Option.filter_eq_some_iff]

theorem truncate_empty (limit : Nat) : Store.truncate "" limit = some "" := if_pos (Nat.zero_le limit)

section Calls

variable {message : String}

theorem sourceError_isOk {link : Link Cloudflare.PoolStore} {now : Timestamp} {source : String}
    (h : ((Cloudflare.recordSourceError now source "").run link).isOk = true) :
    ((Cloudflare.recordSourceError now source message).run link).isOk = true ↔
      ∃ short, textParameter (truncate (text message) 2000) = some short := by
  have hempty := (Conn.isOk_run_write h).symm.trans h
  simp only [textParameter_eq_some]
  unfold Cloudflare.recordSourceError at h ⊢
  rw [Conn.isOk_run_write h]
  cases hsource : storable source with
  | false => simp [truncate_empty, hsource, Except.toBool] at hempty
  | true =>
    cases Store.truncate message 2000 with
    | none => simp [Except.toBool]
    | some short => cases hshort : storable short <;> simp [hshort, Except.toBool]

theorem asnError_isOk {link : Link Cloudflare.PoolStore} {now : Timestamp} {asn : Int}
    (h : ((Cloudflare.recordASNError now asn "").run link).isOk = true) :
    ((Cloudflare.recordASNError now asn message).run link).isOk = true ↔
      ∃ short, textParameter (truncate (text message) 2000) = some short := by
  simp only [textParameter_eq_some]
  unfold Cloudflare.recordASNError at h ⊢
  rw [Conn.isOk_run_write h]
  cases Store.truncate message 2000 with
  | none => simp [Except.toBool]
  | some short =>
    cases hshort : storable short <;> cases link.db.sources.find? asn <;>
      simp [hshort, Except.toBool]

theorem automationRun_isSome {β : Type} (s : Schedule.AutomationRows β) (now : Timestamp)
    (key : String) (nextRun : Option Timestamp) :
    (Schedule.recordAutomationRun s now key nextRun (some message)).isSome = true ↔
      ∃ short, textParameter (truncate (text message) 2000) = some short := by
  rw [Schedule.recordAutomationRun, lastErrorText_some, Option.isSome_map, Option.isSome_iff_exists]

theorem finishAutomationRun_isOk {server : Scans.ScheduleServer} {s : AutomationRuns}
    {now : Timestamp} {id status summary : String}
    (h : (finishAutomationRun server s now id status summary (some "")).1.isOk = true) :
    (finishAutomationRun server s now id status summary (some message)).1.isOk = true ↔
      ∃ short, textParameter (truncate (text message) 4000) = some short := by
  unfold finishAutomationRun at h ⊢
  rw [finishedError_some]
  cases hid : server.uuid id with
  | none => simp [hid, Except.toBool] at h
  | some key =>
    cases hsummary : server.jsonb (if summary = "" then "{}" else summary) with
    | none => simp [hid, hsummary, Except.toBool] at h
    | some summary =>
      have hstatus : storable (finishedStatus status (some message)) = true :=
        (by decide : storable "failed" = true)
      cases textParameter (truncate (text message) 4000) with
      | none => simp [Except.toBool]
      | some short => simp [hstatus, Except.toBool]

end Calls

section Schedules

open Scans

variable {server : ScheduleServer} {s : Schedules} {now : Timestamp} {jobs : UUID → Bool}
  {id : String} {nextRun : Option Timestamp} {jobID runErr : Option String} {row : ScheduleRow}

/-- What the columns make of the other values of a record does not depend on the text. -/
theorem exists_set_recordSets {key next job : Value} {error short : String}
    (hshort : storable short = true)
    (h : ∃ row', row.set server [key, next, job, .text error] (recordSets now nextRun row) =
      some row') :
    ∃ row', row.set server [key, next, job, .text short] (recordSets now nextRun row) =
      some row' := by
  rw [exists_set_iff] at h ⊢
  simp only [recordSets, List.forall_mem_cons] at h ⊢
  obtain ⟨hnext, hrun, hjob, -, hupdated, -⟩ := h
  exact ⟨hnext, hrun, hjob, ⟨.text short, if_pos hshort⟩, hupdated, fun _ hset => by cases hset⟩

/-- The job a record leaves in the row. -/
theorem lastJobID_recorded {key next job : Value} {error : String} {row' : ScheduleRow}
    (h : row.set server [key, next, job, .text error] (recordSets now nextRun row) = some row') :
    stored server .lastJobID job = some (row'.cells .lastJobID) :=
  have hnodup : ([.nextRunAt, .lastRunAt, .lastJobID, .lastError, .updatedAt] :
      List Column).Nodup := by decide
  assign_of_mem (assign_of_set h).1 hnodup (x := .param 3)
    (List.mem_cons_of_mem _ (List.mem_cons_of_mem _ List.mem_cons_self))

theorem recordScanScheduleRun_isOk :
    (recordScanScheduleRun server s now jobs id nextRun jobID runErr).1.isOk = true ↔
      ∃ key lastError, server.uuid id = some key ∧ Schedule.lastErrorText runErr = some lastError ∧
        ∀ row, s.find? key = some row → ∃ row',
          row.set server (recordArgs id nextRun jobID lastError) (recordSets now nextRun row) =
            some row' ∧ ∀ job, row'.cells .lastJobID = .uuid job → jobs job = true := by
  unfold recordScanScheduleRun
  cases server.uuid id with
  | none => simp [Except.toBool]
  | some key =>
    cases Schedule.lastErrorText runErr with
    | none => simp [Except.toBool]
    | some lastError =>
      cases hrow : s.find? key with
      | none => simp [hrow, Except.toBool]
      | some row =>
        cases hset : row.set server (recordArgs id nextRun jobID lastError)
            (recordSets now nextRun row) with
        | none => simp [hrow, hset, Except.toBool]
        | some row' =>
          cases hcell : row'.cells .lastJobID
          case uuid job => cases hjob : jobs job <;> simp [hrow, hset, hcell, hjob, Except.toBool]
          all_goals simp [hrow, hset, hcell, Except.toBool]

theorem scanScheduleRun_isOk {message : String}
    (h : (recordScanScheduleRun server s now jobs id nextRun jobID (some "")).1.isOk = true) :
    (recordScanScheduleRun server s now jobs id nextRun jobID (some message)).1.isOk = true ↔
      ∃ short, textParameter (truncate (text message) 2000) = some short := by
  rw [recordScanScheduleRun_isOk] at h ⊢
  obtain ⟨key, error, hid, -, hrow⟩ := h
  simp only [lastErrorText_some]
  constructor
  · rintro ⟨-, short, -, hshort, -⟩
    exact ⟨short, hshort⟩
  · rintro ⟨short, hshort⟩
    refine ⟨key, short, hid, hshort, fun row hfind => ?_⟩
    obtain ⟨row', hset, hjobs⟩ := hrow row hfind
    obtain ⟨row'', hset'⟩ :=
      exists_set_recordSets (textParameter_eq_some.mp hshort).2 ⟨row', hset⟩
    -- both rows name the same job
    have hcell := (lastJobID_recorded hset').symm.trans (lastJobID_recorded hset)
    rw [Option.some.injEq] at hcell
    exact ⟨row'', hset', fun job hjob => hjobs job (hcell ▸ hjob)⟩

end Schedules

/-- What the server makes of the text decides, when the call can succeed at all. -/
theorem Record.succeeds_iff_taken {record : Record} {message : String}
    (h : record.succeeds "" = true) :
    record.succeeds message = true ↔
      ∃ short, textParameter (truncate (text message) record.limit) = some short := by
  cases record with
  | sourceError link now source => exact sourceError_isOk h
  | asnError link now asn => exact asnError_isOk h
  | scanScheduleRun server s now jobs id nextRun jobID => exact scanScheduleRun_isOk h
  | blacklistRecheckRun s now nextRun => exact automationRun_isSome s now "default" nextRun
  | sourceSyncRun s now source nextRun => exact automationRun_isSome s now source nextRun
  | automationRun server s now id status summary => exact finishAutomationRun_isOk h

/-- A message that the server would take makes a record fail when it is cut inside a character. -/
theorem Record.succeeds_iff {record : Record} {message : String} (hmessage : storable message = true)
    (h : record.succeeds "" = true) :
    record.succeeds message = true ↔ cutsBetween (text message) record.limit = true :=
  (succeeds_iff_taken h).trans (textParameter_truncate hmessage record.limit)

end Cfscan.Errors
