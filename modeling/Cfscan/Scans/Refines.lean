import Cfscan.Scans.Runs
import Mathlib.Logic.Relation

/-!
# The columns a schedule runs by

A row of `scan_schedules` is modelled twice. In `Scans.Schedules` it is twenty-five columns, and the
statements are their lists of columns and of parameters; that is where a schedule is saved and read.
In `Schedule.Store` it is a record of the columns by which it runs, and that is where the question is
when it does. `ScheduleRow.schedule` is the record of a row.

`run_refines`: a call on the columns is the call on the records, or it changes nothing. So every run
of the first is one of the second, and what `Cfscan.Schedule` shows of the calls of a center is true
of the tables that `Scans.Schedules` has.

The record does **not** have the agents, the count and IPv6 of a schedule. Nothing of `Schedule.Store`
looks at them, and `runs_as_saved` follows them where they go.
-/

set_option autoImplicit false

namespace Cfscan.Scans

open Cfscan.Lib Cfscan.Store

/-! ## The record of a row -/

def Value.bool : Value → Bool
  | .boolean b => b
  | _ => false

def Value.string : Value → String
  | .text s => s
  | _ => ""

def Value.int : Value → Int
  | .integer n => n
  | _ => 0

def Value.rational : Value → ℚ
  | .double x => x
  | _ => 0

def Value.time : Value → Timestamp
  | .timestamptz t => t
  | _ => 0

def Value.time? : Value → Option Timestamp
  | .timestamptz t => some t
  | _ => none

def Value.id? : Value → Option UUID
  | .uuid id => some id
  | _ => none

/-- The columns of the job. -/
def jobOf (cells : Column → Value) : Scan.CreateScanJobRequest where
  kind := ""
  name := (cells .name).string
  samplingMode := (cells .samplingMode).string
  scheme := (cells .scheme).string
  hostname := (cells .hostname).string
  path := (cells .path).string
  port := (cells .port).int
  attempts := (cells .attempts).int
  timeoutMS := (cells .timeoutMS).int
  maxLatencyMS := (cells .maxLatencyMS).rational
  maxPacketLoss := (cells .maxPacketLoss).rational
  blacklistMinutes := (cells .blacklistMinutes).int
  includeBlocked := (cells .includeBlocked).bool

def ScheduleRow.schedule (row : ScheduleRow) : Schedule.ScanSchedule where
  id := row.id
  enabled := (row.cells .enabled).bool
  plan := ⟨(row.cells .cronExpression).string, (row.cells .timezone).string⟩
  jobRequest := jobOf row.cells
  nextRunAt := (row.cells .nextRunAt).time
  lastRunAt := (row.cells .lastRunAt).time?
  lastJobID := (row.cells .lastJobID).id?
  lastError := (row.cells .lastError).string
  createdAt := (row.cells .createdAt).time
  updatedAt := (row.cells .updatedAt).time

def schedules (s : Schedules) : Schedule.ScanSchedules := s.map ScheduleRow.schedule fun _ => rfl

def UpsertScanScheduleRequest.planned (input : UpsertScanScheduleRequest) :
    Schedule.UpsertScanScheduleRequest :=
  ⟨input.enabled, ⟨input.cronExpression, input.timezone⟩, input.jobRequest.toCreateScanJobRequest⟩

/-- What a call that succeeds does to the records. -/
inductive Does (server : ScheduleServer) (instant : Timestamp) :
    ScheduleOp → Schedule.ScanSchedules → Schedule.ScanSchedules → Prop where
  | create {id : UUID} {input : UpsertScanScheduleRequest} {nextRun : Timestamp}
      {s s' : Schedule.ScanSchedules}
      (h : Schedule.createScanSchedule s instant id input.planned nextRun = .ok s') :
      Does server instant (.create id input nextRun) s s'
  | update {text : String} {id : UUID} {input : UpsertScanScheduleRequest} {nextRun : Timestamp}
      {s s' : Schedule.ScanSchedules} (hid : server.uuid text = some id)
      (h : Schedule.updateScanSchedule s instant id input.planned nextRun = .ok s') :
      Does server instant (.update text input nextRun) s s'
  | delete {text : String} {id : UUID} {s : Schedule.ScanSchedules}
      (hid : server.uuid text = some id) : Does server instant (.delete text) s (s.erase id)
  | claim {now : Timestamp} {active locked : UUID → Bool} {tie : UUID → Nat} {leaseUntil : Timestamp}
      {limit : Int} {s : Schedule.ScanSchedules} :
      Does server instant (.claim now active locked tie leaseUntil limit) s
        (Schedule.claimDueScanSchedules s active locked tie instant now leaseUntil limit).2
  | record {jobs : UUID → Bool} {text : String} {id : UUID} {nextRun : Option Timestamp}
      {jobID : Option String} {job : Option UUID} {runErr : Option String}
      {s s' : Schedule.ScanSchedules} (hid : server.uuid text = some id)
      (hjob : jobID.bind server.uuid = job)
      (h : Schedule.recordScanScheduleRun s instant id nextRun job runErr = .ok s') :
      Does server instant (.record jobs text nextRun jobID runErr) s s'
  | jobDeleted {job : UUID} {s : Schedule.ScanSchedules} :
      Does server instant (.jobDeleted job) s
        (s.updateWhere (fun row => decide (row.lastJobID = some job))
          (fun row => { row with lastJobID := none }) fun _ => rfl)

/-! ## Statement by statement

The statement on the columns and the one on the records, from a row and its record. Reading
a row into a record forgets the columns that are not for running, and commutes with each of
them. -/

section Rows

variable {server : ScheduleServer} {row row' : ScheduleRow} {input : UpsertScanScheduleRequest}
  {cells cells' : Column → Value} {now nextRun : Timestamp}

theorem jobOf_of_holds (h : Holds server input cells) :
    jobOf cells = input.jobRequest.toCreateScanJobRequest := by
  have hname : cells .name = _ := h .name
  have hmode : cells .samplingMode = _ := h .samplingMode
  have hscheme : cells .scheme = _ := h .scheme
  have hhostname : cells .hostname = _ := h .hostname
  have hpath : cells .path = _ := h .path
  have hport : cells .port = _ := h .port
  have hattempts : cells .attempts = _ := h .attempts
  have htimeout : cells .timeoutMS = _ := h .timeoutMS
  have hlatency : cells .maxLatencyMS = _ := h .maxLatencyMS
  have hloss : cells .maxPacketLoss = _ := h .maxPacketLoss
  have hblacklist : cells .blacklistMinutes = _ := h .blacklistMinutes
  have hblocked : cells .includeBlocked = _ := h .includeBlocked
  unfold jobOf
  rw [hname, hmode, hscheme, hhostname, hpath, hport, hattempts, htimeout, hlatency, hloss,
    hblacklist, hblocked]
  rfl

theorem jobOf_congr (h : ∀ c, c.free = false → cells' c = cells c) : jobOf cells' = jobOf cells := by
  unfold jobOf
  rw [h .name rfl, h .samplingMode rfl, h .scheme rfl, h .hostname rfl, h .path rfl, h .port rfl,
    h .attempts rfl, h .timeoutMS rfl, h .maxLatencyMS rfl, h .maxPacketLoss rfl,
    h .blacklistMinutes rfl, h .includeBlocked rfl]

/-- A statement about free columns leaves the job. -/
theorem jobOf_set {args : List Value} {sets : List (Column × Operand Value)}
    (h : row.set server args sets = some row') (hfree : ∀ c ∈ sets.map Prod.fst, c.free = true) :
    jobOf row'.cells = jobOf row.cells := by
  refine jobOf_congr fun c hc => assign_of_not_mem (assign_of_set h).1 fun hmem => ?_
  rw [hfree c hmem] at hc
  cases hc

theorem schedule_insert {id : UUID}
    (h : assign (stored server) (insertArgs server input nextRun) (insertColumns.zip insertValues)
      (defaultCells now) = some row.cells) (hid : row.id = id) :
    row.schedule =
      { id := id, enabled := input.planned.enabled, plan := input.planned.plan
        jobRequest := input.planned.jobRequest, nextRunAt := nextRun, lastRunAt := none
        lastJobID := none, lastError := "", createdAt := now, updatedAt := now } := by
  have hnodup : ((insertColumns.zip insertValues).map Prod.fst).Nodup := by decide
  have hdefault : ∀ c ∉ (insertColumns.zip insertValues).map Prod.fst,
      row.cells c = defaultCells now c := fun c => assign_of_not_mem h
  have henabled : row.cells .enabled = _ := cell_of_assign h hnodup rfl rfl (by decide) (by decide)
  have hcron : row.cells .cronExpression = _ :=
    cell_of_assign h hnodup rfl rfl (by decide) (by decide)
  have hzone : row.cells .timezone = _ := cell_of_assign h hnodup rfl rfl (by decide) (by decide)
  have hnext : row.cells .nextRunAt = _ := cell_of_assign h hnodup rfl rfl (by decide) (by decide)
  unfold ScheduleRow.schedule
  rw [hid, jobOf_of_holds (holds_insert h), henabled, hcron, hzone, hnext,
    hdefault .lastRunAt (by decide), hdefault .lastJobID (by decide),
    hdefault .lastError (by decide), hdefault .createdAt (by decide),
    hdefault .updatedAt (by decide)]
  rfl

theorem schedule_update {text : String}
    (h : row.set server (updateArgs server text input nextRun) (updateSets now) = some row') :
    row'.schedule = row.schedule.update now input.planned nextRun := by
  obtain ⟨hassign, hid⟩ := assign_of_set h
  have hcolumns : (updateSets now).map Prod.fst = insertColumns ++ [.lastError, .updatedAt] := rfl
  have hnodup : ((updateSets now).map Prod.fst).Nodup := by
    rw [hcolumns]
    decide
  have hsame : ∀ c ∉ insertColumns ++ [.lastError, .updatedAt], row'.cells c = row.cells c :=
    fun c hc => assign_of_not_mem hassign (hcolumns ▸ hc)
  have henabled : row'.cells .enabled = _ :=
    cell_of_assign hassign hnodup rfl rfl (by decide) (by decide)
  have hcron : row'.cells .cronExpression = _ :=
    cell_of_assign hassign hnodup rfl rfl (by decide) (by decide)
  have hzone : row'.cells .timezone = _ :=
    cell_of_assign hassign hnodup rfl rfl (by decide) (by decide)
  have hnext : row'.cells .nextRunAt = _ :=
    cell_of_assign hassign hnodup rfl rfl (by decide) (by decide)
  have herror : row'.cells .lastError = _ :=
    cell_of_assign hassign hnodup rfl rfl (by decide) (by decide)
  have hupdated : row'.cells .updatedAt = _ :=
    cell_of_assign hassign hnodup rfl rfl (by decide) (by decide)
  unfold ScheduleRow.schedule
  rw [hid, jobOf_of_holds (holds_update hassign), henabled, hcron, hzone, hnext, herror, hupdated,
    hsame .lastRunAt (by decide), hsame .lastJobID (by decide), hsame .createdAt (by decide)]
  rfl

/-- The lease, which the columns always take. -/
theorem schedule_claim (instant leaseUntil : Timestamp) (limit : Int) :
    (row.assigned server [.timestamptz now, .integer (Schedule.scheduleLimit limit),
      .timestamptz leaseUntil]
        [(.nextRunAt, .param 3), (.updatedAt, .value (.timestamptz instant))]).schedule =
      row.schedule.claim instant leaseUntil := by
  obtain ⟨row', hset⟩ : ∃ row', row.set server
      [.timestamptz now, .integer (Schedule.scheduleLimit limit), .timestamptz leaseUntil]
        [(.nextRunAt, .param 3), (.updatedAt, .value (.timestamptz instant))] = some row' := by
    rw [exists_set_iff]
    simp only [List.forall_mem_cons, List.not_mem_nil, false_imp_iff, implies_true, and_true]
    exact ⟨⟨_, rfl⟩, ⟨_, rfl⟩⟩
  unfold ScheduleRow.assigned
  rw [hset, Option.getD_some]
  obtain ⟨hassign, hid⟩ := assign_of_set hset
  have hnodup : [Column.nextRunAt, .updatedAt].Nodup := by decide
  have hsame : ∀ c ∉ [Column.nextRunAt, .updatedAt], row'.cells c = row.cells c :=
    fun c hc => assign_of_not_mem hassign hc
  have hnext : row'.cells .nextRunAt = _ :=
    cell_of_assign hassign hnodup rfl rfl (by decide) (by decide)
  have hupdated : row'.cells .updatedAt = _ :=
    cell_of_assign hassign hnodup rfl rfl (by decide) (by decide)
  unfold ScheduleRow.schedule
  rw [hid, jobOf_set hset free_claimSets, hnext, hupdated, hsame .enabled (by decide),
    hsame .cronExpression (by decide), hsame .timezone (by decide), hsame .lastRunAt (by decide),
    hsame .lastJobID (by decide), hsame .lastError (by decide), hsame .createdAt (by decide)]
  rfl

theorem schedule_record {text lastError : String} {nextRun : Option Timestamp}
    {jobID : Option String}
    (h : row.set server (recordArgs text nextRun jobID lastError) (recordSets now nextRun row) =
      some row') :
    row'.schedule = row.schedule.record now nextRun (jobID.bind server.uuid) lastError := by
  obtain ⟨hassign, hid⟩ := assign_of_set h
  have hnodup : ((recordSets now nextRun row).map Prod.fst).Nodup := by
    change [Column.nextRunAt, .lastRunAt, .lastJobID, .lastError, .updatedAt].Nodup
    decide
  have hsame : ∀ c ∉ [Column.nextRunAt, .lastRunAt, .lastJobID, .lastError, .updatedAt],
      row'.cells c = row.cells c := fun c hc => assign_of_not_mem hassign hc
  have hnext : row'.cells .nextRunAt = _ :=
    cell_of_assign hassign hnodup rfl rfl (by decide) (by decide)
  have hrun : row'.cells .lastRunAt = _ :=
    cell_of_assign hassign hnodup rfl rfl (by decide) (by decide)
  have herror : row'.cells .lastError = _ :=
    cell_of_assign hassign hnodup rfl rfl (by decide) (by decide)
  have hupdated : row'.cells .updatedAt = _ :=
    cell_of_assign hassign hnodup rfl rfl (by decide) (by decide)
  have hjob : (row'.cells .lastJobID).id? = jobID.bind server.uuid := by
    have hcell : (some (jobID.elim .null .text) : Option Value).bind (stored server .lastJobID) =
        some (row'.cells .lastJobID) :=
      assign_of_mem hassign hnodup (mem_of_lookup (x := .param 3) rfl)
    cases jobID with
    | none =>
      have hnull : row'.cells .lastJobID = .null := (Option.some.inj hcell).symm
      rw [hnull]
      rfl
    | some text =>
      obtain ⟨job, hjob, hcell⟩ := Option.map_eq_some_iff.mp (show
        (server.uuid text).map Value.uuid = some _ from hcell)
      rw [← hcell, Option.bind_some, hjob]
      rfl
  have hdue : (nextRun.elim (row.cells .nextRunAt) .timestamptz).time =
      nextRun.getD (row.cells .nextRunAt).time := by
    cases nextRun <;> rfl
  unfold ScheduleRow.schedule
  rw [hid, jobOf_set h (free_recordSets _ _ _), hnext, hrun, hjob, herror, hupdated, hdue,
    hsame .enabled (by decide), hsame .cronExpression (by decide), hsame .timezone (by decide),
    hsame .createdAt (by decide)]
  rfl

theorem schedule_jobDeleted :
    (row.assigned server [] [(.lastJobID, .value .null)]).schedule =
      { row.schedule with lastJobID := none } := by
  obtain ⟨row', hset⟩ : ∃ row', row.set server [] [(.lastJobID, .value .null)] = some row' := by
    rw [exists_set_iff]
    simp only [List.forall_mem_cons, List.not_mem_nil, false_imp_iff, implies_true, and_true]
    exact ⟨_, rfl⟩
  unfold ScheduleRow.assigned
  rw [hset, Option.getD_some]
  obtain ⟨hassign, hid⟩ := assign_of_set hset
  have hcell : (some .null : Option Value).bind (stored server .lastJobID) =
      some (row'.cells .lastJobID) :=
    assign_of_mem hassign (List.nodup_singleton _) (mem_of_lookup (x := .value .null) rfl)
  have hnull : row'.cells .lastJobID = .null := (Option.some.inj hcell).symm
  have hsame : ∀ c ∉ [Column.lastJobID], row'.cells c = row.cells c :=
    fun c hc => assign_of_not_mem hassign hc
  unfold ScheduleRow.schedule
  rw [hid, jobOf_set hset free_jobDeletedSets, hnull, hsame .enabled (by decide),
    hsame .cronExpression (by decide), hsame .timezone (by decide), hsame .nextRunAt (by decide),
    hsame .lastRunAt (by decide), hsame .lastError (by decide), hsame .createdAt (by decide),
    hsame .updatedAt (by decide)]
  rfl

end Rows

/-! ## Call by call -/

section Calls

variable {server : ScheduleServer} {s : Schedules} {now : Timestamp}

theorem find?_schedules (id : UUID) :
    (schedules s).find? id = (s.find? id).map ScheduleRow.schedule := Table.find?_map

theorem schedules_put (row : ScheduleRow) :
    schedules (s.put row) = (schedules s).put row.schedule := Table.map_put

/-- The condition of a claim, read off the columns. -/
theorem due_schedule (active : UUID → Bool) (row : ScheduleRow) :
    row.schedule.due active now = row.due active now := by
  obtain ⟨enabled, henabled⟩ := exists_boolean (row.typed .enabled) rfl rfl
  obtain ⟨nextRunAt, hnext⟩ := exists_timestamptz (row.typed .nextRunAt) rfl rfl
  have htyped := row.typed .lastJobID
  unfold Schedule.ScanSchedule.due ScheduleRow.due ScheduleRow.schedule
  dsimp only
  rw [henabled, hnext]
  cases hjob : row.cells .lastJobID with
  | null => exact Bool.and_true _
  | uuid job => rfl
  | _ =>
    rw [hjob] at htyped
    exact absurd htyped Bool.false_ne_true

theorem picked_schedules (active locked : UUID → Bool) (tie : UUID → Nat) (limit : Int) :
    Schedule.pickedSchedules (schedules s) active locked tie now limit =
      (pickedSchedules s now active locked tie limit).map ScheduleRow.schedule := by
  unfold Schedule.pickedSchedules pickedSchedules schedules Table.map
  dsimp only
  have hfilter : (s.rows.map ScheduleRow.schedule).filter
      (fun row => row.due active now && !locked row.id) =
        (s.rows.filter fun row => row.due active now && !locked row.id).map
          ScheduleRow.schedule := by
    rw [List.filter_map]
    refine congrArg (List.map _) (List.filter_congr fun row _ => ?_)
    rw [Function.comp_apply, due_schedule]
    rfl
  rw [hfilter, List.map_take]
  refine congrArg (List.take _) (Eq.symm ?_)
  refine List.map_insertionSort _ _ _ _ fun a _ b _ => ?_
  exact Iff.rfl

theorem claim_schedules (active locked : UUID → Bool) (tie : UUID → Nat)
    (instant leaseUntil : Timestamp) (limit : Int) :
    (Schedule.claimDueScanSchedules (schedules s) active locked tie instant now leaseUntil limit).2 =
      schedules (claimDueScanSchedules server s now active locked tie instant leaseUntil limit).2 := by
  unfold Schedule.claimDueScanSchedules claimDueScanSchedules
  dsimp only
  rw [picked_schedules, List.map_map]
  refine (Table.map_updateWhere (fun row _ => ?_) fun row _ _ => ?_).symm
  · rfl
  · exact schedule_claim instant leaseUntil limit

theorem record_schedules {key : UUID} {row row' : ScheduleRow} {text lastError : String}
    {nextRun : Option Timestamp} {jobID : Option String} {runErr : Option String}
    (herror : Schedule.lastErrorText runErr = some lastError) (hrow : s.find? key = some row)
    (hset : row.set server (recordArgs text nextRun jobID lastError) (recordSets now nextRun row) =
      some row') :
    Schedule.recordScanScheduleRun (schedules s) now key nextRun (jobID.bind server.uuid) runErr =
      .ok (schedules (s.put row')) := by
  obtain rfl : row.id = key := Table.key_of_find? hrow
  have hfound : (schedules s).find? row.schedule.id = some row.schedule := by
    rw [find?_schedules]
    exact congrArg (Option.map ScheduleRow.schedule) hrow
  unfold Schedule.recordScanScheduleRun
  rw [herror, schedules_put, schedule_record hset]
  exact congrArg Except.ok (Table.put_eq_updateWhere _ _ hfound).symm

end Calls

/-- **A call on the columns is the call on the records**, or it changes nothing. -/
theorem run_refines (server : ScheduleServer) (s : Schedules) (instant : Timestamp)
    (op : ScheduleOp) :
    op.run server s instant = s ∨
      Does server instant op (schedules s) (schedules (op.run server s instant)) := by
  cases op with
  | create id input nextRun =>
    unfold ScheduleOp.run
    rcases createScanSchedule_cases server s instant id input nextRun with
      ⟨error, heq⟩ | ⟨row, hid, hnone, hassign, heq⟩
    · exact .inl (congrArg Prod.snd heq)
    · refine .inr (.create ?_)
      dsimp only
      rw [heq, schedules_put, schedule_insert hassign hid]
      unfold Schedule.createScanSchedule
      -- no record has the id, as no row has it
      rw [if_neg (not_not_intro (by rw [find?_schedules, hnone, Option.map_none]))]
  | update text input nextRun =>
    unfold ScheduleOp.run
    rcases updateScanSchedule_cases server s instant text input nextRun with
      ⟨error, heq⟩ | ⟨key, row, row', hkey, hrow, hset, heq⟩
    · exact .inl (congrArg Prod.snd heq)
    · refine .inr (.update hkey ?_)
      dsimp only
      rw [heq, schedules_put, schedule_update hset]
      unfold Schedule.updateScanSchedule
      rw [find?_schedules, hrow]
      rfl
  | delete text =>
    rcases deleteScanSchedule_cases server s text with heq | ⟨key, hkey, heq⟩
    · exact .inl heq
    · refine .inr ?_
      unfold ScheduleOp.run
      dsimp only
      rw [heq, show schedules (s.erase key) = (schedules s).erase key from Table.map_erase]
      exact .delete hkey
  | claim now active locked tie leaseUntil limit =>
    refine .inr ?_
    unfold ScheduleOp.run
    dsimp only
    rw [← claim_schedules]
    exact .claim
  | record jobs text nextRun jobID runErr =>
    unfold ScheduleOp.run
    rcases recordScanScheduleRun_cases server s instant jobs text nextRun jobID runErr with
      heq | ⟨key, lastError, row, row', hkey, herror, hrow, hset, heq⟩
    · exact .inl heq
    · refine .inr (.record hkey rfl ?_)
      dsimp only
      rw [heq]
      exact record_schedules herror hrow hset
  | jobDeleted job =>
    refine .inr ?_
    have hdeleted : schedules (ScheduleOp.run server s instant (.jobDeleted job)) =
        (schedules s).updateWhere (fun row => decide (row.lastJobID = some job))
          (fun row => { row with lastJobID := none }) fun _ => rfl := by
      show (s.updateWhere _ _ (ScheduleRow.id_assigned server _ _)).map _ _ = _
      refine Table.map_updateWhere (fun row _ => ?_) fun row _ _ => schedule_jobDeleted
      -- the foreign key is cleared on the column, which the record reads
      have hiff : row.schedule.lastJobID = some job ↔ row.cells .lastJobID = .uuid job := by
        show (row.cells .lastJobID).id? = some job ↔ _
        cases row.cells .lastJobID <;> simp [Value.id?]
      exact decide_eq_decide.mpr hiff
    rw [hdeleted]
    exact .jobDeleted

/-- **Every run on the columns is a run on the records.** -/
theorem runAll_refines (server : ScheduleServer) (s : Schedules)
    (ops : List (Timestamp × ScheduleOp)) :
    Relation.ReflTransGen (fun before after => ∃ op ∈ ops, Does server op.1 op.2 before after)
      (schedules s) (schedules (runAll server s ops)) := by
  unfold runAll
  induction ops generalizing s with
  | nil => exact .refl
  | cons op ops ih =>
    have hmore : ∀ before after, (∃ later ∈ ops, Does server later.1 later.2 before after) →
        ∃ later ∈ op :: ops, Does server later.1 later.2 before after := by
      rintro before after ⟨later, hlater, hdoes⟩
      exact ⟨later, List.mem_cons_of_mem op hlater, hdoes⟩
    have hrest := Relation.ReflTransGen.mono hmore _ _ (ih (op.2.run server s op.1))
    rcases run_refines server s op.1 op.2 with hsame | hdoes
    · rw [hsame] at hrest
      rwa [List.foldl_cons, hsame]
    · exact .head ⟨op, List.mem_cons_self, hdoes⟩ hrest

end Cfscan.Scans
