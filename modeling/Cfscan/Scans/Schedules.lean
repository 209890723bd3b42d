import Cfscan.Lib.Columns
import Cfscan.Scans.Service
import Cfscan.Schedule.Store

/-!
# Schedules, column by column

A schedule is a request that is written to `scan_schedules` and read back, by statements that match
nineteen and twenty parameters and twenty-five columns by their places. The statements are modelled
as they stand, with their lists of columns and of arguments; `Holds` is what they leave
of an input.

The statements differ in their lists, and a mistake in one of them would be a value in the wrong
column; nothing in the source but the reader's eye keeps the lists in step. Here it is the proofs: a
list with two columns exchanged would be as well-typed as the right one, and `Holds` would fail.

What the columns take is `stored`: an `integer` is bounded, a text has no NUL, a list of agents is
JSON the server accepts, and a uuid is cast. The table has no `CHECK` besides.
-/

set_option autoImplicit false

namespace Cfscan.Scans

open Cfscan.Lib Cfscan.Store
open Cfscan.Schedule (Cron Plan)

/-! ## The requests -/

/-- `model.UpsertScanScheduleRequest`. -/
structure UpsertScanScheduleRequest where
  name : String
  enabled : Bool
  cronExpression : String
  timezone : String
  agentIDs : List String
  samplingMode : String
  targetCount : Int
  scheme : String
  hostname : String
  path : String
  port : Int
  attempts : Int
  timeoutMS : Int
  maxLatencyMS : ℚ
  maxPacketLoss : ℚ
  blacklistMinutes : Int
  includeIPv6 : Bool
  includeBlocked : Bool
deriving DecidableEq

def UpsertScanScheduleRequest.jobRequest (r : UpsertScanScheduleRequest) :
    CreateScanJobRequest where
  kind := ""
  forceLeague := false
  name := r.name
  agentIDs := r.agentIDs
  samplingMode := r.samplingMode
  targetCount := r.targetCount
  scheme := r.scheme
  hostname := r.hostname
  path := r.path
  port := r.port
  attempts := r.attempts
  timeoutMS := r.timeoutMS
  maxLatencyMS := r.maxLatencyMS
  maxPacketLoss := r.maxPacketLoss
  blacklistMinutes := r.blacklistMinutes
  includeIPv6 := r.includeIPv6
  includeBlocked := r.includeBlocked

def UpsertScanScheduleRequest.applyJobRequest (r : UpsertScanScheduleRequest)
    (job : CreateScanJobRequest) : UpsertScanScheduleRequest :=
  { r with
    name := job.name
    agentIDs := job.agentIDs
    samplingMode := job.samplingMode
    targetCount := job.targetCount
    scheme := job.scheme
    hostname := job.hostname
    path := job.path
    port := job.port
    attempts := job.attempts
    timeoutMS := job.timeoutMS
    maxLatencyMS := job.maxLatencyMS
    maxPacketLoss := job.maxPacketLoss
    blacklistMinutes := job.blacklistMinutes
    includeIPv6 := job.includeIPv6
    includeBlocked := job.includeBlocked }

/-- `normalizeSchedule`: the input it leaves, and the next run. `now` is the clock of the default
name and `instant` that of the next run. -/
def normalizeSchedule (cron : Cron) (now : Clock) (instant : Timestamp)
    (input : UpsertScanScheduleRequest) : Except String (UpsertScanScheduleRequest × Timestamp) := do
  let input := { input with
    name := trimSpace input.name
    cronExpression := orDefault "" (trimSpace input.cronExpression) "0 */6 * * *"
    timezone := orDefault "" (trimSpace input.timezone) "Asia/Shanghai" }
  let job := applyDefaults now input.jobRequest
  validate job
  let input := input.applyJobRequest job
  let nextRun ← Schedule.next cron ⟨input.cronExpression, input.timezone⟩ instant
  pure (input, nextRun)

/-- `model.ScanSchedule`. -/
structure ScanSchedule extends UpsertScanScheduleRequest where
  id : String
  nextRunAt : Timestamp
  lastRunAt : Option Timestamp
  lastJobID : Option String
  lastError : String
  createdAt : Timestamp
  updatedAt : Timestamp
deriving DecidableEq

def ScanSchedule.jobRequest (s : ScanSchedule) : CreateScanJobRequest where
  kind := ""
  forceLeague := false
  name := s.name
  agentIDs := s.agentIDs
  samplingMode := s.samplingMode
  targetCount := s.targetCount
  scheme := s.scheme
  hostname := s.hostname
  path := s.path
  port := s.port
  attempts := s.attempts
  timeoutMS := s.timeoutMS
  maxLatencyMS := s.maxLatencyMS
  maxPacketLoss := s.maxPacketLoss
  blacklistMinutes := s.blacklistMinutes
  includeIPv6 := s.includeIPv6
  includeBlocked := s.includeBlocked

/-! ## The table -/

inductive Column where
  | id | name | enabled | cronExpression | timezone | agentIDs | samplingMode | targetCount | scheme
  | hostname | path | port | attempts | timeoutMS | maxLatencyMS | maxPacketLoss | blacklistMinutes
  | includeIPv6 | includeBlocked | nextRunAt | lastRunAt | lastJobID | lastError | createdAt
  | updatedAt
deriving DecidableEq

def Column.all : List Column :=
  [.id, .name, .enabled, .cronExpression, .timezone, .agentIDs, .samplingMode, .targetCount, .scheme,
    .hostname, .path, .port, .attempts, .timeoutMS, .maxLatencyMS, .maxPacketLoss, .blacklistMinutes,
    .includeIPv6, .includeBlocked, .nextRunAt, .lastRunAt, .lastJobID, .lastError, .createdAt,
    .updatedAt]

theorem Column.mem_all (c : Column) : c ∈ Column.all := by
  cases c <;> decide

instance (p : Column → Prop) [DecidablePred p] : Decidable (∀ c, p c) :=
  decidable_of_iff (∀ c ∈ Column.all, p c) ⟨fun h c => h c c.mem_all, fun h c _ => h c⟩

inductive Kind where
  | text | boolean | integer | double | jsonb | timestamptz | uuid
deriving DecidableEq

inductive Value where
  | null
  | text (s : String)
  | boolean (b : Bool)
  | integer (n : Int)
  | double (x : ℚ)
  /-- By the text the server prints. -/
  | jsonb (s : String)
  | timestamptz (t : Timestamp)
  | uuid (id : UUID)
deriving DecidableEq

def Column.kind : Column → Kind
  | .id | .lastJobID => .uuid
  | .name | .cronExpression | .timezone | .samplingMode | .scheme | .hostname | .path | .lastError =>
    .text
  | .enabled | .includeIPv6 | .includeBlocked => .boolean
  | .agentIDs => .jsonb
  | .targetCount | .port | .attempts | .timeoutMS | .blacklistMinutes => .integer
  | .maxLatencyMS | .maxPacketLoss => .double
  | .nextRunAt | .lastRunAt | .createdAt | .updatedAt => .timestamptz

/-- All the others are `NOT NULL`. -/
def Column.nullable : Column → Bool
  | .lastRunAt | .lastJobID => true
  | _ => false

/-- The server, and `encoding/json` for lists of texts. -/
structure ScheduleServer extends Postgres where
  /-- `id::text`, which `uuid` reads back. -/
  uuidText : UUID → String
  uuid_text : ∀ id, uuid (uuidText id) = some id
  /-- What `jsonb` prints for a text it accepts. -/
  jsonb : String → Option String
  marshal : List String → String
  unmarshal : String → Option (List String)
  /-- Nothing is lost between an encoding, the column and a decoding. -/
  lossless : ∀ items text, jsonb (marshal items) = some text →
    text ≠ "" ∧ unmarshal text = some items

/-- The value can stand in the column. -/
def Value.typed (c : Column) : Value → Bool
  | .null => c.nullable
  | .text _ => decide (c.kind = .text)
  | .boolean _ => decide (c.kind = .boolean)
  | .integer _ => decide (c.kind = .integer)
  | .double _ => decide (c.kind = .double)
  | .jsonb _ => decide (c.kind = .jsonb)
  | .timestamptz _ => decide (c.kind = .timestamptz)
  | .uuid _ => decide (c.kind = .uuid)

/-- What a column makes of a value it is given. -/
def stored (server : ScheduleServer) (c : Column) (v : Value) : Option Value :=
  match c.kind, v with
  | .text, .text text => if storable text then some v else none
  | .boolean, .boolean _ => some v
  | .integer, .integer n => if int4 n then some v else none
  | .double, .double _ => some v
  | .jsonb, .text text => (server.jsonb text).map .jsonb
  | .timestamptz, .timestamptz _ => some v
  | .uuid, .text text => (server.uuid text).map .uuid
  | _, .null => if c.nullable then some v else none
  | _, _ => none

/-- A row of `scan_schedules`. What stands under `id` among the cells is not used. -/
structure ScheduleRow where
  id : UUID
  cells : Column → Value
  typed : ∀ c, (cells c).typed c = true

abbrev Schedules := Table UUID ScheduleRow ScheduleRow.id

def ScheduleRow.cell (row : ScheduleRow) : Column → Value
  | .id => .uuid row.id
  | c => row.cells c

/-- The defaults of the columns; a column without one is null until a value is given for it. -/
def defaultCells (now : Timestamp) : Column → Value
  | .name | .cronExpression | .nextRunAt | .lastRunAt | .lastJobID => .null
  | .id => .uuid 0
  | .enabled => .boolean true
  | .timezone => .text "Asia/Shanghai"
  | .agentIDs => .jsonb "[]"
  | .samplingMode => .text "count"
  | .targetCount => .integer 128
  | .scheme => .text "https"
  | .hostname => .text "cloudflare.com"
  | .path => .text "/cdn-cgi/trace"
  | .port => .integer 443
  | .attempts => .integer 3
  | .timeoutMS => .integer 5000
  | .maxLatencyMS => .double 1000
  | .maxPacketLoss => .double 50
  | .blacklistMinutes => .integer 60
  | .includeIPv6 | .includeBlocked => .boolean false
  | .lastError => .text ""
  | .createdAt | .updatedAt => .timestamptz now

/-! ## Reading -/

/-- What a statement returns: a column, or its `::text`. -/
inductive Item where
  | column (c : Column)
  | text (c : Column)
deriving DecidableEq

def ScheduleRow.read (server : ScheduleServer) (row : ScheduleRow) : Item → Value
  | .column c => row.cell c
  | .text c =>
    match row.cell c with
    | .uuid id => .text (server.uuidText id)
    | v => v

def scanScheduleSelect : List Item :=
  [.text .id, .column .name, .column .enabled, .column .cronExpression, .column .timezone,
    .column .agentIDs, .column .samplingMode, .column .targetCount, .column .scheme,
    .column .hostname, .column .path, .column .port, .column .attempts, .column .timeoutMS,
    .column .maxLatencyMS, .column .maxPacketLoss, .column .blacklistMinutes, .column .includeIPv6,
    .column .includeBlocked, .column .nextRunAt, .column .lastRunAt, .text .lastJobID,
    .column .lastError, .column .createdAt, .column .updatedAt]

/-- A nullable result. -/
def Value.timestamp? : Value → Option (Option Timestamp)
  | .null => some none
  | .timestamptz t => some (some t)
  | _ => none

def Value.text? : Value → Option (Option String)
  | .null => some none
  | .text s => some (some s)
  | _ => none

/-- The bytes of a `jsonb` result. -/
def decodeAgents (server : ScheduleServer) (agentIDs : String) : Option (List String) :=
  if agentIDs = "" then some [] else server.unmarshal agentIDs

def scanScheduleRow (server : ScheduleServer) : List Value → Option ScanSchedule
  | [.text id, .text name, .boolean enabled, .text cronExpression, .text timezone, .jsonb agentIDs,
      .text samplingMode, .integer targetCount, .text scheme, .text hostname, .text path,
      .integer port, .integer attempts, .integer timeoutMS, .double maxLatencyMS,
      .double maxPacketLoss, .integer blacklistMinutes, .boolean includeIPv6,
      .boolean includeBlocked, .timestamptz nextRunAt, lastRunAt, lastJobID, .text lastError,
      .timestamptz createdAt, .timestamptz updatedAt] => do
    let lastRunAt ← lastRunAt.timestamp?
    let lastJobID ← lastJobID.text?
    let agentIDs ← decodeAgents server agentIDs
    pure ⟨⟨name, enabled, cronExpression, timezone, agentIDs, samplingMode, targetCount, scheme,
      hostname, path, port, attempts, timeoutMS, maxLatencyMS, maxPacketLoss, blacklistMinutes,
      includeIPv6, includeBlocked⟩, id, nextRunAt, lastRunAt, lastJobID, lastError, createdAt,
      updatedAt⟩
  | _ => none

/-! ## Writing

An `INSERT` or `UPDATE` with a list of columns and a list of arguments, matched by place. A
value its column does not take refuses the statement before any column is written. -/

def insertColumns : List Column :=
  [.name, .enabled, .cronExpression, .timezone, .agentIDs, .samplingMode, .targetCount,
    .scheme, .hostname, .path, .port, .attempts, .timeoutMS, .maxLatencyMS, .maxPacketLoss,
    .blacklistMinutes, .includeIPv6, .includeBlocked, .nextRunAt]

/-- `VALUES ($1, …, $19)`. -/
def insertValues : List (Operand Value) :=
  [.param 1, .param 2, .param 3, .param 4, .param 5, .param 6, .param 7, .param 8, .param 9,
    .param 10, .param 11, .param 12, .param 13, .param 14, .param 15, .param 16, .param 17,
    .param 18, .param 19]

def insertReturning : List Item :=
  [.text .id, .column .name, .column .enabled, .column .cronExpression, .column .timezone,
    .column .agentIDs, .column .samplingMode, .column .targetCount,
    .column .scheme, .column .hostname, .column .path, .column .port, .column .attempts,
    .column .timeoutMS, .column .maxLatencyMS, .column .maxPacketLoss,
    .column .blacklistMinutes, .column .includeIPv6, .column .includeBlocked, .column .nextRunAt,
    .column .lastRunAt, .text .lastJobID, .column .lastError, .column .createdAt, .column .updatedAt]

def insertArgs (server : ScheduleServer) (input : UpsertScanScheduleRequest) (nextRun : Timestamp) :
    List Value :=
  [.text input.name, .boolean input.enabled, .text input.cronExpression, .text input.timezone,
    .text (server.marshal input.agentIDs), .text input.samplingMode, .integer input.targetCount,
    .text input.scheme, .text input.hostname, .text input.path, .integer input.port,
    .integer input.attempts, .integer input.timeoutMS,
    .double input.maxLatencyMS, .double input.maxPacketLoss, .integer input.blacklistMinutes,
    .boolean input.includeIPv6, .boolean input.includeBlocked, .timestamptz nextRun]

/-- The `SET` of the update. -/
def updateSets (now : Timestamp) : List (Column × Operand Value) :=
  [(.name, .param 2), (.enabled, .param 3), (.cronExpression, .param 4), (.timezone, .param 5),
    (.agentIDs, .param 6), (.samplingMode, .param 7), (.targetCount, .param 8), (.scheme, .param 9),
    (.hostname, .param 10), (.path, .param 11), (.port, .param 12), (.attempts, .param 13),
    (.timeoutMS, .param 14), (.maxLatencyMS, .param 15), (.maxPacketLoss, .param 16),
    (.blacklistMinutes, .param 17), (.includeIPv6, .param 18), (.includeBlocked, .param 19),
    (.nextRunAt, .param 20), (.lastError, .value (.text "")), (.updatedAt, .value (.timestamptz now))]

def updateReturning : List Item :=
  [.text .id, .column .name, .column .enabled, .column .cronExpression, .column .timezone,
    .column .agentIDs, .column .samplingMode, .column .targetCount,
    .column .scheme, .column .hostname, .column .path, .column .port, .column .attempts,
    .column .timeoutMS, .column .maxLatencyMS, .column .maxPacketLoss,
    .column .blacklistMinutes, .column .includeIPv6, .column .includeBlocked, .column .nextRunAt,
    .column .lastRunAt, .text .lastJobID, .column .lastError, .column .createdAt, .column .updatedAt]

def updateArgs (server : ScheduleServer) (id : String) (input : UpsertScanScheduleRequest)
    (nextRun : Timestamp) : List Value :=
  [.text id, .text input.name, .boolean input.enabled, .text input.cronExpression,
    .text input.timezone, .text (server.marshal input.agentIDs),
    .text input.samplingMode, .integer input.targetCount, .text input.scheme, .text input.hostname,
    .text input.path, .integer input.port, .integer input.attempts,
    .integer input.timeoutMS, .double input.maxLatencyMS, .double input.maxPacketLoss,
    .integer input.blacklistMinutes, .boolean input.includeIPv6, .boolean input.includeBlocked,
    .timestamptz nextRun]

def claimReturning : List Item :=
  [.text .id, .column .name, .column .enabled, .column .cronExpression, .column .timezone,
    .column .agentIDs, .column .samplingMode, .column .targetCount, .column .scheme,
    .column .hostname, .column .path, .column .port, .column .attempts, .column .timeoutMS,
    .column .maxLatencyMS, .column .maxPacketLoss, .column .blacklistMinutes, .column .includeIPv6,
    .column .includeBlocked, .column .nextRunAt, .column .lastRunAt, .text .lastJobID,
    .column .lastError, .column .createdAt, .column .updatedAt]

/-- A row with the assignments of a statement, when its columns take them. -/
def ScheduleRow.set (server : ScheduleServer) (args : List Value)
    (sets : List (Column × Operand Value)) (row : ScheduleRow) : Option ScheduleRow :=
  (assign (stored server) args sets row.cells).bind fun cells =>
    if h : ∀ c, (cells c).typed c = true then some ⟨row.id, cells, h⟩ else none

theorem typed_stored {server : ScheduleServer} {c : Column} {v w : Value}
    (h : stored server c v = some w) : w.typed c = true := by
  unfold stored at h
  split at h
  case h_1 hkind =>
    split at h <;> cases h
    exact decide_eq_true hkind
  case h_3 hkind =>
    split at h <;> cases h
    exact decide_eq_true hkind
  case h_5 hkind =>
    obtain ⟨_, -, rfl⟩ := Option.map_eq_some_iff.mp h
    exact decide_eq_true hkind
  case h_7 hkind =>
    obtain ⟨_, -, rfl⟩ := Option.map_eq_some_iff.mp h
    exact decide_eq_true hkind
  case h_8 =>
    split at h <;> cases h
    assumption
  case h_9 => cases h
  all_goals
    cases h
    exact decide_eq_true ‹_›

section Assignments

variable {server : ScheduleServer} {args : List Value} {sets : List (Column × Operand Value)}
  {row row' : ScheduleRow}

/-- The row after a statement: the cells it assigns, under the same id. -/
theorem assign_of_set (h : row.set server args sets = some row') :
    assign (stored server) args sets row.cells = some row'.cells ∧ row'.id = row.id := by
  obtain ⟨cells, hcells, hrow⟩ := Option.bind_eq_some_iff.mp h
  split at hrow
  · cases hrow
    exact ⟨hcells, rfl⟩
  · cases hrow

theorem exists_set_iff : (∃ row', row.set server args sets = some row') ↔
    ∀ set ∈ sets, ∃ w, (set.2.eval args).bind (stored server set.1) = some w := by
  have hassign : (∃ cells, assign (stored server) args sets row.cells = some cells) ↔ _ :=
    exists_assign_iff
  rw [← hassign]
  constructor
  · rintro ⟨row', hset⟩
    exact ⟨row'.cells, (assign_of_set hset).1⟩
  · rintro ⟨cells, hcells⟩
    have htyped := assign_forall (p := fun c v => v.typed c = true)
      (fun _ _ _ => typed_stored) hcells row.typed
    unfold ScheduleRow.set
    exact ⟨⟨row.id, cells, htyped⟩, by rw [hcells, Option.bind_some, dif_pos htyped]⟩

end Assignments

section Calls

variable (server : ScheduleServer) (s : Schedules) (now : Timestamp)

/-- What `scanScheduleRow` makes of a returned row. -/
def returned (context : String) (items : List Item) (row : ScheduleRow) :
    Except StoreError ScanSchedule :=
  match scanScheduleRow server (items.map (row.read server)) with
  | none => .error (.message context)
  | some item => .ok item

def createScanSchedule (id : UUID) (input : UpsertScanScheduleRequest) (nextRun : Timestamp) :
    Except StoreError ScanSchedule × Schedules :=
  match assign (stored server) (insertArgs server input nextRun) (insertColumns.zip insertValues)
    (defaultCells now) with
  | none => (.error (.db "create scan schedule" .valueRefused), s)
  | some cells =>
    if h : ∀ c, (cells c).typed c = true then
      if s.find? id ≠ none then (.error (.db "create scan schedule" .uniqueViolation), s)
      else
        (returned server "create scan schedule" insertReturning ⟨id, cells, h⟩,
          s.put ⟨id, cells, h⟩)
    else (.error (.db "create scan schedule" .valueRefused), s)

def updateScanSchedule (id : String) (input : UpsertScanScheduleRequest) (nextRun : Timestamp) :
    Except StoreError ScanSchedule × Schedules :=
  match server.uuid id with
  | none => (.error (.db "update scan schedule" .castFailed), s)
  | some key =>
    match s.find? key with
    | none => (.error (.message "scan schedule not found"), s)
    | some row =>
      match row.set server (updateArgs server id input nextRun) (updateSets now) with
      | none => (.error (.db "update scan schedule" .valueRefused), s)
      | some row' => (returned server "update scan schedule" updateReturning row', s.put row')

def getScanSchedule (id : String) : Except StoreError ScanSchedule :=
  match server.uuid id with
  | none => .error (.db "get scan schedule" .castFailed)
  | some key =>
    match s.find? key with
    | none => .error (.db "get scan schedule" .noRows)
    | some row => returned server "get scan schedule" scanScheduleSelect row

/-- The rows in the order of a query. -/
def readAll (items : List Item) (rows : List ScheduleRow) : Except StoreError (List ScanSchedule) :=
  rows.mapM (returned server "" items)

def createdAt (row : ScheduleRow) : Timestamp :=
  match row.cells .createdAt with
  | .timestamptz t => t
  | _ => 0

def listScanSchedules (tie : UUID → Nat) : Except StoreError (List ScanSchedule) :=
  readAll server scanScheduleSelect (s.rows.insertionSort fun a b =>
    createdAt b < createdAt a ∨ (createdAt a = createdAt b ∧ tie a.id ≤ tie b.id))

/-- `DELETE FROM scan_schedules`. -/
def deleteScanSchedule (id : String) : Except StoreError Unit × Schedules :=
  match server.uuid id with
  | none => (.error (.db "delete scan schedule" .castFailed), s)
  | some key =>
    if s.find? key = none then (.error (.message "scan schedule not found"), s)
    else (.ok (), s.erase key)

/-- The `WHERE` clause of the claim. `active` says of a job whether its status is pending or
running. -/
def ScheduleRow.due (active : UUID → Bool) (now : Timestamp) (row : ScheduleRow) : Bool :=
  match row.cells .enabled, row.cells .nextRunAt, row.cells .lastJobID with
  | .boolean enabled, .timestamptz nextRunAt, .uuid job =>
    enabled && decide (nextRunAt ≤ now) && !active job
  | .boolean enabled, .timestamptz nextRunAt, _ => enabled && decide (nextRunAt ≤ now)
  | _, _, _ => false

def ScheduleRow.nextRunAt (row : ScheduleRow) : Timestamp :=
  match row.cells .nextRunAt with
  | .timestamptz t => t
  | _ => 0

/-- The rows a claim picks: due, not locked by somebody else, soonest first. -/
def pickedSchedules (active locked : UUID → Bool) (tie : UUID → Nat) (limit : Int) :
    List ScheduleRow :=
  let candidates := s.rows.filter fun row => row.due active now && !locked row.id
  (candidates.insertionSort fun a b => a.nextRunAt < b.nextRunAt ∨
    (a.nextRunAt = b.nextRunAt ∧ tie a.id ≤ tie b.id)).take (Schedule.scheduleLimit limit)

/-- The row after an assignment that its columns take. -/
def ScheduleRow.assigned (args : List Value) (sets : List (Column × Operand Value))
    (row : ScheduleRow) : ScheduleRow :=
  (row.set server args sets).getD row

theorem ScheduleRow.id_set {server : ScheduleServer} {args : List Value}
    {sets : List (Column × Operand Value)} {row row' : ScheduleRow}
    (h : row.set server args sets = some row') : row'.id = row.id := (assign_of_set h).2

@[simp] theorem ScheduleRow.id_assigned (args : List Value) (sets : List (Column × Operand Value))
    (row : ScheduleRow) : (row.assigned server args sets).id = row.id := by
  unfold ScheduleRow.assigned
  cases h : row.set server args sets with
  | none => rfl
  | some row' => exact ScheduleRow.id_set h

/-- `ClaimDueScanSchedules`, executed at `instant`; `now` is what its caller read off the clock. -/
def claimDueScanSchedules (active locked : UUID → Bool) (tie : UUID → Nat)
    (instant leaseUntil : Timestamp) (limit : Int) : Except StoreError (List ScanSchedule) × Schedules :=
  let picked := pickedSchedules s now active locked tie limit
  let args : List Value := [.timestamptz now, .integer (Schedule.scheduleLimit limit),
    .timestamptz leaseUntil]
  let claim := ScheduleRow.assigned server args
    [(.nextRunAt, .param 3), (.updatedAt, .value (.timestamptz instant))]
  (readAll server claimReturning (picked.map claim),
    s.updateWhere (fun row => decide (row.id ∈ picked.map ScheduleRow.id)) claim
      (ScheduleRow.id_assigned server _ _))

/-- The `SET` of `RecordScanScheduleRun`, with `COALESCE($2::timestamptz, next_run_at)`. -/
def recordSets (nextRun : Option Timestamp) (row : ScheduleRow) : List (Column × Operand Value) :=
  [(.nextRunAt, .value (nextRun.elim (row.cells .nextRunAt) .timestamptz)),
    (.lastRunAt, .value (.timestamptz now)), (.lastJobID, .param 3), (.lastError, .param 4),
    (.updatedAt, .value (.timestamptz now))]

def recordArgs (id : String) (nextRun : Option Timestamp) (jobID : Option String)
    (lastError : String) : List Value :=
  [.text id, nextRun.elim .null .timestamptz, jobID.elim .null .text, .text lastError]

/-- `RecordScanScheduleRun`. `jobs` are the jobs there are. -/
def recordScanScheduleRun (jobs : UUID → Bool) (id : String) (nextRun : Option Timestamp)
    (jobID : Option String) (runErr : Option String) : Except StoreError Unit × Schedules :=
  match server.uuid id, Schedule.lastErrorText runErr with
  | some key, some lastError =>
    match s.find? key with
    | none => (.ok (), s)
    | some row =>
      match row.set server (recordArgs id nextRun jobID lastError) (recordSets now nextRun row) with
      | none => (.error (.db "record scan schedule run" .valueRefused), s)
      | some row' =>
        match row'.cells .lastJobID with
        | .uuid job =>
          if jobs job then (.ok (), s.put row')
          else (.error (.db "record scan schedule run" .foreignKeyViolation), s)
        | _ => (.ok (), s.put row')
  | _, _ => (.error (.db "record scan schedule run" .valueRefused), s)

/-- `ON DELETE SET NULL` of a job. -/
def jobDeleted (job : UUID) : Schedules :=
  s.updateWhere (fun row => decide (row.cells .lastJobID = .uuid job))
    (ScheduleRow.assigned server [] [(.lastJobID, .value .null)])
    (ScheduleRow.id_assigned server _ _)

end Calls

end Cfscan.Scans
