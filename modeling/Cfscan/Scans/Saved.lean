import Cfscan.Lib.Connection
import Cfscan.Scans.Schedules
import Cfscan.Store.Trim

/-!
# What a row holds of a schedule

`Holds` says column by column what the statements leave of an input, and `read_of_holds` that any of
the lists of columns reads it back. A normalised input has its defaults already:
`normalizeSchedule_ok`.

`Valid` is what the checks of the service amount to, field by field, and `Fits` what the columns ask
beyond it: texts without a NUL, agents the server takes as JSON, and a count that is an `integer`.
An input the service accepts is saved exactly when it fits, and the two are kept apart because the
first is the API's and the second the table's.
-/

set_option autoImplicit false

namespace Cfscan.Scans

open Cfscan.Lib Cfscan.Store
open Cfscan.Schedule (Cron)

/-! ## Defaults are filled in once

What `ApplyDefaults` returns it leaves alone the second time, if it is accepted. It need not
leave alone what it is given: a packet loss of 0 becomes 50, and 50 stays. -/

theorem isSpace_digit (n : Nat) : isSpace (digit n) = false := by
  have hdigits : ∀ d < 10, isSpace (Char.ofNat (48 + d)) = false := by decide
  exact hdigits _ (Nat.mod_lt n (by decide))

theorem trimSpace_defaultName (now : Clock) :
    trimSpace ("Cloudflare scan " ++ now.format) = "Cloudflare scan " ++ now.format := by
  have htext : "Cloudflare scan " ++ now.format = String.ofList
      ('C' :: ("loudflare scan ".toList ++ twoDigits now.month ++ '-' :: twoDigits now.day ++ ' ' ::
        twoDigits now.hour ++ ':' :: [digit (now.minute / 10)]) ++ [digit now.minute]) := by
    apply String.toList_injective
    simp [Clock.format, twoDigits]
  rw [htext]
  exact trimSpace_eq_self (by decide) (isSpace_digit _)

theorem orDefault_ne {α : Type} [DecidableEq α] {zero value default : α} (h : default ≠ zero) :
    orDefault zero value default ≠ zero := by
  unfold orDefault
  split <;> assumption

/-- The defaults of an accepted request stay. -/
theorem applyDefaults_idem {input : CreateScanJobRequest} {now : Clock}
    (h : Valid (applyDefaults now input)) (later : Clock) :
    applyDefaults later (applyDefaults now input) = applyDefaults now input := by
  have hname : trimSpace (applyDefaults now input).name = (applyDefaults now input).name := by
    dsimp only [applyDefaults]
    unfold orDefault
    split
    · exact trimSpace_defaultName now
    · exact trimSpace_trimSpace _
  have hfilled : (applyDefaults now input).name ≠ "" := by
    dsimp only [applyDefaults]
    refine orDefault_ne fun hempty => ?_
    have hlen := congrArg String.length hempty
    simp at hlen
  have hcount : (applyDefaults now input).targetCount ≠ 0 := by
    dsimp only [applyDefaults]
    exact orDefault_ne (by decide)
  have hloss : (applyDefaults now input).maxPacketLoss ≠ 0 := by
    dsimp only [applyDefaults]
    exact orDefault_ne (by norm_num)
  rw [applyDefaults_of_valid h, hname, orDefault_of_ne hfilled, orDefault_of_ne hcount,
    orDefault_of_ne hloss]

theorem jobRequest_applyJobRequest {r : UpsertScanScheduleRequest} {job : CreateScanJobRequest}
    (hkind : job.kind = "") (hforce : job.forceLeague = false) :
    (r.applyJobRequest job).jobRequest = job := by
  unfold UpsertScanScheduleRequest.applyJobRequest UpsertScanScheduleRequest.jobRequest
  rw [← hkind, ← hforce]

/-- The job of a normalised input is accepted, and has its defaults. -/
theorem normalizeSchedule_ok {cron : Cron} {now : Clock} {instant nextRun : Timestamp}
    {raw input : UpsertScanScheduleRequest}
    (h : normalizeSchedule cron now instant raw = .ok (input, nextRun)) :
    Valid input.jobRequest ∧ ∀ later, applyDefaults later input.jobRequest = input.jobRequest := by
  unfold normalizeSchedule at h
  obtain ⟨⟨⟩, hvalid, h⟩ := bind_eq_ok h
  obtain ⟨due, -, h⟩ := bind_eq_ok h
  obtain ⟨rfl, -⟩ := Prod.mk.inj (Except.ok.inj h)
  rw [jobRequest_applyJobRequest rfl rfl]
  exact ⟨validate_iff.mp hvalid, applyDefaults_idem (validate_iff.mp hvalid)⟩

/-! ## What a row holds of an input

`Encodes` has one line for each column a request is written to, and `Holds` is all of them.
The statements are proved to leave it from their lists of columns and arguments. -/

/-- What a column holds of the request of an input. -/
def Encodes (server : ScheduleServer) (input : UpsertScanScheduleRequest) : Column → Value → Prop
  | .name, v => v = .text input.name
  | .agentIDs, v => ∃ text, v = .jsonb text ∧ text ≠ "" ∧ server.unmarshal text = some input.agentIDs
  | .samplingMode, v => v = .text input.samplingMode
  | .targetCount, v => v = .integer input.targetCount
  | .scheme, v => v = .text input.scheme
  | .hostname, v => v = .text input.hostname
  | .path, v => v = .text input.path
  | .port, v => v = .integer input.port
  | .attempts, v => v = .integer input.attempts
  | .timeoutMS, v => v = .integer input.timeoutMS
  | .maxLatencyMS, v => v = .double input.maxLatencyMS
  | .maxPacketLoss, v => v = .double input.maxPacketLoss
  | .blacklistMinutes, v => v = .integer input.blacklistMinutes
  | .includeIPv6, v => v = .boolean input.includeIPv6
  | .includeBlocked, v => v = .boolean input.includeBlocked
  | _, _ => True

/-- The columns that are not of the request. -/
def Column.free : Column → Bool
  | .id | .enabled | .cronExpression | .timezone | .nextRunAt | .lastRunAt | .lastJobID | .lastError
  | .createdAt | .updatedAt => true
  | _ => false

def Holds (server : ScheduleServer) (input : UpsertScanScheduleRequest) (cells : Column → Value) :
    Prop :=
  ∀ c, Encodes server input c (cells c)

section Hold

variable {server : ScheduleServer} {input : UpsertScanScheduleRequest} {cells cells' : Column → Value}
  {args : List Value} {sets : List (Column × Operand Value)}

theorem encodes_of_free {c : Column} (h : c.free = true) (v : Value) : Encodes server input c v := by
  cases c <;> trivial

/-- What a column makes of the value for it. -/
theorem stored_eq {c : Column} {v w : Value} (h : stored server c v = some w)
    (hjsonb : c.kind ≠ .jsonb) (huuid : c.kind ≠ .uuid) : w = v := by
  unfold stored at h
  split at h <;> simp_all

theorem mem_of_lookup {c : Column} {x : Operand Value} (h : sets.lookup c = some x) :
    (c, x) ∈ sets := by
  obtain ⟨before, after, rfl, -⟩ := List.lookup_eq_some_iff.mp h
  exact List.mem_append_right _ List.mem_cons_self

/-- The statement writes the value to the column. -/
theorem cell_of_assign (h : assign (stored server) args sets cells = some cells')
    (hnodup : (sets.map Prod.fst).Nodup) {c : Column} {x : Operand Value} {v : Value}
    (hx : sets.lookup c = some x) (hv : x.eval args = some v) (hjsonb : c.kind ≠ .jsonb)
    (huuid : c.kind ≠ .uuid) : cells' c = v := by
  have hcell := assign_of_mem h hnodup (mem_of_lookup hx)
  rw [hv] at hcell
  exact stored_eq hcell hjsonb huuid

theorem agents_of_assign (h : assign (stored server) args sets cells = some cells')
    (hnodup : (sets.map Prod.fst).Nodup) {x : Operand Value} {items : List String}
    (hx : sets.lookup .agentIDs = some x) (hv : x.eval args = some (.text (server.marshal items))) :
    ∃ text, cells' .agentIDs = .jsonb text ∧ text ≠ "" ∧ server.unmarshal text = some items := by
  have hcell := assign_of_mem h hnodup (mem_of_lookup hx)
  rw [hv] at hcell
  obtain ⟨text, htext, hjsonb⟩ := Option.map_eq_some_iff.mp (show
    (server.jsonb (server.marshal items)).map Value.jsonb = some _ from hcell)
  exact ⟨text, hjsonb.symm, server.lossless items text htext⟩

/-- A statement about other columns leaves what the row holds of the request. -/
theorem Holds.assign (h : Holds server input cells)
    (hassign : assign (stored server) args sets cells = some cells')
    (hfree : ∀ c ∈ sets.map Prod.fst, c.free = true) : Holds server input cells' := by
  intro c
  by_cases hc : c ∈ sets.map Prod.fst
  · exact encodes_of_free (hfree c hc) _
  · rw [assign_of_not_mem hassign hc]
    exact h c

theorem holds_insert {now nextRun : Timestamp}
    (h : assign (stored server) (insertArgs server input nextRun) (insertColumns.zip insertValues)
      (defaultCells now) = some cells) : Holds server input cells := by
  have hnodup : ((insertColumns.zip insertValues).map Prod.fst).Nodup := by decide
  intro c
  cases c
  case agentIDs => exact agents_of_assign h hnodup rfl rfl
  case id | enabled | cronExpression | timezone | nextRunAt | lastRunAt | lastJobID | lastError
      | createdAt | updatedAt => trivial
  all_goals exact cell_of_assign h hnodup rfl rfl (by decide) (by decide)

theorem holds_update {id : String} {now nextRun : Timestamp}
    (h : assign (stored server) (updateArgs server id input nextRun) (updateSets now) cells =
      some cells') : Holds server input cells' := by
  have hnodup : ((updateSets now).map Prod.fst).Nodup := by
    change (insertColumns ++ [Column.lastError, Column.updatedAt]).Nodup
    decide
  intro c
  cases c
  case agentIDs => exact agents_of_assign h hnodup rfl rfl
  case id | enabled | cronExpression | timezone | nextRunAt | lastRunAt | lastJobID | lastError
      | createdAt | updatedAt => trivial
  all_goals exact cell_of_assign h hnodup rfl rfl (by decide) (by decide)

/-! ## What the table takes of an input -/

/-- The texts of a schedule. -/
def UpsertScanScheduleRequest.texts (input : UpsertScanScheduleRequest) : List String :=
  [input.name, input.cronExpression, input.timezone, input.samplingMode, input.scheme,
    input.hostname, input.path]

/-- The server takes the values of a normalised input: no text has a NUL, the list of agents is
JSON, and the count fits its column. With one address for each prefix `Validate` does not look at
the count, so that any number comes this far. -/
structure Fits (server : ScheduleServer) (input : UpsertScanScheduleRequest) : Prop where
  texts : ∀ text ∈ input.texts, storable text = true
  agents : server.jsonb (server.marshal input.agentIDs) ≠ none
  count : int4 input.targetCount = true

/-- What `Validate` bounds is in range. -/
theorem int4_of_valid (h : Valid input.jobRequest) : int4 input.port = true ∧
    int4 input.attempts = true ∧ int4 input.timeoutMS = true ∧
    int4 input.blacklistMinutes = true := by
  have hport := h.port
  have hattempts := h.attempts
  have htimeout := h.timeout
  have hblacklist := h.blacklist
  simp only [UpsertScanScheduleRequest.jobRequest] at hport hattempts htimeout hblacklist
  simp only [int4, Bool.and_eq_true, decide_eq_true_eq]
  omega

theorem exists_text_iff {c : Column} (h : c.kind = .text) {text : String} :
    (∃ w, stored server c (.text text) = some w) ↔ storable text = true := by
  unfold stored
  rw [h]
  by_cases hstorable : storable text = true <;> simp [hstorable]

theorem exists_integer_iff {c : Column} (h : c.kind = .integer) {n : Int} :
    (∃ w, stored server c (.integer n) = some w) ↔ int4 n = true := by
  unfold stored
  rw [h]
  by_cases hint : int4 n = true <;> simp [hint]

theorem exists_jsonb_iff {text : String} :
    (∃ w, stored server .agentIDs (.text text) = some w) ↔ server.jsonb text ≠ none := by
  show (∃ w, (server.jsonb text).map Value.jsonb = some w) ↔ _
  cases server.jsonb text <;> simp

/-- The values of an input, each in its column. -/
theorem fits_iff_stored (h : Valid input.jobRequest) {nextRun : Timestamp} :
    Fits server input ↔ ∀ cell ∈ insertColumns.zip (insertArgs server input nextRun),
      ∃ w, stored server cell.1 cell.2 = some w := by
  obtain ⟨hport, hattempts, htimeout, hblacklist⟩ := int4_of_valid h
  have hboolean : ∀ {c : Column}, c.kind = .boolean → ∀ b,
      ∃ w, stored server c (.boolean b) = some w := by
    intro c hkind b
    exact ⟨_, by unfold stored; rw [hkind]⟩
  have hdouble : ∀ {c : Column}, c.kind = .double → ∀ x,
      ∃ w, stored server c (.double x) = some w := by
    intro c hkind x
    exact ⟨_, by unfold stored; rw [hkind]⟩
  have htime : ∀ {c : Column}, c.kind = .timestamptz → ∀ t,
      ∃ w, stored server c (.timestamptz t) = some w := by
    intro c hkind t
    exact ⟨_, by unfold stored; rw [hkind]⟩
  simp only [insertColumns, insertArgs, List.zip_cons_cons, List.zip_nil_right, List.forall_mem_cons,
    List.not_mem_nil, false_imp_iff, implies_true, and_true]
  constructor
  · rintro ⟨htexts, hagents, hcount⟩
    simp only [UpsertScanScheduleRequest.texts, List.forall_mem_cons] at htexts
    obtain ⟨hname, hcron, hzone, hmode, hscheme, hhost, hpath, -⟩ := htexts
    exact ⟨(exists_text_iff rfl).mpr hname, hboolean rfl _, (exists_text_iff rfl).mpr hcron,
      (exists_text_iff rfl).mpr hzone, exists_jsonb_iff.mpr hagents, (exists_text_iff rfl).mpr hmode,
      (exists_integer_iff rfl).mpr hcount, (exists_text_iff rfl).mpr hscheme,
      (exists_text_iff rfl).mpr hhost, (exists_text_iff rfl).mpr hpath,
      (exists_integer_iff rfl).mpr hport, (exists_integer_iff rfl).mpr hattempts,
      (exists_integer_iff rfl).mpr htimeout, hdouble rfl _, hdouble rfl _,
      (exists_integer_iff rfl).mpr hblacklist, hboolean rfl _, hboolean rfl _, htime rfl _⟩
  · rintro ⟨hname, -, hcron, hzone, hagents, hmode, hcount, hscheme, hhost, hpath, -⟩
    refine ⟨?_, exists_jsonb_iff.mp hagents, (exists_integer_iff rfl).mp hcount⟩
    simp only [UpsertScanScheduleRequest.texts, List.forall_mem_cons, List.not_mem_nil,
      false_imp_iff, implies_true, and_true]
    exact ⟨(exists_text_iff rfl).mp hname, (exists_text_iff rfl).mp hcron,
      (exists_text_iff rfl).mp hzone, (exists_text_iff rfl).mp hmode,
      (exists_text_iff rfl).mp hscheme, (exists_text_iff rfl).mp hhost,
      (exists_text_iff rfl).mp hpath⟩

/-- A creation is refused for the values of its input. -/
theorem exists_insert_iff (h : Valid input.jobRequest) {now nextRun : Timestamp} :
    (∃ cells, assign (stored server) (insertArgs server input nextRun)
      (insertColumns.zip insertValues) (defaultCells now) = some cells) ↔ Fits server input := by
  rw [fits_iff_stored h]
  exact exists_assign_iff_cells rfl

/-- And an update likewise: it writes two values more, and no column refuses them. -/
theorem exists_update_iff (h : Valid input.jobRequest) {id : String} {now nextRun : Timestamp}
    {row : ScheduleRow} :
    (∃ row', row.set server (updateArgs server id input nextRun) (updateSets now) = some row') ↔
      Fits server input := by
  have hcells : (∃ cells, assign (stored server) (updateArgs server id input nextRun)
      (updateSets now) row.cells = some cells) ↔
        ∀ cell ∈ insertColumns.zip (insertArgs server input nextRun) ++
          [(.lastError, .text ""), (.updatedAt, .timestamptz now)],
            ∃ w, stored server cell.1 cell.2 = some w := exists_assign_iff_cells rfl
  have hset : (∃ cells, assign (stored server) (updateArgs server id input nextRun)
      (updateSets now) row.cells = some cells) ↔ _ := exists_assign_iff
  rw [exists_set_iff, ← hset, hcells, fits_iff_stored h]
  refine ⟨fun hall cell hcell => hall cell (List.mem_append_left _ hcell), fun hall => ?_⟩
  rw [List.forall_mem_append]
  refine ⟨hall, ?_⟩
  simp only [List.forall_mem_cons, List.not_mem_nil, false_imp_iff, implies_true, and_true]
  exact ⟨(exists_text_iff rfl).mpr (by decide), ⟨_, rfl⟩⟩

/-- A row that is inserted has all its columns: those without a default are among the named ones. -/
theorem typed_insert {now nextRun : Timestamp}
    (h : assign (stored server) (insertArgs server input nextRun) (insertColumns.zip insertValues)
      (defaultCells now) = some cells) (c : Column) : (cells c).typed c = true := by
  have hnodup : ((insertColumns.zip insertValues).map Prod.fst).Nodup := by decide
  by_cases hc : c ∈ (insertColumns.zip insertValues).map Prod.fst
  · obtain ⟨set, hset, rfl⟩ := List.mem_map.mp hc
    obtain ⟨v, -, hv⟩ := Option.bind_eq_some_iff.mp (assign_of_mem h hnodup hset)
    exact typed_stored hv
  · rw [assign_of_not_mem h hc]
    cases c
    -- the three columns without a default are named
    case name | cronExpression | nextRunAt => exact absurd (by decide) hc
    all_goals rfl

/-! ## What is read of a row -/

theorem exists_boolean {c : Column} {v : Value} (h : v.typed c = true) (hkind : c.kind = .boolean)
    (hnull : c.nullable = false) : ∃ b, v = .boolean b := by
  cases v <;> simp_all [Value.typed]

theorem exists_text {c : Column} {v : Value} (h : v.typed c = true) (hkind : c.kind = .text)
    (hnull : c.nullable = false) : ∃ text, v = .text text := by
  cases v <;> simp_all [Value.typed]

theorem exists_timestamptz {c : Column} {v : Value} (h : v.typed c = true)
    (hkind : c.kind = .timestamptz) (hnull : c.nullable = false) : ∃ t, v = .timestamptz t := by
  cases v <;> simp_all [Value.typed]

theorem exists_timestamp {v : Value} (h : v.typed .lastRunAt = true) :
    ∃ t, v.timestamp? = some t := by
  cases v <;> simp_all [Value.typed, Column.kind, Value.timestamp?]

theorem exists_jobText (server : ScheduleServer) (row : ScheduleRow) :
    ∃ t, (row.read server (.text .lastJobID)).text? = some t := by
  have htyped := row.typed .lastJobID
  unfold ScheduleRow.read ScheduleRow.cell
  cases hcell : row.cells .lastJobID <;> simp_all [Value.typed, Column.kind, Value.text?]

/-- A row that holds the request of an input is read as a schedule with that request. -/
theorem read_of_holds {row : ScheduleRow} (h : Holds server input row.cells) :
    ∃ item, scanScheduleRow server (scanScheduleSelect.map (row.read server)) = some item ∧
      item.jobRequest = input.jobRequest ∧ item.id = server.uuidText row.id := by
  obtain ⟨text, hagents, hfilled, hdecode⟩ := h .agentIDs
  obtain ⟨enabled, henabled⟩ := exists_boolean (row.typed .enabled) rfl rfl
  obtain ⟨cron, hcron⟩ := exists_text (row.typed .cronExpression) rfl rfl
  obtain ⟨timezone, htimezone⟩ := exists_text (row.typed .timezone) rfl rfl
  obtain ⟨lastError, hlastError⟩ := exists_text (row.typed .lastError) rfl rfl
  obtain ⟨nextRunAt, hnextRunAt⟩ := exists_timestamptz (row.typed .nextRunAt) rfl rfl
  obtain ⟨createdAt, hcreatedAt⟩ := exists_timestamptz (row.typed .createdAt) rfl rfl
  obtain ⟨updatedAt, hupdatedAt⟩ := exists_timestamptz (row.typed .updatedAt) rfl rfl
  obtain ⟨lastRunAt, hlastRunAt⟩ := exists_timestamp (row.typed .lastRunAt)
  obtain ⟨lastJobID, hlastJobID⟩ := exists_jobText server row
  have hname : row.cells .name = _ := h .name
  have hmode : row.cells .samplingMode = _ := h .samplingMode
  have hcount : row.cells .targetCount = _ := h .targetCount
  have hscheme : row.cells .scheme = _ := h .scheme
  have hhostname : row.cells .hostname = _ := h .hostname
  have hpath : row.cells .path = _ := h .path
  have hport : row.cells .port = _ := h .port
  have hattempts : row.cells .attempts = _ := h .attempts
  have htimeout : row.cells .timeoutMS = _ := h .timeoutMS
  have hlatency : row.cells .maxLatencyMS = _ := h .maxLatencyMS
  have hloss : row.cells .maxPacketLoss = _ := h .maxPacketLoss
  have hblacklist : row.cells .blacklistMinutes = _ := h .blacklistMinutes
  have hipv6 : row.cells .includeIPv6 = _ := h .includeIPv6
  have hblocked : row.cells .includeBlocked = _ := h .includeBlocked
  have hdecoded : decodeAgents server text = some input.agentIDs := by
    rw [decodeAgents, if_neg hfilled, hdecode]
  -- The columns in the order of the list, each as the scan takes it in.
  have hvalues : scanScheduleSelect.map (row.read server) =
      [.text (server.uuidText row.id), .text input.name, .boolean enabled, .text cron,
        .text timezone, .jsonb text, .text input.samplingMode, .integer input.targetCount,
        .text input.scheme, .text input.hostname, .text input.path, .integer input.port,
        .integer input.attempts, .integer input.timeoutMS, .double input.maxLatencyMS,
        .double input.maxPacketLoss, .integer input.blacklistMinutes, .boolean input.includeIPv6,
        .boolean input.includeBlocked, .timestamptz nextRunAt, row.cells .lastRunAt,
        row.read server (.text .lastJobID), .text lastError, .timestamptz createdAt,
        .timestamptz updatedAt] := by
    rw [← hname, ← henabled, ← hcron, ← htimezone, ← hagents, ← hmode, ← hcount, ← hscheme,
      ← hhostname, ← hpath, ← hport, ← hattempts, ← htimeout, ← hlatency, ← hloss, ← hblacklist,
      ← hipv6, ← hblocked, ← hnextRunAt, ← hlastError, ← hcreatedAt, ← hupdatedAt]
    rfl
  rw [hvalues]
  refine ⟨⟨⟨input.name, enabled, cron, timezone, input.agentIDs, input.samplingMode,
    input.targetCount, input.scheme, input.hostname, input.path, input.port, input.attempts,
    input.timeoutMS, input.maxLatencyMS, input.maxPacketLoss, input.blacklistMinutes,
    input.includeIPv6, input.includeBlocked⟩, server.uuidText row.id, nextRunAt, lastRunAt, lastJobID,
    lastError, createdAt, updatedAt⟩, ?_, rfl, rfl⟩
  simp only [scanScheduleRow, hlastRunAt, hlastJobID, hdecoded]
  rfl

end Hold

end Cfscan.Scans
