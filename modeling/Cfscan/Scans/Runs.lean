import Cfscan.Scans.Saved

/-!
# A schedule runs as it was saved

What is read of a schedule is what was written, whichever of the four lists of columns it is read
by and whatever claims and records came between; and the service fills in nothing any more, since the
defaults were filled in before it was saved (`runs_as_saved`).

**What `normalizeSchedule` accepts and what the table takes are two things.** The checks bound the
numbers of a request, but for the count where it is not looked at, and they look for no NUL. A
schedule with such a value is answered with an error of the database and nothing is saved, so that
`SavedAs` says first when a call succeeds: `succeeds` is an `iff`, and everything else is about the
calls that do.

What this file does not say is when a schedule runs. That is `Cfscan.Schedule`, where a schedule is
the columns a claim and a record read, and `Cfscan.Scans.Refines` connects the two.
-/

set_option autoImplicit false

namespace Cfscan.Scans

open Cfscan.Lib Cfscan.Store
open Cfscan.Schedule (Cron)

/-! ## Runs of the store

What claims and records leave of a schedule is the request part of its row, whichever they
are and however many (`Saved`). Edits of the schedule itself are excluded from the run, as
they save something else. -/

inductive ScheduleOp where
  | create (id : UUID) (input : UpsertScanScheduleRequest) (nextRun : Timestamp)
  | update (id : String) (input : UpsertScanScheduleRequest) (nextRun : Timestamp)
  | delete (id : String)
  | claim (now : Timestamp) (active locked : UUID → Bool) (tie : UUID → Nat)
    (leaseUntil : Timestamp) (limit : Int)
  | record (jobs : UUID → Bool) (id : String) (nextRun : Option Timestamp) (jobID : Option String)
    (runErr : Option String)
  | jobDeleted (job : UUID)

/-- What a call leaves of the table, at the instant it takes effect. -/
def ScheduleOp.run (server : ScheduleServer) (s : Schedules) (instant : Timestamp) :
    ScheduleOp → Schedules
  | .create id input nextRun => (createScanSchedule server s instant id input nextRun).2
  | .update id input nextRun => (updateScanSchedule server s instant id input nextRun).2
  | .delete id => (deleteScanSchedule server s id).2
  | .claim now active locked tie leaseUntil limit =>
    (claimDueScanSchedules server s now active locked tie instant leaseUntil limit).2
  | .record jobs id nextRun jobID runErr =>
    (recordScanScheduleRun server s instant jobs id nextRun jobID runErr).2
  | .jobDeleted job => Scans.jobDeleted server s job

/-- The call updates or deletes the schedule. -/
def ScheduleOp.Edits (server : ScheduleServer) (id : UUID) : ScheduleOp → Prop
  | .update text _ _ | .delete text => server.uuid text = some id
  | _ => False

def runAll (server : ScheduleServer) (s : Schedules) (ops : List (Timestamp × ScheduleOp)) :
    Schedules :=
  ops.foldl (fun s op => op.2.run server s op.1) s

/-- The schedule is there, with the request of the input. -/
def Saved (server : ScheduleServer) (id : UUID) (input : UpsertScanScheduleRequest) (s : Schedules) :
    Prop :=
  ∃ row, s.find? id = some row ∧ Holds server input row.cells

section Run

variable {server : ScheduleServer} {id : UUID} {input : UpsertScanScheduleRequest} {s : Schedules}

theorem holds_set {row row' : ScheduleRow} {args : List Value} {sets : List (Column × Operand Value)}
    (h : Holds server input row.cells) (hset : row.set server args sets = some row')
    (hfree : ∀ c ∈ sets.map Prod.fst, c.free = true) : Holds server input row'.cells :=
  h.assign (assign_of_set hset).1 hfree

theorem holds_updated {row row' : ScheduleRow} {text : String} {now nextRun : Timestamp}
    (hset : row.set server (updateArgs server text input nextRun) (updateSets now) = some row') :
    Holds server input row'.cells :=
  holds_update (assign_of_set hset).1

theorem holds_assigned {row : ScheduleRow} {args : List Value}
    {sets : List (Column × Operand Value)} (h : Holds server input row.cells)
    (hfree : ∀ c ∈ sets.map Prod.fst, c.free = true) :
    Holds server input (row.assigned server args sets).cells := by
  unfold ScheduleRow.assigned
  cases hset : row.set server args sets with
  | none => exact h
  | some row' => exact holds_set h hset hfree

/-- A statement that touches free columns only, whatever rows it reaches. -/
theorem Saved.updateWhere (h : Saved server id input s) (p : ScheduleRow → Bool) {args : List Value}
    {sets : List (Column × Operand Value)} (hfree : ∀ c ∈ sets.map Prod.fst, c.free = true) :
    Saved server id input (s.updateWhere p (ScheduleRow.assigned server args sets)
      (ScheduleRow.id_assigned server args sets)) := by
  obtain ⟨row, hrow, hholds⟩ := h
  refine ⟨if p row then row.assigned server args sets else row, ?_, ?_⟩
  · rw [Table.find?_updateWhere, hrow]
    rfl
  · split
    · exact holds_assigned hholds hfree
    · exact hholds

theorem Saved.put (h : Saved server id input s) {row : ScheduleRow}
    (hrow : row.id = id → Holds server input row.cells) : Saved server id input (s.put row) := by
  obtain ⟨old, hold, hholds⟩ := h
  by_cases hid : row.id = id
  · exact ⟨row, by rw [Table.find?_put, if_pos hid], hrow hid⟩
  · exact ⟨old, by rw [Table.find?_put, if_neg hid, hold], hholds⟩

theorem free_recordSets (now : Timestamp) (nextRun : Option Timestamp) (row : ScheduleRow) :
    ∀ c ∈ (recordSets now nextRun row).map Prod.fst, c.free = true := by
  change ∀ c ∈ [Column.nextRunAt, .lastRunAt, .lastJobID, .lastError, .updatedAt], c.free = true
  decide

theorem free_claimSets {instant : Timestamp} :
    ∀ c ∈ [((.nextRunAt, .param 3) : Column × Operand Value),
      (.updatedAt, .value (.timestamptz instant))].map Prod.fst, c.free = true := by
  change ∀ c ∈ [Column.nextRunAt, .updatedAt], c.free = true
  decide

theorem free_jobDeletedSets :
    ∀ c ∈ [((.lastJobID, .value .null) : Column × Operand Value)].map Prod.fst, c.free = true := by
  change ∀ c ∈ [Column.lastJobID], c.free = true
  decide

/-- A row that is taken from the table and put back with other free columns. -/
theorem Saved.set (h : Saved server id input s) {key : UUID} {row row' : ScheduleRow}
    (hrow : s.find? key = some row) {args : List Value} {sets : List (Column × Operand Value)}
    (hset : row.set server args sets = some row') (hfree : ∀ c ∈ sets.map Prod.fst, c.free = true) :
    Saved server id input (s.put row') := by
  -- the row of a creation has an id that was free, so it is another one
  refine h.put fun hid => ?_
  obtain ⟨old, hold, hholds⟩ := h
  have hkey : key = id := by
    rw [← Table.key_of_find? hrow, ← hid, ScheduleRow.id_set hset]
  rw [hkey, hold] at hrow
  cases hrow
  exact holds_set hholds hset hfree

/-- A schedule is added, or nothing is. -/
theorem createScanSchedule_cases (server : ScheduleServer) (s : Schedules) (now : Timestamp)
    (id : UUID) (input : UpsertScanScheduleRequest) (nextRun : Timestamp) :
    (∃ error, createScanSchedule server s now id input nextRun = (.error error, s)) ∨
      ∃ row : ScheduleRow, row.id = id ∧ s.find? id = none ∧
        assign (stored server) (insertArgs server input nextRun) (insertColumns.zip insertValues)
          (defaultCells now) = some row.cells ∧
        createScanSchedule server s now id input nextRun =
          (returned server "create scan schedule" insertReturning row, s.put row) := by
  unfold createScanSchedule
  cases hassign : assign (stored server) (insertArgs server input nextRun)
      (insertColumns.zip insertValues) (defaultCells now) with
  | none => exact .inl ⟨_, rfl⟩
  | some cells =>
    dsimp only
    by_cases htyped : ∀ c, (cells c).typed c = true
    · rw [dif_pos htyped]
      by_cases hnone : s.find? id = none
      · rw [if_neg (not_not_intro hnone)]
        exact .inr ⟨⟨id, cells, htyped⟩, rfl, hnone, rfl, rfl⟩
      · rw [if_pos hnone]
        exact .inl ⟨_, rfl⟩
    · rw [dif_neg htyped]
      exact .inl ⟨_, rfl⟩

theorem updateScanSchedule_cases (server : ScheduleServer) (s : Schedules) (now : Timestamp)
    (id : String) (input : UpsertScanScheduleRequest) (nextRun : Timestamp) :
    (∃ error, updateScanSchedule server s now id input nextRun = (.error error, s)) ∨
      ∃ key row row', server.uuid id = some key ∧ s.find? key = some row ∧
        row.set server (updateArgs server id input nextRun) (updateSets now) = some row' ∧
        updateScanSchedule server s now id input nextRun =
          (returned server "update scan schedule" updateReturning row', s.put row') := by
  unfold updateScanSchedule
  cases hkey : server.uuid id with
  | none => exact .inl ⟨_, rfl⟩
  | some key =>
    cases hrow : s.find? key with
    | none =>
      simp only [hrow]
      exact .inl ⟨_, rfl⟩
    | some row =>
      cases hset : row.set server (updateArgs server id input nextRun) (updateSets now) with
      | none =>
        simp only [hrow, hset]
        exact .inl ⟨_, rfl⟩
      | some row' => exact .inr ⟨key, row, row', rfl, hrow, hset, by simp only [hrow, hset]⟩

theorem deleteScanSchedule_cases (server : ScheduleServer) (s : Schedules) (id : String) :
    (deleteScanSchedule server s id).2 = s ∨
      ∃ key, server.uuid id = some key ∧ (deleteScanSchedule server s id).2 = s.erase key := by
  unfold deleteScanSchedule
  cases hkey : server.uuid id with
  | none => exact .inl rfl
  | some key =>
    dsimp only
    by_cases hnone : s.find? key = none
    · rw [if_pos hnone]
      exact .inl rfl
    · rw [if_neg hnone]
      exact .inr ⟨key, rfl, rfl⟩

theorem recordScanScheduleRun_cases (server : ScheduleServer) (s : Schedules) (now : Timestamp)
    (jobs : UUID → Bool) (id : String) (nextRun : Option Timestamp) (jobID : Option String)
    (runErr : Option String) :
    (recordScanScheduleRun server s now jobs id nextRun jobID runErr).2 = s ∨
      ∃ key lastError row row', server.uuid id = some key ∧
        Schedule.lastErrorText runErr = some lastError ∧ s.find? key = some row ∧
        row.set server (recordArgs id nextRun jobID lastError) (recordSets now nextRun row) =
          some row' ∧
        (recordScanScheduleRun server s now jobs id nextRun jobID runErr).2 = s.put row' := by
  unfold recordScanScheduleRun
  cases hkey : server.uuid id with
  | none => exact .inl rfl
  | some key =>
    cases hlastError : Schedule.lastErrorText runErr with
    | none => exact .inl rfl
    | some lastError =>
      cases hrow : s.find? key with
      | none => exact .inl (by simp only [hrow])
      | some row =>
        cases hset : row.set server (recordArgs id nextRun jobID lastError)
            (recordSets now nextRun row) with
        | none => exact .inl (by simp only [hrow, hset])
        | some row' =>
          simp only [hrow, hset]
          -- a job that is named has to exist: the foreign key of `last_job_id`
          split
          · split
            · exact .inr ⟨key, lastError, row, row', rfl, rfl, hrow, hset, rfl⟩
            · exact .inl rfl
          · exact .inr ⟨key, lastError, row, row', rfl, rfl, hrow, hset, rfl⟩

/-- Only an edit changes the request of a schedule. -/
theorem Saved.run (h : Saved server id input s) (instant : Timestamp) {op : ScheduleOp}
    (hop : ¬ op.Edits server id) : Saved server id input (op.run server s instant) := by
  cases op with
  | create id' input' nextRun =>
    change Saved server id input (createScanSchedule server s instant id' input' nextRun).2
    rcases createScanSchedule_cases server s instant id' input' nextRun with
      ⟨error, heq⟩ | ⟨row, hid', hnone, -, heq⟩
    · rw [heq]
      exact h
    · rw [heq]
      obtain ⟨old, hold, -⟩ := show ∃ _, _ ∧ _ from h
      refine h.put fun hid => ?_
      rw [← hid', hid, hold] at hnone
      cases hnone
  | update text input' nextRun =>
    change Saved server id input (updateScanSchedule server s instant text input' nextRun).2
    rcases updateScanSchedule_cases server s instant text input' nextRun with
      ⟨error, heq⟩ | ⟨key, row, row', hkey, hrow, hset, heq⟩
    · rw [heq]
      exact h
    · rw [heq]
      -- an update of this row would be an edit
      refine h.put fun hid => absurd ?_ hop
      rw [← hid, ScheduleRow.id_set hset, Table.key_of_find? hrow]
      exact hkey
  | delete text =>
    change Saved server id input (deleteScanSchedule server s text).2
    rcases deleteScanSchedule_cases server s text with heq | ⟨key, hkey, heq⟩
    · rw [heq]
      exact h
    · rw [heq]
      obtain ⟨row, hrow, hholds⟩ := h
      have hne : ¬ key = id := fun hkeyid => hop (hkeyid ▸ hkey)
      exact ⟨row, by rw [Table.find?_erase, if_neg hne, hrow], hholds⟩
  | claim now active locked tie leaseUntil limit =>
    exact h.updateWhere _ free_claimSets
  | record jobs text nextRun jobID runErr =>
    change Saved server id input
      (recordScanScheduleRun server s instant jobs text nextRun jobID runErr).2
    rcases recordScanScheduleRun_cases server s instant jobs text nextRun jobID runErr with
      heq | ⟨key, lastError, row, row', -, -, hrow, hset, heq⟩
    · rw [heq]
      exact h
    · rw [heq]
      exact h.set hrow hset (free_recordSets _ _ _)
  | jobDeleted job =>
    exact h.updateWhere _ free_jobDeletedSets

theorem Saved.runAll (h : Saved server id input s) {ops : List (Timestamp × ScheduleOp)}
    (hops : ∀ op ∈ ops, ¬ op.2.Edits server id) : Saved server id input (runAll server s ops) := by
  unfold Scans.runAll
  induction ops generalizing s with
  | nil => exact h
  | cons op ops ih =>
    rw [List.forall_mem_cons] at hops
    exact ih (h.run op.1 hops.1) hops.2

/-- Every row holds the request of some input. -/
def Stored (server : ScheduleServer) (s : Schedules) : Prop :=
  ∀ row ∈ s.rows, ∃ input, Holds server input row.cells

theorem Stored.put (h : Stored server s) {row : ScheduleRow}
    (hrow : ∃ input, Holds server input row.cells) : Stored server (s.put row) := by
  intro r hr
  rcases Table.mem_put.mp hr with rfl | ⟨hr, -⟩
  · exact hrow
  · exact h r hr

theorem Stored.updateWhere (h : Stored server s) (p : ScheduleRow → Bool) {args : List Value}
    {sets : List (Column × Operand Value)} (hfree : ∀ c ∈ sets.map Prod.fst, c.free = true) :
    Stored server (s.updateWhere p (ScheduleRow.assigned server args sets)
      (ScheduleRow.id_assigned server args sets)) := by
  intro r hr
  obtain ⟨row, hrow, rfl⟩ := Table.mem_updateWhere.mp hr
  obtain ⟨input, hholds⟩ := h row hrow
  refine ⟨input, ?_⟩
  split
  · exact holds_assigned hholds hfree
  · exact hholds

theorem Stored.run (h : Stored server s) (instant : Timestamp) (op : ScheduleOp) :
    Stored server (op.run server s instant) := by
  cases op with
  | create id input nextRun =>
    change Stored server (createScanSchedule server s instant id input nextRun).2
    rcases createScanSchedule_cases server s instant id input nextRun with
      ⟨error, heq⟩ | ⟨row, -, -, hassign, heq⟩
    · rw [heq]
      exact h
    · rw [heq]
      exact h.put ⟨input, holds_insert hassign⟩
  | update text input nextRun =>
    change Stored server (updateScanSchedule server s instant text input nextRun).2
    rcases updateScanSchedule_cases server s instant text input nextRun with
      ⟨error, heq⟩ | ⟨key, row, row', -, -, hset, heq⟩
    · rw [heq]
      exact h
    · rw [heq]
      exact h.put ⟨input, holds_updated hset⟩
  | delete text =>
    change Stored server (deleteScanSchedule server s text).2
    rcases deleteScanSchedule_cases server s text with heq | ⟨key, -, heq⟩
    · rw [heq]
      exact h
    · rw [heq]
      exact fun row hrow => h row (Table.mem_erase.mp hrow).1
  | claim now active locked tie leaseUntil limit =>
    -- a claim sets only the columns the input has no word in
    exact h.updateWhere _ free_claimSets
  | record jobs text nextRun jobID runErr =>
    change Stored server (recordScanScheduleRun server s instant jobs text nextRun jobID runErr).2
    rcases recordScanScheduleRun_cases server s instant jobs text nextRun jobID runErr with
      heq | ⟨key, lastError, row, row', -, -, hrow, hset, heq⟩
    · rw [heq]
      exact h
    · rw [heq]
      obtain ⟨input, hholds⟩ := h row (Table.mem_of_find? hrow)
      exact h.put ⟨input, holds_set hholds hset (free_recordSets _ _ _)⟩
  | jobDeleted job =>
    exact h.updateWhere _ free_jobDeletedSets

theorem Stored.runAll (h : Stored server s) (ops : List (Timestamp × ScheduleOp)) :
    Stored server (runAll server s ops) := by
  unfold Scans.runAll
  induction ops generalizing s with
  | nil => exact h
  | cons op ops ih => exact ih (h.run op.1 op.2)

end Run

/-! ## What is read

The readings, one by one: `get`, the list, and what a claim returns. Each selects the
columns in a list of its own, and the lists are the same one. -/

/-- The item is what the row is read as. -/
def Shows (server : ScheduleServer) (row : ScheduleRow) (item : ScanSchedule) : Prop :=
  item.id = server.uuidText row.id ∧
    ∀ input, Holds server input row.cells → item.jobRequest = input.jobRequest

/-- `SELECT` and the three `RETURNING` name the same columns, in the same order. -/
theorem returning_eq : insertReturning = scanScheduleSelect ∧ updateReturning = scanScheduleSelect ∧
    claimReturning = scanScheduleSelect :=
  ⟨rfl, rfl, rfl⟩

section Read

variable {server : ScheduleServer} {id : UUID} {input : UpsertScanScheduleRequest} {s : Schedules}

theorem returned_of_holds {row : ScheduleRow} (h : Holds server input row.cells) (context : String) :
    ∃ item, returned server context scanScheduleSelect row = .ok item ∧ Shows server row item := by
  obtain ⟨item, hitem, -, hid⟩ := read_of_holds h
  refine ⟨item, by rw [returned, hitem], hid, fun input' h' => ?_⟩
  obtain ⟨item', hitem', hrequest, -⟩ := read_of_holds h'
  rw [hitem] at hitem'
  cases hitem'
  exact hrequest

theorem readAll_of_holds {rows : List ScheduleRow}
    (h : ∀ row ∈ rows, ∃ input, Holds server input row.cells) :
    ∃ items, readAll server scanScheduleSelect rows = .ok items ∧
      List.Forall₂ (Shows server) rows items := by
  induction rows with
  | nil => exact ⟨[], rfl, .nil⟩
  | cons row rows ih =>
    rw [List.forall_mem_cons] at h
    obtain ⟨⟨input, hholds⟩, hrest⟩ := h
    obtain ⟨item, hitem, hshows⟩ := returned_of_holds hholds ""
    obtain ⟨items, hitems, hall⟩ := ih hrest
    refine ⟨item :: items, ?_, .cons hshows hall⟩
    unfold readAll at hitems ⊢
    rw [List.mapM_cons, hitem, hitems]
    rfl

/-- The items of a query: the schedule is among them when its row is, with its request. -/
def Lists (server : ScheduleServer) (id : UUID) (request : CreateScanJobRequest)
    (there : Prop) (result : Except StoreError (List ScanSchedule)) : Prop :=
  ∃ items, result = .ok items ∧ ((∃ item ∈ items, item.id = server.uuidText id) ↔ there) ∧
    ∀ item ∈ items, item.id = server.uuidText id → item.jobRequest = request

theorem uuidText_inj {id id' : UUID} : server.uuidText id = server.uuidText id' ↔ id = id' := by
  refine ⟨fun h => Option.some.inj ?_, fun h => h ▸ rfl⟩
  rw [← server.uuid_text id, h, server.uuid_text]

theorem lists_of_holds {rows : List ScheduleRow} {there : Prop}
    (h : ∀ row ∈ rows, ∃ input, Holds server input row.cells)
    (hid : ∀ row ∈ rows, row.id = id → Holds server input row.cells)
    (hthere : id ∈ rows.map ScheduleRow.id ↔ there) :
    Lists server id input.jobRequest there (readAll server scanScheduleSelect rows) := by
  obtain ⟨items, hitems, hall⟩ := readAll_of_holds h
  refine ⟨items, hitems, ⟨?_, ?_⟩, ?_⟩
  · rintro ⟨item, hmem, hitem⟩
    obtain ⟨row, hrow, hshows⟩ := exists_of_forall₂ hall hmem
    rw [hshows.1, uuidText_inj] at hitem
    exact hthere.mp (List.mem_map.mpr ⟨row, hrow, hitem⟩)
  · intro hrows
    obtain ⟨row, hrow, rfl⟩ := List.mem_map.mp (hthere.mpr hrows)
    obtain ⟨item, hitem, hshows⟩ := exists_of_forall₂ hall.flip hrow
    exact ⟨item, hitem, hshows.1⟩
  · intro item hmem hitem
    obtain ⟨row, hrow, hshows⟩ := exists_of_forall₂ hall hmem
    rw [hshows.1, uuidText_inj] at hitem
    exact hshows.2 input (hid row hrow hitem)

/-- However the schedule is read, it has the request. -/
structure ReadAs (server : ScheduleServer) (id : UUID) (request : CreateScanJobRequest)
    (s : Schedules) : Prop where
  get : ∀ text, server.uuid text = some id →
    ∃ item, getScanSchedule server s text = .ok item ∧ item.jobRequest = request
  list : ∀ tie, Lists server id request True (listScanSchedules server s tie)
  claim : ∀ now active locked tie instant leaseUntil limit,
    Lists server id request (id ∈ (pickedSchedules s now active locked tie limit).map ScheduleRow.id)
      (claimDueScanSchedules server s now active locked tie instant leaseUntil limit).1

theorem readAs_of_saved (h : Saved server id input s) (hall : Stored server s) :
    ReadAs server id input.jobRequest s := by
  obtain ⟨row, hrow, hholds⟩ := h
  have honly : ∀ r ∈ s.rows, r.id = id → Holds server input r.cells := by
    intro r hr hid
    have hfind := Table.find?_key hr
    rw [hid, hrow] at hfind
    cases hfind
    exact hholds
  constructor
  · intro text htext
    obtain ⟨item, hitem, -, hshows⟩ := returned_of_holds hholds "get scan schedule"
    refine ⟨item, ?_, hshows input hholds⟩
    unfold getScanSchedule
    simp only [htext, hrow]
    exact hitem
  · intro tie
    unfold listScanSchedules
    refine lists_of_holds ?_ ?_ (iff_true_intro (List.mem_map.mpr ⟨row, ?_, ?_⟩))
    · intro r hr
      exact hall r ((List.mem_insertionSort _).mp hr)
    · intro r hr
      exact honly r ((List.mem_insertionSort _).mp hr)
    · exact (List.mem_insertionSort _).mpr (Table.mem_of_find? hrow)
    · exact Table.key_of_find? hrow
  · intro now active locked tie instant leaseUntil limit
    -- a claim returns the rows as its own update leaves them
    have hpicked : ∀ r ∈ pickedSchedules s now active locked tie limit, r ∈ s.rows := by
      intro r hr
      exact List.mem_of_mem_filter ((List.mem_insertionSort _).mp (List.mem_of_mem_take hr))
    unfold claimDueScanSchedules
    refine lists_of_holds ?_ ?_ ?_
    · intro r hr
      obtain ⟨old, hold, rfl⟩ := List.mem_map.mp hr
      obtain ⟨input', hholds'⟩ := hall old (hpicked old hold)
      exact ⟨input', holds_assigned hholds' free_claimSets⟩
    · intro r hr hid
      obtain ⟨old, hold, rfl⟩ := List.mem_map.mp hr
      rw [ScheduleRow.id_assigned] at hid
      exact holds_assigned (honly old (hpicked old hold) hid) free_claimSets
    · rw [List.map_map, Function.comp_def]
      simp only [ScheduleRow.id_assigned]

end Read

/-! ## The service

`scans.Create` on a request that was normalised before it was saved: the defaults find
nothing to fill in, the checks pass, and what is handed to the store has the values saved. -/

/-- The service accepts the request, fills nothing in, and chooses its targets and hands it to the
store as it is. -/
structure RunAs {σ : Type} (env : Environment σ) (request : CreateScanJobRequest) : Prop where
  accepted : validate request = .ok ()
  kept : ∀ later, applyDefaults later request = request
  created : ∀ later stamp kind, create env later stamp request kind =
    createAccepted env stamp { request with kind := orDefault "" kind "normal" }
  handed : ∀ later stamp kind s job s',
    (create env later stamp request kind).run.run s = (.ok job, s') → ∃ agentTargets s₁,
      (env.createScanJob { request with kind := orDefault "" kind "normal" } agentTargets).run.run s₁
        = (.ok job, s')

theorem runAs_of_normalized {σ : Type} (env : Environment σ) {cron : Cron} {now : Clock}
    {instant nextRun : Timestamp} {raw input : UpsertScanScheduleRequest}
    (h : normalizeSchedule cron now instant raw = .ok (input, nextRun)) :
    RunAs env input.jobRequest := by
  obtain ⟨hvalid, hkept⟩ := normalizeSchedule_ok h
  have haccepted := validate_iff.mpr hvalid
  refine ⟨haccepted, hkept, fun later => create_accepted env haccepted (hkept later),
    fun later stamp kind s job s' hrun => ?_⟩
  obtain ⟨-, agentTargets, s₁, hhanded⟩ := create_handed env hrun
  rw [hkept later] at hhanded
  exact ⟨agentTargets, s₁, hhanded⟩

/-- What was put in the table is what is read of it. -/
theorem readAs_after {server : ScheduleServer} {id : UUID} {input : UpsertScanScheduleRequest}
    {s : Schedules} (h : Stored server s) {row : ScheduleRow} (hid : row.id = id)
    (hholds : Holds server input row.cells) {context : String} {item : ScanSchedule}
    (hitem : returned server context scanScheduleSelect row = .ok item) :
    item.id = server.uuidText id ∧ item.jobRequest = input.jobRequest ∧
      ∀ later, (∀ op ∈ later, ¬ op.2.Edits server id) →
        ReadAs server id input.jobRequest (runAll server (s.put row) later) := by
  have hsaved : Saved server id input (s.put row) :=
    ⟨row, by rw [Table.find?_put, if_pos hid], hholds⟩
  obtain ⟨read, hread, hshows⟩ := returned_of_holds hholds context
  rw [hitem] at hread
  cases hread
  refine ⟨hid ▸ hshows.1, hshows.2 input hholds, fun later hlater => ?_⟩
  exact readAs_of_saved (hsaved.runAll hlater) ((h.put ⟨input, hholds⟩).runAll later)

/-- What a call that saves an input is owed. It succeeds exactly when the table takes the input, and
a call that fails has changed nothing; what it returns, and whatever is read of the schedule until
it is edited, has the request of the input. -/
structure SavedAs (server : ScheduleServer) (input : UpsertScanScheduleRequest) (s : Schedules)
    (id : UUID) (call : Except StoreError ScanSchedule × Schedules) : Prop where
  succeeds : (∃ item, call.1 = .ok item) ↔ Fits server input
  unchanged : ∀ error, call.1 = .error error → call.2 = s
  returned : ∀ item, call.1 = .ok item →
    item.id = server.uuidText id ∧ item.jobRequest = input.jobRequest
  read : ∀ item, call.1 = .ok item → ∀ later, (∀ op ∈ later, ¬ op.2.Edits server id) →
    ReadAs server id input.jobRequest (runAll server call.2 later)

/-- A call that puts a row with the input in the table. -/
theorem savedAs_put {server : ScheduleServer} {id : UUID} {input : UpsertScanScheduleRequest}
    {s : Schedules} (h : Stored server s) (hfits : Fits server input) {row : ScheduleRow}
    (hid : row.id = id) (hholds : Holds server input row.cells) (context : String) :
    SavedAs server input s id (returned server context scanScheduleSelect row, s.put row) := by
  obtain ⟨item, hitem, -⟩ := returned_of_holds hholds context
  rw [hitem]
  obtain ⟨hshown, hrequest, hread⟩ := readAs_after h hid hholds hitem
  refine ⟨iff_of_true ⟨item, rfl⟩ hfits, fun error herror => ?_, fun other hother => ?_,
    fun _ _ => hread⟩
  · cases herror
  · cases hother
    exact ⟨hshown, hrequest⟩

/-- A call that is refused. -/
theorem savedAs_refused {server : ScheduleServer} {id : UUID} {input : UpsertScanScheduleRequest}
    {s : Schedules} (hfits : ¬ Fits server input) (error : StoreError) :
    SavedAs server input s id (.error error, s) := by
  refine ⟨iff_of_false ?_ hfits, fun _ _ => rfl, fun _ hok => ?_, fun _ hok => ?_⟩
  · rintro ⟨item, hok⟩
    cases hok
  · cases hok
  · cases hok

theorem createScanSchedule_savedAs {server : ScheduleServer} {input : UpsertScanScheduleRequest}
    {s : Schedules} {id : UUID} (h : Stored server s) (hvalid : Valid input.jobRequest)
    (hnew : s.find? id = none) (moment nextRun : Timestamp) :
    SavedAs server input s id (createScanSchedule server s moment id input nextRun) := by
  unfold createScanSchedule
  cases hassign : assign (stored server) (insertArgs server input nextRun)
      (insertColumns.zip insertValues) (defaultCells moment) with
  | none =>
    refine savedAs_refused (fun hfits => ?_) _
    obtain ⟨cells, hcells⟩ := (exists_insert_iff hvalid).mpr hfits
    rw [hassign] at hcells
    cases hcells
  | some cells =>
    dsimp only
    rw [dif_pos (typed_insert hassign), if_neg (not_not_intro hnew), returning_eq.1]
    have hholds : Holds server input (ScheduleRow.mk id cells (typed_insert hassign)).cells :=
      holds_insert hassign
    exact savedAs_put h ((exists_insert_iff hvalid).mp ⟨cells, hassign⟩) rfl hholds _

theorem updateScanSchedule_savedAs {server : ScheduleServer} {input : UpsertScanScheduleRequest}
    {s : Schedules} {id : UUID} (h : Stored server s) (hvalid : Valid input.jobRequest)
    {text : String} (htext : server.uuid text = some id) (hthere : s.find? id ≠ none)
    (moment nextRun : Timestamp) :
    SavedAs server input s id (updateScanSchedule server s moment text input nextRun) := by
  obtain ⟨row, hrow⟩ := Option.ne_none_iff_exists'.mp hthere
  unfold updateScanSchedule
  simp only [htext, hrow]
  cases hset : row.set server (updateArgs server text input nextRun) (updateSets moment) with
  | none =>
    refine savedAs_refused (fun hfits => ?_) _
    obtain ⟨row', hrow'⟩ := (exists_update_iff hvalid).mpr hfits
    rw [hset] at hrow'
    cases hrow'
  | some row' =>
    dsimp only
    rw [returning_eq.2.1]
    have hid : row'.id = id := (ScheduleRow.id_set hset).trans (Table.key_of_find? hrow)
    exact savedAs_put h ((exists_update_iff hvalid).mp ⟨row', hset⟩) hid (holds_updated hset) _

/-- **A schedule runs as it was saved.** A normalised input is taken as it is by the service. Saved
after any calls, as a new schedule or in the place of an existing one, it is what is read of the
schedule until it is edited; and it is saved exactly when the table takes its values. -/
theorem runs_as_saved {σ : Type} (env : Environment σ) (server : ScheduleServer) {cron : Cron}
    {now : Clock} {instant nextRun : Timestamp} {raw input : UpsertScanScheduleRequest}
    (h : normalizeSchedule cron now instant raw = .ok (input, nextRun))
    (before : List (Timestamp × ScheduleOp)) (moment : Timestamp) :
    RunAs env input.jobRequest ∧
    (∀ id, (runAll server Table.empty before).find? id = none →
      SavedAs server input (runAll server Table.empty before) id
        (createScanSchedule server (runAll server Table.empty before) moment id input nextRun)) ∧
    ∀ text id, server.uuid text = some id → (runAll server Table.empty before).find? id ≠ none →
      SavedAs server input (runAll server Table.empty before) id
        (updateScanSchedule server (runAll server Table.empty before) moment text input nextRun) := by
  have hbefore : Stored server (runAll server Table.empty before) :=
    Stored.runAll (fun row hrow => absurd hrow List.not_mem_nil) before
  obtain ⟨hvalid, -⟩ := normalizeSchedule_ok h
  exact ⟨runAs_of_normalized env h,
    fun id hnew => createScanSchedule_savedAs hbefore hvalid hnew moment nextRun,
    fun text id htext hthere => updateScanSchedule_savedAs hbefore hvalid htext hthere moment nextRun⟩

/-! ## A schedule every six hours -/

/-- Every six hours of a day in Shanghai. -/
def everySixHours : Cron := fun plan =>
  if plan = ⟨"0 */6 * * *", "Asia/Shanghai"⟩ then
    .ok fun t => (t + 480 * minute) / (360 * minute) * (360 * minute) - 120 * minute
  else .error "invalid cron expression"

def edgeID : String := "00000000-0000-4000-8000-000000000005"

/-- The ids but one are printed in unary. -/
def edgeText (id : UUID) : String :=
  if id = 5 then edgeID else String.ofList (List.replicate id 'x')

def edgeUUID (text : String) : Option UUID := some (if text = edgeID then 5 else text.length)

theorem edgeUUID_text (id : UUID) : edgeUUID (edgeText id) = some id := by
  unfold edgeUUID edgeText
  by_cases hid : id = 5
  · rw [if_pos hid, if_pos rfl, hid]
  · have hne : String.ofList (List.replicate id 'x') ≠ edgeID := by
      intro heq
      have hdash : '-' ∈ List.replicate id 'x' := by
        rw [← String.toList_ofList (l := List.replicate id 'x'), heq]
        decide
      exact absurd (List.eq_of_mem_replicate hdash) (by decide)
    rw [if_neg hid, if_neg hne]
    simp

/-- Lists without agents are encoded and decoded. -/
def edgeMarshal (items : List String) : String := if items = [] then "[]" else ""

theorem edge_lossless (items : List String) (text : String)
    (h : (if edgeMarshal items = "[]" then some "[]" else none) = some text) :
    text ≠ "" ∧ (if text = "[]" then some ([] : List String) else none) = some items := by
  unfold edgeMarshal at h
  by_cases hitems : items = []
  · subst hitems
    cases h
    decide
  · rw [if_neg hitems] at h
    cases h

def edgeServer : ScheduleServer where
  toPostgres := .withoutAddresses edgeUUID
  uuidText := edgeText
  uuid_text := edgeUUID_text
  jsonb := fun text => if text = "[]" then some "[]" else none
  marshal := edgeMarshal
  unmarshal := fun text => if text = "[]" then some [] else none
  lossless := edge_lossless

/-- A name and the mode. -/
def edgeInput : UpsertScanScheduleRequest :=
  ⟨" edge ", true, "", "", [], "league", 0, "", "", "", 0, 0, 0, 0, 0, 0, false, false⟩

def edgeNormalized : UpsertScanScheduleRequest :=
  ⟨"edge", true, "0 */6 * * *", "Asia/Shanghai", [], "league", 128, "https", "cloudflare.com",
    "/cdn-cgi/trace", 443, 3, 5000, 1000, 50, 60, false, false⟩

/-- One prefix, one agent and one target of the league. -/
def oneTarget : Environment Unit where
  listActivePrefixes := fun _ => pure [⟨"104.16.0.0/13", 4, "cloudflare", true⟩]
  resolveScanAgentIDs := fun _ => pure [edgeID]
  planLeagueTargets := fun _ _ agentIDs _ _ =>
    pure (agentIDs.map fun agentID => ⟨agentID, [⟨"104.16.0.1", "104.16.0.0/13"⟩]⟩)
  createScanJob := fun input _ => pure (input.toCreateScanJobRequest.job 9 0)
  sync := pure none
  syncEnabledASNs := pure none
  sha256 := fun _ => 0
  sortSlice := .insertion

/-- What the store makes of a run of the schedule. -/
def edgeJob : Scan.ScanJob :=
  ({ edgeNormalized.jobRequest with kind := "scheduled" } : CreateScanJobRequest
    ).toCreateScanJobRequest.job 9 0

theorem fits_edge : Fits edgeServer edgeNormalized := by
  refine ⟨by decide, ?_, by decide⟩
  show (some "[]" : Option String) ≠ none
  exact Option.some_ne_none _

/-- The schedule is saved, read and run. -/
theorem runs_as_saved_edge :
    (create oneTarget ⟨1, 2, 4, 0⟩ "1970-01-02T04:00:00Z" edgeNormalized.jobRequest
      "scheduled").run.run () = (.ok edgeJob, ()) ∧
    (∃ agentTargets s₁, (oneTarget.createScanJob
      { edgeNormalized.jobRequest with kind := "scheduled" } agentTargets).run.run s₁ =
        (.ok edgeJob, ())) ∧
    ∃ item, (createScanSchedule edgeServer Table.empty 0 5 edgeNormalized (240 * minute)).1 =
        .ok item ∧ item.id = edgeID ∧ item.jobRequest = edgeNormalized.jobRequest ∧
      ReadAs edgeServer 5 edgeNormalized.jobRequest
        (createScanSchedule edgeServer Table.empty 0 5 edgeNormalized (240 * minute)).2 := by
  have hnormal : normalizeSchedule everySixHours ⟨1, 1, 0, 0⟩ 0 edgeInput =
      .ok (edgeNormalized, 240 * minute) := by
    decide +kernel
  have h := runs_as_saved oneTarget edgeServer hnormal [] 0
  have hrun : (create oneTarget ⟨1, 2, 4, 0⟩ "1970-01-02T04:00:00Z" edgeNormalized.jobRequest
      "scheduled").run.run () = (.ok edgeJob, ()) := by
    rw [h.1.created]
    rfl
  have hsaved := h.2.1 5 rfl
  obtain ⟨item, hitem⟩ := hsaved.succeeds.mpr fits_edge
  obtain ⟨hid, hrequest⟩ := hsaved.returned item hitem
  exact ⟨hrun, h.1.handed _ _ _ _ _ _ hrun, item, hitem, hid, hrequest,
    hsaved.read item hitem [] (by simp)⟩

/-- One address for each prefix, and a count that does not matter. -/
def anyCount : UpsertScanScheduleRequest :=
  { edgeNormalized with samplingMode := "one_per_prefix", targetCount := 3000000000 }

/-- It is normalised to itself, and the table has no room for the count. -/
theorem anyCount_not_saved :
    normalizeSchedule everySixHours ⟨1, 1, 0, 0⟩ 0 anyCount = .ok (anyCount, 240 * minute) ∧
    (createScanSchedule edgeServer Table.empty 0 5 anyCount (240 * minute)).1 =
      .error (.db "create scan schedule" .valueRefused) ∧
    ¬ ∀ input nextRun,
      normalizeSchedule everySixHours ⟨1, 1, 0, 0⟩ 0 anyCount = .ok (input, nextRun) →
      ∃ item, (createScanSchedule edgeServer Table.empty 0 5 input nextRun).1 = .ok item := by
  have hnormal : normalizeSchedule everySixHours ⟨1, 1, 0, 0⟩ 0 anyCount =
      .ok (anyCount, 240 * minute) := by
    decide +kernel
  have hrefused : (createScanSchedule edgeServer Table.empty 0 5 anyCount (240 * minute)).1 =
      .error (.db "create scan schedule" .valueRefused) := by
    decide +kernel
  refine ⟨hnormal, hrefused, fun hall => ?_⟩
  obtain ⟨item, hitem⟩ := hall _ _ hnormal
  rw [hrefused] at hitem
  cases hitem

end Cfscan.Scans
