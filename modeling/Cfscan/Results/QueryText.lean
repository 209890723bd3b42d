import Cfscan.Lib.Placeholders
import Cfscan.Lib.Sprintf
import Cfscan.Results.PageNumbers

/-!
# The text of the result queries — `internal/store/postgres/store.go`

`resultDataset` and `ListResults` once more, with the text they send. A condition is formatted with
the number its argument has then, so the text can only depend on which fields are set. It has the
placeholders of its arguments, each once and in order, and each in the condition of its field.

`renders_resultDataset` connects the text to the clauses of `Results.resultDataset`.

What the text means to the server is not said here but in `Results.Dataset`, where a condition is a
function of the arguments; a text is only looked at for its placeholders. The fields are told apart
by the condition each stands in, so that two arguments exchanged would show, and so would a value
that was written into the text: filters that set the same fields have one text (`SameFields`).
-/

set_option autoImplicit false

namespace Cfscan.Results

open Cfscan.Lib Cfscan.Store

/-! ## Conditions

The builder once more, with the formats of the source and `fmt.Sprintf`. Every format has
its `$%d` in one place, so a condition can be split into the text around a number. -/

/-- The clause on a column, as a format. -/
def Column.format : Column → String
  | .agentID => "r.agent_id = $%d::uuid"
  | .jobID => "r.job_id = $%d::uuid"
  | .region => "a.region = $%d"
  | .continent => "a.continent = $%d"
  | .targetIP => "host(r.target_ip) ILIKE '%%' || $%d || '%%'"
  | .since => "r.scanned_at >= $%d"
  | .available => "q.available = $%d"
  | .colo => "q.colo = $%d"
  | .coloCity => "q.colo_city = $%d"
  | .coloCountry => "q.colo_country = $%d"
  | .coloContinent => "q.colo_continent = $%d"

/-- What stands before the placeholder, and behind it. -/
def Column.around : Column → String × String
  | .agentID => ("r.agent_id = ", "::uuid")
  | .jobID => ("r.job_id = ", "::uuid")
  | .region => ("a.region = ", "")
  | .continent => ("a.continent = ", "")
  | .targetIP => ("host(r.target_ip) ILIKE '%' || ", " || '%'")
  | .since => ("r.scanned_at >= ", "")
  | .available => ("q.available = ", "")
  | .colo => ("q.colo = ", "")
  | .coloCity => ("q.colo_city = ", "")
  | .coloCountry => ("q.colo_country = ", "")
  | .coloContinent => ("q.colo_continent = ", "")

/-- The condition on a column, as the server reads it. -/
def Column.condition (column : Column) (position : Nat) : String :=
  column.around.1 ++ ("$" ++ toString position ++ column.around.2)

/-- The value of the field a column is compared with, if the field is set. -/
def Column.argument (server : ResultServer) (filter : ResultFilter) : Column → Option Arg
  | .agentID => if filter.agentID ≠ "" then some (.text filter.agentID) else none
  | .jobID => if filter.jobID ≠ "" then some (.text filter.jobID) else none
  | .region => if filter.region ≠ "" then some (.text filter.region) else none
  | .continent => if filter.continent ≠ "" then some (.text filter.continent) else none
  | .targetIP => if filter.targetIP ≠ "" then some (.text filter.targetIP) else none
  | .since => filter.since.map .time
  | .available => filter.available.map .bool
  | .colo => if filter.colo ≠ "" then some (.text (server.toUpper filter.colo)) else none
  | .coloCity => if filter.coloCity ≠ "" then some (.text filter.coloCity) else none
  | .coloCountry => if filter.coloCountry ≠ "" then some (.text filter.coloCountry) else none
  | .coloContinent => if filter.coloContinent ≠ "" then some (.text filter.coloContinent) else none

theorem sprintf_of_eq {format before behind : String} {f a b : List Char} {position : Nat}
    (hformat : format = String.ofList f) (hbefore : before = String.ofList a)
    (hbehind : behind = String.ofList b)
    (h : sprintfFrom false f [.int position] = a ++ ('$' :: Nat.toDigits 10 position ++ b)) :
    sprintf format [.int position] = before ++ ("$" ++ toString position ++ behind) := by
  rw [← String.toList_inj, sprintf, hformat, hbefore, hbehind]
  simp [h, Nat.toList_repr]

theorem sprintf_format (column : Column) (position : Nat) :
    sprintf column.format [.int position] = column.condition position := by
  rw [Column.condition]
  cases column <;>
    exact sprintf_of_eq (rfl : _ = String.ofList _) (rfl : _ = String.ofList _)
      (rfl : _ = String.ofList _)
      (by simp [sprintfFrom, FmtArg.format, FmtArg.decimal, FmtArg.extra])

namespace Sql

structure Query where
  text : String
  args : List Arg
deriving DecidableEq, Repr

/-- The lists `resultDataset` fills. -/
structure Builder where
  candidateConditions : List String
  finalConditions : List String
  args : List Arg
deriving DecidableEq, Repr

namespace Builder

def start : Builder := ⟨["1=1"], ["1=1"], []⟩

def addCandidate (b : Builder) (clause : String) (value : Arg) : Builder where
  args := b.args ++ [value]
  candidateConditions :=
    b.candidateConditions ++ [sprintf clause [.int (b.args ++ [value]).length]]
  finalConditions := b.finalConditions

def addFinal (b : Builder) (clause : String) (value : Arg) : Builder where
  args := b.args ++ [value]
  candidateConditions := b.candidateConditions
  finalConditions := b.finalConditions ++ [sprintf clause [.int (b.args ++ [value]).length]]

/-- `if filter.Since != nil`. -/
def addSince (b : Builder) : Option Timestamp → Builder
  | some since => b.addCandidate Column.since.format (.time since)
  | none => b

/-- `if filter.Available != nil`. -/
def addAvailable (b : Builder) : Option Bool → Builder
  | some available => b.addFinal Column.available.format (.bool available)
  | none => b

end Builder

def conditions (server : ResultServer) (filter : ResultFilter) (includeGeo includeJobFilter : Bool) :
    Builder :=
  let b := Builder.start
  let b := if filter.agentID ≠ "" then
    b.addCandidate Column.agentID.format (.text filter.agentID) else b
  let b := if includeJobFilter = true ∧ filter.jobID ≠ "" then
    b.addCandidate Column.jobID.format (.text filter.jobID) else b
  let b := if filter.region ≠ "" then
    b.addCandidate Column.region.format (.text filter.region) else b
  let b := if filter.continent ≠ "" then
    b.addCandidate Column.continent.format (.text filter.continent) else b
  let b := if filter.targetIP ≠ "" then
    b.addCandidate Column.targetIP.format (.text filter.targetIP) else b
  let b := b.addSince filter.since
  let b := b.addAvailable filter.available
  let b := if includeGeo = true ∧ filter.colo ≠ "" then
    b.addFinal Column.colo.format (.text (server.toUpper filter.colo)) else b
  let b := if includeGeo = true ∧ filter.coloCity ≠ "" then
    b.addFinal Column.coloCity.format (.text filter.coloCity) else b
  let b := if includeGeo = true ∧ filter.coloCountry ≠ "" then
    b.addFinal Column.coloCountry.format (.text filter.coloCountry) else b
  if includeGeo = true ∧ filter.coloContinent ≠ "" then
    b.addFinal Column.coloContinent.format (.text filter.coloContinent) else b

/-! ## Queries

The texts of the source around its conditions. The ranking expression and the order are
chosen by the view and by the two words `resultOrder` looks at, and no text of a filter is
pasted in. -/

def rankExpression (view : String) : String :=
  if view = "latest" then "ROW_NUMBER() OVER (
            PARTITION BY r.agent_id, r.target_ip, j.scheme, j.hostname, j.path, j.port, j.attempts, j.timeout_ms
            ORDER BY r.scanned_at DESC, r.id DESC
        )"
  else "1::bigint"

def selectedWhere (view : String) : String := if view = "latest" then "result_rank = 1" else "TRUE"

def selectCandidates : String := "
WITH result_candidates AS (
    SELECT r.id, r.job_id::text AS job_id, j.name AS job_name, j.kind AS job_kind,
           j.created_at AS job_created_at, r.agent_id::text AS agent_id, a.name AS agent_name,
           a.region, a.continent, host(r.target_ip) AS target_ip, r.available,
           r.latency_ms, r.packet_loss, r.tcp_connect_ms, r.tls_handshake_ms,
           r.ttfb_ms, r.total_ms, r.http_status, r.http_version, r.tls_version,
           r.colo, COALESCE(cl.city, '') AS colo_city,
           COALESCE(cl.country, '') AS colo_country,
           COALESCE(cl.continent, '') AS colo_continent,
           r.cf_ray, r.error_code, r.scanned_at,
           "

def fromResults : String := " AS result_rank
    FROM scan_results r
    JOIN agents a ON a.id = r.agent_id
    JOIN scan_jobs j ON j.id = r.job_id
    LEFT JOIN colo_locations cl ON cl.code = r.colo
    WHERE "

def selectSelected : String := "
), result_selected AS (
    SELECT * FROM result_candidates WHERE "

def selectFiltered : String := "
), result_filtered AS (
    SELECT * FROM result_selected q WHERE "

def resultDataset (server : ResultServer) (filter : ResultFilter)
    (includeGeo includeJobFilter : Bool) : Query :=
  let b := conditions server filter includeGeo includeJobFilter
  { text := selectCandidates ++ rankExpression filter.view ++ fromResults ++
      " AND ".intercalate b.candidateConditions ++ selectSelected ++ selectedWhere filter.view ++
      selectFiltered ++ " AND ".intercalate b.finalConditions ++ "\n)"
    args := b.args }

def resultOrder (server : ResultServer) (filter : ResultFilter) : String :=
  let order := if server.equalFold filter.order "desc" then "DESC" else "ASC"
  if filter.sort = "target_ip" then "target_ip " ++ order ++ ", scanned_at DESC, id DESC"
  else if filter.sort = "agent_name" then "agent_name " ++ order ++ ", scanned_at DESC, id DESC"
  else if filter.sort = "colo" then "colo " ++ order ++ ", scanned_at DESC, id DESC"
  else if filter.sort = "available" then "available " ++ order ++ ", scanned_at DESC, id DESC"
  else if filter.sort = "packet_loss" then "packet_loss " ++ order ++ ", scanned_at DESC, id DESC"
  else if filter.sort = "http_status" then "http_status " ++ order ++ ", scanned_at DESC, id DESC"
  else if filter.sort = "scanned_at" then "scanned_at " ++ order ++ ", id DESC"
  else "available DESC, latency_ms " ++ order ++ ", scanned_at DESC, id DESC"

def countStatuses : String := " SELECT COUNT(*), COUNT(*) FILTER (WHERE available), COUNT(*) FILTER (WHERE NOT available) FROM result_filtered"

/-- The first query of `ListResults`, from the defaults on. -/
def countQuery (server : ResultServer) (filter : ResultFilter) : Query :=
  let countBase := resultDataset server { filter with available := none } true true
  { countBase with text := countBase.text ++ countStatuses }

def selectResults : String := "
SELECT id, job_id, job_name, agent_id, agent_name, region, continent, target_ip,
       available, latency_ms, packet_loss, tcp_connect_ms, tls_handshake_ms,
       ttfb_ms, total_ms, http_status, http_version, tls_version, colo,
       colo_city, colo_country, colo_continent, cf_ray, error_code, scanned_at
FROM result_filtered"

/-- The second query of `ListResults`, from the defaults on. -/
def pageQuery (server : ResultServer) (filter : ResultFilter) : Query :=
  let base := resultDataset server filter true true
  let limitPosition := base.args.length + 1
  let offsetPosition := base.args.length + 2
  { text := base.text ++ sprintf (selectResults ++ "
ORDER BY %s
LIMIT $%d OFFSET $%d") [.str (resultOrder server filter), .int limitPosition, .int offsetPosition]
    args := base.args ++ [.int filter.pageSize, .int filter.offset.toInt] }

end Sql

/-! ## The placeholder of a condition -/

section Condition

variable (column : Column) (position : Nat)

theorem toList_condition : (column.condition position).toList =
    column.around.1.toList ++
      ('$' :: Nat.toDigits 10 position ++ column.around.2.toList) := by
  simp [Column.condition, Nat.toList_repr]

theorem plain_around : plain column.around.1.toList = true ∧
    plain column.around.2.toList = true ∧ Separate column.around.2.toList := by
  refine ⟨?_, ?_, ?_⟩
  · cases column <;> exact plain_of_eq (rfl : _ = String.ofList _) (by decide)
  · cases column <;> exact plain_of_eq (rfl : _ = String.ofList _) (by decide)
  · cases column <;> exact separate_of_all (by decide)

theorem apart_condition : Apart (column.condition position).toList := by
  obtain ⟨hbefore, hbehind, hsep⟩ := plain_around column
  rw [toList_condition]
  exact ((Apart.dollar position).append (.of_plain hbehind) hsep).plain_append hbefore

theorem placeholders_condition :
    placeholdersFrom false (column.condition position).toList = [position] := by
  obtain ⟨hbefore, hbehind, hsep⟩ := plain_around column
  rw [toList_condition, plain_append hbefore, placeholdersFrom_dollar position hsep,
    placeholdersFrom_plain hbehind]

end Condition

/-! ## Texts and clauses

The builder with texts and the builder with clauses go through the same branches. `Renders`
says that the text of each condition is the format of its clause at its position, and
follows them side by side. -/

def Clause.text (clause : Clause) : String := clause.column.condition clause.position

namespace Sql

/-- The builder has the conditions as text. -/
structure Renders (b : Builder) (c : Conditions) : Prop where
  candidate : b.candidateConditions = "1=1" :: c.candidate.map Clause.text
  final : b.finalConditions = "1=1" :: c.final.map Clause.text
  args : b.args = c.args

section Renders

variable {b : Builder} {c : Conditions}

theorem Renders.start : Renders .start .empty := ⟨rfl, rfl, rfl⟩

theorem Renders.addCandidate (h : Renders b c) (column : Column) (value : Arg) :
    Renders (b.addCandidate column.format value) (c.addCandidate column value) where
  candidate := by
    simp only [Builder.addCandidate, Conditions.addCandidate, h.candidate, h.args, sprintf_format,
      List.length_append, List.length_singleton, List.map_append, List.map_singleton,
      List.cons_append, Clause.text]
  final := h.final
  args := congrArg (· ++ [value]) h.args

theorem Renders.addFinal (h : Renders b c) (column : Column) (value : Arg) :
    Renders (b.addFinal column.format value) (c.addFinal column value) where
  candidate := h.candidate
  final := by
    simp only [Builder.addFinal, Conditions.addFinal, h.final, h.args, sprintf_format,
      List.length_append, List.length_singleton, List.map_append, List.map_singleton,
      List.cons_append, Clause.text]
  args := congrArg (· ++ [value]) h.args

theorem Renders.candidateIf (p : Prop) [Decidable p] (column : Column) (value : Arg)
    (h : Renders b c) :
    Renders (if p then b.addCandidate column.format value else b)
      (if p then c.addCandidate column value else c) := by
  split
  · exact h.addCandidate column value
  · exact h

theorem Renders.finalIf (p : Prop) [Decidable p] (column : Column) (value : Arg)
    (h : Renders b c) :
    Renders (if p then b.addFinal column.format value else b)
      (if p then c.addFinal column value else c) := by
  split
  · exact h.addFinal column value
  · exact h

theorem Renders.since (since : Option Timestamp) (h : Renders b c) :
    Renders (b.addSince since) (match since with
      | some since => c.addCandidate .since (.time since)
      | none => c) := by
  cases since with
  | none => exact h
  | some since => exact h.addCandidate .since (.time since)

theorem Renders.available (available : Option Bool) (h : Renders b c) :
    Renders (b.addAvailable available) (match available with
      | some available => c.addFinal .available (.bool available)
      | none => c) := by
  cases available with
  | none => exact h
  | some available => exact h.addFinal .available (.bool available)

end Renders

/-- The text and the clauses of a dataset are put together alike. -/
theorem renders_resultDataset (server : ResultServer) (filter : ResultFilter)
    (includeGeo includeJobFilter : Bool) :
    Renders (conditions server filter includeGeo includeJobFilter)
      (Results.resultDataset server filter includeGeo includeJobFilter).conditions := by
  have hcandidates := (((((Renders.start.candidateIf (filter.agentID ≠ "") .agentID
    (.text filter.agentID)).candidateIf (includeJobFilter = true ∧ filter.jobID ≠ "") .jobID
    (.text filter.jobID)).candidateIf (filter.region ≠ "") .region
    (.text filter.region)).candidateIf (filter.continent ≠ "") .continent
    (.text filter.continent)).candidateIf (filter.targetIP ≠ "") .targetIP
    (.text filter.targetIP)).since filter.since
  exact ((((hcandidates.available filter.available).finalIf (includeGeo = true ∧ filter.colo ≠ "")
    .colo (.text (server.toUpper filter.colo))).finalIf (includeGeo = true ∧ filter.coloCity ≠ "")
    .coloCity (.text filter.coloCity)).finalIf (includeGeo = true ∧ filter.coloCountry ≠ "")
    .coloCountry (.text filter.coloCountry)).finalIf
    (includeGeo = true ∧ filter.coloContinent ≠ "") .coloContinent (.text filter.coloContinent)

end Sql

/-! ## Positions

The argument at a position is the value of the field of the condition that has this
position. Candidates come first; `Conditions.Candidates` is the invariant for that half,
where no final condition has been added yet. -/

/-- The clauses are numbered in order, and the argument of each is the value of its field. -/
structure Conditions.Placed (server : ResultServer) (filter : ResultFilter) (c : Conditions) :
    Prop where
  numbered : (c.candidate ++ c.final).map Clause.position = List.range' 1 c.args.length
  fields : c.args.map some =
    (c.candidate ++ c.final).map fun clause => clause.column.argument server filter

section Placed

variable {server : ResultServer} {filter : ResultFilter} {c : Conditions}

theorem Conditions.Placed.empty : Conditions.Placed server filter .empty := ⟨rfl, rfl⟩

theorem Conditions.Placed.addFinal (h : c.Placed server filter) {column : Column} {value : Arg}
    (hvalue : column.argument server filter = some value) :
    (c.addFinal column value).Placed server filter where
  numbered := by
    simp only [Conditions.addFinal, ← List.append_assoc, List.map_append, List.map_singleton,
      List.length_append, List.length_singleton, List.range'_concat]
    rw [← List.map_append, h.numbered, Nat.one_mul, Nat.add_comm 1]
  fields := by
    simp only [Conditions.addFinal, ← List.append_assoc, List.map_append, List.map_singleton]
    rw [← List.map_append, ← h.fields, hvalue]

/-- While there are only candidates, a candidate is numbered like any clause. -/
structure Conditions.Candidates (server : ResultServer) (filter : ResultFilter) (c : Conditions) :
    Prop extends c.Placed server filter where
  final : c.final = []

theorem Conditions.Candidates.empty (server : ResultServer) (filter : ResultFilter) :
    Conditions.Candidates server filter .empty := ⟨.empty, rfl⟩

theorem Conditions.Candidates.addCandidate (h : c.Candidates server filter) {column : Column}
    {value : Arg} (hvalue : column.argument server filter = some value) :
    (c.addCandidate column value).Candidates server filter := by
  have hsame : (c.addCandidate column value).candidate ++ (c.addCandidate column value).final =
      (c.addFinal column value).candidate ++ (c.addFinal column value).final := by
    simp [Conditions.addCandidate, Conditions.addFinal, h.final]
  have hadded := h.toPlaced.addFinal hvalue
  exact ⟨⟨hsame ▸ hadded.numbered, hsame ▸ hadded.fields⟩, h.final⟩

theorem Conditions.Candidates.candidateIf (p : Prop) [Decidable p] (column : Column) {value : Arg}
    (hvalue : p → column.argument server filter = some value) (h : c.Candidates server filter) :
    (if p then c.addCandidate column value else c).Candidates server filter := by
  split
  next hp => exact h.addCandidate (hvalue hp)
  next => exact h

theorem Conditions.Candidates.since (h : c.Candidates server filter) :
    (match filter.since with
      | some since => c.addCandidate .since (.time since)
      | none => c).Candidates server filter := by
  cases hsince : filter.since with
  | none => exact h
  | some since => exact h.addCandidate (by rw [Column.argument, hsince, Option.map_some])

theorem Conditions.Placed.finalIf (p : Prop) [Decidable p] (column : Column) {value : Arg}
    (hvalue : p → column.argument server filter = some value) (h : c.Placed server filter) :
    (if p then c.addFinal column value else c).Placed server filter := by
  split
  next hp => exact h.addFinal (hvalue hp)
  next => exact h

theorem Conditions.Placed.available (h : c.Placed server filter) :
    (match filter.available with
      | some available => c.addFinal .available (.bool available)
      | none => c).Placed server filter := by
  cases havailable : filter.available with
  | none => exact h
  | some available => exact h.addFinal (by rw [Column.argument, havailable, Option.map_some])

theorem placed_resultDataset (server : ResultServer) (filter : ResultFilter)
    (includeGeo includeJobFilter : Bool) :
    (resultDataset server filter includeGeo includeJobFilter).conditions.Placed server filter := by
  have hcandidates := ((((((Conditions.Candidates.empty server filter).candidateIf
    (filter.agentID ≠ "") .agentID (fun hset => if_pos hset)).candidateIf
    (includeJobFilter = true ∧ filter.jobID ≠ "") .jobID (fun hset => if_pos hset.2)).candidateIf
    (filter.region ≠ "") .region (fun hset => if_pos hset)).candidateIf
    (filter.continent ≠ "") .continent (fun hset => if_pos hset)).candidateIf
    (filter.targetIP ≠ "") .targetIP (fun hset => if_pos hset)).since
  exact ((((hcandidates.toPlaced.available).finalIf
    (includeGeo = true ∧ filter.colo ≠ "") .colo (fun hset => if_pos hset.2)).finalIf
    (includeGeo = true ∧ filter.coloCity ≠ "") .coloCity (fun hset => if_pos hset.2)).finalIf
    (includeGeo = true ∧ filter.coloCountry ≠ "") .coloCountry (fun hset => if_pos hset.2)).finalIf
    (includeGeo = true ∧ filter.coloContinent ≠ "") .coloContinent (fun hset => if_pos hset.2)

/-- The argument at a position belongs to the clause there. -/
theorem Conditions.Placed.exists_clause (h : c.Placed server filter) {k : Nat} {value : Arg}
    (hk : c.args[k]? = some value) : ∃ clause ∈ c.candidate ++ c.final,
      clause.position = k + 1 ∧ clause.column.argument server filter = some value := by
  have hfield := congrArg (·[k]?) h.fields
  simp only [List.getElem?_map, hk, Option.map_some] at hfield
  obtain ⟨clause, hclause, hvalue⟩ := Option.map_eq_some_iff.1 hfield.symm
  have hposition := congrArg (·[k]?) h.numbered
  obtain ⟨hlt, -⟩ := List.getElem?_eq_some_iff.1 hk
  simp only [List.getElem?_map, hclause, Option.map_some, List.getElem?_range' hlt,
    Option.some.injEq] at hposition
  exact ⟨clause, List.mem_of_getElem? hclause, by omega, hvalue⟩

end Placed

/-! ## The texts

Where a text has no `$` it has no placeholder, and where it does not go on with a digit
after one, the number ends. `Apart` and `Separate` say this of a piece, so that the
placeholders of a text are those of its pieces in order. -/

namespace Sql

set_option maxRecDepth 20000 in
theorem plain_selectCandidates : plain selectCandidates.toList = true :=
  plain_of_eq (rfl : selectCandidates = String.ofList _) (by decide)

set_option maxRecDepth 20000 in
theorem plain_rankExpression (view : String) : plain (rankExpression view).toList = true := by
  unfold rankExpression
  split
  · exact plain_of_eq (rfl : _ = String.ofList _) (by decide)
  · exact plain_of_eq (rfl : _ = String.ofList _) (by decide)

theorem plain_selectedWhere (view : String) : plain (selectedWhere view).toList = true := by
  unfold selectedWhere
  split
  · exact plain_of_eq (rfl : _ = String.ofList _) (by decide)
  · exact plain_of_eq (rfl : _ = String.ofList _) (by decide)

set_option maxRecDepth 20000 in
theorem plain_fromResults : plain fromResults.toList = true :=
  plain_of_eq (rfl : fromResults = String.ofList _) (by decide)

set_option maxRecDepth 20000 in
theorem plain_selectSelected : plain selectSelected.toList = true :=
  plain_of_eq (rfl : selectSelected = String.ofList _) (by decide)

set_option maxRecDepth 20000 in
theorem separate_selectSelected (rest : List Char) : Separate (selectSelected.toList ++ rest) :=
  separate_of_eq (rfl : selectSelected = String.ofList _) rfl rest

set_option maxRecDepth 20000 in
theorem plain_selectFiltered : plain selectFiltered.toList = true :=
  plain_of_eq (rfl : selectFiltered = String.ofList _) (by decide)

theorem join_conditions (clauses : List Clause) :
    Apart (" AND ".intercalate ("1=1" :: clauses.map Clause.text)).toList ∧
      placeholdersFrom false (" AND ".intercalate ("1=1" :: clauses.map Clause.text)).toList =
        clauses.map Clause.position := by
  have hone : plain "1=1".toList = true := plain_of_eq (rfl : _ = String.ofList _) (by decide)
  have hapart : ∀ part ∈ ("1=1" :: clauses.map Clause.text).map String.toList, Apart part := by
    intro part hpart
    rw [List.map_cons, List.mem_cons, List.map_map] at hpart
    rcases hpart with rfl | hpart
    · exact .of_plain hone
    · obtain ⟨clause, -, rfl⟩ := List.mem_map.1 hpart
      exact apart_condition clause.column clause.position
  have hand : plain " AND ".toList = true := plain_of_eq (rfl : _ = String.ofList _) (by decide)
  have hne : " AND ".toList ≠ [] := by simp
  have hsep : Separate " AND ".toList := by
    have hseparate := separate_of_eq (rfl : " AND " = String.ofList _) rfl []
    rwa [List.append_nil] at hseparate
  obtain ⟨hjoined, hnumbers⟩ := intercalate_apart hand hne hsep hapart
  rw [String.toList_intercalate]
  refine ⟨hjoined, hnumbers.trans ?_⟩
  rw [List.map_cons, List.flatMap_cons, placeholdersFrom_plain hone, List.nil_append]
  rw [List.map_map, List.flatMap_map, List.map_eq_flatMap]
  exact List.flatMap_congr fun clause _ =>
    placeholders_condition clause.column clause.position

section Text

variable (server : ResultServer) (filter : ResultFilter) (includeGeo includeJobFilter : Bool)

/-- A dataset has the placeholders of its clauses, in their order. -/
theorem text_resultDataset :
    Apart (resultDataset server filter includeGeo includeJobFilter).text.toList ∧
      placeholdersFrom false (resultDataset server filter includeGeo includeJobFilter).text.toList =
        List.range' 1 (resultDataset server filter includeGeo includeJobFilter).args.length := by
  have hrenders := renders_resultDataset server filter includeGeo includeJobFilter
  have hplaced := placed_resultDataset server filter includeGeo includeJobFilter
  obtain ⟨hcandidate, hcandidates⟩ := join_conditions
    (Results.resultDataset server filter includeGeo includeJobFilter).conditions.candidate
  obtain ⟨hfinal, hfinals⟩ := join_conditions
    (Results.resultDataset server filter includeGeo includeJobFilter).conditions.final
  rw [← hrenders.candidate] at hcandidate hcandidates
  rw [← hrenders.final] at hfinal hfinals
  have hend : plain "\n)".toList = true := plain_of_eq (rfl : _ = String.ofList _) (by decide)
  have hsepEnd : Separate "\n)".toList := by
    have hseparate := separate_of_eq (rfl : "\n)" = String.ofList _) rfl []
    rwa [List.append_nil] at hseparate
  have hsepRest := separate_selectSelected ((selectedWhere filter.view).toList ++
    (selectFiltered.toList ++ ((" AND ".intercalate (conditions server filter includeGeo
      includeJobFilter).finalConditions).toList ++ "\n)".toList)))
  have hrest := (((hfinal.append (.of_plain hend) hsepEnd).plain_append
    plain_selectFiltered).plain_append (plain_selectedWhere filter.view)).plain_append
    plain_selectSelected
  unfold resultDataset
  simp only [String.toList_append, List.append_assoc]
  constructor
  · exact (((hcandidate.append hrest hsepRest).plain_append plain_fromResults).plain_append
      (plain_rankExpression filter.view)).plain_append plain_selectCandidates
  · rw [plain_append plain_selectCandidates, plain_append (plain_rankExpression filter.view),
      plain_append plain_fromResults, hcandidate _ hsepRest, plain_append plain_selectSelected,
      plain_append (plain_selectedWhere filter.view), plain_append plain_selectFiltered,
      hfinal _ hsepEnd, placeholdersFrom_plain hend, List.append_nil, hcandidates, hfinals,
      ← List.map_append, hplaced.numbered, hrenders.args]

theorem plain_resultOrder : plain (resultOrder server filter).toList = true := by
  have horder : plain (if server.equalFold filter.order "desc" then "DESC" else "ASC").toList =
      true := by
    split
    · exact plain_of_eq (rfl : _ = String.ofList _) (by decide)
    · exact plain_of_eq (rfl : _ = String.ofList _) (by decide)
  have hordered : ∀ {column tail : String}, plain column.toList = true → plain tail.toList = true →
      plain (column ++ (if server.equalFold filter.order "desc" then "DESC" else "ASC") ++
        tail).toList = true := by
    intro column tail hcolumn htail
    rw [String.toList_append, String.toList_append]
    exact plain_append_plain (plain_append_plain hcolumn horder) htail
  have htime : plain ", scanned_at DESC, id DESC".toList = true :=
    plain_of_eq (rfl : _ = String.ofList _) (by decide)
  have hid : plain ", id DESC".toList = true := plain_of_eq (rfl : _ = String.ofList _) (by decide)
  unfold resultOrder
  dsimp only
  split
  · exact hordered (plain_of_eq (rfl : _ = String.ofList _) (by decide)) htime
  split
  · exact hordered (plain_of_eq (rfl : _ = String.ofList _) (by decide)) htime
  split
  · exact hordered (plain_of_eq (rfl : _ = String.ofList _) (by decide)) htime
  split
  · exact hordered (plain_of_eq (rfl : _ = String.ofList _) (by decide)) htime
  split
  · exact hordered (plain_of_eq (rfl : _ = String.ofList _) (by decide)) htime
  split
  · exact hordered (plain_of_eq (rfl : _ = String.ofList _) (by decide)) htime
  split
  · exact hordered (plain_of_eq (rfl : _ = String.ofList _) (by decide)) hid
  · exact hordered (plain_of_eq (rfl : _ = String.ofList _) (by decide)) htime

set_option maxRecDepth 20000 in
theorem notPercent_selectResults : '%' ∉ selectResults.toList :=
  notMem_of_eq (rfl : selectResults = String.ofList _) (by decide)

set_option maxRecDepth 20000 in
theorem plain_selectResults : plain selectResults.toList = true :=
  plain_of_eq (rfl : selectResults = String.ofList _) (by decide)

set_option maxRecDepth 20000 in
theorem separate_selectResults (rest : List Char) : Separate (selectResults.toList ++ rest) :=
  separate_of_eq (rfl : selectResults = String.ofList _) rfl rest

/-- The end of the page query, with its two positions. -/
theorem sprintf_page (order : String) (m n : Nat) :
    sprintf (selectResults ++ "
ORDER BY %s
LIMIT $%d OFFSET $%d") [.str order, .int m, .int n] =
      selectResults ++ ("\nORDER BY " ++ order) ++ "\nLIMIT $" ++ toString m ++ " OFFSET $" ++
        toString n := by
  rw [sprintf_append notPercent_selectResults, ← String.toList_inj]
  simp [sprintf, sprintfFrom, FmtArg.format, FmtArg.decimal, FmtArg.extra, Nat.toList_repr]

theorem placeholders_page {order : String} (horder : plain order.toList = true) (m n : Nat) :
    placeholdersFrom false (selectResults ++ ("\nORDER BY " ++ order) ++ "\nLIMIT $" ++ toString m ++
      " OFFSET $" ++ toString n).toList = [m, n] := by
  have horderBy : plain "\nORDER BY ".toList = true :=
    plain_of_eq (rfl : _ = String.ofList _) (by decide)
  have hlimit : plain "\nLIMIT ".toList = true :=
    plain_of_eq (rfl : _ = String.ofList _) (by decide)
  have hoffset : plain " OFFSET ".toList = true :=
    plain_of_eq (rfl : _ = String.ofList _) (by decide)
  have hsep := separate_of_eq (rfl : " OFFSET " = String.ofList _) rfl ('$' :: Nat.toDigits 10 n)
  have htext : (selectResults ++ ("\nORDER BY " ++ order) ++ "\nLIMIT $" ++ toString m ++
      " OFFSET $" ++ toString n).toList = selectResults.toList ++ ("\nORDER BY ".toList ++
        (order.toList ++ ("\nLIMIT ".toList ++ (('$' :: Nat.toDigits 10 m) ++
          (" OFFSET ".toList ++ ('$' :: Nat.toDigits 10 n)))))) := by
    simp [Nat.toList_repr]
  rw [htext, plain_append plain_selectResults, plain_append horderBy, plain_append horder,
    plain_append hlimit, placeholdersFrom_dollar m hsep, plain_append hoffset,
    placeholdersFrom_one]

end Text

/-! ## The same fields, the same text

Two filters with the same fields set take the same branches. The view, the sort and its
direction must be equal and not only set, since they pick a text out of the fixed ones. -/

/-- The filters set the same optional fields, and have the same view, sort and order. -/
structure SameFields (f g : ResultFilter) : Prop where
  view : f.view = g.view
  sort : f.sort = g.sort
  order : f.order = g.order
  agentID : f.agentID ≠ "" ↔ g.agentID ≠ ""
  jobID : f.jobID ≠ "" ↔ g.jobID ≠ ""
  region : f.region ≠ "" ↔ g.region ≠ ""
  continent : f.continent ≠ "" ↔ g.continent ≠ ""
  targetIP : f.targetIP ≠ "" ↔ g.targetIP ≠ ""
  colo : f.colo ≠ "" ↔ g.colo ≠ ""
  coloCity : f.coloCity ≠ "" ↔ g.coloCity ≠ ""
  coloCountry : f.coloCountry ≠ "" ↔ g.coloCountry ≠ ""
  coloContinent : f.coloContinent ≠ "" ↔ g.coloContinent ≠ ""
  available : f.available.isSome = g.available.isSome
  since : f.since.isSome = g.since.isSome

/-- The builders have the same conditions, and as many arguments. -/
structure SameText (b b' : Builder) : Prop where
  candidate : b.candidateConditions = b'.candidateConditions
  final : b.finalConditions = b'.finalConditions
  length : b.args.length = b'.args.length

section Same

variable {b b' : Builder} {value value' : Arg} {clause : String} {p q : Prop} [Decidable p]
  [Decidable q]

theorem SameText.addCandidate (h : SameText b b') :
    SameText (b.addCandidate clause value) (b'.addCandidate clause value') := by
  refine ⟨?_, h.final, ?_⟩
  · simp only [Builder.addCandidate, List.length_append, List.length_singleton, h.candidate,
      h.length]
  · simp only [Builder.addCandidate, List.length_append, List.length_singleton, h.length]

theorem SameText.addFinal (h : SameText b b') :
    SameText (b.addFinal clause value) (b'.addFinal clause value') := by
  refine ⟨h.candidate, ?_, ?_⟩
  · simp only [Builder.addFinal, List.length_append, List.length_singleton, h.final, h.length]
  · simp only [Builder.addFinal, List.length_append, List.length_singleton, h.length]

theorem SameText.candidateIf (hp : p ↔ q) (h : SameText b b') :
    SameText (if p then b.addCandidate clause value else b)
      (if q then b'.addCandidate clause value' else b') := by
  by_cases hset : p
  · rw [if_pos hset, if_pos (hp.1 hset)]
    exact h.addCandidate
  · rw [if_neg hset, if_neg (mt hp.2 hset)]
    exact h

theorem SameText.finalIf (hp : p ↔ q) (h : SameText b b') :
    SameText (if p then b.addFinal clause value else b)
      (if q then b'.addFinal clause value' else b') := by
  by_cases hset : p
  · rw [if_pos hset, if_pos (hp.1 hset)]
    exact h.addFinal
  · rw [if_neg hset, if_neg (mt hp.2 hset)]
    exact h

theorem SameText.since {since since' : Option Timestamp} (hsome : since.isSome = since'.isSome)
    (h : SameText b b') :
    SameText (b.addSince since) (b'.addSince since') := by
  cases since with
  | none =>
    cases since' with
    | none => exact h
    | some since' => cases hsome
  | some since =>
    cases since' with
    | none => cases hsome
    | some since' => exact h.addCandidate

theorem SameText.available {available available' : Option Bool}
    (hsome : available.isSome = available'.isSome) (h : SameText b b') :
    SameText (b.addAvailable available) (b'.addAvailable available') := by
  cases available with
  | none =>
    cases available' with
    | none => exact h
    | some available' => cases hsome
  | some available =>
    cases available' with
    | none => cases hsome
    | some available' => exact h.addFinal

variable {server : ResultServer} {f g : ResultFilter}

theorem SameFields.conditions (h : SameFields f g) (includeGeo includeJobFilter : Bool) :
    SameText (Sql.conditions server f includeGeo includeJobFilter)
      (Sql.conditions server g includeGeo includeJobFilter) := by
  have hjob : includeJobFilter = true ∧ f.jobID ≠ "" ↔ includeJobFilter = true ∧ g.jobID ≠ "" :=
    and_congr_right fun _ => h.jobID
  have hcolo : includeGeo = true ∧ f.colo ≠ "" ↔ includeGeo = true ∧ g.colo ≠ "" :=
    and_congr_right fun _ => h.colo
  have hcity : includeGeo = true ∧ f.coloCity ≠ "" ↔ includeGeo = true ∧ g.coloCity ≠ "" :=
    and_congr_right fun _ => h.coloCity
  have hcountry : includeGeo = true ∧ f.coloCountry ≠ "" ↔
      includeGeo = true ∧ g.coloCountry ≠ "" :=
    and_congr_right fun _ => h.coloCountry
  have hcontinent : includeGeo = true ∧ f.coloContinent ≠ "" ↔
      includeGeo = true ∧ g.coloContinent ≠ "" :=
    and_congr_right fun _ => h.coloContinent
  have hstart : SameText .start .start := ⟨rfl, rfl, rfl⟩
  exact ((((((((((hstart.candidateIf h.agentID).candidateIf hjob).candidateIf
    h.region).candidateIf h.continent).candidateIf h.targetIP).since h.since).available
    h.available).finalIf hcolo).finalIf hcity).finalIf hcountry).finalIf hcontinent

theorem SameFields.resultDataset (h : SameFields f g) (includeGeo includeJobFilter : Bool) :
    (Sql.resultDataset server f includeGeo includeJobFilter).text =
        (Sql.resultDataset server g includeGeo includeJobFilter).text ∧
      (Sql.resultDataset server f includeGeo includeJobFilter).args.length =
        (Sql.resultDataset server g includeGeo includeJobFilter).args.length := by
  obtain ⟨hcandidate, hfinal, hlength⟩ :=
    @SameFields.conditions server f g h includeGeo includeJobFilter
  refine ⟨?_, hlength⟩
  simp only [Sql.resultDataset, hcandidate, hfinal, h.view]

end Same

theorem SameFields.normalize {f g : ResultFilter} (h : SameFields f g) :
    SameFields f.normalize g.normalize where
  __ := h
  view := by rw [ResultFilter.normalize, ResultFilter.normalize, h.view]

theorem SameFields.counted {f g : ResultFilter} (h : SameFields f g) :
    SameFields { f with available := none } { g with available := none } where
  __ := h
  available := rfl

/-! ## The queries -/

/-- A query is two lists of conditions in a frame without placeholders. Its placeholders are
numbered through its arguments, each of which is the value of a field and has its placeholder in
the condition of that field. -/
structure Query.Bound (server : ResultServer) (filter : ResultFilter) (query : Query)
    (candidates finals : List String) : Prop where
  text : ∃ head middle, placeholders head = [] ∧ placeholders middle = [] ∧
    query.text = head ++ " AND ".intercalate candidates ++ middle ++ " AND ".intercalate finals ++
      "\n)"
  numbers : placeholders query.text = List.range' 1 query.args.length
  fields : ∀ k value, query.args[k]? = some value → ∃ column : Column,
    column.argument server filter = some value ∧ column.condition (k + 1) ∈ candidates ++ finals

section Queries

variable (server : ResultServer) (filter : ResultFilter)

theorem bound_resultDataset (includeGeo includeJobFilter : Bool) :
    (resultDataset server filter includeGeo includeJobFilter).Bound server filter
      (conditions server filter includeGeo includeJobFilter).candidateConditions
      (conditions server filter includeGeo includeJobFilter).finalConditions where
  text := by
    refine ⟨selectCandidates ++ rankExpression filter.view ++ fromResults,
      selectSelected ++ selectedWhere filter.view ++ selectFiltered, ?_, ?_, ?_⟩
    · rw [placeholders, String.toList_append, String.toList_append]
      exact placeholdersFrom_plain (plain_append_plain (plain_append_plain plain_selectCandidates
        (plain_rankExpression filter.view)) plain_fromResults)
    · rw [placeholders, String.toList_append, String.toList_append]
      exact placeholdersFrom_plain (plain_append_plain (plain_append_plain plain_selectSelected
        (plain_selectedWhere filter.view)) plain_selectFiltered)
    · simp only [resultDataset, String.append_assoc]
  numbers := (text_resultDataset server filter includeGeo includeJobFilter).2
  fields := by
    intro k value hk
    have hrenders := renders_resultDataset server filter includeGeo includeJobFilter
    have hplaced := placed_resultDataset server filter includeGeo includeJobFilter
    rw [resultDataset, hrenders.args] at hk
    obtain ⟨clause, hclause, hposition, hvalue⟩ := hplaced.exists_clause hk
    refine ⟨clause.column, hvalue, ?_⟩
    rw [← hposition, hrenders.candidate, hrenders.final, List.mem_append, List.mem_cons,
      List.mem_cons]
    rcases List.mem_append.1 hclause with hclause | hclause
    · exact .inl (.inr (List.mem_map_of_mem hclause))
    · exact .inr (.inr (List.mem_map_of_mem hclause))

theorem placeholders_countQuery : placeholders (countQuery server filter).text =
    List.range' 1 (countQuery server filter).args.length := by
  obtain ⟨hapart, hnumbers⟩ :=
    text_resultDataset server { filter with available := none } true true
  have hplain : plain countStatuses.toList = true :=
    plain_of_eq (rfl : countStatuses = String.ofList _) (by decide)
  have hsep := separate_of_eq (rfl : countStatuses = String.ofList _) rfl []
  rw [List.append_nil] at hsep
  simp only [countQuery, placeholders, String.toList_append]
  rw [hapart _ hsep, placeholdersFrom_plain hplain, List.append_nil, hnumbers]

theorem text_pageQuery : (pageQuery server filter).text =
    (resultDataset server filter true true).text ++
      (selectResults ++ ("\nORDER BY " ++ resultOrder server filter)) ++ "\nLIMIT $" ++
        toString ((resultDataset server filter true true).args.length + 1) ++ " OFFSET $" ++
        toString ((resultDataset server filter true true).args.length + 2) := by
  rw [pageQuery]
  simp only
  rw [sprintf_page]
  simp only [String.append_assoc]

theorem placeholders_pageQuery : placeholders (pageQuery server filter).text =
    List.range' 1 (pageQuery server filter).args.length := by
  obtain ⟨hapart, hnumbers⟩ := text_resultDataset server filter true true
  have hpage := placeholders_page (plain_resultOrder server filter)
    ((resultDataset server filter true true).args.length + 1)
    ((resultDataset server filter true true).args.length + 2)
  simp only [String.toList_append, List.append_assoc] at hpage
  rw [placeholders, text_pageQuery]
  simp only [String.toList_append, List.append_assoc]
  rw [hapart _ (separate_selectResults _), hpage, hnumbers, pageQuery, List.length_append,
    List.range'_append_1.symm, Nat.add_comm 1]
  rfl

end Queries

/-- **Filter values are bound, not written.** Filters that set the same fields are sent as the same
texts. Each placeholder occurs once, in the condition of the field whose value is its argument; the
page query goes on with the page size and the offset. -/
theorem filterValues_bound (server : ResultServer) :
    (∀ f g, SameFields f g →
      (∀ includeGeo includeJobFilter, (resultDataset server f includeGeo includeJobFilter).text =
        (resultDataset server g includeGeo includeJobFilter).text) ∧
      (countQuery server f.normalize).text = (countQuery server g.normalize).text ∧
      (pageQuery server f.normalize).text = (pageQuery server g.normalize).text) ∧
    (∀ filter includeGeo includeJobFilter,
      (resultDataset server filter includeGeo includeJobFilter).Bound server filter
        (conditions server filter includeGeo includeJobFilter).candidateConditions
        (conditions server filter includeGeo includeJobFilter).finalConditions) ∧
    ∀ filter,
      placeholders (countQuery server filter).text =
        List.range' 1 (countQuery server filter).args.length ∧
      ∃ ordered, (pageQuery server filter).text = (resultDataset server filter true true).text ++
          ordered ++ "\nLIMIT $" ++
            toString ((resultDataset server filter true true).args.length + 1) ++ " OFFSET $" ++
            toString ((resultDataset server filter true true).args.length + 2) ∧
        (pageQuery server filter).args = (resultDataset server filter true true).args ++
          [.int filter.pageSize, .int filter.offset.toInt] ∧
        placeholders (pageQuery server filter).text =
          List.range' 1 (pageQuery server filter).args.length := by
  refine ⟨fun f g h => ⟨fun includeGeo includeJobFilter => ?_, ?_, ?_⟩, bound_resultDataset server,
    fun filter => ⟨placeholders_countQuery server filter, _, text_pageQuery server filter, rfl,
      placeholders_pageQuery server filter⟩⟩
  · exact (h.resultDataset includeGeo includeJobFilter).1
  · have hsame := (@SameFields.resultDataset server _ _ h.normalize.counted true true).1
    exact congrArg (· ++ countStatuses) hsame
  · obtain ⟨htext, hlength⟩ := @SameFields.resultDataset server _ _ h.normalize true true
    have horder : resultOrder server f.normalize = resultOrder server g.normalize := by
      simp only [resultOrder, h.normalize.sort, h.normalize.order]
    rw [text_pageQuery, text_pageQuery, htext, hlength, horder]

/-- Two searches, one of them with what would be a condition if it were written into the text. -/
theorem filterValues_bound_search :
    (pageQuery twoJobsServer
        ({ openingFilter with targetIP := "' OR '1'='1" } : ResultFilter).normalize).text =
      (pageQuery twoJobsServer
        ({ openingFilter with targetIP := "104.16" } : ResultFilter).normalize).text := by
  refine ((filterValues_bound twoJobsServer).1 { openingFilter with targetIP := "' OR '1'='1" }
    { openingFilter with targetIP := "104.16" } ?_).2.2
  constructor <;> decide

end Sql

end Cfscan.Results
