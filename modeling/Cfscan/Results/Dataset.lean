import Cfscan.Results.Store
import Mathlib.Data.List.Dedup

/-!
# The result queries — `internal/store/postgres/store.go`

`resultDataset` assembles a query: conditions with numbered placeholders, and the list of their
arguments. A condition is a column and the position of its argument here, and a query is evaluated
by looking the arguments up, so that a wrong number would show. `ListResults` runs it twice, for
the counts without the availability and for the page, whose limit and offset come behind the
arguments of the conditions; `ListResultJobFacets` runs it without the job. The page and its size
are Go's `int`: the offset wraps round, and a negative one is refused.

`Candidate` and `Final` say what the conditions are meant to be, and `Passes` which rows a filter
is for.

The conditions are added in the order of the source, which decides the number each of them has, and
those on the place come last. A row of the result is a row of the join; the texts and numbers the
page makes of it are its columns.

Rows that no clause tells apart may come in any order, and an `Executor` says in which: it has an
arrangement for every order a query may ask for.
-/

set_option autoImplicit false

namespace Cfscan.Results

open Cfscan.Lib Cfscan.Store

structure ResultFilter where
  view : String
  agentID : String
  jobID : String
  region : String
  continent : String
  targetIP : String
  colo : String
  coloCity : String
  coloCountry : String
  coloContinent : String
  available : Option Bool
  since : Option Timestamp
  page : Int
  pageSize : Int
  sort : String
  order : String
deriving DecidableEq, Repr

/-! ## Conditions

A clause only has a position. What it compares with is looked up when the query runs, and
behind the last argument it finds nothing and holds of no row, so that nothing here assumes
the numbering to be right. -/

inductive Arg where
  | text (value : String)
  | time (value : Timestamp)
  | bool (value : Bool)
  | int (value : Int)
deriving DecidableEq, Repr

inductive Column where
  | agentID
  | jobID
  | region
  | continent
  | targetIP
  | since
  | available
  | colo
  | coloCity
  | coloCountry
  | coloContinent
deriving DecidableEq, Repr

/-- What the condition on a column says of a row, for the value of its argument. -/
def Column.holds (server : ResultServer) (row : ResultRow) : Column → Arg → Bool
  | .agentID, .text value => decide (server.uuid value = some row.r.agentID)
  | .jobID, .text value => decide (server.uuid value = row.r.jobID)
  | .region, .text value => decide (row.a.region = value)
  | .continent, .text value => decide (row.a.continent = value)
  | .targetIP, .text value => server.ilikeWithin row.targetIP value
  | .since, .time value => decide (value ≤ row.r.scannedAt)
  | .available, .bool value => decide (row.r.available = value)
  | .colo, .text value => decide (row.r.colo = value)
  | .coloCity, .text value => decide (row.coloCity = value)
  | .coloCountry, .text value => decide (row.coloCountry = value)
  | .coloContinent, .text value => decide (row.coloContinent = value)
  | _, _ => false

/-- Whether the server takes the argument. -/
def Column.refuses (server : ResultServer) : Column → Arg → Option DbError
  | .agentID, .text value => if server.uuid value = none then some .castFailed else none
  | .jobID, .text value => if server.uuid value = none then some .castFailed else none
  | _, .text value => if storable value = false then some .valueRefused else none
  | _, _ => none

structure Clause where
  column : Column
  position : Nat
deriving DecidableEq, Repr

def Clause.holds (server : ResultServer) (args : List Arg) (row : ResultRow) (clause : Clause) :
    Bool :=
  match args[clause.position - 1]? with
  | some value => clause.column.holds server row value
  | none => false

def Clause.refuses (server : ResultServer) (args : List Arg) (clause : Clause) : Option DbError :=
  match args[clause.position - 1]? with
  | some value => clause.column.refuses server value
  | none => none

structure Conditions where
  candidate : List Clause
  final : List Clause
  args : List Arg
deriving DecidableEq, Repr

namespace Conditions

def empty : Conditions := ⟨[], [], []⟩

def addCandidate (c : Conditions) (column : Column) (value : Arg) : Conditions where
  args := c.args ++ [value]
  candidate := c.candidate ++ [⟨column, c.args.length + 1⟩]
  final := c.final

def addFinal (c : Conditions) (column : Column) (value : Arg) : Conditions where
  args := c.args ++ [value]
  candidate := c.candidate
  final := c.final ++ [⟨column, c.args.length + 1⟩]

end Conditions

/-! ## The query

The three switches of the source are kept: the place is left out for the facets of places,
the job for the selector, and the view decides whether only the first of each group goes on.
The ranking is over the rows that meet the first kind of conditions, before the second kind. -/

structure Dataset where
  conditions : Conditions
  /-- One row of each group, the latest. -/
  latest : Bool
deriving DecidableEq, Repr

def resultDataset (server : ResultServer) (filter : ResultFilter)
    (includeGeo includeJobFilter : Bool) : Dataset :=
  let c := Conditions.empty
  let c := if filter.agentID ≠ "" then c.addCandidate .agentID (.text filter.agentID) else c
  let c := if includeJobFilter = true ∧ filter.jobID ≠ "" then
    c.addCandidate .jobID (.text filter.jobID) else c
  let c := if filter.region ≠ "" then c.addCandidate .region (.text filter.region) else c
  let c := if filter.continent ≠ "" then c.addCandidate .continent (.text filter.continent) else c
  let c := if filter.targetIP ≠ "" then c.addCandidate .targetIP (.text filter.targetIP) else c
  let c := match filter.since with
    | some since => c.addCandidate .since (.time since)
    | none => c
  let c := match filter.available with
    | some available => c.addFinal .available (.bool available)
    | none => c
  let c := if includeGeo = true ∧ filter.colo ≠ "" then
    c.addFinal .colo (.text (server.toUpper filter.colo)) else c
  let c := if includeGeo = true ∧ filter.coloCity ≠ "" then
    c.addFinal .coloCity (.text filter.coloCity) else c
  let c := if includeGeo = true ∧ filter.coloCountry ≠ "" then
    c.addFinal .coloCountry (.text filter.coloCountry) else c
  let c := if includeGeo = true ∧ filter.coloContinent ≠ "" then
    c.addFinal .coloContinent (.text filter.coloContinent) else c
  ⟨c, decide (filter.view = "latest")⟩

/-- The columns of `PARTITION BY`. -/
structure ResultGroup where
  agentID : UUID
  targetIP : Inet
  scheme : String
  hostname : String
  path : String
  port : Int
  attempts : Int
  timeoutMS : Int
deriving DecidableEq, Repr

def ResultRow.group (row : ResultRow) : ResultGroup where
  agentID := row.r.agentID
  targetIP := row.r.targetIP
  scheme := row.j.scheme
  hostname := row.j.hostname
  path := row.j.path
  port := row.j.port
  attempts := row.j.attempts
  timeoutMS := row.j.timeoutMS

/-- `row` comes before `other` under `ORDER BY r.scanned_at DESC, r.id DESC`. -/
def ResultRow.newer (row other : ResultRow) : Bool :=
  decide (other.r.scannedAt < row.r.scannedAt) ||
    decide (other.r.scannedAt = row.r.scannedAt) && decide (other.r.id < row.r.id)

/-- `ROW_NUMBER()` among some rows. -/
def ResultRow.rank (rows : List ResultRow) (row : ResultRow) : Nat :=
  1 + rows.countP fun other => decide (other.group = row.group) && other.newer row

namespace Dataset

variable (server : ResultServer) (d : Dataset) (args : List Arg) (s : ResultStore)

/-- `result_candidates`. -/
def candidates : List ResultRow :=
  s.joined.filter fun row => d.conditions.candidate.all (Clause.holds server args row)

/-- `result_selected`. -/
def selected : List ResultRow :=
  if d.latest then (d.candidates server args s).filter fun row =>
    decide (row.rank (d.candidates server args s) = 1)
  else d.candidates server args s

/-- `result_filtered`. -/
def filtered : List ResultRow :=
  (d.selected server args s).filter fun row =>
    d.conditions.final.all (Clause.holds server args row)

/-- The query with its arguments: refused with one of them, or run. -/
def query : Except DbError (List ResultRow) :=
  match (d.conditions.candidate ++ d.conditions.final).findSome? (Clause.refuses server args) with
  | some error => .error error
  | none => .ok (d.filtered server args s)

end Dataset

/-! ## `ListResults`

The defaults are put in once more, for callers other than the handler. The count query runs
first, and its errors end the call before the page is asked for; the offset is computed in
between and is refused by the server, not by the source. -/

def byID : SortOrder ResultRow := (SortOrder.ofLinear Int).desc.on fun row => row.r.id

/-- `scanned_at DESC, id DESC`. -/
def byTime : SortOrder ResultRow :=
  ((SortOrder.ofLinear Timestamp).desc.on fun row => row.r.scannedAt).thenBy byID

/-- `ASC`, or `DESC` when the filter asks for it. -/
def ResultFilter.ordered (server : ResultServer) (filter : ResultFilter)
    (o : SortOrder ResultRow) : SortOrder ResultRow :=
  if server.equalFold filter.order "desc" then o.desc else o

def resultOrder (server : ResultServer) (filter : ResultFilter) : SortOrder ResultRow :=
  let ordered := filter.ordered server
  if filter.sort = "target_ip" then
    (ordered (server.collation.on ResultRow.targetIP)).thenBy byTime
  else if filter.sort = "agent_name" then
    (ordered (server.collation.on fun row => row.a.name)).thenBy byTime
  else if filter.sort = "colo" then
    (ordered (server.collation.on fun row => row.r.colo)).thenBy byTime
  else if filter.sort = "available" then
    (ordered ((SortOrder.ofLinear Bool).on fun row => row.r.available)).thenBy byTime
  else if filter.sort = "packet_loss" then
    (ordered ((SortOrder.ofLinear ℚ).on fun row => row.r.packetLoss)).thenBy byTime
  else if filter.sort = "http_status" then
    (ordered ((SortOrder.ofLinear Int).on fun row => row.r.httpStatus)).thenBy byTime
  else if filter.sort = "scanned_at" then
    (ordered ((SortOrder.ofLinear Timestamp).on fun row => row.r.scannedAt)).thenBy byID
  else
    -- Failed rows always remain behind usable results when sorting latency.
    ((SortOrder.ofLinear Bool).desc.on fun row => row.r.available).thenBy
      ((ordered ((SortOrder.ofLinear ℚ).on fun row => row.r.latencyMS)).thenBy byTime)

structure ResultStatusCounts where
  all : Nat
  available : Nat
  failed : Nat
deriving DecidableEq, Repr

structure ResultPage where
  items : List ResultRow
  total : Nat
  page : Int
  pageSize : Int
  totalPages : Int
  counts : ResultStatusCounts
deriving DecidableEq, Repr

/-- The rows behind `LIMIT $m OFFSET $n`, for a limit and an offset that are not negative. -/
def limitOffset {ρ : Type} (args : List Arg) (m n : Nat) (rows : List ρ) : List ρ :=
  match args[m - 1]?, args[n - 1]? with
  | some (.int limit), some (.int offset) => (rows.drop offset.toNat).take limit.toNat
  | _, _ => []

/-- How one query arranges rows, whatever it is ordered by. -/
abbrev Executor := (o : SortOrder ResultRow) → Arrangement o

/-- The defaults `ListResults` puts in. -/
def ResultFilter.normalize (filter : ResultFilter) : ResultFilter :=
  { filter with
    page := if filter.page ≤ 0 then 1 else filter.page
    pageSize := if filter.pageSize ≤ 0 ∨ filter.pageSize > 200 then 50 else filter.pageSize
    view := if filter.view ≠ "history" then "latest" else filter.view }

def ResultStatusCounts.select (counts : ResultStatusCounts) : Option Bool → Nat
  | none => counts.all
  | some true => counts.available
  | some false => counts.failed

/-- How `ListResults` fails: under the context of one of its queries; or, when the rows of the page
are read, with the server's `OFFSET must not be negative`, which is passed on as it is. -/
inductive ListError where
  | store (error : StoreError)
  | negativeOffset
deriving DecidableEq, Repr

/-- `(filter.Page-1)*filter.PageSize`, which wraps round. -/
def ResultFilter.offset (filter : ResultFilter) : Int64 :=
  (Int64.ofInt filter.page - 1) * Int64.ofInt filter.pageSize

/-- `int((total + int64(filter.PageSize) - 1) / int64(filter.PageSize))`. -/
def totalPages (total : Nat) (pageSize : Int) : Int :=
  let total := Int64.ofNat total
  if total > 0 then ((total + Int64.ofInt pageSize - 1) / Int64.ofInt pageSize).toInt else 0

/-- `LIMIT $m OFFSET $n`, with an offset that may be negative. -/
def pageRows {ρ : Type} (args : List Arg) (m n : Nat) (rows : List ρ) :
    Except ListError (List ρ) :=
  match args[n - 1]? with
  | some (.int offset) =>
    if offset < 0 then .error .negativeOffset else .ok (limitOffset args m n rows)
  | _ => .ok []

/-- `ListResults` from the defaults on. -/
def listPage (server : ResultServer) (s : ResultStore) (executor : Executor)
    (filter : ResultFilter) : Except ListError ResultPage :=
  let countBase := resultDataset server { filter with available := none } true true
  match countBase.query server countBase.conditions.args s with
  | .error error => .error (.store (.db "count results" error))
  | .ok counted =>
    let counts : ResultStatusCounts :=
      ⟨counted.length, counted.countP fun row => row.r.available,
        counted.countP fun row => !row.r.available⟩
    let total := counts.select filter.available
    let base := resultDataset server filter true true
    let pageArgs := base.conditions.args ++
      [.int filter.pageSize, .int filter.offset.toInt]
    let limitPosition := base.conditions.args.length + 1
    let offsetPosition := base.conditions.args.length + 2
    match base.query server pageArgs s with
    | .error error => .error (.store (.db "list results" error))
    | .ok rows =>
      match pageRows pageArgs limitPosition offsetPosition
          ((executor (resultOrder server filter)).rows rows) with
      | .error error => .error error
      | .ok items => .ok
        { items := items
          total := total
          page := filter.page
          pageSize := filter.pageSize
          totalPages := totalPages total filter.pageSize
          counts := counts }

def listResults (server : ResultServer) (s : ResultStore) (executor : Executor)
    (filter : ResultFilter) : Except ListError ResultPage :=
  listPage server s executor filter.normalize

/-! ## `ListResultJobFacets` -/

structure ResultJobFacet where
  id : UUID
  name : String
  kind : String
  count : Nat
  createdAt : Timestamp
deriving DecidableEq, Repr

/-- The group of one `job_id`. -/
def jobFacet (server : ResultServer) (rows : List ResultRow) (jobID : UUID) : ResultJobFacet :=
  let group := rows.filter fun row => decide (row.j.id = jobID)
  { id := jobID
    name := (server.collation.max? (group.map fun row => row.j.name)).getD ""
    kind := (server.collation.max? (group.map fun row => row.j.kind)).getD ""
    count := group.length
    createdAt := ((SortOrder.ofLinear Timestamp).max? (group.map fun row => row.j.createdAt)).getD 0 }

/-- `GROUP BY job_id`. -/
def jobFacets (server : ResultServer) (rows : List ResultRow) : List ResultJobFacet :=
  (rows.map fun row => row.j.id).dedup.map (jobFacet server rows)

def byCreation : SortOrder ResultJobFacet :=
  (SortOrder.ofLinear Timestamp).desc.on ResultJobFacet.createdAt

def listResultJobFacets (server : ResultServer) (s : ResultStore)
    (arrangement : Arrangement byCreation) (filter : ResultFilter) :
    Except StoreError (List ResultJobFacet) :=
  let filter := { filter with view := if filter.view ≠ "history" then "latest" else filter.view }
  let base := resultDataset server filter true false
  match base.query server base.conditions.args s with
  | .error error => .error (.db "list result job facets" error)
  | .ok rows => .ok (arrangement.rows (jobFacets server rows))

/-- `listResultJobs` of the API. -/
def listResultJobs (server : ResultServer) (s : ResultStore) (arrangement : Arrangement byCreation)
    (filter : ResultFilter) : Except StoreError (List ResultJobFacet) :=
  -- A selected job must not remove every other job from the selector itself.
  listResultJobFacets server s arrangement { filter with jobID := "" }

end Cfscan.Results
