import Cfscan.League.Entry
import Cfscan.Lib.Top
import Cfscan.Results.Dataset

/-!
# The league dashboard — `internal/store/postgres/league.go`

`GetLeagueDashboard` runs four queries: the active entries counted by tier, a page of them, the
number of candidates and a page of those. A candidate is one of the two best addresses of a
champion or challenger entry over seven days of results, and it is selected anew by every query.

The rows have the columns of `prefix_league_entries`, under its primary key of eight. The server's
part is passed in: the orders of `cidr` and `inet`, and its aggregates, whose rounding is its own.
A query's choices among rows its clauses do not tell apart are `LeagueQueries`.

The four queries of a call read one state of the tables, and one `NOW()`. In the source they are
four statements on a pool of connections, and another statement may commit between two of them; a
summary and a page can then be of different states. What is said of the pages is about a table that
stands still, which is also what a reader turning the pages would have to hope for.

Two pages of one listing come from two calls, and these may arrange ties differently. That is why
`LeagueQueries` belongs to a call and not to the server.
-/

set_option autoImplicit false

namespace Cfscan.League.Dashboard

open Cfscan.Lib Cfscan.Store
open Cfscan.Results (Agent ScanJob ScanResult Arg limitOffset)

structure LeagueKey where
  agentID : UUID
  prefixCIDR : Cidr
  scheme : String
  hostname : String
  path : String
  port : Int
  attempts : Int
  timeoutMS : Int
deriving DecidableEq, Repr

structure LeagueRow where
  key : LeagueKey
  tier : Tier
  active : Bool
  sampleCount : Int
  distinctIPCount : Int
  availabilityRate : ℚ
  latencyP95MS : ℚ
  packetLossAvg : ℚ
  recentSampleCount : Int
  recentAvailabilityRate : ℚ
  recentLatencyP95MS : ℚ
  recentPacketLossAvg : ℚ
  badStreak : Int
  lastResultAt : Option Timestamp
  lastScheduledAt : Option Timestamp
  lastEvaluatedAt : Option Timestamp
  updatedAt : Timestamp
deriving DecidableEq, Repr

structure LeagueStore where
  entries : Table LeagueKey LeagueRow LeagueRow.key
  agents : Table UUID Agent Agent.id
  jobs : Table UUID ScanJob ScanJob.id
  results : Table Int ScanResult ScanResult.id
  /-- `REFERENCES agents(id)`. -/
  references : ∀ e ∈ entries.rows, (agents.find? e.key.agentID).isSome
  /-- `CHECK (tier IN ('observation', 'challenger', 'champion'))`. -/
  checked : ∀ e ∈ entries.rows, normalizedTier e.tier = e.tier

structure LeagueServer extends Postgres where
  cidrOrder : SortOrder Cidr
  inetOrder : SortOrder Inet
  /-- `AVG` of a `numeric`, as `float8`. -/
  avgNumeric : List ℚ → ℚ
  /-- `AVG` of a `double precision`. -/
  avgDouble : List ℚ → ℚ
  percentileCont : ℚ → List ℚ → ℚ

/-! ## The agent filter

The filter is an argument of every query or of none, and the position of the limit and the
offset depends on it. A text that is no uuid is refused by the first query that casts it. -/

structure LeagueDashboardFilter where
  agentID : String
  prefixPage : Int
  prefixPageSize : Int
  candidatePage : Int
  candidatePageSize : Int
deriving DecidableEq, Repr

/-- The arguments the filter adds, and the position of `e.agent_id = $n::uuid`. -/
def agentCondition (filter : LeagueDashboardFilter) : List Arg × Option Nat :=
  if filter.agentID ≠ "" then
    let args := [.text filter.agentID]
    (args, some args.length)
  else ([], none)

def inAgent (server : LeagueServer) (args : List Arg) (position : Option Nat) (e : LeagueRow) :
    Bool :=
  match position with
  | none => true
  | some n =>
    match args[n - 1]? with
    | some (.text value) => decide (server.uuid value = some e.key.agentID)
    | _ => false

/-- A query with these arguments: refused for its uuid, or run. -/
def run {α : Type} (server : LeagueServer) (context : String) (args : List Arg)
    (position : Option Nat) (rows : α) : Except StoreError α :=
  match position with
  | none => .ok rows
  | some n =>
    match args[n - 1]? with
    | some (.text value) =>
      if server.uuid value = none then .error (.db context .castFailed) else .ok rows
    | _ => .ok rows

/-! ## The pages of entries -/

/-- A row of `prefix_league_entries e JOIN agents a`. -/
structure PrefixRow where
  e : LeagueRow
  a : Agent
deriving DecidableEq, Repr

/-- `CASE e.tier WHEN 'champion' THEN 0 WHEN 'challenger' THEN 1 ELSE 2 END`. -/
def prefixTier : Tier → Nat
  | .champion => 0
  | .challenger => 1
  | _ => 2

def prefixOrder (server : LeagueServer) : SortOrder PrefixRow :=
  ((SortOrder.ofLinear Nat).on fun row : PrefixRow => prefixTier row.e.tier).thenBy <|
  ((SortOrder.ofLinear ℚ).desc.on fun row : PrefixRow => row.e.availabilityRate).thenBy <|
  ((SortOrder.ofLinear ℚ).on fun row : PrefixRow => row.e.latencyP95MS).thenBy <|
  (server.cidrOrder.on fun row : PrefixRow => row.e.key.prefixCIDR).thenBy <|
  (SortOrder.ofLinear UUID).on fun row : PrefixRow => row.e.key.agentID

variable (server : LeagueServer) (s : LeagueStore) (now : Timestamp) (args : List Arg)
  (position : Option Nat)

/-- `e.active AND e.agent_id = $n::uuid`. -/
def activeEntries : List LeagueRow :=
  s.entries.rows.filter fun e => e.active && inAgent server args position e

def joinEntry (e : LeagueRow) : Option PrefixRow :=
  (s.agents.find? e.key.agentID).map fun a => ⟨e, a⟩

def prefixRows : List PrefixRow := (activeEntries server s args position).filterMap (joinEntry s)

/-! ## The pages of candidates

Grouped by agent, probe, prefix and address, ranked within the entry, cut behind the second,
and joined to the entry again. The order of the ranking leaves ties, and so does the order
of the page; they are two choices of the server. -/

structure Sample where
  e : LeagueRow
  r : ScanResult
deriving DecidableEq, Repr

/-- `JOIN scan_jobs j` with the configuration of the entry. -/
def sameProbe (e : LeagueRow) (r : ScanResult) : Bool :=
  match r.jobID.bind s.jobs.find? with
  | none => false
  | some j =>
    decide (j.scheme = e.key.scheme ∧ j.hostname = e.key.hostname ∧ j.path = e.key.path ∧
      j.port = e.key.port ∧ j.attempts = e.key.attempts ∧ j.timeoutMS = e.key.timeoutMS)

/-- `INTERVAL '7 days'`. -/
def sevenDays : Timestamp := 7 * 24 * 60 * minute

def samples : List Sample :=
  ((activeEntries server s args position).filter fun e =>
    decide (e.tier = .champion ∨ e.tier = .challenger)).flatMap fun e =>
      (s.results.rows.filter fun r =>
        decide (r.agentID = e.key.agentID ∧ r.targetPrefix = some e.key.prefixCIDR) &&
          sameProbe s e r && decide (now - sevenDays ≤ r.scannedAt)).map (Sample.mk e)

/-- The columns of `GROUP BY`. -/
structure IPGroup where
  key : LeagueKey
  tier : Tier
  targetIP : Inet
deriving DecidableEq, Repr

def Sample.group (sample : Sample) : IPGroup where
  key := sample.e.key
  tier := sample.e.tier
  targetIP := sample.r.targetIP

structure IPStats where
  group : IPGroup
  sampleCount : Nat
  availabilityRate : ℚ
  latencyP95MS : ℚ
  packetLossAvg : ℚ
  lastScannedAt : Timestamp
deriving DecidableEq, Repr

/-- `COALESCE(…, 0)` of an aggregate, which is `NULL` over no rows. -/
def coalesce (aggregate : List ℚ → ℚ) : List ℚ → ℚ
  | [] => 0
  | values => aggregate values

/-- The results of a group. -/
def groupResults (samples : List Sample) (group : IPGroup) : List ScanResult :=
  (samples.filter fun sample => decide (sample.group = group)).map Sample.r

def ipStatsOf (samples : List Sample) (group : IPGroup) : IPStats :=
  let results := groupResults samples group
  { group := group
    sampleCount := results.length
    availabilityRate :=
      coalesce server.avgNumeric (results.map fun r => if r.available then 100 else 0)
    latencyP95MS := coalesce (server.percentileCont (95 / 100))
      ((results.filter fun r => r.available).map fun r => r.latencyMS)
    packetLossAvg := coalesce server.avgDouble (results.map fun r => r.packetLoss)
    lastScannedAt :=
      ((SortOrder.ofLinear Timestamp).max? (results.map fun r => r.scannedAt)).getD 0 }

/-- `ip_stats`, with `HAVING COUNT(*) >= 2`. -/
def ipStats : List IPStats :=
  ((((samples server s now args position).map Sample.group).dedup).map
    (ipStatsOf server (samples server s now args position))).filter fun stats =>
      decide (2 ≤ stats.sampleCount)

def rankOrder : SortOrder IPStats :=
  ((SortOrder.ofLinear ℚ).desc.on IPStats.availabilityRate).thenBy <|
  ((SortOrder.ofLinear ℚ).on IPStats.latencyP95MS).thenBy <|
  ((SortOrder.ofLinear ℚ).on IPStats.packetLossAvg).thenBy <|
  (SortOrder.ofLinear Timestamp).desc.on IPStats.lastScannedAt

/-- `selected`: `candidate_rank <= 2`. -/
def selected (ranks : Arrangement rankOrder) : List IPStats :=
  top ranks (fun stats => stats.group.key) 2 (ipStats server s now args position)

/-- A row of `selected s JOIN agents a`. -/
structure CandidateRow where
  stats : IPStats
  a : Agent
deriving DecidableEq, Repr

def joinStats (stats : IPStats) : Option CandidateRow :=
  (s.agents.find? stats.group.key.agentID).map fun a => ⟨stats, a⟩

/-- `CASE s.tier WHEN 'champion' THEN 0 ELSE 1 END`. -/
def candidateTier : Tier → Nat
  | .champion => 0
  | _ => 1

def candidateOrder : SortOrder CandidateRow :=
  ((SortOrder.ofLinear Nat).on fun row : CandidateRow => candidateTier row.stats.group.tier).thenBy <|
  ((SortOrder.ofLinear ℚ).desc.on fun row : CandidateRow => row.stats.availabilityRate).thenBy <|
  ((SortOrder.ofLinear ℚ).on fun row : CandidateRow => row.stats.latencyP95MS).thenBy <|
  ((SortOrder.ofLinear UUID).on fun row : CandidateRow => row.stats.group.key.agentID).thenBy <|
  (server.cidrOrder.on fun row : CandidateRow => row.stats.group.key.prefixCIDR).thenBy <|
  server.inetOrder.on fun row : CandidateRow => row.stats.group.targetIP

/-- `ORDER BY r.scanned_at DESC` of `array_agg`. -/
def newestFirst : SortOrder ScanResult :=
  (SortOrder.ofLinear Timestamp).desc.on ScanResult.scannedAt

structure LeagueCandidate where
  row : CandidateRow
  colo : String
deriving DecidableEq, Repr

/-- The colo of a candidate, which no clause orders by. -/
def withColo (samples : List Sample) (newest : Arrangement newestFirst) (row : CandidateRow) :
    LeagueCandidate where
  row := row
  colo := ((newest.rows (groupResults samples row.stats.group)).head?.map ScanResult.colo).getD ""

/-! ## The dashboard

The number of pages and the page itself are fitted to the total before the page is asked
for, so that a page behind the last one shows the last one. -/

/-- How the queries of one call arrange tied rows. -/
structure LeagueQueries (server : LeagueServer) where
  prefixes : Arrangement (prefixOrder server)
  counted : Arrangement rankOrder
  ranks : Arrangement rankOrder
  candidates : Arrangement (candidateOrder server)
  newest : Arrangement newestFirst

def leaguePageSize (pageSize : Int) : Int := if pageSize < 1 ∨ pageSize > 500 then 50 else pageSize

/-- The page, the number of pages and the offset. -/
def normalizeLeaguePage (total page pageSize : Int) : Int × Int × Int :=
  let pageSize := leaguePageSize pageSize
  let page := if page < 1 then 1 else page
  if total = 0 then (1, 0, 0)
  else
    let totalPages := (total + pageSize - 1) / pageSize
    let page := if page > totalPages then totalPages else page
    (page, totalPages, (page - 1) * pageSize)

structure LeagueSummary where
  observationPrefixes : Nat
  challengerPrefixes : Nat
  championPrefixes : Nat
  candidateIPs : Nat
deriving DecidableEq, Repr

structure LeaguePage (ρ : Type) where
  items : List ρ
  total : Nat
  page : Int
  pageSize : Int
  totalPages : Int
deriving DecidableEq, Repr

structure LeagueDashboard where
  summary : LeagueSummary
  prefixes : LeaguePage PrefixRow
  candidates : LeaguePage LeagueCandidate
deriving DecidableEq, Repr

/-- The limit and the offset of a page come behind the other arguments. -/
def pageArgs (args : List Arg) (total page pageSize : Int) : List Arg :=
  args ++ [.int (leaguePageSize pageSize), .int (normalizeLeaguePage total page pageSize).2.2]

def leaguePage {ρ : Type} (args : List Arg) (total : Nat) (page pageSize : Int) (rows : List ρ) :
    LeaguePage ρ where
  items := limitOffset args (args.length - 1) args.length rows
  total := total
  page := (normalizeLeaguePage total page pageSize).1
  pageSize := leaguePageSize pageSize
  totalPages := (normalizeLeaguePage total page pageSize).2.1

def getLeagueDashboard (queries : LeagueQueries server) (filter : LeagueDashboardFilter) :
    Except StoreError LeagueDashboard := do
  let filterArgs := (agentCondition filter).1
  let position := (agentCondition filter).2
  let active ← run server "summarize league prefixes" filterArgs position
    (activeEntries server s filterArgs position)
  let observation := active.countP fun e => decide (e.tier = .observation)
  let challenger := active.countP fun e => decide (e.tier = .challenger)
  let champion := active.countP fun e => decide (e.tier = .champion)
  let prefixTotal := observation + challenger + champion
  let prefixArgs := pageArgs filterArgs prefixTotal filter.prefixPage filter.prefixPageSize
  let prefixes ← run server "list league prefixes" prefixArgs position
    (queries.prefixes.rows (prefixRows server s prefixArgs position))
  let counted ← run server "count league candidates" filterArgs position
    (selected server s now filterArgs position queries.counted)
  let candidateTotal := counted.length
  let candidateArgs := pageArgs filterArgs candidateTotal filter.candidatePage
    filter.candidatePageSize
  let candidates ← run server "list league candidates" candidateArgs position
    (queries.candidates.rows
      ((selected server s now candidateArgs position queries.ranks).filterMap (joinStats s)))
  let page := leaguePage candidateArgs candidateTotal filter.candidatePage
    filter.candidatePageSize candidates
  return {
    summary := ⟨observation, challenger, champion, candidateTotal⟩
    prefixes := leaguePage prefixArgs prefixTotal filter.prefixPage filter.prefixPageSize prefixes
    candidates := { page with
      items := page.items.map
        (withColo (samples server s now candidateArgs position) queries.newest) } }

end Cfscan.League.Dashboard
