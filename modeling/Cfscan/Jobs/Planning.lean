import Cfscan.Enrollment.Store
import Cfscan.Jobs.Store
import Cfscan.League.Evaluate
import Cfscan.League.Plan
import Cfscan.Lib.Fresh
import Cfscan.Targets.Usable

/-!
# `PlanLeagueTargets` — `internal/store/postgres/league.go`

Before a league job is created, one transaction brings the league entries of its agents and its
probe configuration up to date: all of them are deactivated, those of the current prefixes are
upserted as active, and these are read back with their statistics, evaluated and written. Then the
targets of each agent are planned from what was read.

`ResolveScanAgentIDs` is where the agent ids of a plan come from: its results are ids as
`id::text` prints them, which the comparisons `agent_id::text = ANY(…)` rely on.

The statistics are those of the last day's results of an entry's agent, prefix and configuration.
The averages and the percentile are the server's (`avgNumeric`, `avgDouble`, `percentileCont`) and
come with it, as the rounding of a `double precision` does. Times cross between the microseconds of
a `timestamptz` and Go's nanoseconds since the year 1 (`goTime`, `timestamp`).

The loops of `PlanAgent` are run for as many turns as `fuel` says, and `none` is a plan that has not
come to its end; `League.Soundness` shows that 10001 turns are enough. A query without `ORDER BY`
returns its rows in any order (`PlanQueries`).
-/

set_option autoImplicit false

namespace Cfscan.Jobs

open Cfscan.Lib Cfscan.Store Cfscan.Scan Cfscan.League
open Cfscan.League.Dashboard (LeagueKey LeagueRow LeagueServer sevenDays coalesce)

structure PlanServer extends LeagueServer where
  /-- `id::text`, which `uuid` reads back. -/
  uuidText : UUID → String
  uuid_text : ∀ id, uuid (uuidText id) = some id
  /-- The order of `agents.name`. -/
  collation : SortOrder String

/-! ## The agents of a scan -/

/-- `INTERVAL '45 seconds'`. -/
def onlineInterval : Timestamp := 45 * 1000000

def agentOrder (server : PlanServer) : SortOrder Enrollment.AgentRow :=
  server.collation.on Enrollment.AgentRow.name

def resolveScanAgentIDs (server : PlanServer) (byName : Arrangement (agentOrder server))
    (agents : Table UUID Enrollment.AgentRow Enrollment.AgentRow.id) (now : Timestamp)
    (requested : List String) : Except StoreError (List String) :=
  if requested = [] then
    let items := (byName.rows (agents.rows.filter fun a =>
      decide (now - onlineInterval ≤ a.lastSeenAt))).map fun a => server.uuidText a.id
    if items = [] then .error (.message "no online agents selected") else .ok items
  else
    let unique := fresh [] requested
    if unique.all Store.storable = false then .error (.db "validate scan agents" .valueRefused)
    else
      match unique.find? fun id => !agents.rows.any fun a => decide (server.uuidText a.id = id) with
      | some id => .error (.message ("scan agent " ++ id ++ " not found"))
      | none => .ok unique

/-! ## Times

`goTime` and `timestamp` shift and scale; a time that was read from the database goes back
to the same microsecond. -/

/-- From the Unix epoch to Go's zero time, in microseconds. -/
def unixToGo : Int := 62135596800 * 1000000

/-- A `timestamptz` as the driver returns it. -/
def goTime (t : Timestamp) : Time := (t + unixToGo) * 1000

/-- A `time.Time` as the driver sends it. -/
def timestamp (t : Time) : Timestamp := t / 1000 - unixToGo

@[simp] theorem timestamp_goTime (t : Timestamp) : timestamp (goTime t) = t := by
  unfold timestamp goTime
  rw [Int.mul_ediv_cancel _ (by decide), Int.add_sub_cancel]

/-! ## Deactivation and upsert

Two statements, and they name the agents differently: the first compares `agent_id::text`
with the texts of the request, the second casts each text to a uuid. For texts as the server
prints them that is the same. -/

/-- `model.CreateScanJobRequest`, with what only a plan reads. -/
structure LeagueRequest extends CreateScanJobRequest where
  includeIPv6 : Bool
  targetCount : Int

section Plan

variable (server : PlanServer) (input : LeagueRequest) (agentIDs : List String) (now : Timestamp)

/-- `agent_id::text = ANY($1::text[])`, and the configuration. -/
def inPlan (k : LeagueKey) : Bool :=
  decide (server.uuidText k.agentID ∈ agentIDs) && configures input.toCreateScanJobRequest k

def deactivateEntry (e : LeagueRow) : LeagueRow := { e with active := false, updatedAt := now }

@[simp] theorem key_deactivateEntry (e : LeagueRow) : (deactivateEntry now e).key = e.key := rfl

def deactivateStale (entries : Table LeagueKey LeagueRow LeagueRow.key) :
    Table LeagueKey LeagueRow LeagueRow.key :=
  entries.updateWhere (fun e => inPlan server input agentIDs e.key) (deactivateEntry now)
    (key_deactivateEntry now)

/-- The key of an upsert; `none` when a text is refused. -/
def leagueKey (agentID : String) (item : ModelPrefix) : Option LeagueKey := do
  let agent ← server.uuid agentID
  let prefixCIDR ← server.cidr item.cidr
  some ⟨agent, prefixCIDR, input.scheme, input.hostname, input.path, input.port, input.attempts,
    input.timeoutMS⟩

/-- The columns an insert leaves to their defaults. -/
def newEntry (k : LeagueKey) : LeagueRow where
  key := k
  tier := .observation
  active := true
  sampleCount := 0
  distinctIPCount := 0
  availabilityRate := 0
  latencyP95MS := 0
  packetLossAvg := 0
  recentSampleCount := 0
  recentAvailabilityRate := 0
  recentLatencyP95MS := 0
  recentPacketLossAvg := 0
  badStreak := 0
  lastResultAt := none
  lastScheduledAt := none
  lastEvaluatedAt := none
  updatedAt := now

/-- The row an upsert leaves under a key. -/
def activateEntry (k : LeagueKey) : Option LeagueRow → LeagueRow
  | some e => { e with active := true, updatedAt := now }
  | none => newEntry now k

/-- `INSERT … ON CONFLICT … DO UPDATE SET active = TRUE`. -/
def upsertEntry (agents : Agents) (entries : Table LeagueKey LeagueRow LeagueRow.key)
    (item : String × ModelPrefix) : Except StoreError (Table LeagueKey LeagueRow LeagueRow.key) :=
  match leagueKey server input item.1 item.2 with
  | none => .error (.db "upsert league prefixes" .castFailed)
  | some k =>
    if entries.find? k = none ∧ agents k.agentID = none then
      .error (.db "upsert league prefixes" .foreignKeyViolation)
    else .ok (entries.put (activateEntry now k (entries.find? k)))

/-- The batch: for every agent, every prefix that is active and of a wanted family. -/
def upserts (prefixes : List ModelPrefix) : List (String × ModelPrefix) :=
  agentIDs.flatMap fun agentID =>
    (prefixes.filter (Targets.wanted input.includeIPv6)).map fun item => (agentID, item)

/-! ## Loading, with the statistics -/

/-- `model.PrefixLeagueEntry`, with its configuration. -/
structure LeagueItem where
  entry : PrefixLeagueEntry
  scheme : String
  hostname : String
  path : String
  port : Int
  attempts : Int
  timeoutMS : Int
deriving DecidableEq, Repr

/-- `INTERVAL '24 hours'`. -/
def oneDay : Timestamp := 24 * 60 * minute

/-- The results of the plan since a time. -/
def planResults (s : ScanStore) (since : Timestamp) : List ScanResult :=
  s.results.rows.filter fun r =>
    r.targetPrefix.isSome && decide (server.uuidText r.agentID ∈ agentIDs) &&
      decide (since ≤ r.scannedAt) &&
      match s.jobs.find? r.jobID with
      | none => false
      | some j => decide (j.scheme = input.scheme ∧ j.hostname = input.hostname ∧
          j.path = input.path ∧ j.port = input.port ∧ j.attempts = input.attempts ∧
          j.timeoutMS = input.timeoutMS)

/-- The rows joined to an entry. -/
def ofEntry (results : List ScanResult) (k : LeagueKey) : List ScanResult :=
  results.filter fun r =>
    decide (r.agentID = k.agentID) && decide (r.targetPrefix = some k.prefixCIDR)

def availabilityRate (results : List ScanResult) : ℚ :=
  coalesce server.avgNumeric (results.map fun r => if r.available then 100 else 0)

def latencyP95 (results : List ScanResult) : ℚ :=
  coalesce (server.percentileCont (95 / 100))
    ((results.filter fun r => r.available).map fun r => r.latencyMS)

def packetLossAvg (results : List ScanResult) : ℚ :=
  coalesce server.avgDouble (results.map fun r => r.packetLoss)

def lastScanned (results : List ScanResult) : Option Timestamp :=
  (SortOrder.ofLinear Timestamp).max? (results.map fun r => r.scannedAt)

def loadItem (s : ScanStore) (e : LeagueRow) : LeagueItem :=
  let week := ofEntry (planResults server input agentIDs s (now - sevenDays)) e.key
  let day := ofEntry (planResults server input agentIDs s (now - oneDay)) e.key
  { entry :=
      { agentID := server.uuidText e.key.agentID
        prefixCIDR := e.key.prefixCIDR.text
        tier := e.tier
        active := e.active
        sampleCount := week.length
        distinctIPCount := (week.map ScanResult.targetIP).dedup.length
        availabilityRate := availabilityRate server week
        latencyP95MS := latencyP95 server week
        packetLossAvg := packetLossAvg server week
        recentSampleCount := day.length
        recentAvailabilityRate := availabilityRate server day
        recentLatencyP95MS := latencyP95 server day
        recentPacketLossAvg := packetLossAvg server day
        badStreak := e.badStreak
        lastResultAt := (lastScanned week).map goTime
        lastScheduledAt := e.lastScheduledAt.map goTime
        lastEvaluatedAt := e.lastEvaluatedAt.map goTime }
    scheme := e.key.scheme
    hostname := e.key.hostname
    path := e.key.path
    port := e.key.port
    attempts := e.key.attempts
    timeoutMS := e.key.timeoutMS }

/-- The rows of the query, in whatever order, and its `COUNT(*)::int`. -/
def loadLeagueEntries (order : AnyOrder LeagueRow) (s : ScanStore)
    (entries : Table LeagueKey LeagueRow LeagueRow.key) : Except StoreError (List LeagueItem) :=
  let items := (order.items (entries.rows.filter fun e =>
    e.active && inPlan server input agentIDs e.key)).map (loadItem server input agentIDs now s)
  if items.all fun item => int4 item.entry.sampleCount then .ok items
  else .error (.db "" .valueRefused)

/-! ## Evaluation and saving -/

def evaluateItem (item : LeagueItem) : LeagueItem :=
  { item with entry := evaluate item.entry ⟨input.maxLatencyMS, input.maxPacketLoss⟩ }

/-- The columns of the `UPDATE`, which leaves `last_scheduled_at`. -/
def saveEntry (entry : PrefixLeagueEntry) (e : LeagueRow) : LeagueRow :=
  { e with
    tier := entry.tier
    active := entry.active
    sampleCount := entry.sampleCount
    distinctIPCount := entry.distinctIPCount
    availabilityRate := entry.availabilityRate
    latencyP95MS := entry.latencyP95MS
    packetLossAvg := entry.packetLossAvg
    recentSampleCount := entry.recentSampleCount
    recentAvailabilityRate := entry.recentAvailabilityRate
    recentLatencyP95MS := entry.recentLatencyP95MS
    recentPacketLossAvg := entry.recentPacketLossAvg
    badStreak := entry.badStreak
    lastResultAt := entry.lastResultAt.map timestamp
    lastEvaluatedAt := entry.lastEvaluatedAt.map timestamp
    updatedAt := now }

@[simp] theorem key_saveEntry (entry : PrefixLeagueEntry) (e : LeagueRow) :
    (saveEntry now entry e).key = e.key := rfl

/-- One `UPDATE` of the batch. -/
def saveItem (entries : Table LeagueKey LeagueRow LeagueRow.key) (item : LeagueItem) :
    Except StoreError (Table LeagueKey LeagueRow LeagueRow.key) :=
  match server.uuid item.entry.agentID, server.cidr item.entry.prefixCIDR with
  | some agent, some prefixCIDR =>
    let k : LeagueKey := ⟨agent, prefixCIDR, item.scheme, item.hostname, item.path, item.port,
      item.attempts, item.timeoutMS⟩
    if int4 item.entry.badStreak = false then .error (.db "save league entries" .valueRefused)
    -- `CHECK (tier IN ('observation', 'challenger', 'champion'))`
    else if normalizedTier item.entry.tier ≠ item.entry.tier then
      .error (.db "save league entries" .checkViolation)
    else
      .ok (entries.updateWhere (fun e => decide (e.key = k)) (saveEntry now item.entry)
        (key_saveEntry now item.entry))
  | _, _ => .error (.db "save league entries" .castFailed)

/-! ## The candidates -/

/-- A row of `ip_stats`, without what the plan does not read. -/
structure CandidateStats where
  agentID : UUID
  prefixCIDR : Option Cidr
  targetIP : Inet
  availabilityRate : ℚ
  latencyP95MS : ℚ
  packetLossAvg : ℚ
  lastScannedAt : Timestamp
deriving DecidableEq, Repr

def CandidateStats.group (stats : CandidateStats) : UUID × Option Cidr :=
  (stats.agentID, stats.prefixCIDR)

def candidateStats (results : List ScanResult) : List CandidateStats :=
  (results.map fun r => (r.agentID, r.targetPrefix, r.targetIP)).dedup.map fun group =>
    let rows := results.filter fun r => decide ((r.agentID, r.targetPrefix, r.targetIP) = group)
    { agentID := group.1
      prefixCIDR := group.2.1
      targetIP := group.2.2
      availabilityRate := availabilityRate server rows
      latencyP95MS := latencyP95 server rows
      packetLossAvg := packetLossAvg server rows
      lastScannedAt := (lastScanned rows).getD 0 }

def candidateRank : SortOrder CandidateStats :=
  ((SortOrder.ofLinear ℚ).desc.on CandidateStats.availabilityRate).thenBy <|
  ((SortOrder.ofLinear ℚ).on CandidateStats.latencyP95MS).thenBy <|
  ((SortOrder.ofLinear ℚ).on CandidateStats.packetLossAvg).thenBy <|
  (SortOrder.ofLinear Timestamp).desc.on CandidateStats.lastScannedAt

/-- The best `perPrefix` of each agent and prefix, in the order of their rank. -/
def loadLeagueCandidates (ranks : Arrangement candidateRank) (s : ScanStore) (perPrefix : Nat) :
    List CandidateStats :=
  let stats := candidateStats server (planResults server input agentIDs s (now - sevenDays))
  (stats.map CandidateStats.group).dedup.flatMap fun group =>
    (ranks.rows (stats.filter fun c => decide (c.group = group))).take perPrefix

/-! ## The plan

The transaction is over when the plan is made: `planLeagueTargets` returns targets, and the
job they are for is created by another call, later. -/

/-- What the server decides where a query does not. -/
structure PlanQueries where
  entries : AnyOrder LeagueRow
  ranks : Arrangement candidateRank

/-- The transaction: the evaluated entries, the candidates and the tables. -/
def planEntries (queries : PlanQueries) (agents : Agents) (s : JobStore)
    (prefixes : List ModelPrefix) :
    Except StoreError ((List LeagueItem × List CandidateStats) × JobStore) :=
  if agentIDs = [] then .error (.message "no scan agents selected")
  else if (([input.scheme, input.hostname, input.path] ++ agentIDs).all Store.storable &&
      [input.port, input.attempts, input.timeoutMS].all int4) = false then
    .error (.db "deactivate stale league prefixes" .valueRefused)
  else do
    let entries := deactivateStale server input agentIDs now s.entries
    let entries ← (upserts input agentIDs prefixes).foldlM (upsertEntry server input now agents)
      entries
    let items ← loadLeagueEntries server input agentIDs now queries.entries s.scan entries
    let items := items.map (evaluateItem input)
    let entries ← items.foldlM (saveItem server now) entries
    let candidates := loadLeagueCandidates server input agentIDs now queries.ranks s.scan 2
    return ((items, candidates), { s with entries := entries })

/-- The candidates of one agent, by the text of their prefix. -/
def candidatesOf (candidates : List CandidateStats) (agentID text : String) :
    List LeagueCandidate :=
  (candidates.filter fun c => decide (server.uuidText c.agentID = agentID) &&
    decide (c.prefixCIDR.map Cidr.text = some text)).map fun c => ⟨c.targetIP.host⟩

/-- The loop over the agents; `none` is a plan that is not returned. -/
def planTargets (rt : Runtime) (seed : String) (force : Bool) (fuel : Nat)
    (items : List LeagueItem) (candidates : List CandidateStats) :
    Option (List AgentScanTargets) :=
  agentIDs.mapM fun agentID => do
    let entries := (items.map LeagueItem.entry).filter fun entry => decide (entry.agentID = agentID)
    let targets ← planAgent rt entries (candidatesOf server candidates agentID)
      ⟨rt.clock, seed ++ "|" ++ agentID, input.targetCount, force⟩ fuel
    return ⟨agentID, targets⟩

def planLeagueTargets (queries : PlanQueries) (rt : Runtime) (agents : Agents) (s : JobStore)
    (prefixes : List ModelPrefix) (seed : String) (force : Bool) (fuel : Nat) :
    Except StoreError (Option (List AgentScanTargets)) × JobStore :=
  match planEntries server input agentIDs now queries agents s prefixes with
  | .error error => (.error error, s)
  | .ok ((items, candidates), s') =>
    (.ok (planTargets server input agentIDs rt seed force fuel items candidates), s')

end Plan

end Cfscan.Jobs
