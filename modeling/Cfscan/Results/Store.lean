import Cfscan.Lib.Page
import Cfscan.Lib.Table
import Cfscan.Store.Postgres
import Mathlib.Algebra.Order.Ring.Rat

/-!
# What a listing of results reads — `internal/store/postgres/schema.sql`

The tables behind `ListResults` and its facets, with the columns these read, and the join they
start from. The server's text order, its `ILIKE` and the functions of Go's `strings` are passed in.
A `double precision` column is read as the rational it holds.

The joins are on primary keys, so that a result is in at most one row. It is in one if it has an
agent and a job; the place may be missing, and its texts are empty then.
-/

set_option autoImplicit false

namespace Cfscan.Results

open Cfscan.Lib Cfscan.Store

structure Agent where
  id : UUID
  name : String
  region : String
  continent : String
deriving DecidableEq, Repr

structure ScanJob where
  id : UUID
  name : String
  kind : String
  scheme : String
  hostname : String
  path : String
  port : Int
  attempts : Int
  timeoutMS : Int
  createdAt : Timestamp
deriving DecidableEq, Repr

structure ScanResult where
  id : Int
  jobID : Option UUID
  agentID : UUID
  targetIP : Inet
  targetPrefix : Option Cidr
  available : Bool
  latencyMS : ℚ
  packetLoss : ℚ
  tcpConnectMS : ℚ
  tlsHandshakeMS : ℚ
  ttfbMS : ℚ
  totalMS : ℚ
  httpStatus : Int
  httpVersion : String
  tlsVersion : String
  colo : String
  cfRay : String
  errorCode : String
  scannedAt : Timestamp
deriving DecidableEq, Repr

structure ColoLocation where
  code : String
  city : String
  country : String
  continent : String
deriving DecidableEq, Repr

structure ResultStore where
  results : Table Int ScanResult ScanResult.id
  agents : Table UUID Agent Agent.id
  jobs : Table UUID ScanJob ScanJob.id
  coloLocations : Table String ColoLocation ColoLocation.code

/-- The server's and the standard library's part. -/
structure ResultServer extends Postgres where
  /-- A uuid's `::text`. -/
  uuidText : UUID → String
  uuid_uuidText : ∀ id, uuid (uuidText id) = some id
  uuid_empty : uuid "" = none
  /-- `text ILIKE '%' || pattern || '%'`. -/
  ilikeWithin : String → String → Bool
  /-- The order of `text` columns. -/
  collation : SortOrder String
  toLower : String → String
  toUpper : String → String
  equalFold : String → String → Bool
  /-- `%q`. -/
  quote : String → String

/-! ## The join -/

/-- A row of `scan_results r JOIN agents a JOIN scan_jobs j LEFT JOIN colo_locations cl`. -/
structure ResultRow where
  r : ScanResult
  a : Agent
  j : ScanJob
  cl : Option ColoLocation
deriving DecidableEq, Repr

namespace ResultRow

/-- `host(r.target_ip)`. -/
def targetIP (row : ResultRow) : String := row.r.targetIP.host

/-- `COALESCE(cl.city, '')`, and so on. -/
def coloCity (row : ResultRow) : String := (row.cl.map ColoLocation.city).getD ""

def coloCountry (row : ResultRow) : String := (row.cl.map ColoLocation.country).getD ""

def coloContinent (row : ResultRow) : String := (row.cl.map ColoLocation.continent).getD ""

end ResultRow

/-- The one row of the join a result has, if it has one. -/
def ResultStore.join (s : ResultStore) (r : ScanResult) : Option ResultRow :=
  match s.agents.find? r.agentID, r.jobID.bind s.jobs.find? with
  | some a, some j => some ⟨r, a, j, s.coloLocations.find? r.colo⟩
  | _, _ => none

def ResultStore.joined (s : ResultStore) : List ResultRow := s.results.rows.filterMap s.join

section Join

variable {s : ResultStore} {r : ScanResult} {row : ResultRow}

theorem join_eq_some : s.join r = some row ↔ row.r = r ∧ s.agents.find? r.agentID = some row.a ∧
    r.jobID.bind s.jobs.find? = some row.j ∧ row.cl = s.coloLocations.find? r.colo := by
  unfold ResultStore.join
  split
  · rename_i a j ha hj
    obtain ⟨r', a', j', cl'⟩ := row
    simp only [ha, hj, Option.some.injEq, ResultRow.mk.injEq]
    constructor
    · rintro ⟨rfl, rfl, rfl, rfl⟩
      exact ⟨rfl, rfl, rfl, rfl⟩
    · rintro ⟨rfl, rfl, rfl, rfl⟩
      exact ⟨rfl, rfl, rfl, rfl⟩
  · rename_i hnone
    constructor
    · intro h
      cases h
    · rintro ⟨_, ha, hj, _⟩
      exact absurd hj (hnone _ _ ha)

theorem mem_joined : row ∈ s.joined ↔ row.r ∈ s.results.rows ∧ s.join row.r = some row := by
  simp only [ResultStore.joined, List.mem_filterMap]
  constructor
  · rintro ⟨r, hr, hjoin⟩
    obtain rfl := (join_eq_some.mp hjoin).1
    exact ⟨hr, hjoin⟩
  · rintro ⟨hr, hjoin⟩
    exact ⟨row.r, hr, hjoin⟩

/-- A result is in one row. -/
theorem eq_of_id {row' : ResultRow} (h : row ∈ s.joined) (h' : row' ∈ s.joined)
    (hid : row.r.id = row'.r.id) : row = row' := by
  obtain ⟨hr, hjoin⟩ := mem_joined.mp h
  obtain ⟨hr', hjoin'⟩ := mem_joined.mp h'
  rw [Table.eq_of_key hr hr' hid] at hjoin
  exact Option.some.inj (hjoin.symm.trans hjoin')

theorem nodup_joined (s : ResultStore) : s.joined.Nodup := by
  refine List.Nodup.filterMap ?_ (List.Nodup.of_map _ s.results.nodup)
  rintro r r' row hr hr'
  rw [← (join_eq_some.mp hr).1]
  exact (join_eq_some.mp hr').1

end Join

end Cfscan.Results
