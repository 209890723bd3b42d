import Cfscan.Center.Targets
import Cfscan.Cloudflare.Listing
import Cfscan.Lib.Triple

/-!
# The scan service over its store — `internal/scans/service.go`

`environment` puts the calls of the store and of the syncer in the place of the service's
interfaces, so that `Scans.create` is the whole path from a request to the tasks of a job: the
listing of the pool, the syncs when it is empty, the agents, the choice of targets, the transaction.
A call to the database can fail at any of these, and what was done before stays.

What a creation meets is one `Surroundings`: the clocks, the uuid of the job, the registered agents,
the answers of the sources, and the order of everything the server returns in any order.
`Surroundings.lost` says at which calls the database does not answer, and may ask the tables when it
decides.

## What this file does not do

A creation is one step from the tables it finds to the tables it leaves. The calls of `Create` are
transactions of their own, and in the running center a sync or another creation can come between two
of them; here nothing does. Nor is there a call that takes effect and whose answer is lost: a call
that is lost has done nothing.
-/

set_option autoImplicit false

namespace Cfscan.Center

open Cfscan.Lib Cfscan.Store Cfscan.Scan
open Cloudflare (PoolServer ListQueries ListedPrefix Texts Follows pool listASNSources)
open Netip (Prefix)

/-! ## The center

The interfaces of the service, filled in from the models of the store and the syncer. A call
that the database does not answer leaves the world as it was; the calls before it keep what
they did. -/

/-- The server as all parts of the store use it. -/
structure CenterServer extends Jobs.PlanServer, PoolServer

/-- The tables of the pool with the log of its syncs, and those of jobs. -/
structure World where
  pool : Cloudflare.World
  jobs : Jobs.JobStore

/-- The calls of `Create` to the database. -/
inductive Stage where
  | list
  | resolve
  | plan
  | create
deriving DecidableEq

/-- What a call of `Create` meets: the clocks, the uuid of its job, the agents, the orders the
server leaves open, the answers of the sources, and the calls the database does not answer. -/
structure Surroundings (server : CenterServer) where
  now : Timestamp
  clock : Scans.Clock
  stamp : String
  jobID : UUID
  agents : Table UUID Enrollment.AgentRow Enrollment.AgentRow.id
  byName : Arrangement (Jobs.agentOrder server.toPlanServer)
  lists : ListQueries server.toPoolServer
  plan : Jobs.PlanQueries
  runtime : League.Runtime
  range : Jobs.AnyOrder Jobs.ScheduledPrefix
  call : Cloudflare.Call
  v4 : Cloudflare.Response Cloudflare.Lines
  v6 : Cloudflare.Response Cloudflare.Lines
  listing : Outage
  visits : Int → Cloudflare.Visit
  lost : Stage → World → Option StoreError

section Environment

variable {server : CenterServer} (texts : Texts) (cause : DbError → String)
  (o : Surroundings server)

/-- A call of the store, if the database answers. -/
def Surroundings.ask {α : Type} (stage : Stage)
    (x : World → Except Scans.ServiceError α × World) : Scans.Calls World α :=
  ExceptT.mk fun w =>
    match o.lost stage w with
    | some error => (.error (.store error), w)
    | none => x w

def Surroundings.agentNames : Agents := fun id => (o.agents.find? id).map Enrollment.AgentRow.name

def leagueRequest (input : Scans.CreateScanJobRequest) : Jobs.LeagueRequest where
  toCreateScanJobRequest := input.toCreateScanJobRequest
  includeIPv6 := input.includeIPv6
  targetCount := input.targetCount

/-- `ListActivePrefixes` -/
def listPrefixes (includeIPv6 : Bool) : Scans.Calls World (List ModelPrefix) :=
  o.ask .list fun w =>
    (.ok ((Cloudflare.listActivePrefixes o.lists w.pool.store includeIPv6).map
      ListedPrefix.toModelPrefix), w)

/-- `ResolveScanAgentIDs` -/
def resolveAgents (requested : List String) : Scans.Calls World (List String) :=
  o.ask .resolve fun w =>
    let agentIDs := Jobs.resolveScanAgentIDs server.toPlanServer o.byName o.agents o.now requested
    (agentIDs.mapError .store, w)

/-- `PlanLeagueTargets`. Its loops end within the turns they are given here. -/
def planLeague (input : Scans.CreateScanJobRequest) (prefixes : List ModelPrefix)
    (agentIDs : List String) (seed : String) (force : Bool) :
    Scans.Calls World (List AgentScanTargets) :=
  o.ask .plan fun w =>
    match Jobs.planLeagueTargets server.toPlanServer (leagueRequest input) agentIDs o.now o.plan
      o.runtime o.agentNames w.jobs prefixes seed force 10001 with
    | (.error error, jobs) => (.error (.store error), { w with jobs })
    | (.ok none, jobs) => (.error .panic, { w with jobs })
    | (.ok (some plan), jobs) => (.ok plan, { w with jobs })

/-- `CreateScanJob` -/
def createJob (input : Scans.CreateScanJobRequest) (agentTargets : List AgentScanTargets) :
    Scans.Calls World ScanJob :=
  o.ask .create fun w =>
    let done := Jobs.createScanJob server.toPostgres o.agentNames w.jobs o.now o.jobID
      input.toCreateScanJobRequest o.range agentTargets
    (done.1.mapError .store, { w with jobs := done.2 })

/-- `Sync` -/
def syncOfficial : StateM World (Option String) := fun w =>
  let event : Cloudflare.Event := .sync o.call o.v4 o.v6
  let done := event.perform texts server.toPostgres w.pool.store
  (done.1.map (Cloudflare.SyncError.text cause),
    { w with pool := ⟨(w.pool.step texts server.toPostgres event).log, done.2⟩ })

/-- `SyncEnabledASNs` -/
def syncASNs : StateM World (Option String) := fun w =>
  let request : Cloudflare.Request := .syncEnabledASNs o.listing o.visits
  let done := Cloudflare.syncEnabledASNs texts server.toPostgres cause o.listing o.visits w.pool.store
  (done.1.2.map (Cloudflare.SyncError.text cause),
    { w with pool := ⟨(w.pool.serve texts server.toPostgres request).log, done.2⟩ })

def environment : Scans.Environment World where
  listActivePrefixes := listPrefixes o
  resolveScanAgentIDs := resolveAgents o
  planLeagueTargets := planLeague o
  createScanJob := createJob o
  sync := syncOfficial texts cause o
  syncEnabledASNs := syncASNs texts cause o
  sha256 := o.runtime.sha256
  sortSlice := o.runtime.sortSlice

end Environment

end Cfscan.Center
