import Cfscan.Center.Creation
import Cfscan.Jobs.Rested

/-!
# No address from anywhere else

Requests of all kinds, in any order, at any times and with any outages. `addresses_confined`: the
addresses in the tables are of networks that some sync has fetched, so agents are sent nowhere else,
and what a creation adds is in the pool of its moment. The invariant speaks of the log, which only
grows; the pool itself can shrink under tasks that are out.

## What a run is

Requests are handled one after another, each from the tables the last one left. The calls of a
creation are a single step (`Center.Create`), and so are those of a recheck; what is interleaved in
the running center is the requests, not what they consist of. For claims, submissions and stops the
statements are taken apart in `Scan.Interleaved` and `Scan.Stop`, which say nothing of addresses.

Outages are part of the requests: a sync can be cut off at any statement, and a creation at any of
its calls to the database. A commit that takes effect and whose answer is lost is **not** among
them.

## What it does not say

A task may be for a network that has left the pool since. A sync deactivates rows and takes no task
back, so the strongest that holds of a state is that some sync has fetched the network, and of a
creation that the pool has it at that moment.
-/

set_option autoImplicit false

namespace Cfscan.Center

open Cfscan.Lib Cfscan.Store Cfscan.Scan
open Cloudflare (Texts Follows ReadsPrefixes pool lastOfficial lastSynced listASNSources)
open Netip (Prefix parseAddr)

/-! ## What syncs have fetched -/

def fetched (log : List Cloudflare.Event) : Set Prefix :=
  {p | ∃ e ∈ log, (∃ networks, e.official = some networks ∧ p ∈ networks) ∨
    ∃ asn networks, e.announced asn = some networks ∧ p ∈ networks}

theorem fetched_mono {log log' : List Cloudflare.Event} (h : log ⊆ log') :
    fetched log ⊆ fetched log' := by
  intro p hp
  obtain ⟨e, he, hfetched⟩ := hp
  exact ⟨e, h he, hfetched⟩

theorem pool_subset_fetched {log : List Cloudflare.Event} {sources : List Cloudflare.ASNSource} :
    pool log sources ⊆ fetched log := by
  intro p hp
  rcases hp with hofficial | ⟨item, -, hsynced⟩
  · unfold lastOfficial at hofficial
    cases hlast : last? Cloudflare.Event.official log with
    | none => simp [hlast] at hofficial
    | some networks =>
      simp only [hlast, Option.getD_some] at hofficial
      obtain ⟨e, he, hnetworks⟩ := exists_of_last? hlast
      exact ⟨e, he, Or.inl ⟨networks, hnetworks, hofficial⟩⟩
  · unfold lastSynced at hsynced
    cases hlast : last? (Cloudflare.Event.announced item.asn)
        (since (Cloudflare.Event.creates item.asn) log) with
    | none => simp [hlast] at hsynced
    | some networks =>
      simp only [hlast, Option.getD_some] at hsynced
      obtain ⟨e, he, hnetworks⟩ := exists_of_last? hlast
      exact ⟨e, since_subset _ _ he, Or.inr ⟨item.asn, networks, hnetworks, hsynced⟩⟩

/-! ## Requests

What writes addresses, and what changes the pool. The agents a creation meets are part of
its `Surroundings`, so registrations and heartbeats are not among the requests. -/

inductive Request (server : CenterServer) where
  | pool (request : Cloudflare.Request)
  | create (o : Surroundings server) (input : Scans.CreateScanJobRequest) (kind : String)
  | recheck (now : Timestamp) (world : RecheckWorld) (agents : Agents)
    (settings : BlacklistRecheckSettings)
  | claim (now : Timestamp) (tie : UUID → Nat) (agentID : String) (limit : Int)
  | submit (now : Timestamp) (batch : ResultBatch)
  | stop (now : Timestamp) (id : String)

def World.initial (start : Timestamp) : World :=
  ⟨.initial start, ⟨.empty, .empty, .empty⟩⟩

section Run

variable (texts : Texts) (cause : DbError → String) {server : CenterServer}

/-- A call that reads and writes the scan tables alone. -/
def World.call (server : CenterServer) (w : World) (now : Timestamp) (op : Op) : World :=
  { w with jobs := { w.jobs with scan := (Scan.serve server.toPostgres now w.jobs.scan op).2 } }

def World.serve (w : World) : Request server → World
  | .pool request => { w with pool := w.pool.serve texts server.toPostgres request }
  | .create o input kind =>
    ((Scans.create (environment texts cause o) o.clock o.stamp input kind).run.run w).2
  | .recheck now world agents settings =>
    w.call server now (.createBlacklistRechecks world agents settings)
  | .claim now tie agentID limit => w.call server now (.claimTasks tie agentID limit)
  | .submit now batch => w.call server now (.submitResults batch)
  | .stop now id => w.call server now (.stopScanJob id)

def run (start : Timestamp) (requests : List (Request server)) : World :=
  requests.foldl (World.serve texts cause) (World.initial start)

end Run

/-! ## The invariant

It speaks of the log and not of the pool, and so it survives a sync that takes a network
away. The addresses in a batch of claimed tasks follow from those in the table. -/

structure Confined (server : CenterServer) (w : World) : Prop where
  follows : Follows server.toPostgres w.pool.log w.pool.store
  rows : Rows server.toPostgres w.jobs.scan
  addresses : Addresses (Located (fetched w.pool.log)) w.jobs.scan

section Invariant

variable {texts : Texts} {cause : DbError → String} {server : CenterServer} {w : World}

theorem Confined.initial (start : Timestamp) : Confined server (World.initial start) where
  follows := Cloudflare.follows_initial start
  rows := .empty server.toPostgres
  addresses := .empty _

theorem Confined.pool (hreads : ReadsPrefixes server.toPostgres) (h : Confined server w)
    (request : Cloudflare.Request) :
    Confined server { w with pool := w.pool.serve texts server.toPostgres request } := by
  have hready : Ready server w w := ⟨h.follows, fun _ he => he, rfl⟩
  have hsteps := @Ready.steps server w hreads texts (request.events w.pool.store) w hready
  exact ⟨hsteps.follows, h.rows, h.addresses.mono fun _ hin => hin.mono (fetched_mono hsteps.log)⟩

theorem Confined.created {w' : World} {includeIPv6 : Bool} (h : Confined server w)
    (hcreates : Creates server includeIPv6 w w') : Confined server w' where
  follows := hcreates.follows
  rows := hcreates.rows
  addresses := by
    have hold := h.addresses.mono fun _ hin => hin.mono (fetched_mono hcreates.log)
    refine ⟨fun task htask => ?_, ?_⟩
    · rcases hcreates.tasks task htask with hbefore | hnew
      · exact hold.tasks task hbefore
      · exact hnew.mono fun p hp => pool_subset_fetched hp.1
    · rw [hcreates.blacklist]
      exact hold.blacklist

/-- The calls that are given no targets. -/
theorem Confined.call (haddrs : ReadsAddresses server.toPostgres) (h : Confined server w)
    (now : Timestamp) {op : Op}
    (hop : ∀ agents jobID input agentTargets, op ≠ .createScanJob agents jobID input agentTargets) :
    Confined server (w.call server now op) where
  follows := h.follows
  rows := h.rows.steps (serve_steps h.rows.ready h.rows.single now op)
  addresses := h.addresses.serve h.rows (kept_located haddrs _)
    fun agents jobID input agentTargets heq => absurd heq (hop agents jobID input agentTargets)

theorem Confined.serve (hreads : ReadsPrefixes server.toPostgres)
    (haddrs : ReadsAddresses server.toPostgres) (h : Confined server w)
    (request : Request server) : Confined server (w.serve texts cause request) := by
  cases request with
  | pool request => exact h.pool hreads request
  | create o input kind =>
    exact h.created (create_creates hreads haddrs texts cause o input kind h.follows h.rows)
  | recheck now world agents settings => exact h.call haddrs now nofun
  | claim now tie agentID limit => exact h.call haddrs now nofun
  | submit now batch => exact h.call haddrs now nofun
  | stop now id => exact h.call haddrs now nofun

theorem Confined.run (hreads : ReadsPrefixes server.toPostgres)
    (haddrs : ReadsAddresses server.toPostgres) (start : Timestamp)
    (requests : List (Request server)) : Confined server (run texts cause start requests) := by
  unfold Center.run
  generalize hinitial : World.initial start = w
  have h : Confined server w := hinitial ▸ .initial start
  clear hinitial
  induction requests generalizing w with
  | nil => exact h
  | cons request requests ih => exact ih _ (h.serve hreads haddrs request)

/-- What an agent is given to do. -/
theorem Confined.batch (h : Confined server w) {now : Timestamp} {tie : UUID → Nat}
    {agentID : String} {limit : Int} {batch : TaskBatch}
    (hclaim : ((claimTasks server.toPostgres tie now agentID limit).exec w.jobs.scan).1 =
      .ok (some batch)) :
    ∀ task ∈ batch.tasks, Located (fetched w.pool.log) task.targetIP := by
  rcases claimTasks_exec server.toPostgres tie now agentID limit w.jobs.scan with
    ⟨-, hnone⟩ | ⟨agent, job, ids, -, -, hexec⟩
  · exact absurd hclaim (hnone batch)
  · rw [hexec] at hclaim
    cases hclaim
    intro claimed hclaimed
    simp only [taskBatch, ScanStore.handedOut, List.map_map, List.mem_map,
      List.mem_filter] at hclaimed
    obtain ⟨task, ⟨htask, -⟩, rfl⟩ := hclaimed
    have hexpired := @Addresses.rewrite _ _ h.addresses (ScanTask.leaseExpired agent now) _
      ScanTask.id_expire same_expire
    exact hexpired task htask

end Invariant

/-- In every state the addresses in the tables, and those an agent is given, are of networks that a
sync has fetched, and a creation takes its addresses from the pool. -/
theorem addresses_confined (server : CenterServer) (hreads : ReadsPrefixes server.toPostgres)
    (haddrs : ReadsAddresses server.toPostgres) (texts : Texts) (cause : DbError → String)
    (start : Timestamp) (requests : List (Request server)) :
    let w := run texts cause start requests
    Addresses (Located (fetched w.pool.log)) w.jobs.scan ∧
      (∀ row ∈ w.jobs.scan.results.rows, Located (fetched w.pool.log) row.targetIP.host) ∧
      (∀ now tie agentID limit batch,
        ((claimTasks server.toPostgres tie now agentID limit).exec w.jobs.scan).1 =
          .ok (some batch) →
        ∀ task ∈ batch.tasks, Located (fetched w.pool.log) task.targetIP) ∧
      ∀ (o : Surroundings server) input kind,
        let w' := w.serve texts cause (.create o input kind)
        ∀ task ∈ w'.jobs.scan.tasks.rows, task ∈ w.jobs.scan.tasks.rows ∨
          Located (eligible w'.pool input.includeIPv6) task.targetIP.host := by
  intro w
  have h : Confined server w := .run hreads haddrs start requests
  refine ⟨h.addresses, h.addresses.results h.rows, fun _ _ _ _ _ hclaim => h.batch hclaim, ?_⟩
  intro o input kind
  exact (create_creates hreads haddrs texts cause o input kind h.follows h.rows).tasks

/-! ### The first scan of a new center -/

/-- A server that reads prefixes as Go does, and takes every text for an address. -/
def wholeNet : CenterServer where
  toPlanServer := Jobs.oneNetwork.reading Cloudflare.netipCidr Cloudflare.netipCidr_text
  cidr_order := Cloudflare.netipServer_order

theorem wholeNet_prefixes : ReadsPrefixes wholeNet.toPostgres := fun p hp =>
  ⟨⟨p.string⟩, Cloudflare.netipCidr_string hp, Netip.parsePrefix_string p⟩

theorem wholeNet_addresses : ReadsAddresses wholeNet.toPostgres := by
  intro text a ip ha hip
  cases hip
  exact ha

def firstAgent : Enrollment.AgentRow where
  id := 0x6f9619ff8b864011b42d00c04fc964ff
  name := "agent"
  region := ""
  continent := ""
  concurrency := 8
  status := "online"
  os := "linux"
  architecture := "amd64"
  version := "1"
  lastSeenAt := 90
  createdAt := 0
  updatedAt := 90

/-- The pool is empty, the official source answers, and those of the ASNs do not. -/
def firstScan : Surroundings wholeNet where
  now := 100
  clock := ⟨1, 2, 3, 4⟩
  stamp := "2024-01-02T03:04:05Z"
  jobID := 0x7d4448409dc041d1b2455ffdce74fad2
  agents := ⟨[firstAgent], List.nodup_singleton _⟩
  byName := .insertionSort _
  lists := ⟨.insertionSort _, .insertionSort _⟩
  plan := Jobs.oneQueries
  runtime := Jobs.oneRuntime
  range := .unchanged
  call := ⟨90, 90, none⟩
  v4 := .answered 200 "" ⟨["104.16.0.0/13"], none⟩
  v6 := .answered 200 "" ⟨["2400:cb00::/32"], none⟩
  listing := none
  visits := fun _ => ⟨none, ⟨90, 90, none⟩, .unsent "no route"⟩
  lost := fun _ _ => none

def firstRequest : Scans.CreateScanJobRequest := { oneTarget with
  samplingMode := "one_per_prefix", forceLeague := false, agentIDs := [], targetCount := 0
  includeIPv6 := false }

def firstRequests : List (Request wholeNet) := [.create firstScan firstRequest "manual"]

def firstScanned : World := run Cloudflare.noTexts (fun _ => "") 0 firstRequests

theorem addresses_confined_firstScanned :
    firstScanned.jobs.scan.tasks.rows.map (fun task => task.targetIP.host) = ["104.16.0.1"] ∧
      Addresses (Located (fetched firstScanned.pool.log)) firstScanned.jobs.scan := by
  refine ⟨by decide +kernel, ?_⟩
  unfold firstScanned
  exact (addresses_confined wholeNet wholeNet_prefixes wholeNet_addresses Cloudflare.noTexts
    (fun _ => "") 0 firstRequests).1

end Cfscan.Center
