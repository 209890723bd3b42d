import Cfscan.Center.Create
import Cfscan.Center.Tasks
import Cfscan.Targets.Networks

/-!
# What a creation adds

`create_creates`: however `Create` ends, the tasks it adds are for addresses of the pool that its
own syncs left, of IPv4 networks where IPv6 was not asked for. Of the calls before the transaction
it is enough to know that they leave the scan tables alone and keep the pool in step with its log.

The proof goes through `Create` in the order of its text, one `triple_` lemma for each call, with
`Ready` as what holds before the transaction and `Creates` as what holds after it or after a call
that failed. `Offers` and `Aimed` are what the prefixes and the targets are known to be on the way.

The two assumptions on the server are about texts. `ReadsPrefixes` is that a masked prefix comes
back as it was printed, and `ReadsAddresses` that an address does. **Which** targets a creation
takes, and how many, is not the subject here; `Targets.Enumerate`, `Targets.OnePerPrefix` and
`League.Soundness` say that.
-/

set_option autoImplicit false

namespace Cfscan.Center

open Cfscan.Lib Cfscan.Store Cfscan.Scan
open Cloudflare (PoolServer ListQueries ListedPrefix PoolRow Texts Follows ReadsPrefixes pool
  listASNSources allPrefixes listedPrefix listActivePrefixes)
open Netip (Prefix parseAddr)

/-! ## The listing

What a creation is offered is the pool of the moment it lists, without IPv6 unless that was
asked for. `ReadsPrefixes` is what makes texts and networks match. -/

/-- The networks a creation may take addresses from. -/
def eligible (w : Cloudflare.World) (includeIPv6 : Bool) : Set Prefix :=
  {p | p ∈ pool w.log (listASNSources w.store true) ∧ (includeIPv6 = true ∨ p.addr.is4 = true)}

section Listing

variable {server : CenterServer} {queries : ListQueries server.toPoolServer} {w : Cloudflare.World}
  {includeIPv6 : Bool}

theorem mem_listing {item : ListedPrefix}
    (h : item ∈ listActivePrefixes queries w.store includeIPv6) :
    ∃ row ∈ allPrefixes w.store, listedPrefix row = item ∧
      (includeIPv6 = true ∨ row.ipVersion = 4) := by
  obtain ⟨row, hrow, hitem⟩ := List.mem_map.mp h
  obtain ⟨hmem, hwanted⟩ := List.mem_filter.mp (queries.listing.mem.mp hrow)
  refine ⟨row, Cloudflare.mem_of_mem_deduplicated hmem, hitem, ?_⟩
  simpa using hwanted

theorem listed_listing (h : Follows server.toPostgres w.log w.store) :
    Listed server.toPlanServer
      ((listActivePrefixes queries w.store includeIPv6).map ListedPrefix.toModelPrefix) := by
  intro item hitem cidr hcidr
  obtain ⟨listed, hlisted, rfl⟩ := List.mem_map.mp hitem
  obtain ⟨row, hrow, rfl, -⟩ := mem_listing hlisted
  obtain ⟨p, -, hp⟩ := @Cloudflare.named_of_mem_allPrefixes server.toPoolServer _ _ _ h hrow
  have htext : server.cidr row.cidr.text = some row.cidr := (server.cidr_text _ _ hp).1
  have hsame : row.cidr = cidr := Option.some.inj (htext.symm.trans hcidr)
  rw [← hsame]
  rfl

theorem offered_listing (hreads : ReadsPrefixes server.toPostgres)
    (h : Follows server.toPostgres w.log w.store) :
    offered ((listActivePrefixes queries w.store includeIPv6).map ListedPrefix.toModelPrefix)
      includeIPv6 ⊆ eligible w includeIPv6 := by
  intro p hp
  obtain ⟨item, hitem, -, parsed, hparsed, hmasked⟩ := hp
  obtain ⟨listed, hlisted, rfl⟩ := List.mem_map.mp hitem
  obtain ⟨row, hrow, rfl, hfamily⟩ := mem_listing hlisted
  obtain ⟨q, hq, hcidr⟩ := @Cloudflare.named_of_mem_allPrefixes server.toPoolServer _ _ _ h hrow
  have hqmasked := Cloudflare.masked_of_mem_pool hq
  have hqparsed : Netip.parsePrefix row.cidr.text = some q :=
    Cloudflare.parse_of_names hreads hqmasked hcidr
  obtain rfl : q = parsed := Option.some.inj (hqparsed.symm.trans hparsed)
  rw [← hmasked, hqmasked]
  refine ⟨hq, hfamily.imp_right fun hfour => ?_⟩
  -- the version of the row is that of its prefix
  have hversion : row.ipVersion = Cloudflare.versionOf q :=
    @Cloudflare.version_of_mem_allPrefixes server.toPoolServer _ _ _ h hrow q hqparsed
  rw [hfour] at hversion
  unfold Cloudflare.versionOf at hversion
  split at hversion
  · assumption
  · cases hversion

end Listing

/-! ## The calls

One triple for each call of `Create`, between `Ready` and `Creates`. Until the last call the
scan tables are as they were found, whatever fails on the way; a league plan writes to other
tables. -/

/-- Before the transaction. -/
structure Ready (server : CenterServer) (w₀ w : World) : Prop where
  follows : Follows server.toPostgres w.pool.log w.pool.store
  log : w₀.pool.log ⊆ w.pool.log
  scan : w.jobs.scan = w₀.jobs.scan

/-- After it, or after a call that failed. -/
structure Creates (server : CenterServer) (includeIPv6 : Bool) (w₀ w : World) : Prop where
  follows : Follows server.toPostgres w.pool.log w.pool.store
  log : w₀.pool.log ⊆ w.pool.log
  rows : Rows server.toPostgres w.jobs.scan
  tasks : ∀ task ∈ w.jobs.scan.tasks.rows, task ∈ w₀.jobs.scan.tasks.rows ∨
    Located (eligible w.pool includeIPv6) task.targetIP.host
  blacklist : w.jobs.scan.blacklist = w₀.jobs.scan.blacklist

/-- The prefixes are those of a listing, and in the pool. -/
structure Offers (server : CenterServer) (includeIPv6 : Bool) (prefixes : List ModelPrefix)
    (w : World) : Prop where
  listed : Listed server.toPlanServer prefixes
  offered : offered prefixes includeIPv6 ⊆ eligible w.pool includeIPv6

/-- Every target is in the pool. -/
def Aimed (includeIPv6 : Bool) (plan : List AgentScanTargets) (w : World) : Prop :=
  ∀ agentSet ∈ plan, ∀ target ∈ agentSet.targets,
    Located (eligible w.pool includeIPv6) target.targetIP

section Calls

variable {server : CenterServer} {o : Surroundings server} {w₀ : World} {includeIPv6 : Bool}

theorem Ready.creates {w : World} (h : Ready server w₀ w)
    (hrows : Rows server.toPostgres w₀.jobs.scan) : Creates server includeIPv6 w₀ w where
  follows := h.follows
  log := h.log
  rows := h.scan ▸ hrows
  tasks := fun _ htask => Or.inl (h.scan ▸ htask)
  blacklist := congrArg ScanStore.blacklist h.scan

theorem run_ask {α : Type} {stage : Stage} {x : World → Except Scans.ServiceError α × World}
    (w : World) : (o.ask stage x).run.run w =
      (o.lost stage w).elim (x w) fun error => (.error (.store error), w) := by
  unfold Surroundings.ask StateT.run ExceptT.run ExceptT.mk
  dsimp only
  cases o.lost stage w <;> rfl

/-- A call that gets no answer changes nothing. -/
theorem triple_ask {α : Type} {P E : World → Prop} {Q : α → World → Prop} {stage : Stage}
    {x : World → Except Scans.ServiceError α × World} (hlost : ∀ w, P w → E w)
    (h : ∀ w, P w → Triple.Ends Q E (x w)) : Triple P (o.ask stage x) Q E := by
  intro w hw
  rw [run_ask]
  cases o.lost stage w with
  | none => exact h w hw
  | some error => exact hlost w hw

theorem triple_listPrefixes (hreads : ReadsPrefixes server.toPostgres) :
    Triple (Ready server w₀) (listPrefixes o includeIPv6)
      (fun prefixes w => Ready server w₀ w ∧ Offers server includeIPv6 prefixes w)
      (Ready server w₀) := by
  apply triple_ask (fun _ h => h)
  intro w h
  exact ⟨h, listed_listing h.follows, offered_listing hreads h.follows⟩

/-! The syncs add to the log, and change the pool as they do. -/

theorem syncOfficial_world (texts : Texts) (cause : DbError → String) (w : World) :
    (syncOfficial texts cause o w).2 =
      { w with pool := w.pool.step texts server.toPostgres (.sync o.call o.v4 o.v6) } := by
  unfold syncOfficial
  dsimp only
  rw [← Cloudflare.store_step]

theorem syncASNs_world (texts : Texts) (cause : DbError → String) (w : World) :
    (syncASNs texts cause o w).2 =
      { w with
        pool := w.pool.serve texts server.toPostgres (.syncEnabledASNs o.listing o.visits) } := by
  unfold syncASNs
  dsimp only
  rw [Cloudflare.syncEnabledASNs_store]

theorem Ready.step (hreads : ReadsPrefixes server.toPostgres) {texts : Texts} {w : World}
    (h : Ready server w₀ w) (e : Cloudflare.Event) :
    Ready server w₀ { w with pool := w.pool.step texts server.toPostgres e } where
  follows := h.follows.step hreads e
  log := fun e' he' => by
    have hlog := h.log he'
    dsimp only
    unfold Cloudflare.World.step
    split
    · exact List.mem_append_left _ hlog
    · exact hlog
  scan := h.scan

theorem Ready.steps (hreads : ReadsPrefixes server.toPostgres) {texts : Texts}
    (events : List Cloudflare.Event) {w : World} (h : Ready server w₀ w) :
    Ready server w₀
      { w with pool := events.foldl (Cloudflare.World.step texts server.toPostgres) w.pool } := by
  induction events generalizing w with
  | nil => exact h
  | cons e events ih => exact ih (h.step hreads e)

theorem triple_activePrefixes (hreads : ReadsPrefixes server.toPostgres) {texts : Texts}
    {cause : DbError → String} :
    Triple (Ready server w₀) (Scans.activePrefixes (environment texts cause o) includeIPv6)
      (fun prefixes w => Ready server w₀ w ∧ Offers server includeIPv6 prefixes w)
      (Ready server w₀) := by
  apply Triple.bind (triple_listPrefixes hreads)
  intro prefixes
  apply Triple.ite
  · intro _
    have hweak : Triple (fun w => Ready server w₀ w ∧ Offers server includeIPv6 prefixes w)
        (liftM (syncOfficial texts cause o) : Scans.Calls World (Option String))
        (fun _ => Ready server w₀) (Ready server w₀) :=
      Triple.lift fun w h => by
        show Ready server w₀ (syncOfficial texts cause o w).2
        rw [syncOfficial_world]
        exact h.1.step hreads _
    apply Triple.bind hweak
    intro officialErr
    have hasns : Triple (Ready server w₀)
        (liftM (syncASNs texts cause o) : Scans.Calls World (Option String))
        (fun _ => Ready server w₀) (Ready server w₀) :=
      Triple.lift fun w h => by
        show Ready server w₀ (syncASNs texts cause o w).2
        rw [syncASNs_world]
        exact h.steps hreads _
    apply Triple.bind hasns
    intro asnErr
    cases officialErr with
    | none => exact triple_listPrefixes hreads
    | some official =>
      cases asnErr with
      | none => exact triple_listPrefixes hreads
      | some asn => exact Triple.throw fun _ h => h
  · intro _
    exact Triple.pure fun _ h => h

theorem triple_resolveAgents {requested : List String} {prefixes : List ModelPrefix} :
    Triple (fun w => Ready server w₀ w ∧ Offers server includeIPv6 prefixes w)
      (resolveAgents o requested)
      (fun _ w => Ready server w₀ w ∧ Offers server includeIPv6 prefixes w)
      (Ready server w₀) := by
  apply triple_ask (fun _ h => h.1)
  intro w h
  cases Jobs.resolveScanAgentIDs server.toPlanServer o.byName o.agents o.now requested with
  | error error => exact h.1
  | ok agentIDs => exact h

theorem triple_sampled {result : Option (Except Targets.TargetsError (List ScanTarget))}
    {prefixes : List ModelPrefix}
    (hin : ∀ items, result = some (.ok items) →
      ∀ target ∈ items, Located (offered prefixes includeIPv6) target.targetIP) :
    Triple (fun w => Ready server w₀ w ∧ Offers server includeIPv6 prefixes w)
      (Scans.sampled result : Scans.Calls World (List ScanTarget))
      (fun items w => Ready server w₀ w ∧
        ∀ target ∈ items, Located (eligible w.pool includeIPv6) target.targetIP)
      (Ready server w₀) := by
  unfold Scans.sampled
  cases result with
  | none => exact Triple.throw fun _ h => h.1
  | some result =>
    cases result with
    | error cause => exact Triple.throw fun _ h => h.1
    | ok items =>
      apply Triple.pure
      intro w h
      exact ⟨h.1, fun target htarget => (hin items rfl target htarget).mono h.2.offered⟩

theorem triple_planLeague {input : Scans.CreateScanJobRequest} {prefixes : List ModelPrefix}
    {agentIDs : List String} {seed : String} {force : Bool} :
    Triple (fun w => Ready server w₀ w ∧ Offers server input.includeIPv6 prefixes w)
      (planLeague o input prefixes agentIDs seed force)
      (fun plan w => Ready server w₀ w ∧ Aimed input.includeIPv6 plan w) (Ready server w₀) := by
  apply triple_ask (fun _ h => h.1)
  intro w h
  obtain ⟨hready, hoffers⟩ := h
  have hscan : (Jobs.planLeagueTargets server.toPlanServer (leagueRequest input) agentIDs o.now
      o.plan o.runtime o.agentNames w.jobs prefixes seed force 10001).2.scan = w₀.jobs.scan :=
    planLeagueTargets_scan.trans hready.scan
  split
  · rename_i heq
    rw [heq] at hscan
    exact ⟨hready.follows, hready.log, hscan⟩
  · rename_i heq
    rw [heq] at hscan
    exact ⟨hready.follows, hready.log, hscan⟩
  · rename_i plan jobs heq
    rw [heq] at hscan
    refine ⟨⟨hready.follows, hready.log, hscan⟩, fun agentSet hset target htarget => ?_⟩
    have hlocated := located_planLeagueTargets hoffers.listed (by omega) heq
    exact (hlocated agentSet hset target htarget).mono hoffers.offered

theorem triple_chooseTargets {texts : Texts} {cause : DbError → String}
    {input : Scans.CreateScanJobRequest} {kind seed : String} {prefixes : List ModelPrefix}
    {agentIDs : List String} :
    Triple (fun w => Ready server w₀ w ∧ Offers server input.includeIPv6 prefixes w)
      (Scans.chooseTargets (environment texts cause o) input kind prefixes agentIDs seed)
      (fun plan w => Ready server w₀ w ∧ Aimed input.includeIPv6 plan w) (Ready server w₀) := by
  unfold Scans.chooseTargets
  apply Triple.ite
  · intro _
    apply Triple.bind triple_planLeague
    intro plan
    apply Triple.ite
    · exact fun _ => Triple.throw fun _ h => h.1
    · exact fun _ => Triple.pure fun _ h => h
  · intro _
    have hdeal : ∀ items : List ScanTarget, Triple (fun w => Ready server w₀ w ∧
        ∀ target ∈ items, Located (eligible w.pool input.includeIPv6) target.targetIP)
        (pure (agentIDs.map fun agentID => ⟨agentID, items⟩) :
          Scans.Calls World (List AgentScanTargets))
        (fun plan w => Ready server w₀ w ∧ Aimed input.includeIPv6 plan w)
        (Ready server w₀) := by
      intro items
      apply Triple.pure
      intro w h
      refine ⟨h.1, fun agentSet hset target htarget => ?_⟩
      obtain ⟨agentID, -, rfl⟩ := List.mem_map.mp hset
      exact h.2 target htarget
    apply Triple.ite
    · intro _
      exact Triple.bind (triple_sampled fun _ h => located_onePerPrefix h) hdeal
    · intro _
      exact Triple.bind (triple_sampled fun _ h => located_sample h) hdeal

/-- The server reads an address as Go does, and Go reads what the server prints for it. -/
def ReadsAddresses (pg : Postgres) : Prop :=
  ∀ text a ip, parseAddr text = some a → pg.inet text = some ip → parseAddr ip.host = some a

theorem kept_located {pg : Postgres} (haddrs : ReadsAddresses pg) (networks : Set Prefix) :
    Kept pg (Located networks) := by
  intro text ip hlocated hip
  obtain ⟨p, hp, a, ha, hin⟩ := hlocated
  exact ⟨p, hp, a, haddrs text a ip ha hip, hin⟩

theorem triple_createJob (haddrs : ReadsAddresses server.toPostgres)
    (hrows : Rows server.toPostgres w₀.jobs.scan) {input : Scans.CreateScanJobRequest}
    {plan : List AgentScanTargets} :
    Triple (fun w => Ready server w₀ w ∧ Aimed includeIPv6 plan w) (createJob o input plan)
      (fun _ => Creates server includeIPv6 w₀) (Creates server includeIPv6 w₀) := by
  apply triple_ask (fun _ h => h.1.creates hrows)
  intro w h
  obtain ⟨hready, haimed⟩ := h
  obtain ⟨-, hscan⟩ := @Jobs.createScanJob_scan server.toPostgres o.agentNames w.jobs o.now o.jobID
    input.toCreateScanJobRequest o.range plan
  rw [hready.scan] at hscan
  have hall := @createScanJob_all server.toPostgres o.agentNames w₀.jobs.scan o.now o.jobID
    (fun task => task ∈ w₀.jobs.scan.tasks.rows ∨
      Located (eligible w.pool includeIPv6) task.targetIP.host) input.toCreateScanJobRequest plan
    (fun _ hold => Or.inl hold)
    fun agentSet hset target htarget ip hip _ _ _ =>
      Or.inr (kept_located haddrs _ _ _ (haimed agentSet hset target htarget) hip)
  have hrows' : Rows server.toPostgres (createScanJob server.toPostgres o.agentNames w₀.jobs.scan
      o.now o.jobID input.toCreateScanJobRequest plan).2 :=
    hrows.steps (serve_steps hrows.ready hrows.single o.now
      (.createScanJob o.agentNames o.jobID input.toCreateScanJobRequest plan))
  have hcreates : Creates server includeIPv6 w₀ { w with
      jobs := (Jobs.createScanJob server.toPostgres o.agentNames w.jobs o.now o.jobID
        input.toCreateScanJobRequest o.range plan).2 } := by
    refine ⟨hready.follows, hready.log, ?_, ?_, ?_⟩
    · simpa only [hscan] using hrows'
    · simpa only [hscan] using hall.1
    · simpa only [hscan] using hall.2
  dsimp only
  cases (Jobs.createScanJob server.toPostgres o.agentNames w.jobs o.now o.jobID
      input.toCreateScanJobRequest o.range plan).1 with
  | ok job => exact hcreates
  | error error => exact hcreates

/-- **What a creation adds**, whatever it meets and however it ends. -/
theorem create_creates (hreads : ReadsPrefixes server.toPostgres)
    (haddrs : ReadsAddresses server.toPostgres) (texts : Texts) (cause : DbError → String)
    (o : Surroundings server) (input : Scans.CreateScanJobRequest) (kind : String) {w : World}
    (hfollows : Follows server.toPostgres w.pool.log w.pool.store)
    (hrows : Rows server.toPostgres w.jobs.scan) :
    Creates server input.includeIPv6 w
      ((Scans.create (environment texts cause o) o.clock o.stamp input kind).run.run w).2 := by
  have hready : Ready server w w := ⟨hfollows, fun _ h => h, rfl⟩
  have htriple : Triple (Ready server w)
      (Scans.create (environment texts cause o) o.clock o.stamp input kind)
      (fun _ => Creates server input.includeIPv6 w) (Creates server input.includeIPv6 w) := by
    unfold Scans.create
    dsimp only
    split
    · exact Triple.throw fun _ h => h.creates hrows
    · unfold Scans.createAccepted
      apply Triple.bind ((triple_activePrefixes hreads).weaken (fun _ h => h) (fun _ _ h => h)
        fun _ h => h.creates hrows)
      intro prefixes
      apply Triple.bind (triple_resolveAgents.weaken (fun _ h => h) (fun _ _ h => h)
        fun _ h => h.creates hrows)
      intro agentIDs
      apply Triple.bind (triple_chooseTargets.weaken (fun _ h => h) (fun _ _ h => h)
        fun _ h => h.creates hrows)
      intro plan
      exact triple_createJob haddrs hrows
  exact htriple.state hready

end Calls

end Cfscan.Center
