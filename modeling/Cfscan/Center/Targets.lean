import Cfscan.Jobs.Planned
import Cfscan.League.Soundness
import Cfscan.Scans.Service

/-!
# Where targets come from

Of the three ways to choose targets, none leaves the prefixes it is given: every target that
`Sample`, `OnePerPrefix` and `PlanLeagueTargets` return is an address of a usable one. A league plan
also reads old results and old entries; of the entries it takes those of the prefixes it was given,
and of the addresses of old results those that are still inside.

`Located` is the one notion the three share: a text that parses as an address inside one of the
given networks. For the two samplers it is read off what `Targets.Enumerate` and
`Targets.OnePerPrefix` prove; for the league off `League.Soundness`, whose plan contains every
target in the prefix of an entry, and off `inPool_of_active`, by which the active entries of a plan
are of the pool.

The last step needs that a listing has the texts of the database (`Listed`). An entry is found by
the value of its prefix, and its addresses are drawn from the text the server prints for it.
-/

set_option autoImplicit false

namespace Cfscan.Center

open Cfscan.Lib Cfscan.Store Cfscan.Scan
open Netip (Prefix parseAddr)
open Targets (Usable usablePrefixes collectUsable sample onePerPrefix enumeration keptDraws Drawn)
open League (PrefixLeagueEntry LeagueCandidate PlanOptions Runtime planAgent)
open League.Dashboard (LeagueKey LeagueRow)

/-- The text is an address of one of the networks. -/
def Located (networks : Set Prefix) (text : String) : Prop :=
  ∃ p ∈ networks, ∃ a, parseAddr text = some a ∧ p.contains a = true

theorem Located.mono {networks networks' : Set Prefix} (hsub : networks ⊆ networks') {text : String}
    (h : Located networks text) : Located networks' text := by
  obtain ⟨p, hp, hin⟩ := h
  exact ⟨p, hsub hp, hin⟩

/-- The usable prefixes of a listing. -/
def offered (prefixes : List ModelPrefix) (includeIPv6 : Bool) : Set Prefix :=
  {p | Usable prefixes includeIPv6 p}

section Samples

variable {sha256 : String → BitVec 256} {sortSlice : SortSlice} {prefixes : List ModelPrefix}
  {includeIPv6 : Bool} {seed : String}

theorem collectUsable_usable {rest : List ModelPrefix} {usable result : List Prefix}
    {seen : List String} (hrest : ∀ item ∈ rest, item ∈ prefixes)
    (husable : ∀ p ∈ usable, Usable prefixes includeIPv6 p)
    (h : collectUsable includeIPv6 rest usable seen = .ok result) :
    ∀ p ∈ result, Usable prefixes includeIPv6 p := by
  induction rest generalizing usable seen with
  | nil =>
    cases h
    exact husable
  | cons item rest ih =>
    have htail : ∀ item ∈ rest, item ∈ prefixes := fun i hi => hrest i (List.mem_cons_of_mem _ hi)
    unfold collectUsable at h
    split at h
    · exact ih htail husable h
    · rename_i hwanted
      split at h
      · cases h
      · rename_i parsed hparsed
        dsimp only at h
        split at h
        · exact ih htail husable h
        · refine ih htail (fun p hp => ?_) h
          rcases List.mem_append.mp hp with hold | hnew
          · exact husable p hold
          · rw [List.mem_singleton.mp hnew]
            refine ⟨item, hrest item List.mem_cons_self, ?_, parsed, hparsed, rfl⟩
            exact congrArg not (Bool.eq_false_iff.mpr hwanted)

theorem usable_of_usablePrefixes {usable : List Prefix}
    (h : usablePrefixes prefixes includeIPv6 = .ok usable) :
    ∀ p ∈ usable, Usable prefixes includeIPv6 p := by
  unfold usablePrefixes at h
  cases hcollect : collectUsable includeIPv6 prefixes [] [] with
  | error error =>
    rw [hcollect] at h
    cases h
  | ok result =>
    rw [hcollect] at h
    change (if result.length = 0 then _ else _) = _ at h
    split at h
    · cases h
    · cases h
      exact collectUsable_usable (fun _ hi => hi) (fun _ hp => absurd hp List.not_mem_nil) hcollect

theorem located_sample {limit : Int} {result : List ScanTarget}
    (h : sample sha256 sortSlice prefixes limit includeIPv6 seed = some (.ok result)) :
    ∀ target ∈ result, Located (offered prefixes includeIPv6) target.targetIP := by
  unfold sample at h
  split at h
  · cases h
  cases husable : usablePrefixes prefixes includeIPv6 with
  | error error =>
    rw [husable] at h
    cases h
  | ok usable =>
    rw [husable] at h
    dsimp only at h
    have hmem : ∀ p ∈ sortSlice.sort (fun p q : Prefix => decide (p.string < q.string)) usable,
        Usable prefixes includeIPv6 p := fun p hp =>
      usable_of_usablePrefixes husable p ((sortSlice.perm _ _).mem_iff.mp hp)
    rw [Targets.sampleRounds_eq (fun p hp => (hmem p hp).masked) (Nat.zero_le _)] at h
    simp only [List.length_nil, Nat.sub_zero, List.nil_append, Option.bind_eq_bind,
      Option.bind_some] at h
    split at h
    · cases h
    · cases h
      intro target htarget
      obtain ⟨d, hd, rfl⟩ := List.mem_map.mp htarget
      obtain ⟨hnetwork, haddr⟩ :=
        Targets.mem_enumeration ((freshOn_sublist _ _).mem (List.mem_of_mem_take hd))
      have husable := hmem _ hnetwork
      exact ⟨d.network, husable, d.addr, Netip.parseAddr_string _,
        Targets.contains_of_addressFor husable.masked haddr⟩

theorem located_onePerPrefix {result : List ScanTarget}
    (h : onePerPrefix sha256 sortSlice prefixes includeIPv6 seed = some (.ok result)) :
    ∀ target ∈ result, Located (offered prefixes includeIPv6) target.targetIP := by
  unfold onePerPrefix at h
  cases husable : usablePrefixes prefixes includeIPv6 with
  | error error =>
    rw [husable] at h
    cases h
  | ok usable =>
    rw [husable] at h
    have hmem : ∀ p ∈ sortSlice.sort Targets.specificLess usable, Usable prefixes includeIPv6 p :=
      fun p hp => usable_of_usablePrefixes husable p ((sortSlice.perm _ _).mem_iff.mp hp)
    obtain ⟨seen, hreserved⟩ :=
      Targets.reserved_of_chooseUnique (fun p hp => (hmem p hp).masked) .start h
    intro target htarget
    obtain ⟨p, a, rfl, hin⟩ := hreserved.inside target htarget
    -- the prefix is that of the target, so it is one of those it went through
    have hcidr : p.string ∈ (sortSlice.sort Targets.specificLess usable).map Prefix.string := by
      have hmap : p.string ∈ result.map ScanTarget.prefixCIDR := List.mem_map_of_mem htarget
      rwa [hreserved.cidrs, List.nil_append] at hmap
    obtain ⟨q, hq, hsame⟩ := List.mem_map.mp hcidr
    obtain rfl : q = p := Netip.Prefix.string_injective hsame
    exact ⟨q, hmem q hq, a, Netip.parseAddr_string _, hin⟩

end Samples

/-! ## League plans -/

section Plan

variable {server : Jobs.PlanServer} {input : Jobs.LeagueRequest} {agentIDs : List String}
  {now : Timestamp} {agents : Agents} {prefixes : List ModelPrefix}

/-- What is active in a plan after the upserts is of prefixes of the listing. -/
theorem inPool_of_active {s : Jobs.JobStore} {entries : Table LeagueKey LeagueRow LeagueRow.key}
    (h : Upserted (Jobs.activateEntry now) (Jobs.batchKeys server input agentIDs prefixes)
      (Jobs.deactivateStale server input agentIDs now s.entries) entries) {e : LeagueRow}
    (hrow : e ∈ entries.rows) (hactive : e.active = true)
    (hplan : Jobs.inPlan server input agentIDs e.key = true) :
    Jobs.InPool server input.includeIPv6 prefixes e.key := by
  by_contra hpool
  have hnot : e.key ∉ Jobs.batchKeys server input agentIDs prefixes :=
    mt (Jobs.mem_batchKeys_of_inPlan hplan).mp hpool
  have hfind := Table.find?_key hrow
  rw [h.of_notMem hnot, Jobs.find?_deactivateStale, if_pos hplan] at hfind
  obtain ⟨old, -, rfl⟩ := Option.map_eq_some_iff.mp hfind
  cases hactive

/-- What a plan loads is of prefixes of the listing. -/
theorem planEntries_inPool {queries : Jobs.PlanQueries} {s s' : Jobs.JobStore}
    {items : List Jobs.LeagueItem} {candidates : List Jobs.CandidateStats}
    (h : Jobs.planEntries server input agentIDs now queries agents s prefixes =
      .ok ((items, candidates), s')) :
    s'.scan = s.scan ∧ ∀ item ∈ items, ∃ k : LeagueKey,
      item.entry.prefixCIDR = k.prefixCIDR.text ∧
        Jobs.InPool server input.includeIPv6 prefixes k := by
  unfold Jobs.planEntries at h
  split at h
  · cases h
  split at h
  · cases h
  obtain ⟨entries, hupserts, h⟩ := bind_eq_ok h
  obtain ⟨loaded, hload, h⟩ := bind_eq_ok h
  obtain ⟨entries', -, h⟩ := bind_eq_ok h
  cases h
  have hupserted := Upserted.foldlM (f := Jobs.activateEntry now) Jobs.activateEntry_activateEntry
    (fun _ _ _ hstep => Jobs.upserted_upsertEntry hstep) hupserts
  refine ⟨rfl, fun item hitem => ?_⟩
  obtain ⟨item', hloaded, rfl⟩ := List.mem_map.mp hitem
  unfold Jobs.loadLeagueEntries at hload
  dsimp only at hload
  split at hload
  · cases hload
    obtain ⟨e, he, rfl⟩ := List.mem_map.mp hloaded
    obtain ⟨hrow, hread⟩ := List.mem_filter.mp ((queries.entries.perm _).mem_iff.mp he)
    obtain ⟨hactive, hplan⟩ := Bool.and_eq_true_iff.mp hread
    exact ⟨e.key, (Jobs.evaluate_keeps _ _).2.1, inPool_of_active hupserted hrow hactive hplan⟩
  · cases hload

/-- Whatever candidates there are, a plan takes addresses of the prefixes of its entries. -/
theorem located_planAgent {rt : Runtime} {entries : List PrefixLeagueEntry}
    {candidates : String → List LeagueCandidate} {options : PlanOptions} {fuel : Nat}
    (hfuel : 10000 < fuel) {result : List ScanTarget}
    (h : planAgent rt entries candidates options fuel = some result) :
    ∀ target ∈ result, ∃ entry ∈ entries, ∃ p, Netip.parsePrefix entry.prefixCIDR = some p ∧
      ∃ a, parseAddr target.targetIP = some a ∧ p.masked.contains a = true := by
  obtain ⟨queues, planned, taken, -, hbuilt, hrun, hweighted⟩ :=
    League.planAgent_total rt entries candidates options
  rw [hrun fuel hfuel] at h
  cases h
  intro target htarget
  have hqueued : target ∈ queues.targets := by
    rw [League.targets_eq]
    exact (hbuilt.fair hweighted).once.subset htarget
  obtain ⟨queue, hqueue, hitem⟩ := List.mem_flatMap.mp hqueued
  obtain ⟨tier, -, hqueue⟩ := List.mem_flatMap.mp hqueue
  obtain ⟨entry, hentry, -, p, hfor⟩ := hbuilt.queue tier queue hqueue
  obtain ⟨a, ha, hin⟩ := League.inPrefix_iff.mp (hfor.inside target hitem)
  exact ⟨entry, (League.mem_dueOrder hentry).1, p, hfor.parses, a, ha, hin⟩

theorem located_planTargets {rt : Runtime} {seed : String} {force : Bool} {fuel : Nat}
    (hfuel : 10000 < fuel) {items : List Jobs.LeagueItem} {candidates : List Jobs.CandidateStats}
    {plan : List AgentScanTargets}
    (h : Jobs.planTargets server input agentIDs rt seed force fuel items candidates = some plan) :
    ∀ agentSet ∈ plan, ∀ target ∈ agentSet.targets, ∃ item ∈ items, ∃ p,
      Netip.parsePrefix item.entry.prefixCIDR = some p ∧
        ∃ a, parseAddr target.targetIP = some a ∧ p.masked.contains a = true := by
  unfold Jobs.planTargets at h
  induction agentIDs generalizing plan with
  | nil =>
    rw [List.mapM_nil] at h
    cases h
    exact fun _ hset => absurd hset List.not_mem_nil
  | cons agentID agentIDs ih =>
    rw [List.mapM_cons] at h
    obtain ⟨agentSet, hset, h⟩ := Option.bind_eq_some_iff.mp h
    obtain ⟨rest, hrest, h⟩ := Option.bind_eq_some_iff.mp h
    cases h
    obtain ⟨targets, hplan, hset⟩ := Option.bind_eq_some_iff.mp hset
    cases hset
    intro agentSet hmem target htarget
    rcases List.mem_cons.mp hmem with rfl | hmem
    · obtain ⟨entry, hentry, hin⟩ := located_planAgent hfuel hplan target htarget
      obtain ⟨item, hitem, rfl⟩ := List.mem_map.mp (List.mem_of_mem_filter hentry)
      exact ⟨item, hitem, hin⟩
    · exact ih hrest agentSet hmem target htarget

/-- A listing has the texts of the database. -/
def Listed (server : Jobs.PlanServer) (prefixes : List ModelPrefix) : Prop :=
  ∀ item ∈ prefixes, ∀ cidr, server.cidr item.cidr = some cidr → cidr.text = item.cidr

/-- However it ends, a plan leaves the scan tables alone. -/
theorem planLeagueTargets_scan {queries : Jobs.PlanQueries} {rt : Runtime} {s : Jobs.JobStore}
    {seed : String} {force : Bool} {fuel : Nat} :
    (Jobs.planLeagueTargets server input agentIDs now queries rt agents s prefixes seed force
      fuel).2.scan = s.scan := by
  unfold Jobs.planLeagueTargets
  cases hplan : Jobs.planEntries server input agentIDs now queries agents s prefixes with
  | error error => rfl
  | ok loaded => exact (planEntries_inPool hplan).1

theorem located_planLeagueTargets (hlisted : Listed server prefixes) {queries : Jobs.PlanQueries}
    {rt : Runtime} {s s' : Jobs.JobStore} {seed : String} {force : Bool} {fuel : Nat}
    (hfuel : 10000 < fuel) {plan : List AgentScanTargets}
    (h : Jobs.planLeagueTargets server input agentIDs now queries rt agents s prefixes seed force
      fuel = (.ok (some plan), s')) :
    ∀ agentSet ∈ plan, ∀ target ∈ agentSet.targets,
      Located (offered prefixes input.includeIPv6) target.targetIP := by
  unfold Jobs.planLeagueTargets at h
  cases hplan : Jobs.planEntries server input agentIDs now queries agents s prefixes with
  | error error =>
    rw [hplan] at h
    cases h
  | ok loaded =>
    obtain ⟨⟨items, candidates⟩, s₁⟩ := loaded
    rw [hplan] at h
    injection h with htargets hs
    obtain ⟨-, hitems⟩ := planEntries_inPool hplan
    intro agentSet hset target htarget
    obtain ⟨item, hitem, p, hp, a, ha, hin⟩ :=
      located_planTargets hfuel (Except.ok.inj htargets) agentSet hset target htarget
    obtain ⟨k, htext, listed, hmem, hwanted, hcidr⟩ := hitems item hitem
    rw [htext, hlisted listed hmem _ hcidr] at hp
    exact ⟨p.masked, ⟨listed, hmem, hwanted, p, hp, rfl⟩, a, ha, hin⟩

end Plan

end Cfscan.Center
