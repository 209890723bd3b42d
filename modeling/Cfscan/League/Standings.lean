import Cfscan.League.Dashboard
import Cfscan.Results.Pages
import Mathlib.Data.String.Basic

/-!
# The pages of the league

Neither listing of the dashboard is ordered by all columns of the primary key, so two entries of
one agent and one network that differ in their probes only are tied, and so are their addresses.
The pages are the standings, each entry once, exactly when ties stay on one page and, for the
candidates, on one side of the cut of their entry (`league_pages`).

The two conditions are of different kinds. Ties across the edge of a page make an entry turn up
twice or not at all, depending on what two queries do with one tie; a tie at the second place of an
entry makes two queries select different addresses in the first place, so that the count and the
page need not be about the same rows. Both directions of `league_pages` are proved with arrangements
that PostgreSQL may choose, and not with one that it does choose.
-/

set_option autoImplicit false

namespace Cfscan.League.Dashboard

open Cfscan.Lib Cfscan.Store
open Cfscan.Results (Agent ScanJob ScanResult Arg limitOffset)

/-- The server takes the agent of the filter. -/
def Accepted (server : LeagueServer) (filter : LeagueDashboardFilter) : Prop :=
  filter.agentID ≠ "" → server.uuid filter.agentID ≠ none

/-- The entries a filter is for. -/
def standing (server : LeagueServer) (s : LeagueStore) (filter : LeagueDashboardFilter) :
    List LeagueRow :=
  s.entries.rows.filter fun e =>
    e.active && decide (filter.agentID ≠ "" → server.uuid filter.agentID = some e.key.agentID)

/-- The candidates a filter is for. -/
def standingCandidates (server : LeagueServer) (s : LeagueStore) (now : Timestamp)
    (filter : LeagueDashboardFilter) (ranks : Arrangement rankOrder) : List IPStats :=
  selected server s now (agentCondition filter).1 (agentCondition filter).2 ranks

section Queries

variable {server : LeagueServer} {s : LeagueStore} {now : Timestamp}
  {filter : LeagueDashboardFilter}

/-- The condition finds the agent whatever comes behind it. -/
theorem activeEntries_append (more : List Arg) :
    activeEntries server s ((agentCondition filter).1 ++ more) (agentCondition filter).2 =
      standing server s filter := by
  unfold activeEntries standing
  refine List.filter_congr fun e _ => ?_
  congr 1
  unfold agentCondition
  split
  · rename_i hagent
    simp [inAgent, hagent]
  · rename_i hagent
    simp [inAgent, hagent]

theorem activeEntries_own :
    activeEntries server s (agentCondition filter).1 (agentCondition filter).2 =
      standing server s filter := by
  rw [← activeEntries_append [], List.append_nil]

theorem selected_append (more : List Arg) (ranks : Arrangement rankOrder) :
    selected server s now ((agentCondition filter).1 ++ more) (agentCondition filter).2 ranks =
      standingCandidates server s now filter ranks := by
  unfold standingCandidates selected ipStats samples
  rw [activeEntries_append, activeEntries_own]

theorem run_append {α : Type} (more : List Arg) (context : String) (rows : α) :
    run server context ((agentCondition filter).1 ++ more) (agentCondition filter).2 rows =
      run server context (agentCondition filter).1 (agentCondition filter).2 rows := by
  unfold agentCondition
  split <;> rfl

theorem run_accepted {α : Type} (h : Accepted server filter) (context : String) (rows : α) :
    run server context (agentCondition filter).1 (agentCondition filter).2 rows = .ok rows := by
  unfold agentCondition
  split
  · rename_i hagent
    exact if_neg (h hagent)
  · rfl

theorem run_refused {α : Type} (h : ¬ Accepted server filter) (context : String) (rows : α) :
    run server context (agentCondition filter).1 (agentCondition filter).2 rows =
      .error (.db context .castFailed) := by
  unfold Accepted at h
  push Not at h
  unfold agentCondition
  rw [if_pos h.1]
  exact if_pos h.2

/-- The three counts are all entries. -/
theorem count_tiers {l : List LeagueRow} (h : ∀ e ∈ l, normalizedTier e.tier = e.tier) :
    l.countP (fun e => decide (e.tier = .observation)) +
      l.countP (fun e => decide (e.tier = .challenger)) +
      l.countP (fun e => decide (e.tier = .champion)) = l.length := by
  induction l with
  | nil => rfl
  | cons e l ih =>
    have hrest := ih fun e' he' => h e' (List.mem_cons_of_mem _ he')
    have hhead := h e List.mem_cons_self
    simp only [List.countP_cons, List.length_cons]
    cases htier : e.tier with
    | other name =>
      rw [htier] at hhead
      cases hhead
    | observation | challenger | champion => simp; omega

end Queries

/-! ## One page -/

theorem leaguePageSize_pos (pageSize : Int) : 0 < leaguePageSize pageSize := by
  unfold leaguePageSize
  split <;> omega

theorem totalPages_normalize (total : Nat) (page pageSize : Int) :
    (normalizeLeaguePage total page pageSize).2.1 =
      (totalPages total (leaguePageSize pageSize).toNat : Nat) := by
  rw [Results.totalPages_int total (leaguePageSize_pos pageSize)]
  unfold normalizeLeaguePage
  by_cases htotal : total = 0
  · simp [htotal]
  · have hpos : total > 0 := Nat.pos_of_ne_zero htotal
    simp [htotal, hpos]

theorem items_leaguePage {ρ : Type} (args : List Arg) {total n : Nat} {pageSize : Int}
    (hn : n < totalPages total (leaguePageSize pageSize).toNat) (rows : List ρ) :
    (leaguePage (pageArgs args total (n + 1) pageSize) total (n + 1) pageSize rows).items =
      page (leaguePageSize pageSize).toNat n rows := by
  have hsize := leaguePageSize_pos pageSize
  have htotal : 0 < total := by
    by_contra hnot
    obtain rfl : total = 0 := by omega
    rw [totalPages, Nat.div_eq_of_lt (by omega)] at hn
    exact absurd hn (Nat.not_lt_zero n)
  have hpages := Results.totalPages_int total hsize
  rw [if_pos htotal] at hpages
  have hoffset : (normalizeLeaguePage total (n + 1) pageSize).2.2 = n * leaguePageSize pageSize := by
    unfold normalizeLeaguePage
    dsimp only
    rw [if_neg (by omega), ← hpages, if_neg (by omega), if_neg (by omega), Int.add_sub_cancel]
  have hlength : (pageArgs args total (n + 1) pageSize).length = args.length + 2 := by
    rw [pageArgs, List.length_append]
    rfl
  rw [leaguePage, hlength]
  exact Results.limitOffset_page args hsize hoffset rows

section Call

variable {server : LeagueServer} {s : LeagueStore} {now : Timestamp}
  {filter : LeagueDashboardFilter}

/-- What a call returns of either listing. -/
structure Returns (server : LeagueServer) (s : LeagueStore) (now : Timestamp)
    (filter : LeagueDashboardFilter) (queries : LeagueQueries server) (d : LeagueDashboard) :
    Prop where
  prefixes : d.prefixes = leaguePage
    (pageArgs (agentCondition filter).1 (standing server s filter).length filter.prefixPage
      filter.prefixPageSize)
    (standing server s filter).length filter.prefixPage filter.prefixPageSize
    (queries.prefixes.rows ((standing server s filter).filterMap (joinEntry s)))
  totalPages : d.candidates.totalPages = totalPages
    (standingCandidates server s now filter queries.counted).length
    (leaguePageSize filter.candidatePageSize).toNat
  candidates : d.candidates.items.map LeagueCandidate.row = (leaguePage
    (pageArgs (agentCondition filter).1
      (standingCandidates server s now filter queries.counted).length filter.candidatePage
      filter.candidatePageSize)
    (standingCandidates server s now filter queries.counted).length filter.candidatePage
    filter.candidatePageSize (queries.candidates.rows
      ((standingCandidates server s now filter queries.ranks).filterMap (joinStats s)))).items

theorem getLeagueDashboard_accepted (s : LeagueStore) (now : Timestamp)
    (h : Accepted server filter) (queries : LeagueQueries server) :
    ∃ d, getLeagueDashboard server s now queries filter = .ok d ∧
      Returns server s now filter queries d := by
  have htotal := count_tiers (l := standing server s filter) fun e he =>
    s.checked e (List.mem_of_mem_filter he)
  unfold getLeagueDashboard
  simp only [prefixRows, pageArgs, run_append, run_accepted h, activeEntries_append,
    activeEntries_own, selected_append]
  refine ⟨_, rfl, ?_, ?_, ?_⟩
  · dsimp only
    rw [htotal]
    rfl
  · exact totalPages_normalize ..
  · rw [List.map_map]
    exact List.map_id _

theorem returns_of_ok {queries : LeagueQueries server} {d : LeagueDashboard}
    (h : Accepted server filter) (hok : getLeagueDashboard server s now queries filter = .ok d) :
    Returns server s now filter queries d := by
  obtain ⟨d', hd', hreturns⟩ := getLeagueDashboard_accepted s now h queries
  cases hok.symm.trans hd'
  exact hreturns

theorem exists_pages (filters : Nat → LeagueDashboardFilter)
    (h : ∀ n, Accepted server (filters n)) (queries : Nat → LeagueQueries server) :
    ∃ pages : Nat → LeagueDashboard, ∀ n,
      getLeagueDashboard server s now (queries n) (filters n) = .ok (pages n) := by
  choose pages hok _ using fun n =>
    getLeagueDashboard_accepted s now (h n) (queries n)
  exact ⟨pages, hok⟩

end Call

/-! ## All pages -/

/-- The pages of entries, each read by a call of its own, put together are the entries. -/
def PrefixPagesPartition (server : LeagueServer) (s : LeagueStore) (now : Timestamp)
    (filter : LeagueDashboardFilter) : Prop :=
  ∀ (queries : Nat → LeagueQueries server) (pages : Nat → LeagueDashboard),
    (∀ n : Nat, getLeagueDashboard server s now (queries n)
      { filter with prefixPage := (n : Int) + 1 } = .ok (pages n)) →
    ((List.range (pages 0).prefixes.totalPages.toNat).flatMap fun n =>
      (pages n).prefixes.items.map PrefixRow.e).Perm (standing server s filter)

/-- The pages of candidates put together are the candidates, whatever selects these. -/
def CandidatePagesPartition (server : LeagueServer) (s : LeagueStore) (now : Timestamp)
    (filter : LeagueDashboardFilter) : Prop :=
  ∀ (queries : Nat → LeagueQueries server) (pages : Nat → LeagueDashboard),
    (∀ n : Nat, getLeagueDashboard server s now (queries n)
      { filter with candidatePage := (n : Int) + 1 } = .ok (pages n)) →
    ∀ ranks : Arrangement rankOrder,
      ((List.range (pages 0).candidates.totalPages.toNat).flatMap fun n =>
        (pages n).candidates.items.map fun c => c.row.stats).Perm
          (standingCandidates server s now filter ranks)

section Partition

variable {server : LeagueServer} {s : LeagueStore} {now : Timestamp}
  {filter : LeagueDashboardFilter}

theorem nodup_standing (server : LeagueServer) (s : LeagueStore) (filter : LeagueDashboardFilter) :
    (standing server s filter).Nodup :=
  (List.Nodup.of_map _ s.entries.nodup).filter _

theorem joinEntry_eq {e : LeagueRow} {row : PrefixRow} (h : joinEntry s e = some row) :
    row.e = e := by
  obtain ⟨a, _, rfl⟩ := Option.map_eq_some_iff.mp h
  rfl

/-- An entry has an agent. -/
theorem exists_joinEntry {e : LeagueRow} (he : e ∈ standing server s filter) :
    ∃ row, joinEntry s e = some row ∧ row.e = e := by
  obtain ⟨a, ha⟩ := Option.isSome_iff_exists.mp (s.references e (List.mem_of_mem_filter he))
  exact ⟨⟨e, a⟩, Option.map_eq_some_iff.mpr ⟨a, ha, rfl⟩, rfl⟩

theorem joinStats_eq {stats : IPStats} {row : CandidateRow} (h : joinStats s stats = some row) :
    row.stats = stats := by
  obtain ⟨a, _, rfl⟩ := Option.map_eq_some_iff.mp h
  rfl

/-- The pages of entries are the entries where the order leaves no tie on two of them. -/
theorem prefixPages_iff (h : Accepted server filter) :
    PrefixPagesPartition server s now filter ↔
      TiesOnOnePage (prefixOrder server) (leaguePageSize filter.prefixPageSize).toNat
        ((standing server s filter).filterMap (joinEntry s)) := by
  have hsize := leaguePageSize_pos filter.prefixPageSize
  have htoNat : 0 < (leaguePageSize filter.prefixPageSize).toNat := by omega
  have hnodup : ((standing server s filter).filterMap (joinEntry s)).Nodup :=
    (nodup_standing server s filter).filterMap fun e e' row he he' =>
      (joinEntry_eq he).symm.trans (joinEntry_eq he')
  have hlength : ((standing server s filter).filterMap (joinEntry s)).length =
      (standing server s filter).length := by
    rw [List.length_filterMap_eq_countP, List.countP_eq_length.mpr]
    intro e he
    obtain ⟨row, hrow, _⟩ := exists_joinEntry he
    rw [hrow, Option.isSome_some]
  have hback : ∀ row ∈ (standing server s filter).filterMap (joinEntry s),
      joinEntry s row.e = some row := by
    intro row hrow
    obtain ⟨e, _, he⟩ := List.mem_filterMap.mp hrow
    rw [joinEntry_eq he, he]
  rw [← pages_perm_iff htoNat hnodup, hlength]
  -- what the calls return, page by page
  have hpages : ∀ (queries : Nat → LeagueQueries server) (pages : Nat → LeagueDashboard),
      (∀ n : Nat, Returns server s now { filter with prefixPage := (n : Int) + 1 } (queries n)
        (pages n)) →
      (((List.range (pages 0).prefixes.totalPages.toNat).flatMap fun n =>
        (pages n).prefixes.items.map PrefixRow.e).Perm (standing server s filter) ↔
      ((List.range (totalPages (standing server s filter).length
        (leaguePageSize filter.prefixPageSize).toNat)).flatMap fun n =>
          page (leaguePageSize filter.prefixPageSize).toNat n ((queries n).prefixes.rows
            ((standing server s filter).filterMap (joinEntry s)))).Perm
        ((standing server s filter).filterMap (joinEntry s))) := by
    intro queries pages hreturns
    have htotal : (pages 0).prefixes.totalPages = (totalPages (standing server s filter).length
        (leaguePageSize filter.prefixPageSize).toNat : Nat) := by
      rw [(hreturns 0).prefixes]
      exact totalPages_normalize ..
    rw [htotal, Int.toNat_natCast, flatMap_map_pages fun n hn => ?_]
    · refine map_perm_iff (fun row hrow => ?_) fun e he => exists_joinEntry he
      obtain ⟨n, hmem⟩ := mem_of_mem_pages hrow
      exact hback row (Arrangement.mem _ |>.mp hmem)
    · rw [(hreturns n).prefixes]
      exact items_leaguePage _ hn _
  constructor
  · intro hpartition A
    let queries : Nat → LeagueQueries server := fun n =>
      ⟨A n, .mergeSort _, .mergeSort _, .mergeSort _, .mergeSort _⟩
    obtain ⟨pages, hok⟩ := exists_pages
      (fun n : Nat => { filter with prefixPage := (n : Int) + 1 }) (fun _ => h) queries
    exact (hpages queries pages fun n => returns_of_ok h (hok n)).mp (hpartition queries pages hok)
  · intro hall queries pages hok
    exact (hpages queries pages fun n => returns_of_ok h (hok n)).mpr
      (hall fun n => (queries n).prefixes)

theorem nodup_ipStats (args : List Arg) (position : Option Nat) :
    (ipStats server s now args position).Nodup := by
  refine List.Nodup.filter _ (List.Nodup.of_map IPStats.group ?_)
  rw [List.map_map]
  exact (List.map_id _).symm ▸ List.nodup_dedup _

/-- A candidate is one of an entry, and has its agent. -/
theorem exists_joinStats {args : List Arg} {position : Option Nat} {stats : IPStats}
    (h : stats ∈ ipStats server s now args position) :
    ∃ row, joinStats s stats = some row ∧ row.stats = stats := by
  obtain ⟨group, hgroup, rfl⟩ := List.mem_map.mp (List.mem_of_mem_filter h)
  obtain ⟨sample, hsample, rfl⟩ := List.mem_map.mp (List.mem_dedup.mp hgroup)
  obtain ⟨e, he, hmem⟩ := List.mem_flatMap.mp hsample
  obtain ⟨r, _, rfl⟩ := List.mem_map.mp hmem
  have hentry : e ∈ s.entries.rows := List.mem_of_mem_filter (List.mem_of_mem_filter he)
  obtain ⟨a, ha⟩ := Option.isSome_iff_exists.mp (s.references e hentry)
  exact ⟨⟨_, a⟩, Option.map_eq_some_iff.mpr ⟨a, ha, rfl⟩, rfl⟩

/-- The pages of candidates are the candidates where no tie stands across the cut of an entry or
on two pages. -/
theorem candidatePages_iff (h : Accepted server filter) :
    CandidatePagesPartition server s now filter ↔
      CutDecided rankOrder (fun stats => stats.group.key) 2
        (ipStats server s now (agentCondition filter).1 (agentCondition filter).2) ∧
      TiesOnOnePage (candidateOrder server) (leaguePageSize filter.candidatePageSize).toNat
        ((standingCandidates server s now filter (.mergeSort _)).filterMap (joinStats s)) := by
  have hsize := leaguePageSize_pos filter.candidatePageSize
  have htoNat : 0 < (leaguePageSize filter.candidatePageSize).toNat := by omega
  have hselected : ∀ {ranks : Arrangement rankOrder} {stats : IPStats},
      stats ∈ standingCandidates server s now filter ranks →
        ∃ row, joinStats s stats = some row ∧ row.stats = stats := fun hstats =>
    exists_joinStats (mem_top.mp hstats).1
  refine Iff.trans ?_ (top_pages_perm_iff htoNat (nodup_ipStats (agentCondition filter).1
    (agentCondition filter).2) (fun stats hstats => ?_) fun stats stats' row hrow hrow' =>
      (joinStats_eq hrow).symm.trans (joinStats_eq hrow'))
  rotate_left
  · obtain ⟨row, hrow, _⟩ := exists_joinStats hstats
    rw [hrow, Option.isSome_some]
  -- what the calls return, page by page
  have hpages : ∀ (queries : Nat → LeagueQueries server) (pages : Nat → LeagueDashboard)
      (ranks : Arrangement rankOrder),
      (∀ n : Nat, Returns server s now { filter with candidatePage := (n : Int) + 1 } (queries n)
        (pages n)) →
      (((List.range (pages 0).candidates.totalPages.toNat).flatMap fun n =>
        (pages n).candidates.items.map fun c => c.row.stats).Perm
          (standingCandidates server s now filter ranks) ↔
      ((List.range (totalPages (standingCandidates server s now filter (queries 0).counted).length
        (leaguePageSize filter.candidatePageSize).toNat)).flatMap fun n =>
          page (leaguePageSize filter.candidatePageSize).toNat n ((queries n).candidates.rows
            ((standingCandidates server s now filter (queries n).ranks).filterMap
              (joinStats s)))).Perm
        ((standingCandidates server s now filter ranks).filterMap (joinStats s))) := by
    intro queries pages ranks hreturns
    have hcounted : ∀ n, (standingCandidates server s now filter (queries n).counted).length =
        (standingCandidates server s now filter (queries 0).counted).length := fun n =>
      length_top (nodup_ipStats ..) _ _
    rw [(hreturns 0).totalPages, Int.toNat_natCast]
    have hread : ∀ n : Nat, ((pages n).candidates.items.map fun c => c.row.stats) =
        ((pages n).candidates.items.map LeagueCandidate.row).map CandidateRow.stats := fun n =>
      List.map_map.symm
    simp only [hread]
    rw [flatMap_map_pages fun n hn => ?_]
    · refine map_perm_iff (fun row hrow => ?_) fun stats hstats => hselected hstats
      obtain ⟨n, hmem⟩ := mem_of_mem_pages hrow
      obtain ⟨stats, _, hstats⟩ := List.mem_filterMap.mp (Arrangement.mem _ |>.mp hmem)
      rw [joinStats_eq hstats, hstats]
    · have hitems := (hreturns n).candidates
      dsimp only at hitems
      rw [hitems]
      have hn' : n < totalPages
          (standingCandidates server s now filter (queries n).counted).length
          (leaguePageSize filter.candidatePageSize).toNat := hcounted n ▸ hn
      exact items_leaguePage _ hn' _
  constructor
  · intro hpartition count ranks rank A
    let queries : Nat → LeagueQueries server := fun n =>
      ⟨.mergeSort _, count, rank n, A n, .mergeSort _⟩
    obtain ⟨pages, hok⟩ := exists_pages
      (fun n : Nat => { filter with candidatePage := (n : Int) + 1 }) (fun _ => h) queries
    exact (hpages queries pages ranks fun n => returns_of_ok h (hok n)).mp
      (hpartition queries pages hok ranks)
  · intro hall queries pages hok ranks
    exact (hpages queries pages ranks fun n => returns_of_ok h (hok n)).mpr
      (hall (queries 0).counted ranks (fun n => (queries n).ranks) fun n => (queries n).candidates)

end Partition

/-- **The pages of the league.** They are the standings, whatever each query does with ties,
exactly when the agent is refused, or no tie is on two pages of a listing and none of an entry's
addresses tied for its second place is left out. -/
theorem league_pages (server : LeagueServer) (s : LeagueStore) (now : Timestamp)
    (filter : LeagueDashboardFilter) :
    (PrefixPagesPartition server s now filter ∧ CandidatePagesPartition server s now filter) ↔
      (Accepted server filter →
        TiesOnOnePage (prefixOrder server) (leaguePageSize filter.prefixPageSize).toNat
          ((standing server s filter).filterMap (joinEntry s)) ∧
        CutDecided rankOrder (fun stats => stats.group.key) 2
          (ipStats server s now (agentCondition filter).1 (agentCondition filter).2) ∧
        TiesOnOnePage (candidateOrder server) (leaguePageSize filter.candidatePageSize).toNat
          ((standingCandidates server s now filter (.mergeSort _)).filterMap (joinStats s))) := by
  by_cases h : Accepted server filter
  · rw [prefixPages_iff h, candidatePages_iff h]
    exact (imp_iff_right h).symm
  · have hrefused : ∀ (queries : LeagueQueries server) (filter' : LeagueDashboardFilter)
        (d : LeagueDashboard), filter'.agentID = filter.agentID →
        getLeagueDashboard server s now queries filter' ≠ .ok d := by
      intro queries filter' d hagent hok
      have hnot : ¬ Accepted server filter' := by
        unfold Accepted
        rw [hagent]
        exact h
      unfold getLeagueDashboard at hok
      simp only [run_refused hnot] at hok
      cases hok
    refine iff_of_true ⟨fun queries pages hok => ?_, fun queries pages hok => ?_⟩
      fun haccepted => absurd haccepted h
    · exact absurd (hok 0) (hrefused _ _ _ rfl)
    · exact absurd (hok 0) (hrefused _ _ _ rfl)

/-! ## A network probed on two ports -/

/-- `percentile_cont`: between the two values next to the fraction. -/
def interpolated (fraction : ℚ) (values : List ℚ) : ℚ :=
  let sorted := values.mergeSort fun a b => decide (a ≤ b)
  let position := fraction * (sorted.length - 1)
  let low := (sorted[position.floor.toNat]?).getD 0
  let high := (sorted[position.floor.toNat + 1]?).getD low
  low + (position - position.floor) * (high - low)

def twoPortsServer : LeagueServer where
  toPostgres := .withoutAddresses fun text => some text.length
  cidrOrder := (SortOrder.ofLinear String).on Cidr.text
  inetOrder := (SortOrder.ofLinear String).on Inet.host
  avgNumeric := fun values => values.foldl (· + ·) 0 / values.length
  avgDouble := fun values => values.foldl (· + ·) 0 / values.length
  percentileCont := interpolated

/-- An entry nothing was measured for yet. -/
def newEntry (port : Int) : LeagueRow where
  key := ⟨7, ⟨"104.16.0.0/24"⟩, "https", "example.com", "/cdn-cgi/trace", port, 3, 2000⟩
  tier := .observation
  active := true
  sampleCount := 0
  distinctIPCount := 0
  availabilityRate := 0
  latencyP95MS := 0
  packetLossAvg := 0
  recentSampleCount := 0
  recentAvailabilityRate := 0
  recentLatencyP95MS := 0
  recentPacketLossAvg := 0
  badStreak := 0
  lastResultAt := none
  lastScheduledAt := none
  lastEvaluatedAt := none
  updatedAt := 0

def twoPorts : LeagueStore where
  entries := ⟨[newEntry 443, newEntry 8443], by decide⟩
  agents := ⟨[⟨7, "osaka-1", "Osaka", "Asia"⟩], by decide⟩
  jobs := .empty
  results := .empty
  references := by decide
  checked := by decide

/-- Every agent, one entry on a page. -/
def onePerPage : LeagueDashboardFilter := ⟨"", 1, 1, 1, 1⟩

/-- The two entries can share both pages. -/
theorem standings_repeat : ¬ (PrefixPagesPartition twoPortsServer twoPorts 0 onePerPage ∧
    CandidatePagesPartition twoPortsServer twoPorts 0 onePerPage) := by
  have haccepted : Accepted twoPortsServer onePerPage := fun hagent => absurd rfl hagent
  rintro ⟨hpages, _⟩
  have hties := (prefixPages_iff haccepted).mp hpages
    ⟨newEntry 443, ⟨7, "osaka-1", "Osaka", "Asia"⟩⟩ (by decide)
  revert hties
  decide

end Cfscan.League.Dashboard
