import Cfscan.Results.Listing
import Mathlib.Data.String.Basic

/-!
# The pages of `ListResults`

Every order `resultOrder` makes ends in the id, so it tells every two rows apart, and a page does
not depend on how its query arranges equal rows. With the three queries agreeing on which rows
they are about, the pages of a filter put together are its rows, each once and in order
(`result_pages`).

What "in order" means is said apart from `resultOrder`. `SortedBy` names the column of each of the
eight sort keys and the direction of each of the two orders, so that an `ORDER BY` with the wrong
column, the wrong direction or no column at all is not one of these. `sortedBy_rows` connects the
two.

## What is assumed

`strings.EqualFold` is only known on the two words a request may order by (`OrderServer`). A table
has as many rows as its server can address (`Addressed`): the number of pages is computed in 64 bits,
and would wrap round some two hundred rows below 2^63.
-/

set_option autoImplicit false

namespace Cfscan.Results

open Cfscan.Lib Cfscan.Store

/-! ## Sorted by the requested key

Said without `resultOrder`, per key and direction: which column of a row counts, and that
rows equal in it come the newer first. Texts, the address among them, are compared by the
server's collation. For the latency the unavailable rows come behind, in either direction. -/

/-- What `strings.EqualFold` does to the two words. -/
structure OrderServer extends ResultServer where
  equalFold_desc : equalFold "desc" "desc" = true
  equalFold_asc : equalFold "asc" "desc" = false

/-- Rows in the order of a column, ascending or descending as the filter asks. -/
structure Directed {κ : Type} (filter : ResultFilter) (le : κ → κ → Prop) (key : ResultRow → κ)
    (rows : List ResultRow) : Prop where
  ascending : filter.order = "asc" → rows.Pairwise fun a b => le (key a) (key b)
  descending : filter.order = "desc" → rows.Pairwise fun a b => le (key b) (key a)

/-- NewerFirst first, and of one time the higher id first. -/
def NewerFirst (a b : ResultRow) : Prop :=
  b.r.scannedAt < a.r.scannedAt ∨ b.r.scannedAt = a.r.scannedAt ∧ b.r.id ≤ a.r.id

/-- The rows of a listing by one column, those that agree in it by their age. -/
structure ByColumn {κ : Type} (filter : ResultFilter) (le : κ → κ → Prop) (key : ResultRow → κ)
    (rows : List ResultRow) : Prop extends Directed filter le key rows where
  newest : rows.Pairwise fun a b => key a = key b → NewerFirst a b

/-- What each of the eight sort keys asks of the rows of a listing. Texts are in the server's
order. -/
structure SortedBy (server : ResultServer) (filter : ResultFilter) (rows : List ResultRow) :
    Prop where
  targetIP : filter.sort = "target_ip" →
    ByColumn filter (fun a b => server.collation.le a b = true) ResultRow.targetIP rows
  agentName : filter.sort = "agent_name" →
    ByColumn filter (fun a b => server.collation.le a b = true) (fun row => row.a.name) rows
  colo : filter.sort = "colo" →
    ByColumn filter (fun a b => server.collation.le a b = true) (fun row => row.r.colo) rows
  available : filter.sort = "available" →
    ByColumn filter (· ≤ ·) (fun row => row.r.available) rows
  packetLoss : filter.sort = "packet_loss" →
    ByColumn filter (· ≤ ·) (fun row => row.r.packetLoss) rows
  httpStatus : filter.sort = "http_status" →
    ByColumn filter (· ≤ ·) (fun row => row.r.httpStatus) rows
  scannedAt : filter.sort = "scanned_at" →
    ByColumn filter (· ≤ ·) (fun row => row.r.scannedAt) rows
  /-- Each by latency, the available rows and behind them the others. -/
  latency : filter.sort = "latency_ms" →
    rows.Pairwise (fun a b => b.r.available = true → a.r.available = true) ∧
      ∀ available, ByColumn filter (· ≤ ·) (fun row => row.r.latencyMS)
        (rows.filter fun row => decide (row.r.available = available))

section Order

variable {server : ResultServer} {s : ResultStore} {filter : ResultFilter} {a b : ResultRow}

theorem tied_byID : byID.Tied a b ↔ a.r.id = b.r.id := by simp [byID]

theorem tied_byTime (h : byTime.Tied a b) : a.r.id = b.r.id :=
  tied_byID.mp (SortOrder.tied_thenBy.mp h).2

/-- Every order is total: it ends in the id. -/
theorem tied_resultOrder (h : (resultOrder server filter).Tied a b) : a.r.id = b.r.id := by
  unfold resultOrder at h
  dsimp only at h
  split at h
  · exact tied_byTime (SortOrder.tied_thenBy.mp h).2
  split at h
  · exact tied_byTime (SortOrder.tied_thenBy.mp h).2
  split at h
  · exact tied_byTime (SortOrder.tied_thenBy.mp h).2
  split at h
  · exact tied_byTime (SortOrder.tied_thenBy.mp h).2
  split at h
  · exact tied_byTime (SortOrder.tied_thenBy.mp h).2
  split at h
  · exact tied_byTime (SortOrder.tied_thenBy.mp h).2
  split at h
  · exact tied_byID.mp (SortOrder.tied_thenBy.mp h).2
  · exact tied_byTime (SortOrder.tied_thenBy.mp (SortOrder.tied_thenBy.mp h).2).2

end Order

/-! ## What `resultOrder` sorts by

The bridge: a list sorted by the order the source builds is sorted in the sense above.
Behind the requested key the source has the time and the id, both descending, which is
`NewerFirst`. -/

section Sorted

variable {server : OrderServer} {filter : ResultFilter} {rows : List ResultRow}

theorem newerFirst_of_byID {a b : ResultRow} (htime : a.r.scannedAt = b.r.scannedAt)
    (h : byID.le a b = true) : NewerFirst a b :=
  Or.inr ⟨htime.symm, of_decide_eq_true h⟩

theorem newerFirst_of_byTime {a b : ResultRow} (h : byTime.le a b = true) : NewerFirst a b := by
  obtain ⟨htime, hid⟩ := SortOrder.le_thenBy h
  have hle : b.r.scannedAt ≤ a.r.scannedAt := of_decide_eq_true htime
  rcases lt_or_eq_of_le hle with hlt | heq
  · exact Or.inl hlt
  · exact newerFirst_of_byID heq.symm (hid (by simp [heq]))

/-- A clause that starts with a column sorts by it, in the direction of the filter. -/
theorem byColumn_of_sorted {κ : Type} {o : SortOrder κ} {le : κ → κ → Prop}
    (hle : ∀ x y, o.le x y = true ↔ le x y) {key : ResultRow → κ} {rest : SortOrder ResultRow}
    (hrest : ∀ a b, key a = key b → rest.le a b = true → NewerFirst a b)
    (hsorted : rows.Pairwise fun a b =>
      ((filter.ordered server.toResultServer (o.on key)).thenBy rest).le a b = true) :
    ByColumn filter le key rows := by
  have hfirst : rows.Pairwise fun a b =>
      (filter.ordered server.toResultServer (o.on key)).le a b = true :=
    hsorted.imp fun h => (SortOrder.le_thenBy h).1
  refine ⟨⟨fun horder => ?_, fun horder => ?_⟩, hsorted.imp fun {a b} h hkey => ?_⟩
  · rw [ResultFilter.ordered, horder, server.equalFold_asc] at hfirst
    exact hfirst.imp fun h => (hle _ _).mp h
  · rw [ResultFilter.ordered, horder, server.equalFold_desc] at hfirst
    exact hfirst.imp fun h => (hle _ _).mp h
  · refine hrest a b hkey ((SortOrder.le_thenBy h).2 ?_)
    have htied : (o.on key).Tied a b := by
      rw [SortOrder.tied_on, hkey]
      exact ⟨o.refl _, o.refl _⟩
    unfold ResultFilter.ordered
    split
    · exact SortOrder.tied_desc.mpr htied
    · exact htied

theorem le_ofLinear {κ : Type} [LinearOrder κ] (x y : κ) :
    (SortOrder.ofLinear κ).le x y = true ↔ x ≤ y := decide_eq_true_iff

/-- **`resultOrder` sorts by the requested key.** -/
theorem sortedBy_rows (hsorted : rows.Pairwise fun a b =>
    (resultOrder server.toResultServer filter).le a b = true) :
    SortedBy server.toResultServer filter rows := by
  have hbyTime : ∀ {κ : Type} {key : ResultRow → κ} (a b : ResultRow), key a = key b →
      byTime.le a b = true → NewerFirst a b := fun _ _ _ h => newerFirst_of_byTime h
  refine ⟨fun hsort => ?_, fun hsort => ?_, fun hsort => ?_, fun hsort => ?_, fun hsort => ?_,
    fun hsort => ?_, fun hsort => ?_, fun hsort => ?_⟩
  all_goals
    unfold resultOrder at hsorted
    simp only [hsort, String.reduceEq, if_false, if_true] at hsorted
  · exact byColumn_of_sorted (fun _ _ => Iff.rfl) hbyTime hsorted
  · exact byColumn_of_sorted (fun _ _ => Iff.rfl) hbyTime hsorted
  · exact byColumn_of_sorted (fun _ _ => Iff.rfl) hbyTime hsorted
  · exact byColumn_of_sorted le_ofLinear hbyTime hsorted
  · exact byColumn_of_sorted le_ofLinear hbyTime hsorted
  · exact byColumn_of_sorted le_ofLinear hbyTime hsorted
  · exact byColumn_of_sorted le_ofLinear (fun a b => newerFirst_of_byID) hsorted
  · constructor
    · refine hsorted.imp fun {a b} h hb => ?_
      have hle : b.r.available ≤ a.r.available := of_decide_eq_true (SortOrder.le_thenBy h).1
      rw [hb] at hle
      exact top_le_iff.mp hle
    · intro available
      have hleft : (rows.filter fun row => decide (row.r.available = available)).Pairwise fun a b =>
          ((filter.ordered server.toResultServer ((SortOrder.ofLinear ℚ).on fun row =>
            row.r.latencyMS)).thenBy byTime).le a b = true := by
        refine (hsorted.sublist List.filter_sublist).imp_of_mem fun {a b} ha hb h => ?_
        -- of one availability, the rows are tied in the first item
        have ha := of_decide_eq_true (List.mem_filter.mp ha).2
        have hb := of_decide_eq_true (List.mem_filter.mp hb).2
        exact (SortOrder.le_thenBy h).2 (by simp [ha, hb])
      exact byColumn_of_sorted le_ofLinear hbyTime hleft

end Sorted

/-! ## The pages

All the pages of a filter are cut from one list, because the order leaves no two rows tied,
and so the executor of each query has no choice. The ceiling in the number of pages is what
makes the last of them reach the end. -/

/-- The server can address the rows of the table: each has a block of 32 bits and a place of 16. -/
def Addressed (s : ResultStore) : Prop := s.results.rows.length ≤ 2 ^ 48

theorem length_resultRows_le (server : ResultServer) (s : ResultStore) (filter : ResultFilter)
    (withJob : Bool) : (resultRows server s filter withJob).length ≤ s.results.rows.length := by
  have hcandidates : ((resultDataset server filter true withJob).candidates server
      (resultDataset server filter true withJob).conditions.args s).length ≤
        s.results.rows.length :=
    (List.length_filter_le _ _).trans (List.length_filterMap_le _ _)
  unfold resultRows Dataset.filtered Dataset.selected
  split
  · exact ((List.length_filter_le _ _).trans (List.length_filter_le _ _)).trans hcandidates
  · exact (List.length_filter_le _ _).trans hcandidates

section Pages

variable {server : ResultServer} {s : ResultStore} {filter : ResultFilter}

/-- One page of a filter whose texts the server takes. -/
theorem listPage_accepted (filter : ResultFilter)
    (hview : filter.view = "latest" ∨ filter.view = "history")
    (hsize : 0 < filter.pageSize ∧ filter.pageSize ≤ 200) (h : Accepted server filter true)
    (executor : Executor) (haddressed : Addressed s) {n : Nat} (hn : filter.page = (n : Int) + 1)
    (hthere : n < Lib.totalPages (resultRows server s filter true).length filter.pageSize.toNat) :
    listPage server s executor filter = .ok
      { items := page filter.pageSize.toNat n
          ((executor (resultOrder server filter)).rows (resultRows server s filter true))
        total := (resultRows server s filter true).length
        page := filter.page
        pageSize := filter.pageSize
        totalPages := Lib.totalPages (resultRows server s filter true).length filter.pageSize.toNat
        counts := .of (resultRows server s { filter with available := none } true) } := by
  have hrows := (length_resultRows_le server s filter true).trans haddressed
  obtain ⟨k, hk⟩ := Int.eq_ofNat_of_zero_le (le_of_lt hsize.1)
  have hpos : 0 < k := by
    have := hsize.1
    omega
  -- the page is there, so that its offset is among the rows
  have hbefore : n * k < (resultRows server s filter true).length := by
    rw [hk, Int.toNat_natCast] at hthere
    exact Nat.lt_of_not_le fun hle => absurd ((totalPages_le_iff hpos).mpr hle) (by omega)
  have hcast : (n : Int) * filter.pageSize = ((n * k : Nat) : Int) := by
    rw [hk, Int.natCast_mul]
  have hoffset : filter.offset.toInt = ((n * k : Nat) : Int) := by
    rw [← hcast]
    exact toInt_offset_page hsize.1 hsize.2 hn (by rw [hcast]; omega)
  have hpages : totalPages (resultRows server s filter true).length filter.pageSize =
      Lib.totalPages (resultRows server s filter true).length filter.pageSize.toNat :=
    totalPages_eq hsize.1 hsize.2 (by omega)
  rw [listPage_of_nonneg hview h (by rw [hoffset]; exact Int.natCast_nonneg _), hpages, hoffset,
    Int.toNat_natCast, hk, Int.toNat_natCast]
  rfl

/-- **The pages of a result listing.** The server refuses a text of the filter, on every page
alike; or there is one list of the rows the filter is for, each once and sorted by the requested
key, and the pages, each cut from any arrangement of its own query, are that list put apart. -/
theorem result_pages (server : OrderServer) (s : ResultStore) (haddressed : Addressed s)
    (filter : ResultFilter) :
    (¬ Accepted server.toResultServer filter.normalize true ∧ ∃ error, ∀ executor page,
      listResults server.toResultServer s executor { filter with page := page } = .error error) ∨
    ∃ (rows : List ResultRow) (counts : ResultStatusCounts) (totalPages : Nat),
      (∀ row, row ∈ rows ↔ Passes server.toResultServer s filter.normalize true row) ∧
      rows.Nodup ∧
      SortedBy server.toResultServer filter rows ∧
      rows.Pairwise (fun a b => (resultOrder server.toResultServer filter).le a b = true) ∧
      (filter.sort = "latency_ms" →
        rows.Pairwise fun a b => b.r.available = true → a.r.available = true) ∧
      counts.all = counts.available + counts.failed ∧
      rows.length = counts.select filter.available ∧
      totalPages = ⌈(rows.length : ℚ) / (filter.normalize.pageSize : ℚ)⌉₊ ∧
      ∀ executors : Nat → Executor, ∃ items : Nat → List ResultRow,
        (List.range totalPages).flatMap items = rows ∧ ∀ n < totalPages,
          listResults server.toResultServer s (executors n)
              { filter with page := (n : Int) + 1 } = .ok
            { items := items n, total := rows.length, page := (n : Int) + 1,
              pageSize := filter.normalize.pageSize, totalPages := totalPages,
              counts := counts } := by
  have hview := view_normalize filter
  have hsize := pageSize_normalize filter
  have htoNat : 0 < filter.normalize.pageSize.toNat := by omega
  by_cases haccepted : Accepted server.toResultServer filter.normalize true
  · have hsorted := (Arrangement.mergeSort (resultOrder server.toResultServer filter)).sorted
      (resultRows server.toResultServer s filter.normalize true)
    refine Or.inr ⟨(Arrangement.mergeSort (resultOrder server.toResultServer filter)).rows
      (resultRows server.toResultServer s filter.normalize true),
      .of (resultRows server.toResultServer s { filter.normalize with available := none } true),
      Lib.totalPages (resultRows server.toResultServer s filter.normalize true).length
        filter.normalize.pageSize.toNat,
      ?_, ?_, sortedBy_rows hsorted, hsorted, fun hsort => ((sortedBy_rows hsorted).latency hsort).1,
      counts_add _, ?_, ?_, ?_⟩
    · exact fun row => (Arrangement.mem _).trans (mem_resultRows hview)
    · exact ((Arrangement.perm _ _).nodup_iff).mpr (nodup_resultRows ..)
    · rw [Arrangement.length]
      exact length_resultRows hview
    · rw [Arrangement.length, totalPages_eq_ceil htoNat]
      congr 2
      exact_mod_cast Int.toNat_of_nonneg (le_of_lt hsize.1)
    · intro executors
      -- each page may be sorted by another run, but rows that tie in the order are equal
      refine ⟨fun n => page filter.normalize.pageSize.toNat n
        ((executors n (resultOrder server.toResultServer filter)).rows
          (resultRows server.toResultServer s filter.normalize true)), ?_, fun n hn => ?_⟩
      · refine pages_eq htoNat (fun n => executors n (resultOrder server.toResultServer filter)) _
          fun a ha b hb htied => ?_
        exact eq_of_id ((mem_resultRows hview).mp ha).joined ((mem_resultRows hview).mp hb).joined
          (tied_resultOrder htied)
      · rw [Arrangement.length]
        unfold listResults
        rw [normalize_page]
        have hpage : Accepted server.toResultServer
            { filter.normalize with page := (n : Int) + 1 } true := accepted_page.mpr haccepted
        exact listPage_accepted { filter.normalize with page := (n : Int) + 1 } hview hsize hpage
          (executors n) haddressed rfl hn
  · obtain ⟨error, hrefused⟩ := query_refused (s := s) (mt accepted_available.mp haccepted)
    refine Or.inl ⟨haccepted, .store (.db "count results" error), fun executor page => ?_⟩
    have hquery : (resultDataset server.toResultServer
        { filter.normalize with available := none } true true) =
      resultDataset server.toResultServer
        { ({ filter with page := page } : ResultFilter).normalize with available := none }
          true true := rfl
    rw [hquery] at hrefused
    unfold listResults listPage
    dsimp only
    rw [hrefused]

end Pages

/-! ## Two results of one address -/

def firstJobID : String := "11111111-1111-4111-9111-111111111111"

def secondJobID : String := "22222222-2222-4222-a222-222222222222"

def twoJobsServer : ResultServer where
  toPostgres := .withoutAddresses fun text =>
    if text = "" then none
    else if text = firstJobID then some 1
    else if text = secondJobID then some 2
    else some (text.length - 1)
  uuidText := fun id =>
    if id = 1 then firstJobID else if id = 2 then secondJobID
    else String.ofList (List.replicate (id + 1) '0')
  uuid_uuidText := by
    intro id
    by_cases hfirst : id = 1
    · subst hfirst
      rfl
    by_cases hsecond : id = 2
    · subst hsecond
      rfl
    have hother : ∀ text : String, '1' ∈ text.toList ∨ '2' ∈ text.toList →
        String.ofList (List.replicate (id + 1) '0') ≠ text := by
      rintro text hmem rfl
      rw [String.toList_ofList] at hmem
      rcases hmem with hmem | hmem <;> cases List.eq_of_mem_replicate hmem
    have hempty : String.ofList (List.replicate (id + 1) '0') ≠ "" := by
      intro h
      have hlength := congrArg String.length h
      simp at hlength
    simp [Postgres.withoutAddresses, hfirst, hsecond, hempty,
      hother firstJobID (Or.inl (by decide)), hother secondJobID (Or.inr (by decide))]
  uuid_empty := rfl
  ilikeWithin := fun text part => text.toList.tails.any part.toList.isPrefixOf
  collation := .ofLinear String
  toLower := String.toLower
  toUpper := String.toUpper
  equalFold := fun a b => decide (a.toLower = b.toLower)
  quote := fun text => "\"" ++ text ++ "\""

def scannedBy (id : UUID) (name : String) (createdAt : Timestamp) : ScanJob where
  id := id
  name := name
  kind := "normal"
  scheme := "https"
  hostname := "example.com"
  path := "/cdn-cgi/trace"
  port := 443
  attempts := 3
  timeoutMS := 2000
  createdAt := createdAt

def scannedAt (id : Int) (jobID : UUID) (time : Timestamp) : ScanResult where
  id := id
  jobID := some jobID
  agentID := 7
  targetIP := ⟨"104.16.0.1", none⟩
  targetPrefix := none
  available := true
  latencyMS := 20
  packetLoss := 0
  tcpConnectMS := 5
  tlsHandshakeMS := 10
  ttfbMS := 15
  totalMS := 20
  httpStatus := 200
  httpVersion := "HTTP/2.0"
  tlsVersion := "TLS 1.3"
  colo := "LAX"
  cfRay := ""
  errorCode := ""
  scannedAt := time

/-- Two jobs probed one address from one agent. -/
def twoJobs : ResultStore where
  results := ⟨[scannedAt 1 1 10, scannedAt 2 2 20], by decide⟩
  agents := ⟨[⟨7, "tokyo-1", "Tokyo", "Asia"⟩], by decide⟩
  jobs := ⟨[scannedBy 1 "monday" 5, scannedBy 2 "tuesday" 15], by decide⟩
  coloLocations := .empty

/-- The filter of the page as it opens. -/
def openingFilter : ResultFilter where
  view := "latest"
  agentID := ""
  jobID := ""
  region := ""
  continent := ""
  targetIP := ""
  colo := ""
  coloCity := ""
  coloCountry := ""
  coloContinent := ""
  available := some true
  since := some 0
  page := 1
  pageSize := 50
  sort := "latency_ms"
  order := "asc"

/-- The row of the first job, which its list has. -/
def firstRow : ResultRow :=
  ⟨scannedAt 1 1 10, ⟨7, "tokyo-1", "Tokyo", "Asia"⟩, scannedBy 1 "monday" 5, none⟩

def secondRow : ResultRow :=
  ⟨scannedAt 2 2 20, ⟨7, "tokyo-1", "Tokyo", "Asia"⟩, scannedBy 2 "tuesday" 15, none⟩

theorem joined_twoJobs : twoJobs.joined = [firstRow, secondRow] := by decide

theorem addressed_twoJobs : Addressed twoJobs :=
  show twoJobs.results.rows.length ≤ 2 ^ 48 by decide

/-- The whole history, a row a page. -/
def byHistory : ResultFilter :=
  { openingFilter with
    view := "history", since := none, pageSize := 1, sort := "scanned_at", order := "desc" }

def twoJobsOrder : OrderServer where
  toResultServer := twoJobsServer
  equalFold_desc := by decide +kernel
  equalFold_asc := by decide +kernel

/-- The history is on two pages, the newer row on the first. -/
theorem result_pages_twoJobs : ∃ rows : List ResultRow, secondRow ∈ rows ∧ firstRow ∈ rows ∧
    rows.Pairwise (fun a b => b.r.scannedAt ≤ a.r.scannedAt) ∧
    ∃ items : Nat → List ResultRow,
      (List.range ⌈(rows.length : ℚ) / ((1 : Int) : ℚ)⌉₊).flatMap items = rows ∧
      ∀ n < ⌈(rows.length : ℚ) / ((1 : Int) : ℚ)⌉₊, ∃ page,
        listResults twoJobsServer twoJobs (fun o => .mergeSort o)
          { byHistory with page := (n : Int) + 1 } = .ok page ∧ page.items = items n := by
  have haccepted : Accepted twoJobsServer byHistory.normalize true := by
    constructor <;> decide
  have hfirst : Passes twoJobsServer twoJobs byHistory.normalize true firstRow :=
    ⟨by decide, by constructor <;> decide, fun h => absurd rfl h, by constructor <;> decide⟩
  have hsecond : Passes twoJobsServer twoJobs byHistory.normalize true secondRow :=
    ⟨by decide, by constructor <;> decide, fun h => absurd rfl h, by constructor <;> decide⟩
  rcases result_pages twoJobsOrder twoJobs addressed_twoJobs byHistory with ⟨hrefused, _⟩ |
    ⟨rows, _, _, hmem, _, hsorted, _, _, _, _, rfl, hpages⟩
  · exact absurd haccepted hrefused
  obtain ⟨items, hitems, hlisted⟩ := hpages fun _ o => .mergeSort o
  exact ⟨rows, (hmem secondRow).mpr hsecond, (hmem firstRow).mpr hfirst,
    (hsorted.scannedAt rfl).descending rfl, items, hitems, fun n hn => ⟨_, hlisted n hn, rfl⟩⟩

end Cfscan.Results
