import Cfscan.Results.GeoFacets
import Cfscan.Results.Selector
import Cfscan.Web.Query

/-!
# The result page — `web/src/features/results/results-page.tsx`

The page shows one list with its facets and its jobs, and asks for them in three requests, each with
a query of its own. `results_read`: what the center reads from them is the state of the page, the
list's filter with all of it, and the others with what they leave out at its default.

The state is what the page holds when it builds its requests: `search` is the text of the box after
it was trimmed and deferred, and a geo selection is sent as far as the facets bear it out. How a
user gets to a state, and what is drawn, is not here.

The statement is about what is **read**. That the center then returns what such a filter asks for is
`Results.Pages` for the list, `Results.Facets` for the facets and `Results.Selector` for the jobs.
The names of the fields are the ones the client and the handler agree on, and nothing but
`results_read` holds them together.

The page number is positive and below 2^63, which is what `strconv.Atoi` reads; a page size above
200 is refused by the handler and never sent.
-/

set_option autoImplicit false

namespace Cfscan.Web

open Cfscan.Lib Cfscan.Store Cfscan.Results

/-! ## The state of the page -/

inductive ResultView where
  | latest
  | history
deriving DecidableEq, Repr

def ResultView.text : ResultView → String
  | .latest => "latest"
  | .history => "history"

inductive ResultSort where
  | targetIP
  | agentName
  | colo
  | available
  | latencyMS
  | packetLoss
  | httpStatus
  | scannedAt
deriving DecidableEq, Repr

def ResultSort.text : ResultSort → String
  | .targetIP => "target_ip"
  | .agentName => "agent_name"
  | .colo => "colo"
  | .available => "available"
  | .latencyMS => "latency_ms"
  | .packetLoss => "packet_loss"
  | .httpStatus => "http_status"
  | .scannedAt => "scanned_at"

inductive ResultTimeRange where
  | hour
  | day
  | week
  | month
  | all
deriving DecidableEq, Repr

def ResultTimeRange.text : ResultTimeRange → String
  | .hour => "1h"
  | .day => "24h"
  | .week => "7d"
  | .month => "30d"
  | .all => "all"

/-- A column of `SortingState`. -/
structure ColumnSort where
  id : ResultSort
  desc : Bool
deriving DecidableEq, Repr

structure ResultsState where
  view : ResultView
  page : Nat
  pageSize : Nat
  sorting : List ColumnSort
  /-- `deferredSearch`, the text of the box trimmed. -/
  search : String
  agentId : String
  jobId : String
  geo : GeoSelection
  /-- The select of the status: all, available or failed. -/
  available : Option Bool
  timeRange : ResultTimeRange
deriving DecidableEq, Repr

section Page

variable (s : ResultsState)

/-- The value of the select. -/
def ResultsState.availableText : String :=
  match s.available with
  | none => ""
  | some true => "true"
  | some false => "false"

/-- `available || undefined` -/
def ResultsState.availableValue : Value :=
  if s.availableText = "" then .undefined else .text s.availableText

def ResultsState.sort : ResultSort :=
  match s.sorting.head? with
  | some column => column.id
  | none => if s.view = .latest then .latencyMS else .scannedAt

def ResultsState.order : String :=
  if (s.sorting.head?.any ColumnSort.desc) then "desc" else "asc"

/-- The filters of `useResultFacets`. -/
def ResultsState.facetFilters : Values :=
  [("view", .text s.view.text), ("agent_id", .text s.agentId), ("job_id", .text s.jobId),
    ("search", .text s.search), ("available", s.availableValue),
    ("time_range", .text s.timeRange.text)]

/-- The filters of `useResultJobs`. -/
def ResultsState.jobFilters : Values :=
  [("view", .text s.view.text), ("agent_id", .text s.agentId), ("available", s.availableValue),
    ("time_range", .text s.timeRange.text)]

/-- The filters of `useScanResults`, with the colo filter as far as the facets bear it out. -/
def ResultsState.resultFilters (facets : List ResultColoFacet) : Values :=
  let effectiveGeo := normalizeGeoSelection facets s.geo
  [("view", .text s.view.text), ("page", .number s.page), ("page_size", .number s.pageSize),
    ("sort", .text s.sort.text), ("order", .text s.order), ("search", .text s.search),
    ("agent_id", .text s.agentId), ("job_id", .text s.jobId), ("colo", .text effectiveGeo.colo),
    ("colo_continent", .text effectiveGeo.continent),
    ("colo_country", .text effectiveGeo.country), ("colo_city", .text effectiveGeo.city),
    ("available", s.availableValue), ("time_range", .text s.timeRange.text)]

end Page

/-! ## What the state means

`base` and `filter` are not translated from anything: they say which filter a user who looks
at this page has asked for. -/

def ResultTimeRange.since (now : Timestamp) : ResultTimeRange → Option Timestamp
  | .hour => some (now - Results.hour)
  | .day => some (now - 24 * Results.hour)
  | .week => some (now - 7 * 24 * Results.hour)
  | .month => some (now - 30 * 24 * Results.hour)
  | .all => none

/-- The filter of the three requests, before the colo filter and the order of the list. -/
def ResultsState.base (s : ResultsState) (now : Timestamp) : ResultFilter where
  view := s.view.text
  agentID := trimSpace s.agentId
  jobID := trimSpace s.jobId
  region := ""
  continent := ""
  targetIP := trimSpace s.search
  colo := ""
  coloCity := ""
  coloCountry := ""
  coloContinent := ""
  available := s.available
  since := s.timeRange.since now
  page := 1
  pageSize := 50
  sort := if s.view = .latest then "latency_ms" else "scanned_at"
  order := if s.view = .latest then "asc" else "desc"

/-- The filter of the list. -/
def ResultsState.filter (s : ResultsState) (facets : List ResultColoFacet) (now : Timestamp) :
    ResultFilter :=
  let geo := normalizeGeoSelection facets s.geo
  { s.base now with
    colo := trimSpace geo.colo
    coloCity := trimSpace geo.city
    coloCountry := trimSpace geo.country
    coloContinent := trimSpace geo.continent
    page := s.page
    pageSize := s.pageSize
    sort := s.sort.text
    order := s.order }

/-! ## What the center reads

Name by name. What a request leaves out is read as the empty text, and from there on as the
default of the handler. -/

/-- Go's `ToLower` leaves small letters. -/
def KeepsLower (server : ResultServer) : Prop :=
  ∀ text : String, (∀ c ∈ text.toList, 'a' ≤ c ∧ c ≤ 'z') → server.toLower text = text

theorem trimSpace_view (v : ResultView) : trimSpace v.text = v.text := by
  cases v <;> decide

theorem trimSpace_sort (v : ResultSort) : trimSpace v.text = v.text := by
  cases v <;> decide

theorem sort_allowed (v : ResultSort) : v.text ∈ allowedSorts := by
  cases v <;> decide

theorem sinceOf_text (now : Timestamp) (range : ResultTimeRange) :
    sinceOf now (trimSpace range.text) = some (range.since now) := by
  cases range <;> rfl

section Digits

theorem digits_toDigits (n : Nat) : digits (Nat.toDigits 10 n) = some n := by
  have hdigit : (Nat.toDigits 10 n).all Char.isDigit = true :=
    List.all_eq_true.mpr fun c hc => Nat.isDigit_of_mem_toDigits (by omega) (by omega) hc
  cases h : Nat.toDigits 10 n with
  | nil => exact absurd h Nat.toDigits_ne_nil
  | cons c rest =>
    rw [h] at hdigit
    have hvalue := @Nat.ofDigitChars_ten_toDigits n
    rw [h, Nat.ofDigitChars_eq_foldl] at hvalue
    simp only [digits, hdigit, if_true, Option.some.injEq]
    exact hvalue

theorem atoi_toString {n : Nat} (h : n < 2 ^ 63) : atoi (toString n) = some (n : Int) := by
  have hvalue : (digits (toString n).toList).bind (fun n => int64 n) = some (n : Int) := by
    rw [Nat.toString_eq_repr, Nat.toList_repr, digits_toDigits, Option.bind_some, int64, if_pos]
    omega
  have hdigit : ∀ c ∈ (toString n).toList, c.isDigit = true := by
    rw [Nat.toString_eq_repr, Nat.toList_repr]
    exact fun c hc => Nat.isDigit_of_mem_toDigits (by omega) (by omega) hc
  unfold atoi
  split
  · rename_i rest hrest
    exact absurd (hdigit '-' (hrest ▸ List.mem_cons_self)) (by decide)
  · rename_i rest hrest
    exact absurd (hdigit '+' (hrest ▸ List.mem_cons_self)) (by decide)
  · exact hvalue

theorem queryInt_toString {query : String → String} {name : String} {n : Nat} (fallback : Int)
    (hquery : query name = toString n) (hpos : 0 < n) (h : n < 2 ^ 63) :
    queryInt query name fallback = n := by
  unfold queryInt
  rw [hquery, atoi_toString h]
  exact if_neg (by omega)

end Digits

section Read

variable {server : ResultServer} {query : String → String} {now : Timestamp}

/-- The parts of a query that the three requests differ in. -/
structure Parts where
  page : String
  pageSize : String
  sort : String
  order : String
  search : String
  jobID : String
  geo : GeoSelection

/-- What is sent, name by name. -/
structure Sent (s : ResultsState) (parts : Parts) (query : String → String) : Prop where
  view : query "view" = s.view.text
  agentID : query "agent_id" = s.agentId
  jobID : query "job_id" = parts.jobID
  region : query "region" = ""
  continent : query "continent" = ""
  search : query "search" = parts.search
  colo : query "colo" = parts.geo.colo
  coloCity : query "colo_city" = parts.geo.city
  coloCountry : query "colo_country" = parts.geo.country
  coloContinent : query "colo_continent" = parts.geo.continent
  available : query "available" = s.availableValue.sent
  timeRange : query "time_range" = s.timeRange.text
  page : query "page" = parts.page
  pageSize : query "page_size" = parts.pageSize
  sort : query "sort" = parts.sort
  order : query "order" = parts.order

variable (s : ResultsState)

/-- A check of the characters of a text, one by one; deciding the `∀` goes through all of `Char`. -/
theorem small_of_all {text : String}
    (h : (text.toList.all fun c => decide ('a' ≤ c) && decide (c ≤ 'z')) = true) :
    ∀ c ∈ text.toList, 'a' ≤ c ∧ c ≤ 'z' := by
  intro c hc
  have hsmall := List.all_eq_true.mp h c hc
  rw [Bool.and_eq_true] at hsmall
  exact ⟨of_decide_eq_true hsmall.1, of_decide_eq_true hsmall.2⟩

theorem trimSpace_order : trimSpace s.order = s.order ∧
    ∀ c ∈ s.order.toList, 'a' ≤ c ∧ c ≤ 'z' := by
  unfold ResultsState.order
  split
  · exact ⟨by decide, small_of_all (by decide)⟩
  · exact ⟨by decide, small_of_all (by decide)⟩

theorem order_direction : s.order = "asc" ∨ s.order = "desc" := by
  unfold ResultsState.order
  split
  · exact Or.inr rfl
  · exact Or.inl rfl

theorem availableOf_sent : availableOf s.availableValue.sent = some s.available := by
  unfold ResultsState.availableValue ResultsState.availableText
  cases s.available with
  | none => rfl
  | some available => cases available <;> rfl

theorem default_sort (hlower : KeepsLower server) :
    orderOf (server.toLower (trimSpace "")) = "asc" ∧
      sortOf s.view.text (trimSpace "") "asc" = ((s.base now).sort, (s.base now).order) ∧
      (s.base now).sort ∈ allowedSorts := by
  have hempty : server.toLower (trimSpace "") = "" := hlower "" (small_of_all (by decide))
  rw [hempty]
  unfold ResultsState.base
  cases s.view with
  | latest => exact ⟨rfl, rfl, sort_allowed .latencyMS⟩
  | history => exact ⟨rfl, rfl, sort_allowed .scannedAt⟩

theorem sortOf_sent (v : ResultView) (column : ResultSort) (order : String) :
    sortOf v.text (trimSpace column.text) order = (column.text, order) := by
  rw [trimSpace_sort]
  cases column <;> rfl

theorem orderOf_sent (hlower : KeepsLower server) :
    orderOf (server.toLower (trimSpace s.order)) = s.order := by
  obtain ⟨htrim, hsmall⟩ := trimSpace_order s
  rw [htrim, hlower _ hsmall]
  rcases order_direction s with h | h <;> rw [h] <;> rfl

variable {s} {parts : Parts}

theorem Sent.read {includeGeo : Bool} (h : Sent s parts query) {n : Int} {order : String}
    {sorted : String × String} (hsize : queryInt query "page_size" 50 = n) (hle : n ≤ 200)
    (horder : orderOf (server.toLower (trimSpace parts.order)) = order)
    (hdirection : order = "asc" ∨ order = "desc")
    (hsort : sortOf s.view.text (trimSpace parts.sort) order = sorted)
    (hallowed : sorted.1 ∈ allowedSorts) :
    resultFilterFromRequest server query now includeGeo = .ok
      { s.base now with
        jobID := trimSpace parts.jobID
        targetIP := trimSpace parts.search
        colo := if includeGeo then trimSpace parts.geo.colo else ""
        coloCity := if includeGeo then trimSpace parts.geo.city else ""
        coloCountry := if includeGeo then trimSpace parts.geo.country else ""
        coloContinent := if includeGeo then trimSpace parts.geo.continent else ""
        page := queryInt query "page" 1
        pageSize := n
        sort := sorted.1
        order := sorted.2 } := by
  have hview : viewOf (trimSpace s.view.text) = s.view.text := by
    rw [trimSpace_view]
    cases s.view <;> rfl
  have hknown : ¬ (s.view.text ≠ "latest" ∧ s.view.text ≠ "history") := by
    cases s.view <;> simp [ResultView.text]
  have hasc : ¬ (order ≠ "asc" ∧ order ≠ "desc") := by
    rwa [← or_iff_not_and_not]
  have hempty : trimSpace "" = "" := by decide
  unfold resultFilterFromRequest
  dsimp only
  simp only [h.view, h.order, h.sort, h.available, h.timeRange, h.agentID, h.jobID, h.region,
    h.continent, h.search, h.colo, h.coloCity, h.coloCountry, h.coloContinent, hview, hsize,
    horder, hsort, hempty, availableOf_sent, sinceOf_text]
  rw [if_neg hknown, if_neg (by omega), if_neg hasc, if_neg (not_not.mpr hallowed)]
  rfl

theorem queryInt_missing {name : String} (h : query name = "") (fallback : Int) :
    queryInt query name fallback = fallback := by
  rw [queryInt, h]
  rfl

variable (s)

/-! ### The three requests -/

theorem sent_resultFilters (facets : List ResultColoFacet) :
    Sent s ⟨toString s.page, toString s.pageSize, s.sort.text, s.order, s.search, s.jobId,
      normalizeGeoSelection facets s.geo⟩ (sent (s.resultFilters facets)) := by
  constructor <;> simp [ResultsState.resultFilters, sent_cons_self, sent_cons_of_ne, sent_nil]

theorem sent_facetFilters :
    Sent s ⟨"", "", "", "", s.search, s.jobId, ⟨"", "", "", ""⟩⟩ (sent s.facetFilters) := by
  constructor <;> simp [ResultsState.facetFilters, sent_cons_self, sent_cons_of_ne, sent_nil]

theorem sent_jobFilters :
    Sent s ⟨"", "", "", "", "", "", ⟨"", "", "", ""⟩⟩ (sent s.jobFilters) := by
  constructor <;> simp [ResultsState.jobFilters, sent_cons_self, sent_cons_of_ne, sent_nil]

end Read

/-- **The three requests of the page** are read as the page means them. -/
theorem results_read (server : ResultServer) (hlower : KeepsLower server) (s : ResultsState)
    (facets : List ResultColoFacet) (now : Timestamp) (hpage : 0 < s.page ∧ s.page < 2 ^ 63)
    (hsize : 0 < s.pageSize ∧ s.pageSize ≤ 200) :
    let request (path : String) (values : Values) : String → String :=
      queryOf (Utf8.text path ++ createQueryString values)
    resultFilterFromRequest server (request "/api/v1/results" (s.resultFilters facets)) now true =
        .ok (s.filter facets now) ∧
      resultFilterFromRequest server (request "/api/v1/results/facets" s.facetFilters) now false =
        .ok (s.base now) ∧
      resultFilterFromRequest server (request "/api/v1/results/jobs" s.jobFilters) now true =
        .ok { s.base now with jobID := "", targetIP := "" } := by
  intro request
  have hread : ∀ (path : String) (values : Values), '?' ∉ path.toList →
      (values.map Prod.fst).Nodup → request path values = sent values :=
    fun path values hpath hnames => funext (queryOf_createQueryString hpath hnames)
  -- the two requests without a sort are read with the default of the server
  obtain ⟨horder, hsort, hallowed⟩ := @default_sort server now s hlower
  refine ⟨?_, ?_, ?_⟩
  · have hnames : ((s.resultFilters facets).map Prod.fst).Nodup := by
      change ["view", "page", "page_size", "sort", "order", "search", "agent_id", "job_id", "colo",
        "colo_continent", "colo_country", "colo_city", "available", "time_range"].Nodup
      decide
    have hsent := sent_resultFilters s facets
    rw [hread _ _ (by decide) hnames,
      hsent.read (queryInt_toString 50 hsent.pageSize hsize.1 (by omega)) (by omega)
        (orderOf_sent s hlower) (order_direction s) (sortOf_sent s.view s.sort s.order)
        (sort_allowed s.sort),
      queryInt_toString 1 hsent.page hpage.1 hpage.2]
    rfl
  · have hnames : (s.facetFilters.map Prod.fst).Nodup := by
      change ["view", "agent_id", "job_id", "search", "available", "time_range"].Nodup
      decide
    have hsent := sent_facetFilters s
    rw [hread _ _ (by decide) hnames,
      hsent.read (queryInt_missing hsent.pageSize 50) (by decide) horder (Or.inl rfl) hsort
        hallowed, queryInt_missing hsent.page 1]
    rfl
  · have hnames : (s.jobFilters.map Prod.fst).Nodup := by
      change ["view", "agent_id", "available", "time_range"].Nodup
      decide
    have hsent := sent_jobFilters s
    rw [hread _ _ (by decide) hnames,
      hsent.read (queryInt_missing hsent.pageSize 50) (by decide) horder (Or.inl rfl) hsort
        hallowed, queryInt_missing hsent.page 1]
    rfl

/-! ### A search with separators -/

theorem twoJobsServer_keepsLower : KeepsLower twoJobsServer := by
  intro text h
  apply String.toList_inj.mp
  change (text.map Char.toLower).toList = _
  rw [String.toList_map]
  refine (List.map_congr_left fun c hc => ?_).trans (List.map_id _)
  have hlow : 97 ≤ c.val.toNat := UInt32.le_iff_toNat_le.mp (h c hc).1
  unfold Char.toLower
  split
  · rename_i hupper
    have hhigh : c.val.toNat ≤ 90 := UInt32.le_iff_toNat_le.mp hupper.2
    omega
  · rfl

/-- The second page of a search for a text that is full of separators. -/
def separatorSearch : ResultsState where
  view := .history
  page := 2
  pageSize := 100
  sorting := [⟨.latencyMS, true⟩]
  search := "a&search=b; 100%+ß#?"
  agentId := ""
  jobId := firstJobID
  geo := ⟨"", "", "", ""⟩
  available := some false
  timeRange := .all

theorem results_read_separatorSearch :
    resultFilterFromRequest twoJobsServer
        (queryOf (Utf8.text "/api/v1/results" ++
          createQueryString (separatorSearch.resultFilters []))) 0 true =
      .ok (separatorSearch.filter [] 0) ∧
      (separatorSearch.filter [] 0).targetIP = "a&search=b; 100%+ß#?" :=
  ⟨(results_read twoJobsServer twoJobsServer_keepsLower separatorSearch [] 0 (by decide)
    (by decide)).1, by decide⟩

end Cfscan.Web
