import Cfscan.Results.Dataset

/-!
# Filters from requests — `internal/api/api.go`

`resultFilterFromRequest` reads a filter off the query of a request, with its defaults and the
texts of its refusals. What it accepts is a filter `ListResults` puts no default into
(`normalize_accepted`), ordered by one of eight columns.

The query is a function from names to texts, empty for a name that is not there, as `Query().Get`
reads it. Of a name that is given twice only the first value counts, and that is settled before.

A relative span is turned into a time by the clock the handler reads, which is passed in.
-/

set_option autoImplicit false

namespace Cfscan.Results

open Cfscan.Lib Cfscan.Store

/-! ## Go's `strconv`

`Atoi` takes a sign and decimal digits and refuses what is past 64 bits; `ParseBool` knows
twelve words. Anything else is an error here, and the handler decides what becomes of it. -/

def digits : List Char → Option Nat
  | [] => none
  | text => if text.all Char.isDigit then
      some (text.foldl (fun n c => 10 * n + (c.toNat - '0'.toNat)) 0) else none

def int64 (value : Int) : Option Int :=
  if -9223372036854775808 ≤ value ∧ value ≤ 9223372036854775807 then some value else none

/-- `strconv.Atoi`. -/
def atoi (text : String) : Option Int :=
  match text.toList with
  | '-' :: rest => (digits rest).bind fun n => int64 (-n)
  | '+' :: rest => (digits rest).bind fun n => int64 n
  | rest => (digits rest).bind fun n => int64 n

/-- `strconv.ParseBool`. -/
def parseBool (text : String) : Option Bool :=
  if text ∈ ["1", "t", "T", "TRUE", "true", "True"] then some true
  else if text ∈ ["0", "f", "F", "FALSE", "false", "False"] then some false
  else none

/-! ## The filter

The checks in the order of the source, each with its text, so that of two bad parameters the
first one is named. A page or a size that is no number or not positive is not refused but
replaced by its default. -/

def queryInt (query : String → String) (name : String) (fallback : Int) : Int :=
  match atoi (query name) with
  | none => fallback
  | some value => if value ≤ 0 then fallback else value

def allowedSorts : List String :=
  ["target_ip", "agent_name", "colo", "available", "latency_ms", "packet_loss", "http_status",
    "scanned_at"]

def hour : Timestamp := 60 * minute

/-- `time_range`; the outer `none` is a range it does not know. -/
def sinceOf (now : Timestamp) (range : String) : Option (Option Timestamp) :=
  if range = "" ∨ range = "24h" then some (some (now - 24 * hour))
  else if range = "1h" then some (some (now - hour))
  else if range = "7d" then some (some (now - 7 * 24 * hour))
  else if range = "30d" then some (some (now - 30 * 24 * hour))
  else if range = "all" then some none
  else none

/-- `available`; the outer `none` is a text that is neither. -/
def availableOf (raw : String) : Option (Option Bool) :=
  if raw ≠ "" then (parseBool raw).map some else some none

/-- `view`, the latest when it is missing. -/
def viewOf (view : String) : String := if view = "" then "latest" else view

/-- `order`, ascending when it is missing. -/
def orderOf (order : String) : String := if order = "" then "asc" else order

/-- `sort` with the order that goes with it; each view has its own default. -/
def sortOf (view sort order : String) : String × String :=
  if sort = "" then
    if view = "history" then ("scanned_at", "desc") else ("latency_ms", "asc")
  else (sort, order)

def resultFilterFromRequest (server : ResultServer) (query : String → String) (now : Timestamp)
    (includeGeo : Bool) : Except String ResultFilter :=
  let get (name : String) : String := trimSpace (query name)
  let view := viewOf (get "view")
  let pageSize := queryInt query "page_size" 50
  let order := orderOf (server.toLower (get "order"))
  let sorted := sortOf view (get "sort") order
  if view ≠ "latest" ∧ view ≠ "history" then .error "view must be latest or history"
  else if pageSize > 200 then .error "page_size must not exceed 200"
  else if order ≠ "asc" ∧ order ≠ "desc" then .error "order must be asc or desc"
  else if sorted.1 ∉ allowedSorts then
    .error ("unsupported result sort " ++ server.quote sorted.1)
  else
    match availableOf (query "available") with
    | none => .error "available must be true or false"
    | some available =>
      match sinceOf now (get "time_range") with
      | none => .error "time_range must be 1h, 24h, 7d, 30d, or all"
      | some since => .ok
        { view := view
          agentID := get "agent_id"
          jobID := get "job_id"
          region := get "region"
          continent := get "continent"
          targetIP := get "search"
          colo := if includeGeo then get "colo" else ""
          coloCity := if includeGeo then get "colo_city" else ""
          coloCountry := if includeGeo then get "colo_country" else ""
          coloContinent := if includeGeo then get "colo_continent" else ""
          available := available
          since := since
          page := queryInt query "page" 1
          pageSize := pageSize
          sort := sorted.1
          order := sorted.2 }

theorem queryInt_pos (query : String → String) (name : String) (fallback : Int)
    (h : 0 < fallback) : 0 < queryInt query name fallback := by
  unfold queryInt
  split
  · exact h
  · split <;> omega

theorem sortOf_order (view sort : String) {order : String} (h : order = "asc" ∨ order = "desc") :
    (sortOf view sort order).2 = "asc" ∨ (sortOf view sort order).2 = "desc" := by
  unfold sortOf
  split
  · split
    · exact Or.inr rfl
    · exact Or.inl rfl
  · exact h

/-- An accepted filter is one `ListResults` takes as it is. -/
theorem normalize_accepted {server : ResultServer} {query : String → String} {now : Timestamp}
    {includeGeo : Bool} {filter : ResultFilter}
    (h : resultFilterFromRequest server query now includeGeo = .ok filter) :
    filter.normalize = filter ∧ filter.sort ∈ allowedSorts ∧
      (filter.order = "asc" ∨ filter.order = "desc") := by
  unfold resultFilterFromRequest at h
  dsimp only at h
  split at h
  · cases h
  rename_i hview
  split at h
  · cases h
  rename_i hsize
  split at h
  · cases h
  rename_i horder
  split at h
  · cases h
  rename_i hsort
  split at h
  · cases h
  split at h
  · cases h
  cases h
  have hpage := queryInt_pos query "page" 1 (by decide)
  have hpageSize := queryInt_pos query "page_size" 50 (by decide)
  refine ⟨?_, not_not.mp hsort, sortOf_order _ _ (or_iff_not_and_not.mpr horder)⟩
  have hlatest : (if viewOf (trimSpace (query "view")) ≠ "history" then "latest"
      else viewOf (trimSpace (query "view"))) = viewOf (trimSpace (query "view")) := by
    split
    · rename_i hne
      exact ((or_iff_not_and_not.mpr hview).resolve_right hne).symm
    · rfl
  simp only [ResultFilter.normalize, ResultFilter.mk.injEq, hlatest, true_and, and_true]
  exact ⟨if_neg (by omega), if_neg (by omega)⟩

end Cfscan.Results
