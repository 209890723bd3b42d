import Cfscan.Results.Pages
import Cfscan.Results.Request
import Cfscan.Results.Selector

/-!
# Page numbers — `internal/store/postgres/store.go`, `internal/api/api.go`

A request may ask for any positive page, and the offset `(page - 1) * page_size` wraps round past
2^63. `pageAnswered_iff` says which pages are answered: those whose offset is an `int`.

The parser bounds the size of a page and not its number, so this is a matter of the request alone;
what the database holds plays no part in it. The number of pages is computed without an overflow
whenever there are fewer rows than 2^63 - 200.

A page that is refused is refused by the database, with an error that is answered as an internal
one. No page below 2^55 is among them, whatever its size.
-/

set_option autoImplicit false

namespace Cfscan.Results

open Cfscan.Lib Cfscan.Store

/-! ## What a request may ask for

`Atoi` refuses what does not fit an `int`, and that is the only upper bound on the page. The
lower bounds come from the handler, which puts the default in for zero and below. -/

theorem int64_eq_some {value result : Int} (h : int64 value = some result) :
    result < 2 ^ 63 := by
  unfold int64 at h
  split at h
  next hfits =>
    cases h
    omega
  next => cases h

theorem atoi_lt {text : String} {value : Int} (h : atoi text = some value) : value < 2 ^ 63 := by
  unfold atoi at h
  split at h
  all_goals
    obtain ⟨n, -, hn⟩ := Option.bind_eq_some_iff.1 h
    exact int64_eq_some hn

theorem queryInt_lt (query : String → String) (name : String) {fallback : Int}
    (h : fallback < 2 ^ 63) : queryInt query name fallback < 2 ^ 63 := by
  unfold queryInt
  split
  · exact h
  next value hvalue =>
    split
    · exact h
    · exact atoi_lt hvalue

section Request

variable {server : ResultServer} {query : String → String} {now : Timestamp} {includeGeo : Bool}
  {filter : ResultFilter}

theorem page_accepted (h : resultFilterFromRequest server query now includeGeo = .ok filter) :
    filter.page = queryInt query "page" 1 := by
  unfold resultFilterFromRequest at h
  dsimp only at h
  split at h
  · cases h
  split at h
  · cases h
  split at h
  · cases h
  split at h
  · cases h
  split at h
  · cases h
  split at h
  · cases h
  cases h
  rfl

theorem pageRequest_of_accepted
    (h : resultFilterFromRequest server query now includeGeo = .ok filter) :
    PageRequest filter := by
  have hsize := pageSize_normalize filter
  rw [(normalize_accepted h).1] at hsize
  refine ⟨?_, ?_, hsize.1, hsize.2⟩
  · rw [page_accepted h]
    exact queryInt_pos query "page" 1 Int.one_pos
  · rw [page_accepted h]
    exact queryInt_lt query "page" (by decide)

end Request

/-! ## Which pages are answered

A page is answered if its offset is the one asked for, whatever the rows. A wrapped offset
may come out positive, and then other rows are shown; the counterexample has one that comes
out negative. -/

/-- What a request for a page is owed: the offset of the page, the number of pages, and on a page
behind the last one no rows rather than an error. -/
structure PageAnswered (server : ResultServer) (filter : ResultFilter) : Prop where
  offset_nonneg : 0 ≤ filter.offset.toInt
  offset_eq : filter.offset.toInt = (filter.page - 1) * filter.pageSize
  totalPages : ∀ total : Nat, total ≤ 2 ^ 63 - 1 - 200 →
    Results.totalPages total filter.pageSize = ⌈(total : ℚ) / (filter.pageSize : ℚ)⌉₊
  behind : ∀ s executor, Accepted server filter true →
    ⌈((resultRows server s filter true).length : ℚ) / (filter.pageSize : ℚ)⌉₊ < filter.page →
    ∃ page, listResults server s executor filter = .ok page ∧ page.items = []

/-- **Which pages are answered.** Those whose offset is an `int`, of all a request may ask for. -/
theorem pageAnswered_iff (server : ResultServer) (query : String → String) (now : Timestamp)
    (includeGeo : Bool) (filter : ResultFilter)
    (h : resultFilterFromRequest server query now includeGeo = .ok filter) :
    PageAnswered server filter ↔ (filter.page - 1) * filter.pageSize ≤ 2 ^ 63 - 1 := by
  have hrequest := pageRequest_of_accepted h
  have hnormal := (normalize_accepted h).1
  have hview := hnormal ▸ view_normalize filter
  have hsize : ((filter.pageSize.toNat : Nat) : ℚ) = (filter.pageSize : ℚ) := by
    exact_mod_cast Int.toNat_of_nonneg (Int.le_of_lt hrequest.pageSize_pos)
  have htoNat : 0 < filter.pageSize.toNat := by
    have hpos := hrequest.pageSize_pos
    omega
  constructor
  · intro hanswered
    exact (toInt_offset_iff hrequest).1 hanswered.offset_eq
  · intro hle
    have heq := (toInt_offset_iff hrequest).2 hle
    have hnonneg : 0 ≤ filter.offset.toInt := by
      rw [heq]
      exact Int.mul_nonneg (by have := hrequest.page_pos; omega)
        (Int.le_of_lt hrequest.pageSize_pos)
    refine ⟨hnonneg, heq, fun total htotal => ?_, fun s executor haccepted hbehind => ?_⟩
    · rw [totalPages_eq hrequest.pageSize_pos hrequest.pageSize_le htotal,
        totalPages_eq_ceil htoNat, hsize]
    · rw [← hsize, ← totalPages_eq_ceil htoNat] at hbehind
      rw [listResults, hnormal, listPage_of_nonneg hview haccepted hnonneg]
      refine ⟨_, rfl, ?_⟩
      -- all rows are before the offset
      have hrows : (resultRows server s filter true).length ≤
          filter.offset.toInt.toNat := by
        have hpages : Lib.totalPages (resultRows server s filter true).length
            filter.pageSize.toNat ≤ (filter.page - 1).toNat := by omega
        have hbefore := (totalPages_le_iff htoNat).1 hpages
        rw [heq, Int.toNat_mul (by have := hrequest.page_pos; omega)
          (Int.le_of_lt hrequest.pageSize_pos)]
        exact hbefore
      rw [List.drop_eq_nil_of_le (by rwa [Arrangement.length]), List.take_nil]

/-- A request that asks for a page and leaves everything else at its default. -/
def pageQuery (page : String) (name : String) : String := if name = "page" then page else ""

/-- What it is read as at midnight. -/
def pageFilter (page : Int) : ResultFilter :=
  { openingFilter with available := none, since := some (0 - 24 * hour), page := page }

theorem pageAnswered_third : PageAnswered twoJobsServer (pageFilter 3) :=
  (pageAnswered_iff twoJobsServer (pageQuery "3") 0 false (pageFilter 3) (by decide +kernel)).2
    (by decide)

/-- The last page there is a number for has the offset -100, and the server refuses it. -/
theorem page_not_answered :
    resultFilterFromRequest twoJobsServer (pageQuery "9223372036854775807") 0 false =
        .ok (pageFilter 9223372036854775807) ∧
      (pageFilter 9223372036854775807).offset.toInt = -100 ∧
      listResults twoJobsServer twoJobs (fun o => .mergeSort o)
        (pageFilter 9223372036854775807) = .error .negativeOffset ∧
      ¬PageAnswered twoJobsServer (pageFilter 9223372036854775807) := by
  have hoffset : (pageFilter 9223372036854775807).offset.toInt = -100 := by
    decide +kernel
  have haccepted : Accepted twoJobsServer (pageFilter 9223372036854775807) true := by
    constructor <;> decide
  refine ⟨by decide +kernel, hoffset, ?_, fun hanswered => ?_⟩
  · exact listPage_of_neg haccepted (hoffset ▸ by decide)
  · have hnonneg := hanswered.offset_nonneg
    rw [hoffset] at hnonneg
    exact absurd hnonneg (by decide)

end Cfscan.Results
