import Cfscan.Results.Passes
import Mathlib.Data.Rat.Floor

/-!
# One page of `ListResults`

What a call returns, said without its queries. The conditions of the count query are those of the
page query less the availability, so the total picked from the counts is the number of rows the
page is cut from (`length_resultRows`). The page is a slice of these rows at an offset which is
computed in Go's `int`, and **the offset is the only thing of a page that can go wrong**: where it
is not negative the page is answered (`listPage_of_nonneg`), where it is negative the server refuses
it, whatever the rows (`listPage_of_neg`).

Nothing is assumed here of where a filter comes from. `PageRequest` says what a request may ask for,
and only the arithmetic of the offset uses it.
-/

set_option autoImplicit false

namespace Cfscan.Results

open Cfscan.Lib Cfscan.Store

/-! ## The counts

The availability comes last among the conditions, after the ranking, and the count query leaves it
out. That is why one query gives the three counts, and why the total of a filter with an
availability can be read off them. -/

section Counts

variable {server : ResultServer} {s : ResultStore} {filter : ResultFilter} {withJob : Bool}

/-- The availability only chooses among the rows of the count. -/
theorem passes_available {row : ResultRow} : Passes server s filter withJob row ↔
    Passes server s { filter with available := none } withJob row ∧
      ∀ available, filter.available = some available → row.r.available = available := by
  have hcandidate : ∀ row, Candidate server { filter with available := none } withJob row ↔
      Candidate server filter withJob row := fun row =>
    ⟨fun h => ⟨h.agentID, h.jobID, h.region, h.continent, h.targetIP, h.since⟩,
      fun h => ⟨h.agentID, h.jobID, h.region, h.continent, h.targetIP, h.since⟩⟩
  have hsame : Candidate server { filter with available := none } withJob =
      Candidate server filter withJob := funext fun row => propext (hcandidate row)
  constructor
  · rintro ⟨hjoined, hmeets, hlatest, hfinal⟩
    refine ⟨⟨hjoined, (hcandidate row).mpr hmeets, fun hview => ?_, ⟨?_, hfinal.colo,
      hfinal.coloCity, hfinal.coloCountry, hfinal.coloContinent⟩⟩, hfinal.available⟩
    · rw [hsame]
      exact hlatest hview
    · intro available h
      cases h
  · rintro ⟨⟨hjoined, hmeets, hlatest, hfinal⟩, havailable⟩
    refine ⟨hjoined, (hcandidate row).mp hmeets, fun hview => ?_, ⟨havailable, hfinal.colo,
      hfinal.coloCity, hfinal.coloCountry, hfinal.coloContinent⟩⟩
    rw [← hsame]
    exact hlatest hview

theorem accepted_available {available : Option Bool} :
    Accepted server { filter with available := available } withJob ↔ Accepted server filter withJob :=
  ⟨fun h => ⟨h.agentID, h.jobID, h.region, h.continent, h.targetIP, h.colo, h.coloCity,
      h.coloCountry, h.coloContinent⟩,
    fun h => ⟨h.agentID, h.jobID, h.region, h.continent, h.targetIP, h.colo, h.coloCity,
      h.coloCountry, h.coloContinent⟩⟩

theorem accepted_page {page : Int} :
    Accepted server { filter with page := page } withJob ↔ Accepted server filter withJob :=
  ⟨fun h => ⟨h.agentID, h.jobID, h.region, h.continent, h.targetIP, h.colo, h.coloCity,
      h.coloCountry, h.coloContinent⟩,
    fun h => ⟨h.agentID, h.jobID, h.region, h.continent, h.targetIP, h.colo, h.coloCity,
      h.coloCountry, h.coloContinent⟩⟩

/-- The counts of a list of rows. -/
def ResultStatusCounts.of (rows : List ResultRow) : ResultStatusCounts :=
  ⟨rows.length, rows.countP fun row => row.r.available, rows.countP fun row => !row.r.available⟩

theorem counts_add (rows : List ResultRow) : (ResultStatusCounts.of rows).all =
    (ResultStatusCounts.of rows).available + (ResultStatusCounts.of rows).failed := by
  have hsplit := List.length_eq_countP_add_countP (fun row => row.r.available) (l := rows)
  simpa [ResultStatusCounts.of] using hsplit

/-- The total taken from the counts is the number of rows. -/
theorem length_resultRows (hview : filter.view = "latest" ∨ filter.view = "history") :
    (resultRows server s filter withJob).length =
      (ResultStatusCounts.of (resultRows server s { filter with available := none } withJob)).select
        filter.available := by
  have hchoose : ∀ p : ResultRow → Bool,
      (∀ row, p row = true ↔
        ∀ available, filter.available = some available → row.r.available = available) →
      (resultRows server s filter withJob).length =
        (resultRows server s { filter with available := none } withJob).countP p := by
    intro p hp
    rw [List.countP_eq_length_filter]
    refine List.Perm.length_eq ((List.perm_ext_iff_of_nodup (nodup_resultRows ..)
      ((nodup_resultRows ..).filter _)).mpr fun row => ?_)
    have hcounted : row ∈ resultRows server s { filter with available := none } withJob ↔
        Passes server s { filter with available := none } withJob row := mem_resultRows hview
    rw [List.mem_filter, mem_resultRows hview, hcounted, passes_available, hp]
  cases havailable : filter.available with
  | none =>
    exact (hchoose (fun _ => true) fun row => by simp [havailable]).trans
      (congrFun List.countP_true _)
  | some available =>
    cases available with
    | true => exact hchoose (fun row => row.r.available) fun row => by simp [havailable]
    | false => exact hchoose (fun row => !row.r.available) fun row => by simp [havailable]

end Counts

/-! ## The defaults -/

section Defaults

theorem pageSize_normalize (filter : ResultFilter) :
    0 < filter.normalize.pageSize ∧ filter.normalize.pageSize ≤ 200 := by
  unfold ResultFilter.normalize
  dsimp only
  split <;> omega

theorem view_normalize (filter : ResultFilter) :
    filter.normalize.view = "latest" ∨ filter.normalize.view = "history" := by
  unfold ResultFilter.normalize
  by_cases h : filter.view = "history" <;> simp [h]

theorem normalize_page (filter : ResultFilter) (n : Nat) :
    ({ filter with page := (n : Int) + 1 } : ResultFilter).normalize =
      { filter.normalize with page := (n : Int) + 1 } := by
  have hpage : ¬ (n : Int) + 1 ≤ 0 := by omega
  simp only [ResultFilter.normalize, if_neg hpage]

end Defaults

/-! ## The number of pages -/

/-- The number of pages is the ceiling. -/
theorem totalPages_eq_ceil {total size : Nat} (hsize : 0 < size) :
    Lib.totalPages total size = ⌈(total : ℚ) / (size : ℚ)⌉₊ := by
  have hpos : (0 : ℚ) < size := by exact_mod_cast hsize
  refine eq_of_forall_ge_iff fun k => ?_
  rw [totalPages_le_iff hsize, Nat.ceil_le, div_le_iff₀ hpos]
  norm_cast

/-- The number of pages, as it is computed without an overflow. -/
theorem totalPages_int (total : Nat) {size : Int} (hsize : 0 < size) :
    ((Lib.totalPages total size.toNat : Nat) : Int) =
      if total > 0 then ((total : Int) + size - 1) / size else 0 := by
  obtain ⟨k, rfl⟩ := Int.eq_ofNat_of_zero_le (le_of_lt hsize)
  have hk : 0 < k := by exact_mod_cast hsize
  rw [Int.toNat_natCast, Lib.totalPages]
  split
  · rw [Int.natCast_div, Int.natCast_sub (by omega)]
    rfl
  · obtain rfl : total = 0 := by omega
    rw [Nat.div_eq_of_lt (by omega)]
    rfl

/-! ## The offset and the number of pages, in 64 bits

`PageRequest` bounds the page by `int` and the size by 200, and nothing else is needed of
where they come from. The product is then one number modulo 2^64, and it is the one that was
meant exactly if that number fits. -/

/-- The page and its size are positive `int`s, the size at most 200. -/
structure PageRequest (filter : ResultFilter) : Prop where
  page_pos : 0 < filter.page
  page_lt : filter.page < 2 ^ 63
  pageSize_pos : 0 < filter.pageSize
  pageSize_le : filter.pageSize ≤ 200

section Machine

variable {filter : ResultFilter}

theorem toInt_offset (h : PageRequest filter) :
    filter.offset.toInt = ((filter.page - 1) * filter.pageSize).bmod (2 ^ 64) := by
  obtain ⟨hpos, hlt, hsize, hle⟩ := h
  have hpage : (Int64.ofInt filter.page - 1).toInt = filter.page - 1 := by
    rw [Int64.toInt_sub, Int64.toInt_ofInt_of_le (by omega) hlt, Int64.toInt_one]
    exact Int.bmod_eq_of_le (by omega) (by omega)
  rw [ResultFilter.offset, Int64.toInt_mul, hpage, Int64.toInt_ofInt_of_le (by omega) (by omega)]

/-- The offset is the product as long as the product is an `int`. -/
theorem toInt_offset_iff (h : PageRequest filter) :
    filter.offset.toInt = (filter.page - 1) * filter.pageSize ↔
      (filter.page - 1) * filter.pageSize ≤ 2 ^ 63 - 1 := by
  have hnonneg : 0 ≤ (filter.page - 1) * filter.pageSize :=
    Int.mul_nonneg (by have := h.page_pos; omega) (Int.le_of_lt h.pageSize_pos)
  constructor
  · intro heq
    have hlt := filter.offset.toInt_lt
    omega
  · intro hle
    rw [toInt_offset h]
    exact Int.bmod_eq_of_le (by omega) (by omega)

/-- The number of pages is the ceiling, for every total the sum does not overflow with. -/
theorem totalPages_eq (hsize : 0 < filter.pageSize) (hle : filter.pageSize ≤ 200) {total : Nat}
    (htotal : total ≤ 2 ^ 63 - 1 - 200) :
    totalPages total filter.pageSize = Lib.totalPages total filter.pageSize.toNat := by
  have htoInt : (Int64.ofNat total).toInt = total := Int64.toInt_ofNat_of_lt (by omega)
  have hsizeInt : (Int64.ofInt filter.pageSize).toInt = filter.pageSize :=
    Int64.toInt_ofInt_of_le (by omega) (by omega)
  have hadd : (Int64.ofNat total + Int64.ofInt filter.pageSize).toInt =
      total + filter.pageSize := by
    rw [Int64.toInt_add, htoInt, hsizeInt]
    exact Int.bmod_eq_of_le (by omega) (by omega)
  have hsum : (Int64.ofNat total + Int64.ofInt filter.pageSize - 1).toInt =
      total + filter.pageSize - 1 := by
    rw [Int64.toInt_sub, hadd, Int64.toInt_one]
    exact Int.bmod_eq_of_le (by omega) (by omega)
  rw [totalPages_int total hsize, totalPages]
  have hpos : Int64.ofNat total > 0 ↔ total > 0 := by
    rw [gt_iff_lt, Int64.lt_iff_toInt_lt, htoInt, Int64.toInt_zero]
    omega
  simp only [hpos]
  split
  next hsome =>
    have hne : Int64.ofInt filter.pageSize ≠ -1 := by
      intro heq
      have hcontra := congrArg Int64.toInt heq
      rw [hsizeInt] at hcontra
      simp at hcontra
      omega
    rw [Int64.toInt_div_of_ne_right _ _ hne, hsum, hsizeInt,
      Int.tdiv_eq_ediv_of_nonneg (by omega)]
  next => rfl

/-- A page that is there has an offset, and it is the mathematical one. -/
theorem toInt_offset_page (hsize : 0 < filter.pageSize) (hle : filter.pageSize ≤ 200) {n : Nat}
    (hn : filter.page = (n : Int) + 1) (hfits : n * filter.pageSize < 2 ^ 63 - 1) :
    filter.offset.toInt = n * filter.pageSize := by
  have hpage : (n : Int) ≤ n * filter.pageSize := le_mul_of_one_le_right (by omega) (by omega)
  have hrequest : PageRequest filter := ⟨by omega, by omega, hsize, hle⟩
  have hoffset := (toInt_offset_iff hrequest).mpr (by rw [hn, Int.add_sub_cancel]; omega)
  rw [hoffset, hn, Int.add_sub_cancel]

end Machine

/-! ## The page

The three outcomes of a call: the filter is refused by a cast, the offset is negative, or
the page is the slice of the ordered rows at the offset. The executor enters through its
arrangement for the order of this filter, and nowhere else. -/

section Listing

variable {server : ResultServer} {s : ResultStore} {executor : Executor} {filter : ResultFilter}

/-- The limit and the offset are found behind the arguments of the conditions. -/
theorem limitOffset_page {ρ : Type} (args : List Arg) {n : Nat} {size offset : Int}
    (hsize : 0 < size) (hoffset : offset = n * size) (rows : List ρ) :
    limitOffset (args ++ [.int size, .int offset]) (args.length + 1) (args.length + 2) rows =
      page size.toNat n rows := by
  have hlimit : (args ++ [.int size, .int offset])[args.length + 1 - 1]? = some (.int size) := by
    rw [Nat.add_sub_cancel, List.getElem?_append_right (Nat.le_refl _), Nat.sub_self]
    rfl
  have hlast : (args ++ [.int size, .int offset])[args.length + 2 - 1]? = some (.int offset) := by
    rw [List.getElem?_append_right (by omega)]
    simp
  obtain ⟨k, rfl⟩ := Int.eq_ofNat_of_zero_le (le_of_lt hsize)
  rw [limitOffset, hlimit, hlast, hoffset, ← Int.natCast_mul, page, Int.toNat_natCast]
  rfl

theorem pageRows_of_nonneg {ρ : Type} (args : List Arg) {size offset : Int} (h : 0 ≤ offset)
    (rows : List ρ) :
    pageRows (args ++ [.int size, .int offset]) (args.length + 1) (args.length + 2) rows =
      .ok ((rows.drop offset.toNat).take size.toNat) := by
  have hlimit : (args ++ [.int size, .int offset])[args.length + 1 - 1]? = some (.int size) := by
    rw [Nat.add_sub_cancel, List.getElem?_append_right (Nat.le_refl _), Nat.sub_self]
    rfl
  have hoffset : (args ++ [.int size, .int offset])[args.length + 2 - 1]? =
      some (.int offset) := by
    rw [List.getElem?_append_right (by omega)]
    simp
  simp only [pageRows, limitOffset, hlimit, hoffset, if_neg (Int.not_lt.2 h)]

theorem pageRows_of_neg {ρ : Type} (args : List Arg) {size offset : Int} (h : offset < 0)
    (rows : List ρ) :
    pageRows (args ++ [.int size, .int offset]) (args.length + 1) (args.length + 2) rows =
      .error .negativeOffset := by
  have hoffset : (args ++ [.int size, .int offset])[args.length + 2 - 1]? =
      some (.int offset) := by
    rw [List.getElem?_append_right (by omega)]
    simp
  simp only [pageRows, hoffset, if_pos h]

/-- A page whose offset is not negative is answered. -/
theorem listPage_of_nonneg (hview : filter.view = "latest" ∨ filter.view = "history")
    (h : Accepted server filter true) (hoffset : 0 ≤ filter.offset.toInt) :
    listPage server s executor filter = .ok
      { items := (((executor (resultOrder server filter)).rows
          (resultRows server s filter true)).drop filter.offset.toInt.toNat).take
            filter.pageSize.toNat
        total := (resultRows server s filter true).length
        page := filter.page
        pageSize := filter.pageSize
        totalPages := totalPages (resultRows server s filter true).length filter.pageSize
        counts := .of (resultRows server s { filter with available := none } true) } := by
  rw [length_resultRows hview]
  unfold listPage
  dsimp only
  rw [query_own (accepted_available.mpr h), query_accepted h]
  dsimp only
  rw [pageRows_of_nonneg _ hoffset]
  rfl

/-- A page whose offset is negative is refused, whatever the rows. -/
theorem listPage_of_neg (h : Accepted server filter true) (hoffset : filter.offset.toInt < 0) :
    listPage server s executor filter = .error .negativeOffset := by
  unfold listPage
  dsimp only
  rw [query_own (accepted_available.mpr h), query_accepted h]
  dsimp only
  rw [pageRows_of_neg _ hoffset]

/-- A text the server does not take is refused with the counts. -/
theorem listPage_refused (h : ¬ Accepted server filter true) :
    ∃ error, listPage server s executor filter = .error error := by
  obtain ⟨error, hrefused⟩ := query_refused (s := s) (mt accepted_available.mp h)
  refine ⟨.store (.db "count results" error), ?_⟩
  unfold listPage
  dsimp only
  rw [hrefused]

end Listing

end Cfscan.Results
