import Cfscan.Cloudflare.Colos
import Cfscan.Results.Selector
import Mathlib.Algebra.BigOperators.Group.List.Lemmas

/-!
# The colo facets beside the list — `internal/store/postgres/store.go`

`ListResultColoFacets` groups the rows of a filter by the location of their colo, and picking one
adds four conditions to the list, which come after the ranking. So the list of a facet is its group
(`mem_coloFacets`, `total_inPlace`), and with the locations `SyncColos` writes every row of a known
colo is in the group of its code.

The facets are read without a page and the list with one, so that `colo_facets` has the same
condition on the offset as `selector_agrees`, and no other: **whatever the view and the filter, the
facets agree with every list that is answered**.
-/

set_option autoImplicit false

namespace Cfscan.Results

open Cfscan.Lib Cfscan.Store Cfscan.Cloudflare

/-- What `strings.ToUpper` does to a text of capital letters and digits. -/
structure ColoServer extends ResultServer where
  toUpper_code : ∀ text, (∀ c ∈ text.toList, codeChar c = true) → toUpper text = text

/-! ## `ListResultColoFacets`

The facets are grouped by all four fields of the place, not by the code, and only rows with
all four have one. The filter comes in with its own place fields, which this query ignores. -/

/-- The columns of `GROUP BY`. -/
structure ColoPlace where
  code : String
  city : String
  country : String
  continent : String
deriving DecidableEq, Repr

def ResultRow.place (row : ResultRow) : ColoPlace :=
  ⟨row.r.colo, row.coloCity, row.coloCountry, row.coloContinent⟩

structure ResultColoFacet where
  place : ColoPlace
  count : Nat
deriving DecidableEq, Repr

/-- `WHERE colo <> '' AND …`. -/
def ColoPlace.named (place : ColoPlace) : Bool :=
  decide (place.code ≠ "" ∧ place.city ≠ "" ∧ place.country ≠ "" ∧ place.continent ≠ "")

def coloFacets (rows : List ResultRow) : List ResultColoFacet :=
  let places := (rows.map ResultRow.place).filter ColoPlace.named
  (places.dedup.map fun place => ⟨place, places.count place⟩).filter fun facet =>
    decide (0 < facet.count)

/-- `ORDER BY colo_continent, colo_country, colo_city, colo`. -/
def byPlace (server : ResultServer) : SortOrder ResultColoFacet :=
  (server.collation.on fun facet : ResultColoFacet => facet.place.continent).thenBy <|
  (server.collation.on fun facet : ResultColoFacet => facet.place.country).thenBy <|
  (server.collation.on fun facet : ResultColoFacet => facet.place.city).thenBy <|
  server.collation.on fun facet : ResultColoFacet => facet.place.code

/-- The default `ListResultColoFacets` puts in. -/
def ResultFilter.viewed (filter : ResultFilter) : ResultFilter :=
  { filter with view := if filter.view ≠ "history" then "latest" else filter.view }

def listResultColoFacets (server : ResultServer) (s : ResultStore)
    (arrangement : Arrangement (byPlace server)) (filter : ResultFilter) :
    Except StoreError (List ResultColoFacet) :=
  let base := resultDataset server filter.viewed false true
  match base.query server base.conditions.args s with
  | .error error => .error (.db "list result colo facets" error)
  | .ok rows => .ok (arrangement.rows (coloFacets rows))

/-! ## Picking a facet

The list upper-cases the code it is asked for and the grouping does not, so a code must be
its own upper case for the two to meet. Codes that `SyncColos` writes are. The place of a
row is looked up by its colo, so that rows of one colo have one place. -/

/-- The filter with the four colo fields of a facet, or with none. -/
def ResultFilter.inPlace (filter : ResultFilter) (place : ColoPlace) : ResultFilter :=
  { filter with
    colo := place.code, coloCity := place.city, coloCountry := place.country,
    coloContinent := place.continent }

def anywhere : ColoPlace := ⟨"", "", "", ""⟩

section Pick

variable {server : ResultServer} {s : ResultStore} {filter : ResultFilter} {withJob : Bool}
  {row : ResultRow} {place : ColoPlace}

theorem candidate_inPlace (place : ColoPlace) :
    Candidate server (filter.inPlace place) withJob = Candidate server filter withJob :=
  funext fun _ => propext
    ⟨fun h => ⟨h.agentID, h.jobID, h.region, h.continent, h.targetIP, h.since⟩,
      fun h => ⟨h.agentID, h.jobID, h.region, h.continent, h.targetIP, h.since⟩⟩

/-- The rows of a place, among those of anywhere. -/
theorem passes_inPlace (hnamed : place.named = true) (hupper : server.toUpper place.code = place.code) :
    Passes server s (filter.inPlace place) withJob row ↔
      Passes server s (filter.inPlace anywhere) withJob row ∧ row.place = place := by
  obtain ⟨hcode, hcity, hcountry, hcontinent⟩ := of_decide_eq_true hnamed
  constructor
  · intro h
    have hfinal := h.final
    refine ⟨⟨h.joined, ?_, ?_, ⟨hfinal.available, fun hno => absurd rfl hno, fun hno => absurd rfl hno,
      fun hno => absurd rfl hno, fun hno => absurd rfl hno⟩⟩, ?_⟩
    · rw [candidate_inPlace, ← candidate_inPlace place]
      exact h.candidate
    · rw [candidate_inPlace, ← candidate_inPlace place]
      exact h.latest
    · have hcolo := hfinal.colo hcode
      obtain ⟨code, city, country, continent⟩ := place
      exact ColoPlace.mk.injEq .. |>.mpr ⟨hcolo.trans hupper, hfinal.coloCity hcity,
        hfinal.coloCountry hcountry, hfinal.coloContinent hcontinent⟩
  · rintro ⟨h, rfl⟩
    refine ⟨h.joined, ?_, ?_, ⟨h.final.available, fun _ => hupper.symm, fun _ => rfl, fun _ => rfl,
      fun _ => rfl⟩⟩
    · rw [candidate_inPlace, ← candidate_inPlace anywhere]
      exact h.candidate
    · rw [candidate_inPlace, ← candidate_inPlace anywhere]
      exact h.latest

end Pick

section Facets

variable {server : ColoServer} {s : ResultStore} {filter : ResultFilter} {row : ResultRow}
  {arrangement : Arrangement (byPlace server.toResultServer)}

theorem accepted_inPlace {p : ColoPlace} {withJob : Bool}
    (h : Accepted server.toResultServer (filter.inPlace anywhere) withJob)
    (hcode : storable (server.toUpper p.code) = true) (hcity : storable p.city = true)
    (hcountry : storable p.country = true) (hcontinent : storable p.continent = true) :
    Accepted server.toResultServer (filter.inPlace p) withJob :=
  ⟨h.agentID, h.jobID, h.region, h.continent, h.targetIP, fun _ => hcode, fun _ => hcity,
    fun _ => hcountry, fun _ => hcontinent⟩

/-- A row of a known colo has all four names, and they are its location's. -/
theorem place_of_find (hfilled : Filled s.coloLocations) (hrow : row ∈ s.joined)
    {location : ColoLocation} (hfound : s.coloLocations.find? row.r.colo = some location) :
    row.place = ⟨location.code, location.city, location.country, location.continent⟩ ∧
      row.place.named = true := by
  obtain ⟨_, _, _, hcl⟩ := join_eq_some.mp (mem_joined.mp hrow).2
  obtain ⟨hlocated, _⟩ := filled_located hfilled (Table.mem_of_find? hfound)
  have hplace :
      row.place = ⟨location.code, location.city, location.country, location.continent⟩ := by
    simp only [ResultRow.place, ResultRow.coloCity, ResultRow.coloCountry, ResultRow.coloContinent,
      hcl, hfound, Option.map_some, Option.getD_some, Table.key_of_find? hfound]
  refine ⟨hplace, ?_⟩
  have hcode : location.code ≠ "" := by
    intro hempty
    have hlength := hlocated.length
    rw [hempty] at hlength
    cases hlength
  rw [hplace]
  exact decide_eq_true ⟨hcode, hlocated.city, hlocated.country, hlocated.continent⟩

/-- The rows that count are those of a known colo. -/
theorem named_iff (hfilled : Filled s.coloLocations) (hrow : row ∈ s.joined) :
    row.place.named = true ↔ (s.coloLocations.find? row.r.colo).isSome = true := by
  constructor
  · intro hnamed
    obtain ⟨_, _, _, hcl⟩ := join_eq_some.mp (mem_joined.mp hrow).2
    by_contra hnone
    rw [Option.not_isSome_iff_eq_none.mp hnone] at hcl
    have hcity := (of_decide_eq_true hnamed).2.1
    simp [ResultRow.place, ResultRow.coloCity, hcl] at hcity
  · intro hsome
    obtain ⟨location, hfound⟩ := Option.isSome_iff_exists.mp hsome
    exact (place_of_find hfilled hrow hfound).2

theorem place_eq_of_colo {row' : ResultRow} (hfilled : Filled s.coloLocations)
    (hrow : row ∈ s.joined) (hnamed : row.place.named = true) (hrow' : row' ∈ s.joined)
    (hcolo : row.r.colo = row'.r.colo) : row.place = row'.place := by
  obtain ⟨location, hfound⟩ := Option.isSome_iff_exists.mp ((named_iff hfilled hrow).mp hnamed)
  rw [(place_of_find hfilled hrow hfound).1,
    (place_of_find hfilled hrow' (hcolo ▸ hfound)).1]

theorem nodup_coloFacets (rows : List ResultRow) : (coloFacets rows).Nodup :=
  ((List.nodup_dedup _).map fun _ _ h => congrArg ResultColoFacet.place h).filter _

/-- A list of places, without the unnamed ones, and its facets. -/
theorem mem_coloFacets {rows : List ResultRow} {item : ResultColoFacet} :
    item ∈ coloFacets rows ↔ ∃ row ∈ rows, row.place.named = true ∧ row.place = item.place ∧
      item.count = ((rows.map ResultRow.place).filter ColoPlace.named).count item.place := by
  simp only [coloFacets, List.mem_filter, List.mem_map, List.mem_dedup, decide_eq_true_eq]
  constructor
  · rintro ⟨⟨place, ⟨⟨row, hrow, rfl⟩, hnamed⟩, rfl⟩, _⟩
    exact ⟨row, hrow, hnamed, rfl, rfl⟩
  · rintro ⟨row, hrow, hnamed, hplace, hcount⟩
    have hmem : row.place ∈ (rows.map ResultRow.place).filter ColoPlace.named :=
      List.mem_filter.mpr ⟨List.mem_map_of_mem hrow, hnamed⟩
    refine ⟨⟨row.place, ⟨⟨row, hrow, rfl⟩, hnamed⟩, ?_⟩, ?_⟩
    · rw [hplace, ← hcount]
    · rw [hcount, ← hplace]
      exact List.count_pos_iff.mpr hmem

theorem sum_coloFacets (rows : List ResultRow) : ((coloFacets rows).map ResultColoFacet.count).sum =
    (rows.filter fun row => row.place.named).length := by
  have hall : coloFacets rows = ((rows.map ResultRow.place).filter ColoPlace.named).dedup.map
      fun place => ⟨place, ((rows.map ResultRow.place).filter ColoPlace.named).count place⟩ := by
    unfold coloFacets
    refine List.filter_eq_self.mpr fun facet hfacet => decide_eq_true ?_
    obtain ⟨place, hplace, rfl⟩ := List.mem_map.mp hfacet
    exact List.count_pos_iff.mpr (List.mem_dedup.mp hplace)
  rw [hall, List.map_map]
  refine (List.sum_map_count_dedup_eq_length _).trans ?_
  rw [List.filter_map, List.length_map]
  rfl

/-- The number of rows of a place. -/
theorem count_place {rows : List ResultRow} {place : ColoPlace} (hnamed : place.named = true) :
    ((rows.map ResultRow.place).filter ColoPlace.named).count place =
      (rows.filter fun row => decide (row.place = place)).length := by
  rw [List.count_filter hnamed, List.count_eq_countP, List.countP_map]
  exact List.countP_eq_length_filter

/-- The query of the facets: the colo fields and the page are no part of it. -/
theorem resultDataset_facets (server : ResultServer) (filter : ResultFilter) :
    resultDataset server (filter.inPlace anywhere).viewed false true =
      resultDataset server (filter.normalize.inPlace anywhere) true true := rfl

theorem listResultColoFacets_of_accepted
    (haccepted : Accepted server.toResultServer (filter.normalize.inPlace anywhere) true) :
    listResultColoFacets server.toResultServer s arrangement (filter.inPlace anywhere) =
      .ok (arrangement.rows (coloFacets
        (resultRows server.toResultServer s (filter.normalize.inPlace anywhere) true))) := by
  have hquery := query_own (s := s) haccepted
  rw [← resultDataset_facets server.toResultServer filter] at hquery
  unfold listResultColoFacets
  dsimp only
  rw [hquery]

theorem listResultColoFacets_of_ok {items : List ResultColoFacet}
    (hok : listResultColoFacets server.toResultServer s arrangement (filter.inPlace anywhere) =
      .ok items) :
    Accepted server.toResultServer (filter.normalize.inPlace anywhere) true ∧
      items = arrangement.rows (coloFacets
        (resultRows server.toResultServer s (filter.normalize.inPlace anywhere) true)) := by
  by_cases haccepted : Accepted server.toResultServer (filter.normalize.inPlace anywhere) true
  · rw [listResultColoFacets_of_accepted haccepted] at hok
    exact ⟨haccepted, (Except.ok.inj hok).symm⟩
  · obtain ⟨error, hquery⟩ := query_refused (s := s) haccepted
    rw [← resultDataset_facets server.toResultServer filter] at hquery
    unfold listResultColoFacets at hok
    dsimp only at hok
    rw [hquery] at hok
    cases hok

/-- The list of a facet has as many rows as the facet counts. -/
theorem total_inPlace {place : ColoPlace} (hnamed : place.named = true)
    (hupper : server.toUpper place.code = place.code)
    (hstorable : Accepted server.toResultServer (filter.normalize.inPlace place) true)
    (hoffset : 0 ≤ filter.normalize.offset.toInt) (executor : Executor) :
    ∃ page, listResults server.toResultServer s executor (filter.inPlace place) = .ok page ∧
      page.total = (((resultRows server.toResultServer s (filter.normalize.inPlace anywhere)
        true).map ResultRow.place).filter ColoPlace.named).count place := by
  have hview := view_normalize filter
  have hplaceView : (filter.normalize.inPlace place).view = "latest" ∨
      (filter.normalize.inPlace place).view = "history" := hview
  have hplaceOffset : 0 ≤ (filter.normalize.inPlace place).offset.toInt := hoffset
  refine ⟨_, listPage_of_nonneg hplaceView hstorable hplaceOffset, ?_⟩
  show (resultRows server.toResultServer s (filter.normalize.inPlace place) true).length = _
  rw [count_place hnamed]
  refine List.Perm.length_eq ((List.perm_ext_iff_of_nodup (nodup_resultRows ..)
    ((nodup_resultRows ..).filter _)).mpr fun row => ?_)
  have hplace : row ∈ resultRows server.toResultServer s (filter.normalize.inPlace place) true ↔
      Passes server.toResultServer s (filter.normalize.inPlace place) true row :=
    mem_resultRows hview
  have hanywhere :
      row ∈ resultRows server.toResultServer s (filter.normalize.inPlace anywhere) true ↔
        Passes server.toResultServer s (filter.normalize.inPlace anywhere) true row :=
    mem_resultRows hview
  rw [List.mem_filter, hplace, hanywhere, passes_inPlace hnamed hupper, decide_eq_true_eq]

/-- A page that is refused is refused for every facet. -/
theorem refused_inPlace {place : ColoPlace} (executor : Executor)
    (hoffset : filter.normalize.offset.toInt < 0) :
    ∃ error,
      listResults server.toResultServer s executor (filter.inPlace place) = .error error := by
  have hplace : (filter.normalize.inPlace place).offset.toInt < 0 := hoffset
  by_cases haccepted : Accepted server.toResultServer (filter.normalize.inPlace place) true
  · exact ⟨_, listPage_of_neg haccepted hplace⟩
  · exact listPage_refused haccepted

/-- The list of a facet is accepted, and shows as many rows as the facet counts. -/
theorem page_of_coloFacet (hfilled : Filled s.coloLocations)
    (haccepted : Accepted server.toResultServer (filter.normalize.inPlace anywhere) true)
    (hoffset : 0 ≤ filter.normalize.offset.toInt)
    (executor : Executor) {item : ResultColoFacet}
    (hitem : item ∈ coloFacets
      (resultRows server.toResultServer s (filter.normalize.inPlace anywhere) true)) :
    0 < item.count ∧
      ∃ page, listResults server.toResultServer s executor (filter.inPlace item.place) = .ok page ∧
        page.total = item.count := by
  obtain ⟨row, hrow, hnamed, hplace, hcount⟩ := mem_coloFacets.mp hitem
  have hview := view_normalize filter
  have hpasses :
      row ∈ resultRows server.toResultServer s (filter.normalize.inPlace anywhere) true ↔
        Passes server.toResultServer s (filter.normalize.inPlace anywhere) true row :=
    mem_resultRows hview
  have hjoined := (hpasses.mp hrow).joined
  obtain ⟨location, hfound⟩ := Option.isSome_iff_exists.mp ((named_iff hfilled hjoined).mp hnamed)
  obtain ⟨hlocated, hstored⟩ := filled_located hfilled (Table.mem_of_find? hfound)
  obtain ⟨hlocation, _⟩ := place_of_find hfilled hjoined hfound
  rw [hplace] at hlocation hnamed
  have hupper : server.toUpper item.place.code = item.place.code :=
    server.toUpper_code _ (by rw [hlocation]; exact hlocated.upper)
  simp only [storableLocation, Bool.and_eq_true] at hstored
  obtain ⟨⟨⟨hcode, hcity⟩, hcountry⟩, hcontinent⟩ := hstored
  have hstorable := accepted_inPlace (p := item.place) haccepted
    (by rw [hupper, hlocation]; exact hcode) (by rw [hlocation]; exact hcity)
    (by rw [hlocation]; exact hcountry) (by rw [hlocation]; exact hcontinent)
  obtain ⟨page, hpage, htotal⟩ := total_inPlace (s := s) hnamed hupper hstorable hoffset executor
  refine ⟨?_, page, hpage, htotal.trans hcount.symm⟩
  rw [hcount, ← hplace]
  exact List.count_pos_iff.mpr (List.mem_filter.mpr
    ⟨List.mem_map_of_mem hrow, hplace ▸ hnamed⟩)

/-- The code of a facet tells its place. -/
theorem coloFacet_eq_of_code {rows : List ResultRow} (hfilled : Filled s.coloLocations)
    (hrows : ∀ row ∈ rows, row ∈ s.joined) {item item' : ResultColoFacet}
    (hitem : item ∈ coloFacets rows) (hitem' : item' ∈ coloFacets rows)
    (hcode : item.place.code = item'.place.code) : item = item' := by
  obtain ⟨row, hrow, hnamed, hplace, hcount⟩ := mem_coloFacets.mp hitem
  obtain ⟨row', hrow', hnamed', hplace', hcount'⟩ := mem_coloFacets.mp hitem'
  have hsame : item.place = item'.place := by
    rw [← hplace, ← hplace']
    refine place_eq_of_colo hfilled (hrows row hrow) hnamed (hrows row' hrow') ?_
    rw [← hplace, ← hplace'] at hcode
    exact hcode
  obtain ⟨place, count⟩ := item
  obtain ⟨place', count'⟩ := item'
  cases hsame
  exact (ResultColoFacet.mk.injEq ..).mpr ⟨rfl, hcount.trans hcount'.symm⟩

/-- What the facets of a filter are owed: each counts what the list shows once it is picked, no two
have one code, and together they count the rows of a known colo. -/
structure FacetsAgree (server : ColoServer) (s : ResultStore) (executor : Executor)
    (filter : ResultFilter) (items : List ResultColoFacet) : Prop where
  listed : ∀ item ∈ items, 0 < item.count ∧
    ∃ page, listResults server.toResultServer s executor (filter.inPlace item.place) = .ok page ∧
      page.total = item.count
  codes : (items.map fun item => item.place.code).Nodup
  total : ∃ rows : List ResultRow, rows.Nodup ∧
    (∀ row, row ∈ rows ↔
      Passes server.toResultServer s (filter.normalize.inPlace anywhere) true row ∧
        (s.coloLocations.find? row.r.colo).isSome = true) ∧
    (items.map ResultColoFacet.count).sum = rows.length

/-- A row of a known colo is in a facet, and a page that is refused is refused for it. -/
theorem coloFacets_empty_iff (hfilled : Filled s.coloLocations) :
    coloFacets (resultRows server.toResultServer s (filter.normalize.inPlace anywhere) true) = [] ↔
      ∀ row, Passes server.toResultServer s (filter.normalize.inPlace anywhere) true row →
        s.coloLocations.find? row.r.colo = none := by
  have hrows : ∀ row,
      row ∈ resultRows server.toResultServer s (filter.normalize.inPlace anywhere) true ↔
        Passes server.toResultServer s (filter.normalize.inPlace anywhere) true row := fun _ =>
    mem_resultRows (view_normalize filter)
  rw [List.eq_nil_iff_forall_not_mem]
  constructor
  · intro hnone row hpasses
    by_contra hsome
    have hnamed := (named_iff hfilled hpasses.joined).mpr (Option.isSome_iff_ne_none.mpr hsome)
    let item : ResultColoFacet := ⟨row.place,
      (((resultRows server.toResultServer s (filter.normalize.inPlace anywhere) true).map
        ResultRow.place).filter ColoPlace.named).count row.place⟩
    exact hnone item (mem_coloFacets.mpr ⟨row, (hrows row).mpr hpasses, hnamed, rfl, rfl⟩)
  · intro hunknown item hitem
    obtain ⟨row, hrow, hnamed, _⟩ := mem_coloFacets.mp hitem
    have hpasses := (hrows row).mp hrow
    rw [named_iff hfilled hpasses.joined, hunknown row hpasses] at hnamed
    cases hnamed

/-- **The colo facets agree with the list**, unless the page is one the server refuses and some row
of a known colo passes the filter. -/
theorem colo_facets (server : ColoServer) (s : ResultStore) (hfilled : Filled s.coloLocations)
    (arrangement : Arrangement (byPlace server.toResultServer)) (executor : Executor)
    (filter : ResultFilter) :
    (∀ items, listResultColoFacets server.toResultServer s arrangement (filter.inPlace anywhere) =
      .ok items → FacetsAgree server s executor filter items) ↔
      (Accepted server.toResultServer (filter.normalize.inPlace anywhere) true →
        filter.normalize.offset.toInt < 0 →
          ∀ row, Passes server.toResultServer s (filter.normalize.inPlace anywhere) true row →
            s.coloLocations.find? row.r.colo = none) := by
  have hrows : ∀ row,
      row ∈ resultRows server.toResultServer s (filter.normalize.inPlace anywhere) true ↔
        Passes server.toResultServer s (filter.normalize.inPlace anywhere) true row := fun _ =>
    mem_resultRows (view_normalize filter)
  rw [← coloFacets_empty_iff hfilled]
  constructor
  · intro hagree haccepted hneg
    have hlisted := (hagree _ (listResultColoFacets_of_accepted haccepted)).listed
    rw [List.eq_nil_iff_forall_not_mem]
    intro item hitem
    obtain ⟨_, page, hpage, _⟩ := hlisted item ((Arrangement.mem _).mpr hitem)
    have hrefused : ∃ error, listResults server.toResultServer s executor
        (filter.inPlace item.place) = .error error := refused_inPlace executor hneg
    obtain ⟨error, hrefused⟩ := hrefused
    rw [hrefused] at hpage
    cases hpage
  · intro hempty items hok
    obtain ⟨haccepted, rfl⟩ := listResultColoFacets_of_ok hok
    refine ⟨fun item hitem => ?_, ?_, ?_⟩
    · have hmem := (Arrangement.mem _).mp hitem
      rcases Int.lt_or_le filter.normalize.offset.toInt 0 with hneg | hnonneg
      · rw [hempty haccepted hneg] at hmem
        exact absurd hmem List.not_mem_nil
      · exact page_of_coloFacet hfilled haccepted hnonneg executor hmem
    · refine (((Arrangement.perm _ _).map _).nodup_iff).mpr
        (List.Nodup.map_on (fun item hitem item' hitem' hcode => ?_) (nodup_coloFacets _))
      exact coloFacet_eq_of_code hfilled (fun row hrow => ((hrows row).mp hrow).joined) hitem
        hitem' hcode
    · refine ⟨(resultRows server.toResultServer s (filter.normalize.inPlace anywhere) true).filter
        fun row => row.place.named, (nodup_resultRows ..).filter _, fun row => ?_, ?_⟩
      · rw [List.mem_filter, hrows]
        exact and_congr_right fun hpasses => named_iff hfilled hpasses.joined
      · exact (((Arrangement.perm _ _).map _).sum_eq).trans (sum_coloFacets _)

end Facets

/-! ## One known colo -/

theorem toUpper_codeChar {c : Char} (h : codeChar c = true) : c.toUpper = c := by
  have hupper : c ≤ 'Z' := by
    simp only [codeChar, Bool.or_eq_true, Bool.and_eq_true, decide_eq_true_eq] at h
    rcases h with ⟨_, hZ⟩ | ⟨_, h9⟩
    · exact hZ
    · exact Char.le_trans h9 (by decide)
  have hval : c.val ≤ 90 := hupper
  unfold Char.toUpper
  rw [dif_neg]
  rintro ⟨hlow, _⟩
  exact absurd (UInt32.le_trans hlow hval) (by decide)

def coloServer : ColoServer where
  toResultServer := { twoJobsServer with
    toUpper := fun text => String.ofList (text.toList.map Char.toUpper) }
  toUpper_code := by
    intro text hcode
    have hmap : text.toList.map Char.toUpper = text.toList :=
      (List.map_congr_left fun c hc => toUpper_codeChar (hcode c hc)).trans (List.map_id _)
    exact (congrArg String.ofList hmap).trans String.ofList_toList

def statusComponents : List StatusComponent :=
  [⟨"g1", "North America", "", true⟩, ⟨"c1", "Los Angeles, CA, United States - (LAX)", "g1", false⟩]

def losAngeles : ColoTable :=
  ⟨[⟨"LAX", "Los Angeles", "United States", "North America"⟩], by decide⟩

theorem filled_losAngeles : Filled losAngeles := .sync statusComponents .empty (by rfl)

def losAngelesFacet : ResultColoFacet :=
  ⟨⟨"LAX", "Los Angeles", "United States", "North America"⟩, 1⟩

/-- The newest of the two results stands for Los Angeles. -/
theorem listed_losAngeles : listResultColoFacets coloServer.toResultServer
    { twoJobs with coloLocations := losAngeles } (.mergeSort _) (openingFilter.inPlace anywhere) =
      .ok [losAngelesFacet] :=
  congrArg Except.ok (List.mergeSort_singleton losAngelesFacet)

theorem colo_facets_losAngeles : ∃ page, listResults coloServer.toResultServer
      { twoJobs with coloLocations := losAngeles } (fun o => Arrangement.mergeSort o)
      (openingFilter.inPlace losAngelesFacet.place) = .ok page ∧ page.total = 1 :=
  (((colo_facets coloServer { twoJobs with coloLocations := losAngeles } filled_losAngeles
    (.mergeSort _) (fun o => .mergeSort o) openingFilter).mpr
      (fun _ hneg => absurd hneg (by decide +kernel)) [losAngelesFacet] listed_losAngeles).listed
    losAngelesFacet List.mem_cons_self).2

/-- The last page there is a number for: its offset is -100. -/
def lastPage : ResultFilter := { openingFilter with page := 9223372036854775807 }

/-- The facet is listed whatever the page, and picking it fails. -/
theorem facets_disagree_lastPage : ¬ ∀ items,
    listResultColoFacets coloServer.toResultServer { twoJobs with coloLocations := losAngeles }
      (.mergeSort _) (lastPage.inPlace anywhere) = .ok items →
      FacetsAgree coloServer { twoJobs with coloLocations := losAngeles }
        (fun o => Arrangement.mergeSort o) lastPage items := by
  intro hagree
  have hlisted : listResultColoFacets coloServer.toResultServer
      { twoJobs with coloLocations := losAngeles } (.mergeSort _) (lastPage.inPlace anywhere) =
        .ok [losAngelesFacet] := listed_losAngeles
  obtain ⟨_, page, hpage, _⟩ := (hagree _ hlisted).listed losAngelesFacet List.mem_cons_self
  have hneg : lastPage.normalize.offset.toInt < 0 := by decide +kernel
  have hrefused : ∃ error, listResults coloServer.toResultServer
      { twoJobs with coloLocations := losAngeles } (fun o => Arrangement.mergeSort o)
        (lastPage.inPlace losAngelesFacet.place) = .error error := refused_inPlace _ hneg
  obtain ⟨error, hrefused⟩ := hrefused
  rw [hrefused] at hpage
  cases hpage

end Cfscan.Results
