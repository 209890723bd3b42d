import Cfscan.Lib.Tally
import Cfscan.Results.Facets

/-!
# The colo filter of the page — `web/src/features/results/geo-facets.ts`

Four selects, each inside the one before it: continent, country, city, colo. `buildGeoFacetOptions`
offers the values under a selection, and `normalizeGeoSelection` cuts a selection that the rows
no longer bear out. A selection is `Backed` when one facet fits all of it; what normalizing keeps
is the longest part of the chain that is.

`localeCompare` is any total order on texts, and `Array.prototype.sort` a stable sort by it.

The facets and the selection are arbitrary. That the facets are those of a list, and the counts
those of its rows, is `Results.Facets`; the page asks for both with one filter, but at two moments,
and a selection that was backed at the first may not be at the second, which is what the normalizing
is for.
-/

set_option autoImplicit false

namespace Cfscan.Results

open Cfscan.Lib

/-! ## The functions

Each of the three lists above the colo counts the values left by the selects before it, in a
`Map` that keeps the order of first occurrence until the sort. The colos are not aggregated:
there is one option for each facet. -/

structure GeoFacetOption where
  value : String
  label : String
  count : Nat
deriving DecidableEq, Repr

structure GeoSelection where
  continent : String
  country : String
  city : String
  colo : String
deriving DecidableEq, Repr

structure GeoFacetOptions where
  continents : List GeoFacetOption
  countries : List GeoFacetOption
  cities : List GeoFacetOption
  colos : List GeoFacetOption
deriving DecidableEq, Repr

/-- The `Map` of counts. -/
def aggregateCounts (items : List ResultColoFacet) (valueOf : ResultColoFacet → String) :
    Tally String Nat :=
  items.foldl (fun counts item =>
    let value := valueOf item
    if value = "" then counts else counts.add value item.count) Table.empty

def aggregate (localeCompare : SortOrder String) (items : List ResultColoFacet)
    (valueOf : ResultColoFacet → String) : List GeoFacetOption :=
  ((aggregateCounts items valueOf).rows.map fun entry =>
      { value := entry.1, label := entry.1, count := entry.2 : GeoFacetOption}).mergeSort
    fun a b => localeCompare.le a.label b.label

/-- The colo of the selection is not looked at. -/
def buildGeoFacetOptions (localeCompare : SortOrder String) (facets : List ResultColoFacet)
    (selected : GeoSelection) : GeoFacetOptions :=
  let countriesSource := if selected.continent ≠ "" then
    facets.filter fun item => decide (item.place.continent = selected.continent) else facets
  let citiesSource := countriesSource.filter fun item =>
    decide (selected.country = "" ∨ item.place.country = selected.country)
  let colosSource := citiesSource.filter fun item =>
    decide (selected.city = "" ∨ item.place.city = selected.city)
  { continents := aggregate localeCompare facets fun item => item.place.continent
    countries := aggregate localeCompare countriesSource fun item => item.place.country
    cities := aggregate localeCompare citiesSource fun item => item.place.city
    colos := (colosSource.mergeSort fun a b => localeCompare.le a.place.code b.place.code).map
      fun item =>
        { value := item.place.code
          label := item.place.code ++ " · " ++ item.place.city ++ ", " ++ item.place.country
          count := item.count } }

def normalizeGeoSelection (facets : List ResultColoFacet) (selected : GeoSelection) :
    GeoSelection :=
  let continentValid := selected.continent = "" ∨
    ∃ item ∈ facets, item.place.continent = selected.continent
  if ¬continentValid then ⟨"", "", "", ""⟩
  else
    let continent := selected.continent
    let countryValid := selected.country = "" ∨
      ∃ item ∈ facets, (continent = "" ∨ item.place.continent = continent) ∧
        item.place.country = selected.country
    if ¬countryValid then ⟨continent, "", "", ""⟩
    else
      let country := selected.country
      let cityValid := selected.city = "" ∨
        ∃ item ∈ facets, (continent = "" ∨ item.place.continent = continent) ∧
          (country = "" ∨ item.place.country = country) ∧ item.place.city = selected.city
      if ¬cityValid then ⟨continent, country, "", ""⟩
      else
        let city := selected.city
        let colo :=
          if selected.colo ≠ "" ∧ ∃ item ∈ facets, item.place.code = selected.colo ∧
              (continent = "" ∨ item.place.continent = continent) ∧
              (country = "" ∨ item.place.country = country) ∧
              (city = "" ∨ item.place.city = city)
          then selected.colo else ""
        ⟨continent, country, city, colo⟩

/-! ## Backed selections

`upTo k` is the selection cut behind its first `k` selects. Being backed is downward closed
along that chain, which is what makes "the longest backed part" well defined. -/

namespace GeoSelection

def empty : GeoSelection := ⟨"", "", "", ""⟩

/-- The fields that are set, down to the city, are those of the place. -/
structure FitsCity (sel : GeoSelection) (place : ColoPlace) : Prop where
  continent : sel.continent = "" ∨ place.continent = sel.continent
  country : sel.country = "" ∨ place.country = sel.country
  city : sel.city = "" ∨ place.city = sel.city

instance (sel : GeoSelection) (place : ColoPlace) : Decidable (sel.FitsCity place) :=
  decidable_of_iff ((sel.continent = "" ∨ place.continent = sel.continent) ∧
      (sel.country = "" ∨ place.country = sel.country) ∧ (sel.city = "" ∨ place.city = sel.city))
    ⟨fun h => ⟨h.1, h.2.1, h.2.2⟩, fun h => ⟨h.continent, h.country, h.city⟩⟩

/-- The fields that are set are those of the place. -/
structure Fits (sel : GeoSelection) (place : ColoPlace) : Prop extends FitsCity sel place where
  colo : sel.colo = "" ∨ place.code = sel.colo

/-- One facet fits the whole selection, or nothing is selected. -/
def Backed (facets : List ResultColoFacet) (sel : GeoSelection) : Prop :=
  sel = empty ∨ ∃ item ∈ facets, sel.Fits item.place

/-- The first levels of the selection, from the continent on. -/
def upTo (sel : GeoSelection) : Nat → GeoSelection
  | 0 => empty
  | 1 => ⟨sel.continent, "", "", ""⟩
  | 2 => ⟨sel.continent, sel.country, "", ""⟩
  | 3 => ⟨sel.continent, sel.country, sel.city, ""⟩
  | _ => sel

variable {facets : List ResultColoFacet} {sel : GeoSelection} {place : ColoPlace}

theorem fits_upTo (h : sel.Fits place) (k : Nat) : (sel.upTo k).Fits place := by
  match k with
  | 0 => exact ⟨⟨.inl rfl, .inl rfl, .inl rfl⟩, .inl rfl⟩
  | 1 => exact ⟨⟨h.continent, .inl rfl, .inl rfl⟩, .inl rfl⟩
  | 2 => exact ⟨⟨h.continent, h.country, .inl rfl⟩, .inl rfl⟩
  | 3 => exact ⟨⟨h.continent, h.country, h.city⟩, .inl rfl⟩
  | _ + 4 => exact h

theorem upTo_upTo {j k : Nat} (h : j ≤ k) : (sel.upTo k).upTo j = sel.upTo j := by
  match j, k, h with
  | 0, _, _ => rfl
  | 1, 1, _ | 1, 2, _ | 1, 3, _ | 1, _ + 4, _ => rfl
  | 2, 2, _ | 2, 3, _ | 2, _ + 4, _ => rfl
  | 3, 3, _ | 3, _ + 4, _ => rfl
  | _ + 4, _ + 4, _ => rfl

theorem upTo_empty (k : Nat) : empty.upTo k = empty := by
  match k with
  | 0 | 1 | 2 | 3 | _ + 4 => rfl

theorem Backed.upTo (h : Backed facets sel) (k : Nat) : Backed facets (sel.upTo k) := by
  rcases h with rfl | ⟨item, hitem, hfits⟩
  · exact .inl (upTo_empty k)
  · exact .inr ⟨item, hitem, fits_upTo hfits k⟩

/-- What is backed up to some level is backed up to the levels before it. -/
theorem Backed.mono {j k : Nat} (h : Backed facets (sel.upTo k)) (hjk : j ≤ k) :
    Backed facets (sel.upTo j) :=
  upTo_upTo hjk ▸ h.upTo j

theorem backed_iff (h : sel ≠ empty) :
    Backed facets sel ↔ ∃ item ∈ facets, sel.Fits item.place :=
  or_iff_right h

end GeoSelection

/-! ## `normalizeGeoSelection`

The source tests one select after the other against the facets and cuts at the first that
fails. The lemmas `backed_continent` to `backed_colo` say that each of these tests is one
more step of the chain, under the steps before it. -/

section Normalize

open GeoSelection

variable {facets : List ResultColoFacet} {sel : GeoSelection}

theorem backed_continent : Backed facets (sel.upTo 1) ↔
    sel.continent = "" ∨ ∃ item ∈ facets, item.place.continent = sel.continent := by
  by_cases hblank : sel.continent = ""
  · refine iff_of_true (.inl ?_) (.inl hblank)
    rw [GeoSelection.upTo, hblank, empty]
  · have hne : sel.upTo 1 ≠ GeoSelection.empty := fun h =>
      hblank (congrArg GeoSelection.continent h)
    rw [backed_iff hne, or_iff_right hblank]
    refine exists_congr fun item => and_congr_right fun _ => ?_
    exact ⟨fun h => h.continent.resolve_left hblank,
      fun h => ⟨⟨.inr h, .inl rfl, .inl rfl⟩, .inl rfl⟩⟩

theorem backed_country (hbefore : Backed facets (sel.upTo 1)) : Backed facets (sel.upTo 2) ↔
    sel.country = "" ∨ ∃ item ∈ facets,
      (sel.continent = "" ∨ item.place.continent = sel.continent) ∧
        item.place.country = sel.country := by
  by_cases hblank : sel.country = ""
  · refine iff_of_true ?_ (.inl hblank)
    have hsame : sel.upTo 2 = sel.upTo 1 := by rw [GeoSelection.upTo, GeoSelection.upTo, hblank]
    rwa [hsame]
  · have hne : sel.upTo 2 ≠ GeoSelection.empty := fun h =>
      hblank (congrArg GeoSelection.country h)
    rw [backed_iff hne, or_iff_right hblank]
    refine exists_congr fun item => and_congr_right fun _ => ?_
    exact ⟨fun h => ⟨h.continent, h.country.resolve_left hblank⟩,
      fun h => ⟨⟨h.1, .inr h.2, .inl rfl⟩, .inl rfl⟩⟩

theorem backed_city (hbefore : Backed facets (sel.upTo 2)) : Backed facets (sel.upTo 3) ↔
    sel.city = "" ∨ ∃ item ∈ facets,
      (sel.continent = "" ∨ item.place.continent = sel.continent) ∧
        (sel.country = "" ∨ item.place.country = sel.country) ∧ item.place.city = sel.city := by
  by_cases hblank : sel.city = ""
  · refine iff_of_true ?_ (.inl hblank)
    have hsame : sel.upTo 3 = sel.upTo 2 := by rw [GeoSelection.upTo, GeoSelection.upTo, hblank]
    rwa [hsame]
  · have hne : sel.upTo 3 ≠ GeoSelection.empty := fun h =>
      hblank (congrArg GeoSelection.city h)
    rw [backed_iff hne, or_iff_right hblank]
    refine exists_congr fun item => and_congr_right fun _ => ?_
    exact ⟨fun h => ⟨h.continent, h.country, h.city.resolve_left hblank⟩,
      fun h => ⟨⟨h.1, h.2.1, .inr h.2.2⟩, .inl rfl⟩⟩

theorem backed_colo (hblank : sel.colo ≠ "") : Backed facets sel ↔
    ∃ item ∈ facets, item.place.code = sel.colo ∧
      (sel.continent = "" ∨ item.place.continent = sel.continent) ∧
      (sel.country = "" ∨ item.place.country = sel.country) ∧
      (sel.city = "" ∨ item.place.city = sel.city) := by
  rw [backed_iff fun h => hblank (congrArg GeoSelection.colo h)]
  refine exists_congr fun item => and_congr_right fun _ => ?_
  exact ⟨fun h => ⟨h.colo.resolve_left hblank, h.continent, h.country, h.city⟩,
    fun h => ⟨⟨h.2.1, h.2.2.1, h.2.2.2⟩, .inr h.1⟩⟩

/-- Normalizing keeps the longest part of the chain that is backed. -/
theorem normalize_eq_upTo (facets : List ResultColoFacet) (sel : GeoSelection) :
    ∃ kept ≤ 4, normalizeGeoSelection facets sel = sel.upTo kept ∧
      Backed facets (sel.upTo kept) ∧
      ∀ k ≤ 4, Backed facets (sel.upTo k) → k ≤ kept := by
  -- a level that is not backed ends the part that is
  have hends : ∀ kept, ¬Backed facets (sel.upTo (kept + 1)) →
      ∀ k ≤ 4, Backed facets (sel.upTo k) → k ≤ kept := by
    intro kept hnot k _ hk
    by_contra hlt
    exact hnot (hk.mono (Nat.lt_of_not_le hlt))
  simp only [normalizeGeoSelection]
  split
  next hnot =>
    exact ⟨0, Nat.zero_le _, rfl, .inl rfl, hends 0 (mt backed_continent.1 hnot)⟩
  next hcontinent =>
    have h₁ := backed_continent.2 (not_not.1 hcontinent)
    split
    next hnot =>
      exact ⟨1, Nat.le_add_left 1 3, rfl, h₁, hends 1 (mt (backed_country h₁).1 hnot)⟩
    next hcountry =>
      have h₂ := (backed_country h₁).2 (not_not.1 hcountry)
      split
      next hnot =>
        exact ⟨2, Nat.le_add_left 2 2, rfl, h₂, hends 2 (mt (backed_city h₂).1 hnot)⟩
      next hcity =>
        have h₃ := (backed_city h₂).2 (not_not.1 hcity)
        split
        next hcolo =>
          have hbacked : Backed facets sel := (backed_colo hcolo.1).2 hcolo.2
          exact ⟨4, Nat.le_refl 4, rfl, hbacked, fun k hk _ => hk⟩
        next hcolo =>
          by_cases hblank : sel.colo = ""
          · have hsame : sel.upTo 3 = sel := by rw [GeoSelection.upTo, ← hblank]
            refine ⟨4, Nat.le_refl 4, hsame, ?_, fun k hk _ => hk⟩
            rwa [hsame] at h₃
          · refine ⟨3, Nat.le_succ 3, rfl, h₃, hends 3 fun h => hcolo ⟨hblank, ?_⟩⟩
            exact (backed_colo hblank).1 h

theorem normalize_of_backed (h : Backed facets sel) : normalizeGeoSelection facets sel = sel := by
  obtain ⟨kept, hle, heq, -, hlongest⟩ := normalize_eq_upTo facets sel
  obtain rfl : kept = 4 := Nat.le_antisymm hle (hlongest 4 (Nat.le_refl 4) h)
  exact heq

theorem backed_normalize (facets : List ResultColoFacet) (sel : GeoSelection) :
    Backed facets (normalizeGeoSelection facets sel) := by
  obtain ⟨kept, -, heq, hbacked, -⟩ := normalize_eq_upTo facets sel
  rwa [heq]

end Normalize

/-! ## `buildGeoFacetOptions`

Membership and counts of the four lists, and that a backed selection finds each of its
values among the options, so that no select of the page shows a value it does not offer. -/

section Options

variable {localeCompare : SortOrder String} {facets items : List ResultColoFacet}
  {valueOf : ResultColoFacet → String} {sel : GeoSelection}

/-- Blank values are left out before they are counted. -/
theorem aggregateCounts_eq : aggregateCounts items valueOf =
    tally valueOf ResultColoFacet.count (items.filter fun item => decide (valueOf item ≠ "")) := by
  rw [aggregateCounts, tally, List.foldl_filter]
  congr 1
  funext counts item
  by_cases hblank : valueOf item = ""
  · simp [hblank]
  · simp [hblank]

/-- An option for each value that is not blank, with the rows it stands for. -/
theorem mem_aggregate {option : GeoFacetOption} : option ∈ aggregate localeCompare items valueOf ↔
    option.value ≠ "" ∧ (∃ item ∈ items, valueOf item = option.value) ∧
      option.label = option.value ∧
      option.count = ((items.filter fun item => decide (valueOf item = option.value)).map
        ResultColoFacet.count).sum := by
  rw [aggregate, (List.mergeSort_perm _ _).mem_iff, aggregateCounts_eq, List.mem_map]
  have hcount : ∀ value, value ≠ "" →
      (items.filter fun item => decide (valueOf item ≠ "")).filter
        (fun item => decide (valueOf item = value)) =
      items.filter fun item => decide (valueOf item = value) := by
    intro value hvalue
    rw [List.filter_filter]
    refine List.filter_congr fun item _ => ?_
    by_cases heq : valueOf item = value
    · simp [heq, hvalue]
    · simp [heq]
  constructor
  · rintro ⟨entry, hentry, rfl⟩
    obtain ⟨hkey, htotal⟩ := mem_tally.1 hentry
    obtain ⟨item, hitem, hvalue⟩ := List.mem_map.1 hkey
    obtain ⟨hitem, hset⟩ := List.mem_filter.1 hitem
    have hne : entry.1 ≠ "" := hvalue ▸ of_decide_eq_true hset
    exact ⟨hne, ⟨item, hitem, hvalue⟩, rfl, htotal.trans (by rw [hcount _ hne])⟩
  · rintro ⟨hne, ⟨item, hitem, hvalue⟩, hlabel, htotal⟩
    refine ⟨(option.value, option.count), mem_tally.2 ⟨?_, ?_⟩, ?_⟩
    · refine List.mem_map.2 ⟨item, List.mem_filter.2 ⟨hitem, ?_⟩, hvalue⟩
      exact decide_eq_true (hvalue ▸ hne)
    · exact htotal.trans (by rw [hcount _ hne])
    · obtain ⟨value, label, count⟩ := option
      obtain rfl : label = value := hlabel
      rfl

theorem mem_values_aggregate {value : String} :
    value ∈ (aggregate localeCompare items valueOf).map GeoFacetOption.value ↔
      value ≠ "" ∧ ∃ item ∈ items, valueOf item = value := by
  constructor
  · intro h
    obtain ⟨option, hoption, rfl⟩ := List.mem_map.1 h
    obtain ⟨hne, hsome, -⟩ := mem_aggregate.1 hoption
    exact ⟨hne, hsome⟩
  · rintro ⟨hne, hsome⟩
    let option : GeoFacetOption := ⟨value, value, ((items.filter fun item =>
      decide (valueOf item = value)).map ResultColoFacet.count).sum⟩
    have hoption : option ∈ aggregate localeCompare items valueOf :=
      mem_aggregate.2 ⟨hne, hsome, rfl, rfl⟩
    exact List.mem_map.2 ⟨option, hoption, rfl⟩

theorem filter_continent : (if sel.continent ≠ "" then
      facets.filter fun item => decide (item.place.continent = sel.continent) else facets) =
    facets.filter fun item =>
      decide (sel.continent = "" ∨ item.place.continent = sel.continent) := by
  by_cases hblank : sel.continent = ""
  · simp [hblank]
  · simp [hblank]

/-- Countries are offered within the continent. -/
theorem mem_countries {value : String} :
    value ∈ (buildGeoFacetOptions localeCompare facets sel).countries.map GeoFacetOption.value ↔
      value ≠ "" ∧ ∃ item ∈ facets,
        (sel.continent = "" ∨ item.place.continent = sel.continent) ∧ item.place.country = value := by
  rw [buildGeoFacetOptions, mem_values_aggregate, filter_continent]
  simp only [List.mem_filter, decide_eq_true_eq, and_assoc]

/-- Cities are offered within the country. -/
theorem mem_cities {value : String} :
    value ∈ (buildGeoFacetOptions localeCompare facets sel).cities.map GeoFacetOption.value ↔
      value ≠ "" ∧ ∃ item ∈ facets,
        (sel.continent = "" ∨ item.place.continent = sel.continent) ∧
        (sel.country = "" ∨ item.place.country = sel.country) ∧ item.place.city = value := by
  rw [buildGeoFacetOptions, mem_values_aggregate, filter_continent]
  simp only [List.mem_filter, decide_eq_true_eq, and_assoc]

/-- The facets whose colos are offered. -/
def colosSource (facets : List ResultColoFacet) (sel : GeoSelection) : List ResultColoFacet :=
  facets.filter fun item => decide (sel.FitsCity item.place)

/-- A colo is offered for each facet within the city. -/
theorem colos_perm : ((buildGeoFacetOptions localeCompare facets sel).colos.map fun option =>
      (option.value, option.count)).Perm
    ((colosSource facets sel).map fun item => (item.place.code, item.count)) := by
  have hsource : ((facets.filter fun item =>
      decide (sel.continent = "" ∨ item.place.continent = sel.continent)).filter
        fun item => decide (sel.country = "" ∨ item.place.country = sel.country)).filter
        (fun item => decide (sel.city = "" ∨ item.place.city = sel.city)) =
      colosSource facets sel := by
    rw [colosSource, List.filter_filter, List.filter_filter]
    refine List.filter_congr fun item _ => ?_
    rw [Bool.eq_iff_iff]
    simp only [Bool.and_eq_true, decide_eq_true_eq]
    exact ⟨fun h => ⟨h.2, h.1.2, h.1.1⟩, fun h => ⟨⟨h.city, h.country⟩, h.continent⟩⟩
  rw [buildGeoFacetOptions]
  simp only [filter_continent, hsource, List.map_map]
  exact (List.mergeSort_perm _ _).map _

theorem mem_colos {value : String} :
    value ∈ (buildGeoFacetOptions localeCompare facets sel).colos.map GeoFacetOption.value ↔
      ∃ item ∈ facets, sel.FitsCity item.place ∧ item.place.code = value := by
  have hperm := (@colos_perm localeCompare facets sel).map Prod.fst
  rw [List.map_map, List.map_map] at hperm
  refine hperm.mem_iff.trans ?_
  rw [colosSource, List.mem_map]
  simp only [List.mem_filter, decide_eq_true_eq, and_assoc, Function.comp_apply]

/-- The colos offered stand for the rows within the city. -/
theorem sum_colos (localeCompare : SortOrder String) (facets : List ResultColoFacet)
    (sel : GeoSelection) :
    ((buildGeoFacetOptions localeCompare facets sel).colos.map GeoFacetOption.count).sum =
      ((colosSource facets sel).map ResultColoFacet.count).sum := by
  have hperm := (@colos_perm localeCompare facets sel).map Prod.snd
  rw [List.map_map, List.map_map] at hperm
  exact hperm.sum_eq

/-- What is selected and backed is offered. -/
theorem offered_of_backed (h : sel.Backed facets) :
    (sel.continent ≠ "" → sel.continent ∈
      (buildGeoFacetOptions localeCompare facets sel).continents.map GeoFacetOption.value) ∧
    (sel.country ≠ "" → sel.country ∈
      (buildGeoFacetOptions localeCompare facets sel).countries.map GeoFacetOption.value) ∧
    (sel.city ≠ "" → sel.city ∈
      (buildGeoFacetOptions localeCompare facets sel).cities.map GeoFacetOption.value) ∧
    (sel.colo ≠ "" → sel.colo ∈
      (buildGeoFacetOptions localeCompare facets sel).colos.map GeoFacetOption.value) := by
  rcases h with rfl | ⟨item, hitem, hfits⟩
  · exact ⟨fun h => absurd rfl h, fun h => absurd rfl h, fun h => absurd rfl h,
      fun h => absurd rfl h⟩
  refine ⟨fun hset => ?_, fun hset => ?_, fun hset => ?_, fun hset => ?_⟩
  · rw [buildGeoFacetOptions, mem_values_aggregate]
    exact ⟨hset, item, hitem, hfits.continent.resolve_left hset⟩
  · exact mem_countries.2 ⟨hset, item, hitem, hfits.continent, hfits.country.resolve_left hset⟩
  · exact mem_cities.2
      ⟨hset, item, hitem, hfits.continent, hfits.country, hfits.city.resolve_left hset⟩
  · exact mem_colos.2 ⟨item, hitem, hfits.toFitsCity, hfits.colo.resolve_left hset⟩

end Options

/-- **The colo filter is backed by the facets.** Normalizing keeps the longest backed part of the
chain, so it does nothing twice and nothing to a backed selection; what it keeps is offered, and
the colos offered with it stand for all the rows it leaves. -/
theorem geoSelection_backed (localeCompare : SortOrder String) (facets : List ResultColoFacet)
    (selected : GeoSelection) :
    let result := normalizeGeoSelection facets selected
    let options := buildGeoFacetOptions localeCompare facets result
    result.Backed facets ∧
    (∃ kept ≤ 4, result = selected.upTo kept ∧
      ∀ k ≤ 4, (selected.upTo k).Backed facets → k ≤ kept) ∧
    normalizeGeoSelection facets result = result ∧
    ((∃ item ∈ facets, selected.Fits item.place) → result = selected) ∧
    (result.continent ≠ "" →
      result.continent ∈ options.continents.map GeoFacetOption.value) ∧
    (result.country ≠ "" → result.country ∈ options.countries.map GeoFacetOption.value) ∧
    (result.city ≠ "" → result.city ∈ options.cities.map GeoFacetOption.value) ∧
    (result.colo ≠ "" → result.colo ∈ options.colos.map GeoFacetOption.value) ∧
    (options.colos.map GeoFacetOption.count).sum =
      ((facets.filter fun item => decide (result.FitsCity item.place)).map
        ResultColoFacet.count).sum := by
  intro result options
  have hbacked : result.Backed facets := backed_normalize facets selected
  obtain ⟨kept, hle, heq, -, hlongest⟩ := normalize_eq_upTo facets selected
  obtain ⟨hcontinent, hcountry, hcity, hcolo⟩ := @offered_of_backed localeCompare facets _ hbacked
  refine ⟨hbacked, ⟨kept, hle, heq, hlongest⟩, normalize_of_backed hbacked, fun hfits => ?_,
    hcontinent, hcountry, hcity, hcolo, sum_colos localeCompare facets result⟩
  exact normalize_of_backed (.inr hfits)

end Cfscan.Results
