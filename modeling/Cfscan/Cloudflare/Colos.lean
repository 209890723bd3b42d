import Cfscan.Results.Store

/-!
# Colo locations — `internal/cloudflare/sync.go`, `internal/store/postgres/store.go`

`SyncColos` reads the names of Cloudflare's status components, of the form
`Los Angeles, CA, United States - (LAX)`, and `ReplaceColoLocations` makes `colo_locations` what it
read. A location has a code of three letters or digits and no empty name (`filled_located`).

The columns `status` and `updated_at` are read by no query here and are left out.

Nothing is said of **which** locations Cloudflare publishes, or that two syncs agree. What is used
elsewhere is the shape alone. In `Results.Facets` it makes a row of a known colo one with all four
names, and makes each name a text that can be asked for again.
-/

set_option autoImplicit false

namespace Cfscan.Cloudflare

open Cfscan.Lib Cfscan.Store
open Cfscan.Results (ColoLocation)

/-! ## The names

The pattern is read from the end of the name, where it is anchored. A name without a comma
is a city that is a country too. -/

/-- `[A-Z0-9]`. -/
def codeChar (c : Char) : Bool :=
  decide ('A' ≤ c) && decide (c ≤ 'Z') || decide ('0' ≤ c) && decide (c ≤ '9')

/-- `\s` of `regexp`. -/
def patternSpace (c : Char) : Bool := decide (c ∈ ['\t', '\n', Char.ofNat 0x0c, '\r', ' '])

/-- `coloSuffixPattern`, `\s+-\s+\(([A-Z0-9]{3})\)$`: the code, and the name without the match.
The name is read from its end, where the pattern is anchored. -/
def coloSuffix (name : String) : Option (String × String) :=
  match name.toList.reverse with
  | ')' :: c :: b :: a :: '(' :: space :: rest =>
    if codeChar a && codeChar b && codeChar c && patternSpace space then
      match rest.dropWhile patternSpace with
      | '-' :: space :: rest =>
        if patternSpace space then
          some (String.ofList [a, b, c], String.ofList (rest.dropWhile patternSpace).reverse)
        else none
      | _ => none
    else none
  | _ => none

/-- `strings.Split` by a comma. -/
def splitComma (text : String) : List String := (text.toList.splitOn ',').map String.ofList

/-- The city and the country of a name, before its code. -/
def cityCountry (base : String) : String × String :=
  let parts := splitComma base
  let city := trimSpace (parts.head?.getD "")
  (city, if 2 ≤ parts.length then trimSpace (parts.getLast?.getD "") else city)

/-! ## `SyncColos`

The allowed continents are groups of components, and a component counts when its group is
one of them. A component that does not, or whose name does not fit, is passed over without
an error. -/

structure StatusComponent where
  id : String
  name : String
  groupID : String
  group : Bool
deriving DecidableEq, Repr

def allowedContinents : List String :=
  ["Africa", "Asia", "Europe", "Latin America & the Caribbean", "Middle East", "North America",
    "Oceania"]

/-- `continents`: the allowed groups by their id, a later one over an earlier one. -/
def continentOf (components : List StatusComponent) (groupID : String) : Option String :=
  (components.reverse.find? fun component =>
    component.group && decide (component.name ∈ allowedContinents) &&
      decide (component.id = groupID)).map StatusComponent.name

/-- The location a component names, if it names one. -/
def locationOf (components : List StatusComponent) (component : StatusComponent) :
    Option ColoLocation :=
  match continentOf components component.groupID, coloSuffix component.name with
  | some continent, some (code, base) =>
    let names := cityCountry (trimSpace base)
    if names.1 = "" ∨ names.2 = "" then none
    else some { code := code, city := names.1, country := names.2, continent := continent }
  | _, _ => none

def addLocation (components : List StatusComponent) (locations : List ColoLocation)
    (component : StatusComponent) : List ColoLocation :=
  match locationOf components component with
  | some location =>
    if locations.any fun seen => decide (seen.code = location.code) then locations
    else locations ++ [location]
  | none => locations

/-- The locations of a payload, the first of each code. -/
def coloLocations (components : List StatusComponent) : List ColoLocation :=
  components.foldl (addLocation components) []

abbrev ColoTable := Table String ColoLocation ColoLocation.code

def storableLocation (location : ColoLocation) : Bool :=
  storable location.code && storable location.city && storable location.country &&
    storable location.continent

/-- `incoming_colos`, filled row by row. -/
def stageColos : ColoTable → List ColoLocation → Except StoreError ColoTable
  | incoming, [] => .ok incoming
  | incoming, location :: rest =>
    if storableLocation location then stageColos (incoming.put location) rest
    else .error (.db ("stage colo " ++ location.code) .valueRefused)

def replaceColoLocations (t : ColoTable) (locations : List ColoLocation) :
    Except StoreError ColoTable :=
  match stageColos .empty locations with
  | .error error => .error error
  | .ok incoming =>
    let kept := t.keepWhere fun location => (incoming.find? location.code).isSome
    .ok (incoming.rows.foldl Table.put kept)

/-- `SyncColos` once the payload is decoded. -/
def syncColos (t : ColoTable) (components : List StatusComponent) : Except StoreError ColoTable :=
  let locations := coloLocations components
  if locations.length = 0 then .error (.message "Cloudflare status returned no colo locations")
  else replaceColoLocations t locations

/-- The contents only `SyncColos` wrote. A sync that fails leaves the table as it was. -/
inductive Filled : ColoTable → Prop where
  | empty : Filled .empty
  | sync {t t' : ColoTable} (components : List StatusComponent) :
      Filled t → syncColos t components = .ok t' → Filled t'

/-! ## What is in the table -/

structure Located (location : ColoLocation) : Prop where
  length : location.code.toList.length = 3
  upper : ∀ c ∈ location.code.toList, codeChar c = true
  city : location.city ≠ ""
  country : location.country ≠ ""
  continent : location.continent ≠ ""

theorem coloSuffix_code {name code base : String} (h : coloSuffix name = some (code, base)) :
    code.toList.length = 3 ∧ ∀ c ∈ code.toList, codeChar c = true := by
  unfold coloSuffix at h
  split at h
  · rename_i c b a space rest _
    split at h
    · rename_i hcode
      simp only [Bool.and_eq_true] at hcode
      split at h
      · split at h
        · cases h
          rw [String.toList_ofList]
          refine ⟨rfl, ?_⟩
          simp only [List.mem_cons, List.not_mem_nil, or_false, forall_eq_or_imp, forall_eq]
          exact ⟨hcode.1.1.1, hcode.1.1.2, hcode.1.2⟩
        · cases h
      · cases h
    · cases h
  · cases h

theorem continentOf_allowed {components : List StatusComponent} {groupID continent : String}
    (h : continentOf components groupID = some continent) : continent ∈ allowedContinents := by
  obtain ⟨component, hfound, rfl⟩ := Option.map_eq_some_iff.mp h
  have hholds := List.find?_some hfound
  simp only [Bool.and_eq_true, decide_eq_true_eq] at hholds
  exact hholds.1.2

theorem located_locationOf {components : List StatusComponent} {component : StatusComponent}
    {location : ColoLocation} (h : locationOf components component = some location) :
    Located location := by
  unfold locationOf at h
  split at h
  · rename_i continent code base hcontinent hsuffix
    generalize cityCountry (trimSpace base) = names at h
    dsimp only at h
    split at h
    · cases h
    · rename_i hnames
      cases h
      obtain ⟨hlength, hupper⟩ := coloSuffix_code hsuffix
      refine ⟨hlength, hupper, fun hcity => hnames (Or.inl hcity), fun hcountry =>
        hnames (Or.inr hcountry), ?_⟩
      rintro rfl
      exact absurd (continentOf_allowed hcontinent) (by decide)
  · cases h

theorem located_addLocation {components : List StatusComponent} {locations : List ColoLocation}
    {component : StatusComponent} (h : ∀ location ∈ locations, Located location) :
    ∀ location ∈ addLocation components locations component, Located location := by
  unfold addLocation
  split
  · rename_i added hadded
    split
    · exact h
    · intro location hmem
      rcases List.mem_append.mp hmem with hold | hnew
      · exact h location hold
      · obtain rfl := List.mem_singleton.mp hnew
        exact located_locationOf hadded
  · exact h

theorem located_coloLocations (components : List StatusComponent) :
    ∀ location ∈ coloLocations components, Located location :=
  List.foldlRecOn components (addLocation components)
    (motive := fun locations => ∀ location ∈ locations, Located location)
    (fun _ h => absurd h List.not_mem_nil) fun _ h _ _ => located_addLocation h

/-- What is staged was taken by the server. -/
theorem mem_stageColos {locations : List ColoLocation} {incoming staged : ColoTable}
    (h : stageColos incoming locations = .ok staged) {location : ColoLocation}
    (hmem : location ∈ staged.rows) : location ∈ incoming.rows ∨
      location ∈ locations ∧ storableLocation location = true := by
  induction locations generalizing incoming with
  | nil =>
    cases h
    exact Or.inl hmem
  | cons first rest ih =>
    unfold stageColos at h
    split at h
    · rename_i hstorable
      rcases ih h with hput | ⟨hrest, hstored⟩
      · rcases Table.mem_put.mp hput with rfl | ⟨hold, _⟩
        · exact Or.inr ⟨List.mem_cons_self, hstorable⟩
        · exact Or.inl hold
      · exact Or.inr ⟨List.mem_cons_of_mem _ hrest, hstored⟩
    · cases h

theorem mem_foldl_put {rows : List ColoLocation} {t : ColoTable} {location : ColoLocation}
    (h : location ∈ (rows.foldl Table.put t).rows) : location ∈ t.rows ∨ location ∈ rows := by
  induction rows generalizing t with
  | nil => exact Or.inl h
  | cons first rest ih =>
    rcases ih h with hput | hrest
    · rcases Table.mem_put.mp hput with rfl | ⟨hold, _⟩
      · exact Or.inr List.mem_cons_self
      · exact Or.inl hold
    · exact Or.inr (List.mem_cons_of_mem _ hrest)

/-- The locations of a table that only `SyncColos` wrote. -/
theorem filled_located {t : ColoTable} (h : Filled t) {location : ColoLocation}
    (hmem : location ∈ t.rows) : Located location ∧ storableLocation location = true := by
  induction h with
  | empty => cases hmem
  | sync components _ hsync ih =>
    unfold syncColos replaceColoLocations at hsync
    dsimp only at hsync
    split at hsync
    · cases hsync
    split at hsync
    · cases hsync
    rename_i incoming hstaged
    cases hsync
    rcases mem_foldl_put hmem with hkept | hincoming
    · exact ih (Table.mem_keepWhere.mp hkept).1
    · rcases mem_stageColos hstaged hincoming with hempty | ⟨hread, hstored⟩
      · cases hempty
      · exact ⟨located_coloLocations components _ hread, hstored⟩

end Cfscan.Cloudflare
