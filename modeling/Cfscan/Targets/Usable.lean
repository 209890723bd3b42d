import Cfscan.Lib.Nesting
import Cfscan.Targets.Sample

/-!
# The usable prefixes of a pool

`usablePrefixes` in `internal/targets/sample.go`, which `Sample` and `OnePerPrefix` start with: the
active prefixes of the wanted families, masked, each once. `usablePrefixes_ok` is what the two
functions below it use: where the entries parse, the list holds each usable prefix once, in the
order of its first entry, and it is an error only when there is none.

An entry that is inactive, or of a family that is not wanted, is passed over before it is parsed,
and can hold anything. That is why `usablePrefixes_ok` asks for parsing entries only among the
wanted ones.
-/

set_option autoImplicit false

namespace Cfscan

/-- `model.Prefix`, without the time it was last seen. -/
structure ModelPrefix where
  cidr : String
  ipVersion : Int
  source : String
  active : Bool
deriving DecidableEq, Repr

namespace Targets

open Lib Lib.Netip

/-- The errors of `Sample` and `OnePerPrefix`. -/
inductive TargetsError where
  /-- `target limit must be between 1 and 10000` -/
  | limit
  /-- `parse prefix "…": …`, wrapping the error of `netip.ParsePrefix` -/
  | parsePrefix (cidr : String)
  /-- `no active prefixes available` -/
  | noPrefixes
  /-- `could not sample target addresses` -/
  | noAddresses
  /-- `could not choose a unique address for prefix …` -/
  | noUniqueAddress (network : String)
deriving DecidableEq, Repr

/-! ## The function

Prefixes are told apart by the text of the masked prefix, which has the same effect as
telling them apart themselves, since printing them is injective. -/

/-- The entry is active and of a wanted family. -/
def wanted (includeIPv6 : Bool) (item : ModelPrefix) : Bool :=
  !(!item.active || (!includeIPv6 && item.ipVersion == 6))

/-- The loop of `usablePrefixes`, with the `seenPrefixes` map. -/
def collectUsable (includeIPv6 : Bool) :
    List ModelPrefix → List Prefix → List String → Except TargetsError (List Prefix)
  | [], usable, _ => .ok usable
  | item :: rest, usable, seenPrefixes =>
      if !item.active || (!includeIPv6 && item.ipVersion == 6) then
        collectUsable includeIPv6 rest usable seenPrefixes
      else
        match Netip.parsePrefix item.cidr with
        | none => .error (.parsePrefix item.cidr)
        | some parsed =>
            let network := parsed.masked
            let key := network.string
            if key ∈ seenPrefixes then collectUsable includeIPv6 rest usable seenPrefixes
            else collectUsable includeIPv6 rest (usable ++ [network]) (key :: seenPrefixes)

def usablePrefixes (prefixes : List ModelPrefix) (includeIPv6 : Bool) :
    Except TargetsError (List Prefix) := do
  let usable ← collectUsable includeIPv6 prefixes [] []
  if usable.length = 0 then .error .noPrefixes else .ok usable

/-! ## What it returns -/

/-- A prefix the pool offers: that of an active entry of a wanted family, masked. -/
def Usable (prefixes : List ModelPrefix) (includeIPv6 : Bool) (p : Prefix) : Prop :=
  ∃ item ∈ prefixes, wanted includeIPv6 item = true ∧
    ∃ parsed, Netip.parsePrefix item.cidr = some parsed ∧ parsed.masked = p

/-- The masked prefixes of the wanted entries, in their order. -/
def networks (prefixes : List ModelPrefix) (includeIPv6 : Bool) : List Prefix :=
  (prefixes.filter (wanted includeIPv6)).filterMap fun item =>
    (Netip.parsePrefix item.cidr).map Prefix.masked

section Usable

variable {prefixes : List ModelPrefix} {includeIPv6 : Bool} {p : Prefix}

theorem mem_networks : p ∈ networks prefixes includeIPv6 ↔ Usable prefixes includeIPv6 p := by
  simp [networks, Usable, and_assoc]

theorem Usable.masked (h : Usable prefixes includeIPv6 p) : p.masked = p := by
  obtain ⟨_, _, _, parsed, _, rfl⟩ := h
  exact parsed.masked_masked

/-- Where the wanted entries parse, the loop adds the prefixes it has not seen. -/
theorem collectUsable_eq {usable : List Prefix} {seenPrefixes : List String}
    (hparse : ∀ item ∈ prefixes, wanted includeIPv6 item = true →
      ∃ p, Netip.parsePrefix item.cidr = some p) :
    collectUsable includeIPv6 prefixes usable seenPrefixes =
      .ok (usable ++ freshOn Prefix.string seenPrefixes (networks prefixes includeIPv6)) := by
  induction prefixes generalizing usable seenPrefixes with
  | nil => simp [collectUsable, networks, freshOn]
  | cons item rest ih =>
    have hrest := fun item hitem => hparse item (List.mem_cons_of_mem _ hitem)
    rw [collectUsable]
    by_cases hwanted : wanted includeIPv6 item = true
    · obtain ⟨parsed, hparsed⟩ := hparse item List.mem_cons_self hwanted
      have hnetworks : networks (item :: rest) includeIPv6 =
          parsed.masked :: networks rest includeIPv6 := by
        simp [networks, hwanted, hparsed]
      have hskip : (!item.active || (!includeIPv6 && item.ipVersion == 6)) = false := by
        simpa only [wanted, Bool.not_eq_true'] using hwanted
      simp only [hskip, Bool.false_eq_true, if_false, hparsed, hnetworks]
      split
      next hseen => rw [ih hrest, freshOn_cons_of_mem hseen]
      next hseen => rw [ih hrest, freshOn_cons_of_notMem hseen, List.append_assoc]; rfl
    · have hnetworks : networks (item :: rest) includeIPv6 = networks rest includeIPv6 := by
        simp [networks, hwanted]
      have hskip : (!item.active || (!includeIPv6 && item.ipVersion == 6)) = true := by
        simpa only [wanted, Bool.not_eq_true', Bool.not_eq_false] using hwanted
      rw [if_pos hskip, ih hrest, hnetworks]

/-- What `usablePrefixes` returns where the wanted entries parse: each usable prefix once. -/
theorem usablePrefixes_ok
    (hparse : ∀ item ∈ prefixes, wanted includeIPv6 item = true →
      ∃ p, Netip.parsePrefix item.cidr = some p) :
    ∃ usable : List Prefix, usable.Nodup ∧ (∀ p, p ∈ usable ↔ Usable prefixes includeIPv6 p) ∧
      usablePrefixes prefixes includeIPv6 =
        if usable = [] then .error .noPrefixes else .ok usable := by
  have hmem : ∀ p, p ∈ freshOn Prefix.string [] (networks prefixes includeIPv6) ↔
      Usable prefixes includeIPv6 p := by
    intro p
    rw [← mem_networks, ← List.mem_map_of_injective Prefix.string_injective, mem_map_freshOn,
      List.mem_map_of_injective Prefix.string_injective]
    simp
  refine ⟨freshOn Prefix.string [] (networks prefixes includeIPv6),
    (nodup_freshOn _ _).of_map _, hmem, ?_⟩
  rw [usablePrefixes, collectUsable_eq hparse, List.nil_append]
  simp only [List.length_eq_zero_iff]
  rfl

end Usable

/-! ## A pool of two prefixes -/

def twoPrefixes : List ModelPrefix :=
  [⟨"104.16.0.0/24", 4, "cloudflare", true⟩, ⟨"172.64.0.0/24", 4, "cloudflare", true⟩]

theorem parses_twoPrefixes : ∀ item ∈ twoPrefixes, wanted false item = true →
    ∃ p, Netip.parsePrefix item.cidr = some p := by
  have hsome : ∀ item ∈ twoPrefixes, (Netip.parsePrefix item.cidr).isSome = true := by
    decide +kernel
  exact fun item hitem _ => Option.isSome_iff_exists.1 (hsome item hitem)

theorem usable_twoPrefixes : ∃ p, Usable twoPrefixes false p := by
  obtain ⟨p, hp⟩ := parses_twoPrefixes _ List.mem_cons_self rfl
  exact ⟨p.masked, _, List.mem_cons_self, rfl, p, hp, rfl⟩

end Targets

end Cfscan
