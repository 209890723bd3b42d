import Cfscan.Targets.Enumerate
import Cfscan.Targets.OnePerPrefix

/-!
# Only the networks matter

Two pools that spell the same networks differently, in another order or more than once, are sampled
alike (`sampling_congr`): masked and without repetitions their usable prefixes are the same up to
order, and both sorts tell every two prefixes apart.

`WellFormed` asks of the active entries that they parse and that the version of each is that of its
address. The second is needed: the version says which entries are wanted, and a network that is
spelt twice could otherwise be wanted in one spelling only.

The two sorts may be two different ones. It is the texts of the prefixes that leave no choice to
either, not that both sides would be sorted by the same algorithm.
-/

set_option autoImplicit false

namespace Cfscan.Targets

open Lib Lib.Netip

/-- The active entries parse, and their versions are those of their addresses. -/
def WellFormed (prefixes : List ModelPrefix) : Prop :=
  ∀ item ∈ prefixes, item.active = true → ∃ p, Netip.parsePrefix item.cidr = some p ∧
    item.ipVersion = if p.addr.is4 then 4 else 6

/-- The masked prefixes of the active entries. -/
def activeNetworks (prefixes : List ModelPrefix) : Set Prefix :=
  {p | ∃ item ∈ prefixes, item.active = true ∧
    ∃ parsed, Netip.parsePrefix item.cidr = some parsed ∧ parsed.masked = p}

section Networks

variable {prefixes prefixes' : List ModelPrefix} {includeIPv6 : Bool}

theorem WellFormed.parses (h : WellFormed prefixes) (includeIPv6 : Bool) :
    ∀ item ∈ prefixes, wanted includeIPv6 item = true →
      ∃ p, Netip.parsePrefix item.cidr = some p := by
  intro item hitem hwanted
  have hactive : item.active = true := by
    simp only [wanted, Bool.not_or, Bool.and_eq_true, Bool.not_not] at hwanted
    exact hwanted.1
  obtain ⟨p, hp, -⟩ := h item hitem hactive
  exact ⟨p, hp⟩

/-- Where the versions are right, the flag picks the networks by their family. -/
theorem usable_iff (h : WellFormed prefixes) {p : Prefix} :
    Usable prefixes includeIPv6 p ↔
      p ∈ activeNetworks prefixes ∧ (includeIPv6 = true ∨ p.addr.is4 = true) := by
  have hwanted : ∀ item ∈ prefixes, ∀ parsed, Netip.parsePrefix item.cidr = some parsed →
      (wanted includeIPv6 item = true ↔
        item.active = true ∧ (includeIPv6 = true ∨ parsed.masked.addr.is4 = true)) := by
    intro item hitem parsed hparsed
    cases hactive : item.active with
    | false => simp [wanted, hactive]
    | true =>
      obtain ⟨p, hp, hversion⟩ := h item hitem hactive
      rw [hparsed] at hp
      cases hp
      cases hfour : parsed.addr.is4 <;> cases includeIPv6 <;>
        simp [wanted, hactive, hversion, hfour]
  constructor
  · rintro ⟨item, hitem, hwant, parsed, hparsed, rfl⟩
    obtain ⟨hactive, hfamily⟩ := (hwanted item hitem parsed hparsed).mp hwant
    exact ⟨⟨item, hitem, hactive, parsed, hparsed, rfl⟩, hfamily⟩
  · rintro ⟨⟨item, hitem, hactive, parsed, hparsed, rfl⟩, hfamily⟩
    exact ⟨item, hitem, (hwanted item hitem parsed hparsed).mpr ⟨hactive, hfamily⟩, parsed, hparsed,
      rfl⟩

/-- Two pools with the same networks have the same usable prefixes, each once. -/
theorem exists_usable (h : WellFormed prefixes) (h' : WellFormed prefixes')
    (hsame : activeNetworks prefixes = activeNetworks prefixes') (includeIPv6 : Bool) :
    ∃ usable usable' : List Prefix, usable.Nodup ∧ usable'.Perm usable ∧
      usablePrefixes prefixes includeIPv6 =
        (if usable = [] then .error .noPrefixes else .ok usable) ∧
      usablePrefixes prefixes' includeIPv6 =
        if usable = [] then .error .noPrefixes else .ok usable' := by
  obtain ⟨usable, hnodup, hmem, hrun⟩ := usablePrefixes_ok (h.parses includeIPv6)
  obtain ⟨usable', hnodup', hmem', hrun'⟩ := usablePrefixes_ok (h'.parses includeIPv6)
  have hperm : usable'.Perm usable := by
    rw [List.perm_ext_iff_of_nodup hnodup' hnodup]
    intro p
    rw [hmem, hmem', usable_iff h, usable_iff h', hsame]
  have hempty : usable' = [] ↔ usable = [] :=
    ⟨fun hnil => (hnil ▸ hperm).nil_eq.symm, fun hnil => (hnil ▸ hperm).eq_nil⟩
  simp only [hempty] at hrun'
  exact ⟨usable, usable', hnodup, hperm, hrun, hrun'⟩

/-- A sort by a key that tells prefixes apart does not depend on their order. -/
theorem sort_eq_of_perm (sortSlice sortSlice' : SortSlice) {β : Type} [LinearOrder β]
    {less : Prefix → Prefix → Bool} {key : Prefix → β} (hkey : Function.Injective key)
    (hless : ∀ p q, less p q = true ↔ key p < key q) {usable usable' : List Prefix}
    (hnodup : usable.Nodup) (hperm : usable'.Perm usable) :
    sortSlice'.sort less usable' = sortSlice.sort less usable := by
  refine SortSlice.sort_eq_of_perm sortSlice sortSlice'
    (StrictWeakOrder.of_key key fun p _ q _ => hless p q) (hnodup.imp fun {p q} hne => ?_) hperm
  rw [hless, hless]
  exact lt_or_gt_of_ne (hkey.ne hne)

theorem specificKey_injective : Function.Injective specificKey := by
  intro p q heq
  rw [specificKey, specificKey, toLex_inj, Prod.mk.injEq] at heq
  exact Prefix.string_injective heq.2

/-- Pools with the same networks are sampled alike, with any `sort.Slice` on either side. -/
theorem sampling_congr (sha256 : String → BitVec 256) (sortSlice sortSlice' : SortSlice)
    (h : WellFormed prefixes) (h' : WellFormed prefixes')
    (hsame : activeNetworks prefixes = activeNetworks prefixes') (limit : Int) (includeIPv6 : Bool)
    (seed : String) :
    sample sha256 sortSlice prefixes limit includeIPv6 seed =
        sample sha256 sortSlice' prefixes' limit includeIPv6 seed ∧
      onePerPrefix sha256 sortSlice prefixes includeIPv6 seed =
        onePerPrefix sha256 sortSlice' prefixes' includeIPv6 seed := by
  obtain ⟨usable, usable', hnodup, hperm, hrun, hrun'⟩ := exists_usable h h' hsame includeIPv6
  constructor
  · unfold sample
    rw [hrun, hrun']
    by_cases hempty : usable = []
    · rw [if_pos hempty, if_pos hempty]
    · rw [if_neg hempty, if_neg hempty]
      dsimp only
      rw [sort_eq_of_perm sortSlice sortSlice' Prefix.string_injective
        (fun p q => decide_eq_true_iff) hnodup hperm]
  · unfold onePerPrefix
    rw [hrun, hrun']
    by_cases hempty : usable = []
    · rw [if_pos hempty, if_pos hempty]
    · rw [if_neg hempty, if_neg hempty]
      dsimp only
      rw [sort_eq_of_perm sortSlice sortSlice' specificKey_injective specificLess_iff hnodup hperm]

end Networks

/-! ## One pool, spelt twice -/

/-- The networks of `twoPrefixes` the other way round, one of them twice and with bits of a host, and
an entry that is not active. -/
def twoPrefixesAgain : List ModelPrefix :=
  [⟨"172.64.0.0/24", 4, "as13335", true⟩, ⟨"garbage", 6, "cloudflare", false⟩,
    ⟨"104.16.0.77/24", 4, "cloudflare", true⟩, ⟨"172.64.0.9/24", 4, "cloudflare", true⟩]

theorem wellFormed_of_all {prefixes : List ModelPrefix}
    (h : prefixes.all fun item => !item.active || (Netip.parsePrefix item.cidr).any fun p =>
      decide (item.ipVersion = if p.addr.is4 then 4 else 6)) : WellFormed prefixes := by
  intro item hitem hactive
  have hentry := List.all_eq_true.mp h item hitem
  rw [hactive, Bool.not_true, Bool.false_or, Option.any_eq_true] at hentry
  obtain ⟨p, hp, hversion⟩ := hentry
  exact ⟨p, hp, of_decide_eq_true hversion⟩

theorem mem_activeNetworks {prefixes : List ModelPrefix} (h : WellFormed prefixes) {p : Prefix} :
    p ∈ activeNetworks prefixes ↔ p ∈ networks prefixes true := by
  rw [mem_networks, usable_iff h]
  simp

theorem sampling_congr_twoPrefixes :
    sample (fun _ => 0) .insertion twoPrefixes 20 false "test" =
        sample (fun _ => 0) .insertion twoPrefixesAgain 20 false "test" ∧
      onePerPrefix (fun _ => 0) .insertion twoPrefixes false "test" =
        onePerPrefix (fun _ => 0) .insertion twoPrefixesAgain false "test" := by
  have h : WellFormed twoPrefixes := wellFormed_of_all (by decide +kernel)
  have h' : WellFormed twoPrefixesAgain := wellFormed_of_all (by decide +kernel)
  have hsub : ∀ p ∈ networks twoPrefixes true, p ∈ networks twoPrefixesAgain true := by
    decide +kernel
  have hsub' : ∀ p ∈ networks twoPrefixesAgain true, p ∈ networks twoPrefixes true := by
    decide +kernel
  have hsame : activeNetworks twoPrefixes = activeNetworks twoPrefixesAgain := by
    ext p
    rw [mem_activeNetworks h, mem_activeNetworks h']
    exact ⟨hsub p, hsub' p⟩
  exact sampling_congr (fun _ => 0) .insertion .insertion h h' hsame 20 false "test"

end Cfscan.Targets
