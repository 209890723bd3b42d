import Cfscan.Lib.SortSlice
import Cfscan.Targets.Usable
import Mathlib.Data.Prod.Lex
import Mathlib.Data.Set.Card
import Mathlib.Data.String.Basic

/-!
# `OnePerPrefix` — more specific prefixes first

`OnePerPrefix` in `internal/targets/sample.go`: every usable prefix draws one address, longer
prefixes before shorter ones, and no address is taken twice.

A prefix goes without an address only when everything it draws in 4096 rounds is taken. What was
taken before it, it was taken by prefixes with no fewer bits; of these, the ones that can have taken
an address of it lie inside it (`Prefix.inside_of_shared`), and each has taken one. So the prefix
finds an address as soon as it draws more different ones than there are usable prefixes inside it.

`Roomy` is about the hash as much as about the prefixes: it counts the **different** addresses the
4096 rounds draw, and a prefix of four addresses can draw one of them every time. For disjoint
prefixes one draw suffices, and this is the part of `onePerPrefix_each` a caller can rely on.

Where a prefix does go without, the whole call is an error and no target is returned, not even those
already found.
-/

set_option autoImplicit false

namespace Cfscan.Targets

open Lib Lib.Netip

/-! ## The function -/

/-- The `less` of `OnePerPrefix`: longer prefixes first, then by text. -/
def specificLess (p q : Prefix) : Bool :=
  if p.bits ≠ q.bits then decide (p.bits > q.bits) else decide (p.string < q.string)

/-- The loop of `OnePerPrefix`, with the `seenAddresses` map. -/
def chooseUnique (sha256 : String → BitVec 256) (seed : String) :
    List Prefix → List ScanTarget → Seen → Option (Except TargetsError (List ScanTarget))
  | [], result, _ => some (.ok result)
  | p :: rest, result, seenAddresses => do
      let (items, seenAddresses) ← fromPrefix sha256 p.string 1 seed seenAddresses
      match items with
      | .error (.parsePrefix cidr) => some (.error (.parsePrefix cidr))
      | .ok [item] => chooseUnique sha256 seed rest (result ++ [item]) seenAddresses
      | .ok _ => some (.error (.noUniqueAddress p.string))

def onePerPrefix (sha256 : String → BitVec 256) (sortSlice : SortSlice)
    (prefixes : List ModelPrefix) (includeIPv6 : Bool) (seed : String) :
    Option (Except TargetsError (List ScanTarget)) :=
  match usablePrefixes prefixes includeIPv6 with
  | .error err => some (.error err)
  | .ok usable => chooseUnique sha256 seed (sortSlice.sort specificLess usable) [] []

/-! ## The order

By the number of bits, the longest first, and then by text. The text decides between
prefixes of one length only, and these are disjoint, so it has no say in who finds an
address. -/

def specificKey (p : Prefix) : Int ×ₗ String := toLex (-(p.bits : Int), p.string)

theorem specificLess_iff (p q : Prefix) :
    specificLess p q = true ↔ specificKey p < specificKey q := by
  rw [specificKey, specificKey, Prod.Lex.toLex_lt_toLex, specificLess]
  split
  next hbits => rw [decide_eq_true_iff]; omega
  next hbits => simp [not_not.1 hbits]

/-- Longer prefixes come first. -/
theorem longerFirst_sort (sortSlice : SortSlice) (usable : List Prefix) :
    (sortSlice.sort specificLess usable).Pairwise fun p q => q.bits ≤ p.bits := by
  have horder : StrictWeakOrder specificLess usable :=
    StrictWeakOrder.of_key specificKey fun p _ q _ => specificLess_iff p q
  refine (sortSlice.sorted _ usable horder).imp fun {p q} hless => ?_
  by_contra hlt
  have hne : q.bits ≠ p.bits := by omega
  simp [specificLess, hne] at hless
  omega

/-! ## The loop -/

/-- What the loop has after the prefixes `done`: a target for each, in their order. -/
structure Reserved (done : List Prefix) (result : List ScanTarget) (seenAddresses : Seen) :
    Prop where
  cidrs : result.map ScanTarget.prefixCIDR = done.map Prefix.string
  inside : ∀ target ∈ result, ∃ p a, target = ⟨Addr.string a, Prefix.string p⟩ ∧
    p.contains a = true
  seen : ∀ text, text ∈ seenAddresses ↔ text ∈ result.map ScanTarget.targetIP
  nodup : (result.map ScanTarget.targetIP).Nodup

theorem Reserved.start : Reserved [] [] [] := ⟨rfl, by simp, by simp, List.nodup_nil⟩

section Loop

variable {sha256 : String → BitVec 256} {seed : String} {done rest : List Prefix} {p : Prefix}
  {result : List ScanTarget} {seenAddresses : Seen}

/-- A prefix either finds an address that is not taken, and has it reserved, or ends the loop. -/
theorem chooseUnique_cons (rest : List Prefix) (hmasked : p.masked = p)
    (h : Reserved done result seenAddresses) :
    (∃ text, Reserved (done ++ [p]) (result ++ [⟨text, p.string⟩]) (text :: seenAddresses) ∧
      chooseUnique sha256 seed (p :: rest) result seenAddresses =
        chooseUnique sha256 seed rest (result ++ [⟨text, p.string⟩]) (text :: seenAddresses)) ∨
    ((∀ text ∈ draws sha256 p seed 0 4096, text ∈ seenAddresses) ∧
      chooseUnique sha256 seed (p :: rest) result seenAddresses =
        some (.error (.noUniqueAddress p.string))) := by
  rw [chooseUnique, fromPrefix_masked hmasked]
  cases hfresh : fresh seenAddresses (draws sha256 p seed 0 4096) with
  | nil =>
    refine .inr ⟨fun text htext => ?_, by simp [pick, hfresh]⟩
    by_contra hseen
    exact List.not_mem_nil (hfresh ▸ mem_fresh.2 ⟨htext, hseen⟩)
  | cons text others =>
    obtain ⟨htext, hseen⟩ := mem_fresh.1 (hfresh ▸ List.mem_cons_self :
      text ∈ fresh seenAddresses (draws sha256 p seed 0 4096))
    refine .inl ⟨text, ⟨?_, ?_, ?_, ?_⟩, by simp [pick, hfresh]⟩
    · rw [List.map_append, List.map_append, h.cidrs]
      rfl
    · intro target htarget
      rcases List.mem_append.1 htarget with htarget | htarget
      · exact h.inside target htarget
      · obtain ⟨a, rfl, hin⟩ := exists_of_mem_draws hmasked htext
        exact ⟨p, a, List.mem_singleton.1 htarget, hin⟩
    · intro text'
      rw [List.mem_cons, h.seen text']
      simp [or_comm]
    · rw [List.map_append, List.nodup_append_comm]
      exact List.nodup_cons.2 ⟨fun hmem => hseen ((h.seen text).2 hmem), h.nodup⟩

/-- When the loop returns targets, they are reserved for all prefixes. -/
theorem reserved_of_chooseUnique (hmasked : ∀ p ∈ rest, p.masked = p)
    (h : Reserved done result seenAddresses) {targets : List ScanTarget}
    (hrun : chooseUnique sha256 seed rest result seenAddresses = some (.ok targets)) :
    ∃ seen, Reserved (done ++ rest) targets seen := by
  induction rest generalizing done result seenAddresses with
  | nil =>
    obtain rfl : result = targets := by simpa [chooseUnique] using hrun
    exact ⟨seenAddresses, by rwa [List.append_nil]⟩
  | cons p rest ih =>
    rcases chooseUnique_cons rest (hmasked p List.mem_cons_self) h with
      ⟨text, hreserved, hstep⟩ | ⟨-, hstep⟩
    · rw [hstep] at hrun
      obtain ⟨seen, hall⟩ := ih (fun q hq => hmasked q (List.mem_cons_of_mem _ hq)) hreserved hrun
      exact ⟨seen, by rwa [List.append_assoc] at hall⟩
    · rw [hstep] at hrun
      simp at hrun

end Loop

/-! ## Room for an address

Where every prefix is `Roomy` the loop cannot fail: of the addresses a prefix draws, each
that is gone has an owner inside the prefix, and no two have the same. -/

/-- The addresses a prefix can be given. -/
def drawnAddresses (sha256 : String → BitVec 256) (p : Prefix) (seed : String) : Set Addr :=
  {a | ∃ round < 4096, addressFor sha256 p seed round = some a}

/-- The usable prefixes strictly inside a prefix. -/
def usableInside (prefixes : List ModelPrefix) (includeIPv6 : Bool) (p : Prefix) : Set Prefix :=
  {q | Usable prefixes includeIPv6 q ∧ q.Inside p}

/-- A prefix draws more different addresses than there are usable prefixes inside it. -/
def Roomy (sha256 : String → BitVec 256) (prefixes : List ModelPrefix) (includeIPv6 : Bool)
    (seed : String) (p : Prefix) : Prop :=
  (usableInside prefixes includeIPv6 p).ncard < (drawnAddresses sha256 p seed).ncard

section Room

variable {sha256 : String → BitVec 256} {seed : String} {prefixes : List ModelPrefix}
  {includeIPv6 : Bool} {done rest : List Prefix} {p : Prefix} {result : List ScanTarget}
  {seenAddresses : Seen}

theorem finite_usableInside : (usableInside prefixes includeIPv6 p).Finite :=
  (List.finite_toSet (networks prefixes includeIPv6)).subset fun _ hq => mem_networks.2 hq.1

theorem mem_draws {a : Addr} (h : a ∈ drawnAddresses sha256 p seed) :
    a.string ∈ draws sha256 p seed 0 4096 := by
  obtain ⟨round, hround, ha⟩ := h
  refine List.mem_filterMap.2 ⟨round, List.mem_range'_1.2 ⟨Nat.zero_le _, by omega⟩, ?_⟩
  rw [ha, Option.map_some]

/-- Whoever took an address that the prefix draws lies inside the prefix, and took nothing else. -/
theorem exists_owner (hmasked : p.masked = p) (h : Reserved done result seenAddresses)
    (hdone : ∀ q ∈ done, p.bits ≤ q.bits ∧ q ≠ p) {a : Addr}
    (ha : a ∈ drawnAddresses sha256 p seed) (hseen : a.string ∈ seenAddresses) :
    ∃ q ∈ done, q.Inside p ∧ ∃ target ∈ result, target.targetIP = a.string ∧
      target.prefixCIDR = q.string := by
  obtain ⟨round, -, ha⟩ := ha
  obtain ⟨target, htarget, hip⟩ := List.mem_map.1 ((h.seen a.string).1 hseen)
  obtain ⟨q, b, rfl, hin⟩ := h.inside target htarget
  obtain rfl : b = a := Addr.string_injective hip
  have hq : q ∈ done := by
    rw [← List.mem_map_of_injective Prefix.string_injective, ← h.cidrs]
    exact List.mem_map_of_mem htarget
  exact ⟨q, hq, Prefix.inside_of_shared (contains_of_addressFor hmasked ha) hin (hdone q hq).1
    (hdone q hq).2, _, htarget, rfl, rfl⟩

/-- A roomy prefix finds an address, whatever prefixes with no fewer bits took before it. -/
theorem exists_untaken (hmasked : p.masked = p) (h : Reserved done result seenAddresses)
    (hnodup : done.Nodup) (husable : ∀ q ∈ done, Usable prefixes includeIPv6 q)
    (hdone : ∀ q ∈ done, p.bits ≤ q.bits ∧ q ≠ p)
    (hroomy : Roomy sha256 prefixes includeIPv6 seed p) :
    ∃ text ∈ draws sha256 p seed 0 4096, text ∉ seenAddresses := by
  by_contra htaken
  have howner : ∀ a ∈ drawnAddresses sha256 p seed, ∃ q ∈ done, q.Inside p ∧
      ∃ target ∈ result, target.targetIP = a.string ∧ target.prefixCIDR = q.string := by
    intro a ha
    refine exists_owner hmasked h hdone ha ?_
    by_contra hseen
    exact htaken ⟨_, mem_draws ha, hseen⟩
  have : Nonempty Prefix := ⟨p⟩
  have : Nonempty ScanTarget := ⟨⟨"", ""⟩⟩
  choose! owner hmem hinside target htarget hip hcidr using howner
  have hcidrs : (result.map ScanTarget.prefixCIDR).Nodup :=
    h.cidrs ▸ hnodup.map Prefix.string_injective
  have hinjective : Set.InjOn owner (drawnAddresses sha256 p seed) := by
    intro a ha b hb heq
    have hsame : target a = target b :=
      List.inj_on_of_nodup_map hcidrs (htarget a ha) (htarget b hb)
        (by rw [hcidr a ha, hcidr b hb, heq])
    exact Addr.string_injective (by rw [← hip a ha, ← hip b hb, hsame])
  have hle : (drawnAddresses sha256 p seed).ncard ≤ (usableInside prefixes includeIPv6 p).ncard :=
    Set.ncard_le_ncard_of_injOn owner
      (fun a ha => ⟨husable _ (hmem a ha), hinside a ha⟩) hinjective finite_usableInside
  exact absurd hroomy (Nat.not_lt.2 hle)

/-- Where every prefix is roomy, the loop comes to its end. -/
theorem exists_chooseUnique (hnodup : (done ++ rest).Nodup)
    (hlonger : (done ++ rest).Pairwise fun p q => q.bits ≤ p.bits)
    (husable : ∀ p ∈ done ++ rest, Usable prefixes includeIPv6 p)
    (hroomy : ∀ p ∈ rest, Roomy sha256 prefixes includeIPv6 seed p)
    (h : Reserved done result seenAddresses) :
    ∃ targets, chooseUnique sha256 seed rest result seenAddresses = some (.ok targets) := by
  induction rest generalizing done result seenAddresses with
  | nil => exact ⟨result, rfl⟩
  | cons p rest ih =>
    have hmasked : p.masked = p := (husable p (by simp)).masked
    obtain ⟨hdone, -, hapart⟩ := List.nodup_append.1 hnodup
    have hbefore : ∀ q ∈ done, p.bits ≤ q.bits ∧ q ≠ p := fun q hq =>
      ⟨(List.pairwise_append.1 hlonger).2.2 q hq p List.mem_cons_self,
        hapart q hq p List.mem_cons_self⟩
    obtain ⟨text, htext, huntaken⟩ := exists_untaken hmasked h hdone
      (fun q hq => husable q (List.mem_append_left _ hq)) hbefore (hroomy p List.mem_cons_self)
    rcases chooseUnique_cons rest hmasked h with
      ⟨text, hreserved, hstep⟩ | ⟨htaken, -⟩
    · rw [hstep]
      refine ih ?_ ?_ ?_ (fun q hq => hroomy q (List.mem_cons_of_mem _ hq)) hreserved
      · rwa [List.append_assoc]
      · rwa [List.append_assoc]
      · rwa [List.append_assoc]
    · exact absurd (htaken text htext) huntaken

theorem roomy_of_disjoint (hmasked : p.masked = p)
    (hdisjoint : ∀ q, Usable prefixes includeIPv6 q → q ≠ p → q.Disjoint p) :
    Roomy sha256 prefixes includeIPv6 seed p := by
  have hinside : usableInside prefixes includeIPv6 p = ∅ := by
    refine Set.eq_empty_iff_forall_notMem.2 fun q hq => ?_
    exact hdisjoint q hq.1 hq.2.1 q.addr q.contains_self (hq.2.2 _ q.contains_self)
  have hfinite : (drawnAddresses sha256 p seed).Finite := by
    refine (List.finite_toSet ((List.range 4096).filterMap
      (addressFor sha256 p seed))).subset fun a ⟨round, hround, ha⟩ => ?_
    exact List.mem_filterMap.2 ⟨round, List.mem_range.2 hround, ha⟩
  obtain ⟨a, ha, -⟩ := exists_addressFor sha256 seed 0 hmasked
  rw [Roomy, hinside, Set.ncard_empty, Set.ncard_pos hfinite]
  exact ⟨a, 0, by decide, ha⟩

end Room

/-! ## `OnePerPrefix` -/

/-- One target for each of the prefixes, longer ones first: each carries its prefix and an address
of it, and no two the same address. -/
structure OneForEach (order : List Prefix) (targets : List ScanTarget) : Prop where
  cidrs : targets.map ScanTarget.prefixCIDR = order.map Prefix.string
  inside : ∀ target ∈ targets, ∃ a p, parseAddr target.targetIP = some a ∧
    Netip.parsePrefix target.prefixCIDR = some p ∧ p.contains a = true
  distinct : (targets.map fun target => parseAddr target.targetIP).Nodup
  longerFirst : order.Pairwise fun p q => q.bits ≤ p.bits

theorem Reserved.oneForEach {order : List Prefix} {targets : List ScanTarget} {seen : Seen}
    (h : Reserved order targets seen) (hlonger : order.Pairwise fun p q => q.bits ≤ p.bits) :
    OneForEach order targets where
  cidrs := h.cidrs
  inside := by
    intro target htarget
    obtain ⟨p, a, rfl, hin⟩ := h.inside target htarget
    exact ⟨a, p, parseAddr_string a, parsePrefix_string p, hin⟩
  distinct := by
    refine List.Nodup.map_on (fun t ht t' ht' heq => ?_) (h.nodup.of_map _)
    obtain ⟨p, a, rfl, -⟩ := h.inside t ht
    obtain ⟨p', a', rfl, -⟩ := h.inside t' ht'
    rw [parseAddr_string, parseAddr_string, Option.some.injEq] at heq
    exact List.inj_on_of_nodup_map h.nodup ht ht' (congrArg Addr.string heq)
  longerFirst := hlonger

/-- **`OnePerPrefix`.** Where the wanted entries parse: what it returns is one target for each
usable prefix; and, when there is a usable prefix, it does return them if every usable prefix is
roomy, so in particular if no two of them overlap. -/
theorem onePerPrefix_each (sha256 : String → BitVec 256) (sortSlice : SortSlice)
    (prefixes : List ModelPrefix) (includeIPv6 : Bool) (seed : String)
    (hparse : ∀ item ∈ prefixes, wanted includeIPv6 item = true →
      ∃ p, Netip.parsePrefix item.cidr = some p) :
    (∀ targets, onePerPrefix sha256 sortSlice prefixes includeIPv6 seed = some (.ok targets) →
      ∃ order : List Prefix, order.Nodup ∧ (∀ p, p ∈ order ↔ Usable prefixes includeIPv6 p) ∧
        OneForEach order targets) ∧
    ((∃ p, Usable prefixes includeIPv6 p) →
      (∀ p, Usable prefixes includeIPv6 p → Roomy sha256 prefixes includeIPv6 seed p) →
      ∃ targets, onePerPrefix sha256 sortSlice prefixes includeIPv6 seed = some (.ok targets)) ∧
    ((∃ p, Usable prefixes includeIPv6 p) →
      (∀ p q, Usable prefixes includeIPv6 p → Usable prefixes includeIPv6 q → p ≠ q →
        p.Disjoint q) →
      ∃ targets, onePerPrefix sha256 sortSlice prefixes includeIPv6 seed = some (.ok targets)) := by
  obtain ⟨usable, hnodup, hmem, hrun⟩ := usablePrefixes_ok hparse
  have hperm := sortSlice.perm specificLess usable
  have hlonger := longerFirst_sort sortSlice usable
  obtain ⟨order, horder⟩ : ∃ order, sortSlice.sort specificLess usable = order := ⟨_, rfl⟩
  rw [horder] at hperm hlonger
  have husable : ∀ p, p ∈ order ↔ Usable prefixes includeIPv6 p := fun p =>
    hperm.mem_iff.trans (hmem p)
  have hreturns : (∃ p, Usable prefixes includeIPv6 p) →
      (∀ p, Usable prefixes includeIPv6 p → Roomy sha256 prefixes includeIPv6 seed p) →
      ∃ targets, onePerPrefix sha256 sortSlice prefixes includeIPv6 seed = some (.ok targets) := by
    rintro ⟨p, hp⟩ hroomy
    rw [if_neg (List.ne_nil_of_mem ((hmem p).2 hp))] at hrun
    simp only [onePerPrefix, hrun, horder]
    refine exists_chooseUnique ?_ ?_ ?_ (fun p hp => hroomy p ((husable p).1 hp)) Reserved.start
    · exact hperm.nodup_iff.2 hnodup
    · exact hlonger
    · exact fun p hp => (husable p).1 hp
  refine ⟨fun targets htargets => ?_, hreturns, fun hsome hdisjoint => hreturns hsome ?_⟩
  · rw [onePerPrefix, hrun] at htargets
    by_cases hnone : usable = []
    · simp [hnone] at htargets
    · simp only [if_neg hnone, horder] at htargets
      obtain ⟨seen, hreserved⟩ := reserved_of_chooseUnique
        (fun p hp => ((husable p).1 hp).masked) .start htargets
      exact ⟨order, hperm.nodup_iff.2 hnodup, husable, hreserved.oneForEach hlonger⟩
  · exact fun p hp => roomy_of_disjoint hp.masked fun q hq hne => hdisjoint q p hq hp hne

theorem onePerPrefix_each_twoPrefixes :
    ∃ targets, onePerPrefix (fun _ => 0) .insertion twoPrefixes false "one" =
      some (.ok targets) := by
  have hbits : ∀ p, Usable twoPrefixes false p → p.bits = 24 := by
    rintro p ⟨item, hitem, -, parsed, hparsed, rfl⟩
    have hall : ∀ item ∈ twoPrefixes, (Netip.parsePrefix item.cidr).map Prefix.bits = some 24 := by
      decide +kernel
    simpa [hparsed] using hall item hitem
  refine (onePerPrefix_each (fun _ => 0) .insertion twoPrefixes false "one"
    parses_twoPrefixes).2.2 usable_twoPrefixes fun p q hp hq hne a hpa hqa => hne ?_
  exact Prefix.eq_of_shared hp.masked hq.masked hpa hqa ((hbits p hp).trans (hbits q hq).symm)

/-- A pool with no usable prefix has none that is not roomy, and yet `OnePerPrefix` fails on it. -/
theorem onePerPrefix_empty :
    (∀ p, Usable [] true p → Roomy (fun _ => 0) [] true "" p) ∧
      (∀ p q, Usable [] true p → Usable [] true q → p ≠ q → p.Disjoint q) ∧
      onePerPrefix (fun _ => 0) .insertion [] true "" = some (.error .noPrefixes) := by
  have hnone : ∀ p, ¬Usable [] true p := fun p ⟨_, hitem, _⟩ => List.not_mem_nil hitem
  exact ⟨fun p hp => absurd hp (hnone p), fun p _ hp => absurd hp (hnone p), rfl⟩

end Cfscan.Targets
