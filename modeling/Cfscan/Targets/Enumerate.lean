import Cfscan.Lib.SortSlice
import Cfscan.Targets.Usable
import Mathlib.Data.String.Basic

/-!
# `Sample` — round by round through all prefixes

`Sample` in `internal/targets/sample.go`: in every round each usable prefix draws one address, and
addresses already taken are skipped, until the limit is reached or four rounds per wanted target
have passed.

`sample_enumerates` reads the two loops as one list: all that would be drawn, in order, of each
address the first draw, and of those the first `limit`. The error after the loops is not reached,
since the first prefix draws something new.

The `seen` map of the loops becomes a question about that list: a draw is kept if its address has
not been drawn before (`keptDraws`). So the induction over the rounds, with the one over the
prefixes inside it, is about the loops alone, and the rest is about lists.

The bounds on `limit` are the function's own check. The wanted entries have to parse, since the
first that does not is an error before anything is drawn.
-/

set_option autoImplicit false

namespace Cfscan.Targets

open Lib Lib.Netip

/-! ## The function

Two loops, the rounds outside and the prefixes inside. The limit is asked before each draw,
so the last round can end among the prefixes. -/

/-- The inner loop of `Sample`: one round through the prefixes. -/
def sampleRound (sha256 : String → BitVec 256) (seed : String) (limit round : Nat) :
    List Prefix → List ScanTarget → Seen → Option (List ScanTarget × Seen)
  | [], result, seen => some (result, seen)
  | p :: rest, result, seen =>
      if result.length ≥ limit then some (result, seen)
      else do
        let addr ← addressFor sha256 p seed round
        let value := addr.string
        if value ∈ seen then sampleRound sha256 seed limit round rest result seen
        else
          sampleRound sha256 seed limit round rest (result ++ [⟨value, p.string⟩]) (value :: seen)

/-- The outer loop, with the rounds left to it. -/
def sampleRounds (sha256 : String → BitVec 256) (seed : String) (limit : Nat)
    (usable : List Prefix) :
    Nat → Nat → List ScanTarget → Seen → Option (List ScanTarget × Seen)
  | 0, _, result, seen => some (result, seen)
  | left + 1, round, result, seen =>
      if result.length < limit then do
        let (result, seen) ← sampleRound sha256 seed limit round usable result seen
        sampleRounds sha256 seed limit usable left (round + 1) result seen
      else some (result, seen)

def sample (sha256 : String → BitVec 256) (sortSlice : SortSlice) (prefixes : List ModelPrefix)
    (limit : Int) (includeIPv6 : Bool) (seed : String) :
    Option (Except TargetsError (List ScanTarget)) :=
  if limit ≤ 0 ∨ limit > maxSampleTargets then some (.error .limit)
  else
    match usablePrefixes prefixes includeIPv6 with
    | .error err => some (.error err)
    | .ok usable => do
        let usable := sortSlice.sort (fun p q => decide (p.string < q.string)) usable
        let (result, _) ←
          sampleRounds sha256 seed limit.toNat usable (limit.toNat * 4) 0 [] []
        if result.length = 0 then some (.error .noAddresses) else some (.ok result)

/-! ## Everything that would be drawn

The same rounds with no limit and no map of what was seen. The loops then are a `pickOn` of
this list, and need not be looked at again. -/

structure Drawn where
  round : Nat
  network : Prefix
  addr : Addr
deriving DecidableEq

def Drawn.text (d : Drawn) : String := d.addr.string

def Drawn.target (d : Drawn) : ScanTarget := ⟨d.addr.string, d.network.string⟩

/-- What the prefixes draw in one round. -/
def drawnIn (sha256 : String → BitVec 256) (seed : String) (order : List Prefix) (round : Nat) :
    List Drawn :=
  order.filterMap fun p => (addressFor sha256 p seed round).map fun a => ⟨round, p, a⟩

/-- What they draw in `rounds` rounds from round `first` on. -/
def enumeration (sha256 : String → BitVec 256) (seed : String) (order : List Prefix)
    (first rounds : Nat) : List Drawn :=
  (List.range' first rounds).flatMap (drawnIn sha256 seed order)

section Loops

variable {sha256 : String → BitVec 256} {seed : String} {limit : Nat}

theorem drawnIn_cons {p : Prefix} {order : List Prefix} {round : Nat} {a : Addr}
    (ha : addressFor sha256 p seed round = some a) :
    drawnIn sha256 seed (p :: order) round = ⟨round, p, a⟩ :: drawnIn sha256 seed order round := by
  simp [drawnIn, ha]

theorem enumeration_succ (order : List Prefix) (first rounds : Nat) :
    enumeration sha256 seed order first (rounds + 1) =
      drawnIn sha256 seed order first ++ enumeration sha256 seed order (first + 1) rounds := by
  simp [enumeration, List.range'_succ]

/-- A round takes what it draws anew, up to the limit. -/
theorem sampleRound_eq {order : List Prefix} (horder : ∀ p ∈ order, p.masked = p) {round : Nat}
    {result : List ScanTarget} {seen : Seen} (hlimit : result.length ≤ limit) :
    sampleRound sha256 seed limit round order result seen =
      some (result ++ (pickOn Drawn.text (limit - result.length) seen
          (drawnIn sha256 seed order round)).map Drawn.target,
        ((pickOn Drawn.text (limit - result.length) seen
          (drawnIn sha256 seed order round)).map Drawn.text).reverse ++ seen) := by
  induction order generalizing result seen with
  | nil => simp [sampleRound, drawnIn]
  | cons p rest ih =>
    have hrest := fun q hq => horder q (List.mem_cons_of_mem _ hq)
    obtain ⟨a, ha, -⟩ := exists_addressFor sha256 seed round (horder p List.mem_cons_self)
    rw [sampleRound, drawnIn_cons ha]
    split
    next hfull => simp [show limit - result.length = 0 by omega]
    next hroom =>
      simp only [ha, Option.bind_eq_bind, Option.bind_some]
      split
      next hseen =>
        have hseen : Drawn.text ⟨round, p, a⟩ ∈ seen := hseen
        rw [ih hrest hlimit, pickOn_cons_of_mem hseen]
      next hseen =>
        have hseen : Drawn.text ⟨round, p, a⟩ ∉ seen := hseen
        obtain ⟨n, hn⟩ : ∃ n, limit - result.length = n + 1 := ⟨limit - result.length - 1, by omega⟩
        have hn' : limit - (result ++ [(⟨a.string, p.string⟩ : ScanTarget)]).length = n := by
          simp only [List.length_append, List.length_singleton]; omega
        rw [ih hrest (by simp only [List.length_append, List.length_singleton]; omega), hn', hn,
          pickOn_cons_of_notMem hseen]
        simp [Drawn.target, Drawn.text]

/-- The rounds take what they draw anew, up to the limit. -/
theorem sampleRounds_eq {order : List Prefix} (horder : ∀ p ∈ order, p.masked = p)
    {left round : Nat} {result : List ScanTarget} {seen : Seen} (hlimit : result.length ≤ limit) :
    sampleRounds sha256 seed limit order left round result seen =
      some (result ++ (pickOn Drawn.text (limit - result.length) seen
          (enumeration sha256 seed order round left)).map Drawn.target,
        ((pickOn Drawn.text (limit - result.length) seen
          (enumeration sha256 seed order round left)).map Drawn.text).reverse ++ seen) := by
  induction left generalizing round result seen with
  | zero => simp [sampleRounds, enumeration]
  | succ left ih =>
    rw [sampleRounds, enumeration_succ, pickOn_append]
    split
    next hroom =>
      rw [sampleRound_eq horder hlimit]
      simp only [Option.bind_eq_bind, Option.bind_some]
      rw [ih]
      · simp [Nat.sub_sub]
      · have hle := length_pickOn_le Drawn.text (limit - result.length) seen
          (drawnIn sha256 seed order round)
        simp only [List.length_append, List.length_map]
        omega
    next hfull => simp [show limit - result.length = 0 by omega]

end Loops

/-! ## The draws that are kept -/

/-- Of everything drawn in four rounds for each wanted target, the first draw of each address, up
to the limit. -/
def keptDraws (sha256 : String → BitVec 256) (seed : String) (order : List Prefix) (limit : Nat) :
    List Drawn :=
  pickOn Drawn.addr limit [] (enumeration sha256 seed order 0 (limit * 4))

/-- What the draws that are kept amount to. -/
structure Sampled (order : List Prefix) (limit : Nat) (kept : List Drawn)
    (result : List ScanTarget) : Prop where
  nonempty : result ≠ []
  length_le : result.length ≤ limit
  distinct : (result.map fun target => parseAddr target.targetIP).Nodup
  inside : ∀ target ∈ result, ∃ a p, parseAddr target.targetIP = some a ∧
    Netip.parsePrefix target.prefixCIDR = some p ∧ p.contains a = true
  onePerRound : (kept.map fun d => (d.round, d.network)).Nodup
  disjoint : order.Pairwise Prefix.Disjoint → min limit order.length ≤ result.length

section Kept

variable {sha256 : String → BitVec 256} {seed : String} {order : List Prefix} {limit : Nat}

theorem mem_enumeration {first rounds : Nat} {d : Drawn}
    (h : d ∈ enumeration sha256 seed order first rounds) :
    d.network ∈ order ∧ addressFor sha256 d.network seed d.round = some d.addr := by
  obtain ⟨round, -, h⟩ := List.mem_flatMap.1 h
  obtain ⟨p, hp, h⟩ := List.mem_filterMap.1 h
  obtain ⟨a, ha, rfl⟩ := Option.map_eq_some_iff.1 h
  exact ⟨hp, ha⟩

/-- In every round every prefix draws. -/
theorem map_drawnIn (horder : ∀ p ∈ order, p.masked = p) (round : Nat) :
    (drawnIn sha256 seed order round).map (fun d => (d.round, d.network)) =
      order.map (Prod.mk round) := by
  induction order with
  | nil => rfl
  | cons p rest ih =>
    obtain ⟨a, ha, -⟩ := exists_addressFor sha256 seed round (horder p List.mem_cons_self)
    rw [drawnIn_cons ha, List.map_cons, List.map_cons,
      ih fun q hq => horder q (List.mem_cons_of_mem _ hq)]

theorem nodup_enumeration (horder : ∀ p ∈ order, p.masked = p) (hnodup : order.Nodup)
    (first rounds : Nat) :
    ((enumeration sha256 seed order first rounds).map fun d => (d.round, d.network)).Nodup := by
  have hproduct : (enumeration sha256 seed order first rounds).map (fun d =>
      (d.round, d.network)) = List.range' first rounds ×ˢ order := by
    simp only [enumeration, List.map_flatMap, map_drawnIn horder]
    rfl
  rw [hproduct]
  exact List.Nodup.product List.nodup_range' hnodup

/-- Disjoint prefixes draw different addresses in one round. -/
theorem nodup_drawnIn (horder : ∀ p ∈ order, p.masked = p)
    (hdisjoint : order.Pairwise Prefix.Disjoint) (round : Nat) :
    ((drawnIn sha256 seed order round).map Drawn.addr).Nodup := by
  have hnetworks : (drawnIn sha256 seed order round).map Drawn.network = order := by
    simpa [Function.comp_def] using congrArg (List.map Prod.snd) (map_drawnIn horder round)
  have hcontains : ∀ d ∈ drawnIn sha256 seed order round, d.network.contains d.addr = true := by
    intro d hd
    obtain ⟨p, hp, hd⟩ := List.mem_filterMap.1 hd
    obtain ⟨a, ha, rfl⟩ := Option.map_eq_some_iff.1 hd
    exact contains_of_addressFor (horder p hp) ha
  rw [← hnetworks] at hdisjoint
  refine List.pairwise_map.2 ((List.pairwise_map.1 hdisjoint).imp_of_mem ?_)
  intro d d' hd hd' happart heq
  exact happart d.addr (hcontains d hd) (heq ▸ hcontains d' hd')

/-- One round alone gives a draw to every one of disjoint prefixes. -/
theorem min_le_length_keptDraws (horder : ∀ p ∈ order, p.masked = p) (hlimit : 0 < limit)
    (hdisjoint : order.Pairwise Prefix.Disjoint) :
    min limit order.length ≤ (keptDraws sha256 seed order limit).length := by
  obtain ⟨rounds, hrounds⟩ : ∃ rounds, limit * 4 = rounds + 1 := ⟨limit * 4 - 1, by omega⟩
  have hfirst : pickOn Drawn.addr limit [] (drawnIn sha256 seed order 0) =
      (drawnIn sha256 seed order 0).take limit := by
    rw [pickOn, freshOn_eq_self (nodup_drawnIn horder hdisjoint 0) (by simp)]
  have hlength : (drawnIn sha256 seed order 0).length = order.length := by
    simpa using congrArg List.length (map_drawnIn horder 0)
  rw [keptDraws, hrounds, enumeration_succ, pickOn_append, hfirst, List.length_append,
    List.length_take, hlength]
  exact Nat.le_add_right _ _

theorem sampled_keptDraws (horder : ∀ p ∈ order, p.masked = p) (hnodup : order.Nodup)
    (hnonempty : order ≠ []) (hlimit : 0 < limit) :
    Sampled order limit (keptDraws sha256 seed order limit)
      ((keptDraws sha256 seed order limit).map Drawn.target) where
  nonempty := by
    obtain ⟨rounds, hrounds⟩ : ∃ rounds, limit * 4 = rounds + 1 := ⟨limit * 4 - 1, by omega⟩
    obtain ⟨p, rest, rfl⟩ := List.exists_cons_of_ne_nil hnonempty
    obtain ⟨n, rfl⟩ : ∃ n, limit = n + 1 := ⟨limit - 1, by omega⟩
    obtain ⟨a, ha, -⟩ := exists_addressFor sha256 seed 0 (horder p List.mem_cons_self)
    rw [keptDraws, hrounds, enumeration_succ, drawnIn_cons ha, List.cons_append,
      pickOn_cons_of_notMem List.not_mem_nil]
    exact List.cons_ne_nil _ _
  length_le := by
    rw [List.length_map]
    exact length_pickOn_le Drawn.addr limit [] _
  distinct := by
    have haddrs : ((keptDraws sha256 seed order limit).map Drawn.addr).Nodup :=
      (nodup_freshOn [] _).sublist ((List.take_sublist _ _).map _)
    have hread : ((keptDraws sha256 seed order limit).map Drawn.target).map (fun target =>
        parseAddr target.targetIP) =
        ((keptDraws sha256 seed order limit).map Drawn.addr).map some := by
      simp [Drawn.target, parseAddr_string, Function.comp_def]
    rw [hread]
    exact haddrs.map (Option.some_injective _)
  inside := by
    intro target htarget
    obtain ⟨d, hd, rfl⟩ := List.mem_map.1 htarget
    have hdrawn : d ∈ enumeration sha256 seed order 0 (limit * 4) :=
      (freshOn_sublist [] _).subset (List.mem_of_mem_take hd)
    obtain ⟨hnetwork, haddr⟩ := mem_enumeration hdrawn
    exact ⟨d.addr, d.network, parseAddr_string _, parsePrefix_string _,
      contains_of_addressFor (horder d.network hnetwork) haddr⟩
  onePerRound := (nodup_enumeration horder hnodup 0 (limit * 4)).sublist
    (((List.take_sublist _ _).trans (freshOn_sublist [] _)).map _)
  disjoint := by
    intro hdisjoint
    rw [List.length_map]
    exact min_le_length_keptDraws horder hlimit hdisjoint

end Kept

/-! ## `Sample` -/

section Sample

variable {prefixes : List ModelPrefix} {includeIPv6 : Bool}

/-- Sorted by their text, distinct prefixes ascend strictly. -/
theorem pairwise_sort_string (sortSlice : SortSlice) {usable : List Prefix} (h : usable.Nodup) :
    (sortSlice.sort (fun p q => decide (p.string < q.string)) usable).Pairwise
      fun p q => p.string < q.string := by
  have horder : StrictWeakOrder (fun p q : Prefix => decide (p.string < q.string)) usable :=
    StrictWeakOrder.of_key Prefix.string fun p _ q _ => decide_eq_true_iff
  have hperm := sortSlice.perm (fun p q : Prefix => decide (p.string < q.string)) usable
  refine ((sortSlice.sorted _ usable horder).and (hperm.nodup_iff.2 h)).imp ?_
  rintro p q ⟨hle, hne⟩
  exact lt_of_le_of_ne (le_of_not_gt (of_decide_eq_false hle)) fun heq =>
    hne (Prefix.string_injective heq)

/-- **`Sample` enumerates.** Where the wanted entries parse and some prefix is usable, `Sample`
returns the first `limit` draws of different addresses, going round by round through the usable
prefixes in the order of their texts; it does not come to the error that follows its loops. -/
theorem sample_enumerates (sha256 : String → BitVec 256) (sortSlice : SortSlice)
    (prefixes : List ModelPrefix) (limit : Int) (includeIPv6 : Bool) (seed : String)
    (hparse : ∀ item ∈ prefixes, wanted includeIPv6 item = true →
      ∃ p, Netip.parsePrefix item.cidr = some p)
    (husable : ∃ p, Usable prefixes includeIPv6 p) (hlimit : 1 ≤ limit ∧ limit ≤ 10000) :
    ∃ order : List Prefix, order.Pairwise (fun p q => p.string < q.string) ∧
      (∀ p, p ∈ order ↔ Usable prefixes includeIPv6 p) ∧
      ∃ result, sample sha256 sortSlice prefixes limit includeIPv6 seed = some (.ok result) ∧
        result = (keptDraws sha256 seed order limit.toNat).map Drawn.target ∧
        Sampled order limit.toNat (keptDraws sha256 seed order limit.toNat) result := by
  obtain ⟨usable, hnodup, hmem, hrun⟩ := usablePrefixes_ok hparse
  obtain ⟨p, hp⟩ := husable
  have hnonempty : usable ≠ [] := List.ne_nil_of_mem ((hmem p).2 hp)
  have hperm := sortSlice.perm (fun p q : Prefix => decide (p.string < q.string)) usable
  have hsorted := pairwise_sort_string sortSlice hnodup
  rw [if_neg hnonempty] at hrun
  obtain ⟨order, horder⟩ : ∃ order,
      sortSlice.sort (fun p q : Prefix => decide (p.string < q.string)) usable = order := ⟨_, rfl⟩
  rw [horder] at hperm hsorted
  have hmasked : ∀ p ∈ order, p.masked = p := fun p hp =>
    ((hmem p).1 (hperm.mem_iff.1 hp)).masked
  have hsampled : Sampled order limit.toNat (keptDraws sha256 seed order limit.toNat)
      ((keptDraws sha256 seed order limit.toNat).map Drawn.target) :=
    sampled_keptDraws hmasked (hperm.nodup_iff.2 hnodup)
      (fun hnil => hnonempty (List.nil_perm.1 (hnil ▸ hperm))) (by omega)
  refine ⟨order, hsorted, fun p => hperm.mem_iff.trans (hmem p), _, ?_, rfl, hsampled⟩
  have htexts : pickOn Drawn.text limit.toNat [] (enumeration sha256 seed order 0 (limit.toNat * 4)) =
      keptDraws sha256 seed order limit.toNat := by
    rw [keptDraws, pickOn, pickOn]
    exact congrArg _ (freshOn_comp Addr.string_injective [] _)
  have hbounds : ¬(limit ≤ 0 ∨ limit > maxSampleTargets) := by
    simp only [maxSampleTargets]
    omega
  rw [sample, if_neg hbounds, hrun]
  simp only [horder]
  rw [sampleRounds_eq hmasked (Nat.zero_le _)]
  simp only [List.length_nil, Nat.sub_zero, List.nil_append, htexts, Option.bind_eq_bind,
    Option.bind_some]
  rw [if_neg fun hnone => hsampled.nonempty (List.length_eq_zero_iff.1 hnone)]

theorem sample_enumerates_twoPrefixes :
    ∃ result, sample (fun _ => 0) .insertion twoPrefixes 20 false "test" = some (.ok result) ∧
      result ≠ [] ∧ result.length ≤ 20 := by
  obtain ⟨_, -, -, result, hrun, -, hsampled⟩ := sample_enumerates (fun _ => 0) .insertion
    twoPrefixes 20 false "test" parses_twoPrefixes usable_twoPrefixes (by decide)
  exact ⟨result, hrun, hsampled.nonempty, hsampled.length_le⟩

end Sample

end Cfscan.Targets
