import Cfscan.League.Queues
import Mathlib.Data.List.Pairwise

/-!
# Every tier its share

What `PlanAgent` returns, against the queues it has built: `planAgent_total` says that both loops
end and what they compute, for every input, and `planAgent_fair` is what follows from it. The
plan takes as many of the queued targets as the budget allows and none twice; every tier gets the
slots of the pattern it can fill; and within a tier no prefix is served twice as long as another
waits.

The shares are of the **whole patterns** of the budget: six slots, of which a champion's queue has
three, a challenger's two and an observation's one. What a tier cannot fill goes to the others, in
the order of the slots, and so does the rest of a budget that is no multiple of six. Of these
nothing is said but that they are filled.

"For every input" includes entries that do not parse and budgets that are negative. The queues are
those the code has built for such an input, and an entry has none where it built none.
-/

set_option autoImplicit false

namespace Cfscan.League

open Lib Lib.Netip Targets

/-! ## What the loops compute

The two loops of the source, against the library's round robin and its merge by a pattern.
The depth of a tier's queues is bounded by the samples an entry may have, which is where the
fuel of seven comes from. -/

def groupsOf (rt : Runtime) (options : PlanOptions) (queues : Tier → List PrefixQueue)
    (tier : Tier) : List (List ScanTarget) :=
  (rt.sortSlice.sort (groupLess rt.sha256 options.seed) (queues tier)).map PrefixQueue.items

/-- The flattened queues of a tier: the columns of its groups. -/
def flattened (rt : Runtime) (options : PlanOptions) (queues : Tier → List PrefixQueue)
    (tier : Tier) : List ScanTarget :=
  RoundRobin.columns (groupsOf rt options queues tier)
    (RoundRobin.depth (groupsOf rt options queues tier))

/-- What has been queued for a tier. -/
def queuedOf (queues : Tier → List PrefixQueue) (tier : Tier) : List ScanTarget :=
  (queues tier).flatMap PrefixQueue.items

section Flatten

variable {rt : Runtime} {candidates : String → List LeagueCandidate} {options : PlanOptions}
  {order : List PrefixLeagueEntry} {s : Queues} {tier : Tier}

theorem mem_groupsOf {group : List ScanTarget} {queues : Tier → List PrefixQueue} :
    group ∈ groupsOf rt options queues tier ↔ ∃ queue ∈ queues tier, queue.items = group := by
  unfold groupsOf
  rw [List.mem_map]
  constructor
  · rintro ⟨queue, hqueue, rfl⟩
    exact ⟨queue, (rt.sortSlice.perm _ _).mem_iff.1 hqueue, rfl⟩
  · rintro ⟨queue, hqueue, rfl⟩
    exact ⟨queue, (rt.sortSlice.perm _ _).mem_iff.2 hqueue, rfl⟩

/-- Flattening loses nothing and repeats nothing. -/
theorem flattened_perm (queues : Tier → List PrefixQueue) :
    (flattened rt options queues tier).Perm (queuedOf queues tier) := by
  refine (RoundRobin.columns_perm _ (Nat.le_refl _)).trans ?_
  rw [groupsOf, ← List.flatMap_def]
  exact (rt.sortSlice.perm _ _).flatMap_right _

theorem depth_groupsOf_le (h : Built candidates order s) :
    RoundRobin.depth (groupsOf rt options s.queues tier) ≤ 6 := by
  refine RoundRobin.depth_le fun group hgroup => ?_
  obtain ⟨queue, hqueue, rfl⟩ := mem_groupsOf.1 hgroup
  obtain ⟨entry, -, -, parsed, hfor⟩ := h.queue tier queue hqueue
  exact Nat.le_trans hfor.length_le (samplesForTier_le entry.tier)

theorem flatten_eq (h : Built candidates order s) {fuel : Nat} (hfuel : 6 < fuel) :
    flatten rt options (s.queues tier) fuel = some (flattened rt options s.queues tier) := by
  have hdepth : RoundRobin.depth (groupsOf rt options s.queues tier) ≤ 6 := depth_groupsOf_le h
  exact RoundRobin.serve_total _ (Nat.lt_of_le_of_lt hdepth hfuel)

/-- No queue stands under a name that is no tier. -/
theorem queues_other (h : Built candidates order s) (name : String) :
    s.queues (.other name) = [] := by
  refine List.eq_nil_iff_forall_not_mem.2 fun queue hqueue => ?_
  obtain ⟨entry, -, htier, -⟩ := h.queue _ queue hqueue
  cases hentry : entry.tier <;> rw [hentry] at htier <;> cases htier

theorem flattened_other (h : Built candidates order s) (name : String) :
    flattened rt options s.queues (.other name) = [] := by
  have hperm : (flattened rt options s.queues (.other name)).Perm
      (queuedOf s.queues (.other name)) := flattened_perm s.queues
  rw [queuedOf, queues_other h] at hperm
  exact hperm.eq_nil

theorem flatFor_eq (h : Built candidates order s) {fuel : Nat} (hfuel : 6 < fuel) :
    flatFor rt options s.queues fuel = some (flattened rt options s.queues) := by
  simp only [flatFor, flatten_eq h hfuel, Option.bind_eq_bind, Option.bind_some, Option.some.injEq]
  funext tier
  cases tier with
  | champion => rfl
  | challenger => rfl
  | observation => rfl
  | other name => exact (flattened_other h name).symm

end Flatten

theorem effective_budget (options : PlanOptions) (clock : Time) :
    0 < (options.effective clock).budget.toNat ∧
      (options.effective clock).budget.toNat ≤ 10000 := by
  unfold PlanOptions.effective maxSampleTargets
  dsimp only
  split <;> omega

theorem mem_pattern {tier : Tier} : tier ∈ pattern ↔ tier ∈ tiers := by
  simp [pattern, tiers]

/-- **`PlanAgent` returns**, for every input, within 10000 turns of either loop. -/
theorem planAgent_total (rt : Runtime) (entries : List PrefixLeagueEntry)
    (candidates : String → List LeagueCandidate) (options : PlanOptions) :
    ∃ s result taken,
      buildQueues rt candidates (options.effective rt.clock)
        (dueOrder rt entries (options.effective rt.clock)) = some s ∧
      Built candidates (dueOrder rt entries (options.effective rt.clock)) s ∧
      (∀ fuel, 10000 < fuel → planAgent rt entries candidates options fuel = some result) ∧
      RoundRobin.Weighted tiers pattern
        (flattened rt (options.effective rt.clock) s.queues)
        (options.effective rt.clock).budget.toNat taken result := by
  obtain ⟨s, hbuild, hbuilt⟩ := buildQueues_total rt candidates (options.effective rt.clock)
    (dueOrder rt entries (options.effective rt.clock))
  obtain ⟨taken, result, hrun, hweighted⟩ := RoundRobin.weighted_total
    (flattened rt (options.effective rt.clock) s.queues)
    (options.effective rt.clock).budget.toNat (show tiers.Nodup by decide) fun _ => mem_pattern
  refine ⟨s, result, taken, hbuild, hbuilt, fun fuel hfuel => ?_, hweighted⟩
  have hbudget := (effective_budget options rt.clock).2
  simp only [planAgent, hbuild, flatFor_eq hbuilt (show 6 < fuel by omega), Option.bind_eq_bind,
    Option.bind_some]
  exact hrun fuel (by omega)

/-! ## Shares and fairness -/

/-- What a plan owes to its queues. -/
structure FairPlan (queues : Tier → List PrefixQueue) (budget : Nat) (result : List ScanTarget) :
    Prop where
  length : result.length = min budget (tiers.flatMap (queuedOf queues)).length
  once : result.Subperm (tiers.flatMap (queuedOf queues))
  whole : (tiers.flatMap (queuedOf queues)).length ≤ budget →
    result.Perm (tiers.flatMap (queuedOf queues))
  distinct : (result.map ScanTarget.targetIP).Nodup
  champion : min (queuedOf queues .champion).length (3 * (budget / 6)) ≤
    (result.filter (· ∈ queuedOf queues .champion)).length
  challenger : min (queuedOf queues .challenger).length (2 * (budget / 6)) ≤
    (result.filter (· ∈ queuedOf queues .challenger)).length
  observation : min (queuedOf queues .observation).length (budget / 6) ≤
    (result.filter (· ∈ queuedOf queues .observation)).length
  roundRobin : ∀ tier, ∀ queue ∈ queues tier, ∀ queue' ∈ queues tier, ∀ k x y,
    queue.items[k + 1]? = some x → x ∈ result → queue'.items[k]? = some y → y ∈ result

section Fair

variable {rt : Runtime} {candidates : String → List LeagueCandidate} {options : PlanOptions}
  {order : List PrefixLeagueEntry} {s : Queues} {budget : Nat} {taken : Tier → Nat}
  {result : List ScanTarget}

theorem targets_eq (s : Queues) : s.targets = tiers.flatMap (queuedOf s.queues) := by
  rw [Queues.targets, Queues.all, List.flatMap_assoc]
  rfl

/-- No target is queued twice, not even under two tiers. -/
theorem Built.nodup_queued (h : Built candidates order s) :
    (tiers.flatMap (queuedOf s.queues)).Nodup :=
  targets_eq s ▸ h.nodup.of_map _

theorem Built.tier_unique (h : Built candidates order s) {tier tier' : Tier} {item : ScanTarget}
    (htier : tier ∈ tiers) (htier' : tier' ∈ tiers) (hitem : item ∈ queuedOf s.queues tier)
    (hitem' : item ∈ queuedOf s.queues tier') : tier = tier' := by
  by_contra hne
  have hdisjoint := (List.nodup_flatMap.1 h.nodup_queued).2
  have : Std.Symm (Function.onFun List.Disjoint (queuedOf s.queues)) :=
    ⟨fun _ _ => List.disjoint_symm⟩
  exact hdisjoint.forall htier htier' hne hitem hitem'

/-- What has been taken of a tier is in the plan. -/
theorem mem_of_taken (h : RoundRobin.Weighted tiers pattern (flattened rt options s.queues) budget
    taken result) {tier : Tier} (htier : tier ∈ tiers) {item : ScanTarget}
    (hitem : item ∈ (flattened rt options s.queues tier).take (taken tier)) : item ∈ result :=
  h.served.mem_iff.2 (List.mem_flatMap.2 ⟨tier, htier, hitem⟩)

/-- A target of the plan is in what has been taken of its tier. -/
theorem Built.taken_of_mem (h : Built candidates order s)
    (hweighted : RoundRobin.Weighted tiers pattern (flattened rt options s.queues) budget taken
      result) {tier : Tier} (htier : tier ∈ tiers) {item : ScanTarget} (hitem : item ∈ result)
    (hqueued : item ∈ queuedOf s.queues tier) :
    item ∈ (flattened rt options s.queues tier).take (taken tier) := by
  obtain ⟨tier', htier', htaken⟩ := List.mem_flatMap.1 (hweighted.served.mem_iff.1 hitem)
  have hqueued' : item ∈ queuedOf s.queues tier' :=
    (flattened_perm s.queues).mem_iff.1 (List.mem_of_mem_take htaken)
  rwa [h.tier_unique htier htier' hqueued hqueued']

theorem Built.nodup_flattened (h : Built candidates order s) {tier : Tier} (htier : tier ∈ tiers) :
    (flattened rt options s.queues tier).Nodup :=
  (flattened_perm s.queues).nodup_iff.2 ((List.nodup_flatMap.1 h.nodup_queued).1 tier htier)

/-- A tier has at least what has been taken of it in the plan. -/
theorem Built.share_le (h : Built candidates order s)
    (hweighted : RoundRobin.Weighted tiers pattern (flattened rt options s.queues) budget taken
      result) (tier : Tier) (htier : tier ∈ tiers) :
    min (queuedOf s.queues tier).length (budget / 6 * pattern.count tier) ≤
      (result.filter (· ∈ queuedOf s.queues tier)).length := by
  have hlength : (flattened rt options s.queues tier).length = (queuedOf s.queues tier).length :=
    (flattened_perm s.queues).length_eq
  have hsubset : (flattened rt options s.queues tier).take (taken tier) ⊆
      result.filter (· ∈ queuedOf s.queues tier) := by
    intro item hitem
    have hqueued := (flattened_perm s.queues).mem_iff.1 (List.mem_of_mem_take hitem)
    exact List.mem_filter.2 ⟨mem_of_taken hweighted htier hitem, by simpa using hqueued⟩
  have hcount := (List.subperm_of_subset
    ((h.nodup_flattened htier).sublist (List.take_sublist _ _)) hsubset).length_le
  rw [List.length_take_of_le (hweighted.taken_le tier)] at hcount
  rw [← hlength]
  exact Nat.le_trans (hweighted.share tier htier) hcount

theorem Built.fair (h : Built candidates order s)
    (hweighted : RoundRobin.Weighted tiers pattern (flattened rt options s.queues) budget taken
      result) : FairPlan s.queues budget result := by
  have hflattened : (tiers.flatMap (flattened rt options s.queues)).Perm
      (tiers.flatMap (queuedOf s.queues)) :=
    List.Perm.flatMap_left _ fun _ _ => flattened_perm s.queues
  have honce : result.Subperm (tiers.flatMap (queuedOf s.queues)) :=
    (hweighted.served.subperm.trans
      (RoundRobin.flatMap_take_sublist tiers _ taken).subperm).trans hflattened.subperm
  have hlength : result.length = min budget (tiers.flatMap (queuedOf s.queues)).length := by
    rw [hweighted.length, hflattened.length_eq]
  refine ⟨hlength, honce, fun hfits => honce.perm_of_length_le (by omega), ?_, ?_, ?_, ?_, ?_⟩
  · have hnodup := h.nodup
    rw [targets_eq] at hnodup
    obtain ⟨sub, hperm, hsub⟩ := honce
    exact (hperm.map ScanTarget.targetIP).nodup_iff.1 (hnodup.sublist (hsub.map _))
  · simpa [pattern, Nat.mul_comm] using h.share_le hweighted .champion (by decide)
  · simpa [pattern, Nat.mul_comm] using h.share_le hweighted .challenger (by decide)
  · simpa [pattern] using h.share_le hweighted .observation (by decide)
  · intro tier queue hqueue queue' hqueue' k x y hx hresult hy
    have htier : tier ∈ tiers := by
      obtain ⟨entry, -, rfl, -⟩ := h.queue tier queue hqueue
      exact normalizedTier_mem_tiers _
    have hx' : x ∈ RoundRobin.column (groupsOf rt options s.queues tier) (k + 1) :=
      RoundRobin.mem_column.2 ⟨_, mem_groupsOf.2 ⟨queue, hqueue, rfl⟩, hx⟩
    have hy' : y ∈ RoundRobin.column (groupsOf rt options s.queues tier) k :=
      RoundRobin.mem_column.2 ⟨_, mem_groupsOf.2 ⟨queue', hqueue', rfl⟩, hy⟩
    have hqueued : x ∈ queuedOf s.queues tier :=
      List.mem_flatMap.2 ⟨queue, hqueue, List.mem_of_getElem? hx⟩
    have htaken := h.taken_of_mem hweighted htier hresult hqueued
    exact mem_of_taken hweighted htier (RoundRobin.mem_take_of_later (h.nodup_flattened htier)
      (Nat.lt_succ_self k) hx' hy' htaken)

end Fair

/-- **The plan is work-conserving and fair.** For every input: the loops end, and against the
queues built for the due entries the plan takes as many targets as the budget allows, none
twice; every tier gets what it has queued up to its slots in the whole patterns of the budget;
and within a tier no prefix gets its next target while another waits for the one before. -/
theorem planAgent_fair (rt : Runtime) (entries : List PrefixLeagueEntry)
    (candidates : String → List LeagueCandidate) (options : PlanOptions) :
    ∃ s result,
      buildQueues rt candidates (options.effective rt.clock)
        (dueOrder rt entries (options.effective rt.clock)) = some s ∧
      (∀ fuel, 10000 < fuel → planAgent rt entries candidates options fuel = some result) ∧
      FairPlan s.queues (options.effective rt.clock).budget.toNat result := by
  obtain ⟨s, result, taken, hbuild, hbuilt, hrun, hweighted⟩ :=
    planAgent_total rt entries candidates options
  exact ⟨s, result, hbuild, hrun, hbuilt.fair hweighted⟩

end Cfscan.League
