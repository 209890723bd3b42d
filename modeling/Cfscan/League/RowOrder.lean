import Cfscan.League.Soundness

/-!
# A plan does not depend on the order of the rows

`loadLeagueEntries` reads the entries without an `ORDER BY`, and `sort.Slice` leaves ties to its
implementation. Neither shows in the plan: where no two keys a sort of `PlanAgent` compares have
one score, both sorts have one possible outcome. The due entries then come in one order, so that
the shared `seen` map fills in one way, and the queues of a tier are flattened in one order.

`ScoresApart` is about hashes: a score is the first 64 bits of SHA-256 over the seed and a text or
two, and nothing in the code makes two of them differ. Where they are equal, a `sort.Slice` may
leave the two entries in either order, and the plan may be another one. The hypothesis is about the
pairs a sort does compare by their scores, prefixes of one length and queues of one tier.
-/

set_option autoImplicit false

namespace Cfscan.League

open Lib Lib.Netip Targets

/-- `stableScore` takes different values on the keys the sorts of a plan compare by it: those of
due entries with prefixes of one length, and those of the queues of a tier. -/
structure ScoresApart (rt : Runtime) (entries : List PrefixLeagueEntry)
    (candidates : String → List LeagueCandidate) (options : PlanOptions) : Prop where
  due : (entries.filter fun entry => due entry options.now options.force).Pairwise fun a b =>
    ∀ p q, parsePrefix a.prefixCIDR = some p → parsePrefix b.prefixCIDR = some q →
      p.bits = q.bits →
      stableScore rt.sha256 [options.seed, a.agentID, a.prefixCIDR] ≠
        stableScore rt.sha256 [options.seed, b.agentID, b.prefixCIDR]
  queues : ∀ s, buildQueues rt candidates options (dueOrder rt entries options) = some s →
    ∀ tier, (s.queues tier).Pairwise fun a b =>
      stableScore rt.sha256 [options.seed, a.cidr] ≠ stableScore rt.sha256 [options.seed, b.cidr]

section Orders

variable {rt : Runtime} {entries : List PrefixLeagueEntry}
  {candidates : String → List LeagueCandidate} {options : PlanOptions}

/-- Two due entries with valid prefixes tie on nothing but their score. -/
theorem dueLess_untied {a b : PrefixLeagueEntry} {p q : Prefix}
    (hp : parsePrefix a.prefixCIDR = some p) (hq : parsePrefix b.prefixCIDR = some q)
    (hscore : p.bits = q.bits →
      stableScore rt.sha256 [options.seed, a.agentID, a.prefixCIDR] ≠
        stableScore rt.sha256 [options.seed, b.agentID, b.prefixCIDR]) :
    dueLess rt.sha256 options.seed a b = true ∨ dueLess rt.sha256 options.seed b a = true := by
  have hkey : dueKey rt.sha256 options.seed a ≠ dueKey rt.sha256 options.seed b := by
    intro heq
    rw [dueKey, dueKey, hp, hq, toLex_inj, Prod.mk.injEq] at heq
    have hbits : p.bits = q.bits := by simpa using heq.1
    exact hscore hbits heq.2
  rw [dueLess_iff hp hq, dueLess_iff hq hp]
  exact lt_or_gt_of_ne hkey

/-- The due entries come in one order, however the rows came and whichever function sorts. -/
theorem dueOrder_eq (hvalid : ∀ e ∈ entries, ∃ p, parsePrefix e.prefixCIDR = some p)
    (hscores : ScoresApart rt entries candidates options) {entries' : List PrefixLeagueEntry}
    (hperm : entries'.Perm entries) (sortSlice : SortSlice) :
    dueOrder { rt with sortSlice } entries' options = dueOrder rt entries options := by
  have hparses : ∀ e ∈ entries.filter fun entry => due entry options.now options.force,
      ∃ p, parsePrefix e.prefixCIDR = some p := fun e he => hvalid e (List.mem_of_mem_filter he)
  refine SortSlice.sort_eq_of_perm _ _ ?_ ?_ (hperm.filter _)
  · exact StrictWeakOrder.of_key (dueKey rt.sha256 options.seed) fun a ha b hb => by
      obtain ⟨p, hp⟩ := hparses a ha
      obtain ⟨q, hq⟩ := hparses b hb
      exact dueLess_iff hp hq
  · refine hscores.due.imp_of_mem fun {a b} ha hb hscore => ?_
    obtain ⟨p, hp⟩ := hparses a ha
    obtain ⟨q, hq⟩ := hparses b hb
    exact dueLess_untied hp hq (hscore p q hp hq)

/-- Queues with different scores are flattened in one order. -/
theorem flatten_sort {groups : List PrefixQueue}
    (hscores : groups.Pairwise fun a b =>
      stableScore rt.sha256 [options.seed, a.cidr] ≠ stableScore rt.sha256 [options.seed, b.cidr])
    (sortSlice : SortSlice) (fuel : Nat) :
    flatten { rt with sortSlice } options groups fuel = flatten rt options groups fuel := by
  have hsort : sortSlice.sort (groupLess rt.sha256 options.seed) groups =
      rt.sortSlice.sort (groupLess rt.sha256 options.seed) groups := by
    refine SortSlice.sort_eq_of_perm _ _ ?_ ?_ (List.Perm.refl _)
    · exact StrictWeakOrder.of_key (fun queue => stableScore rt.sha256 [options.seed, queue.cidr])
        fun a _ b _ => by rw [groupLess, decide_eq_true_iff]
    · refine hscores.imp fun {a b} hne => ?_
      rw [groupLess, groupLess, decide_eq_true_iff, decide_eq_true_iff]
      exact lt_or_gt_of_ne hne
  rw [flatten, flatten, hsort]

end Orders

/-- **A plan does not depend on the order of the rows.** Where the scores the sorts compare by
differ, `PlanAgent` returns one list of targets for every order of the entries, whichever
permissible function `sort.Slice` is. -/
theorem planAgent_perm (rt : Runtime) (entries : List PrefixLeagueEntry)
    (candidates : String → List LeagueCandidate) (options : PlanOptions)
    (hvalid : ∀ e ∈ entries, ∃ p, parsePrefix e.prefixCIDR = some p)
    (hscores : ScoresApart rt entries candidates (options.effective rt.clock)) :
    ∃ targets, ∀ entries', entries'.Perm entries → ∀ sortSlice : SortSlice, ∀ fuel, 10000 < fuel →
      planAgent { rt with sortSlice } entries' candidates options fuel = some targets := by
  obtain ⟨s, targets, -, hbuild, -, hrun, -⟩ := planAgent_total rt entries candidates options
  refine ⟨targets, fun entries' hperm sortSlice fuel hfuel => ?_⟩
  rw [← hrun fuel hfuel, planAgent, planAgent]
  have horder := dueOrder_eq hvalid hscores hperm sortSlice
  have hflat : flatFor { rt with sortSlice } (options.effective rt.clock) s.queues fuel =
      flatFor rt (options.effective rt.clock) s.queues fuel := by
    simp only [flatFor, flatten_sort (hscores.queues s hbuild _) sortSlice fuel]
  have hbuild' : buildQueues { rt with sortSlice } candidates (options.effective rt.clock)
      (dueOrder rt entries (options.effective rt.clock)) = some s := hbuild
  simp only [horder, hbuild, hbuild', hflat, Option.bind_eq_bind, Option.bind_some]

/-! ## Entries with different prefixes

When the hypothesis of `planAgent_perm` holds: no two of the entries have the same score,
and no two of their masked prefixes have the same score. -/

/-- On distinct, valid, masked prefixes the keys differ, so that it is enough that no two of them
collide. -/
theorem scoresApart_of_nodup {rt : Runtime} {entries : List PrefixLeagueEntry}
    {candidates : String → List LeagueCandidate} {options : PlanOptions}
    (hentries : (entries.map fun e =>
      stableScore rt.sha256 [options.seed, e.agentID, e.prefixCIDR]).Nodup)
    (hcidrs : ((entries.filterMap entryCIDR).map fun cidr =>
      stableScore rt.sha256 [options.seed, cidr]).Nodup) :
    ScoresApart rt entries candidates options where
  due := by
    have hpairwise := (List.pairwise_map.1 hentries).sublist
      (List.filter_sublist (p := fun entry => due entry options.now options.force))
    exact hpairwise.imp fun hne _ _ _ _ _ => hne
  queues := by
    intro s hbuild tier
    obtain ⟨built, hbuild', hbuilt⟩ := buildQueues_total rt candidates options
      (dueOrder rt entries options)
    obtain rfl : built = s := Option.some.inj (hbuild'.symm.trans hbuild)
    have horder : (((dueOrder rt entries options).filterMap entryCIDR).map fun cidr =>
        stableScore rt.sha256 [options.seed, cidr]).Nodup := by
      rw [((dueOrder_perm.filterMap entryCIDR).map _).nodup_iff]
      exact hcidrs.sublist ((List.filter_sublist.filterMap entryCIDR).map _)
    have hall : (built.all.map fun queue =>
        stableScore rt.sha256 [options.seed, queue.cidr]).Nodup := by
      obtain ⟨cidrs, hcidrs, hsub⟩ := hbuilt.cidrs
      have hnodup := (hcidrs.map _).nodup_iff.1 (horder.sublist (hsub.map _))
      rwa [List.map_map] at hnodup
    cases hqueues : built.queues tier with
    | nil => exact List.Pairwise.nil
    | cons queue rest =>
      obtain ⟨entry, -, rfl, -⟩ := hbuilt.queue tier queue (hqueues ▸ List.mem_cons_self)
      have hsub : (built.queues (normalizedTier entry.tier)).Sublist built.all :=
        List.sublist_flatten_of_mem (List.mem_map_of_mem (normalizedTier_mem_tiers entry.tier))
      exact hqueues ▸ List.pairwise_map.1 (hall.sublist (hsub.map _))

/-! ## Two rows, swapped -/

/-- A hash that tells texts apart by the sum of their characters. -/
def summedRuntime : Runtime :=
  ⟨fun text => BitVec.ofNat 256 (text.toList.foldl (fun n c => n + c.toNat) 0 * 2 ^ 192), .insertion, 1⟩

theorem planAgent_perm_planned :
    ∃ targets,
      planAgent summedRuntime plannedEntries plannedCandidates ⟨0, "plan", 4, true⟩ 10001 =
        some targets ∧
      planAgent summedRuntime plannedEntries.reverse plannedCandidates ⟨0, "plan", 4, true⟩ 10001 =
        some targets := by
  obtain ⟨targets, htargets⟩ := planAgent_perm summedRuntime plannedEntries plannedCandidates
    ⟨0, "plan", 4, true⟩ (fun e he => (validEntries_planned.masked e he).imp fun _ h => h.1)
    (scoresApart_of_nodup (by decide +kernel) (by decide +kernel))
  exact ⟨targets, htargets _ (List.Perm.refl _) .insertion 10001 (by decide),
    htargets _ (List.reverse_perm _) .insertion 10001 (by decide)⟩

end Cfscan.League
