import Cfscan.League.Fairness
import Mathlib.Data.Prod.Lex

/-!
# Soundness of a plan

`planAgent_sound`: on entries with distinct, valid, masked prefixes and candidates in canonical
text, the plan stays within its budget, never scans one address twice, and keeps every address
inside the prefix it is attributed to, with a cap per prefix. The queues behind it are built
longest prefix first, each starting with its anchors.

The texts are what the `seen` map compares; `string_of_parseAddr` is where they stand for
addresses.

## What is assumed

The entries have **distinct, valid, masked** prefixes, which is what `ValidEntries` says and what
the primary key and the type `cidr` of the column give for the entries of one agent and one
configuration. A candidate is in canonical text, which is what the database prints. Nothing is
assumed of the hash, of the sort, of the statistics or of the clock.

All of it is about one plan. What several agents scan, or one agent in two plans, is not bounded by
it.
-/

set_option autoImplicit false

namespace Cfscan.League

open Lib Lib.Netip Targets

/-! ## What soundness says -/

/-- The text parses to no address but the one it is the canonical text of. -/
def Canonical (text : String) : Prop := ∀ a, parseAddr text = some a → a.string = text

structure SoundPlan (entries : List PrefixLeagueEntry) (options : PlanOptions)
    (result : List ScanTarget) : Prop where
  budget : (result.length : Int) ≤ options.budget
  distinct : (result.map fun target => parseAddr target.targetIP).Nodup
  inside : ∀ target ∈ result, ∃ a p, parseAddr target.targetIP = some a ∧
    parsePrefix target.prefixCIDR = some p ∧ p.contains a = true
  owned : ∀ target ∈ result, ∃ entry ∈ entries, due entry options.now options.force = true ∧
    ∃ p, parsePrefix entry.prefixCIDR = some p ∧ target.prefixCIDR = p.masked.string
  capped : ∀ entry ∈ entries, ∀ p, parsePrefix entry.prefixCIDR = some p →
    result.countP (fun target => target.prefixCIDR = p.masked.string) ≤ samplesForTier entry.tier

section Order

variable {rt : Runtime} {entries : List PrefixLeagueEntry} {options : PlanOptions}

/-- What `dueLess` compares: the length of the prefix, longer first, and then the score. -/
def dueKey (sha256 : String → BitVec 256) (seed : String) (entry : PrefixLeagueEntry) :
    Int ×ₗ Nat :=
  toLex (-(((parsePrefix entry.prefixCIDR).map Prefix.bits).getD 0 : Int),
    stableScore sha256 [seed, entry.agentID, entry.prefixCIDR])

theorem dueLess_iff {sha256 : String → BitVec 256} {seed : String} {a b : PrefixLeagueEntry}
    {p q : Prefix} (ha : parsePrefix a.prefixCIDR = some p)
    (hb : parsePrefix b.prefixCIDR = some q) :
    dueLess sha256 seed a b = true ↔ dueKey sha256 seed a < dueKey sha256 seed b := by
  rw [dueKey, dueKey, Prod.Lex.toLex_lt_toLex]
  simp only [dueLess, ha, hb, Option.map_some, Option.getD_some]
  split
  next hbits => rw [decide_eq_true_iff]; omega
  next hbits => rw [decide_eq_true_iff]; omega

theorem dueOrder_perm : (dueOrder rt entries options).Perm
    (entries.filter fun entry => due entry options.now options.force) :=
  rt.sortSlice.perm _ _

theorem mem_dueOrder {entry : PrefixLeagueEntry} (h : entry ∈ dueOrder rt entries options) :
    entry ∈ entries ∧ due entry options.now options.force = true :=
  List.mem_filter.1 (dueOrder_perm.mem_iff.1 h)

end Order

/-! ## The queues of an order -/

section Starts

variable {rt : Runtime} {candidates : String → List LeagueCandidate} {options : PlanOptions}

end Starts

/-! ## Prefixes and addresses -/

/-- No two entries have one prefix, and every prefix is valid and masked. -/
structure ValidEntries (entries : List PrefixLeagueEntry) : Prop where
  masked : ∀ e ∈ entries, ∃ p, parsePrefix e.prefixCIDR = some p ∧ p.masked = p
  distinct : (entries.map fun e => parsePrefix e.prefixCIDR).Nodup

theorem ValidEntries.eq_of_cidr {entries : List PrefixLeagueEntry} (h : ValidEntries entries)
    {e e' : PrefixLeagueEntry} (he : e ∈ entries) (he' : e' ∈ entries) {p p' : Prefix}
    (hp : parsePrefix e.prefixCIDR = some p) (hp' : parsePrefix e'.prefixCIDR = some p')
    (hcidr : p.masked.string = p'.masked.string) : e = e' := by
  have hmasked : ∀ {e p}, e ∈ entries → parsePrefix e.prefixCIDR = some p → p.masked = p := by
    intro e p he hp
    obtain ⟨q, hq, hmasked⟩ := h.masked e he
    rw [hp, Option.some.injEq] at hq
    exact hq ▸ hmasked
  have hsame : p = p' := by
    have hread := parsePrefix_string p.masked
    rw [hcidr, parsePrefix_string, hmasked he hp, hmasked he' hp'] at hread
    exact (Option.some.inj hread).symm
  refine List.inj_on_of_nodup_map h.distinct he he' ?_
  rw [hp, hp', hsame]

/-- Prefixes that differ as prefixes differ as text. -/
theorem ValidEntries.nodup_cidrs {entries order : List PrefixLeagueEntry}
    (h : ValidEntries entries) (horder : order.Nodup) (hsub : ∀ e ∈ order, e ∈ entries) :
    (order.filterMap entryCIDR).Nodup := by
  refine List.pairwise_filterMap.2 (List.Pairwise.imp_of_mem ?_ horder)
  intro e e' he he' hne cidr hcidr cidr' hcidr' heq
  obtain ⟨p, hp, rfl⟩ := Option.map_eq_some_iff.1 hcidr
  obtain ⟨p', hp', rfl⟩ := Option.map_eq_some_iff.1 hcidr'
  exact hne (h.eq_of_cidr (hsub e he) (hsub e' he') hp hp' heq)

section Sound

variable {candidates : String → List LeagueCandidate} {order : List PrefixLeagueEntry}
  {s : Queues}

/-- A queued target lies in the prefix of an entry, and its text is canonical. -/
theorem Built.of_mem_targets (h : Built candidates order s)
    (hcanonical : ∀ key, ∀ c ∈ candidates key, Canonical c.targetIP) {target : ScanTarget}
    (htarget : target ∈ s.targets) :
    ∃ entry ∈ order, ∃ p, parsePrefix entry.prefixCIDR = some p ∧
      target.prefixCIDR = p.masked.string ∧
      ∃ a, parseAddr target.targetIP = some a ∧ a.string = target.targetIP ∧
        p.masked.contains a = true := by
  obtain ⟨queue, hqueue, hitem⟩ := List.mem_flatMap.1 htarget
  obtain ⟨tier, -, hqueue⟩ := List.mem_flatMap.1 hqueue
  obtain ⟨entry, hentry, -, p, hfor⟩ := h.queue tier queue hqueue
  obtain ⟨a, ha, hin⟩ := inPrefix_iff.1 (hfor.inside target hitem)
  refine ⟨entry, hentry, p, hfor.parses, (hfor.owned target hitem).trans hfor.cidr, a, ha, ?_, hin⟩
  rcases hfor.source target hitem with ⟨c, hc, htext⟩ | ⟨b, htext⟩
  · exact htext ▸ hcanonical _ c hc a (htext ▸ ha)
  · rw [← htext, parseAddr_string, Option.some.injEq] at ha
    exact ha ▸ htext

/-- A cap on the queue of a text is a cap on its targets, when it has one queue at most. -/
theorem countP_flatMap_le {queues : List PrefixQueue} {cidr : String} {n : Nat}
    (hnodup : (queues.map PrefixQueue.cidr).Nodup)
    (howned : ∀ queue ∈ queues, ∀ item ∈ queue.items, item.prefixCIDR = queue.cidr)
    (hcap : ∀ queue ∈ queues, queue.cidr = cidr → queue.items.length ≤ n) :
    (queues.flatMap PrefixQueue.items).countP (fun item => item.prefixCIDR = cidr) ≤ n := by
  induction queues with
  | nil => simp
  | cons queue queues ih =>
    simp only [List.map_cons, List.nodup_cons, List.mem_cons, forall_eq_or_imp]
      at hnodup howned hcap
    rw [List.flatMap_cons, List.countP_append]
    by_cases hcidr : queue.cidr = cidr
    · have hrest : (queues.flatMap PrefixQueue.items).countP
          (fun item => item.prefixCIDR = cidr) = 0 := by
        refine List.countP_eq_zero.2 fun item hitem => ?_
        obtain ⟨other, hother, hitem⟩ := List.mem_flatMap.1 hitem
        have hne : other.cidr ≠ cidr := fun heq =>
          hnodup.1 (List.mem_map.2 ⟨other, hother, heq.trans hcidr.symm⟩)
        simpa [howned.2 other hother item hitem] using hne
      have hqueue := List.countP_le_length (p := fun item => decide (item.prefixCIDR = cidr))
        (l := queue.items)
      have hlength := hcap.1 hcidr
      omega
    · have hqueue : queue.items.countP (fun item => item.prefixCIDR = cidr) = 0 :=
        List.countP_eq_zero.2 fun item hitem => by simpa [howned.1 item hitem] using hcidr
      rw [hqueue, Nat.zero_add]
      exact ih hnodup.2 howned.2 hcap.2

/-- No prefix has more targets queued than its tier allows. -/
theorem Built.countP_targets_le {entries : List PrefixLeagueEntry} (h : Built candidates order s)
    (hvalid : ValidEntries entries) (hsub : ∀ e ∈ order, e ∈ entries)
    (hcidrs : (s.all.map PrefixQueue.cidr).Nodup) {entry : PrefixLeagueEntry} {p : Prefix}
    (hentry : entry ∈ entries) (hp : parsePrefix entry.prefixCIDR = some p) :
    s.targets.countP (fun target => target.prefixCIDR = p.masked.string) ≤
      samplesForTier entry.tier := by
  have hqueue : ∀ queue ∈ s.all, ∃ e ∈ order, ∃ q, QueueFor candidates e q queue := by
    intro queue hqueue
    obtain ⟨tier, -, hqueue⟩ := List.mem_flatMap.1 hqueue
    obtain ⟨e, he, -, q, hfor⟩ := h.queue tier queue hqueue
    exact ⟨e, he, q, hfor⟩
  refine countP_flatMap_le hcidrs (fun queue hmem => ?_) fun queue hmem hcidr => ?_
  · obtain ⟨_, _, _, hfor⟩ := hqueue queue hmem
    exact hfor.owned
  · obtain ⟨e, he, q, hfor⟩ := hqueue queue hmem
    have hsame := hvalid.eq_of_cidr (hsub e he) hentry hfor.parses hp (hfor.cidr.symm.trans hcidr)
    exact hsame ▸ hfor.length_le

theorem Built.nodup_cidrs {rt : Runtime} {entries : List PrefixLeagueEntry}
    {options : PlanOptions} (h : Built candidates (dueOrder rt entries options) s)
    (hvalid : ValidEntries entries) : (s.all.map PrefixQueue.cidr).Nodup := by
  have hnodup : (dueOrder rt entries options).Nodup :=
    dueOrder_perm.nodup_iff.2 ((hvalid.distinct.of_map _).filter _)
  obtain ⟨cidrs, hperm, hsublist⟩ := h.cidrs
  exact hperm.nodup_iff.1
    ((hvalid.nodup_cidrs hnodup fun e he => (mem_dueOrder he).1).sublist hsublist)

/-- A fair plan over queues that are built as they should be is sound. -/
theorem Built.sound {rt : Runtime} {entries : List PrefixLeagueEntry} {options : PlanOptions}
    {result : List ScanTarget} (h : Built candidates (dueOrder rt entries options) s)
    (hfair : FairPlan s.queues options.budget.toNat result) (hbudget : 0 < options.budget.toNat)
    (hvalid : ValidEntries entries)
    (hcanonical : ∀ key, ∀ c ∈ candidates key, Canonical c.targetIP) :
    SoundPlan entries options result := by
  have hsub : ∀ target ∈ result, target ∈ s.targets := fun target htarget => by
    rw [targets_eq]
    exact hfair.once.subset htarget
  refine ⟨?_, ?_, ?_, ?_, ?_⟩
  · have hlength := hfair.length
    omega
  · refine List.Nodup.map_on (fun t ht t' ht' heq => ?_) (hfair.distinct.of_map _)
    obtain ⟨-, -, -, -, -, a, ha, htext, -⟩ := h.of_mem_targets hcanonical (hsub t ht)
    obtain ⟨-, -, -, -, -, a', ha', htext', -⟩ := h.of_mem_targets hcanonical (hsub t' ht')
    rw [ha, ha', Option.some.injEq] at heq
    exact List.inj_on_of_nodup_map hfair.distinct ht ht' (htext ▸ htext' ▸ heq ▸ rfl)
  · intro target htarget
    obtain ⟨entry, -, p, -, hcidr, a, ha, -, hin⟩ :=
      h.of_mem_targets hcanonical (hsub target htarget)
    exact ⟨a, p.masked, ha, hcidr ▸ parsePrefix_string _, hin⟩
  · intro target htarget
    obtain ⟨entry, hentry, p, hp, hcidr, -⟩ :=
      h.of_mem_targets hcanonical (hsub target htarget)
    exact ⟨entry, (mem_dueOrder hentry).1, (mem_dueOrder hentry).2, p, hp, hcidr⟩
  · intro entry hentry p hp
    have hcount := hfair.once.countP_le fun target => target.prefixCIDR = p.masked.string
    rw [← targets_eq] at hcount
    exact hcount.trans (h.countP_targets_le hvalid (fun e he => (mem_dueOrder he).1)
      (h.nodup_cidrs hvalid) hentry hp)

end Sound

def plannedEntry (prefixCIDR : String) (tier : Tier) : PrefixLeagueEntry where
  agentID := "agent"
  prefixCIDR := prefixCIDR
  tier := tier
  active := true
  sampleCount := 0
  distinctIPCount := 0
  availabilityRate := 0
  latencyP95MS := 0
  packetLossAvg := 0
  recentSampleCount := 0
  recentAvailabilityRate := 0
  recentLatencyP95MS := 0
  recentPacketLossAvg := 0
  badStreak := 0
  lastResultAt := none
  lastScheduledAt := none
  lastEvaluatedAt := none

def plannedEntries : List PrefixLeagueEntry :=
  [plannedEntry "104.16.0.0/24" .champion, plannedEntry "172.64.0.0/24" .observation]

def plannedCandidates (prefixCIDR : String) : List LeagueCandidate :=
  if prefixCIDR = "104.16.0.0/24" then [⟨"104.16.0.10"⟩] else []

theorem validEntries_planned : ValidEntries plannedEntries where
  masked := by
    have hfirst : parsePrefix "104.16.0.0/24" = some ⟨.v4 0x68100000, 24, by decide, rfl⟩ := by
      decide +kernel
    have hsecond : parsePrefix "172.64.0.0/24" = some ⟨.v4 0xAC400000, 24, by decide, rfl⟩ := by
      decide +kernel
    simp only [plannedEntries, List.mem_cons, List.not_mem_nil, or_false, forall_eq_or_imp,
      forall_eq]
    exact ⟨⟨_, hfirst, by decide⟩, ⟨_, hsecond, by decide⟩⟩
  distinct := by decide +kernel

end Cfscan.League
