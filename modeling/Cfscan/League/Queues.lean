import Cfscan.League.Plan
import Mathlib.Data.List.Induction

/-!
# The queues of a plan

What the loop over the due entries leaves behind, for every input. `queueEntry_eq` is one step in
closed form: the anchors and the drawn addresses are picked one after the other through the `seen`
map. `Built` is the invariant of the loop: the `seen` map holds exactly what has been queued, no
text has been queued twice, and every queue belongs to one entry, whose prefix holds its targets.

The order in which the entries come is left open here. Longer prefixes come first in the source, so
that an address inside two prefixes is attributed to the more specific one, and that is what
`League.Soundness` uses; what holds of the `seen` map and of the queues holds in any order.

An entry whose prefix does not parse builds no queue, and a draw cannot panic, since the prefix is
masked before anything is drawn from it. Hence `buildQueues_total` has no hypothesis.
-/

set_option autoImplicit false

namespace Cfscan.League

open Lib Lib.Netip Targets

/-! ## One queue

The loop over the candidates and the draws in closed form: the anchors are the first of the
candidates that lie in the prefix and have not been seen, the draws are what `FromPrefix`
adds. -/

/-- The text is that of an address in the prefix. -/
def inPrefix (network : Prefix) (text : String) : Bool :=
  match parseAddr text with
  | some addr => network.contains addr
  | none => false

theorem inPrefix_iff {network : Prefix} {text : String} :
    inPrefix network text = true ↔ ∃ a, parseAddr text = some a ∧ network.contains a = true := by
  unfold inPrefix
  cases parseAddr text <;> simp

def lying (network : Prefix) (candidates : List LeagueCandidate) : List String :=
  (candidates.map LeagueCandidate.targetIP).filter (inPrefix network)

/-- The candidates the queue of an entry starts with. -/
def anchors (candidates : String → List LeagueCandidate) (network : Prefix)
    (entry : PrefixLeagueEntry) (seen : Seen) : List String :=
  pick (anchorsForTier entry.tier) seen (lying network (candidates entry.prefixCIDR))

/-- The addresses drawn after them. -/
def drawn (rt : Runtime) (candidates : String → List LeagueCandidate) (options : PlanOptions)
    (network : Prefix) (entry : PrefixLeagueEntry) (seen : Seen) : List String :=
  pick (samplesForTier entry.tier - (anchors candidates network entry seen).length)
    ((anchors candidates network entry seen).reverse ++ seen)
    (draws rt.sha256 network (options.seed ++ "|" ++ entry.agentID ++ "|" ++ network.string) 0 4096)

def chosen (rt : Runtime) (candidates : String → List LeagueCandidate) (options : PlanOptions)
    (network : Prefix) (entry : PrefixLeagueEntry) (seen : Seen) : List String :=
  anchors candidates network entry seen ++ drawn rt candidates options network entry seen

def queueOf (rt : Runtime) (candidates : String → List LeagueCandidate) (options : PlanOptions)
    (network : Prefix) (entry : PrefixLeagueEntry) (seen : Seen) : PrefixQueue :=
  ⟨network.string, (chosen rt candidates options network entry seen).map (⟨·, network.string⟩)⟩

@[simp] theorem samplesForTier_normalizedTier (tier : Tier) :
    samplesForTier (normalizedTier tier) = samplesForTier tier := by
  simp [samplesForTier]

@[simp] theorem anchorsForTier_normalizedTier (tier : Tier) :
    anchorsForTier (normalizedTier tier) = anchorsForTier tier := by
  simp [anchorsForTier]

theorem anchorsForTier_le (tier : Tier) : anchorsForTier tier ≤ samplesForTier tier := by
  unfold anchorsForTier samplesForTier
  split <;> decide

theorem samplesForTier_le (tier : Tier) : samplesForTier tier ≤ 6 := by
  unfold samplesForTier
  split <;> decide

theorem takeAnchors_eq {network : Prefix} {limit : Nat} {candidates : List LeagueCandidate}
    {items : List ScanTarget} {seen : Seen} (hlimit : items.length ≤ limit) :
    takeAnchors network limit candidates items seen =
      (items ++ (pick (limit - items.length) seen (lying network candidates)).map
          (⟨·, network.string⟩),
        (pick (limit - items.length) seen (lying network candidates)).reverse ++ seen) := by
  induction candidates generalizing items seen with
  | nil => simp [takeAnchors, lying]
  | cons candidate rest ih =>
    have hstep : lying network (candidate :: rest) =
        if inPrefix network candidate.targetIP then candidate.targetIP :: lying network rest
        else lying network rest := by
      simp [lying, List.filter_cons]
    rw [takeAnchors]
    split
    next hfull => simp [show limit - items.length = 0 by omega]
    next hroom =>
      rw [hstep]
      cases hparse : parseAddr candidate.targetIP with
      | none => simp [inPrefix, hparse, ih hlimit]
      | some addr =>
        by_cases hin : network.contains addr = true
        · by_cases hseen : candidate.targetIP ∈ seen
          · simp [inPrefix, hparse, hin, hseen, ih hlimit, pick_cons_of_mem]
          · obtain ⟨n, hn⟩ : ∃ n, limit - items.length = n + 1 :=
              ⟨limit - items.length - 1, by omega⟩
            have hn' : limit - (items ++
                [(⟨candidate.targetIP, network.string⟩ : ScanTarget)]).length = n := by
              simp only [List.length_append, List.length_singleton]; omega
            simp only [inPrefix, hparse, hin, hseen, Bool.not_true, Bool.false_eq_true, if_false,
              if_true]
            rw [ih (by simp only [List.length_append, List.length_singleton]; omega), hn', hn,
              pick_cons_of_notMem hseen]
            simp
        · simp [inPrefix, hparse, hin, ih hlimit]

/-- The queues after the queue of one more entry. -/
def Queues.enter (s : Queues) (rt : Runtime) (candidates : String → List LeagueCandidate)
    (options : PlanOptions) (entry : PrefixLeagueEntry) (parsed : Prefix) : Queues :=
  s.push (normalizedTier entry.tier) (queueOf rt candidates options parsed.masked entry s.seen)
    ((chosen rt candidates options parsed.masked entry s.seen).reverse ++ s.seen)

section Step

variable {rt : Runtime} {candidates : String → List LeagueCandidate} {options : PlanOptions}
  {s : Queues} {entry : PrefixLeagueEntry} {parsed : Prefix}

/-- An entry whose prefix does not parse is skipped. -/
theorem queueEntry_none (h : parsePrefix entry.prefixCIDR = none) :
    queueEntry rt candidates options s entry = some s := by
  simp [queueEntry, h]

/-- Any other entry builds its queue. -/
theorem queueEntry_eq (h : parsePrefix entry.prefixCIDR = some parsed) :
    queueEntry rt candidates options s entry =
      some (s.enter rt candidates options entry parsed) := by
  have hanchors := @takeAnchors_eq parsed.masked (anchorsForTier entry.tier)
    (candidates entry.prefixCIDR) [] s.seen (Nat.zero_le _)
  rw [List.length_nil, Nat.sub_zero, List.nil_append] at hanchors
  change takeAnchors _ _ _ _ _ = ((anchors candidates parsed.masked entry s.seen).map _,
    (anchors candidates parsed.masked entry s.seen).reverse ++ s.seen) at hanchors
  simp only [queueEntry, h, anchorsForTier_normalizedTier, samplesForTier_normalizedTier, hanchors]
  rw [fromPrefix_masked parsed.masked_masked]
  simp [Queues.enter, queueOf, chosen, drawn]

end Step

section Chosen

variable {rt : Runtime} {candidates : String → List LeagueCandidate} {options : PlanOptions}
  {network : Prefix} {entry : PrefixLeagueEntry} {seen : Seen} {text : String}

@[simp] theorem targetIPs_queueOf :
    (queueOf rt candidates options network entry seen).items.map ScanTarget.targetIP =
      chosen rt candidates options network entry seen := by
  simp [queueOf, Function.comp_def]

theorem length_chosen_le :
    (chosen rt candidates options network entry seen).length ≤ samplesForTier entry.tier := by
  have hanchors : (anchors candidates network entry seen).length ≤ anchorsForTier entry.tier :=
    length_pick_le _ _ _
  have hle := anchorsForTier_le entry.tier
  have hdrawn := length_pick_le
    (samplesForTier entry.tier - (anchors candidates network entry seen).length)
    ((anchors candidates network entry seen).reverse ++ seen)
    (draws rt.sha256 network (options.seed ++ "|" ++ entry.agentID ++ "|" ++ network.string) 0 4096)
  change (drawn rt candidates options network entry seen).length ≤ _ at hdrawn
  rw [chosen, List.length_append]
  omega

theorem notMem_of_mem_chosen (h : text ∈ chosen rt candidates options network entry seen) :
    text ∉ seen := by
  rcases List.mem_append.1 h with h | h
  · exact notMem_of_mem_pick h
  · exact fun hseen => notMem_of_mem_pick h (List.mem_append_right _ hseen)

theorem nodup_chosen : (chosen rt candidates options network entry seen).Nodup := by
  refine List.nodup_append.2 ⟨nodup_pick _ _ _, nodup_pick _ _ _, ?_⟩
  rintro text hanchor _ hdrawn rfl
  exact notMem_of_mem_pick hdrawn (List.mem_append_left _ (List.mem_reverse.2 hanchor))

/-- A chosen text lies in the prefix; it is that of a candidate, or of an address drawn. -/
theorem of_mem_chosen (hmasked : network.masked = network)
    (h : text ∈ chosen rt candidates options network entry seen) :
    inPrefix network text = true ∧
      ((∃ c ∈ candidates entry.prefixCIDR, c.targetIP = text) ∨ ∃ a : Addr, a.string = text) := by
  rcases List.mem_append.1 h with h | h
  · obtain ⟨hmem, hin⟩ := List.mem_filter.1 (mem_of_mem_pick h)
    exact ⟨hin, .inl (List.mem_map.1 hmem)⟩
  · obtain ⟨a, rfl, hin⟩ := exists_of_mem_draws hmasked (mem_of_mem_pick h)
    exact ⟨inPrefix_iff.2 ⟨a, parseAddr_string a, hin⟩, .inr ⟨a, rfl⟩⟩

end Chosen

/-! ## All queues -/

namespace Queues

def all (s : Queues) : List PrefixQueue := tiers.flatMap s.queues

/-- Everything that has been queued. -/
def targets (s : Queues) : List ScanTarget := s.all.flatMap PrefixQueue.items

@[simp] theorem seen_push (s : Queues) (tier : Tier) (queue : PrefixQueue) (seen : Seen) :
    (s.push tier queue seen).seen = seen := rfl

theorem queues_push (s : Queues) (tier : Tier) (queue : PrefixQueue) (seen : Seen) (t : Tier) :
    (s.push tier queue seen).queues t =
      if t = tier ∧ queue.items ≠ [] then s.queues t ++ [queue] else s.queues t := by
  unfold push
  by_cases hitems : queue.items = []
  · simp [hitems]
  · by_cases ht : t = tier
    · subst ht; simp [List.length_pos_iff.2 hitems, hitems]
    · simp [List.length_pos_iff.2 hitems, ht]

theorem all_push (s : Queues) {tier : Tier} {queue : PrefixQueue} (seen : Seen)
    (htier : tier ∈ tiers) (hitems : queue.items ≠ []) :
    (s.push tier queue seen).all.Perm (queue :: s.all) := by
  simp only [all, push, List.length_pos_iff.2 hitems, if_true]
  exact RoundRobin.flatMap_update_perm (by decide) htier [queue] List.perm_append_comm

theorem all_push_nil {s : Queues} {tier : Tier} {queue : PrefixQueue} {seen : Seen}
    (hitems : queue.items = []) : (s.push tier queue seen).all = s.all := by
  simp [all, push, hitems]

theorem targets_push (s : Queues) {tier : Tier} (queue : PrefixQueue) (seen : Seen)
    (htier : tier ∈ tiers) : (s.push tier queue seen).targets.Perm (queue.items ++ s.targets) := by
  by_cases hitems : queue.items = []
  · rw [targets, all_push_nil hitems, hitems]
    exact List.Perm.refl _
  · exact (all_push s seen htier hitems).flatMap_right _

end Queues

theorem normalizedTier_mem_tiers (tier : Tier) : normalizedTier tier ∈ tiers := by
  cases tier <;> simp [normalizedTier, tiers]

/-! ## The invariant

`Built` speaks of the entries gone through so far. It survives an entry without a prefix,
and one with a prefix, and nothing else happens in the loop. -/

/-- A queue that belongs to an entry. -/
structure QueueFor (candidates : String → List LeagueCandidate) (entry : PrefixLeagueEntry)
    (parsed : Prefix) (queue : PrefixQueue) : Prop where
  parses : parsePrefix entry.prefixCIDR = some parsed
  cidr : queue.cidr = parsed.masked.string
  length_le : queue.items.length ≤ samplesForTier entry.tier
  owned : ∀ item ∈ queue.items, item.prefixCIDR = queue.cidr
  inside : ∀ item ∈ queue.items, inPrefix parsed.masked item.targetIP = true
  source : ∀ item ∈ queue.items,
    (∃ c ∈ candidates entry.prefixCIDR, c.targetIP = item.targetIP) ∨
      ∃ a : Addr, a.string = item.targetIP

/-- The text of the masked prefix of an entry, if it has one. -/
def entryCIDR (entry : PrefixLeagueEntry) : Option String :=
  (parsePrefix entry.prefixCIDR).map fun parsed => parsed.masked.string

structure Built (candidates : String → List LeagueCandidate) (order : List PrefixLeagueEntry)
    (s : Queues) : Prop where
  seen : ∀ text, text ∈ s.seen ↔ text ∈ s.targets.map ScanTarget.targetIP
  nodup : (s.targets.map ScanTarget.targetIP).Nodup
  queue : ∀ tier, ∀ queue ∈ s.queues tier, ∃ entry ∈ order, normalizedTier entry.tier = tier ∧
    ∃ parsed, QueueFor candidates entry parsed queue
  cidrs : (s.all.map PrefixQueue.cidr).Subperm (order.filterMap entryCIDR)

theorem queueFor_queueOf {rt : Runtime} {candidates : String → List LeagueCandidate}
    {options : PlanOptions} {entry : PrefixLeagueEntry} {parsed : Prefix} {seen : Seen}
    (h : parsePrefix entry.prefixCIDR = some parsed) :
    QueueFor candidates entry parsed
      (queueOf rt candidates options parsed.masked entry seen) where
  parses := h
  cidr := rfl
  length_le := by simpa [queueOf] using length_chosen_le
  owned := by simp [queueOf]
  inside := by
    simpa [queueOf] using fun text htext => (of_mem_chosen parsed.masked_masked htext).1
  source := by
    simpa [queueOf] using fun text htext => (of_mem_chosen parsed.masked_masked htext).2

section Run

variable {rt : Runtime} {candidates : String → List LeagueCandidate} {options : PlanOptions}
  {order : List PrefixLeagueEntry} {s : Queues}

theorem Built.empty : Built candidates [] Queues.empty where
  seen := by simp [Queues.empty, Queues.targets, Queues.all]
  nodup := List.nodup_nil
  queue := by simp [Queues.empty]
  cidrs := by simp [Queues.empty, Queues.all]

/-- An entry without a prefix changes nothing. -/
theorem Built.skip {entry : PrefixLeagueEntry} (h : Built candidates order s)
    (hparse : parsePrefix entry.prefixCIDR = none) : Built candidates (order ++ [entry]) s where
  seen := h.seen
  nodup := h.nodup
  queue := by
    intro tier queue hqueue
    obtain ⟨e, he, hrest⟩ := h.queue tier queue hqueue
    exact ⟨e, List.mem_append_left _ he, hrest⟩
  cidrs := by simpa [entryCIDR, hparse] using h.cidrs

theorem targetIPs_enter (s : Queues) (entry : PrefixLeagueEntry) (parsed : Prefix) :
    ((s.enter rt candidates options entry parsed).targets.map ScanTarget.targetIP).Perm
      (chosen rt candidates options parsed.masked entry s.seen ++
        s.targets.map ScanTarget.targetIP) := by
  have htargets := (Queues.targets_push s
    (queueOf rt candidates options parsed.masked entry s.seen)
    ((chosen rt candidates options parsed.masked entry s.seen).reverse ++ s.seen)
    (normalizedTier_mem_tiers entry.tier)).map ScanTarget.targetIP
  rwa [List.map_append, targetIPs_queueOf] at htargets

/-- An entry with a prefix adds its queue. -/
theorem Built.enter {entry : PrefixLeagueEntry} {parsed : Prefix} (h : Built candidates order s)
    (hparse : parsePrefix entry.prefixCIDR = some parsed) :
    Built candidates (order ++ [entry]) (s.enter rt candidates options entry parsed) where
  seen := by
    intro text
    rw [(targetIPs_enter s entry parsed).mem_iff]
    simp [Queues.enter, h.seen text]
  nodup := by
    rw [(targetIPs_enter s entry parsed).nodup_iff]
    refine List.nodup_append.2 ⟨nodup_chosen, h.nodup, ?_⟩
    rintro text hchosen _ hqueued rfl
    exact notMem_of_mem_chosen hchosen ((h.seen text).2 hqueued)
  queue := by
    intro tier queue hqueue
    rw [Queues.enter, Queues.queues_push] at hqueue
    have hold : queue ∈ s.queues tier → ∃ e ∈ order ++ [entry], normalizedTier e.tier = tier ∧
        ∃ parsed, QueueFor candidates e parsed queue := fun hqueue => by
      obtain ⟨e, he, hrest⟩ := h.queue tier queue hqueue
      exact ⟨e, List.mem_append_left _ he, hrest⟩
    split at hqueue
    next hnew =>
      rcases List.mem_append.1 hqueue with hqueue | hqueue
      · exact hold hqueue
      · obtain rfl := List.mem_singleton.1 hqueue
        exact ⟨entry, by simp, hnew.1.symm, parsed, queueFor_queueOf hparse⟩
    next => exact hold hqueue
  cidrs := by
    have hcidr : entryCIDR entry = some parsed.masked.string := by simp [entryCIDR, hparse]
    rw [List.filterMap_append, List.filterMap_cons_some hcidr, List.filterMap_nil, Queues.enter]
    by_cases hitems : (queueOf rt candidates options parsed.masked entry s.seen).items = []
    · rw [Queues.all_push_nil hitems]
      exact h.cidrs.trans (List.sublist_append_left _ _).subperm
    · have hall := (Queues.all_push s
        ((chosen rt candidates options parsed.masked entry s.seen).reverse ++ s.seen)
        (normalizedTier_mem_tiers entry.tier) hitems).map PrefixQueue.cidr
      refine hall.subperm.trans (List.Subperm.trans ?_ List.perm_append_comm.subperm)
      exact (List.subperm_cons _).2 h.cidrs

/-- **The loop over the entries ends**, and leaves its invariant behind. -/
theorem buildQueues_total (rt : Runtime) (candidates : String → List LeagueCandidate)
    (options : PlanOptions) (order : List PrefixLeagueEntry) :
    ∃ s, buildQueues rt candidates options order = some s ∧ Built candidates order s := by
  induction order using List.reverseRecOn with
  | nil => exact ⟨Queues.empty, rfl, Built.empty⟩
  | append_singleton order entry ih =>
    obtain ⟨s, hbuild, hbuilt⟩ := ih
    have hnext : buildQueues rt candidates options (order ++ [entry]) =
        queueEntry rt candidates options s entry := by
      rw [buildQueues, List.foldlM_append, ← buildQueues, hbuild]
      simp
    rw [hnext]
    cases hparse : parsePrefix entry.prefixCIDR with
    | none => exact ⟨s, queueEntry_none hparse, hbuilt.skip hparse⟩
    | some parsed => exact ⟨_, queueEntry_eq hparse, hbuilt.enter hparse⟩

end Run

end Cfscan.League
