import Cfscan.Lib.Allot
import Cfscan.Scan.Rows
import Mathlib.Data.List.Dedup
import Mathlib.Data.Rat.Floor

/-!
# The limit of the candidate query

`CreateBlacklistRechecks` reads at most `candidateLimit` candidates, in the order of their agents,
and then takes from each agent a rounded-up fraction of the candidates it has read. The limit can
cut an agent's candidates short, and the fraction is of what is left of them.

`createBlacklistRechecks_allots`: this does not show. What is rechecked is what the plain procedure
allots over all eligible entries. The fraction of `candidateLimit` candidates covers
`max_targets`, so that by the agent the limit falls into the targets run out as well.

The plain procedure (`allotted`) has no limit and no query. It goes through all eligible entries
agent by agent, in the order of the ids, and gives each agent its share or what is left of
`max_targets`.

## What is assumed

The arithmetic is exact (`Exact`): `math.Ceil` of a quotient and of a product of doubles is the
rounded-up quotient and product. With doubles a share can come out one higher. The settings are
those for which the limit is not clipped, which leaves out fractions that are small against
`max_targets`. And the ids of new jobs are new, which is asked for the call to succeed and not for
what it does.
-/

set_option autoImplicit false

namespace Cfscan.Recheck

open Cfscan.Lib Cfscan.Store Cfscan.Scan

/-! ## The plain procedure

The allotment as one would describe it: all eligible entries, agent by agent, and a
rounded-up share of each agent's entries while there is something left of the maximum.
`Lib`'s account of such shares knows nothing of entries; here it is used at the list grouped
by agent. -/

/-- `⌈f · n⌉` of `n` candidates. -/
def shareOf (fraction : ℚ) (n : Nat) : Nat := ⌈fraction * n⌉₊

/-- The eligible entries, in the order of the query. -/
def eligibleEntries (world : RecheckWorld) (agents : Agents) (s : ScanStore) (now : Timestamp)
    (dueOnly : Bool) : List BlacklistEntry :=
  (s.blacklist.rows.filter fun entry => decide (agents entry.agentID ≠ none) &&
    (!dueOnly || decide (entry.retryAfter ≤ now))).insertionSort (recheckBefore world)

/-- Their agents, in the order of the ids. -/
def agentsOf (entries : List BlacklistEntry) : List UUID :=
  (entries.map BlacklistEntry.agentID).dedup.insertionSort (· ≤ ·)

/-- What the plain procedure takes of each agent: its share, or what is left of `max_targets`. -/
def allotted (fraction : ℚ) (maxTargets : Nat) (eligible : List BlacklistEntry) :
    List (UUID × List BlacklistEntry) :=
  allot (shareOf fraction) BlacklistEntry.agentID eligible (agentsOf eligible) maxTargets

/-- Floating-point arithmetic read as exact. -/
structure Exact (world : RecheckWorld) : Prop where
  quotient : ∀ n x, world.ceilQuotient n x = ⌈(n : ℚ) / x⌉
  product : ∀ n x, world.ceilProduct n x = ⌈(n : ℚ) * x⌉

section Share

variable {fraction : ℚ}

theorem share_shareOf (hfraction : 0 < fraction ∧ fraction ≤ 1) : Share (shareOf fraction) where
  le := by
    intro n
    refine Nat.ceil_le.2 ?_
    exact mul_le_of_le_one_left (Nat.cast_nonneg n) hfraction.2
  mono := by
    intro m n hle
    exact Nat.ceil_mono (mul_le_mul_of_nonneg_left (Nat.cast_le.2 hle) hfraction.1.le)
  add_le := by
    intro m n
    rw [shareOf, Nat.cast_add, mul_add]
    exact Nat.ceil_add_le _ _

theorem shareOf_pos (hfraction : 0 < fraction) {n : Nat} (hn : 0 < n) : 0 < shareOf fraction n :=
  Nat.ceil_pos.2 (mul_pos hfraction (Nat.cast_pos.2 hn))

variable {world : RecheckWorld} {settings : BlacklistRecheckSettings}

/-- The count of the code is the share, or what is left. -/
theorem recheckCount_eq (hexact : Exact world)
    (hfraction : 0 < settings.fraction ∧ settings.fraction ≤ 1) (n : Nat) {remaining : Int}
    (hremaining : 0 ≤ remaining) :
    recheckCount world settings n remaining =
      min (shareOf settings.fraction n) remaining.toNat := by
  have hceil : world.ceilProduct n settings.fraction = (shareOf settings.fraction n : Int) := by
    rw [hexact.product, shareOf, Int.natCast_ceil_eq_ceil
      (mul_nonneg hfraction.1.le (Nat.cast_nonneg n)), mul_comm]
  have hle := (share_shareOf hfraction).le n
  have hpos : 0 < n → 0 < shareOf settings.fraction n := shareOf_pos hfraction.1
  unfold recheckCount
  dsimp only
  rw [hceil]
  split <;> split <;> split <;> omega

/-- The share of as many candidates as the query reads covers what may be taken. -/
theorem maxTargets_le_share (hexact : Exact world) (hmax : 1 ≤ settings.maxTargets)
    (hfraction : 0 < settings.fraction ∧ settings.fraction ≤ 1)
    (hlimit : ⌈(settings.maxTargets : ℚ) / settings.fraction⌉ ≤ 20000) :
    settings.maxTargets.toNat ≤ shareOf settings.fraction (candidateLimit world settings) := by
  obtain ⟨m, hm⟩ : ∃ m : Nat, settings.maxTargets = m := ⟨settings.maxTargets.toNat, by omega⟩
  have hquotient : (m : ℚ) ≤ (m : ℚ) / settings.fraction :=
    le_div_self (Nat.cast_nonneg m) hfraction.1 hfraction.2
  have hceil := Int.le_ceil ((settings.maxTargets : ℚ) / settings.fraction)
  have hle : settings.maxTargets ≤ ⌈(settings.maxTargets : ℚ) / settings.fraction⌉ := by
    have hcast : (settings.maxTargets : ℚ) ≤ ⌈(settings.maxTargets : ℚ) / settings.fraction⌉ :=
      le_trans (by simpa [hm] using hquotient) hceil
    exact_mod_cast hcast
  have hrows : (candidateLimit world settings : Int) =
      ⌈(settings.maxTargets : ℚ) / settings.fraction⌉ := by
    unfold candidateLimit
    dsimp only
    rw [hexact.quotient, if_neg (by omega), if_neg (by omega)]
    exact Int.toNat_of_nonneg (by omega)
  have hcover : (settings.maxTargets : ℚ) ≤
      settings.fraction * (candidateLimit world settings : ℚ) := by
    have hdiv : (settings.maxTargets : ℚ) / settings.fraction ≤ candidateLimit world settings := by
      calc (settings.maxTargets : ℚ) / settings.fraction
          ≤ (⌈(settings.maxTargets : ℚ) / settings.fraction⌉ : Int) := hceil
        _ = ((candidateLimit world settings : Int) : ℚ) := by rw [hrows]
        _ = candidateLimit world settings := Int.cast_natCast _
    rw [div_le_iff₀ hfraction.1] at hdiv
    rwa [mul_comm]
  have hshare : (m : ℚ) ≤ (shareOf settings.fraction (candidateLimit world settings) : ℚ) := by
    refine le_trans ?_ (Nat.le_ceil _)
    simpa [hm] using hcover
  have hnat : m ≤ shareOf settings.fraction (candidateLimit world settings) := by
    exact_mod_cast hshare
  omega

end Share

/-! ## What a group leaves in the database

One transaction, seen from outside: a job with a task for each selected entry, and these
entries put off. `Rechecked` composes along the groups, since a later group writes neither
the jobs nor the entries of an earlier one. -/

/-- A committed group: its job, its agent and the entries it took. -/
structure Pick where
  jobID : UUID
  agent : UUID
  selected : List BlacklistEntry

/-- The groups of an allotment, with the ids of their jobs; an agent that is given nothing has no
job. -/
def numbered (newID : Nat → UUID) : Nat → List (UUID × List BlacklistEntry) → List Pick
  | _, [] => []
  | n, (agent, selected) :: rest =>
      if selected = [] then numbered newID n rest
      else ⟨newID n, agent, selected⟩ :: numbered newID (n + 1) rest

/-- The entry under a key is in one of the groups. -/
def picked (picks : List Pick) (key : UUID × Inet) : Bool :=
  picks.any fun pick => pick.selected.any fun entry => decide (entry.key = key)

/-- What the groups have done: a pending job for each, its tasks the entries of the group, and
these entries put off for `retry_minutes`, with no more of them changed than `updated_at`. -/
structure Rechecked (settings : BlacklistRecheckSettings) (now : Timestamp) (agents : Agents)
    (picks : List Pick) (s s' : ScanStore) : Prop where
  fresh : ∀ pick ∈ picks, s.jobs.find? pick.jobID = none
  jobs : s'.jobs.rows = s.jobs.rows ++ picks.map fun pick =>
    recheckJob settings pick.jobID now ((agents pick.agent).getD "") pick.selected.length
  tasks : ∀ pick ∈ picks, (s'.jobTasks pick.jobID).map ScanTask.unnumbered =
    pick.selected.map fun entry => newTask 0 pick.jobID pick.agent entry.targetIP none now
  others : ∀ jobID, (∀ pick ∈ picks, pick.jobID ≠ jobID) → s'.jobTasks jobID = s.jobTasks jobID
  results : s'.results = s.results
  blacklist : ∀ key, s'.blacklist.find? key = (s.blacklist.find? key).map fun entry =>
    if picked picks key then
      { entry with retryAfter := now + settings.retryMinutes * minute, updatedAt := now }
    else entry

section Group

variable {pg : Postgres} {agents : Agents} {now : Timestamp} {settings : BlacklistRecheckSettings}
  {s s' s'' : ScanStore}

theorem Rechecked.refl (s : ScanStore) : Rechecked settings now agents [] s s :=
  ⟨by simp, by simp, by simp, fun _ _ => rfl, rfl, fun key => by simp [picked]⟩

/-- One group and then others. -/
theorem Rechecked.cons {pick : Pick} {picks : List Pick}
    (h : Rechecked settings now agents [pick] s s')
    (h' : Rechecked settings now agents picks s' s'') :
    Rechecked settings now agents (pick :: picks) s s'' := by
  have hjobs : s'.jobs.rows = s.jobs.rows ++
      [recheckJob settings pick.jobID now ((agents pick.agent).getD "") pick.selected.length] :=
    h.jobs
  have hlater : ∀ later ∈ picks, s.jobs.find? later.jobID = none ∧ later.jobID ≠ pick.jobID := by
    intro later hlater
    have hnone := Table.find?_eq_none.1 (h'.fresh later hlater)
    rw [hjobs] at hnone
    refine ⟨Table.find?_eq_none.2 fun job hjob => hnone job (List.mem_append_left _ hjob), ?_⟩
    exact fun heq => hnone _ (List.mem_append_right _ (List.mem_singleton_self _)) heq.symm
  refine ⟨?_, ?_, ?_, ?_, h'.results.trans h.results, ?_⟩
  · intro later hmem
    rcases List.mem_cons.1 hmem with rfl | hmem
    · exact h.fresh later (List.mem_singleton_self _)
    · exact (hlater later hmem).1
  · rw [h'.jobs, hjobs, List.append_assoc, List.map_cons, List.singleton_append]
  · intro later hmem
    rcases List.mem_cons.1 hmem with rfl | hmem
    · rw [h'.others later.jobID fun other hother => (hlater other hother).2,
        h.tasks later (List.mem_singleton_self _)]
    · exact h'.tasks later hmem
  · intro jobID hother
    rw [h'.others jobID fun other hmem => hother other (List.mem_cons_of_mem _ hmem),
      h.others jobID fun other hmem => hother other (by
        rw [List.mem_singleton.1 hmem]; exact List.mem_cons_self)]
  · intro key
    rw [h'.blacklist key, h.blacklist key, Option.map_map]
    congr 1
    funext entry
    have hcons : picked (pick :: picks) key = (picked [pick] key || picked picks key) := by
      simp [picked]
    rw [Function.comp_apply, hcons]
    -- putting an entry off twice is putting it off once
    cases picked [pick] key <;> cases picked picks key <;> rfl

/-- Some of the candidates of one agent. -/
structure GroupOf (pg : Postgres) (candidates : List BlacklistEntry) (agent : UUID)
    (selected : List BlacklistEntry) : Prop where
  mem : ∀ entry ∈ selected, entry ∈ candidates
  agent : ∀ entry ∈ selected, entry.agentID = agent
  single : ∀ entry ∈ selected, entry.Single pg
  distinct : (selected.map BlacklistEntry.targetIP).Nodup

theorem groupOf_take {candidates : List BlacklistEntry}
    (hsingle : ∀ entry ∈ candidates, entry.Single pg)
    (hdistinct : (candidates.map BlacklistEntry.key).Nodup) (agent : UUID) (count : Nat) :
    GroupOf pg candidates agent
      ((candidates.filter fun entry => decide (entry.agentID = agent)).take count) where
  mem := fun _ hentry => List.mem_of_mem_filter (List.mem_of_mem_take hentry)
  agent := fun _ hentry => by simpa using (List.mem_filter.1 (List.mem_of_mem_take hentry)).2
  single := fun entry hentry =>
    hsingle entry (List.mem_of_mem_filter (List.mem_of_mem_take hentry))
  distinct := nodup_group hdistinct agent count

/-- The transaction of one agent leaves the database ready for the next. -/
theorem GroupOf.ready {candidates selected : List BlacklistEntry} {jobID agent : UUID}
    {error : Option StoreError} (h : GroupOf pg candidates agent selected) (hsome : selected ≠ [])
    (hready : RecheckReady pg s)
    (hrun : recheckAgent pg agents s now settings jobID agent selected = (error, s')) :
    RecheckReady pg s' := by
  have hcreation : Creation pg s
      (recheckAgent pg agents s now settings jobID agent selected).2 :=
    recheckAgent_cases hready h.single h.distinct hsome
  rw [hrun] at hcreation
  exact hready.creation hcreation

/-- What it does, when it commits. -/
theorem recheckAgent_effect {candidates selected : List BlacklistEntry} {jobID agent : UUID}
    (hready : RecheckReady pg s) (hgroup : GroupOf pg candidates agent selected)
    (hsome : selected ≠ [])
    (hrun : recheckAgent pg agents s now settings jobID agent selected = (none, s')) :
    Rechecked settings now agents [⟨jobID, agent, selected⟩] s s' := by
  unfold recheckAgent at hrun
  dsimp only at hrun
  split at hrun
  · simp at hrun
  split at hrun
  · simp at hrun
  rename_i hfresh
  rw [not_not] at hfresh
  split at hrun
  · simp at hrun
  rename_i hfailure
  -- a new job has no tasks yet, so no insert of the group can be refused
  have htaken := fun entry (_ : entry ∈ selected) => hready.untaken hfresh agent entry.targetIP
  have hknown : agents agent ≠ none := fun hnone =>
    rechecks_of_no_agent hgroup.single rfl hready.fresh htaken hsome hnone hfailure
  obtain ⟨-, -, news, htasks, hnews⟩ :=
    inserted_rechecks now hknown hgroup.single hgroup.distinct rfl hready.fresh htaken
  obtain rfl := (Prod.mk.inj hrun).2
  have hjob : ∀ task ∈ news, task.jobID = jobID := by
    intro task htask
    obtain ⟨entry, -, heq⟩ := List.mem_map.1 (hnews ▸ List.mem_map_of_mem htask :
      task.unnumbered ∈ selected.map fun entry => newTask 0 jobID agent entry.targetIP none now)
    exact (congrArg ScanTask.jobID heq).symm
  -- every older task belongs to a job of the store, and the new identifier is none of these
  have hold : ∀ task ∈ s.tasks.rows, task.jobID ≠ jobID := by
    intro task htask heq
    obtain ⟨job, hjob, hid⟩ := hready.owner task htask
    exact Table.find?_eq_none.1 hfresh job hjob (hid.trans heq)
  refine ⟨by simpa using hfresh, ?_, ?_, ?_, rfl, fun key => ?_⟩
  · dsimp only
    rw [Table.rows_put_new hfresh]
    rfl
  · intro pick hpick
    obtain rfl := List.mem_singleton.1 hpick
    have hnew : (news.filter fun task => decide (task.jobID = jobID)) = news :=
      List.filter_eq_self.2 fun task htask => by simpa using hjob task htask
    have hnone : (s.tasks.rows.filter fun task => decide (task.jobID = jobID)) = [] :=
      List.filter_eq_nil_iff.2 fun task htask => by simpa using hold task htask
    rw [ScanStore.jobTasks, htasks, List.filter_append, hnew]
    change ((s.tasks.rows.filter _) ++ news).map _ = _
    rw [hnone, List.nil_append, hnews]
  · intro other hother
    have hnone : (news.filter fun task => decide (task.jobID = other)) = [] := by
      refine List.filter_eq_nil_iff.2 fun task htask => ?_
      rw [hjob task htask]
      simpa using hother _ (List.mem_singleton_self _)
    rw [ScanStore.jobTasks, htasks, List.filter_append, hnone, List.append_nil]
    rfl
  · dsimp only
    rw [postponeAll, Table.find?_updateWhere]
    cases hentry : s.blacklist.find? key with
    | none => rfl
    | some entry =>
      have hkey := Table.key_of_find? hentry
      have hpicked : (decide (entry.agentID = agent) && selected.any fun item =>
          decide (pg.inet item.targetIP.host = some entry.targetIP)) =
            picked [⟨jobID, agent, selected⟩] key := by
        rw [Bool.eq_iff_iff, Bool.and_eq_true, decide_eq_true_iff, List.any_eq_true, picked,
          List.any_cons, List.any_nil, Bool.or_false, List.any_eq_true, ← hkey]
        constructor
        · rintro ⟨howner, item, hitem, hread⟩
          rw [decide_eq_true_iff, (hgroup.single item hitem).2, Option.some.injEq] at hread
          refine ⟨item, hitem, ?_⟩
          rw [decide_eq_true_iff, BlacklistEntry.key, BlacklistEntry.key, hgroup.agent item hitem, howner,
            hread]
        · rintro ⟨item, hitem, heq⟩
          obtain ⟨howner, htarget⟩ := Prod.mk.inj (of_decide_eq_true heq)
          refine ⟨howner.symm.trans (hgroup.agent item hitem), item, hitem, ?_⟩
          rw [decide_eq_true_iff, (hgroup.single item hitem).2, htarget]
      rw [Option.map_some, Option.map_some, hpicked]
      rfl

end Group

/-! ## The loop over the agents

The induction is on the agents in the order of the candidates, with what is left of the
maximum as the accumulator. A group that gets nothing opens no transaction and draws no id. -/

section Loop

variable {pg : Postgres} {world : RecheckWorld} {agents : Agents} {now : Timestamp}
  {settings : BlacklistRecheckSettings} {candidates : List BlacklistEntry}

/-- The result after some groups. -/
def afterGroups (picks : List Pick) (result : BlacklistRecheckResult) : BlacklistRecheckResult :=
  { result with
    jobs := result.jobs + picks.length
    targets := result.targets + (picks.flatMap Pick.selected).length
    jobIDs := result.jobIDs ++ picks.map Pick.jobID }

theorem afterGroups_nil (result : BlacklistRecheckResult) : afterGroups [] result = result := by
  simp [afterGroups]

theorem afterGroups_cons (pick : Pick) (picks : List Pick) (result : BlacklistRecheckResult) :
    afterGroups (pick :: picks) result =
      afterGroups picks
        { result with
          jobs := result.jobs + 1
          targets := result.targets + pick.selected.length
          jobIDs := result.jobIDs ++ [pick.jobID] } := by
  simp [afterGroups, Nat.add_assoc, Nat.add_comm 1]

/-- With nothing left to take, there are no more groups. -/
theorem numbered_of_none (newID : Nat → UUID) (n : Nat) (order : List UUID) :
    numbered newID n (order.map fun agent => (agent, [])) = [] := by
  induction order with
  | nil => rfl
  | cons agent order ih => rw [List.map_cons, numbered, if_pos rfl, ih]

/-- An agent has the candidates of its share. -/
theorem length_share {fraction : ℚ} (hfraction : 0 < fraction ∧ fraction ≤ 1)
    (entries : List BlacklistEntry) {budget count : Nat}
    (hcount : min (shareOf fraction entries.length) budget = count) :
    (entries.take count).length = count := by
  have hshare := (share_shareOf hfraction).le entries.length
  rw [List.length_take]
  omega

/-- When the loop ends without an error, it has committed the groups of the allotment. -/
theorem recheckEach_effect (hexact : Exact world)
    (hfraction : 0 < settings.fraction ∧ settings.fraction ≤ 1)
    (hsingle : ∀ entry ∈ candidates, entry.Single pg)
    (hdistinct : (candidates.map BlacklistEntry.key).Nodup) (order : List UUID) {n : Nat}
    {remaining : Int} {result result' : BlacklistRecheckResult} {s s' : ScanStore}
    (hremaining : 0 ≤ remaining) (hready : RecheckReady pg s)
    (hrun : recheckEach pg world agents now settings candidates order n remaining result s =
      (result', none, s')) :
    Rechecked settings now agents (numbered world.newID n (allot (shareOf settings.fraction)
        BlacklistEntry.agentID candidates order remaining.toNat)) s s' ∧
      result' = afterGroups (numbered world.newID n (allot (shareOf settings.fraction)
        BlacklistEntry.agentID candidates order remaining.toNat)) result := by
  induction order generalizing n remaining result s with
  | nil =>
    simp only [recheckEach, Prod.mk.injEq, true_and] at hrun
    obtain ⟨rfl, rfl⟩ := hrun
    exact ⟨.refl s, (afterGroups_nil result).symm⟩
  | cons agent order ih =>
    rw [recheckEach] at hrun
    split at hrun
    next hnothing =>
      simp only [Prod.mk.injEq, true_and] at hrun
      obtain ⟨rfl, rfl⟩ := hrun
      -- nothing is left to allot, and the loop breaks
      rw [Int.toNat_of_nonpos hnothing, allot_zero, numbered_of_none, afterGroups_nil]
      exact ⟨.refl s, rfl⟩
    next hleft =>
      rw [allot_cons]
      rw [recheckCount_eq hexact hfraction _ hremaining] at hrun
      generalize hcount : min (shareOf settings.fraction (candidates.filter fun entry =>
        decide (entry.agentID = agent)).length) remaining.toNat = count at hrun ⊢
      split at hrun
      next hzero =>
        -- the share of this agent is empty, and no job is made for it
        rw [hzero, List.take_zero, numbered, if_pos rfl, Nat.sub_zero]
        exact ih hremaining hready hrun
      next hcountsome =>
        have hlength := length_share hfraction (candidates.filter fun entry =>
          decide (entry.agentID = agent)) hcount
        have hgroup := groupOf_take hsingle hdistinct agent count
        generalize (candidates.filter fun entry => decide (entry.agentID = agent)).take count =
          selected at hrun hlength hgroup ⊢
        have hsome : selected ≠ [] := fun hnil => hcountsome (by rw [← hlength, hnil]; rfl)
        have hleft' : (remaining - count).toNat = remaining.toNat - count := by omega
        split at hrun
        next => simp at hrun
        next s₁ hagent =>
          -- its group is committed, and the rest of the loop starts after it
          have heffect := recheckAgent_effect hready hgroup hsome hagent
          obtain ⟨hrest, hresult⟩ := ih (by omega) (hgroup.ready hsome hready hagent) hrun
          rw [hleft'] at hrest hresult
          rw [numbered, if_neg hsome, afterGroups_cons, hlength]
          exact ⟨heffect.cons hrest, hresult⟩

/-- An agent without candidates is passed over. -/
theorem numbered_filter (newID : Nat → UUID) (share : Nat → Nat) (order : List UUID) (n budget : Nat)
    (p : UUID → Bool) (hp : ∀ entry ∈ candidates, p entry.agentID = true)
    (hshare : Share share) :
    numbered newID n (allot share BlacklistEntry.agentID candidates (order.filter p) budget) =
      numbered newID n (allot share BlacklistEntry.agentID candidates order budget) := by
  induction order generalizing n budget with
  | nil => rfl
  | cons agent order ih =>
    by_cases hagent : p agent = true
    · rw [List.filter_cons_of_pos hagent, allot_cons, allot_cons, numbered, numbered, ih, ih]
    · have hnone : (candidates.filter fun entry => decide (entry.agentID = agent)) = [] := by
        refine List.filter_eq_nil_iff.2 fun entry hentry => ?_
        rw [decide_eq_true_iff]
        rintro rfl
        exact hagent (hp entry hentry)
      have hzero : share 0 = 0 := Nat.le_zero.1 (hshare.le 0)
      rw [List.filter_cons_of_neg hagent, allot_cons, hnone, List.take_nil, numbered, if_pos rfl,
        List.length_nil, hzero, Nat.zero_min, Nat.sub_zero, ih]

end Loop

/-! ## The candidates

The query orders by agent first, so its cut falls into the candidates of one agent, keeps
those of the agents before and drops those of the agents behind. -/

section Candidates

variable {world : RecheckWorld} {agents : Agents} {s : ScanStore} {now : Timestamp} {dueOnly : Bool}

instance (world : RecheckWorld) : Std.Total (recheckBefore world) where
  total a b := by
    unfold recheckBefore
    grind

instance (world : RecheckWorld) : IsTrans BlacklistEntry (recheckBefore world) where
  trans a b c := by
    unfold recheckBefore
    grind

/-- The eligible entries come agent by agent. -/
theorem pairwise_eligibleEntries : (eligibleEntries world agents s now dueOnly).Pairwise
    fun a b => a.agentID ≤ b.agentID := by
  refine (List.pairwise_insertionSort (recheckBefore world) _).imp fun {a b} hbefore => ?_
  rcases hbefore with hlt | ⟨heq, -⟩
  · exact Nat.le_of_lt hlt
  · exact Nat.le_of_eq heq

theorem pairwise_agentsOf (entries : List BlacklistEntry) :
    (agentsOf entries).Pairwise (· < ·) := by
  have hnodup : (agentsOf entries).Nodup :=
    (List.perm_insertionSort _ _).nodup_iff.2 (List.nodup_dedup _)
  exact ((List.pairwise_insertionSort (· ≤ ·) _).and hnodup).imp fun h => lt_of_le_of_ne h.1 h.2

theorem mem_agentsOf {entries : List BlacklistEntry} {agent : UUID} :
    agent ∈ agentsOf entries ↔ ∃ entry ∈ entries, entry.agentID = agent := by
  rw [agentsOf, (List.perm_insertionSort _ _).mem_iff, List.mem_dedup, List.mem_map]

theorem nodup_eligibleEntries :
    ((eligibleEntries world agents s now dueOnly).map BlacklistEntry.key).Nodup := by
  rw [eligibleEntries, ((List.perm_insertionSort _ _).map _).nodup_iff]
  exact s.blacklist.nodup.sublist (List.filter_sublist.map _)

/-- The agents of the first candidates are, in order, those among all agents that have some. -/
theorem eraseDups_take (limit : Nat) :
    (((eligibleEntries world agents s now dueOnly).take limit).map
        BlacklistEntry.agentID).eraseDups =
      (agentsOf (eligibleEntries world agents s now dueOnly)).filter fun agent =>
        decide (agent ∈ ((eligibleEntries world agents s now dueOnly).take limit).map
          BlacklistEntry.agentID) := by
  have hsorted : ((eligibleEntries world agents s now dueOnly).map
      BlacklistEntry.agentID).Pairwise (· ≤ ·) := List.pairwise_map.2 pairwise_eligibleEntries
  rw [List.map_take]
  refine List.Pairwise.eq_of_mem_iff
    (pairwise_eraseDups (hsorted.sublist (List.take_sublist _ _)))
    ((pairwise_agentsOf _).sublist List.filter_sublist) fun agent => ?_
  rw [List.mem_eraseDups, List.mem_filter, decide_eq_true_iff, mem_agentsOf]
  refine ⟨fun hmem => ⟨?_, hmem⟩, fun h => h.2⟩
  exact List.mem_map.1 (List.mem_of_mem_take hmem)

/-- Nothing is allotted twice. -/
theorem nodup_allotted (fraction : ℚ) (maxTargets : Nat) :
    (((allotted fraction maxTargets (eligibleEntries world agents s now dueOnly)).flatMap
      Prod.snd).map BlacklistEntry.key).Nodup := by
  have hgroups : ((agentsOf (eligibleEntries world agents s now dueOnly)).flatMap fun agent =>
      (eligibleEntries world agents s now dueOnly).filter fun entry =>
        decide (entry.agentID = agent)) = eligibleEntries world agents s now dueOnly :=
    flatMap_filter_eq pairwise_eligibleEntries (pairwise_agentsOf _)
      fun entry hentry => mem_agentsOf.2 ⟨entry, hentry, rfl⟩
  have hsub : ((allotted fraction maxTargets (eligibleEntries world agents s now dueOnly)).flatMap
      Prod.snd).Sublist _ := flatMap_allot_sublist
  rw [hgroups] at hsub
  exact nodup_eligibleEntries.sublist (hsub.map _)

end Candidates

/-! ## Without an error

When the call succeeds: new ids that are new, names and addresses that read back. None of
this is asked for what the call does up to an error. -/

/-- The ids of the new jobs are new, and the names of the agents are texts PostgreSQL stores. -/
structure Undisturbed (world : RecheckWorld) (agents : Agents) (s : ScanStore) : Prop where
  new : ∀ n, s.jobs.find? (world.newID n) = none
  apart : Function.Injective world.newID
  names : ∀ agent name, agents agent = some name → Store.storable name = true

section Undisturbed

variable {pg : Postgres} {world : RecheckWorld} {agents : Agents} {now : Timestamp}
  {settings : BlacklistRecheckSettings} {candidates : List BlacklistEntry} {s : ScanStore}

theorem storable_append {text text' : String} (h : Store.storable text = true)
    (h' : Store.storable text' = true) : Store.storable (text ++ text') = true := by
  rw [Store.storable, String.toList_append, List.all_append, Bool.and_eq_true]
  exact ⟨h, h'⟩

theorem int4_of_bounds {value : Int} (h : 0 ≤ value) (h' : value ≤ 30000) : int4 value = true := by
  rw [int4, Bool.and_eq_true, decide_eq_true_iff, decide_eq_true_iff]
  omega

/-- The job of a group is a row `scan_jobs` accepts. -/
theorem storable_recheckJob (input : BlacklistRecheckSettings) (jobID : UUID) (now : Timestamp)
    {name : String} (hname : Store.storable name = true) {total : Nat} (htotal : total ≤ 5000) :
    (recheckJob input.clamp jobID now name total).storable = true := by
  have hnamed : Store.storable
      (if name ≠ "" then "黑名单复查" ++ " · " ++ name else "黑名单复查") = true := by
    split
    · exact storable_append (by decide +kernel) hname
    · decide +kernel
  have hattempts : int4 input.clamp.attempts = true := by
    dsimp only [BlacklistRecheckSettings.clamp]
    split
    · decide
    · exact int4_of_bounds (by omega) (by omega)
  have htimeout : int4 input.clamp.timeoutMS = true := by
    dsimp only [BlacklistRecheckSettings.clamp]
    split
    · decide
    · exact int4_of_bounds (by omega) (by omega)
  have hretry : int4 input.clamp.retryMinutes = true := by
    dsimp only [BlacklistRecheckSettings.clamp]
    split
    · decide
    · exact int4_of_bounds (by omega) (by omega)
  have htargets : int4 (total : Int) = true := int4_of_bounds (by omega) (by omega)
  simp only [ScanJob.storable, recheckJob, List.all_cons, List.all_nil, Bool.and_eq_true, hnamed,
    hattempts, htimeout, hretry, htargets]
  decide +kernel

theorem recheckAgent_ok (now : Timestamp) (input : BlacklistRecheckSettings) {jobID agent : UUID}
    {selected : List BlacklistEntry} (hready : RecheckReady pg s)
    (hgroup : GroupOf pg candidates agent selected) (hnew : s.jobs.find? jobID = none)
    {name : String} (hagent : agents agent = some name) (hname : Store.storable name = true)
    (hlength : selected.length ≤ 5000) :
    ∃ s', recheckAgent pg agents s now input.clamp jobID agent selected = (none, s') := by
  have hstorable := storable_recheckJob input jobID now hname hlength
  have hknown : agents agent ≠ none := by
    rw [hagent]
    exact Option.some_ne_none name
  obtain ⟨hnone, -⟩ := inserted_rechecks now hknown hgroup.single hgroup.distinct rfl hready.fresh
    fun entry _ => hready.untaken hnew agent entry.targetIP
  unfold recheckAgent
  simp only [hagent, Option.getD_some, hstorable, hnew, Bool.true_eq_false, if_false, ne_eq,
    not_true_eq_false]
  rw [hnone]
  exact ⟨_, rfl⟩

/-- The loop meets no error while the ids to come are new. -/
theorem recheckEach_ok {input : BlacklistRecheckSettings} (hexact : Exact world)
    (hfraction : 0 < input.clamp.fraction ∧ input.clamp.fraction ≤ 1)
    (hsingle : ∀ entry ∈ candidates, entry.Single pg)
    (hdistinct : (candidates.map BlacklistEntry.key).Nodup)
    (hknown : ∀ entry ∈ candidates, ∃ name, agents entry.agentID = some name ∧
      Store.storable name = true) (hapart : Function.Injective world.newID) (order : List UUID)
    {n : Nat} {remaining : Int} (result : BlacklistRecheckResult)
    (hremaining : 0 ≤ remaining ∧ remaining ≤ 5000) (hready : RecheckReady pg s)
    (hnew : ∀ m, n ≤ m → s.jobs.find? (world.newID m) = none) :
    ∃ result' s', recheckEach pg world agents now input.clamp candidates order n remaining result s =
      (result', none, s') := by
  induction order generalizing n remaining result s with
  | nil => exact ⟨result, s, rfl⟩
  | cons agent order ih =>
    rw [recheckEach]
    split
    next => exact ⟨result, s, rfl⟩
    next hleft =>
      rw [recheckCount_eq hexact hfraction _ hremaining.1]
      generalize hcount : min (shareOf input.clamp.fraction (candidates.filter fun entry =>
        decide (entry.agentID = agent)).length) remaining.toNat = count
      split
      next => exact ih result hremaining hready hnew
      next hcountsome =>
        have hlength := length_share hfraction (candidates.filter fun entry =>
          decide (entry.agentID = agent)) hcount
        have hgroup := groupOf_take hsingle hdistinct agent count
        generalize (candidates.filter fun entry => decide (entry.agentID = agent)).take count =
          selected at hlength hgroup ⊢
        obtain ⟨entry, rest, rfl⟩ := List.exists_cons_of_ne_nil
          (fun hnil => hcountsome (by rw [← hlength, hnil]; rfl) : selected ≠ [])
        obtain ⟨name, hname, hstorable⟩ := hknown entry (hgroup.mem entry List.mem_cons_self)
        rw [hgroup.agent entry List.mem_cons_self] at hname
        obtain ⟨s', hrun⟩ := recheckAgent_ok now input hready hgroup
          (hnew n (Nat.le_refl n)) hname hstorable (by omega)
        have heffect := recheckAgent_effect hready hgroup (List.cons_ne_nil _ _) hrun
        rw [hrun]
        refine ih _ (by omega) (hgroup.ready (List.cons_ne_nil _ _) hready hrun) fun m hm => ?_
        rw [Table.find?_eq_none, heffect.jobs]
        intro job hjob
        rcases List.mem_append.1 hjob with hjob | hjob
        · exact Table.find?_eq_none.1 (hnew m (Nat.le_of_succ_le hm)) job hjob
        · rw [List.map_singleton, List.mem_singleton] at hjob
          rw [hjob]
          exact fun heq => Nat.ne_of_lt hm (hapart heq)

end Undisturbed

/-! ## `CreateBlacklistRechecks` -/

/-- What a call has done when it has rechecked the groups `picks`. -/
structure Allotted (settings : BlacklistRecheckSettings) (now : Timestamp) (agents : Agents)
    (eligible : List BlacklistEntry) (picks : List Pick)
    (result : BlacklistRecheckResult) (s s' : ScanStore) : Prop where
  effect : Rechecked settings now agents picks s s'
  targets : result.targets = min settings.maxTargets.toNat (((agentsOf eligible).map fun agent =>
    shareOf settings.fraction
      (eligible.filter fun entry => decide (entry.agentID = agent)).length).sum)
  jobs : result.jobs = picks.length
  jobIDs : result.jobIDs = picks.map Pick.jobID
  totals : ∀ pick ∈ picks, ∃ job ∈ s'.jobs.rows, job.id = pick.jobID ∧
    job.totalTargets = (s'.jobTasks job.id).length ∧ job.totalTargets = pick.selected.length
  oneJob : (picks.map Pick.agent).Nodup
  once : ((picks.flatMap Pick.selected).map BlacklistEntry.key).Nodup

section Numbered

variable (newID : Nat → UUID)

theorem selected_numbered (n : Nat) (given : List (UUID × List BlacklistEntry)) :
    (numbered newID n given).flatMap Pick.selected = given.flatMap Prod.snd := by
  induction given generalizing n with
  | nil => rfl
  | cons group given ih =>
    obtain ⟨agent, selected⟩ := group
    rw [numbered, List.flatMap_cons]
    split
    next hnone => rw [ih, hnone, List.nil_append]
    next => rw [List.flatMap_cons, ih]

theorem agents_numbered (n : Nat) (given : List (UUID × List BlacklistEntry)) :
    ((numbered newID n given).map Pick.agent).Sublist (given.map Prod.fst) := by
  induction given generalizing n with
  | nil => exact List.Sublist.refl _
  | cons group given ih =>
    obtain ⟨agent, selected⟩ := group
    rw [numbered, List.map_cons]
    split
    next => exact (ih n).cons agent
    next => exact (ih (n + 1)).cons_cons agent

end Numbered

/-- The groups of the plain procedure, committed. -/
theorem allotted_of_rechecked {world : RecheckWorld} {settings : BlacklistRecheckSettings}
    {agents : Agents} {now now' : Timestamp} {dueOnly : Bool} {fraction : ℚ} {maxTargets : Int}
    {result : BlacklistRecheckResult} {s₀ s s' : ScanStore}
    (heffect : Rechecked settings now agents (numbered world.newID 0 (allotted fraction
      maxTargets.toNat (eligibleEntries world agents s₀ now' dueOnly))) s s')
    (hresult : result = afterGroups (numbered world.newID 0 (allotted fraction
      maxTargets.toNat (eligibleEntries world agents s₀ now' dueOnly))) ⟨0, 0, [], false, ""⟩)
    (hfraction : settings.fraction = fraction) (hmax : settings.maxTargets = maxTargets)
    (hbounds : 0 < settings.fraction ∧ settings.fraction ≤ 1) :
    Allotted settings now agents (eligibleEntries world agents s₀ now' dueOnly)
      (numbered world.newID 0 (allotted fraction maxTargets.toNat
        (eligibleEntries world agents s₀ now' dueOnly))) result s s' where
  effect := heffect
  targets := by
    rw [hresult, afterGroups, selected_numbered, List.length_flatMap, allotted, ← hfraction,
      sum_length_allot (share_shareOf hbounds), hmax]
    exact Nat.zero_add _
  jobs := by
    rw [hresult]
    exact Nat.zero_add _
  jobIDs := by
    rw [hresult]
    rfl
  totals := by
    intro pick hpick
    refine ⟨recheckJob settings pick.jobID now ((agents pick.agent).getD "") pick.selected.length,
      ?_, rfl, ?_, rfl⟩
    · rw [heffect.jobs]
      exact List.mem_append_right _ (List.mem_map_of_mem hpick)
    · have hlength := congrArg List.length (heffect.tasks pick hpick)
      rw [List.length_map, List.length_map] at hlength
      exact congrArg Nat.cast hlength.symm
  oneJob := by
    have hagents := agents_numbered world.newID 0 (allotted fraction maxTargets.toNat
      (eligibleEntries world agents s₀ now' dueOnly))
    rw [allotted, map_fst_allot] at hagents
    exact ((pairwise_agentsOf _).imp ne_of_lt).sublist hagents
  once := by
    rw [selected_numbered]
    exact nodup_allotted fraction maxTargets.toNat

/-- **The limit of the candidate query does not show.** On rows as every call leaves them
(`Rows.replay`), read with exact arithmetic, and unless the running check ends it: the call commits,
for each agent to whom the plain procedure allots some of its eligible entries, a job with exactly
these; it puts off these entries and no others; and it ends without an error when the ids it draws
are new. -/
theorem createBlacklistRechecks_allots {pg : Postgres} {s : ScanStore} (hrows : Rows pg s)
    {world : RecheckWorld} (hexact : Exact world) (agents : Agents) (now : Timestamp)
    (input : BlacklistRecheckSettings)
    (hmax : 1 ≤ input.maxTargets ∧ input.maxTargets ≤ 5000)
    (hfraction : 0 < input.fraction ∧ input.fraction ≤ 1)
    (hlimit : ⌈(input.maxTargets : ℚ) / input.fraction⌉ ≤ 20000)
    (hidle : ¬(input.skipIfRunning = true ∧ activeRechecks s > 0)) :
    let eligible := eligibleEntries world agents s now input.dueOnly
    let picks := numbered world.newID 0
      (allotted input.fraction input.maxTargets.toNat eligible)
    (∀ result s', createBlacklistRechecks pg world agents s now input = (result, none, s') →
      Allotted input.clamp now agents eligible picks result s s') ∧
    (Undisturbed world agents s → ∃ result s',
      createBlacklistRechecks pg world agents s now input = (result, none, s')) := by
  intro eligible picks
  have hclamp : input.clamp.fraction = input.fraction ∧
      input.clamp.maxTargets = input.maxTargets := by
    dsimp only [BlacklistRecheckSettings.clamp]
    constructor
    · rw [if_neg (not_or.2 ⟨not_le.2 hfraction.1, not_lt.2 hfraction.2⟩)]
    · rw [if_neg (by omega)]
  have hfraction' : 0 < input.clamp.fraction ∧ input.clamp.fraction ≤ 1 := hclamp.1 ▸ hfraction
  have hshare := share_shareOf hfraction'
  generalize hlimitOf : candidateLimit world input.clamp = limit
  have hbudget : input.clamp.maxTargets.toNat ≤ shareOf input.clamp.fraction limit := by
    rw [← hlimitOf]
    refine maxTargets_le_share hexact ?_ hfraction' ?_
    · rw [hclamp.2]; exact hmax.1
    · rw [hclamp.1, hclamp.2]; exact hlimit
  have hcandidates : recheckCandidates world agents s now input.clamp = eligible.take limit := by
    rw [← hlimitOf]
    rfl
  have hsub : ∀ entry ∈ eligible.take limit, entry ∈ s.blacklist.rows ∧
      agents entry.agentID ≠ none := by
    intro entry hentry
    have hmem := (List.perm_insertionSort _ _).mem_iff.1 (List.mem_of_mem_take hentry)
    obtain ⟨hmem, hcondition⟩ := List.mem_filter.1 hmem
    exact ⟨hmem, of_decide_eq_true (Bool.and_eq_true_iff.1 hcondition).1⟩
  have hsingle : ∀ entry ∈ eligible.take limit, entry.Single pg := fun entry hentry =>
    hrows.single entry (hsub entry hentry).1
  have hdistinct : ((eligible.take limit).map BlacklistEntry.key).Nodup :=
    nodup_eligibleEntries.sublist ((List.take_sublist _ _).map _)
  -- the groups of the limited query are those of the plain procedure
  have hpicks : numbered world.newID 0 (allot (shareOf input.clamp.fraction)
      BlacklistEntry.agentID (eligible.take limit)
      ((eligible.take limit).map BlacklistEntry.agentID).eraseDups
      input.clamp.maxTargets.toNat) = picks := by
    rw [eraseDups_take, numbered_filter _ _ _ _ _ _ (fun entry hentry =>
        decide_eq_true (List.mem_map_of_mem hentry)) hshare,
      allot_take hshare pairwise_eligibleEntries (pairwise_agentsOf _)
        (fun entry hentry => mem_agentsOf.2 ⟨entry, hentry, rfl⟩) hbudget, hclamp.1, hclamp.2]
    rfl
  rw [createBlacklistRechecks]
  simp only [show ¬(input.clamp.skipIfRunning = true ∧ activeRechecks s > 0) from hidle, if_false,
    hcandidates]
  have hremaining : 0 ≤ input.clamp.maxTargets ∧ input.clamp.maxTargets ≤ 5000 := by
    rw [hclamp.2]
    omega
  refine ⟨fun result s' hrun => ?_, fun hundisturbed => ?_⟩
  · split at hrun
    next => simp at hrun
    next result₁ s₁ heach =>
      obtain ⟨heffect, hresult⟩ := recheckEach_effect hexact hfraction' hsingle hdistinct _
        hremaining.1 hrows.ready heach
      rw [hpicks] at heffect hresult
      have hallotted := allotted_of_rechecked heffect hresult hclamp.1 hclamp.2 hfraction'
      split at hrun
      · obtain ⟨rfl, -, rfl⟩ := by simpa only [Prod.mk.injEq] using hrun
        exact ⟨hallotted.effect, hallotted.targets, hallotted.jobs, hallotted.jobIDs,
          hallotted.totals, hallotted.oneJob, hallotted.once⟩
      · obtain ⟨rfl, -, rfl⟩ := by simpa only [Prod.mk.injEq] using hrun
        exact hallotted
  · have hknown : ∀ entry ∈ eligible.take limit, ∃ name, agents entry.agentID = some name ∧
        Store.storable name = true := by
      intro entry hentry
      obtain ⟨name, hname⟩ := Option.ne_none_iff_exists'.1 (hsub entry hentry).2
      exact ⟨name, hname, hundisturbed.names _ name hname⟩
    obtain ⟨result₁, s₁, heach⟩ := recheckEach_ok hexact hfraction' hsingle hdistinct hknown
      hundisturbed.apart ((eligible.take limit).map BlacklistEntry.agentID).eraseDups
      ⟨0, 0, [], false, ""⟩ hremaining hrows.ready fun m _ => hundisturbed.new m
    rw [heach]
    dsimp only
    split
    · exact ⟨_, _, rfl⟩
    · exact ⟨_, _, rfl⟩

/-! ## More candidates than the query reads -/

/-- A server that knows some addresses of one network. -/
def nearAddresses : Postgres where
  uuid := oneAddress.uuid
  inet := fun text => if text ∈ ["104.16.0.1", "104.16.0.2", "104.16.0.3", "104.16.0.4",
    "104.16.0.5"] then some ⟨text, none⟩ else none
  cidr := fun _ => none
  inet_host := by
    intro text ip h
    split at h
    · rename_i hmem
      cases h
      exact if_pos hmem
    · cases h
  cidr_text := cidr_text_of_none

def blockedAddress (agent : UUID) (host : String) : BlacklistEntry :=
  ⟨agent, ⟨host, none⟩, "UNAVAILABLE", 1, 0, 60, 0⟩

/-- One address of the first agent and four of the second. -/
def twoAgentsBlocked : ScanStore :=
  { ScanStore.empty with
    blacklist := ⟨[blockedAddress 2 "104.16.0.5", blockedAddress 1 "104.16.0.1",
      blockedAddress 2 "104.16.0.2", blockedAddress 2 "104.16.0.3", blockedAddress 2 "104.16.0.4"],
      by decide⟩ }

def exactWorld : RecheckWorld where
  ceilQuotient := fun n x => ⌈(n : ℚ) / x⌉
  ceilProduct := fun n x => ⌈(n : ℚ) * x⌉
  tie := fun _ => 0
  newID := fun n => n

theorem exact_exactWorld : Exact exactWorld := ⟨fun _ _ => rfl, fun _ _ => rfl⟩

/-- Half of what is blocked, two addresses at most: the query reads four. -/
def halfSettings : BlacklistRecheckSettings := ⟨false, 1 / 2, 2, true, 3, 5000, 1000, 50, 120⟩

theorem rows_twoAgentsBlocked : Rows nearAddresses twoAgentsBlocked where
  owner := fun _ h => absurd h List.not_mem_nil
  fresh := fun _ h => absurd h List.not_mem_nil
  readable := fun _ h => absurd h List.not_mem_nil
  filed := fun _ h => absurd h List.not_mem_nil
  result := fun _ h => absurd h List.not_mem_nil
  single := by
    intro entry hentry
    simp only [twoAgentsBlocked, List.mem_cons, List.not_mem_nil, or_false] at hentry
    rcases hentry with rfl | rfl | rfl | rfl | rfl <;> exact ⟨rfl, rfl⟩

/-- The second agent's share of what is read is cut by `max_targets`, so the candidate left out is
not missed. -/
theorem createBlacklistRechecks_allots_twoAgents :
    candidateLimit exactWorld halfSettings < twoAgentsBlocked.blacklist.rows.length ∧
      ∃ result s', createBlacklistRechecks nearAddresses exactWorld (fun _ => some "agent")
        twoAgentsBlocked 0 halfSettings = (result, none, s') ∧ result.jobs = 2 ∧
          result.targets = 2 := by
  refine ⟨by decide +kernel, ?_⟩
  obtain ⟨hallots, hends⟩ := createBlacklistRechecks_allots rows_twoAgentsBlocked
    exact_exactWorld (fun _ => some "agent") 0 halfSettings (by decide)
    (by constructor <;> norm_num [halfSettings]) (by norm_num [halfSettings])
    (by rintro ⟨-, h⟩; exact absurd h (by decide))
  obtain ⟨result, s', hrun⟩ := hends ⟨fun _ => rfl, fun _ _ h => h, fun _ name hname => by
    obtain rfl := Option.some.inj hname
    decide +kernel⟩
  have hallotted := hallots result s' hrun
  refine ⟨result, s', hrun, hallotted.jobs.trans ?_, hallotted.targets.trans ?_⟩
  · decide +kernel
  · decide +kernel

end Cfscan.Recheck
