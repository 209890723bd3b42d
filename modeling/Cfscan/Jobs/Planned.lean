import Cfscan.Jobs.Planning
import Cfscan.League.Standings
import Cfscan.Lib.Upsert
import Cfscan.Scan.Run

/-!
# What a plan does to the league

`Planned` is the effect of a successful `PlanLeagueTargets` on each league entry, told by its key:
outside of the plan nothing, a prefix that is not in the pool is only deactivated, and a prefix
that is gets its row back as it was, or a new one, and is then evaluated (`refreshed`). The three
batches of the transaction are not told apart any more.

The effect is told for agent ids as `id::text` prints them (`Canonical`), which are the ones
`ResolveScanAgentIDs` returns. It does not hold of others: the deactivation compares texts where the
upsert casts, so an id in capitals has its entries upserted and none of its stale ones deactivated.

What happens to an entry from one plan to the next is not told here but in `Jobs.Rested`.

Three things are proved of `Planned` that are used elsewhere: which entries are active after it
(`Planned.active_iff`), what a new one starts with (`Planned.new`), and what one that is taken back
is evaluated from (`Planned.resumed`). A plan that fails leaves the tables as they were.

Which targets are planned of the entries is not here; that is `League.Soundness` and
`League.Fairness`, over the entries and candidates as they were read.
-/

set_option autoImplicit false

namespace Cfscan.Jobs

open Cfscan.Lib Cfscan.Store Cfscan.Scan Cfscan.League
open Cfscan.League.Dashboard (LeagueKey LeagueRow)

/-! ## Agent ids

Ids as the server prints them. `ResolveScanAgentIDs` returns nothing else, whether the
request has named the agents or takes those that are online. -/

/-- The ids are as `id::text` prints them. -/
def Canonical (server : PlanServer) (agentIDs : List String) : Prop :=
  ∀ id ∈ agentIDs, ∃ agent, server.uuidText agent = id

theorem resolveScanAgentIDs_canonical {server : PlanServer}
    {byName : Arrangement (agentOrder server)}
    {agents : Table UUID Enrollment.AgentRow Enrollment.AgentRow.id} {now : Timestamp}
    {requested agentIDs : List String}
    (h : resolveScanAgentIDs server byName agents now requested = .ok agentIDs) :
    Canonical server agentIDs ∧ agentIDs ≠ [] := by
  unfold resolveScanAgentIDs at h
  split at h
  · dsimp only at h
    split at h
    · cases h
    · rename_i hsome
      cases h
      refine ⟨fun id hid => ?_, hsome⟩
      obtain ⟨a, -, ha⟩ := List.mem_map.mp hid
      exact ⟨a.id, ha⟩
  · rename_i hrequested
    dsimp only at h
    split at h
    · cases h
    · split at h
      · cases h
      · rename_i hfound
        cases h
        constructor
        · intro id hid
          have hmem := List.find?_eq_none.mp hfound id hid
          simp only [Bool.not_eq_true', Bool.not_eq_false, List.any_eq_true,
            decide_eq_true_eq] at hmem
          obtain ⟨a, -, ha⟩ := hmem
          exact ⟨a.id, ha⟩
        · obtain ⟨id, rest, rfl⟩ := List.exists_cons_of_ne_nil hrequested
          exact List.ne_nil_of_mem (mem_fresh.mpr ⟨List.mem_cons_self, List.not_mem_nil⟩)

section Plan

variable {server : PlanServer} {input : LeagueRequest} {agentIDs : List String} {now : Timestamp}
  {agents : Agents}

/-! ## The upserts -/

theorem activateEntry_activateEntry (k : LeagueKey) (e : Option LeagueRow) :
    activateEntry now k (some (activateEntry now k e)) = activateEntry now k e := by
  cases e <;> rfl

theorem upserted_upsertEntry {entries entries' : Table LeagueKey LeagueRow LeagueRow.key}
    {item : String × ModelPrefix}
    (h : upsertEntry server input now agents entries item = .ok entries') :
    Upserted (activateEntry now) (leagueKey server input item.1 item.2).toList entries
      entries' := by
  unfold upsertEntry at h
  split at h
  · cases h
  · rename_i k hk
    split at h
    · cases h
    · cases h
      rw [hk]
      refine .put ?_
      cases hfind : entries.find? k with
      | none => rfl
      | some e =>
        have he : e.key = k := Table.key_of_find? hfind
        exact he

/-- The prefix of the key is in the pool. -/
def InPool (server : PlanServer) (includeIPv6 : Bool) (prefixes : List ModelPrefix)
    (k : LeagueKey) : Prop :=
  ∃ item ∈ prefixes, Targets.wanted includeIPv6 item = true ∧
    server.cidr item.cidr = some k.prefixCIDR

/-- The keys of the batch. -/
def batchKeys (server : PlanServer) (input : LeagueRequest) (agentIDs : List String)
    (prefixes : List ModelPrefix) : List LeagueKey :=
  (upserts input agentIDs prefixes).flatMap fun item => (leagueKey server input item.1 item.2).toList

theorem mem_batchKeys {prefixes : List ModelPrefix} {k : LeagueKey} :
    k ∈ batchKeys server input agentIDs prefixes ↔
      (∃ agentID ∈ agentIDs, server.uuid agentID = some k.agentID) ∧
        configures input.toCreateScanJobRequest k = true ∧
        InPool server input.includeIPv6 prefixes k := by
  simp only [batchKeys, upserts, List.mem_flatMap, List.mem_map, List.mem_filter,
    Option.mem_toList]
  constructor
  · rintro ⟨_, ⟨agentID, hagent, item, ⟨hitem, hwanted⟩, rfl⟩, hkey⟩
    obtain ⟨agent, huuid, hkey⟩ := Option.bind_eq_some_iff.mp hkey
    obtain ⟨prefixCIDR, hcidr, hkey⟩ := Option.bind_eq_some_iff.mp hkey
    cases hkey
    exact ⟨⟨agentID, hagent, huuid⟩, by simp [configures], item, hitem, hwanted, hcidr⟩
  · rintro ⟨⟨agentID, hagent, huuid⟩, hconfigures, item, hitem, hwanted, hcidr⟩
    refine ⟨(agentID, item), ⟨agentID, hagent, item, ⟨hitem, hwanted⟩, rfl⟩, ?_⟩
    obtain ⟨agent, prefixCIDR, scheme, hostname, path, port, attempts, timeoutMS⟩ := k
    simp only [configures, Bool.and_eq_true, decide_eq_true_eq] at hconfigures
    obtain ⟨⟨⟨⟨⟨rfl, rfl⟩, rfl⟩, rfl⟩, rfl⟩, rfl⟩ := hconfigures
    simp [leagueKey, huuid, hcidr]

/-- Of the agents of a plan, the keys of the batch are those in the pool. -/
theorem mem_batchKeys_of_inPlan {prefixes : List ModelPrefix} {k : LeagueKey}
    (hplan : inPlan server input agentIDs k = true) :
    k ∈ batchKeys server input agentIDs prefixes ↔
      InPool server input.includeIPv6 prefixes k := by
  simp only [inPlan, Bool.and_eq_true, decide_eq_true_eq] at hplan
  rw [mem_batchKeys]
  exact ⟨fun h => h.2.2, fun h => ⟨⟨_, hplan.1, server.uuid_text _⟩, hplan.2, h⟩⟩

theorem inPlan_of_mem_batchKeys (hcanonical : Canonical server agentIDs)
    {prefixes : List ModelPrefix} {k : LeagueKey}
    (hk : k ∈ batchKeys server input agentIDs prefixes) : inPlan server input agentIDs k = true := by
  obtain ⟨⟨agentID, hagent, huuid⟩, hconfigures, -⟩ := mem_batchKeys.mp hk
  obtain ⟨agent, rfl⟩ := hcanonical agentID hagent
  rw [server.uuid_text] at huuid
  cases huuid
  simp [inPlan, hagent, hconfigures]

/-! ## The saves

The entries read back are written one by one, each from what was read. Since they are the
rows of one table their keys differ, and a save of one does not touch another that is still
to come. -/

/-- A row after it has been loaded, evaluated and saved. -/
def refreshed (server : PlanServer) (input : LeagueRequest) (agentIDs : List String)
    (now : Timestamp) (s : ScanStore) (e : LeagueRow) : LeagueRow :=
  saveEntry now (evaluateItem input (loadItem server input agentIDs now s e)).entry e

@[simp] theorem key_refreshed (s : ScanStore) (e : LeagueRow) :
    (refreshed server input agentIDs now s e).key = e.key := rfl

/-- What the evaluation leaves of an entry besides its standing. -/
theorem evaluate_keeps (entry : PrefixLeagueEntry) (thresholds : Thresholds) :
    (evaluate entry thresholds).agentID = entry.agentID ∧
      (evaluate entry thresholds).prefixCIDR = entry.prefixCIDR ∧
      (evaluate entry thresholds).active = entry.active := by
  unfold evaluate
  dsimp only
  split <;> split <;> exact ⟨rfl, rfl, rfl⟩

@[simp] theorem active_refreshed (s : ScanStore) (e : LeagueRow) :
    (refreshed server input agentIDs now s e).active = e.active :=
  (evaluate_keeps _ _).2.2

theorem saveItem_refreshed {s : ScanStore} {e : LeagueRow}
    (hread : server.cidr e.key.prefixCIDR.text = some e.key.prefixCIDR)
    {entries entries' : Table LeagueKey LeagueRow LeagueRow.key}
    (h : saveItem server now entries (evaluateItem input (loadItem server input agentIDs now s e)) =
      .ok entries') (hfind : entries.find? e.key = some e) :
    entries'.find? e.key = some (refreshed server input agentIDs now s e) ∧
      ∀ k, e.key ≠ k → entries'.find? k = entries.find? k := by
  obtain ⟨hagent, hprefix, -⟩ := evaluate_keeps (loadItem server input agentIDs now s e).entry
    ⟨input.maxLatencyMS, input.maxPacketLoss⟩
  unfold saveItem at h
  have huuid : server.uuid (evaluateItem input (loadItem server input agentIDs now s e)).entry.agentID
      = some e.key.agentID := by
    exact (congrArg server.uuid hagent).trans (server.uuid_text _)
  have hcidr : server.cidr (evaluateItem input
      (loadItem server input agentIDs now s e)).entry.prefixCIDR = some e.key.prefixCIDR :=
    (congrArg server.cidr hprefix).trans hread
  rw [huuid, hcidr] at h
  dsimp only at h
  split at h
  · cases h
  split at h
  · cases h
  cases h
  constructor
  · rw [Table.find?_updateWhere, hfind, Option.map_some]
    exact congrArg some (if_pos (decide_eq_true rfl))
  · intro k hk
    rw [Table.find?_updateWhere]
    cases hfindk : entries.find? k with
    | none => rfl
    | some e' =>
      have hne : e'.key ≠ e.key := (Table.key_of_find? hfindk).trans_ne (Ne.symm hk)
      exact congrArg some (if_neg fun heq => hne (of_decide_eq_true heq))

/-- The batch of saves refreshes the rows that were loaded, each from the row as it was. -/
theorem foldlM_saveItem {s : ScanStore} {rows : List LeagueRow}
    (hnodup : (rows.map LeagueRow.key).Nodup)
    (hread : ∀ e ∈ rows, server.cidr e.key.prefixCIDR.text = some e.key.prefixCIDR)
    {entries entries' : Table LeagueKey LeagueRow LeagueRow.key}
    (hrows : ∀ e ∈ rows, entries.find? e.key = some e)
    (h : (rows.map fun e => evaluateItem input (loadItem server input agentIDs now s e)).foldlM
      (saveItem server now) entries = .ok entries') :
    (∀ e ∈ rows, entries'.find? e.key = some (refreshed server input agentIDs now s e)) ∧
      ∀ k, (∀ e ∈ rows, e.key ≠ k) → entries'.find? k = entries.find? k := by
  induction rows generalizing entries with
  | nil =>
    cases h
    exact ⟨fun _ h => absurd h List.not_mem_nil, fun _ _ => rfl⟩
  | cons e rows ih =>
    obtain ⟨hnotin, hnodup⟩ := List.nodup_cons.mp hnodup
    rw [List.map_cons, List.foldlM_cons] at h
    cases hone : saveItem server now entries
      (evaluateItem input (loadItem server input agentIDs now s e)) with
    | error error =>
      rw [hone] at h
      cases h
    | ok entries₁ =>
      rw [hone] at h
      obtain ⟨hself, hothers⟩ := saveItem_refreshed (hread e List.mem_cons_self) hone
        (hrows e List.mem_cons_self)
      have hne : ∀ e' ∈ rows, e.key ≠ e'.key := fun e' he' heq =>
        hnotin (heq ▸ List.mem_map_of_mem he')
      obtain ⟨hin, hout⟩ := ih hnodup (fun e' he' => hread e' (List.mem_cons_of_mem _ he'))
        (fun e' he' => (hothers _ (hne e' he')).trans (hrows e' (List.mem_cons_of_mem _ he'))) h
      constructor
      · intro e' he'
        rcases List.mem_cons.mp he' with rfl | he'
        · exact (hout _ fun e'' he'' heq => hne e'' he'' heq.symm).trans hself
        · exact hin e' he'
      · intro k hk
        rw [hout k fun e' he' => hk e' (List.mem_cons_of_mem _ he'), hothers k (hk e (.head _))]

/-! ## The transaction -/

/-- The steps of a transaction that commits. -/
theorem planEntries_ok {queries : PlanQueries} {s s' : JobStore} {prefixes : List ModelPrefix}
    {loaded : List LeagueItem × List CandidateStats}
    (h : planEntries server input agentIDs now queries agents s prefixes = .ok (loaded, s')) :
    ∃ entries entries', Upserted (activateEntry now) (batchKeys server input agentIDs prefixes)
        (deactivateStale server input agentIDs now s.entries) entries ∧
      ((queries.entries.items (entries.rows.filter fun e => e.active &&
        inPlan server input agentIDs e.key)).map fun e =>
          evaluateItem input (loadItem server input agentIDs now s.scan e)).foldlM
        (saveItem server now) entries = .ok entries' ∧
      s' = { s with entries := entries' } := by
  unfold planEntries at h
  split at h
  · cases h
  split at h
  · cases h
  obtain ⟨entries, hupserts, h⟩ := bind_eq_ok h
  obtain ⟨items, hload, h⟩ := bind_eq_ok h
  obtain ⟨entries', hsave, h⟩ := bind_eq_ok h
  cases h
  refine ⟨entries, entries', .foldlM activateEntry_activateEntry
    (fun _ _ _ hstep => upserted_upsertEntry hstep) hupserts, ?_, rfl⟩
  unfold loadLeagueEntries at hload
  dsimp only at hload
  split at hload
  · cases hload
    rwa [List.map_map] at hsave
  · cases hload

/-- The effect of a plan, key by key. -/
structure Planned (server : PlanServer) (input : LeagueRequest) (agentIDs : List String)
    (now : Timestamp) (prefixes : List ModelPrefix) (s s' : JobStore) : Prop where
  scan : s'.scan = s.scan
  ipTargets : s'.ipTargets = s.ipTargets
  outside : ∀ k, inPlan server input agentIDs k = false → s'.entries.find? k = s.entries.find? k
  unlisted : ∀ k, inPlan server input agentIDs k = true →
    ¬ InPool server input.includeIPv6 prefixes k →
    s'.entries.find? k = (s.entries.find? k).map (deactivateEntry now)
  listed : ∀ k, inPlan server input agentIDs k = true →
    InPool server input.includeIPv6 prefixes k →
    s'.entries.find? k = some (refreshed server input agentIDs now s.scan
      (activateEntry now k (s.entries.find? k)))

theorem find?_deactivateStale (entries : Table LeagueKey LeagueRow LeagueRow.key) (k : LeagueKey) :
    (deactivateStale server input agentIDs now entries).find? k =
      if inPlan server input agentIDs k then (entries.find? k).map (deactivateEntry now)
      else entries.find? k := by
  unfold deactivateStale
  rw [Table.find?_updateWhere]
  cases hfind : entries.find? k with
  | none => simp
  | some e =>
    have he : e.key = k := Table.key_of_find? hfind
    rw [Option.map_some, Option.map_some, he]
    split <;> rfl

theorem activateEntry_deactivated (k : LeagueKey) (e : Option LeagueRow) :
    activateEntry now k (e.map (deactivateEntry now)) = activateEntry now k e := by
  cases e <;> rfl

theorem active_activateEntry (k : LeagueKey) (e : Option LeagueRow) :
    (activateEntry now k e).active = true := by
  cases e <;> rfl

theorem planEntries_planned (hcanonical : Canonical server agentIDs) {queries : PlanQueries}
    {s s' : JobStore} {prefixes : List ModelPrefix} {loaded : List LeagueItem × List CandidateStats}
    (h : planEntries server input agentIDs now queries agents s prefixes = .ok (loaded, s')) :
    Planned server input agentIDs now prefixes s s' := by
  obtain ⟨entries, entries', hupserted, hsave, rfl⟩ := planEntries_ok h
  -- what the load reads: the rows of the batch
  have hbatch : ∀ k, inPlan server input agentIDs k = true → ∀ e, entries.find? k = some e →
      (e.active = true ↔ k ∈ batchKeys server input agentIDs prefixes) := by
    intro k hplan e hfind
    constructor
    · intro hactive
      by_contra hnot
      rw [hupserted.of_notMem hnot, find?_deactivateStale, if_pos hplan] at hfind
      obtain ⟨e₀, -, rfl⟩ := Option.map_eq_some_iff.mp hfind
      cases hactive
    · intro hmem
      rw [hupserted.of_mem hmem] at hfind
      cases hfind
      exact active_activateEntry k _
  have hperm := queries.entries.perm (entries.rows.filter fun e => e.active &&
    inPlan server input agentIDs e.key)
  have hmem : ∀ e, e ∈ queries.entries.items (entries.rows.filter fun e => e.active &&
      inPlan server input agentIDs e.key) ↔ e ∈ entries.rows ∧ e.active = true ∧
        inPlan server input agentIDs e.key = true := fun e => by
    rw [hperm.mem_iff, List.mem_filter, Bool.and_eq_true]
  -- the prefix of a loaded row has been read by its upsert
  have hread : ∀ e ∈ queries.entries.items (entries.rows.filter fun e => e.active &&
      inPlan server input agentIDs e.key),
      server.cidr e.key.prefixCIDR.text = some e.key.prefixCIDR := by
    intro e he
    obtain ⟨hrows, hactive, hplan⟩ := (hmem e).mp he
    have hk := (hbatch e.key hplan e (Table.find?_key hrows)).mp hactive
    obtain ⟨item, -, -, hcidr⟩ := (mem_batchKeys_of_inPlan hplan).mp hk
    exact (server.cidr_text _ _ hcidr).1
  obtain ⟨hin, hout⟩ := foldlM_saveItem
    ((hperm.map LeagueRow.key).nodup_iff.mpr
      ((List.filter_sublist.map LeagueRow.key).nodup entries.nodup))
    hread (fun e he => Table.find?_key ((hmem e).mp he).1) hsave
  refine ⟨rfl, rfl, fun k hplan => ?_, fun k hplan hpool => ?_, fun k hplan hpool => ?_⟩
  · have hnot : k ∉ batchKeys server input agentIDs prefixes := fun hk => by
      rw [inPlan_of_mem_batchKeys hcanonical hk] at hplan
      cases hplan
    have hrow : entries'.find? k = entries.find? k := hout k fun e he heq => by
      have := ((hmem e).mp he).2.2
      rw [heq, hplan] at this
      cases this
    rw [hrow, hupserted.of_notMem hnot, find?_deactivateStale, if_neg (by simp [hplan])]
  · have hnot : k ∉ batchKeys server input agentIDs prefixes :=
      mt (mem_batchKeys_of_inPlan hplan).mp hpool
    have hrow : entries'.find? k = entries.find? k := hout k fun e he heq => by
      obtain ⟨hrows, hactive, -⟩ := (hmem e).mp he
      exact hnot ((hbatch k hplan e (heq ▸ Table.find?_key hrows)).mp hactive)
    rw [hrow, hupserted.of_notMem hnot, find?_deactivateStale, if_pos hplan]
  · have hk := (mem_batchKeys_of_inPlan hplan).mpr hpool
    have hfind := hupserted.of_mem hk
    rw [find?_deactivateStale, if_pos hplan, activateEntry_deactivated] at hfind
    have hkey := Table.key_of_find? hfind
    have hrow := hin _ ((hmem _).mpr ⟨Table.mem_of_find? hfind, active_activateEntry k _,
      by rw [hkey]; exact hplan⟩)
    rw [hkey] at hrow
    exact hrow

/-- A plan that fails has changed nothing. -/
theorem planLeagueTargets_planned (hcanonical : Canonical server agentIDs) (queries : PlanQueries)
    (rt : Runtime) (s : JobStore) (prefixes : List ModelPrefix) (seed : String) (force : Bool)
    (fuel : Nat) :
    (∃ error, planLeagueTargets server input agentIDs now queries rt agents s prefixes seed force
        fuel = (.error error, s)) ∨
      ∃ plan s', planLeagueTargets server input agentIDs now queries rt agents s prefixes seed force
          fuel = (.ok plan, s') ∧
        Planned server input agentIDs now prefixes s s' := by
  unfold planLeagueTargets
  cases hplan : planEntries server input agentIDs now queries agents s prefixes with
  | error error => exact Or.inl ⟨error, rfl⟩
  | ok loaded =>
    obtain ⟨⟨items, candidates⟩, s'⟩ := loaded
    exact Or.inr ⟨_, s', rfl, planEntries_planned hcanonical hplan⟩

/-! ## One entry

`Planned` read for a single key, which is the form the results are stated in. A new entry
has results already if its agent and prefix were probed before it was made, and then it is
evaluated on these at once. -/

/-- Without results there is nothing to evaluate. -/
theorem refreshed_newEntry {s : ScanStore} {k : LeagueKey}
    (hnone : ofEntry (planResults server input agentIDs s
      (now - League.Dashboard.sevenDays)) k = []) :
    (refreshed server input agentIDs now s (newEntry now k)).tier = .observation ∧
      (refreshed server input agentIDs now s (newEntry now k)).badStreak = 0 := by
  have hlast : (loadItem server input agentIDs now s (newEntry now k)).entry.lastResultAt =
      none := by
    change (lastScanned (ofEntry _ (newEntry now k).key)).map goTime = none
    rw [show (newEntry now k).key = k from rfl, hnone]
    rfl
  have hstill : advancing (loadItem server input agentIDs now s (newEntry now k)).entry = false := by
    unfold advancing
    rw [hlast]
  have heval : (evaluateItem input (loadItem server input agentIDs now s (newEntry now k))).entry =
      (loadItem server input agentIDs now s (newEntry now k)).entry :=
    evaluate_of_not_advancing hstill (by simp [loadItem, newEntry])
  unfold refreshed
  rw [heval]
  exact ⟨rfl, rfl⟩

theorem Planned.active_iff {prefixes : List ModelPrefix} {s s' : JobStore} {k : LeagueKey}
    (h : Planned server input agentIDs now prefixes s s')
    (hplan : inPlan server input agentIDs k = true) :
    (∃ e, s'.entries.find? k = some e ∧ e.active = true) ↔
      InPool server input.includeIPv6 prefixes k := by
  constructor
  · rintro ⟨e, hsome, hactive⟩
    by_contra hpool
    rw [h.unlisted k hplan hpool] at hsome
    obtain ⟨e₀, -, rfl⟩ := Option.map_eq_some_iff.mp hsome
    cases hactive
  · intro hpool
    refine ⟨_, h.listed k hplan hpool, ?_⟩
    rw [active_refreshed, active_activateEntry]

/-- A new row is one of the batch. -/
theorem Planned.new {prefixes : List ModelPrefix} {s s' : JobStore} {k : LeagueKey} {e : LeagueRow}
    (h : Planned server input agentIDs now prefixes s s') (hnone : s.entries.find? k = none)
    (hsome : s'.entries.find? k = some e) :
    e = refreshed server input agentIDs now s.scan (newEntry now k) := by
  by_cases hplan : inPlan server input agentIDs k = true
  · by_cases hpool : InPool server input.includeIPv6 prefixes k
    · rw [h.listed k hplan hpool, hnone] at hsome
      exact (Option.some_inj.mp hsome).symm
    · rw [h.unlisted k hplan hpool, hnone] at hsome
      cases hsome
  · rw [h.outside k (eq_false_of_ne_true hplan), hnone] at hsome
    cases hsome

/-- An entry that becomes active is one of the batch too, with the row it had. -/
theorem Planned.resumed {prefixes : List ModelPrefix} {s s' : JobStore} {k : LeagueKey}
    {e₁ e : LeagueRow} (h : Planned server input agentIDs now prefixes s s')
    (hfind : s.entries.find? k = some e₁) (hinactive : e₁.active = false)
    (hsome : s'.entries.find? k = some e) (hactive : e.active = true) :
    e = refreshed server input agentIDs now s.scan (activateEntry now k (some e₁)) := by
  by_cases hplan : inPlan server input agentIDs k = true
  · by_cases hpool : InPool server input.includeIPv6 prefixes k
    · rw [h.listed k hplan hpool, hfind] at hsome
      exact (Option.some_inj.mp hsome).symm
    · rw [h.unlisted k hplan hpool, hfind] at hsome
      cases hsome
      cases hactive
  · rw [h.outside k (eq_false_of_ne_true hplan), hfind] at hsome
    cases hsome
    rw [hinactive] at hactive
    cases hactive

end Plan

end Cfscan.Jobs
