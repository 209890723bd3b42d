import Cfscan.Jobs.Planned

/-!
# Which prefixes a job marks as scheduled

`CreateScanJob` marks a prefix when an insert for it has affected a row, and collects these prefixes
under a joined text. `createScanJob_schedules`: of a job that is committed, the league entries that
are marked are those with a task, whatever the budget, the blacklist and the conflict clause have
left out of the plan. A prefix that got nothing is not marked and stays due.

The joined text tells agent and prefix apart because no text of a uuid has a `|` in it.

## Marked and due

That an entry is marked is said by its row, and what that means by `League.due`: a marked entry is
not due before the interval of its tier is over, and one that is not marked is as due as it was.
`Shows` ties a row to the entry a plan holds of it.

A job marks whatever entry its key selects, active or not, and knows nothing of the plan it was made
for. So a job that is created late marks an entry that a later plan has deactivated (`Jobs.Rested`).

It does **not** say that a prefix with a task gets a result. Marking is about the schedule alone; a
job that is stopped has marked its prefixes all the same.
-/

set_option autoImplicit false

namespace Cfscan.Jobs

open Cfscan.Lib Cfscan.Store Cfscan.Scan Cfscan.League
open Cfscan.League.Dashboard (LeagueKey LeagueRow)

/-! ## The keys of the map

The joined text is cut at the first bar, so two different pairs have different keys as long
as no id contains one. A uuid does not, in any spelling PostgreSQL reads (`PlainUUIDs`). -/

/-- No text that is read as a uuid has the separator in it. -/
def PlainUUIDs (pg : Postgres) : Prop := ∀ text id, pg.uuid text = some id → '|' ∉ text.toList

theorem append_cons_inj {α : Type} {a : α} {l l' r r' : List α} (hl : a ∉ l) (hl' : a ∉ l')
    (h : l ++ a :: r = l' ++ a :: r') : l = l' ∧ r = r' := by
  induction l generalizing l' with
  | nil =>
    cases l' with
    | nil => exact ⟨rfl, (List.cons.inj h).2⟩
    | cons b l' => exact absurd (List.cons.inj h).1 fun heq => hl' (heq ▸ List.mem_cons_self)
  | cons b l ih =>
    cases l' with
    | nil => exact absurd (List.cons.inj h).1.symm fun heq => hl (heq ▸ List.mem_cons_self)
    | cons b' l' =>
      obtain ⟨rfl, htail⟩ := List.cons.inj h
      obtain ⟨rfl, rfl⟩ := ih (fun hmem => hl (List.mem_cons_of_mem _ hmem))
        (fun hmem => hl' (List.mem_cons_of_mem _ hmem)) htail
      exact ⟨rfl, rfl⟩

theorem ScheduledPrefix.eq_of_key {p q : ScheduledPrefix} (hp : '|' ∉ p.agentID.toList)
    (hq : '|' ∉ q.agentID.toList) (h : p.key = q.key) : p = q := by
  have hlist := congrArg String.toList h
  simp only [ScheduledPrefix.key, String.toList_append, List.append_assoc] at hlist
  obtain ⟨hagent, hprefix⟩ := append_cons_inj hp hq hlist
  have hagent : p.agentID = q.agentID := String.toList_inj.mp hagent
  have hprefix : p.prefixText = q.prefixText := String.toList_inj.mp hprefix
  cases p
  cases q
  simp_all

section Marks

variable {pg : Postgres} {agents : Agents} {s : JobStore} {now : Timestamp} {jobID : UUID}
  {input : CreateScanJobRequest}

/-- The prefix has been collected for the agent. -/
def JobDraft.Collected (pg : Postgres) (d : JobDraft) (agent : UUID) (prefixCIDR : Cidr) : Prop :=
  ∃ p ∈ d.scheduledPrefixes.rows,
    pg.uuid p.agentID = some agent ∧ pg.cidr p.prefixText = some prefixCIDR

/-- A task of the job for the agent, under the prefix. -/
def Got (rows : List ScanTask) (jobID agent : UUID) (prefixCIDR : Cidr) : Prop :=
  ∃ task ∈ rows, task.jobID = jobID ∧ task.preferredAgentID = agent ∧
    task.targetPrefix = some prefixCIDR

instance (rows : List ScanTask) (jobID agent : UUID) (prefixCIDR : Cidr) :
    Decidable (Got rows jobID agent prefixCIDR) :=
  inferInstanceAs (Decidable (∃ task ∈ rows, _ ∧ _ ∧ _))

/-- What is collected is what has a task. -/
def JobDraft.Marks (pg : Postgres) (jobID : UUID) (d : JobDraft) : Prop :=
  ∀ agent prefixCIDR,
    d.Collected pg agent prefixCIDR ↔ Got d.scan.tasks.rows jobID agent prefixCIDR

/-- One more in the map is one more collected. -/
theorem collected_put (hplain : PlainUUIDs pg) {d : JobDraft}
    {p : ScheduledPrefix} {agent : UUID} {prefixCIDR : Cidr} (huuid : pg.uuid p.agentID = some agent)
    (hcidr : pg.cidr p.prefixText = some prefixCIDR) (agent' : UUID) (prefixCIDR' : Cidr) :
    JobDraft.Collected pg { d with scheduledPrefixes := d.scheduledPrefixes.put p } agent'
        prefixCIDR' ↔
      d.Collected pg agent' prefixCIDR' ∨ (agent' = agent ∧ prefixCIDR' = prefixCIDR) := by
  constructor
  · rintro ⟨q, hq, huuid', hcidr'⟩
    rcases Table.mem_put.mp hq with rfl | ⟨hold, -⟩
    · rw [huuid] at huuid'
      rw [hcidr] at hcidr'
      exact Or.inr ⟨(Option.some.inj huuid').symm, (Option.some.inj hcidr').symm⟩
    · exact Or.inl ⟨q, hold, huuid', hcidr'⟩
  · rintro (⟨q, hq, huuid', hcidr'⟩ | ⟨rfl, rfl⟩)
    · by_cases hkey : q.key = p.key
      · -- the same text, so the same prefix of the same agent
        have heq : q = p := ScheduledPrefix.eq_of_key (hplain _ _ huuid') (hplain _ _ huuid) hkey
        exact ⟨p, Table.mem_put_self, heq ▸ huuid', heq ▸ hcidr'⟩
      · exact ⟨q, Table.mem_put.mpr (Or.inr ⟨hq, hkey⟩), huuid', hcidr'⟩
    · exact ⟨p, Table.mem_put_self, huuid, hcidr⟩

theorem got_add {d : Draft} (hunused : d.tasks.find? d.taskSeq = none) {agent agent' : UUID}
    {targetIP : Inet} {targetPrefix : Option Cidr} {prefixCIDR : Cidr} :
    Got (d.add jobID agent targetIP targetPrefix now).tasks.rows jobID agent' prefixCIDR ↔
      Got d.tasks.rows jobID agent' prefixCIDR ∨
        (agent' = agent ∧ some prefixCIDR = targetPrefix) := by
  have hrows := Table.rows_put_new
    (r := newTask d.taskSeq jobID agent targetIP targetPrefix now) hunused
  unfold Got
  dsimp only [Draft.add]
  rw [hrows]
  simp only [List.mem_append, List.mem_singleton, or_and_right, exists_or, exists_eq_left]
  simp [newTask, eq_comm]

theorem JobDraft.Marks.insertTarget (hplain : PlainUUIDs pg) (hleague : input.samplingMode = "league")
    {d : JobDraft} (h : d.Marks pg jobID) (agentID : String) (target : ScanTarget) :
    (d.insertTarget pg agents s now jobID input agentID target).Marks pg jobID := by
  intro agent' prefixCIDR'
  rw [scan_insertTarget]
  unfold JobDraft.insertTarget
  rcases insertTarget_tasks pg agents s now jobID input agentID d.scan target with
    ⟨htasks, hcount⟩ | ⟨agent, targetIP, targetPrefix, huuid, hip, hcidr, hunused, hadd⟩
  · -- no row affected: nothing is collected
    rw [htasks, ← h agent' prefixCIDR']
    split
    · rfl
    split
    · rfl
    dsimp only
    split
    · rfl
    · rw [if_pos hcount]
      rfl
  · -- a row more, under the prefix that is collected
    have hcount : (d.scan.insertTarget pg agents s.scan now jobID input agentID target).inserted ≠
        d.scan.inserted := by
      rw [hadd]
      exact Nat.succ_ne_self _
    have hruns : ¬ d.scan.failure ≠ none ∧ target.targetIP ≠ "" := by
      refine ⟨fun hfailed => hcount ?_, fun hempty => hcount ?_⟩
      · rw [Draft.insertTarget, if_pos hfailed]
      · rw [Draft.insertTarget, if_pos hempty, ite_self]
    rw [if_neg hruns.1, if_neg hruns.2, hip]
    dsimp only
    rw [if_neg hcount, hadd, got_add hunused, ← h agent' prefixCIDR']
    by_cases hempty : target.prefixCIDR = ""
    · -- a task without a prefix
      rw [if_neg fun hboth => hboth.2 hempty]
      have hnone : targetPrefix = none := by
        rw [nullableCidr, if_pos hempty] at hcidr
        exact (Option.some.inj hcidr).symm
      rw [hnone]
      exact (or_iff_left fun hboth => Option.some_ne_none _ hboth.2).symm
    · rw [if_pos ⟨hleague, hempty⟩]
      obtain ⟨hread, hsome⟩ := cidr_of_nullable hcidr hempty
      obtain ⟨prefixCIDR, rfl⟩ := Option.ne_none_iff_exists'.mp hsome
      have hput := collected_put hplain (d := d) (p := ⟨agentID, target.prefixCIDR⟩) huuid hread
        agent' prefixCIDR'
      rw [Option.some.injEq]
      exact hput

theorem JobDraft.marks (hplain : PlainUUIDs pg) (hleague : input.samplingMode = "league")
    (hnone : ∀ task ∈ s.scan.tasks.rows, task.jobID ≠ jobID)
    (agentTargets : List AgentScanTargets) :
    (agentTargets.foldl (JobDraft.insertAgent pg agents s now jobID input) s.draft).Marks pg jobID :=
  JobDraft.induct (fun _ _ h => h)
    (fun _ agentID target h => h.insertTarget hplain hleague agentID target) _ fun _ _ =>
      ⟨fun ⟨_, hp, _⟩ => absurd hp List.not_mem_nil,
        fun ⟨task, htask, hjob, _⟩ => absurd hjob (hnone task htask)⟩

/-! ## The updates

One `UPDATE` for each collected prefix, with the key of the request's configuration. They
commute, being for different entries or the same mark, and so the order in which the map is
ranged over does not matter. -/

/-- One of the prefixes is that of the entry. -/
def Selected (pg : Postgres) (input : CreateScanJobRequest) (selected : List ScheduledPrefix)
    (k : LeagueKey) : Prop :=
  configures input k = true ∧ ∃ p ∈ selected,
    pg.uuid p.agentID = some k.agentID ∧ pg.cidr p.prefixText = some k.prefixCIDR

theorem markScheduled_find? {p : ScheduledPrefix}
    {entries entries' : Table LeagueKey LeagueRow LeagueRow.key}
    (h : markScheduled pg input now entries p = .ok entries') (k : LeagueKey) :
    (Selected pg input [p] k → entries'.find? k = (entries.find? k).map (scheduleEntry now)) ∧
      (¬ Selected pg input [p] k → entries'.find? k = entries.find? k) := by
  unfold markScheduled at h
  split at h
  · rename_i agent prefixCIDR huuid hcidr
    cases h
    have hiff : Selected pg input [p] k ↔ (decide (k.agentID = agent) &&
        decide (k.prefixCIDR = prefixCIDR) && configures input k) = true := by
      simp only [Selected, List.mem_singleton, exists_eq_left, huuid, hcidr, Option.some.injEq,
        Bool.and_eq_true, decide_eq_true_eq]
      constructor
      · rintro ⟨hconfigures, rfl, rfl⟩
        exact ⟨⟨rfl, rfl⟩, hconfigures⟩
      · rintro ⟨⟨rfl, rfl⟩, hconfigures⟩
        exact ⟨hconfigures, rfl, rfl⟩
    rw [Table.find?_updateWhere, hiff]
    cases hfind : entries.find? k with
    | none => exact ⟨fun _ => rfl, fun _ => rfl⟩
    | some e =>
      have he : e.key = k := Table.key_of_find? hfind
      rw [Option.map_some, Option.map_some, he]
      exact ⟨fun hyes => by rw [if_pos hyes], fun hno => by rw [if_neg hno]⟩
  · cases h

/-- However many updates select it, an entry is marked once. -/
theorem foldlM_markScheduled {selected : List ScheduledPrefix}
    {entries entries' : Table LeagueKey LeagueRow LeagueRow.key}
    (h : selected.foldlM (markScheduled pg input now) entries = .ok entries') (k : LeagueKey) :
    (Selected pg input selected k → entries'.find? k = (entries.find? k).map (scheduleEntry now)) ∧
      (¬ Selected pg input selected k → entries'.find? k = entries.find? k) := by
  induction selected generalizing entries with
  | nil =>
    cases h
    exact ⟨fun ⟨_, _, hp, _⟩ => absurd hp List.not_mem_nil, fun _ => rfl⟩
  | cons p selected ih =>
    rw [List.foldlM_cons] at h
    obtain ⟨entries₁, hone, h⟩ := bind_eq_ok h
    have hcons : Selected pg input (p :: selected) k ↔
        Selected pg input [p] k ∨ Selected pg input selected k := by
      simp only [Selected, List.mem_cons, List.not_mem_nil, or_false, exists_eq_left, or_and_right,
        exists_or]
      rw [and_or_left]
    obtain ⟨hyes, hno⟩ := markScheduled_find? hone k
    obtain ⟨hyes', hno'⟩ := ih h
    rw [hcons]
    by_cases hp : Selected pg input [p] k
    · refine ⟨fun _ => ?_, fun hneither => absurd (Or.inl hp) hneither⟩
      by_cases hrest : Selected pg input selected k
      · rw [hyes' hrest, hyes hp, Option.map_map]
        rfl
      · rw [hno' hrest, hyes hp]
    · refine ⟨fun hor => ?_, fun hneither => ?_⟩
      · rw [hyes' (hor.resolve_left hp), hno hp]
      · rw [hno' fun hrest => hneither (Or.inr hrest), hno hp]

end Marks

/-! ## Due entries

`League.due` is asked of the entry a plan holds, and the mark is in the row. `Shows` has the
two times in their two units, so that being due can be read off the row and the clock. -/

/-- The entry is what a plan holds of the row. -/
structure Shows (entry : PrefixLeagueEntry) (e : LeagueRow) : Prop where
  active : entry.active = e.active
  tier : entry.tier = e.tier
  lastScheduledAt : entry.lastScheduledAt = e.lastScheduledAt.map goTime

theorem active_of_due {entry : PrefixLeagueEntry} {t : Time} {force : Bool}
    (h : due entry t force = true) : entry.active = true := by
  unfold due at h
  cases hactive : entry.active with
  | false => simp [hactive] at h
  | true => rfl

theorem not_due_of_scheduled {entry : PrefixLeagueEntry} {e : LeagueRow} {now : Timestamp}
    (hshows : Shows entry e) (hscheduled : e.lastScheduledAt = some now) {t : Time}
    (ht : t < goTime now + intervalForTier e.tier) : due entry t false = false := by
  have hlast : entry.lastScheduledAt = some (goTime now) := by
    rw [hshows.lastScheduledAt, hscheduled]
    rfl
  unfold due
  rw [hlast, hshows.tier]
  cases entry.active with
  | false => rfl
  | true =>
    have hlater : goTime now + intervalForTier e.tier > t := ht
    simp [hlater]

/-- What is due stays due, until the row is marked, moved or deactivated. -/
theorem due_of_due {entry entry' : PrefixLeagueEntry} {e e' : LeagueRow} {t t' : Time} {force : Bool}
    (hshows : Shows entry e) (hshows' : Shows entry' e') (hdue : due entry t force = true)
    (hactive : e'.active = true) (htier : e'.tier = e.tier)
    (hlast : e'.lastScheduledAt = e.lastScheduledAt) (ht : t ≤ t') : due entry' t' force = true := by
  have hlast' : entry'.lastScheduledAt = entry.lastScheduledAt := by
    rw [hshows'.lastScheduledAt, hshows.lastScheduledAt, hlast]
  have htier' : entry'.tier = entry.tier := hshows'.tier.trans (htier.trans hshows.tier.symm)
  have hactive' : entry'.active = true := hshows'.active.trans hactive
  unfold due at hdue ⊢
  rw [hlast', htier', hactive']
  cases hscheduled : entry.lastScheduledAt with
  | none => cases force <;> rfl
  | some scheduled =>
    cases force with
    | true => rfl
    | false =>
      rw [hscheduled] at hdue
      cases hentry : entry.active with
      | false => simp [hentry] at hdue
      | true =>
        have hpast : ¬ scheduled + intervalForTier entry.tier > t := by
          simpa [hentry] using hdue
        have hstill : ¬ scheduled + intervalForTier entry.tier > t' := fun hlater =>
          hpast (Int.lt_of_le_of_lt ht hlater)
        simp [hstill]

/-! ## The jobs

Both directions for a committed job: an entry whose key has a task is marked with the time
of the job and is not due before its interval is over, any other is untouched. -/

theorem Planned.lastScheduledAt {server : PlanServer} {input : LeagueRequest}
    {agentIDs : List String} {now : Timestamp} {prefixes : List ModelPrefix} {s s' : JobStore}
    (h : Planned server input agentIDs now prefixes s s') (k : LeagueKey) :
    (s'.entries.find? k).bind LeagueRow.lastScheduledAt =
      (s.entries.find? k).bind LeagueRow.lastScheduledAt := by
  by_cases hplan : inPlan server input agentIDs k = true
  · by_cases hpool : InPool server input.includeIPv6 prefixes k
    · rw [h.listed k hplan hpool]
      cases s.entries.find? k <;> rfl
    · rw [h.unlisted k hplan hpool]
      cases s.entries.find? k <;> rfl
  · rw [h.outside k (eq_false_of_ne_true hplan)]

/-- The updates of a job that succeeds: what has a task is marked, and nothing else. -/
theorem Succeeds.marked {pg : Postgres} {agents : Agents} {s : JobStore} {now : Timestamp}
    {jobID : UUID} {input : CreateScanJobRequest} {agentTargets : List AgentScanTargets}
    {d : JobDraft} {range : AnyOrder ScheduledPrefix}
    {entries : Table LeagueKey LeagueRow LeagueRow.key}
    (h : Succeeds pg agents s now jobID input agentTargets d) (hplain : PlainUUIDs pg)
    (hready : RecheckReady pg s.scan) (hleague : input.samplingMode = "league")
    (hmarked : (range.items d.scheduledPrefixes.rows).foldlM (markScheduled pg input now)
      s.entries = .ok entries) (k : LeagueKey) :
    ((configures input k = true ∧ Got d.scan.tasks.rows jobID k.agentID k.prefixCIDR) →
        entries.find? k = (s.entries.find? k).map (scheduleEntry now)) ∧
      (¬ (configures input k = true ∧ Got d.scan.tasks.rows jobID k.agentID k.prefixCIDR) →
        entries.find? k = s.entries.find? k) := by
  -- no task has the id of the job before it is made
  have hnone : ∀ task ∈ s.scan.tasks.rows, task.jobID ≠ jobID := by
    intro task htask heq
    obtain ⟨owner, howner, hid⟩ := hready.owner task htask
    exact Table.find?_eq_none.mp h.unused owner howner (hid.trans heq)
  have hmarks : d.Marks pg jobID := by
    rw [← h.draft]
    exact JobDraft.marks hplain hleague hnone agentTargets
  have hselected : Selected pg input (range.items d.scheduledPrefixes.rows) k ↔
      configures input k = true ∧ Got d.scan.tasks.rows jobID k.agentID k.prefixCIDR := by
    rw [← hmarks k.agentID k.prefixCIDR]
    simp only [Selected, JobDraft.Collected, (range.perm _).mem_iff]
  rw [← hselected]
  exact foldlM_markScheduled hmarked k

/-- The job is committed, in league mode, with a task for the entry's agent under its prefix. -/
def Takes (input : CreateScanJobRequest) (jobID : UUID) (k : LeagueKey)
    (result : Except StoreError ScanJob × JobStore) : Prop :=
  result.1.isOk = true ∧ input.samplingMode = "league" ∧ configures input k = true ∧
    Got result.2.scan.tasks.rows jobID k.agentID k.prefixCIDR

instance (input : CreateScanJobRequest) (jobID : UUID) (k : LeagueKey)
    (result : Except StoreError ScanJob × JobStore) : Decidable (Takes input jobID k result) :=
  inferInstanceAs (Decidable (_ ∧ _ ∧ _ ∧ _))

/-- Outside of league mode nothing is collected. -/
theorem JobDraft.collects_none {pg : Postgres} {agents : Agents} {s : JobStore} {now : Timestamp}
    {jobID : UUID} {input : CreateScanJobRequest} (hleague : input.samplingMode ≠ "league")
    (agentTargets : List AgentScanTargets) :
    (agentTargets.foldl (JobDraft.insertAgent pg agents s now jobID input)
      s.draft).scheduledPrefixes.rows = [] := by
  refine JobDraft.induct (P := fun d => d.scheduledPrefixes.rows = []) (fun _ _ h => h) ?_ _ rfl
  intro d agentID target h
  unfold JobDraft.insertTarget
  split
  · exact h
  split
  · exact h
  dsimp only
  split
  · exact h
  split
  · exact h
  · rw [if_neg fun hboth => hleague hboth.1]
    exact h

/-- What a job makes of an entry, whatever becomes of it. -/
theorem createScanJob_entries (pg : Postgres) (agents : Agents) (s : JobStore) (now : Timestamp)
    (jobID : UUID) (input : CreateScanJobRequest) (hplain : PlainUUIDs pg)
    (hready : RecheckReady pg s.scan) (range : AnyOrder ScheduledPrefix)
    (agentTargets : List AgentScanTargets) (k : LeagueKey) :
    (createScanJob pg agents s now jobID input range agentTargets).2.entries.find? k =
      if Takes input jobID k (createScanJob pg agents s now jobID input range agentTargets) then
        (s.entries.find? k).map (scheduleEntry now)
      else s.entries.find? k := by
  rcases createScanJob_cases pg agents s now jobID input range agentTargets with
    ⟨d, entries, hsucceeds, hmarked, hok⟩ | ⟨-, error, n, herror⟩
  · rw [hok]
    by_cases hleague : input.samplingMode = "league"
    · obtain ⟨hyes, hno⟩ := hsucceeds.marked hplain hready hleague hmarked k
      split
      next htakes => exact hyes htakes.2.2
      next hnot => exact hno fun hboth => hnot ⟨rfl, hleague, hboth⟩
    · rw [if_neg fun htakes => hleague htakes.2.1]
      have hnone : d.scheduledPrefixes.rows = [] := by
        rw [← hsucceeds.draft]
        exact JobDraft.collects_none hleague agentTargets
      rw [hnone, (List.perm_nil.mp (range.perm []) : range.items [] = [])] at hmarked
      cases hmarked
      rfl
  · rw [herror]
    exact (if_neg fun htakes => Bool.false_ne_true htakes.1).symm

/-- **Which entries a job schedules.** A job that is committed marks the entries with a task, a job
that fails none; a plan does not touch the times of the last job. A marked entry has the time of the
job, and is not due for the interval of its tier; one that is not marked is as due as it was, and
stays due. -/
theorem createScanJob_schedules (server : PlanServer) (agents : Agents) (s : JobStore)
    (now : Timestamp) (jobID : UUID) (input : CreateScanJobRequest)
    (hplain : PlainUUIDs server.toPostgres)
    (hready : RecheckReady server.toPostgres s.scan) (hleague : input.samplingMode = "league")
    (range : AnyOrder ScheduledPrefix) (agentTargets : List AgentScanTargets) :
    (∀ job s', createScanJob server.toPostgres agents s now jobID input range agentTargets =
        (.ok job, s') → ∀ k,
      ((configures input k = true ∧ Got s'.scan.tasks.rows jobID k.agentID k.prefixCIDR) →
        s'.entries.find? k = (s.entries.find? k).map (scheduleEntry now) ∧
        ∀ e', s'.entries.find? k = some e' → e'.lastScheduledAt = some now ∧
          ∀ entry t, Shows entry e' → t < goTime now + intervalForTier e'.tier →
            due entry t false = false) ∧
      (¬ (configures input k = true ∧ Got s'.scan.tasks.rows jobID k.agentID k.prefixCIDR) →
        s'.entries.find? k = s.entries.find? k ∧
        ∀ e e', s.entries.find? k = some e → s'.entries.find? k = some e' →
          ∀ entry entry' t t' force, Shows entry e → Shows entry' e' → due entry t force = true →
            t ≤ t' → due entry' t' force = true)) ∧
    (∀ error s', createScanJob server.toPostgres agents s now jobID input range agentTargets =
      (.error error, s') → s'.entries = s.entries) ∧
    (∀ e entry t, e.lastScheduledAt = some now → Shows entry e →
      t < goTime now + intervalForTier e.tier → due entry t false = false) ∧
    (∀ e e' entry entry' t t' force, Shows entry e → Shows entry' e' → due entry t force = true →
      e'.active = true → e'.tier = e.tier → e'.lastScheduledAt = e.lastScheduledAt → t ≤ t' →
      due entry' t' force = true) ∧
    (∀ (plan : LeagueRequest) agentIDs queries rt prefixes seed force fuel, Canonical server agentIDs →
      ∀ k, ((planLeagueTargets server plan agentIDs now queries rt agents s prefixes seed force
          fuel).2.entries.find? k).bind LeagueRow.lastScheduledAt =
        (s.entries.find? k).bind LeagueRow.lastScheduledAt) := by
  refine ⟨fun job s' hrun k => ⟨fun hgot => ?_, fun hnot => ?_⟩, fun error s' hrun => ?_,
    fun e entry t hscheduled hshows ht => not_due_of_scheduled hshows hscheduled ht,
    fun e e' entry entry' t t' force hshows hshows' hdue hactive htier hlast ht =>
      due_of_due hshows hshows' hdue hactive htier hlast ht, ?_⟩
  · have hentries := createScanJob_entries server.toPostgres agents s now jobID input hplain hready
      range agentTargets k
    rw [hrun, if_pos ⟨rfl, hleague, hgot⟩] at hentries
    refine ⟨hentries, fun e' he' => ?_⟩
    obtain ⟨e, -, rfl⟩ := Option.map_eq_some_iff.mp (hentries.symm.trans he')
    exact ⟨rfl, fun entry t hshows ht => not_due_of_scheduled hshows rfl ht⟩
  · have hentries := createScanJob_entries server.toPostgres agents s now jobID input hplain hready
      range agentTargets k
    rw [hrun, if_neg fun htakes => hnot htakes.2.2] at hentries
    refine ⟨hentries, fun e e' he he' entry entry' t t' force hshows hshows' hdue ht => ?_⟩
    have hsame : e' = e := Option.some_inj.mp (he'.symm.trans (hentries.trans he))
    subst hsame
    exact due_of_due hshows hshows' hdue (hshows.active.symm.trans (active_of_due hdue)) rfl rfl ht
  · have herror := createScanJob_error (congrArg Prod.fst hrun)
    obtain ⟨n, hstore⟩ := herror
    rw [hrun] at hstore
    cases hstore
    rfl
  · intro plan agentIDs queries rt prefixes seed force fuel hcanonical k
    rcases planLeagueTargets_planned hcanonical queries rt s prefixes seed force fuel with
      ⟨_, hrun⟩ | ⟨_, s', hrun, hplanned⟩
    · rw [hrun]
    · rw [hrun]
      exact hplanned.lastScheduledAt k

/-! ## A job of two prefixes, one of them blocked -/

/-- A server that knows one agent, one network and the addresses of its block it is asked for. -/
def oneNetwork : PlanServer where
  uuid := fun text =>
    if text = oneAgent then some 0x6f9619ff8b864011b42d00c04fc964ff
    else if '|' ∈ text.toList then none
    else some text.length
  inet := fun text => some ⟨text, none⟩
  cidr := fun text => if text = "104.16.0.0/24" then some ⟨"104.16.0.0/24"⟩ else none
  inet_host := by
    intro text ip h
    cases h
    rfl
  cidr_text := by
    intro text c h
    split at h
    · cases h
      exact ⟨if_pos rfl, by decide⟩
    · cases h
  cidrOrder := (SortOrder.ofLinear String).on Cidr.text
  inetOrder := (SortOrder.ofLinear String).on Inet.host
  avgNumeric := fun values => values.foldl (· + ·) 0 / values.length
  avgDouble := fun values => values.foldl (· + ·) 0 / values.length
  percentileCont := Dashboard.interpolated
  uuidText := fun id =>
    if id = 0x6f9619ff8b864011b42d00c04fc964ff then oneAgent
    else String.ofList (List.replicate id 'x')
  uuid_text := by
    intro id
    by_cases hid : id = 0x6f9619ff8b864011b42d00c04fc964ff
    · simp [hid]
    · have hne : String.ofList (List.replicate id 'x') ≠ oneAgent := by
        intro heq
        have hmem : '6' ∈ List.replicate id 'x' := by
          rw [← String.toList_ofList (l := List.replicate id 'x'), heq]
          decide
        exact absurd (List.eq_of_mem_replicate hmem) (by decide)
      simp [hid, hne]
  collation := SortOrder.ofLinear String

def oneProbe : LeagueRequest := { oneTarget with
  samplingMode := "league", includeIPv6 := false, targetCount := 4 }

def oneKey : LeagueKey :=
  ⟨0x6f9619ff8b864011b42d00c04fc964ff, ⟨"104.16.0.0/24"⟩, "https", "cloudflare.com",
    "/cdn-cgi/trace", 443, 3, 5000⟩

theorem plainUUIDs_oneNetwork : PlainUUIDs oneNetwork.toPostgres := by
  intro text id h
  change (if text = oneAgent then _ else _) = some id at h
  split at h
  · rename_i htext
    rw [htext]
    decide +kernel
  · split at h
    · cases h
    · assumption

/-- The server, but for the networks it reads. -/
def PlanServer.reading (server : PlanServer) (cidr : String → Option Cidr)
    (cidr_text : ∀ text c, cidr text = some c → cidr c.text = some c ∧ c.text ≠ "") : PlanServer :=
  { server with cidr := cidr, cidr_text := cidr_text }

def twoCidrs (text : String) : Option Cidr :=
  if text ∈ ["104.16.0.0/24", "104.16.1.0/24"] then some ⟨text⟩ else none

theorem twoCidrs_text (text : String) (c : Cidr) (h : twoCidrs text = some c) :
    twoCidrs c.text = some c ∧ c.text ≠ "" := by
  unfold twoCidrs at h
  split at h
  next hmem =>
    cases h
    refine ⟨if_pos hmem, ?_⟩
    rcases List.mem_pair.mp hmem with rfl | rfl <;> decide
  next => cases h

/-- It knows a second network. -/
def twoNetworks : PlanServer := oneNetwork.reading twoCidrs twoCidrs_text

theorem plainUUIDs_twoNetworks : PlainUUIDs twoNetworks.toPostgres := plainUUIDs_oneNetwork

def blockedKey : LeagueKey := { oneKey with prefixCIDR := ⟨"104.16.1.0/24"⟩ }

/-- An entry that was scheduled a while ago. -/
def scheduledOnce : LeagueRow := { newEntry 0 oneKey with
  tier := .challenger, badStreak := 1, lastScheduledAt := some 5 }

/-- An entry that never was. -/
def neverScheduled : LeagueRow := newEntry 0 blockedKey

/-- The agent has the address of the second network on its blacklist. -/
def blockedAddress : BlacklistEntry where
  agentID := 0x6f9619ff8b864011b42d00c04fc964ff
  targetIP := ⟨"104.16.1.1", none⟩
  reason := "unavailable"
  failureCount := 1
  blockedAt := 0
  retryAfter := 1000
  updatedAt := 0

def twoEntries : JobStore where
  scan := { ScanStore.empty with blacklist := ⟨[blockedAddress], List.nodup_singleton _⟩ }
  ipTargets := .empty
  entries := ⟨[scheduledOnce, neverScheduled], by decide⟩

/-- One address of each network. -/
def networkTargets : List AgentScanTargets :=
  [⟨oneAgent, [⟨"104.16.0.1", "104.16.0.0/24"⟩, ⟨"104.16.1.1", "104.16.1.0/24"⟩]⟩]

/-- The entry with a task is marked and not due; the one that is blocked gets none and is due. -/
theorem createScanJob_schedules_blocked :
    ∃ job s', createScanJob twoNetworks.toPostgres (fun _ => some "agent") twoEntries 60 7
        oneProbe.toCreateScanJobRequest .unchanged networkTargets = (.ok job, s') ∧
      s'.entries.find? oneKey = some (scheduleEntry 60 scheduledOnce) ∧
      (∀ entry, Shows entry (scheduleEntry 60 scheduledOnce) →
        due entry (goTime 60) false = false) ∧
      s'.entries.find? blockedKey = some neverScheduled ∧
      ∀ entry, Shows entry neverScheduled → due entry (goTime 60) false = true := by
  have hok : (createScanJob twoNetworks.toPostgres (fun _ => some "agent") twoEntries 60 7
      oneProbe.toCreateScanJobRequest .unchanged networkTargets).1.isOk = true := by
    decide +kernel
  have hgot : Got (createScanJob twoNetworks.toPostgres (fun _ => some "agent") twoEntries 60 7
      oneProbe.toCreateScanJobRequest .unchanged networkTargets).2.scan.tasks.rows 7
      oneKey.agentID oneKey.prefixCIDR := by
    decide +kernel
  have hnot : ¬ Got (createScanJob twoNetworks.toPostgres (fun _ => some "agent") twoEntries 60 7
      oneProbe.toCreateScanJobRequest .unchanged networkTargets).2.scan.tasks.rows 7
      blockedKey.agentID blockedKey.prefixCIDR := by
    decide +kernel
  have hone : twoEntries.entries.find? oneKey = some scheduledOnce := by decide +kernel
  have hblocked : twoEntries.entries.find? blockedKey = some neverScheduled := by decide +kernel
  obtain ⟨hmarks, -⟩ := createScanJob_schedules twoNetworks (fun _ => some "agent") twoEntries 60 7
    oneProbe.toCreateScanJobRequest plainUUIDs_twoNetworks
    ⟨fun _ h => absurd h List.not_mem_nil, fun _ h => absurd h List.not_mem_nil⟩ rfl
    .unchanged networkTargets
  generalize createScanJob twoNetworks.toPostgres (fun _ => some "agent") twoEntries 60 7
    oneProbe.toCreateScanJobRequest .unchanged networkTargets = result at *
  obtain ⟨error | job, s'⟩ := result
  · cases hok
  obtain ⟨hmarked, hinterval⟩ := (hmarks job s' rfl oneKey).1 ⟨by decide +kernel, hgot⟩
  obtain ⟨hsame, hdue⟩ := (hmarks job s' rfl blockedKey).2 fun hboth => hnot hboth.2
  rw [hone] at hmarked
  rw [hblocked] at hsame
  refine ⟨job, s', rfl, hmarked, fun entry hshows => ?_, hsame, fun entry hshows => ?_⟩
  · exact (hinterval _ hmarked).2 entry _ hshows (by decide)
  · refine hdue _ _ hblocked hsame entry entry _ _ false hshows hshows ?_ (le_refl (goTime 60))
    simp [due, hshows.active, hshows.lastScheduledAt, neverScheduled, newEntry]

end Cfscan.Jobs
