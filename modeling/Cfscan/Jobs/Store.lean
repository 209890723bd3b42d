import Cfscan.League.Dashboard
import Cfscan.Scan.Creation

/-!
# `CreateScanJob`, with all the tables it writes

Besides the job and its tasks, `CreateScanJob` upserts every address it is given into `ip_targets`
and, in league mode, sets `last_scheduled_at` of the prefixes that got a task. Here the call is
modelled with these writes. `createScanJob_scan`: of the scan tables it makes what the model
without them makes, since the writes it adds cannot fail where the others have not.

The prefixes to mark are collected in a Go map, under the agent and the prefix joined by `"|"`,
and the map is ranged over in any order.

A target goes through three statements, the address, the blacklist and the task, and what the later
ones do hangs on how many rows the earlier ones affected. The loop is walked once, by
`JobDraft.induct`, and the facts about a draft are proved over it.

The call is one transaction; `rolledBack` is what an error leaves, the tables as they were but for
the sequence of task ids, which does not go back. **Where** the targets come from is not here
(`Scans.create`), and neither is what agents do with them.
-/

set_option autoImplicit false

namespace Cfscan.Jobs

open Cfscan.Lib Cfscan.Store Cfscan.Scan
open Cfscan.League.Dashboard (LeagueKey LeagueRow)

/-! ## The tables -/

/-- A row of `ip_targets`, without its `id`. -/
structure IPTarget where
  ip : Inet
  source : String
  enabled : Bool
  createdAt : Timestamp
  updatedAt : Timestamp
deriving DecidableEq, Repr

structure JobStore where
  scan : ScanStore
  ipTargets : Table Inet IPTarget IPTarget.ip
  entries : Table LeagueKey LeagueRow LeagueRow.key

/-- `INSERT INTO ip_targets … ON CONFLICT (ip) DO UPDATE`. -/
def upsertTarget (now : Timestamp) (ip : Inet) (ipTargets : Table Inet IPTarget IPTarget.ip) :
    Table Inet IPTarget IPTarget.ip :=
  match ipTargets.find? ip with
  | some row => ipTargets.put { row with enabled := true, updatedAt := now }
  | none => ipTargets.put ⟨ip, "cloudflare_union", true, now, now⟩

/-! ## The map of scheduled prefixes -/

structure ScheduledPrefix where
  agentID : String
  prefixText : String
deriving DecidableEq, Repr

/-- The key in the map. -/
def ScheduledPrefix.key (scheduled : ScheduledPrefix) : String :=
  scheduled.agentID ++ "|" ++ scheduled.prefixText

abbrev ScheduledPrefixes := Table String ScheduledPrefix ScheduledPrefix.key

/-- The order of what has none: a map that is ranged over, a query without `ORDER BY`. -/
structure AnyOrder (α : Type) where
  items : List α → List α
  perm : ∀ l, (items l).Perm l

/-- The order the rows have. -/
def AnyOrder.unchanged {α : Type} : AnyOrder α := ⟨id, List.Perm.refl⟩

/-- The configuration a job probes with, in the columns of `prefix_league_entries`. -/
def configures (input : CreateScanJobRequest) (k : LeagueKey) : Bool :=
  decide (k.scheme = input.scheme) && decide (k.hostname = input.hostname) &&
    decide (k.path = input.path) && decide (k.port = input.port) &&
    decide (k.attempts = input.attempts) && decide (k.timeoutMS = input.timeoutMS)

def scheduleEntry (now : Timestamp) (e : LeagueRow) : LeagueRow :=
  { e with lastScheduledAt := some now, updatedAt := now }

@[simp] theorem key_scheduleEntry (now : Timestamp) (e : LeagueRow) :
    (scheduleEntry now e).key = e.key := rfl

/-- `UPDATE prefix_league_entries SET last_scheduled_at = NOW()`. -/
def markScheduled (pg : Postgres) (input : CreateScanJobRequest) (now : Timestamp)
    (entries : Table LeagueKey LeagueRow LeagueRow.key) (selected : ScheduledPrefix) :
    Except StoreError (Table LeagueKey LeagueRow LeagueRow.key) :=
  match pg.uuid selected.agentID, pg.cidr selected.prefixText with
  | some agent, some prefixCIDR =>
    .ok (entries.updateWhere
      (fun e => decide (e.key.agentID = agent) && decide (e.key.prefixCIDR = prefixCIDR) &&
        configures input e.key)
      (scheduleEntry now) (key_scheduleEntry now))
  | _, _ => .error (.db "mark league prefix scheduled" .castFailed)

/-! ## The call -/

/-- What the transaction has made of the tables, the job row apart. -/
structure JobDraft where
  scan : Draft
  ipTargets : Table Inet IPTarget IPTarget.ip
  scheduledPrefixes : ScheduledPrefixes

section Call

variable (pg : Postgres) (agents : Agents) (s : JobStore) (now : Timestamp) (jobID : UUID)
  (input : CreateScanJobRequest)

/-- One target of one agent. -/
def JobDraft.insertTarget (agentID : String) (d : JobDraft) (target : ScanTarget) : JobDraft :=
  if d.scan.failure ≠ none then d
  else if target.targetIP = "" then d
  else
    let scan := d.scan.insertTarget pg agents s.scan now jobID input agentID target
    match pg.inet target.targetIP with
    | none => { d with scan := scan }
    | some targetIP =>
      let upserted : JobDraft :=
        { d with scan := scan, ipTargets := upsertTarget now targetIP d.ipTargets }
      -- `tag.RowsAffected() == 0`, or the insert has failed
      if scan.inserted = d.scan.inserted then upserted
      else if input.samplingMode = "league" ∧ target.prefixCIDR ≠ "" then
        { upserted with
          scheduledPrefixes := d.scheduledPrefixes.put ⟨agentID, target.prefixCIDR⟩ }
      else upserted

/-- The targets of one agent. -/
def JobDraft.insertAgent (d : JobDraft) (agentSet : AgentScanTargets) : JobDraft :=
  if d.scan.failure ≠ none then d
  else if agentSet.agentID = "" then
    { d with scan :=
      { d.scan with failure := some (.message "scan target set is missing agent_id") } }
  else
    agentSet.targets.foldl (JobDraft.insertTarget pg agents s now jobID input agentSet.agentID) d

def JobStore.draft (s : JobStore) : JobDraft := ⟨s.scan.draft, s.ipTargets, .empty⟩

/-- What a rollback leaves of a draft. -/
def JobStore.rolledBack (s : JobStore) (d : JobDraft) : JobStore :=
  { s with scan := { s.scan with taskSeq := d.scan.taskSeq } }

def createScanJob (range : AnyOrder ScheduledPrefix) (agentTargets : List AgentScanTargets) :
    Except StoreError ScanJob × JobStore :=
  let job := input.job jobID now
  let d := agentTargets.foldl (JobDraft.insertAgent pg agents s now jobID input) s.draft
  if agentTargets = [] then (.error (.message "no scan agents selected"), s)
  else if job.storable = false then (.error (.db "insert scan job" .valueRefused), s)
  else if s.scan.jobs.find? jobID ≠ none then (.error (.db "insert scan job" .uniqueViolation), s)
  else
    match d.scan.failure with
    | some error => (.error error, s.rolledBack d)
    | none =>
      if d.scan.inserted = 0 then
        (.error (.message "no tasks created; all selected targets may be blacklisted"),
          s.rolledBack d)
      else if int4 d.scan.inserted = false then (.error (.db "" .valueRefused), s.rolledBack d)
      else
        match (range.items d.scheduledPrefixes.rows).foldlM (markScheduled pg input now)
          s.entries with
        | .error error => (.error error, s.rolledBack d)
        | .ok entries =>
          (.ok { job with totalTargets := d.scan.inserted },
            { scan :=
                { s.scan with
                  jobs := s.scan.jobs.put { job with totalTargets := d.scan.inserted }
                  tasks := d.scan.tasks
                  taskSeq := d.scan.taskSeq }
              ipTargets := d.ipTargets
              entries := entries })

end Call

/-! ## The scan tables -/

section Scan

variable {pg : Postgres} {agents : Agents} {s : JobStore} {now : Timestamp} {jobID : UUID}
  {input : CreateScanJobRequest}

theorem scan_insertTarget (agentID : String) (d : JobDraft) (target : ScanTarget) :
    (d.insertTarget pg agents s now jobID input agentID target).scan =
      d.scan.insertTarget pg agents s.scan now jobID input agentID target := by
  unfold JobDraft.insertTarget
  split
  next hfailed => rw [Draft.insertTarget, if_pos hfailed]
  next hfailed =>
    split
    next hempty => rw [Draft.insertTarget, if_neg hfailed, if_pos hempty]
    next =>
      dsimp only
      split
      · rfl
      · split
        · rfl
        · split <;> rfl

theorem scan_insertAgent (d : JobDraft) (agentSet : AgentScanTargets) :
    (d.insertAgent pg agents s now jobID input agentSet).scan =
      d.scan.insertAgent pg agents s.scan now jobID input agentSet := by
  unfold JobDraft.insertAgent Draft.insertAgent
  split
  · rfl
  · split
    · rfl
    · exact (List.foldl_hom JobDraft.scan fun d target => (scan_insertTarget _ d target).symm).symm

theorem scan_draft (agentTargets : List AgentScanTargets) :
    (agentTargets.foldl (JobDraft.insertAgent pg agents s now jobID input) s.draft).scan =
      agentTargets.foldl (Draft.insertAgent pg agents s.scan now jobID input) s.scan.draft :=
  (List.foldl_hom JobDraft.scan fun d agentSet => (scan_insertAgent d agentSet).symm).symm

/-- What one target does to the tasks: nothing, or one task more. -/
theorem insertTarget_tasks (pg : Postgres) (agents : Agents) (s : JobStore) (now : Timestamp)
    (jobID : UUID) (input : CreateScanJobRequest) (agentID : String) (d : Draft)
    (target : ScanTarget) :
    ((d.insertTarget pg agents s.scan now jobID input agentID target).tasks = d.tasks ∧
        (d.insertTarget pg agents s.scan now jobID input agentID target).inserted = d.inserted) ∨
      ∃ agent targetIP targetPrefix, pg.uuid agentID = some agent ∧
        pg.inet target.targetIP = some targetIP ∧
        nullableCidr pg target.prefixCIDR = some targetPrefix ∧
        d.tasks.find? d.taskSeq = none ∧
        d.insertTarget pg agents s.scan now jobID input agentID target =
          d.add jobID agent targetIP targetPrefix now := by
  unfold Draft.insertTarget
  split
  · exact Or.inl ⟨rfl, rfl⟩
  split
  · exact Or.inl ⟨rfl, rfl⟩
  split
  · exact Or.inl ⟨rfl, rfl⟩
  rename_i targetIP hip
  split
  · rename_i agent targetPrefix huuid hcidr
    split
    · exact Or.inl ⟨rfl, rfl⟩
    unfold Draft.insertTask
    split
    · exact Or.inl ⟨rfl, rfl⟩
    rename_i hfree
    rw [not_or, not_not] at hfree
    split
    · exact Or.inl ⟨rfl, rfl⟩
    · exact Or.inr ⟨agent, targetIP, targetPrefix, huuid, hip, hcidr, hfree.1, rfl⟩
  · exact Or.inl ⟨rfl, rfl⟩

/-- The prefixes collected have been read by the inserts that collected them. -/
def JobDraft.Read (pg : Postgres) (d : JobDraft) : Prop :=
  ∀ selected ∈ d.scheduledPrefixes.rows,
    pg.uuid selected.agentID ≠ none ∧ pg.cidr selected.prefixText ≠ none

theorem cidr_of_nullable {text : String} {prefixCIDR : Option Cidr}
    (h : nullableCidr pg text = some prefixCIDR) (hne : text ≠ "") :
    pg.cidr text = prefixCIDR ∧ prefixCIDR ≠ none := by
  unfold nullableCidr at h
  rw [if_neg hne] at h
  obtain ⟨c, hc, rfl⟩ := Option.map_eq_some_iff.mp h
  exact ⟨hc, Option.some_ne_none c⟩

theorem JobDraft.Read.insertTarget {d : JobDraft} (h : d.Read pg) (agentID : String)
    (target : ScanTarget) : (d.insertTarget pg agents s now jobID input agentID target).Read pg := by
  unfold JobDraft.insertTarget
  split
  · exact h
  split
  · exact h
  dsimp only
  split
  · exact h
  split
  · exact h
  rename_i hinserted
  split
  · rename_i hleague
    rcases insertTarget_tasks pg agents s now jobID input agentID d.scan target with
      ⟨-, hsame⟩ | ⟨agent, targetIP, targetPrefix, huuid, -, hcidr, -, -⟩
    · exact absurd hsame hinserted
    · intro selected hselected
      rcases Table.mem_put.mp hselected with rfl | ⟨hold, -⟩
      · obtain ⟨hread, hsome⟩ := cidr_of_nullable hcidr hleague.2
        exact ⟨huuid ▸ Option.some_ne_none agent, hread ▸ hsome⟩
      · exact h selected hold
  · exact h

/-- What every target keeps, the call keeps. -/
theorem JobDraft.induct {P : JobDraft → Prop}
    (hfail : ∀ d failure, P d → P { d with scan := { d.scan with failure := failure } })
    (htarget : ∀ d agentID target, P d →
      P (d.insertTarget pg agents s now jobID input agentID target))
    (agentTargets : List AgentScanTargets) {d : JobDraft} (h : P d) :
    P (agentTargets.foldl (JobDraft.insertAgent pg agents s now jobID input) d) := by
  have htargets : ∀ agentID (targets : List ScanTarget) d, P d →
      P (targets.foldl (JobDraft.insertTarget pg agents s now jobID input agentID) d) := by
    intro agentID targets
    induction targets with
    | nil => exact fun _ h => h
    | cons target targets ih => exact fun d h => ih _ (htarget d agentID target h)
  induction agentTargets generalizing d with
  | nil => exact h
  | cons agentSet agentTargets ih =>
    refine ih ?_
    unfold JobDraft.insertAgent
    split
    · exact h
    · split
      · exact hfail d _ h
      · exact htargets _ _ d h

theorem JobDraft.read (agentTargets : List AgentScanTargets) :
    (agentTargets.foldl (JobDraft.insertAgent pg agents s now jobID input) s.draft).Read pg :=
  JobDraft.induct (fun _ _ h => h) (fun _ agentID target h => h.insertTarget agentID target) _
    (fun _ hselected => absurd hselected List.not_mem_nil)

/-- The update of a prefix that has been read does not fail. -/
theorem markScheduled_foldlM (pg : Postgres) (input : CreateScanJobRequest) (now : Timestamp)
    (entries : Table LeagueKey LeagueRow LeagueRow.key) {selected : List ScheduledPrefix}
    (hread : ∀ p ∈ selected, pg.uuid p.agentID ≠ none ∧ pg.cidr p.prefixText ≠ none) :
    ∃ entries', selected.foldlM (markScheduled pg input now) entries = .ok entries' := by
  induction selected generalizing entries with
  | nil => exact ⟨entries, rfl⟩
  | cons p selected ih =>
    obtain ⟨huuid, hcidr⟩ := hread p List.mem_cons_self
    obtain ⟨agent, huuid⟩ := Option.ne_none_iff_exists'.mp huuid
    obtain ⟨prefixCIDR, hcidr⟩ := Option.ne_none_iff_exists'.mp hcidr
    rw [List.foldlM_cons, markScheduled, huuid, hcidr]
    exact ih _ fun q hq => hread q (List.mem_cons_of_mem _ hq)

/-- The drafted tables, with the job row of that many tasks. -/
def JobDraft.commit (s : JobStore) (job : ScanJob) (d : JobDraft)
    (entries : Table LeagueKey LeagueRow LeagueRow.key) : JobStore where
  scan :=
    { s.scan with
      jobs := s.scan.jobs.put { job with totalTargets := d.scan.inserted }
      tasks := d.scan.tasks
      taskSeq := d.scan.taskSeq }
  ipTargets := d.ipTargets
  entries := entries

/-- Nothing stands in the way of the commit. -/
structure Succeeds (pg : Postgres) (agents : Agents) (s : JobStore) (now : Timestamp)
    (jobID : UUID) (input : CreateScanJobRequest) (agentTargets : List AgentScanTargets)
    (d : JobDraft) : Prop where
  draft : agentTargets.foldl (JobDraft.insertAgent pg agents s now jobID input) s.draft = d
  some : agentTargets ≠ []
  storable : (input.job jobID now).storable = true
  unused : s.scan.jobs.find? jobID = none
  failure : d.scan.failure = none
  inserted : d.scan.inserted ≠ 0
  fits : int4 d.scan.inserted = true

/-- The two ends of the call. -/
theorem createScanJob_cases (pg : Postgres) (agents : Agents) (s : JobStore) (now : Timestamp)
    (jobID : UUID) (input : CreateScanJobRequest) (range : AnyOrder ScheduledPrefix)
    (agentTargets : List AgentScanTargets) :
    (∃ d entries, Succeeds pg agents s now jobID input agentTargets d ∧
      (range.items d.scheduledPrefixes.rows).foldlM (markScheduled pg input now) s.entries =
        .ok entries ∧
      createScanJob pg agents s now jobID input range agentTargets =
        (.ok { input.job jobID now with totalTargets := d.scan.inserted },
          d.commit s (input.job jobID now) entries)) ∨
    ((∀ d, ¬ Succeeds pg agents s now jobID input agentTargets d) ∧
      ∃ error n, createScanJob pg agents s now jobID input range agentTargets =
        (.error error, { s with scan := { s.scan with taskSeq := n } })) := by
  have hread : (agentTargets.foldl (JobDraft.insertAgent pg agents s now jobID input) s.draft).Read
      pg := JobDraft.read agentTargets
  unfold createScanJob
  dsimp only
  generalize hd : agentTargets.foldl (JobDraft.insertAgent pg agents s now jobID input) s.draft = d
    at hread
  split
  next hlist => exact Or.inr ⟨fun _ h => h.some hlist, _, s.scan.taskSeq, rfl⟩
  next hlist =>
  split
  next hstorable =>
    exact Or.inr ⟨fun _ h => by simp [h.storable] at hstorable, _, s.scan.taskSeq, rfl⟩
  next hstorable =>
  split
  next hused => exact Or.inr ⟨fun _ h => hused h.unused, _, s.scan.taskSeq, rfl⟩
  next hused =>
  split
  next error hfailure =>
    exact Or.inr ⟨fun d' h => by simpa [← h.draft, hd, hfailure] using h.failure, _, _, rfl⟩
  next hfailure =>
  split
  next hnone => exact Or.inr ⟨fun d' h => h.inserted (by rw [← h.draft, hd, hnone]), _, _, rfl⟩
  next hnone =>
  split
  next hfits =>
    exact Or.inr ⟨fun d' h => by simpa [← h.draft, hd, hfits] using h.fits, _, _, rfl⟩
  next hfits =>
    obtain ⟨entries, hentries⟩ := markScheduled_foldlM pg input now s.entries
      fun p hp => hread p ((range.perm _).mem_iff.mp hp)
    rw [hentries]
    exact Or.inl ⟨d, entries, ⟨hd, hlist, eq_true_of_ne_false hstorable, not_not.mp hused, hfailure,
      hnone, eq_true_of_ne_false hfits⟩, hentries, rfl⟩

/-- Of the scan tables, the call makes what it makes without the tables around them. -/
theorem createScanJob_scan (range : AnyOrder ScheduledPrefix)
    (agentTargets : List AgentScanTargets) :
    (createScanJob pg agents s now jobID input range agentTargets).1 =
        (Scan.createScanJob pg agents s.scan now jobID input agentTargets).1 ∧
      (createScanJob pg agents s now jobID input range agentTargets).2.scan =
        (Scan.createScanJob pg agents s.scan now jobID input agentTargets).2 := by
  have hread : (agentTargets.foldl (JobDraft.insertAgent pg agents s now jobID input) s.draft).Read
      pg := JobDraft.read agentTargets
  unfold createScanJob Scan.createScanJob JobStore.rolledBack
  dsimp only
  rw [← scan_draft]
  generalize agentTargets.foldl (JobDraft.insertAgent pg agents s now jobID input) s.draft = d at hread
  obtain ⟨entries, hentries⟩ := markScheduled_foldlM pg input now s.entries
    fun p hp => hread p ((range.perm _).mem_iff.mp hp)
  rw [hentries]
  obtain ⟨⟨tasks, taskSeq, inserted, failure⟩, ipTargets, scheduledPrefixes⟩ := d
  split
  · exact ⟨rfl, rfl⟩
  split
  · exact ⟨rfl, rfl⟩
  split
  · exact ⟨rfl, rfl⟩
  cases failure with
  | some error => exact ⟨rfl, rfl⟩
  | none =>
    dsimp only
    split
    · exact ⟨rfl, rfl⟩
    split <;> exact ⟨rfl, rfl⟩

/-- A call that fails leaves every table as it was. -/
theorem createScanJob_error {range : AnyOrder ScheduledPrefix}
    {agentTargets : List AgentScanTargets} {error : StoreError}
    (h : (createScanJob pg agents s now jobID input range agentTargets).1 = .error error) :
    ∃ n, (createScanJob pg agents s now jobID input range agentTargets).2 =
      { s with scan := { s.scan with taskSeq := n } } := by
  rcases createScanJob_cases pg agents s now jobID input range agentTargets with
    ⟨d, entries, -, -, hrun⟩ | ⟨-, _, n, hrun⟩
  · rw [hrun] at h
    cases h
  · exact ⟨n, by rw [hrun]⟩

end Scan

end Cfscan.Jobs
