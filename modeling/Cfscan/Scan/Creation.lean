import Cfscan.Scan.Effect
import Mathlib.Logic.Relation

/-!
# What a creation does to the database

`Created` is all that the later proofs know of `CreateScanJob` and of one group of
`CreateBlacklistRechecks`: a new pending job, with as many new pending tasks as its
`total_targets` says, and nothing else touched but the `retry_after` of blacklist entries.

The count is where the two differ. `CreateScanJob` counts the rows its inserts report.
`CreateBlacklistRechecks` writes the number of selected entries and inserts with `ON CONFLICT DO
NOTHING`, which agree only because the selected entries are distinct addresses
(`BlacklistEntry.Single`).

A job without a task is never committed: `CreateScanJob` returns an error and rolls back where every
target was skipped, and a recheck has no group without an entry. So a job that is created has at
least one task, and its counters are right from the start.
-/

set_option autoImplicit false

namespace Cfscan.Scan

open Cfscan.Lib Cfscan.Store

/-! ## Addresses that read back

`host(ip)` of a stored address is text that PostgreSQL casts again: the results carry it,
and the rechecks are made from it. That the cast gives the same address is not a law of
`inet` but an invariant of the rows this server writes, and both creations keep it. -/

/-- The address and the prefix of a task, printed and read back as `SubmitResults` does. -/
def ScanTask.Readable (pg : Postgres) (task : ScanTask) : Prop :=
  pg.inet task.targetIP.host = some ⟨task.targetIP.host, none⟩ ∧
    nullableCidr pg task.prefixText = some task.targetPrefix

/-- An entry for a single address, which its text names. -/
def BlacklistEntry.Single (pg : Postgres) (entry : BlacklistEntry) : Prop :=
  entry.targetIP.netmask = none ∧ pg.inet entry.targetIP.host = some entry.targetIP

theorem newTask_readable {pg : Postgres} {text prefixCIDR : String} {targetIP : Inet}
    {targetPrefix : Option Cidr} (hip : pg.inet text = some targetIP)
    (hcidr : nullableCidr pg prefixCIDR = some targetPrefix) (id : Int) (jobID agent : UUID)
    (now : Timestamp) : (newTask id jobID agent targetIP targetPrefix now).Readable pg := by
  refine ⟨pg.inet_host text targetIP hip, ?_⟩
  cases targetPrefix with
  | none => rfl
  | some cidr =>
    unfold nullableCidr at hcidr
    split at hcidr
    · cases hcidr
    · obtain ⟨c, hc, heq⟩ := Option.map_eq_some_iff.mp hcidr
      cases heq
      obtain ⟨hread, hne⟩ := pg.cidr_text prefixCIDR cidr hc
      simp [nullableCidr, ScanTask.prefixText, newTask, hread, hne]

/-! ## Drafts

What holds of a draft at every point of the loops. The invariant `Draft.Of` says that the
tasks from before are still there and what is new is pending, of the job and reads back; the
lemmas about rechecks go further and say exactly which tasks a run inserts, for there
nothing is skipped. -/

/-- The tasks of a draft for the job `jobID`: those of `s`, and new ones. -/
structure Draft.Of (pg : Postgres) (s : ScanStore) (jobID : UUID) (d : Draft) : Prop where
  seq : s.taskSeq ≤ d.taskSeq
  old : ∀ task ∈ s.tasks.rows, task ∈ d.tasks.rows
  new : ∀ task ∈ d.tasks.rows, task ∈ s.tasks.rows ∨
    (task.jobID = jobID ∧ task.status = .pending ∧ task.id < d.taskSeq ∧ s.taskSeq ≤ task.id ∧
      task.Readable pg)
  others : ∀ other, other ≠ jobID → (d.tasks.rows.filter fun task => decide (task.jobID = other)) =
    s.jobTasks other
  count : (d.tasks.rows.filter fun task => decide (task.jobID = jobID)).length =
    (s.jobTasks jobID).length + d.inserted

theorem Draft.Of.start (pg : Postgres) (s : ScanStore) (jobID : UUID) : s.draft.Of pg s jobID where
  seq := Int.le_refl _
  old := fun _ h => h
  new := fun _ h => Or.inl h
  others := fun _ _ => rfl
  count := rfl

theorem Draft.Of.fail {pg : Postgres} {s : ScanStore} {jobID : UUID} {d : Draft}
    (h : d.Of pg s jobID) (failure : Option StoreError) :
    ({ d with failure := failure } : Draft).Of pg s jobID :=
  ⟨h.seq, h.old, h.new, h.others, h.count⟩

/-- A sequence value drawn for nothing. -/
theorem Draft.Of.skip {pg : Postgres} {s : ScanStore} {jobID : UUID} {d : Draft}
    (h : d.Of pg s jobID) (failure : Option StoreError) :
    ({ d with taskSeq := d.taskSeq + 1, failure := failure } : Draft).Of pg s jobID where
  seq := Int.le_trans h.seq (Int.le_add_one (Int.le_refl _))
  old := h.old
  new := by
    intro task htask
    refine (h.new task htask).imp id fun ⟨hjob, hst, hlt, hge, hread⟩ => ⟨hjob, hst, ?_, hge, hread⟩
    exact Int.lt_trans hlt (Int.lt_add_one_of_le (Int.le_refl _))
  others := h.others
  count := h.count

theorem Draft.Of.insertTask {pg : Postgres} {s : ScanStore} {jobID : UUID} {d : Draft}
    (h : d.Of pg s jobID) {agents : Agents} {now : Timestamp} {agent : UUID} {targetIP : Inet}
    {targetPrefix : Option Cidr} {context text prefixCIDR : String}
    (hip : pg.inet text = some targetIP)
    (hcidr : nullableCidr pg prefixCIDR = some targetPrefix) :
    (d.insertTask agents now jobID agent targetIP targetPrefix context).Of pg s jobID := by
  unfold Draft.insertTask
  split
  · exact h.skip d.failure
  rename_i hfree
  rw [not_or, not_not] at hfree
  split
  · exact h.skip _
  have hrows := Table.rows_put_new
    (r := newTask d.taskSeq jobID agent targetIP targetPrefix now) hfree.1
  refine ⟨Int.le_trans h.seq (Int.le_add_one (Int.le_refl _)), ?_, ?_, ?_, ?_⟩
  · intro task htask
    dsimp only
    rw [hrows]
    exact List.mem_append_left _ (h.old task htask)
  · intro task htask
    dsimp only at htask
    rw [hrows] at htask
    rcases List.mem_append.mp htask with hold | hnew
    · refine (h.new task hold).imp id fun ⟨hjob, hst, hlt, hge, hread⟩ =>
        ⟨hjob, hst, ?_, hge, hread⟩
      exact Int.lt_trans hlt (Int.lt_add_one_of_le (Int.le_refl _))
    · rw [List.mem_singleton.mp hnew]
      exact Or.inr ⟨rfl, rfl, Int.lt_add_one_of_le (Int.le_refl _), h.seq,
        newTask_readable hip hcidr ..⟩
  · intro other hne
    dsimp only
    rw [hrows, List.filter_append, h.others other hne]
    simp [newTask, Ne.symm hne]
  · dsimp only
    rw [hrows, List.filter_append, List.length_append, h.count]
    simp [newTask]
    omega

theorem Draft.Of.insertTarget {pg : Postgres} {s : ScanStore} {jobID : UUID} {d : Draft}
    (h : d.Of pg s jobID) (agents : Agents) (now : Timestamp) (input : CreateScanJobRequest)
    (agentID : String) (target : ScanTarget) :
    (d.insertTarget pg agents s now jobID input agentID target).Of pg s jobID := by
  unfold Draft.insertTarget
  split
  · exact h
  split
  · exact h
  split
  · exact h.fail _
  rename_i targetIP hip
  split
  · rename_i agent targetPrefix _ hcidr
    split
    · exact h
    · exact h.insertTask hip hcidr
  · exact h.fail _

theorem Draft.Of.foldl {pg : Postgres} {s : ScanStore} {jobID : UUID} {α : Type}
    {f : Draft → α → Draft} (hf : ∀ d a, d.Of pg s jobID → (f d a).Of pg s jobID) (l : List α)
    {d : Draft} (h : d.Of pg s jobID) : (l.foldl f d).Of pg s jobID := by
  induction l generalizing d with
  | nil => exact h
  | cons a l ih => exact ih (hf d a h)

theorem Draft.Of.insertAgent {pg : Postgres} {s : ScanStore} {jobID : UUID} {d : Draft}
    (h : d.Of pg s jobID) (agents : Agents) (now : Timestamp) (input : CreateScanJobRequest)
    (agentSet : AgentScanTargets) :
    (d.insertAgent pg agents s now jobID input agentSet).Of pg s jobID := by
  unfold Draft.insertAgent
  split
  · exact h
  split
  · exact h.fail _
  · exact Draft.Of.foldl (fun _ target hd => hd.insertTarget agents now input _ target) _ h

theorem Draft.Of.insertRecheck {pg : Postgres} {s : ScanStore} {jobID : UUID} {d : Draft}
    (h : d.Of pg s jobID) (agents : Agents) (now : Timestamp) (agent : UUID)
    (item : BlacklistEntry) : (d.insertRecheck pg agents now jobID agent item).Of pg s jobID := by
  unfold Draft.insertRecheck
  split
  · exact h
  split
  · exact h.fail _
  · rename_i targetIP hip
    exact h.insertTask hip (show nullableCidr pg "" = some none from rfl)

/-- A task apart from the id the sequence gave it. -/
def ScanTask.unnumbered (task : ScanTask) : ScanTask := { task with id := 0 }

/-- A failed draft stays failed. -/
theorem failed_rechecks {pg : Postgres} {agents : Agents} {now : Timestamp} {jobID agent : UUID}
    (items : List BlacklistEntry) {d : Draft} (h : d.failure ≠ none) :
    items.foldl (Draft.insertRecheck pg agents now jobID agent) d = d := by
  induction items with
  | nil => rfl
  | cons item items ih =>
    rw [List.foldl_cons, Draft.insertRecheck, if_pos h, ih]

/-- The draft with a task more. -/
def Draft.add (d : Draft) (jobID agent : UUID) (targetIP : Inet) (targetPrefix : Option Cidr)
    (now : Timestamp) : Draft :=
  { d with
    tasks := d.tasks.put (newTask d.taskSeq jobID agent targetIP targetPrefix now)
    taskSeq := d.taskSeq + 1
    inserted := d.inserted + 1 }

section Add

variable {now : Timestamp} {jobID agent : UUID} {targetIP : Inet} {targetPrefix : Option Cidr}
  {d : Draft}

theorem Draft.rows_add (h : ∀ task ∈ d.tasks.rows, task.id < d.taskSeq) :
    (d.add jobID agent targetIP targetPrefix now).tasks.rows =
      d.tasks.rows ++ [newTask d.taskSeq jobID agent targetIP targetPrefix now] :=
  Table.rows_put_new (Table.find?_eq_none.mpr fun task htask => Int.ne_of_lt (h task htask))

/-- The sequence stays ahead of the ids it has given. -/
theorem Draft.fresh_add (h : ∀ task ∈ d.tasks.rows, task.id < d.taskSeq) :
    ∀ task ∈ (d.add jobID agent targetIP targetPrefix now).tasks.rows,
      task.id < (d.add jobID agent targetIP targetPrefix now).taskSeq := by
  intro task htask
  rw [Draft.rows_add h] at htask
  rcases List.mem_append.mp htask with hold | hnew
  · exact Int.lt_trans (h task hold) (Int.lt_add_one_of_le (Int.le_refl _))
  · rw [List.mem_singleton.mp hnew]
    exact Int.lt_add_one_of_le (Int.le_refl _)

theorem Draft.taken_add (h : ∀ task ∈ d.tasks.rows, task.id < d.taskSeq) {other : Inet}
    (htaken : d.taken jobID agent other = false) (hne : targetIP ≠ other) :
    (d.add jobID agent targetIP targetPrefix now).taken jobID agent other = false := by
  unfold Draft.taken at htaken ⊢
  rw [Draft.rows_add h, List.any_append, htaken]
  simp [newTask, hne]

end Add

section Rechecks

variable {pg : Postgres} {agents : Agents} {now : Timestamp} {jobID agent : UUID} {d : Draft}

/-- What the first insert of a group does: its address is free. -/
theorem insertRecheck_free {item : BlacklistEntry} (hsingle : item.Single pg)
    (hfailure : d.failure = none) (hfresh : ∀ task ∈ d.tasks.rows, task.id < d.taskSeq)
    (htaken : d.taken jobID agent item.targetIP = false) :
    d.insertRecheck pg agents now jobID agent item =
      if agents agent = none then
        { d with taskSeq := d.taskSeq + 1, failure := some (.db "" .foreignKeyViolation) }
      else d.add jobID agent item.targetIP none now := by
  have hid : d.tasks.find? d.taskSeq = none :=
    Table.find?_eq_none.mpr fun task htask => Int.ne_of_lt (hfresh task htask)
  have hfree : ¬ (d.tasks.find? d.taskSeq ≠ none ∨ d.taken jobID agent item.targetIP = true) := by
    simp [hid, htaken]
  rw [Draft.insertRecheck, if_neg (not_not.mpr hfailure), hsingle.2]
  dsimp only
  rw [Draft.insertTask, if_neg hfree]
  rfl

/-- Without its agent, no group is inserted. -/
theorem rechecks_of_no_agent {items : List BlacklistEntry} (hsingle : ∀ item ∈ items, item.Single pg)
    (hfailure : d.failure = none) (hfresh : ∀ task ∈ d.tasks.rows, task.id < d.taskSeq)
    (htaken : ∀ item ∈ items, d.taken jobID agent item.targetIP = false) (hsome : items ≠ [])
    (hagent : agents agent = none) :
    (items.foldl (Draft.insertRecheck pg agents now jobID agent) d).failure ≠ none := by
  obtain ⟨item, items, rfl⟩ := List.exists_cons_of_ne_nil hsome
  rw [List.foldl_cons, insertRecheck_free (hsingle item (.head _)) hfailure hfresh
    (htaken item (.head _)), if_pos hagent, failed_rechecks _ (by simp)]
  simp

/-- Distinct addresses, none of them taken, all get a task. -/
theorem inserted_rechecks (now : Timestamp) {items : List BlacklistEntry} (hagent : agents agent ≠ none)
    (hsingle : ∀ item ∈ items, item.Single pg)
    (hdistinct : (items.map BlacklistEntry.targetIP).Nodup)
    (hfailure : d.failure = none) (hfresh : ∀ task ∈ d.tasks.rows, task.id < d.taskSeq)
    (htaken : ∀ item ∈ items, d.taken jobID agent item.targetIP = false) :
    (items.foldl (Draft.insertRecheck pg agents now jobID agent) d).failure = none ∧
      (items.foldl (Draft.insertRecheck pg agents now jobID agent) d).inserted =
        d.inserted + items.length ∧
      ∃ news, (items.foldl (Draft.insertRecheck pg agents now jobID agent) d).tasks.rows =
          d.tasks.rows ++ news ∧
        news.map ScanTask.unnumbered =
          items.map fun item => newTask 0 jobID agent item.targetIP none now := by
  induction items generalizing d with
  | nil => exact ⟨hfailure, rfl, [], by simp, rfl⟩
  | cons item items ih =>
    rw [List.map_cons, List.nodup_cons] at hdistinct
    rw [List.foldl_cons, insertRecheck_free (hsingle item (.head _)) hfailure hfresh
      (htaken item (.head _)), if_neg hagent]
    have hfree : ∀ item' ∈ items,
        (d.add jobID agent item.targetIP none now).taken jobID agent item'.targetIP = false := by
      intro item' hitem'
      refine Draft.taken_add hfresh (htaken item' (.tail _ hitem')) fun heq => ?_
      exact hdistinct.1 (heq ▸ List.mem_map_of_mem hitem')
    obtain ⟨hnone, hcount, news, htasks, hnews⟩ :=
      ih (d := d.add jobID agent item.targetIP none now)
        (fun item' hitem' => hsingle item' (.tail _ hitem')) hdistinct.2 hfailure
        (Draft.fresh_add hfresh) hfree
    refine ⟨hnone, ?_, newTask d.taskSeq jobID agent item.targetIP none now :: news, ?_, ?_⟩
    · rw [hcount, List.length_cons]
      dsimp only [Draft.add]
      omega
    · rw [htasks, Draft.rows_add hfresh, List.append_assoc, List.singleton_append]
    · rw [List.map_cons, List.map_cons, hnews]
      rfl

end Rechecks

/-! ## The creations

Both entry points seen from outside: either the tables are as before, up to the sequence, or
one job has been created with its tasks (`Created`). A round of rechecks is a chain of such
creations, one for each agent; its other write, the postponement of entries, is invisible in
what `BlacklistEntry.record` shows. -/

/-- What lasts of a blacklist entry when its retry is put off. -/
def BlacklistEntry.record (entry : BlacklistEntry) : String × Int :=
  (entry.reason, entry.failureCount)

/-- A new job with its tasks. -/
structure Created (pg : Postgres) (s s' : ScanStore) (job : ScanJob) : Prop where
  fresh : s.jobs.find? job.id = none
  jobs : s'.jobs = s.jobs.put job
  results : s'.results = s.results
  blacklist : ∀ k, (s'.blacklist.find? k).map BlacklistEntry.record =
    (s.blacklist.find? k).map BlacklistEntry.record
  draft : Draft.Of pg s job.id ⟨s'.tasks, s'.taskSeq, job.totalTargets.toNat, none⟩
  positive : 1 ≤ job.totalTargets
  fits : int4 job.totalTargets = true
  pending : job.status = .pending
  zero : job.completedTargets = 0 ∧ job.successTargets = 0 ∧ job.failedTargets = 0
  unfinished : job.finishedAt = none

/-- A sequence can move without anything else changing. -/
def SameRows (s s' : ScanStore) : Prop := ∃ n, s.taskSeq ≤ n ∧ s' = { s with taskSeq := n }

theorem SameRows.refl (s : ScanStore) : SameRows s s := ⟨s.taskSeq, Int.le_refl _, rfl⟩

theorem createScanJob_cases (pg : Postgres) (agents : Agents) (s : ScanStore) (now : Timestamp)
    (jobID : UUID) (input : CreateScanJobRequest) (agentTargets : List AgentScanTargets) :
    SameRows s (createScanJob pg agents s now jobID input agentTargets).2 ∨
      ∃ job, Created pg s (createScanJob pg agents s now jobID input agentTargets).2 job := by
  have hdraft : (agentTargets.foldl (Draft.insertAgent pg agents s now jobID input) s.draft).Of pg s
      jobID :=
    Draft.Of.foldl (fun _ agentSet hd => hd.insertAgent agents now input agentSet) _ (.start ..)
  unfold createScanJob
  dsimp only
  split
  · exact Or.inl (.refl s)
  split
  · exact Or.inl (.refl s)
  split
  · exact Or.inl (.refl s)
  rename_i hfresh
  rw [not_not] at hfresh
  split
  · exact Or.inl ⟨_, hdraft.seq, rfl⟩
  split
  · exact Or.inl ⟨_, hdraft.seq, rfl⟩
  rename_i hsome
  split
  · exact Or.inl ⟨_, hdraft.seq, rfl⟩
  rename_i hfits
  refine Or.inr ⟨_, hfresh, rfl, rfl, fun _ => rfl, ?_, ?_, by simpa using hfits, rfl,
    ⟨rfl, rfl, rfl⟩, rfl⟩
  · exact ⟨hdraft.seq, hdraft.old, hdraft.new, hdraft.others, hdraft.count⟩
  · dsimp only
    omega

theorem ScanJob.storable_total {job : ScanJob} (h : job.storable = true) :
    int4 job.totalTargets = true := by
  unfold ScanJob.storable at h
  rw [Bool.and_eq_true, List.all_eq_true, List.all_eq_true] at h
  exact h.2 _ (by simp)

/-- What the group of one agent needs of the database it meets. -/
structure RecheckReady (pg : Postgres) (s : ScanStore) : Prop where
  owner : ∀ task ∈ s.tasks.rows, ∃ job ∈ s.jobs.rows, job.id = task.jobID
  fresh : ∀ task ∈ s.tasks.rows, task.id < s.taskSeq

theorem record_postponeAll (pg : Postgres) (settings : BlacklistRecheckSettings) (now : Timestamp)
    (agent : UUID) (selected : List BlacklistEntry)
    (blacklist : Table (UUID × Inet) BlacklistEntry BlacklistEntry.key) (k : UUID × Inet) :
    ((postponeAll pg settings now agent selected blacklist).find? k).map BlacklistEntry.record =
      (blacklist.find? k).map BlacklistEntry.record := by
  unfold postponeAll
  rw [Table.find?_updateWhere, Option.map_map]
  congr 1
  funext entry
  simp only [Function.comp_apply]
  split <;> rfl

/-- No task can carry the id of a job that is not there yet. -/
theorem RecheckReady.untaken {pg : Postgres} {s : ScanStore} (h : RecheckReady pg s) {jobID : UUID}
    (hfresh : s.jobs.find? jobID = none) (agent : UUID) (targetIP : Inet) :
    s.draft.taken jobID agent targetIP = false := by
  unfold Draft.taken
  rw [List.any_eq_false]
  intro task htask
  obtain ⟨job, hjob, hid⟩ := h.owner task htask
  have hne : task.jobID ≠ jobID := hid ▸ Table.find?_eq_none.mp hfresh job hjob
  simp [hne]

theorem recheckAgent_cases {pg : Postgres} {agents : Agents} {s : ScanStore} {now : Timestamp}
    {settings : BlacklistRecheckSettings} {jobID agent : UUID} {selected : List BlacklistEntry}
    (hready : RecheckReady pg s) (hsingle : ∀ item ∈ selected, item.Single pg)
    (hdistinct : (selected.map BlacklistEntry.targetIP).Nodup) (hsome : selected ≠ []) :
    SameRows s (recheckAgent pg agents s now settings jobID agent selected).2 ∨
      ∃ job, Created pg s (recheckAgent pg agents s now settings jobID agent selected).2 job := by
  have hdraft : (selected.foldl (Draft.insertRecheck pg agents now jobID agent) s.draft).Of pg s
      jobID :=
    Draft.Of.foldl (fun _ item hd => hd.insertRecheck agents now agent item) _ (.start ..)
  unfold recheckAgent
  dsimp only
  split
  · exact Or.inl (.refl s)
  rename_i hstorable
  split
  · exact Or.inl (.refl s)
  rename_i hfresh
  rw [not_not] at hfresh
  split
  · exact Or.inl ⟨_, hdraft.seq, rfl⟩
  rename_i hfailure
  have htaken := fun item (_ : item ∈ selected) => hready.untaken hfresh agent item.targetIP
  have hagent : agents agent ≠ none := fun hagent =>
    rechecks_of_no_agent hsingle rfl hready.fresh htaken hsome hagent hfailure
  obtain ⟨-, hcount, -⟩ :=
    inserted_rechecks now hagent hsingle hdistinct rfl hready.fresh htaken
  have htotal := hdraft.count
  rw [hcount] at htotal
  have hpos := List.length_pos_of_ne_nil hsome
  have hfits : int4 (selected.length : Int) = true :=
    ScanJob.storable_total (eq_true_of_ne_false hstorable)
  have hlength : s.draft.inserted + selected.length = selected.length := Nat.zero_add _
  rw [hlength] at htotal
  exact Or.inr ⟨_, hfresh, rfl, rfl, record_postponeAll pg settings now agent selected _,
    ⟨hdraft.seq, hdraft.old, hdraft.new, hdraft.others, htotal⟩, Int.ofNat_le.mpr hpos, hfits,
    rfl, ⟨rfl, rfl, rfl⟩, rfl⟩

/-- One transaction of a creating call. -/
def Creation (pg : Postgres) (s s' : ScanStore) : Prop := SameRows s s' ∨ ∃ job, Created pg s s' job

theorem RecheckReady.creation {pg : Postgres} {s s' : ScanStore} (h : RecheckReady pg s)
    (hstep : Creation pg s s') : RecheckReady pg s' := by
  rcases hstep with ⟨n, hn, rfl⟩ | ⟨job, hc⟩
  · exact ⟨h.owner, fun task htask => Int.lt_of_lt_of_le (h.fresh task htask) hn⟩
  · constructor
    · intro task htask
      rw [hc.jobs]
      rcases hc.draft.new task htask with hold | ⟨hjob, _⟩
      · obtain ⟨owner, howner, hid⟩ := h.owner task hold
        have hne := Table.find?_eq_none.mp hc.fresh owner howner
        exact ⟨owner, Table.mem_put.mpr (Or.inr ⟨howner, hne⟩), hid⟩
      · exact ⟨job, Table.mem_put_self, hjob.symm⟩
    · intro task htask
      rcases hc.draft.new task htask with hold | ⟨_, _, hlt, _⟩
      · exact Int.lt_of_lt_of_le (h.fresh task hold) hc.draft.seq
      · exact hlt

/-- A group never takes more than it has. -/
theorem recheckCount_le (world : RecheckWorld) (settings : BlacklistRecheckSettings) (n : Nat)
    (remaining : Int) : recheckCount world settings n remaining ≤ n := by
  unfold recheckCount
  dsimp only
  split <;> split <;> omega

/-- The group of one agent: distinct entries of that agent, hence distinct addresses. -/
theorem nodup_group {candidates : List BlacklistEntry}
    (hdistinct : (candidates.map BlacklistEntry.key).Nodup) (agent : UUID) (count : Nat) :
    ((((candidates.filter fun entry => decide (entry.agentID = agent)).take count).map
      BlacklistEntry.targetIP)).Nodup := by
  have hgroup : ∀ item ∈ (candidates.filter fun entry => decide (entry.agentID = agent)).take count,
      item.agentID = agent := fun item hitem => by
    simpa using (List.mem_filter.mp (List.mem_of_mem_take hitem)).2
  generalize hselected : (candidates.filter fun entry =>
    decide (entry.agentID = agent)).take count = selected at hgroup
  have hsublist : selected.Sublist candidates :=
    hselected ▸ (List.take_sublist _ _).trans List.filter_sublist
  have hkeys := (hsublist.map BlacklistEntry.key).nodup hdistinct
  have hkey : selected.map BlacklistEntry.key =
      (selected.map BlacklistEntry.targetIP).map fun ip => (agent, ip) := by
    rw [List.map_map]
    refine List.map_congr_left fun item hitem => ?_
    simp [BlacklistEntry.key, hgroup item hitem]
  rw [hkey] at hkeys
  exact hkeys.of_map _

theorem recheckEach_steps {pg : Postgres} {world : RecheckWorld} {agents : Agents}
    {now : Timestamp} {settings : BlacklistRecheckSettings} {candidates : List BlacklistEntry}
    (hsingle : ∀ item ∈ candidates, item.Single pg)
    (hdistinct : (candidates.map BlacklistEntry.key).Nodup) (order : List UUID) {n : Nat}
    {remaining : Int} {result : BlacklistRecheckResult} {s : ScanStore} (h : RecheckReady pg s) :
    Relation.ReflTransGen (Creation pg) s
      (recheckEach pg world agents now settings candidates order n remaining result s).2.2 := by
  induction order generalizing n remaining result s with
  | nil => exact .refl
  | cons agent order ih =>
    unfold recheckEach
    dsimp only
    split
    · exact .refl
    split
    · exact ih h
    rename_i hcount
    generalize hlength : recheckCount world settings
      (candidates.filter fun entry => decide (entry.agentID = agent)).length remaining = count
    have hsome : (candidates.filter fun entry => decide (entry.agentID = agent)).take count ≠ [] := by
      intro hnil
      have hzero := congrArg List.length hnil
      rw [List.length_take, Nat.min_eq_left (hlength ▸ recheckCount_le ..)] at hzero
      exact hcount (hlength.trans hzero)
    have hstep : Creation pg s (recheckAgent pg agents s now settings (world.newID n) agent
        ((candidates.filter fun entry => decide (entry.agentID = agent)).take count)).2 :=
      recheckAgent_cases h (fun item hitem => hsingle item
        (List.mem_of_mem_filter (List.mem_of_mem_take hitem))) (nodup_group hdistinct agent count)
        hsome
    split
    · rename_i error s' heq
      rw [heq] at hstep
      exact .single hstep
    · rename_i s' heq
      rw [heq] at hstep
      exact .head hstep (ih (h.creation hstep))

theorem createBlacklistRechecks_steps {pg : Postgres} {s : ScanStore} (h : RecheckReady pg s)
    (hsingle : ∀ entry ∈ s.blacklist.rows, entry.Single pg) (world : RecheckWorld)
    (agents : Agents) (now : Timestamp) (settings : BlacklistRecheckSettings) :
    Relation.ReflTransGen (Creation pg) s
      (createBlacklistRechecks pg world agents s now settings).2.2 := by
  unfold createBlacklistRechecks
  dsimp only
  split
  · exact .refl
  -- the candidates are rows of the blacklist, in another order and not all of them
  have hsub : (recheckCandidates world agents s now settings.clamp).Subperm s.blacklist.rows := by
    unfold recheckCandidates
    exact (List.take_sublist _ _).subperm.trans
      ((List.perm_insertionSort _ _).subperm.trans List.filter_sublist.subperm)
  have hdistinct : ((recheckCandidates world agents s now settings.clamp).map
      BlacklistEntry.key).Nodup := by
    obtain ⟨l, hperm, hsublist⟩ := hsub
    exact (hperm.map _).nodup_iff.mp ((hsublist.map _).nodup s.blacklist.nodup)
  have hsteps : Relation.ReflTransGen (Creation pg) s (recheckEach pg world agents now
      settings.clamp (recheckCandidates world agents s now settings.clamp)
      ((recheckCandidates world agents s now settings.clamp).map BlacklistEntry.agentID).eraseDups
      0 settings.clamp.maxTargets ⟨0, 0, [], false, ""⟩ s).2.2 :=
    recheckEach_steps (fun item hitem => hsingle item (hsub.subset hitem)) hdistinct _ h
  split
  · rename_i heq
    rw [heq] at hsteps
    exact hsteps
  · rename_i heq
    rw [heq] at hsteps
    split <;> exact hsteps

end Cfscan.Scan
