import Cfscan.Scan.Create

/-!
# What a scan call does when it runs by itself

One inversion lemma for each of the three transactions: either the call left the database alone,
or everything it had checked, and the database it made, in terms of updates of whole tables. No
later proof about runs of calls unfolds a program.

A lemma says which guard a call has passed when it changes anything, and which tables it leaves
alone then. Everything else, a refusal, a rollback and a call that finds nothing to do, is the case
of no change.
-/

set_option autoImplicit false

namespace Cfscan.Scan

open Cfscan.Lib Cfscan.Store

/-! ## `ClaimTasks`

A claim changes the store in two places: the agent's expired leases are given back, and
then, if some job has work, its tasks are leased and the job is running. Without a batch the
transaction is rolled back and the expired leases stay as they were too. -/

/-- After the lease-expiry `UPDATE`. -/
def ScanStore.expired (s : ScanStore) (agent : UUID) (now : Timestamp) : ScanStore :=
  { s with
    tasks := s.tasks.updateWhere (ScanTask.leaseExpired agent now) ScanTask.expire
      ScanTask.id_expire }

/-- After the two `UPDATE`s that hand tasks out. -/
def ScanStore.leased (s : ScanStore) (now : Timestamp) (jobID : UUID) (ids : List Int) :
    ScanStore :=
  { s with
    tasks := s.tasks.updateWhere (fun task => decide (task.id ∈ ids)) (ScanTask.lease now)
      (ScanTask.id_lease now)
    jobs := s.jobs.updateWhere (fun row => decide (row.id = jobID)) (ScanJob.start now)
      (ScanJob.id_start now) }

/-- What a claim that hands out the tasks `ids` has checked. -/
structure ClaimOf (s : ScanStore) (now : Timestamp) (agent : UUID) (job : ScanJob)
    (ids : List Int) : Prop where
  mem : job ∈ s.jobs.rows
  active : job.active = true
  nonempty : ids ≠ []
  claimable : ∀ id ∈ ids, ∃ task ∈ (s.expired agent now).tasks.rows, task.id = id ∧
    task.claimable job.id agent = true

/-- The rows a claim returns. -/
def ScanStore.handedOut (s : ScanStore) (now : Timestamp) (ids : List Int) : List ScanTask :=
  (s.tasks.rows.filter fun task => decide (task.id ∈ ids)).map (ScanTask.lease now)

/-- The rows picked under `SKIP LOCKED` when no row is locked. -/
theorem run_pick (jobID agent : UUID) (n : Nat) (s : ScanStore) :
    ∃ picked, (tasks.lockUpTo (ScanTask.claimable jobID agent) n (claimableTasks jobID agent s)
        []).run s = (picked, s) ∧
      ∀ task ∈ picked, task ∈ s.tasks.rows ∧ task.claimable jobID agent = true := by
  refine ⟨_, tasks.run_lockUpTo [], fun task htask => ?_⟩
  rw [List.nil_append] at htask
  obtain ⟨hmem, hclaimable⟩ := List.mem_filter.mp (List.mem_of_mem_take htask)
  obtain ⟨id, _, hfound⟩ := List.mem_filterMap.mp hmem
  exact ⟨Table.mem_of_find? hfound, hclaimable⟩

theorem claimFrom_run (now : Timestamp) (agent : UUID) (limit : Int) (job : ScanJob)
    (s : ScanStore) :
    (∃ s', (claimFrom now agent limit job).run s = (.rollback (.ok none), s')) ∨
      ∃ ids, ids ≠ [] ∧
        (∀ id ∈ ids, ∃ task ∈ s.tasks.rows, task.id = id ∧ task.claimable job.id agent = true) ∧
        (claimFrom now agent limit job).run s =
          (.commit (.ok (some (taskBatch job (s.handedOut now ids)))),
            s.leased now job.id ids) := by
  obtain ⟨picked, hrun, hpicked⟩ := run_pick job.id agent (claimLimit limit) s
  unfold claimFrom
  simp only [Tx.bind_eq, Tx.run_bind, Tx.run_read, hrun,
    tasks.run_updateWhere (ScanTask.id_lease now)]
  split
  · exact Or.inl ⟨_, rfl⟩
  · rename_i hsome
    refine Or.inr ⟨picked.map ScanTask.id, ?_, ?_, ?_⟩
    · intro hnil
      rw [List.map_eq_nil_iff] at hnil
      simp [hnil] at hsome
    · intro id hid
      obtain ⟨task, htask, rfl⟩ := List.mem_map.mp hid
      exact ⟨task, (hpicked task htask).1, rfl, (hpicked task htask).2⟩
    · simp only [Tx.run_bind, jobs.run_updateWhere (ScanJob.id_start now)]
      rfl

theorem claimTasks_exec (pg : Postgres) (tie : UUID → Nat) (now : Timestamp) (agentID : String)
    (limit : Int) (s : ScanStore) :
    (((claimTasks pg tie now agentID limit).exec s).2 = s ∧
        ∀ batch, ((claimTasks pg tie now agentID limit).exec s).1 ≠ .ok (some batch)) ∨
      ∃ agent job ids, pg.uuid agentID = some agent ∧ ClaimOf s now agent job ids ∧
        (claimTasks pg tie now agentID limit).exec s =
          (.ok (some (taskBatch job ((s.expired agent now).handedOut now ids))),
            (s.expired agent now).leased now job.id ids) := by
  unfold claimTasks
  cases hagent : pg.uuid agentID with
  | none => exact Or.inl ⟨rfl, fun batch h => by cases h⟩
  | some agent =>
    have hexpired : tasks.set s (s.tasks.updateWhere (ScanTask.leaseExpired agent now)
        ScanTask.expire ScanTask.id_expire) = s.expired agent now := rfl
    simp only [Tx.exec, Tx.bind_eq, Tx.run_bind, Tx.run_read,
      tasks.run_updateWhere ScanTask.id_expire, jobs.run_lockUpTo,
      List.nil_append, tasks_get, hexpired]
    generalize hlocked : List.take 1 _ = locked
    cases locked with
    | nil => exact Or.inl ⟨rfl, fun batch h => by cases h⟩
    | cons job rest =>
      have hjob : job ∈ List.take 1 _ := hlocked ▸ List.mem_cons_self
      obtain ⟨hmem, hactive⟩ := List.mem_filter.mp (List.mem_of_mem_take hjob)
      obtain ⟨id, _, hfound⟩ := List.mem_filterMap.mp hmem
      dsimp only
      rcases claimFrom_run now agent limit job (s.expired agent now) with
        ⟨s', hrun⟩ | ⟨ids, hne, hids, hrun⟩
      · rw [hrun]
        exact Or.inl ⟨rfl, fun batch h => by cases h⟩
      · rw [hrun]
        exact Or.inr ⟨agent, job, ids, rfl,
          ⟨Table.mem_of_find? hfound, hactive, hne, hids⟩, rfl⟩

/-! ## `StopScanJob` -/

def ScanStore.stopped (s : ScanStore) (now : Timestamp) (jobID : UUID) : ScanStore :=
  { s with
    tasks := s.tasks.updateWhere (ScanTask.stoppable jobID) ScanTask.cancel ScanTask.id_cancel
    jobs := s.jobs.updateWhere (fun row => decide (row.id = jobID)) (ScanJob.stop now)
      (ScanJob.id_stop now) }

theorem stopScanJob_exec (pg : Postgres) (now : Timestamp) (id : String) (s : ScanStore) :
    (((stopScanJob pg now id).exec s).2 = s ∧
        ∀ item, ((stopScanJob pg now id).exec s).1 ≠ .ok item) ∨
      ∃ job, pg.uuid id = some job.id ∧ job ∈ s.jobs.rows ∧ job.active = true ∧
        (stopScanJob pg now id).exec s = (.ok (job.stop now), s.stopped now job.id) := by
  unfold stopScanJob
  cases hid : pg.uuid id with
  | none => exact Or.inl ⟨rfl, fun item h => by cases h⟩
  | some jobID =>
    simp only [Tx.exec, Tx.bind_eq, Tx.run_bind, jobs.run_selectForUpdate, jobs_get]
    cases hjob : s.jobs.find? jobID with
    | none => exact Or.inl ⟨rfl, fun item h => by cases h⟩
    | some job =>
      obtain ⟨hmem, rfl⟩ := Table.find?_eq_some.mp hjob
      dsimp only
      by_cases hclosed : job.status ≠ .pending ∧ job.status ≠ .running
      · rw [if_pos hclosed]
        exact Or.inl ⟨rfl, fun item h => by cases h⟩
      · have hactive : job.active = true := by
          simp only [ScanJob.active, Bool.or_eq_true, decide_eq_true_eq]
          tauto
        have hread : (s.stopped now job.id).jobs.find? job.id = some (job.stop now) := by
          rw [ScanStore.stopped, Table.find?_updateWhere, Table.find?_key hmem]
          simp
        refine Or.inr ⟨job, rfl, hmem, hactive, ?_⟩
        rw [if_neg hclosed]
        simp only [Tx.run_bind, Tx.run_read, tasks.run_updateWhere ScanTask.id_cancel,
          jobs.run_updateWhere (ScanJob.id_stop now), tasks_get, tasks_set, jobs_get, jobs_set]
        rw [ScanStore.stopped] at hread
        rw [hread]
        rfl

/-! ## `SubmitResults`

What a run of the program leaves, statement by statement, as an inductive relation along the
results (`Submitted`). Every later proof about submissions is an induction over it and never
opens the program again. -/

/-- The version of a result row the upsert leaves. -/
def ScanStore.resultVersion (s : ScanStore) (row : ScanResult) : ScanResult :=
  match s.results.find? row.taskID with
  | none => row
  | some old => old.overwrite row

/-- What one result does to the blacklist. -/
def ScanStore.reblacklisted (s : ScanStore) (now : Timestamp) (job : ScanJob) (agent : UUID)
    (targetIP : Inet) (reason : String) : Table (UUID × Inet) BlacklistEntry BlacklistEntry.key :=
  if reason ≠ "" then
    match s.blacklist.find? (agent, targetIP) with
    | none => s.blacklist.put (newEntry job now agent targetIP reason)
    | some entry => s.blacklist.put (entry.again job now reason)
  else s.blacklist.erase (agent, targetIP)

/-- After the task is completed and the result inserted. -/
def ScanStore.filed (s : ScanStore) (now : Timestamp) (job : ScanJob) (agent : UUID)
    (result : ProbeResult) (row : ScanResult) : ScanStore :=
  { s with
    tasks := s.tasks.updateWhere (ScanTask.submittable job.id agent result.taskID)
      (ScanTask.complete now) (ScanTask.id_complete now)
    results := s.results.put (s.resultVersion row) }

/-- After one result of a batch. -/
def ScanStore.recorded (s : ScanStore) (now : Timestamp) (job : ScanJob) (agent : UUID)
    (result : ProbeResult) (row : ScanResult) : ScanStore :=
  { s.filed now job agent result row with
    blacklist := s.reblacklisted now job agent row.targetIP (blacklistReason job result) }

/-- What the recording of one result has checked. -/
structure RecordOf (pg : Postgres) (s : ScanStore) (now : Timestamp) (agentID : String)
    (job : ScanJob) (result : ProbeResult) (agent : UUID) (task : ScanTask) (row : ScanResult) :
    Prop where
  uuid : pg.uuid agentID = some agent
  mem : task ∈ s.tasks.rows
  submittable : task.submittable job.id agent result.taskID = true
  target : result.targetIP = task.targetIP.host
  built : result.row pg now job agent task = some row

theorem upsertResult_run (row : ScanResult) (s : ScanStore) :
    (upsertResult row).run s = ((), { s with results := s.results.put (s.resultVersion row) }) := by
  unfold upsertResult
  simp only [Tx.bind_eq, Tx.run_bind, Tx.run_acquire, Tx.run_read]
  cases h : s.results.find? row.taskID with
  | none => simp [ScanStore.resultVersion, h, ScanStore.apply]
  | some old => simp [ScanStore.resultVersion, h, ScanStore.apply]

theorem block_run (job : ScanJob) (now : Timestamp) (agent : UUID) (targetIP : Inet)
    {reason : String} (hreason : reason ≠ "") (s : ScanStore) :
    (∃ error, (block job now agent targetIP reason).run s = (some error, s)) ∨
      (block job now agent targetIP reason).run s =
        (none, { s with blacklist := s.reblacklisted now job agent targetIP reason }) := by
  unfold block
  simp only [Tx.bind_eq, Tx.run_bind, Tx.run_acquire, Tx.run_read]
  cases h : s.blacklist.find? (agent, targetIP) with
  | none => exact Or.inr (by simp [ScanStore.reblacklisted, h, hreason, ScanStore.apply])
  | some entry =>
    dsimp only
    split
    · exact Or.inr (by simp [ScanStore.reblacklisted, h, hreason, ScanStore.apply])
    · exact Or.inl ⟨_, rfl⟩

theorem unblock_run (now : Timestamp) (job : ScanJob) (agent : UUID) (targetIP : Inet)
    (s : ScanStore) :
    (unblock agent targetIP).run s =
      (none, { s with blacklist := s.reblacklisted now job agent targetIP "" }) := by
  unfold unblock
  simp only [Tx.bind_eq, Tx.run_bind, Tx.run_read]
  cases h : s.blacklist.find? (agent, targetIP) with
  | none => simp [ScanStore.reblacklisted, Table.erase_of_none h]
  | some entry => simp [ScanStore.reblacklisted, h, ScanStore.apply]

theorem reblacklist_run (job : ScanJob) (now : Timestamp) (agent : UUID) (targetIP : Inet)
    (reason : String) (s : ScanStore) :
    (∃ error, (if reason ≠ "" then block job now agent targetIP reason
        else unblock agent targetIP).run s = (some error, s)) ∨
      (if reason ≠ "" then block job now agent targetIP reason else unblock agent targetIP).run s =
        (none, { s with blacklist := s.reblacklisted now job agent targetIP reason }) := by
  by_cases hreason : reason = ""
  · subst hreason
    exact Or.inr (unblock_run now job agent targetIP s)
  · simp only [ne_eq, hreason, not_false_eq_true, if_true]
    exact block_run job now agent targetIP hreason s

/-- One result: an error, or everything it checked and the database it makes. -/
theorem submitResult_run (pg : Postgres) (now : Timestamp) (agentID : String) (job : ScanJob)
    (result : ProbeResult) (s : ScanStore) :
    (∃ error s', (submitResult pg now agentID job result).run s = (some error, s')) ∨
      ∃ agent task row, RecordOf pg s now agentID job result agent task row ∧
        (submitResult pg now agentID job result).run s =
          (none, s.recorded now job agent result row) := by
  unfold submitResult
  cases hagent : pg.uuid agentID with
  | none => exact Or.inl ⟨_, _, rfl⟩
  | some agent =>
    simp only [Tx.bind_eq, Tx.run_bind, tasks.run_updateWhere (ScanTask.id_complete now), tasks_get,
      tasks_set]
    cases hfilter : s.tasks.rows.filter (ScanTask.submittable job.id agent result.taskID) with
    | nil => exact Or.inl ⟨_, _, rfl⟩
    | cons task rest =>
      obtain ⟨hmem, hsubmittable⟩ := List.mem_filter.mp (hfilter ▸ List.mem_cons_self :
        task ∈ s.tasks.rows.filter (ScanTask.submittable job.id agent result.taskID))
      simp only [List.map_cons, recordResult]
      split
      · exact Or.inl ⟨_, _, rfl⟩
      rename_i htarget
      split
      · exact Or.inl ⟨_, _, rfl⟩
      rename_i row hrow
      have hrecord : RecordOf pg s now agentID job result agent task row :=
        ⟨hagent, hmem, hsubmittable, not_not.mp htarget, hrow⟩
      simp only [Tx.bind_eq, Tx.run_bind, upsertResult_run]
      rcases reblacklist_run job now agent row.targetIP (blacklistReason job result)
        (s.filed now job agent result row) with ⟨error, hrun⟩ | hrun
      · exact Or.inl ⟨error, _, hrun⟩
      · exact Or.inr ⟨agent, task, row, hrecord, hrun⟩

/-- The results of a batch, one after the other. -/
inductive Submitted (pg : Postgres) (now : Timestamp) (agentID : String) (job : ScanJob) :
    ScanStore → List ProbeResult → ScanStore → Prop where
  | nil (s : ScanStore) : Submitted pg now agentID job s [] s
  | cons {s s' : ScanStore} {result : ProbeResult} {results : List ProbeResult} {agent : UUID}
      {task : ScanTask} {row : ScanResult}
      (hrecord : RecordOf pg s now agentID job result agent task row)
      (hrest : Submitted pg now agentID job (s.recorded now job agent result row) results s') :
      Submitted pg now agentID job s (result :: results) s'

theorem submitEach_run (pg : Postgres) (now : Timestamp) (agentID : String) (job : ScanJob)
    (results : List ProbeResult) (s : ScanStore) :
    (∃ error s', (submitEach pg now agentID job results).run s = (some error, s')) ∨
      ∃ s', Submitted pg now agentID job s results s' ∧
        (submitEach pg now agentID job results).run s = (none, s') := by
  induction results generalizing s with
  | nil => exact Or.inr ⟨s, .nil s, rfl⟩
  | cons result results ih =>
    unfold submitEach
    simp only [Tx.bind_eq, Tx.run_bind]
    rcases submitResult_run pg now agentID job result s with
      ⟨error, s', hrun⟩ | ⟨agent, task, row, hrecord, hrun⟩
    · rw [hrun]
      exact Or.inl ⟨error, s', rfl⟩
    · rw [hrun]
      rcases ih (s.recorded now job agent result row) with herror | ⟨s', hrest, hrun'⟩
      · exact Or.inl herror
      · exact Or.inr ⟨s', .cons hrecord hrest, hrun'⟩

/-- After the progress update. -/
def ScanStore.progressed (s : ScanStore) (now : Timestamp) (jobID : UUID) : ScanStore :=
  match s.stats jobID with
  | none => s
  | some stats =>
    { s with
      jobs := s.jobs.updateWhere (fun row => decide (row.id = jobID)) (ScanJob.progress now stats)
        (ScanJob.id_progress now stats) }

theorem updateProgress_run (now : Timestamp) (jobID : UUID) (s : ScanStore) :
    (∃ error, (updateProgress now jobID).run s = (some error, s)) ∨
      (updateProgress now jobID).run s = (none, s.progressed now jobID) := by
  unfold updateProgress
  simp only [Tx.bind_eq, Tx.run_bind, Tx.run_read]
  cases hstats : s.stats jobID with
  | none => exact Or.inr (by simp [ScanStore.progressed, hstats])
  | some stats =>
    dsimp only
    split
    · simp only [Tx.run_bind, jobs.run_updateWhere (ScanJob.id_progress now stats), jobs_get,
        jobs_set]
      exact Or.inr (by simp [ScanStore.progressed, hstats])
    · exact Or.inl ⟨_, rfl⟩

/-- What a submission to a known job needs to return no error. -/
theorem submitResults_ok {pg : Postgres} {batch : ResultBatch} {s : ScanStore} {job : ScanJob}
    (now : Timestamp) (hid : pg.uuid batch.jobID = some job.id) (hjob : job ∈ s.jobs.rows) :
    ((submitResults pg now batch).exec s).1 = .ok () ↔
      job.status = .stopped ∨
        ((submitEach pg now batch.agentID job batch.results).run s).1 = none ∧
          ((updateProgress now job.id).run
            ((submitEach pg now batch.agentID job batch.results).run s).2).1 = none := by
  unfold submitResults
  rw [hid]
  simp only [Tx.exec, Tx.bind_eq, Tx.run_bind, jobs.run_selectForUpdate, jobs_get,
    Table.find?_key hjob]
  by_cases hstopped : job.status = .stopped
  · rw [if_pos hstopped]
    exact iff_of_true rfl (Or.inl hstopped)
  · rw [if_neg hstopped, or_iff_right hstopped]
    simp only [Tx.run_bind]
    cases ((submitEach pg now batch.agentID job batch.results).run s).1 with
    | some error => simp
    | none =>
      simp only [Tx.run_bind]
      cases ((updateProgress now job.id).run
          ((submitEach pg now batch.agentID job batch.results).run s).2).1 <;> simp

/-- A submission: refused, ignored because the job is stopped, or recorded. -/
theorem submitResults_exec (pg : Postgres) (now : Timestamp) (batch : ResultBatch)
    (s : ScanStore) :
    (∃ error, (submitResults pg now batch).exec s = (.error error, s)) ∨
      (∃ job ∈ s.jobs.rows, pg.uuid batch.jobID = some job.id ∧ job.status = .stopped ∧
        (submitResults pg now batch).exec s = (.ok (), s)) ∨
      ∃ job ∈ s.jobs.rows, ∃ s', pg.uuid batch.jobID = some job.id ∧ job.status ≠ .stopped ∧
        Submitted pg now batch.agentID job s batch.results s' ∧
        (submitResults pg now batch).exec s = (.ok (), s'.progressed now job.id) := by
  unfold submitResults
  cases hid : pg.uuid batch.jobID with
  | none => exact Or.inl ⟨_, rfl⟩
  | some jobID =>
    simp only [Tx.exec, Tx.bind_eq, Tx.run_bind, jobs.run_selectForUpdate, jobs_get]
    cases hjob : s.jobs.find? jobID with
    | none => exact Or.inl ⟨_, rfl⟩
    | some job =>
      obtain ⟨hmem, rfl⟩ := Table.find?_eq_some.mp hjob
      dsimp only
      by_cases hstopped : job.status = .stopped
      · rw [if_pos hstopped]
        exact Or.inr (Or.inl ⟨job, hmem, rfl, hstopped, rfl⟩)
      · rw [if_neg hstopped]
        simp only [Tx.run_bind]
        rcases submitEach_run pg now batch.agentID job batch.results s with
          ⟨error, s', hrun⟩ | ⟨s', hsubmitted, hrun⟩
        · rw [hrun]
          exact Or.inl ⟨error, rfl⟩
        · rw [hrun]
          simp only [Tx.run_bind]
          rcases updateProgress_run now job.id s' with ⟨error, hrun'⟩ | hrun'
          · rw [hrun']
            exact Or.inl ⟨error, rfl⟩
          · rw [hrun']
            exact Or.inr (Or.inr ⟨job, hmem, s', rfl, hstopped, hsubmitted, rfl⟩)

end Cfscan.Scan
