import Cfscan.Scan.Resubmit

/-!
# The effect of a result, timestamps aside

`Contents` is the database without its timestamps, and without what the progress update writes to
the job a batch is for. `Contents.record` is one result on it, and two results for different tasks
and addresses commute there. `contents_recorded` ties it to the statements.

The counters of a job are computed anew by every progress update and not added to, which is why they
can be left out. Blacklist entries are added to, but those of two results for different addresses
are different entries.
-/

set_option autoImplicit false

namespace Cfscan.Scan

open Cfscan.Lib Cfscan.Store

/-- A job without its timestamps and without what the progress update writes. -/
def ScanJob.plan (job : ScanJob) : ScanJob :=
  { job.untimed with
    status := .pending
    completedTargets := 0
    successTargets := 0
    failedTargets := 0 }

def ScanTask.untimed (task : ScanTask) : ScanTask := { task with completedAt := none }

@[simp] theorem ScanTask.id_untimed (task : ScanTask) : task.untimed.id = task.id := rfl

def ScanResult.untimed (row : ScanResult) : ScanResult := { row with scannedAt := 0 }

def BlacklistEntry.untimed (entry : BlacklistEntry) : BlacklistEntry :=
  { entry with blockedAt := 0, retryAfter := 0, updatedAt := 0 }

structure Contents where
  jobs : List ScanJob
  tasks : List ScanTask
  results : Int → Option ScanResult
  blacklist : UUID × Inet → Option BlacklistEntry
  taskSeq : Int

def ScanStore.contents (s : ScanStore) (jobID : UUID) : Contents where
  jobs := s.jobs.rows.map fun job => if job.id = jobID then job.plan else job.untimed
  tasks := s.tasks.rows.map ScanTask.untimed
  results := fun id => (s.results.find? id).map ScanResult.untimed
  blacklist := fun key => (s.blacklist.find? key).map BlacklistEntry.untimed
  taskSeq := s.taskSeq

/-- A task completed at some time. -/
def ScanTask.done (task : ScanTask) : ScanTask := (task.complete 0).untimed

/-- What a result makes of the entry of its agent and address. -/
def relisted (job : ScanJob) (agent : UUID) (result : ProbeResult) :
    Option BlacklistEntry → Option BlacklistEntry
  | none =>
    if blacklistReason job result = "" then none
    else some (newEntry job 0 agent ⟨result.targetIP, none⟩ (blacklistReason job result)).untimed
  | some entry =>
    if blacklistReason job result = "" then none
    else some (entry.again job 0 (blacklistReason job result)).untimed

namespace Contents

variable (pg : Postgres) (job : ScanJob) (agent : UUID)

def rowOf (c : Contents) (result : ProbeResult) : Option ScanResult :=
  (c.tasks.find? fun task => decide (task.id = result.taskID)).bind fun task =>
    result.row pg 0 job agent task

def record (c : Contents) (result : ProbeResult) : Contents where
  jobs := c.jobs
  tasks := c.tasks.map fun task => if task.id = result.taskID then task.done else task
  results := Function.update c.results result.taskID (c.rowOf pg job agent result)
  blacklist := Function.update c.blacklist (agent, ⟨result.targetIP, none⟩)
    (relisted job agent result (c.blacklist (agent, ⟨result.targetIP, none⟩)))
  taskSeq := c.taskSeq

/-- A result completes its own task, so that another one is filed as before. -/
theorem rowOf_record (c : Contents) {result other : ProbeResult}
    (h : result.taskID ≠ other.taskID) :
    (c.record pg job agent result).rowOf pg job agent other = c.rowOf pg job agent other := by
  have hid : (fun task : ScanTask => decide (task.id = other.taskID)) ∘
      (fun task => if task.id = result.taskID then task.done else task) =
        fun task => decide (task.id = other.taskID) := by
    funext task
    rw [Function.comp_apply]
    split <;> rfl
  unfold rowOf record
  rw [List.find?_map, hid]
  cases hfind : c.tasks.find? fun task => decide (task.id = other.taskID) with
  | none => rfl
  | some task =>
    have htask : task.id = other.taskID := by simpa using List.find?_some hfind
    rw [Option.map_some, if_neg fun heq => h (heq.symm.trans htask)]

variable {pg job agent}

theorem record_comm (c : Contents) {result other : ProbeResult}
    (hid : result.taskID ≠ other.taskID) (hip : result.targetIP ≠ other.targetIP) :
    (c.record pg job agent result).record pg job agent other =
      (c.record pg job agent other).record pg job agent result := by
  have hkey : ((agent, ⟨result.targetIP, none⟩) : UUID × Inet) ≠ (agent, ⟨other.targetIP, none⟩) :=
    fun heq => hip (congrArg (fun key => key.2.host) heq)
  have htasks : ((c.record pg job agent result).record pg job agent other).tasks =
      ((c.record pg job agent other).record pg job agent result).tasks := by
    simp only [record, List.map_map]
    refine List.map_congr_left fun task _ => ?_
    rw [Function.comp_apply, Function.comp_apply]
    by_cases hres : task.id = result.taskID
    · rw [if_pos hres, if_neg fun heq => hid (hres.symm.trans heq), if_pos hres,
        if_neg fun heq : task.done.id = _ => hid (hres.symm.trans heq)]
    · rw [if_neg hres]
      by_cases hother : task.id = other.taskID
      · rw [if_pos hother, if_neg fun heq : task.done.id = _ => hres heq]
      · rw [if_neg hother, if_neg hres]
  have hrows := c.rowOf_record pg job agent hid
  have hrows' := c.rowOf_record pg job agent hid.symm
  unfold record at htasks hrows hrows' ⊢
  rw [Contents.mk.injEq]
  refine ⟨rfl, htasks, ?_, ?_, rfl⟩
  · dsimp only
    rw [hrows, hrows', Function.update_comm hid]
  · dsimp only
    rw [Function.update_of_ne hkey.symm, Function.update_of_ne hkey, Function.update_comm hkey]

/-- **The order of the results makes no difference** to what they leave. -/
theorem foldl_record_perm (c : Contents) {results results' : List ProbeResult}
    (hperm : results.Perm results') (hids : (results.map ProbeResult.taskID).Nodup)
    (hips : (results.map ProbeResult.targetIP).Nodup) :
    results.foldl (record pg job agent) c = results'.foldl (record pg job agent) c := by
  refine hperm.foldl_eq' (fun result hresult other hother c => ?_) c
  by_cases heq : result = other
  · rw [heq]
  · exact record_comm c (fun h => heq (List.inj_on_of_nodup_map hids hresult hother h))
      fun h => heq (List.inj_on_of_nodup_map hips hresult hother h)

end Contents

/-! ## The statements

Each statement of `SubmitResults`, seen through `contents`: clock readings are set to zero
and row ids left out, and what remains of recording a result is a function of the result and
the job's plan. That function commutes for results of different tasks (`record_comm`), while
the statements themselves, with their times, do not. -/

section Statements

variable {pg : Postgres} {s : ScanStore} {now : Timestamp} {agentID : String} {job : ScanJob}
  {result : ProbeResult} {agent : UUID} {task : ScanTask} {row : ScanResult}

theorem find?_contents (s : ScanStore) (jobID : UUID) (id : Int) :
    ((s.contents jobID).tasks.find? fun task => decide (task.id = id)) =
      (s.tasks.find? id).map ScanTask.untimed := by
  have hid : (fun task : ScanTask => decide (task.id = id)) ∘ ScanTask.untimed =
      fun task => decide (task.id = id) := rfl
  simp only [ScanStore.contents, List.find?_map, hid, Table.find?]

/-- A row but for the time it is written at. -/
theorem row_untimed (h : result.row pg now job agent task = some row) :
    result.row pg 0 job.plan agent task.untimed = some row.untimed := by
  simp only [ProbeResult.row, Option.bind_eq_bind, Option.bind_eq_some_iff] at h ⊢
  obtain ⟨targetIP, hip, targetPrefix, hprefix, errorMessage, htext, u, hstorable, v, hint, hrow⟩ := h
  refine ⟨targetIP, hip, targetPrefix, hprefix, errorMessage, htext, u, hstorable, v, hint, ?_⟩
  cases hrow
  rfl

theorem find?_reblacklisted_of_ne (s : ScanStore) (now : Timestamp) (job : ScanJob) (agent : UUID)
    (targetIP : Inet) (reason : String) {key : UUID × Inet} (h : (agent, targetIP) ≠ key) :
    (s.reblacklisted now job agent targetIP reason).find? key = s.blacklist.find? key := by
  unfold ScanStore.reblacklisted
  split
  · split
    · rw [Table.find?_put]
      exact if_neg h
    · rename_i entry hentry
      have hown : (entry.again job now reason).key = (agent, targetIP) :=
        (Table.key_of_find? hentry : entry.key = _)
      rw [Table.find?_put, hown, if_neg h]
  · rw [Table.find?_erase, if_neg h]

theorem find?_reblacklisted_self (s : ScanStore) (now : Timestamp) (job : ScanJob) (agent : UUID)
    (result : ProbeResult) :
    ((s.reblacklisted now job agent ⟨result.targetIP, none⟩ (blacklistReason job result)).find?
        (agent, ⟨result.targetIP, none⟩)).map BlacklistEntry.untimed =
      relisted job.plan agent result
        ((s.blacklist.find? (agent, ⟨result.targetIP, none⟩)).map BlacklistEntry.untimed) := by
  have hreason : blacklistReason job.plan result = blacklistReason job result := rfl
  unfold ScanStore.reblacklisted relisted
  rw [hreason]
  by_cases hgood : blacklistReason job result = ""
  · simp only [hgood, ne_eq, not_true_eq_false, if_false, if_true, Table.find?_erase]
    cases s.blacklist.find? (agent, ⟨result.targetIP, none⟩) <;> rfl
  · simp only [hgood, ne_eq, not_false_eq_true, if_true, if_false]
    cases hentry : s.blacklist.find? (agent, ⟨result.targetIP, none⟩) with
    | none =>
      rw [Table.find?_put]
      exact congrArg (Option.map _) (if_pos rfl)
    | some entry =>
      have hown : entry.key = (agent, ⟨result.targetIP, none⟩) := Table.key_of_find? hentry
      rw [Table.find?_put]
      exact congrArg (Option.map _) (if_pos hown)

/-- **One result of a batch, on the contents.** -/
theorem contents_recorded (hrows : Rows pg s)
    (hrecord : RecordOf pg s now agentID job result agent task row) :
    (s.recorded now job agent result row).contents job.id =
      (s.contents job.id).record pg job.plan agent result := by
  obtain ⟨hid, -, -, -⟩ := submittable_eq hrecord.submittable
  have hof := hrecord.row_of hrows
  have hip : row.targetIP = ⟨result.targetIP, none⟩ := by rw [hof.targetIP, hrecord.target]
  have htask : s.tasks.find? result.taskID = some task := hid ▸ Table.find?_key hrecord.mem
  have hresults : (s.recorded now job agent result row).results = s.results.put row :=
    congrArg s.results.put (hrecord.resultVersion hrows).1
  have hrow : (s.contents job.id).rowOf pg job.plan agent result = some row.untimed := by
    unfold Contents.rowOf
    rw [find?_contents, htask]
    exact row_untimed hrecord.built
  unfold Contents.record
  rw [hrow]
  unfold ScanStore.contents
  rw [Contents.mk.injEq]
  refine ⟨rfl, ?_, ?_, ?_, rfl⟩
  -- the tasks: the update selects the one task of the result
  · unfold ScanStore.recorded ScanStore.filed Table.updateWhere
    simp only [List.map_map]
    refine List.map_congr_left fun other hother => ?_
    rw [Function.comp_apply, Function.comp_apply, ScanTask.id_untimed]
    by_cases hsame : other.id = result.taskID
    · obtain rfl : other = task := Table.eq_of_key hother hrecord.mem (hsame.trans hid.symm)
      rw [if_pos hrecord.submittable, if_pos hsame]
      rfl
    · rw [if_neg fun hsub => hsame (submittable_eq hsub).1, if_neg hsame]
  · funext id
    -- the results: the insert never meets a row, as the task was leased
    rw [hresults, Table.find?_put]
    by_cases hkey : id = result.taskID
    · rw [if_pos (hof.taskID.trans (hid.trans hkey.symm)), hkey, Function.update_self]
      rfl
    · rw [if_neg fun heq => hkey (heq.symm.trans (hof.taskID.trans hid)),
        Function.update_of_ne hkey]
  · funext key
    -- the blacklist: one entry, under the address of the task
    have hblacklist : (s.recorded now job agent result row).blacklist =
        s.reblacklisted now job agent ⟨result.targetIP, none⟩ (blacklistReason job result) := by
      rw [← hip]
      rfl
    rw [hblacklist]
    by_cases hkey : key = (agent, ⟨result.targetIP, none⟩)
    · subst hkey
      rw [Function.update_self]
      exact find?_reblacklisted_self s now job agent result
    · rw [Function.update_of_ne hkey,
        find?_reblacklisted_of_ne s now job agent _ _ (Ne.symm hkey)]

theorem contents_submitted {results : List ProbeResult} {s' : ScanStore} (hrows : Rows pg s)
    (huuid : pg.uuid agentID = some agent)
    (hsubmitted : Submitted pg now agentID job s results s') :
    s'.contents job.id = results.foldl (Contents.record pg job.plan agent) (s.contents job.id) := by
  induction hsubmitted with
  | nil => rfl
  | cons hrecord _ ih =>
    obtain rfl := Option.some_inj.mp (huuid.symm.trans hrecord.uuid)
    rw [ih (hrows.recorded hrecord), contents_recorded hrows hrecord, List.foldl_cons]

/-- What the progress update writes is no part of the contents. -/
theorem contents_progressed (s : ScanStore) (now : Timestamp) (jobID : UUID) :
    (s.progressed now jobID).contents jobID = s.contents jobID := by
  unfold ScanStore.progressed
  split
  · rfl
  · rename_i stats _
    unfold ScanStore.contents Table.updateWhere
    rw [Contents.mk.injEq, List.map_map]
    refine ⟨List.map_congr_left fun job _ => ?_, rfl, rfl, rfl, rfl⟩
    rw [Function.comp_apply]
    by_cases hid : job.id = jobID
    · simp only [hid, decide_true, if_true, ScanJob.id_progress]
      rfl
    · simp only [hid, decide_false, if_false, Bool.false_eq_true]

end Statements

/-! ## The end of a batch

The last statement counts anew from the tables, so it depends on the contents only. Two
stores with the same contents for the job therefore leave the same job row, apart from its
times. -/

def Contents.counts (c : Contents) (condition : ScanResult → Bool) (task : ScanTask) : Bool :=
  decide (task.status = .completed) &&
    match c.results task.id with
    | none => false
    | some row => condition row

/-- What the progress update counts. -/
def Contents.stats (c : Contents) (jobID : UUID) : Option Stats :=
  match c.jobs.find? fun job => decide (job.id = jobID) with
  | none => none
  | some job =>
    let jobTasks := c.tasks.filter fun task => decide (task.jobID = jobID)
    if jobTasks = [] then none
    else
      some
        { completed := jobTasks.countP fun task => decide (task.status = .completed)
          success := jobTasks.countP (c.counts (ScanResult.passes job))
          failed := jobTasks.countP (c.counts (ScanResult.fails job)) }

theorem counts_contents (s : ScanStore) (jobID : UUID) {condition condition' : ScanResult → Bool}
    (h : ∀ row, condition' row.untimed = condition row) (task : ScanTask) :
    (s.contents jobID).counts condition' task.untimed = s.counts condition task := by
  have hresult : (s.contents jobID).results task.id =
      (s.results.find? task.id).map ScanResult.untimed := rfl
  unfold Contents.counts ScanStore.counts
  rw [ScanTask.id_untimed, hresult]
  cases s.results.find? task.id with
  | none => rfl
  | some row =>
    dsimp only [Option.map_some]
    rw [h]
    rfl

theorem passes_untimed (job : ScanJob) (row : ScanResult) :
    row.untimed.passes job.plan = row.passes job := rfl

theorem fails_untimed (job : ScanJob) (row : ScanResult) :
    row.untimed.fails job.plan = row.fails job := rfl

theorem completed_untimed (task : ScanTask) :
    decide (task.untimed.status = .completed) = decide (task.status = .completed) := rfl

theorem countP_untimed {condition condition' : ScanTask → Bool} (l : List ScanTask)
    (h : ∀ task, condition' task.untimed = condition task) :
    (l.map ScanTask.untimed).countP condition' = l.countP condition := by
  rw [List.countP_map]
  exact List.countP_congr fun task _ => by rw [Function.comp_apply, h]

theorem stats_contents (s : ScanStore) (jobID : UUID) :
    (s.contents jobID).stats jobID = s.stats jobID := by
  have htasks : ((s.contents jobID).tasks.filter fun task => decide (task.jobID = jobID)) =
      (s.jobTasks jobID).map ScanTask.untimed := List.filter_map
  have hjobs : ((s.contents jobID).jobs.find? fun job => decide (job.id = jobID)) =
      (s.jobs.find? jobID).map ScanJob.plan := by
    have hid : (fun job : ScanJob => decide (job.id = jobID)) ∘
        (fun job : ScanJob => if job.id = jobID then job.plan else job.untimed) =
          fun job => decide (job.id = jobID) := by
      funext job
      rw [Function.comp_apply]
      split <;> rfl
    simp only [ScanStore.contents, List.find?_map, hid, Table.find?]
    cases hfind : s.jobs.rows.find? fun job => decide (job.id = jobID) with
    | none => rfl
    | some job =>
      have hjob : job.id = jobID := by simpa using List.find?_some hfind
      rw [Option.map_some, if_pos hjob, Option.map_some]
  unfold Contents.stats ScanStore.stats
  rw [hjobs]
  cases s.jobs.find? jobID with
  | none => rfl
  | some job =>
    dsimp only [Option.map_some]
    rw [htasks]
    by_cases hempty : s.jobTasks jobID = []
    · rw [if_pos (by rw [hempty]; rfl), if_pos hempty]
    · rw [if_neg (mt List.map_eq_nil_iff.mp hempty), if_neg hempty]
      have hpasses := countP_untimed (s.jobTasks jobID) (counts_contents s jobID
        (passes_untimed job))
      have hfails := countP_untimed (s.jobTasks jobID) (counts_contents s jobID
        (fails_untimed job))
      rw [hpasses, hfails, countP_untimed (s.jobTasks jobID) completed_untimed]

/-- The same rows, timestamps aside. -/
structure SameButTimes (s s' : ScanStore) : Prop where
  jobs : s'.jobs.rows.map ScanJob.untimed = s.jobs.rows.map ScanJob.untimed
  tasks : s'.tasks.rows.map ScanTask.untimed = s.tasks.rows.map ScanTask.untimed
  results : ∀ id, (s'.results.find? id).map ScanResult.untimed =
    (s.results.find? id).map ScanResult.untimed
  blacklist : ∀ key, (s'.blacklist.find? key).map BlacklistEntry.untimed =
    (s.blacklist.find? key).map BlacklistEntry.untimed
  taskSeq : s'.taskSeq = s.taskSeq

/-- The jobs after a progress update that has counted. -/
theorem untimed_progressed {s : ScanStore} {jobID : UUID} {stats : Stats}
    (hstats : s.stats jobID = some stats) (now : Timestamp) :
    (s.progressed now jobID).jobs.rows.map ScanJob.untimed = (s.contents jobID).jobs.map fun job =>
      if job.id = jobID then (job.progress 0 stats).untimed else job := by
  have hid : ∀ job : ScanJob, (if job.id = jobID then job.plan else job.untimed).id = job.id := by
    intro job
    split <;> rfl
  simp only [ScanStore.progressed, hstats, ScanStore.contents, Table.updateWhere, List.map_map]
  refine List.map_congr_left fun job _ => ?_
  rw [Function.comp_apply, Function.comp_apply, hid]
  by_cases hjob : job.id = jobID
  · rw [if_pos (decide_eq_true hjob), if_pos hjob, if_pos hjob]
    rfl
  · rw [if_neg (by simpa using hjob), if_neg hjob, if_neg hjob]

/-- **What the progress update makes of one contents is one database, timestamps aside.** -/
theorem sameButTimes_progressed {s s' : ScanStore} {jobID : UUID}
    (h : s.contents jobID = s'.contents jobID) (hcounts : s.stats jobID ≠ none)
    (now now' : Timestamp) : SameButTimes (s.progressed now jobID) (s'.progressed now' jobID) := by
  obtain ⟨stats, hstats⟩ := Option.ne_none_iff_exists'.mp hcounts
  have hstats' : s'.stats jobID = some stats := by
    rw [← stats_contents, ← h, stats_contents, hstats]
  have hsame : (s.progressed now jobID).contents jobID = (s'.progressed now' jobID).contents jobID := by
    rw [contents_progressed, contents_progressed, h]
  constructor
  · rw [untimed_progressed hstats, untimed_progressed hstats', h]
  · exact (congrArg Contents.tasks hsame).symm
  · exact fun id => (congrFun (congrArg Contents.results hsame) id).symm
  · exact fun key => (congrFun (congrArg Contents.blacklist hsame) key).symm
  · exact (congrArg Contents.taskSeq hsame).symm

end Cfscan.Scan
