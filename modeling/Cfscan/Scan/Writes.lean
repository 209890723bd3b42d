import Cfscan.Scan.Rows

/-!
# The writes of a scan transaction

`ClaimTasks`, `SubmitResults` and `StopScanJob` write a row only while they hold a lock that keeps
the reason for the write true: a task, over a version that is neither completed nor cancelled; a
job, over a version that is not stopped; a result, under the lock of its task; the blacklist, under
the lock of a job that is not stopped. `Grounded` says this of one write, and `Careful.commit` and
`Careful.frozen` what it is worth when the writes reach the database.

Only `ClaimTasks` writes tasks without holding the lock of their job, and only for them the lock of
the task has to say that the job is not stopped: a task of a stopped job is completed or cancelled,
and no version of it is written that is neither.
-/

set_option autoImplicit false

namespace Cfscan.Scan

open Cfscan.Lib Cfscan.Store

/-! ## What others may commit -/

/-- A result is for a task there is, of the same job. -/
def Sane (s : ScanStore) : Prop :=
  ∀ row ∈ s.results.rows, ∃ task ∈ s.tasks.rows, task.id = row.taskID ∧ task.jobID = row.jobID

theorem Rows.sane {pg : Postgres} {s : ScanStore} (h : Rows pg s) : Sane s := by
  intro row hrow
  obtain ⟨task, htask, _, hof⟩ := h.filed row hrow
  exact ⟨task, htask, hof.taskID.symm, hof.jobID.symm⟩

/-- What any of the three transactions can do to the database, and no more. -/
structure Rely (s s' : ScanStore) : Prop where
  stopped : ∀ job ∈ s.jobs.rows, job.status = .stopped → job ∈ s'.jobs.rows
  jobs : ∀ job' ∈ s'.jobs.rows, ∃ job ∈ s.jobs.rows, job.id = job'.id
  final : ∀ task ∈ s.tasks.rows, task.status.final = true → task ∈ s'.tasks.rows
  tasks : ∀ task' ∈ s'.tasks.rows, ∃ task ∈ s.tasks.rows, SameTask task task'
  sane : Sane s → Sane s'

theorem Rely.refl (s : ScanStore) : Rely s s :=
  ⟨fun _ h _ => h, fun job h => ⟨job, h, rfl⟩, fun _ h _ => h, fun task h => ⟨task, h, .refl task⟩,
    fun h => h⟩

theorem Rely.trans (a b c : ScanStore) (h : Rely a b) (h' : Rely b c) : Rely a c where
  stopped := fun job hjob hst => h'.stopped job (h.stopped job hjob hst) hst
  jobs := by
    intro job'' hjob''
    obtain ⟨job', hjob', hid'⟩ := h'.jobs job'' hjob''
    obtain ⟨job, hjob, hid⟩ := h.jobs job' hjob'
    exact ⟨job, hjob, hid.trans hid'⟩
  final := fun task htask hst => h'.final task (h.final task htask hst) hst
  tasks := by
    intro task'' htask''
    obtain ⟨task', htask', hsame'⟩ := h'.tasks task'' htask''
    obtain ⟨task, htask, hsame⟩ := h.tasks task' htask'
    exact ⟨task, htask, hsame.trans hsame'⟩
  sane := fun hs => h'.sane (h.sane hs)

/-! ## Grounded writes -/

/-- A job that is not stopped. -/
def OpenJob (s : ScanStore) (id : UUID) : Prop :=
  ∃ job, s.jobs.find? id = some job ∧ job.status ≠ .stopped

/-- A task of a job, neither completed nor cancelled. -/
def OpenTask (s : ScanStore) (id : Int) (jobID : UUID) : Prop :=
  ∃ task, s.tasks.find? id = some task ∧ task.status.final = false ∧ task.jobID = jobID

/-- A write whose reason a held lock keeps true. `own` is the job on whose behalf the transaction
may write the blacklist. -/
def Grounded (own : Option UUID) (locked : RowKey → Prop) (s : ScanStore) : Write → Prop
  | .job row => locked (.job row.id) ∧ OpenJob s row.id
  | .task row => locked (.task row.id) ∧
    ∃ task, s.tasks.find? row.id = some task ∧ task.status.final = false ∧ SameTask task row
  | .result row => locked (.task row.taskID) ∧ OpenTask s row.taskID row.jobID
  | .blacklist _ => ∃ jobID, own = some jobID ∧ locked (.job jobID) ∧ OpenJob s jobID
  | .unlist _ _ => ∃ jobID, own = some jobID ∧ locked (.job jobID) ∧ OpenJob s jobID

structure Careful (own : Option UUID) (locked : RowKey → Prop) (writes : List Write)
    (s : ScanStore) : Prop where
  grounded : ∀ w ∈ writes, Grounded own locked s w
  sane : Sane s

section Stable

variable {own : Option UUID} {locked : RowKey → Prop} {writes : List Write} {s s' : ScanStore}

theorem find?_job_later {rely : ScanStore → ScanStore → Prop} {id : UUID}
    (h : Later rely locked s s') (hlocked : locked (.job id)) :
    s'.jobs.find? id = s.jobs.find? id :=
  jobs.find?_row s' s id (h.2 _ hlocked)

theorem find?_task_later {rely : ScanStore → ScanStore → Prop} {id : Int}
    (h : Later rely locked s s') (hlocked : locked (.task id)) :
    s'.tasks.find? id = s.tasks.find? id :=
  tasks.find?_row s' s id (h.2 _ hlocked)

theorem OpenJob.later {id : UUID} (hopen : OpenJob s id) (h : Later Rely locked s s')
    (hlocked : locked (.job id)) : OpenJob s' id := by
  unfold OpenJob
  rwa [find?_job_later h hlocked]

theorem OpenTask.later {id : Int} {jobID : UUID} (hopen : OpenTask s id jobID)
    (h : Later Rely locked s s') (hlocked : locked (.task id)) : OpenTask s' id jobID := by
  unfold OpenTask
  rwa [find?_task_later h hlocked]

theorem Grounded.later {w : Write} (hw : Grounded own locked s w) (h : Later Rely locked s s') :
    Grounded own locked s' w := by
  cases w with
  | job row => exact ⟨hw.1, hw.2.later h hw.1⟩
  | task row =>
    refine ⟨hw.1, ?_⟩
    rw [find?_task_later h hw.1]
    exact hw.2
  | result row => exact ⟨hw.1, hw.2.later h hw.1⟩
  | blacklist row =>
    obtain ⟨jobID, hown, hlocked, hopen⟩ := hw
    exact ⟨jobID, hown, hlocked, hopen.later h hlocked⟩
  | unlist agent targetIP =>
    obtain ⟨jobID, hown, hlocked, hopen⟩ := hw
    exact ⟨jobID, hown, hlocked, hopen.later h hlocked⟩

theorem Grounded.lock {w : Write} {locked' : RowKey → Prop} (hw : Grounded own locked s w)
    (hmono : ∀ key, locked key → locked' key) : Grounded own locked' s w := by
  cases w with
  | job row => exact ⟨hmono _ hw.1, hw.2⟩
  | task row => exact ⟨hmono _ hw.1, hw.2⟩
  | result row => exact ⟨hmono _ hw.1, hw.2⟩
  | blacklist row =>
    obtain ⟨jobID, hown, hlocked, hopen⟩ := hw
    exact ⟨jobID, hown, hmono _ hlocked, hopen⟩
  | unlist agent targetIP =>
    obtain ⟨jobID, hown, hlocked, hopen⟩ := hw
    exact ⟨jobID, hown, hmono _ hlocked, hopen⟩

theorem Careful.nil (h : Sane s) : Careful own locked [] s :=
  ⟨fun _ hw => absurd hw (List.not_mem_nil), h⟩

theorem Careful.later (hc : Careful own locked writes s) (h : Later Rely locked s s') :
    Careful own locked writes s' :=
  ⟨fun w hw => (hc.grounded w hw).later h, h.1.sane hc.sane⟩

theorem Careful.lock {locked' : RowKey → Prop} (hc : Careful own locked writes s)
    (hmono : ∀ key, locked key → locked' key) : Careful own locked' writes s :=
  ⟨fun w hw => (hc.grounded w hw).lock hmono, hc.sane⟩

theorem Careful.put {w : Write} (hc : Careful own locked writes s) (hw : Grounded own locked s w) :
    Careful own locked (writes ++ [w]) s := by
  refine ⟨fun w' hw' => ?_, hc.sane⟩
  rcases List.mem_append.mp hw' with hold | hnew
  · exact hc.grounded w' hold
  · rw [List.mem_singleton.mp hnew]
    exact hw

end Stable

/-! ## What a transaction sees of its own writes -/

/-- A write to the blacklist. -/
def Write.listing : Write → Bool
  | .blacklist _ => true
  | .unlist _ _ => true
  | _ => false

section Visible

variable {own : Option UUID} {locked : RowKey → Prop} {writes : List Write} {s : ScanStore}

theorem visible_job (s : ScanStore) (writes : List Write) (id : UUID) :
    ((∀ row, .job row ∈ writes → row.id ≠ id) ∧
        (applyAll s writes).jobs.find? id = s.jobs.find? id) ∨
      ∃ row, .job row ∈ writes ∧ row.id = id ∧ (applyAll s writes).jobs.find? id = some row := by
  rcases row_applyAll_cases s writes (.job id) with hnone | ⟨w, hw, hkey, s₀, hlast⟩
  · exact Or.inl ⟨fun row hw hid => hnone _ hw (congrArg RowKey.job hid),
      jobs.find?_row _ _ id (row_applyAll hnone)⟩
  · cases w with
    | job row =>
      obtain rfl : row.id = id := by injection hkey
      refine Or.inr ⟨row, hw, rfl, (jobs.find?_row _ _ _ hlast).trans ?_⟩
      exact (Table.find?_put).trans (if_pos rfl)
    | task => cases hkey
    | result => cases hkey
    | blacklist => cases hkey
    | unlist => cases hkey

theorem visible_task (s : ScanStore) (writes : List Write) (id : Int) :
    ((∀ row, .task row ∈ writes → row.id ≠ id) ∧
        (applyAll s writes).tasks.find? id = s.tasks.find? id) ∨
      ∃ row, .task row ∈ writes ∧ row.id = id ∧
        (applyAll s writes).tasks.find? id = some row := by
  rcases row_applyAll_cases s writes (.task id) with hnone | ⟨w, hw, hkey, s₀, hlast⟩
  · exact Or.inl ⟨fun row hw hid => hnone _ hw (congrArg RowKey.task hid),
      tasks.find?_row _ _ id (row_applyAll hnone)⟩
  · cases w with
    | task row =>
      obtain rfl : row.id = id := by injection hkey
      refine Or.inr ⟨row, hw, rfl, (tasks.find?_row _ _ _ hlast).trans ?_⟩
      exact (Table.find?_put).trans (if_pos rfl)
    | job => cases hkey
    | result => cases hkey
    | blacklist => cases hkey
    | unlist => cases hkey

theorem visible_result (s : ScanStore) (writes : List Write) (taskID : Int) :
    (applyAll s writes).results.find? taskID = s.results.find? taskID ∨
      ∃ row, .result row ∈ writes ∧ row.taskID = taskID ∧
        (applyAll s writes).results.find? taskID = some row := by
  rcases row_applyAll_cases s writes (.result taskID) with hnone | ⟨w, hw, hkey, s₀, hlast⟩
  · have hsame := row_applyAll (s := s) hnone
    exact Or.inl (by injection hsame)
  · cases w with
    | result row =>
      obtain rfl : row.taskID = taskID := by injection hkey
      refine Or.inr ⟨row, hw, rfl, ?_⟩
      have hput : (applyAll s writes).results.find? row.taskID =
          (s₀.results.put row).find? row.taskID := by injection hlast
      rw [hput, Table.find?_put, if_pos rfl]
    | job => cases hkey
    | task => cases hkey
    | blacklist => cases hkey
    | unlist => cases hkey

/-- Without a blacklist write the blacklist is the committed one. -/
theorem visible_blacklist
    (h : ∀ w ∈ writes, w.listing = false) :
    (applyAll s writes).blacklist = s.blacklist := by
  induction writes generalizing s with
  | nil => rfl
  | cons w writes ih =>
    have hrest := ih (s := s.apply w) fun w' hw' => h w' (.tail _ hw')
    refine hrest.trans ?_
    cases w with
    | job => rfl
    | task => rfl
    | result => rfl
    | blacklist entry => exact absurd (h _ (.head _)) (by simp [Write.listing])
    | unlist agent targetIP => exact absurd (h _ (.head _)) (by simp [Write.listing])

/-- A task a careful transaction sees: committed, or its own version of a task that is not final. -/
theorem Careful.task (hc : Careful own locked writes s) {id : Int} {task : ScanTask}
    (h : (applyAll s writes).tasks.find? id = some task) :
    ∃ old, s.tasks.find? id = some old ∧ SameTask old task ∧
      (old = task ∨ old.status.final = false) := by
  rcases visible_task s writes id with ⟨_, hsame⟩ | ⟨row, hw, rfl, hrow⟩
  · exact ⟨task, hsame ▸ h, .refl task, Or.inl rfl⟩
  · obtain ⟨_, old, hold, hfinal, hsame⟩ := hc.grounded _ hw
    rw [hrow] at h
    cases h
    exact ⟨old, hold, hsame, Or.inr hfinal⟩

end Visible

/-! ## The commit -/

/-- A job that is stopped and has only final tasks. -/
structure Frozen (jobID : UUID) (s : ScanStore) : Prop where
  job : ∃ job, s.jobs.find? jobID = some job ∧ job.status = .stopped
  tasks : ∀ task ∈ s.tasks.rows, task.jobID = jobID → task.status.final = true

theorem Frozen.not_open {jobID : UUID} {s : ScanStore} (h : Frozen jobID s) :
    ¬ OpenJob s jobID := by
  rintro ⟨job, hjob, hopen⟩
  obtain ⟨job', hjob', hstopped⟩ := h.job
  rw [hjob] at hjob'
  cases hjob'
  exact hopen hstopped

theorem Frozen.no_task {jobID : UUID} {s : ScanStore} (h : Frozen jobID s) {id : Int}
    {task : ScanTask} (htask : s.tasks.find? id = some task) (hfinal : task.status.final = false) :
    task.jobID ≠ jobID := by
  intro hjob
  rw [h.tasks task (Table.mem_of_find? htask) hjob] at hfinal
  cases hfinal

/-- **A frozen job stays frozen.** -/
theorem Frozen.later {jobID : UUID} {s s' : ScanStore} (h : Frozen jobID s) (hrely : Rely s s') :
    Frozen jobID s' := by
  obtain ⟨job, hjob, hstopped⟩ := h.job
  obtain ⟨hmem, hid⟩ := Table.find?_eq_some.mp hjob
  refine ⟨⟨job, Table.find?_eq_some.mpr ⟨hrely.stopped job hmem hstopped, hid⟩, hstopped⟩, ?_⟩
  intro task' htask' hjobID
  obtain ⟨task, htask, hsame⟩ := hrely.tasks task' htask'
  have hfinal := h.tasks task htask (hsame.jobID.symm.trans hjobID)
  -- the old row is still there, and keys are unique
  rwa [Table.eq_of_key htask' (hrely.final task htask hfinal) hsame.id]

/-- What stays of a frozen job when the database moves from `s` to `s'`. -/
structure Untouched (jobID : UUID) (s s' : ScanStore) : Prop where
  job : s'.jobs.find? jobID = s.jobs.find? jobID
  tasks : ∀ task, task.jobID = jobID → (task ∈ s'.tasks.rows ↔ task ∈ s.tasks.rows)
  results : ∀ row, row.jobID = jobID → (row ∈ s'.results.rows ↔ row ∈ s.results.rows)

theorem Untouched.refl (jobID : UUID) (s : ScanStore) : Untouched jobID s s :=
  ⟨rfl, fun _ _ => Iff.rfl, fun _ _ => Iff.rfl⟩

section Commit

variable {own : Option UUID} {locked : RowKey → Prop} {writes : List Write} {s : ScanStore}

theorem Careful.stopped_job (hc : Careful own locked writes s) {id : UUID} {job : ScanJob}
    (hjob : s.jobs.find? id = some job) (hstopped : job.status = .stopped) :
    (applyAll s writes).jobs.find? id = some job := by
  rcases visible_job s writes id with ⟨_, hsame⟩ | ⟨row, hw, rfl, _⟩
  · rw [hsame, hjob]
  · obtain ⟨_, old, hold, hopen⟩ := hc.grounded _ hw
    rw [hjob] at hold
    cases hold
    exact absurd hstopped hopen

theorem Careful.final_task (hc : Careful own locked writes s) {id : Int} {task : ScanTask}
    (htask : s.tasks.find? id = some task) (hfinal : task.status.final = true) :
    (applyAll s writes).tasks.find? id = some task := by
  rcases visible_task s writes id with ⟨_, hsame⟩ | ⟨row, hw, rfl, _⟩
  · rw [hsame, htask]
  · obtain ⟨_, old, hold, hopen, _⟩ := hc.grounded _ hw
    rw [htask] at hold
    cases hold
    rw [hfinal] at hopen
    cases hopen

/-- No task is lost. -/
theorem Careful.kept_task (hc : Careful own locked writes s) {task : ScanTask}
    (htask : task ∈ s.tasks.rows) :
    ∃ task' ∈ (applyAll s writes).tasks.rows, SameTask task task' := by
  rcases visible_task s writes task.id with ⟨_, hsame⟩ | ⟨row, hw, hid, hrow⟩
  · exact ⟨task, Table.mem_of_find? (hsame.trans (Table.find?_key htask)), .refl task⟩
  · obtain ⟨_, old, hold, _, hsame⟩ := hc.grounded _ hw
    rw [hid, Table.find?_key htask] at hold
    cases hold
    exact ⟨row, Table.mem_of_find? hrow, hsame⟩

/-- **The commit of a careful transaction** is one others can rely on. -/
theorem Careful.commit (hc : Careful own locked writes s) : Rely s (applyAll s writes) where
  stopped := fun job hjob hstopped =>
    Table.mem_of_find? (hc.stopped_job (Table.find?_key hjob) hstopped)
  jobs := by
    intro job' hjob'
    rcases visible_job s writes job'.id with ⟨_, hsame⟩ | ⟨row, hw, hid, _⟩
    · exact ⟨job', Table.mem_of_find? (hsame ▸ Table.find?_key hjob'), rfl⟩
    · obtain ⟨_, old, hold, _⟩ := hc.grounded _ hw
      obtain ⟨hmem, holdID⟩ := Table.find?_eq_some.mp hold
      exact ⟨old, hmem, holdID.trans hid⟩
  final := fun task htask hfinal =>
    Table.mem_of_find? (hc.final_task (Table.find?_key htask) hfinal)
  tasks := by
    intro task' htask'
    obtain ⟨old, hold, hsame, _⟩ := hc.task (Table.find?_key htask')
    exact ⟨old, Table.mem_of_find? hold, hsame⟩
  sane := by
    intro _ row hrow
    have htask : ∃ task ∈ s.tasks.rows, task.id = row.taskID ∧ task.jobID = row.jobID := by
      rcases visible_result s writes row.taskID with hsame | ⟨row', hw, _, hrow'⟩
      · exact hc.sane row (Table.mem_of_find? (hsame ▸ Table.find?_key hrow))
      · obtain rfl : row = row' := Option.some.inj ((Table.find?_key hrow).symm.trans hrow')
        obtain ⟨_, task, htask, _, hjobID⟩ := hc.grounded _ hw
        exact ⟨task, Table.mem_of_find? htask, Table.key_of_find? htask, hjobID⟩
    obtain ⟨task, htask, hid, hjobID⟩ := htask
    obtain ⟨task', htask', hsame⟩ := hc.kept_task htask
    exact ⟨task', htask', hsame.id.trans hid, hsame.jobID.trans hjobID⟩

/-- **It leaves a frozen job alone.** -/
theorem Careful.untouched (hc : Careful own locked writes s) {jobID : UUID}
    (hfrozen : Frozen jobID s) : Untouched jobID s (applyAll s writes) where
  job := by
    obtain ⟨job, hjob, hstopped⟩ := hfrozen.job
    rw [hc.stopped_job hjob hstopped, hjob]
  tasks := by
    intro task hjobID
    constructor
    · intro htask
      obtain ⟨old, hold, hsame, rfl | hopen⟩ := hc.task (Table.find?_key htask)
      · exact Table.mem_of_find? hold
      · exact absurd (hsame.jobID.symm.trans hjobID) (hfrozen.no_task hold hopen)
    · intro htask
      exact Table.mem_of_find? (hc.final_task (Table.find?_key htask)
        (hfrozen.tasks task htask hjobID))
  results := by
    intro row hjobID
    -- no result of the job was written, and none was written over
    have hnone : ∀ row', .result row' ∈ writes → row'.taskID = row.taskID →
        row ∉ s.results.rows ∧ row' ≠ row := by
      intro row' hw hid
      obtain ⟨_, task, htask, hopen, htaskJob⟩ := hc.grounded _ hw
      refine ⟨fun hrow => ?_, ?_⟩
      · obtain ⟨task', htask', hid', hjobID'⟩ := hc.sane row hrow
        have hkey := Table.key_of_find? htask
        obtain rfl := Table.eq_of_key (Table.mem_of_find? htask) htask'
          (hkey.trans (hid.trans hid'.symm))
        exact hfrozen.no_task htask hopen (hjobID'.trans hjobID)
      · rintro rfl
        exact hfrozen.no_task htask hopen (htaskJob.trans hjobID)
    rcases visible_result s writes row.taskID with
      hsame | ⟨row', hw, hid, hrow'⟩
    · constructor
      · intro hrow
        exact Table.mem_of_find? (hsame ▸ Table.find?_key hrow)
      · intro hrow
        exact Table.mem_of_find? (hsame.trans (Table.find?_key hrow))
    · obtain ⟨hold, hne⟩ := hnone row' hw hid
      refine ⟨fun hrow => absurd ?_ hne, fun hrow => absurd hrow hold⟩
      exact Option.some.inj (hrow'.symm.trans (Table.find?_key hrow))

/-- It writes the blacklist on behalf of another job, or not at all. -/
theorem Careful.blacklist (hc : Careful own locked writes s) {jobID : UUID}
    (hfrozen : Frozen jobID s) :
    (applyAll s writes).blacklist = s.blacklist ∨ ∃ other, own = some other ∧ other ≠ jobID := by
  by_cases hlisting : ∀ w ∈ writes, w.listing = false
  · exact Or.inl (visible_blacklist hlisting)
  · push Not at hlisting
    obtain ⟨w, hw, hlists⟩ := hlisting
    have hground : ∃ other, own = some other ∧ locked (.job other) ∧ OpenJob s other := by
      have := hc.grounded w hw
      cases w with
      | blacklist => exact this
      | unlist => exact this
      | job => exact absurd rfl hlists
      | task => exact absurd rfl hlists
      | result => exact absurd rfl hlists
    obtain ⟨other, hown, _, hopen⟩ := hground
    exact Or.inr ⟨other, hown, fun heq => hfrozen.not_open (heq ▸ hopen)⟩

end Commit

end Cfscan.Scan
