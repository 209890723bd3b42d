import Cfscan.Recheck.Rounds
import Cfscan.Scan.Settled

/-!
# Jobs that are over

What the transactions of rounds, claims, submissions and stops can do to the jobs there are: a job
that is completed or stopped does not become active again. For a stopped job the status alone keeps
it so; a completed one is kept by its tasks, which stay completed and are as many as the job wants
(`Finished`), so that the progress update of a late submission completes it again.

`Onward` is what a transaction may rely on of the others, and `Orderly` what it owes them in return.
Both leave the blacklist and the results out, which no question here is about.
-/

set_option autoImplicit false

namespace Cfscan.Recheck

open Cfscan.Lib Cfscan.Store Cfscan.Scan

/-! ## What the others may commit

`Onward` is closed under composition, which is all the interleaving rule asks of it. A
completed job must be kept by its tasks and not only by its status, since a late submission
writes the status again. -/

/-- The changes to a job. -/
structure JobOnward (job job' : ScanJob) : Prop where
  id : job'.id = job.id
  kind : job'.kind = job.kind
  total : job'.totalTargets = job.totalTargets
  ended : job.active = false → job'.active = false

theorem JobOnward.refl (job : ScanJob) : JobOnward job job := ⟨rfl, rfl, rfl, fun h => h⟩

theorem JobOnward.trans {a b c : ScanJob} (h : JobOnward a b) (h' : JobOnward b c) :
    JobOnward a c :=
  ⟨h'.id.trans h.id, h'.kind.trans h.kind, h'.total.trans h.total, h'.ended ∘ h.ended⟩

/-- A completed task of the job. -/
def Done (s : ScanStore) (jobID : UUID) (id : Int) : Prop :=
  ∃ task, s.tasks.find? id = some task ∧ task.jobID = jobID ∧ task.status = .completed

/-- The completed jobs have as many completed tasks as they want. -/
def Finished (s : ScanStore) : Prop :=
  ∀ job ∈ s.jobs.rows, job.status = .completed →
    ∃ ids : List Int, ids.Nodup ∧ job.totalTargets ≤ ids.length ∧ ∀ id ∈ ids, Done s job.id id

structure Onward (s s' : ScanStore) : Prop where
  jobs : ∀ job ∈ s.jobs.rows, ∃ job' ∈ s'.jobs.rows, JobOnward job job'
  final : ∀ task ∈ s.tasks.rows, task.status.final = true → task ∈ s'.tasks.rows
  finished : Finished s → Finished s'

theorem Onward.refl (s : ScanStore) : Onward s s :=
  ⟨fun job hjob => ⟨job, hjob, .refl job⟩, fun _ h _ => h, id⟩

theorem Onward.trans (a b c : ScanStore) (h : Onward a b) (h' : Onward b c) : Onward a c where
  jobs := by
    intro job hjob
    obtain ⟨job', hjob', hon⟩ := h.jobs job hjob
    obtain ⟨job'', hjob'', hon'⟩ := h'.jobs job' hjob'
    exact ⟨job'', hjob'', hon.trans hon'⟩
  final := fun task htask hst => h'.final task (h.final task htask hst) hst
  finished := h'.finished ∘ h.finished

theorem Done.onward {s s' : ScanStore} {jobID : UUID} {id : Int} (h : Done s jobID id)
    (hon : Onward s s') : Done s' jobID id := by
  obtain ⟨task, hfound, hjobID, hst⟩ := h
  obtain ⟨hmem, rfl⟩ := Table.find?_eq_some.mp hfound
  have hfinal : task.status.final = true := by rw [hst]; rfl
  exact ⟨task, Table.find?_key (hon.final task hmem hfinal), hjobID, hst⟩

/-- The jobs a database reached by the scan calls has are in order. -/
theorem finished_of_jobs {s : ScanStore} (h : ∀ job ∈ s.jobs.rows, JobOk s job) : Finished s := by
  intro job hjob hst
  have hok := h job hjob
  refine ⟨(s.jobTasks job.id).map ScanTask.id, ?_, ?_, fun id hid => ?_⟩
  · exact (List.Sublist.map ScanTask.id List.filter_sublist).nodup s.tasks.nodup
  · rw [List.length_map, hok.totals.total]
  · obtain ⟨task, htask, rfl⟩ := List.mem_map.mp hid
    obtain ⟨hmem, hjobID⟩ := mem_jobTasks.mp htask
    exact ⟨task, Table.find?_key hmem, hjobID, hok.phase.completed hst task htask⟩

/-! ## Transactions under way

`fresh` is the id a round has drawn for its job: the only job a transaction may bring in.
The other rows it writes are rows it has locked. -/

/-- The job write of a transaction that may create the job `fresh`. -/
def Moves (fresh : Option UUID) (s : ScanStore) (row : ScanJob) : Prop :=
  (∃ old, s.jobs.find? row.id = some old ∧ JobOnward old row) ∨
    (s.jobs.find? row.id = none ∧ fresh = some row.id)

/-- The row of a task is not one that must stay. -/
def Unsettled (s : ScanStore) (id : Int) : Prop :=
  ∀ old, s.tasks.find? id = some old → old.status.final = false

/-- A transaction whose writes keep what is over. -/
structure Orderly (fresh : Option UUID) (locked : RowKey → Prop) (writes : List Write)
    (s : ScanStore) : Prop where
  finished : Finished s
  job : ∀ row, .job row ∈ writes → locked (.job row.id) ∧ Moves fresh s row
  task : ∀ row, .task row ∈ writes → locked (.task row.id) ∧ Unsettled s row.id

/-- It completes the jobs it says it completes: their tasks are committed, or among its writes,
which are then completed tasks of that job and no others. -/
def Completes (writes : List Write) (s : ScanStore) : Prop :=
  ∀ row : ScanJob, .job row ∈ writes → row.status = .completed →
    (∀ task : ScanTask, .task task ∈ writes → task.jobID = row.id ∧ task.status = .completed) ∧
    ∃ ids : List Int, ids.Nodup ∧ row.totalTargets ≤ ids.length ∧
      ∀ id ∈ ids, Done s row.id id ∨ ∃ task, .task task ∈ writes ∧ task.id = id

section Orderly

variable {fresh : Option UUID} {locked : RowKey → Prop} {writes : List Write} {s s' : ScanStore}

theorem Orderly.nil (h : Finished s) : Orderly fresh locked [] s :=
  ⟨h, fun _ hw => absurd hw List.not_mem_nil, fun _ hw => absurd hw List.not_mem_nil⟩

theorem Moves.later {row : ScanJob} (h : Moves fresh s row) (hlater : Later Onward locked s s')
    (hlocked : locked (.job row.id)) : Moves fresh s' row := by
  unfold Moves
  rwa [find?_job_later hlater hlocked]

theorem Unsettled.later {id : Int} (h : Unsettled s id) (hlater : Later Onward locked s s')
    (hlocked : locked (.task id)) : Unsettled s' id := by
  unfold Unsettled
  rwa [find?_task_later hlater hlocked]

theorem stable_orderly : TableIn.Stable Onward (Orderly fresh) where
  later := by
    intro locked writes s s' h hlater
    refine ⟨hlater.1.finished h.finished, fun row hw => ?_, fun row hw => ?_⟩
    · obtain ⟨hlocked, hmoves⟩ := h.job row hw
      exact ⟨hlocked, hmoves.later hlater hlocked⟩
    · obtain ⟨hlocked, hopen⟩ := h.task row hw
      exact ⟨hlocked, hopen.later hlater hlocked⟩
  lock := fun _ _ _ _ h => ⟨h.finished, fun row hw => (h.job row hw).imp_left Or.inr,
    fun row hw => (h.task row hw).imp_left Or.inr⟩

theorem Completes.later (h : Completes writes s) (hlater : Later Onward locked s s') :
    Completes writes s' := by
  intro row hw hst
  obtain ⟨htasks, ids, hnodup, hlength, hids⟩ := h row hw hst
  exact ⟨htasks, ids, hnodup, hlength, fun id hid => (hids id hid).imp_left (·.onward hlater.1)⟩

/-! ### Writes -/

theorem Orderly.putJob (h : Orderly fresh locked writes s) {row : ScanJob}
    (hlocked : locked (.job row.id)) (hmoves : Moves fresh s row) :
    Orderly fresh locked (writes ++ [.job row]) s := by
  refine ⟨h.finished, fun row' hw => ?_, fun task hw => ?_⟩
  · rcases List.mem_append.mp hw with hold | hnew
    · exact h.job row' hold
    · cases List.mem_singleton.mp hnew
      exact ⟨hlocked, hmoves⟩
  · rcases List.mem_append.mp hw with hold | hnew
    · exact h.task task hold
    · cases List.mem_singleton.mp hnew

theorem Orderly.putTask (h : Orderly fresh locked writes s) {row : ScanTask}
    (hlocked : locked (.task row.id)) (hopen : Unsettled s row.id) :
    Orderly fresh locked (writes ++ [.task row]) s := by
  refine ⟨h.finished, fun job hw => ?_, fun row' hw => ?_⟩
  · rcases List.mem_append.mp hw with hold | hnew
    · exact h.job job hold
    · cases List.mem_singleton.mp hnew
  · rcases List.mem_append.mp hw with hold | hnew
    · exact h.task row' hold
    · cases List.mem_singleton.mp hnew
      exact ⟨hlocked, hopen⟩

/-- Results and blacklist entries are nobody's concern here. -/
theorem Orderly.putOther (h : Orderly fresh locked writes s) {w : Write}
    (hjob : ∀ row, .job row ≠ w) (htask : ∀ row, .task row ≠ w) :
    Orderly fresh locked (writes ++ [w]) s := by
  refine ⟨h.finished, fun row hw => ?_, fun row hw => ?_⟩
  · rcases List.mem_append.mp hw with hold | hnew
    · exact h.job row hold
    · exact absurd (List.mem_singleton.mp hnew) (hjob row)
  · rcases List.mem_append.mp hw with hold | hnew
    · exact h.task row hold
    · exact absurd (List.mem_singleton.mp hnew) (htask row)

/-! ### What it sees of its rows -/

/-- A task it sees unsettled was so before it. -/
theorem Orderly.unsettled (h : Orderly fresh locked writes s) {id : Int}
    (hseen : ∀ task, (applyAll s writes).tasks.find? id = some task →
      task.status.final = false) : Unsettled s id := by
  intro old hold
  rcases visible_task s writes id with ⟨_, hsame⟩ | ⟨row, hw, rfl, _⟩
  · exact hseen old (hsame.trans hold)
  · exact (h.task row hw).2 old hold

/-- A job it sees is the committed one, or a write of its own. -/
theorem Orderly.moves (h : Orderly fresh locked writes s) {job : ScanJob}
    (hseen : (applyAll s writes).jobs.find? job.id = some job) : Moves fresh s job := by
  rcases visible_job s writes job.id with ⟨_, hsame⟩ | ⟨row, hw, _, hrow⟩
  · exact Or.inl ⟨job, hsame ▸ hseen, .refl job⟩
  · obtain rfl : job = row := Option.some.inj (hseen.symm.trans hrow)
    exact (h.job job hw).2

/-- A task that was done before it is still seen so. -/
theorem Orderly.done (h : Orderly fresh locked writes s) {jobID : UUID} {id : Int}
    (hdone : Done s jobID id) : Done (applyAll s writes) jobID id := by
  obtain ⟨task, hfound, hjobID, hst⟩ := hdone
  rcases visible_task s writes id with ⟨_, hsame⟩ | ⟨row, hw, rfl, _⟩
  · exact ⟨task, hsame.trans hfound, hjobID, hst⟩
  · have := (h.task row hw).2 task hfound
    rw [hst] at this
    cases this

/-! ### The commit -/

theorem Orderly.commit (h : Orderly fresh locked writes s) (hcompletes : Completes writes s) :
    Onward s (applyAll s writes) where
  jobs := by
    intro job hjob
    have hfound := Table.find?_key hjob
    rcases visible_job s writes job.id with ⟨_, hsame⟩ | ⟨row, hw, hid, hrow⟩
    · exact ⟨job, Table.mem_of_find? (hsame.trans hfound), .refl job⟩
    · refine ⟨row, Table.mem_of_find? hrow, ?_⟩
      rcases (h.job row hw).2 with ⟨old, hold, hon⟩ | ⟨hnone, _⟩
      · rw [hid, hfound] at hold
        cases hold
        exact hon
      · rw [hid, hfound] at hnone
        cases hnone
  final := by
    intro task htask hfinal
    have hfound := Table.find?_key htask
    rcases visible_task s writes task.id with ⟨_, hsame⟩ | ⟨row, hw, hid, _⟩
    · exact Table.mem_of_find? (hsame.trans hfound)
    · have := (h.task row hw).2 task (hid ▸ hfound)
      rw [hfinal] at this
      cases this
  finished := by
    intro hfinished job hjob hst
    have hfound := Table.find?_key hjob
    rcases visible_job s writes job.id with ⟨_, hsame⟩ | ⟨row, hw, _, hrow⟩
    · obtain ⟨ids, hnodup, hlength, hids⟩ :=
        hfinished job (Table.mem_of_find? (hsame.symm.trans hfound)) hst
      exact ⟨ids, hnodup, hlength, fun id hid => h.done (hids id hid)⟩
    · obtain rfl : job = row := Option.some.inj (hfound.symm.trans hrow)
      obtain ⟨htasks, ids, hnodup, hlength, hids⟩ := hcompletes job hw hst
      refine ⟨ids, hnodup, hlength, fun id hid => ?_⟩
      rcases hids id hid with hdone | ⟨task, htask, rfl⟩
      · exact h.done hdone
      · rcases visible_task s writes task.id with ⟨hnone, _⟩ | ⟨own, hown, _, hseen⟩
        · exact absurd rfl (hnone task htask)
        · exact ⟨own, hseen, htasks own hown⟩

/-- The jobs after it: those before it, and `fresh`. -/
theorem Orderly.jobs (h : Orderly fresh locked writes s) {job : ScanJob}
    (hjob : job ∈ (applyAll s writes).jobs.rows) :
    fresh = some job.id ∨ ∃ old ∈ s.jobs.rows, old.id = job.id := by
  rcases h.moves (Table.find?_key hjob) with ⟨old, hold, _⟩ | ⟨_, hfresh⟩
  · obtain ⟨hmem, hid⟩ := Table.find?_eq_some.mp hold
    exact Or.inr ⟨old, hmem, hid⟩
  · exact Or.inl hfresh

end Orderly

end Cfscan.Recheck
