import Cfscan.Recheck.Onward

/-!
# The four transactions

Rounds, claims, submissions and stops are orderly (`Cfscan.Recheck.Onward`), action by action, with
any number of other transactions acting in between. Only a round brings a job in, and only the one
it was given the id of.

The proofs follow the programs action by action with the rules of `Cfscan.Lib.Statement`, as those
of `Cfscan.Scan.Interleaved` do for another invariant. A submission is the only one that completes a
job, and it has to say which tasks make it do so: it has counted them (`Counted`), in the database
or among its own writes.
-/

set_option autoImplicit false

namespace Cfscan.Recheck

open Cfscan.Lib Cfscan.Store Cfscan.Scan

/-! ## How a call ends

A rollback owes nothing. A commit owes that the jobs it sets to completed have their tasks
completed (`Completes`); everything else is in `Orderly` already. -/

/-- The job a call may create. -/
def RecheckCall.fresh : RecheckCall → Option UUID
  | .scan _ => none
  | .group g => some g.jobID

/-- The jobs after a call: those before it, and the one it may create. -/
def Post (call : RecheckCall) (_ : Ending RecheckReply) (s s' : ScanStore) : Prop :=
  ∀ job ∈ s'.jobs.rows, call.fresh = some job.id ∨ ∃ old ∈ s.jobs.rows, old.id = job.id

/-- An orderly transaction that completes no job. -/
def Working (fresh : Option UUID) (locked : RowKey → Prop) (writes : List Write)
    (s : ScanStore) : Prop :=
  Orderly fresh locked writes s ∧ ∀ row : ScanJob, .job row ∈ writes → row.status ≠ .completed

section Ends

variable {call : RecheckCall} {reply : RecheckReply} {fresh : Option UUID}
  {locked : RowKey → Prop} {writes : List Write} {s : ScanStore}

theorem ends_rollback (writes : List Write) :
    Ends Onward (Post call) (.rollback reply) locked writes s :=
  fun _ _ job hjob => Or.inr ⟨job, hjob, rfl⟩

theorem ends_commit (h : Orderly call.fresh locked writes s) (hcompletes : Completes writes s) :
    Ends Onward (Post call) (.commit reply) locked writes s := by
  intro s' hlater
  have h' := stable_orderly.later _ _ _ _ h hlater
  exact ⟨h'.commit (hcompletes.later hlater), fun job hjob => h'.jobs hjob⟩

theorem stable_working : TableIn.Stable Onward (Working fresh) :=
  stable_orderly.and ⟨fun _ _ _ _ h _ => h, fun _ _ _ _ h => h⟩

theorem Working.nil (h : Finished s) : Working fresh locked [] s :=
  ⟨.nil h, fun _ hw => absurd hw List.not_mem_nil⟩

theorem Working.completes (h : Working fresh locked writes s) : Completes writes s :=
  fun row hw hst => absurd hst (h.2 row hw)

theorem Working.putJob (h : Working fresh locked writes s) {row : ScanJob}
    (hlocked : locked (.job row.id)) (hmoves : Moves fresh s row) (hst : row.status ≠ .completed) :
    Working fresh locked (writes ++ [.job row]) s := by
  refine ⟨h.1.putJob hlocked hmoves, fun row' hw => ?_⟩
  rcases List.mem_append.mp hw with hold | hnew
  · exact h.2 row' hold
  · cases List.mem_singleton.mp hnew
    exact hst

theorem Working.put (h : Working fresh locked writes s) {w : Write}
    (horderly : Orderly fresh locked (writes ++ [w]) s) (hjob : ∀ row, .job row ≠ w) :
    Working fresh locked (writes ++ [w]) s := by
  refine ⟨horderly, fun row hw => ?_⟩
  rcases List.mem_append.mp hw with hold | hnew
  · exact h.2 row hold
  · exact absurd (List.mem_singleton.mp hnew) (hjob row)

theorem Working.putTask (h : Working fresh locked writes s) {row : ScanTask}
    (hlocked : locked (.task row.id)) (hopen : Unsettled s row.id) :
    Working fresh locked (writes ++ [.task row]) s :=
  h.put (h.1.putTask hlocked hopen) fun _ heq => by cases heq

end Ends

/-! ## The transaction of a round -/

section Group

variable {pg : Postgres} {g : Group} {locked : RowKey → Prop} {writes : List Write} {s : ScanStore}

theorem insertJob_safe {job : ScanJob} (hst : job.status ≠ .completed)
    (h : Working (some job.id) locked writes s) :
    Safe Onward (fun _ => Working (some job.id)) (insertJob job) locked writes s := by
  unfold insertJob
  split
  · exact h
  simp only [Tx.bind_eq]
  refine TableIn.safe_acquire fun s₁ h₁ => TableIn.safe_read fun s₂ h₂ => ?_
  have hnow := stable_working.later _ _ _ _
    (stable_working.lock _ _ _ (.job job.id) (stable_working.later _ _ _ _ h h₁)) h₂
  split
  · exact hnow
  · rename_i hseen
    refine ⟨Or.inl rfl, hnow.putJob (Or.inl rfl) (Or.inr ⟨?_, rfl⟩) hst⟩
    rcases visible_job s₂ writes job.id with ⟨_, hsame⟩ | ⟨row, _, _, hrow⟩
    · exact hsame.symm.trans hseen
    · rw [hseen] at hrow
      cases hrow

theorem insertTask_safe (h : Working (some g.jobID) locked writes s) (id : Int) (targetIP : Inet) :
    Safe Onward (fun _ => Working (some g.jobID)) (insertTask g id targetIP) locked writes s := by
  unfold insertTask
  simp only [Tx.bind_eq]
  refine TableIn.safe_read fun s₁ h₁ => ?_
  have h := stable_working.later _ _ _ _ h h₁
  split
  · exact h
  refine TableIn.safe_acquire fun s₂ h₂ => TableIn.safe_read fun s₃ h₃ => ?_
  have hnow := stable_working.later _ _ _ _
    (stable_working.lock _ _ _ (.task id) (stable_working.later _ _ _ _ h h₂)) h₃
  split
  · exact hnow
  rename_i hseen
  split
  · exact hnow
  · refine ⟨Or.inl rfl, hnow.putTask (Or.inl rfl) (hnow.1.unsettled fun task htask => ?_)⟩
    have hnone : (applyAll s₃ writes).tasks.find? id = none := hseen
    rw [show (newTask id g.jobID g.agent targetIP none g.now).id = id from rfl, hnone] at htask
    cases htask

theorem insertTargets_safe (h : Working (some g.jobID) locked writes s) (n : Nat)
    (items : List BlacklistEntry) :
    Safe Onward (fun _ => Working (some g.jobID)) (insertTargets pg g n items) locked writes
      s := by
  induction items generalizing n locked writes s with
  | nil => exact h
  | cons item items ih =>
    unfold insertTargets
    split
    · exact h
    rename_i targetIP _
    simp only [Tx.bind_eq]
    refine safe_bind.mpr ((insertTask_safe h _ targetIP).weaken ?_)
    intro error locked writes s h
    cases error with
    | some error => exact h
    | none =>
      refine safe_bind.mpr ((blacklist.safe_updateWhere
        (BlacklistEntry.key_postpone g.settings g.now) stable_working ?_ h).weaken
          fun _ _ _ _ h => ih h (n + 1))
      intro locked writes s entry h _ _ _
      exact h.put (h.1.putOther (fun _ heq => by cases heq) fun _ heq => by cases heq)
        fun _ heq => by cases heq

theorem recheckGroup_safe (hfinished : Finished s) (g : Group) :
    Safe Onward (Ends Onward (Post (.group g))) ((RecheckCall.group g).program pg)
      (fun _ => False) [] s := by
  unfold RecheckCall.program recheckGroup
  simp only [Tx.bind_eq]
  refine safe_bind.mpr (safe_bind.mpr ((insertJob_safe (fun h => by cases h)
    (.nil hfinished)).weaken ?_))
  intro error locked writes s h
  cases error with
  | some error => exact ends_rollback writes
  | none =>
    refine safe_bind.mpr ((insertTargets_safe h 0 g.selected).weaken ?_)
    intro error locked writes s h
    cases error with
    | some error => exact ends_rollback writes
    | none => exact ends_commit h.1 h.completes

end Group

/-! ## Locked rows

What a transaction has read of a locked job or of locked tasks stays so until it ends,
however many others commit meanwhile. -/

/-- A locked job that satisfies `P`. -/
def HeldJob (id : UUID) (P : ScanJob → Prop) (locked : RowKey → Prop) (_ : List Write)
    (s : ScanStore) : Prop :=
  locked (.job id) ∧ ∃ job, s.jobs.find? id = some job ∧ P job

/-- Locked tasks that are not final. -/
def HeldTasks (picked : List ScanTask) (locked : RowKey → Prop) (_ : List Write)
    (s : ScanStore) : Prop :=
  ∀ task ∈ picked, locked (.task task.id) ∧ Unsettled s task.id

section Held

variable {locked : RowKey → Prop} {writes : List Write} {s : ScanStore}

theorem stable_heldJob (id : UUID) (P : ScanJob → Prop) :
    TableIn.Stable Onward (HeldJob id P) where
  later := by
    rintro locked writes s s' ⟨hlocked, hjob⟩ hlater
    exact ⟨hlocked, by rwa [find?_job_later hlater hlocked]⟩
  lock := fun _ _ _ _ h => ⟨Or.inr h.1, h.2⟩

theorem stable_heldTasks (picked : List ScanTask) : TableIn.Stable Onward (HeldTasks picked) where
  later := fun _ _ _ _ h hlater task htask =>
    ⟨(h task htask).1, (h task htask).2.later hlater (h task htask).1⟩
  lock := fun _ _ _ _ h task htask => (h task htask).imp_left Or.inr

/-- A job seen active under its lock was so before the transaction. -/
theorem Orderly.heldActive (h : Orderly none locked writes s) {job : ScanJob}
    (hlocked : locked (.job job.id)) (hseen : (applyAll s writes).jobs.find? job.id = some job)
    (hactive : job.active = true) : HeldJob job.id (fun job => job.active = true) locked writes s := by
  rcases h.moves hseen with ⟨old, hold, hon⟩ | ⟨_, hfresh⟩
  · refine ⟨hlocked, old, hold, ?_⟩
    by_contra hover
    rw [hon.ended (by simpa using hover)] at hactive
    cases hactive
  · cases hfresh

/-- The write of a job held active. -/
theorem HeldJob.moves {id : UUID} (hheld : HeldJob id (fun job => job.active = true) locked writes s)
    (h : Orderly none locked writes s) {job job' : ScanJob} (hid : job.id = id)
    (hseen : (applyAll s writes).jobs.find? job.id = some job)
    (hsame : job'.id = job.id ∧ job'.kind = job.kind ∧ job'.totalTargets = job.totalTargets) :
    Moves none s job' := by
  subst hid
  obtain ⟨_, active, hfound, hactive⟩ := hheld
  rcases h.moves hseen with ⟨old, hold, hon⟩ | ⟨_, hfresh⟩
  · rw [hold] at hfound
    cases hfound
    refine Or.inl ⟨_, hsame.1 ▸ hold, hsame.1.trans hon.id, hsame.2.1.trans hon.kind,
      hsame.2.2.trans hon.total, fun hover => ?_⟩
    rw [hactive] at hover
    cases hover
  · cases hfresh

end Held

/-- A transaction under way with an active job in its hands. -/
def OnJob (id : UUID) (locked : RowKey → Prop) (writes : List Write) (s : ScanStore) : Prop :=
  Working none locked writes s ∧ HeldJob id (fun job => job.active = true) locked writes s

theorem stable_onJob (id : UUID) : TableIn.Stable Onward (OnJob id) :=
  stable_working.and (stable_heldJob id _)

/-! ## `ClaimTasks` -/

section Claim

variable {pg : Postgres} {locked : RowKey → Prop} {writes : List Write} {s : ScanStore}

theorem claimFrom_safe (now : Timestamp) (agent : UUID) (limit : Int) {job : ScanJob}
    (h : OnJob job.id locked writes s) (call : Call) :
    Safe Onward (fun e locked writes s =>
        Ends Onward (Post (.scan call)) ((e.map Reply.batch).map .scan) locked writes s)
      (claimFrom now agent limit job) locked writes s := by
  have hjob := stable_onJob job.id
  unfold claimFrom
  simp only [Tx.bind_eq]
  refine TableIn.safe_read fun s₁ h₁ => safe_bind.mpr ?_
  have h := hjob.later _ _ _ _ h h₁
  refine (tasks.safe_lockUpTo (fun picked locked writes s =>
      OnJob job.id locked writes s ∧ HeldTasks picked locked writes s)
    (fun picked => (hjob.and (stable_heldTasks picked)).later)
    (fun picked locked writes s k =>
      (hjob.and (stable_heldTasks picked)).lock locked writes s (.task k)) ?_
    ⟨h, fun _ hnil => absurd hnil List.not_mem_nil⟩).weaken ?_
  · rintro k picked locked writes s task ⟨h, htasks⟩ hlocked hseen hp
    obtain rfl : task.id = k := Table.key_of_find? hseen
    refine ⟨h, fun task' htask' => ?_⟩
    rcases List.mem_append.mp htask' with hold | hnew
    · exact htasks task' hold
    · rw [List.mem_singleton.mp hnew]
      refine ⟨hlocked, h.1.1.unsettled fun other hother => ?_⟩
      rw [← Option.some.inj (hseen.symm.trans hother), (claimable_eq hp).2.2]
      rfl
  rintro picked locked writes s h
  have hboth := hjob.and (stable_heldTasks picked)
  refine safe_bind.mpr ((tasks.safe_updateWhere (ScanTask.id_lease now) hboth ?_ h).weaken ?_)
  · rintro locked writes s task ⟨⟨hw, hheld⟩, htasks⟩ hlocked _ hp
    obtain ⟨taken, htaken, hid⟩ := List.mem_map.mp (of_decide_eq_true hp)
    exact ⟨⟨hw.putTask hlocked (hid ▸ (htasks taken htaken).2), hheld⟩, htasks⟩
  rintro leased locked writes s ⟨h, _⟩
  split
  · exact ends_rollback writes
  refine safe_bind.mpr ((jobs.safe_updateWhere (ScanJob.id_start now) hjob ?_ h).weaken ?_)
  · rintro locked writes s row ⟨hw, hheld⟩ hlocked hseen hp
    have hmoves : Moves none _ (row.start now) :=
      hheld.moves hw.1 (of_decide_eq_true hp) hseen ⟨rfl, rfl, rfl⟩
    exact ⟨hw.putJob hlocked hmoves (fun hst => by cases hst), hheld⟩
  · rintro _ locked writes s ⟨hw, _⟩
    exact ends_commit hw.1 hw.completes

theorem claimTasks_safe (hfinished : Finished s) (tie : UUID → Nat) (now : Timestamp)
    (agentID : String) (limit : Int) :
    Safe Onward (Ends Onward (Post (.scan (.claimTasks tie now agentID limit))))
      ((RecheckCall.scan (.claimTasks tie now agentID limit)).program pg) (fun _ => False) []
      s := by
  unfold RecheckCall.program Call.program claimTasks
  refine safe_bind.mpr (safe_bind.mpr ?_)
  split
  · exact ends_rollback []
  rename_i agent _
  simp only [Tx.bind_eq]
  have hw : Working none (fun _ => False) [] s := .nil hfinished
  refine safe_bind.mpr ((tasks.safe_updateWhere ScanTask.id_expire stable_working ?_ hw).weaken ?_)
  · rintro locked writes s task hw hlocked hseen hp
    refine hw.putTask hlocked (hw.1.unsettled fun other hother => ?_)
    have hseen : (applyAll s writes).tasks.find? task.id = some task := hseen
    have hother : (applyAll s writes).tasks.find? task.id = some other := hother
    rw [← Option.some.inj (hseen.symm.trans hother), leaseExpired_leased hp]
    rfl
  rintro _ locked writes s hw
  refine TableIn.safe_read fun s₁ h₁ => safe_bind.mpr ?_
  have hstable : ∀ picked : List ScanJob, TableIn.Stable Onward fun locked writes s =>
      Working none locked writes s ∧
        ∀ job ∈ picked, HeldJob job.id (fun job => job.active = true) locked writes s :=
    fun picked => stable_working.and
      ⟨fun _ _ _ _ h hlater job hjob => (stable_heldJob _ _).later _ _ _ _ (h job hjob) hlater,
        fun _ _ _ k h job hjob => (stable_heldJob _ _).lock _ _ _ k (h job hjob)⟩
  refine (jobs.safe_lockUpTo (fun picked locked writes s => Working none locked writes s ∧
      ∀ job ∈ picked, HeldJob job.id (fun job => job.active = true) locked writes s)
    (fun picked => (hstable picked).later)
    (fun picked locked writes s k => (hstable picked).lock locked writes s (.job k)) ?_
    ⟨stable_working.later _ _ _ _ hw h₁, fun _ hnil => absurd hnil List.not_mem_nil⟩).weaken ?_
  · rintro k picked locked writes s job ⟨hw, hheld⟩ hlocked hseen hp
    obtain rfl : job.id = k := Table.key_of_find? hseen
    refine ⟨hw, fun job' hjob' => ?_⟩
    rcases List.mem_append.mp hjob' with hold | hnew
    · exact hheld job' hold
    · rw [List.mem_singleton.mp hnew]
      exact hw.1.heldActive hlocked hseen hp
  rintro picked locked writes s ⟨hw, hheld⟩
  split
  · exact ends_rollback writes
  · exact claimFrom_safe now agent limit ⟨hw, hheld _ (.head _)⟩ _

end Claim

/-! ## `SubmitResults`

The status `updateProgress` writes depends on a count of the tasks. `Posting` is what holds
up to the count, `Posted` from it on: the tasks that were counted are completed in the
database or among the writes, and no other transaction takes that back. -/

/-- A submission before its progress update: its job is held, not stopped, and it has written no
job, and of the tasks only completed ones of that job. -/
structure Posting (jobID : UUID) (locked : RowKey → Prop) (writes : List Write)
    (s : ScanStore) : Prop where
  orderly : Orderly none locked writes s
  held : HeldJob jobID (fun job => job.status ≠ .stopped) locked writes s
  tasks : ∀ task : ScanTask, .task task ∈ writes → task.jobID = jobID ∧ task.status = .completed
  jobs : ∀ job : ScanJob, .job job ∉ writes

/-- `n` tasks of the job are completed, in the database or by the submission. -/
def Counted (jobID : UUID) (n : Nat) (writes : List Write) (s : ScanStore) : Prop :=
  ∃ ids : List Int, ids.Nodup ∧ ids.length = n ∧
    ∀ id ∈ ids, Done s jobID id ∨ ∃ task, .task task ∈ writes ∧ task.id = id

/-- A submission that has counted `n` completed tasks. -/
structure Posted (jobID : UUID) (n : Nat) (locked : RowKey → Prop) (writes : List Write)
    (s : ScanStore) : Prop where
  orderly : Orderly none locked writes s
  held : HeldJob jobID (fun job => job.status ≠ .stopped ∧
    (job.status = .completed → job.totalTargets ≤ n)) locked writes s
  tasks : ∀ task : ScanTask, .task task ∈ writes → task.jobID = jobID ∧ task.status = .completed
  counted : Counted jobID n writes s
  jobs : ∀ job : ScanJob, .job job ∈ writes → job.id = jobID ∧
    (job.status = .completed → job.totalTargets ≤ n)

section Submit

variable {pg : Postgres} {job : ScanJob} {jobID : UUID} {n : Nat} {locked : RowKey → Prop}
  {writes : List Write} {s : ScanStore}

theorem stable_posting : TableIn.Stable Onward (Posting jobID) where
  later := fun _ _ _ _ h hlater => ⟨stable_orderly.later _ _ _ _ h.orderly hlater,
    (stable_heldJob _ _).later _ _ _ _ h.held hlater, h.tasks, h.jobs⟩
  lock := fun _ _ _ k h => ⟨stable_orderly.lock _ _ _ k h.orderly,
    (stable_heldJob _ _).lock _ _ _ k h.held, h.tasks, h.jobs⟩

theorem stable_posted : TableIn.Stable Onward (Posted jobID n) where
  later := by
    intro locked writes s s' h hlater
    obtain ⟨ids, hnodup, hlength, hids⟩ := h.counted
    exact ⟨stable_orderly.later _ _ _ _ h.orderly hlater,
      (stable_heldJob _ _).later _ _ _ _ h.held hlater, h.tasks,
      ⟨ids, hnodup, hlength, fun id hid => (hids id hid).imp_left (·.onward hlater.1)⟩, h.jobs⟩
  lock := fun _ _ _ k h => ⟨stable_orderly.lock _ _ _ k h.orderly,
    (stable_heldJob _ _).lock _ _ _ k h.held, h.tasks, h.counted, h.jobs⟩

theorem Posting.completes (h : Posting jobID locked writes s) : Completes writes s :=
  fun row hw => absurd hw (h.jobs row)

theorem Posted.completes (h : Posted jobID n locked writes s) : Completes writes s := by
  intro row hw hst
  obtain ⟨rfl, htotal⟩ := h.jobs row hw
  obtain ⟨ids, hnodup, hlength, hids⟩ := h.counted
  exact ⟨h.tasks, ids, hnodup, hlength ▸ htotal hst, hids⟩

/-- The write of a result or of the blacklist. -/
theorem Posting.putOther (h : Posting jobID locked writes s) {w : Write}
    (hjob : ∀ row, .job row ≠ w) (htask : ∀ row, .task row ≠ w) :
    Posting jobID locked (writes ++ [w]) s := by
  refine ⟨h.orderly.putOther hjob htask, h.held, fun task hw => ?_, fun row hw => ?_⟩
  · rcases List.mem_append.mp hw with hold | hnew
    · exact h.tasks task hold
    · exact absurd (List.mem_singleton.mp hnew) (htask task)
  · rcases List.mem_append.mp hw with hold | hnew
    · exact h.jobs row hold
    · exact absurd (List.mem_singleton.mp hnew) (hjob row)

theorem upsertResult_safe (h : Posting jobID locked writes s) (row : ScanResult) :
    Safe Onward (fun _ => Posting jobID) (upsertResult row) locked writes s := by
  unfold upsertResult
  simp only [Tx.bind_eq]
  refine TableIn.safe_acquire fun s₁ h₁ => TableIn.safe_read fun s₂ h₂ => ?_
  have hnow := stable_posting.later _ _ _ _
    (stable_posting.lock _ _ _ (.result row.taskID) (stable_posting.later _ _ _ _ h h₁)) h₂
  split
  · exact ⟨Or.inl rfl, hnow.putOther (fun _ heq => by cases heq) fun _ heq => by cases heq⟩
  · rename_i old hseen
    have hid : old.taskID = row.taskID := Table.key_of_find? hseen
    exact ⟨Or.inl (congrArg RowKey.result hid),
      hnow.putOther (fun _ heq => by cases heq) fun _ heq => by cases heq⟩

theorem block_safe (h : Posting jobID locked writes s) (now : Timestamp) (agent : UUID)
    (targetIP : Inet) (reason : String) :
    Safe Onward (fun _ => Posting jobID) (block job now agent targetIP reason) locked writes s := by
  unfold block
  simp only [Tx.bind_eq]
  refine TableIn.safe_acquire fun s₁ h₁ => TableIn.safe_read fun s₂ h₂ => ?_
  have hnow := stable_posting.later _ _ _ _ (stable_posting.lock _ _ _ (.blacklist agent targetIP)
    (stable_posting.later _ _ _ _ h h₁)) h₂
  split
  · exact ⟨Or.inl rfl, hnow.putOther (fun _ heq => by cases heq) fun _ heq => by cases heq⟩
  · rename_i entry hseen
    split
    · refine ⟨Or.inl ?_, hnow.putOther (fun _ heq => by cases heq) fun _ heq => by cases heq⟩
      have hkey : entry.key = (agent, targetIP) := Table.key_of_find? hseen
      obtain ⟨hagent, hip⟩ := Prod.mk.inj hkey
      exact congrArg₂ RowKey.blacklist hagent hip
    · exact hnow

theorem unblock_safe (h : Posting jobID locked writes s) (agent : UUID) (targetIP : Inet) :
    Safe Onward (fun _ => Posting jobID) (unblock agent targetIP) locked writes s := by
  unfold unblock
  simp only [Tx.bind_eq]
  refine TableIn.safe_read fun s₁ h₁ => ?_
  have h := stable_posting.later _ _ _ _ h h₁
  split
  · exact h
  refine TableIn.safe_acquire fun s₂ h₂ => TableIn.safe_read fun s₃ h₃ => ?_
  have hnow := stable_posting.later _ _ _ _ (stable_posting.lock _ _ _ (.blacklist agent targetIP)
    (stable_posting.later _ _ _ _ h h₂)) h₃
  split
  · exact hnow
  · exact ⟨Or.inl rfl, hnow.putOther (fun _ heq => by cases heq) fun _ heq => by cases heq⟩

theorem submitResult_safe (h : Posting job.id locked writes s) (now : Timestamp)
    (agentID : String) (result : ProbeResult) :
    Safe Onward (fun _ => Posting job.id) (submitResult pg now agentID job result) locked writes
      s := by
  unfold submitResult
  split
  · exact h
  rename_i agent _
  simp only [Tx.bind_eq]
  refine safe_bind.mpr ((tasks.safe_updateWhere (ScanTask.id_complete now) stable_posting ?_
    h).weaken ?_)
  · intro locked writes s task h hlocked hseen hp
    obtain ⟨_, hjobID, _, hst⟩ := submittable_eq hp
    -- a task that is still leased is not settled
    have hopen : Unsettled s task.id := h.orderly.unsettled fun other hother => by
      have hseen : (applyAll s writes).tasks.find? task.id = some task := hseen
      rw [← Option.some.inj (hseen.symm.trans hother), hst]
      rfl
    have hput : Orderly none locked (writes ++ [.task (task.complete now)]) s :=
      h.orderly.putTask hlocked hopen
    refine ⟨hput, h.held,
      fun task' hw => ?_, fun row hw => ?_⟩
    · rcases List.mem_append.mp hw with hold | hnew
      · exact h.tasks task' hold
      · cases List.mem_singleton.mp hnew
        exact ⟨hjobID, rfl⟩
    · rcases List.mem_append.mp hw with hold | hnew
      · exact h.jobs row hold
      · cases List.mem_singleton.mp hnew
  rintro rows locked writes s h
  split
  · exact h
  unfold recordResult
  split
  · exact h
  split
  · exact h
  refine safe_bind.mpr ((upsertResult_safe h _).weaken ?_)
  intro _ locked writes s h
  dsimp only
  split
  · exact block_safe h now agent _ _
  · exact unblock_safe h agent _

theorem submitEach_safe (h : Posting job.id locked writes s) (now : Timestamp)
    (agentID : String) (results : List ProbeResult) :
    Safe Onward (fun _ => Posting job.id) (submitEach pg now agentID job results) locked writes
      s := by
  induction results generalizing locked writes s with
  | nil => exact h
  | cons result results ih =>
    unfold submitEach
    refine safe_bind.mpr ((submitResult_safe h now agentID result).weaken ?_)
    intro error locked writes s h
    cases error with
    | some error => exact h
    | none => exact ih h

/-- The count of the progress update. A job that was completed has its tasks counted again. -/
theorem Posting.posted (h : Posting jobID locked writes s) {stats : Stats}
    (hstats : (applyAll s writes).stats jobID = some stats) :
    Posted jobID stats.completed locked writes s := by
  have hcount : stats.completed = ((applyAll s writes).jobTasks jobID).countP
      fun task => decide (task.status = .completed) := by
    unfold ScanStore.stats at hstats
    split at hstats
    · cases hstats
    split at hstats
    · cases hstats
    · cases hstats
      rfl
  let counted := (((applyAll s writes).jobTasks jobID).filter
    fun task => decide (task.status = .completed)).map ScanTask.id
  have hcounted : counted.length = stats.completed := by
    rw [hcount, List.countP_eq_length_filter, List.length_map]
  have hnodup : counted.Nodup :=
    (List.Sublist.map ScanTask.id (List.filter_sublist.trans List.filter_sublist)).nodup
      (applyAll s writes).tasks.nodup
  have hmem : ∀ id, Done (applyAll s writes) jobID id → id ∈ counted := by
    rintro id ⟨task, hfound, hjobID, hst⟩
    obtain ⟨hrow, rfl⟩ := Table.find?_eq_some.mp hfound
    exact List.mem_map_of_mem (List.mem_filter.mpr
      ⟨mem_jobTasks.mpr ⟨hrow, hjobID⟩, decide_eq_true hst⟩)
  obtain ⟨hlocked, job, hfound, hopen⟩ := h.held
  refine ⟨h.orderly, ⟨hlocked, job, hfound, hopen, fun hst => ?_⟩, h.tasks,
    ⟨counted, hnodup, hcounted, fun id hid => ?_⟩, fun row hw => absurd hw (h.jobs row)⟩
  · obtain ⟨hrow, rfl⟩ := Table.find?_eq_some.mp hfound
    obtain ⟨ids, hids, hlength, hdone⟩ := h.orderly.finished job hrow hst
    have hle : ids.length ≤ counted.length :=
      (List.subperm_of_subset hids fun id hid => hmem id (h.orderly.done (hdone id hid))).length_le
    omega
  · obtain ⟨task, htask, rfl⟩ := List.mem_map.mp hid
    obtain ⟨htask, hst⟩ := List.mem_filter.mp htask
    obtain ⟨hrow, hjobID⟩ := mem_jobTasks.mp htask
    have hseen := Table.find?_key hrow
    rcases visible_task s writes task.id with ⟨_, hsame⟩ | ⟨row, hw, hid, _⟩
    · exact Or.inl ⟨task, hsame.symm.trans hseen, hjobID, of_decide_eq_true hst⟩
    · exact Or.inr ⟨row, hw, hid⟩

/-- The progress update of the job. -/
theorem Posted.progress (h : Posted jobID n locked writes s) (now : Timestamp) {stats : Stats}
    (hn : stats.completed = n) {row : ScanJob} (hid : row.id = jobID)
    (hseen : (applyAll s writes).jobs.find? row.id = some row) :
    Posted jobID n locked (writes ++ [.job (row.progress now stats)]) s := by
  subst hn hid
  obtain ⟨hlocked, job, hfound, hopen, hfull⟩ := h.held
  have hmoves : Moves none s (row.progress now stats) := by
    rcases h.orderly.moves hseen with ⟨old, hold, hon⟩ | ⟨_, hfresh⟩
    · obtain rfl : old = job := Option.some.inj (hold.symm.trans hfound)
      refine Or.inl ⟨old, hold, hon.id, hon.kind, hon.total, fun hover => ?_⟩
      have hcompleted : old.status = .completed := by
        cases hst : old.status with
        | pending => simp [ScanJob.active, hst] at hover
        | running => simp [ScanJob.active, hst] at hover
        | completed => rfl
        | stopped => exact absurd hst hopen
      have hle : row.totalTargets ≤ stats.completed := hon.total ▸ hfull hcompleted
      simp [ScanJob.active, ScanJob.progress, hle]
    · cases hfresh
  refine ⟨h.orderly.putJob hlocked hmoves, h.held, fun task hw => ?_, ?_, fun row' hw => ?_⟩
  · rcases List.mem_append.mp hw with hold | hnew
    · exact h.tasks task hold
    · cases List.mem_singleton.mp hnew
  · obtain ⟨ids, hnodup, hlength, hids⟩ := h.counted
    refine ⟨ids, hnodup, hlength, fun id hid => (hids id hid).imp_right ?_⟩
    rintro ⟨task, htask, hid⟩
    exact ⟨task, List.mem_append_left _ htask, hid⟩
  · rcases List.mem_append.mp hw with hold | hnew
    · exact h.jobs row' hold
    · cases List.mem_singleton.mp hnew
      refine ⟨rfl, fun hst => ?_⟩
      by_contra hlt
      have hlt : ¬ row.totalTargets ≤ stats.completed := hlt
      simp [ScanJob.progress, hlt] at hst

theorem updateProgress_safe (h : Posting jobID locked writes s) (now : Timestamp) :
    Safe Onward (fun _ locked writes s => Orderly none locked writes s ∧ Completes writes s)
      (updateProgress now jobID) locked writes s := by
  unfold updateProgress
  simp only [Tx.bind_eq]
  refine TableIn.safe_read fun s₁ h₁ => ?_
  have h := stable_posting.later _ _ _ _ h h₁
  split
  · exact ⟨h.orderly, h.completes⟩
  rename_i stats hstats
  split
  · refine safe_bind.mpr ((jobs.safe_updateWhere (ScanJob.id_progress now stats) stable_posted ?_
      (h.posted hstats)).weaken fun _ _ _ _ h => ⟨h.orderly, h.completes⟩)
    intro locked writes s row h _ hseen hp
    exact h.progress now rfl (of_decide_eq_true hp) hseen
  · exact ⟨h.orderly, h.completes⟩

theorem submitResults_safe (hfinished : Finished s) (now : Timestamp) (batch : ResultBatch) :
    Safe Onward (Ends Onward (Post (.scan (.submitResults now batch))))
      ((RecheckCall.scan (.submitResults now batch)).program pg) (fun _ => False) [] s := by
  unfold RecheckCall.program Call.program submitResults
  refine safe_bind.mpr (safe_bind.mpr ?_)
  split
  · exact ends_rollback []
  rename_i jobID _
  simp only [Tx.bind_eq]
  refine safe_bind.mpr (jobs.safe_selectForUpdate Onward.trans
    (fun s' _ _ => ends_rollback []) fun s₁ h₁ => ?_)
  split
  · exact ends_rollback []
  rename_i job hseen
  obtain rfl : job.id = jobID := Table.key_of_find? hseen
  have horderly : Orderly none (fun key => key = .job job.id ∨ False) [] s₁ :=
    .nil (h₁.1.finished hfinished)
  split
  · exact ends_commit horderly fun _ hw => absurd hw List.not_mem_nil
  rename_i hopen
  have hstart : Posting job.id (fun key => key = .job job.id ∨ False) [] s₁ :=
    ⟨horderly, ⟨Or.inl rfl, job, hseen, hopen⟩, fun _ hw => absurd hw List.not_mem_nil,
      fun _ => List.not_mem_nil⟩
  refine safe_bind.mpr ((submitEach_safe hstart now batch.agentID batch.results).weaken ?_)
  intro error locked writes s h
  cases error with
  | some error => exact ends_rollback writes
  | none =>
    refine safe_bind.mpr ((updateProgress_safe h now).weaken ?_)
    rintro error locked writes s ⟨horderly, hcompletes⟩
    cases error with
    | some error => exact ends_rollback writes
    | none => exact ends_commit horderly hcompletes

end Submit

/-! ## `StopScanJob` -/

theorem stopScanJob_safe {pg : Postgres} {s : ScanStore} (hfinished : Finished s)
    (now : Timestamp) (id : String) :
    Safe Onward (Ends Onward (Post (.scan (.stopScanJob now id))))
      ((RecheckCall.scan (.stopScanJob now id)).program pg) (fun _ => False) [] s := by
  unfold RecheckCall.program Call.program stopScanJob
  refine safe_bind.mpr (safe_bind.mpr ?_)
  split
  · exact ends_rollback []
  rename_i jobID _
  simp only [Tx.bind_eq]
  refine safe_bind.mpr (jobs.safe_selectForUpdate Onward.trans
    (fun s' _ _ => ends_rollback []) fun s₁ h₁ => ?_)
  split
  · exact ends_rollback []
  rename_i job hseen
  obtain rfl : job.id = jobID := Table.key_of_find? hseen
  split
  · exact ends_rollback []
  rename_i hstatus
  have hactive : job.active = true := by
    by_contra hover
    simp only [ScanJob.active, Bool.or_eq_true, decide_eq_true_eq, not_or] at hover
    exact hstatus hover
  -- the row of the job is locked from here on, and is pending or running
  have hw : Working none (fun key => key = .job job.id ∨ False) [] s₁ :=
    .nil (h₁.1.finished hfinished)
  have hjob := stable_onJob job.id
  refine safe_bind.mpr ((tasks.safe_updateWhere ScanTask.id_cancel hjob ?_
    ⟨hw, hw.1.heldActive (Or.inl rfl) hseen hactive⟩).weaken ?_)
  · -- the tasks that are cancelled were pending or leased, so none of them was settled
    rintro locked writes s task ⟨hw, hheld⟩ hlocked hseen hp
    refine ⟨hw.putTask hlocked (hw.1.unsettled fun other hother => ?_), hheld⟩
    have hseen : (applyAll s writes).tasks.find? task.id = some task := hseen
    have hother : (applyAll s writes).tasks.find? task.id = some other := hother
    rw [← Option.some.inj (hseen.symm.trans hother)]
    rcases (stoppable_eq hp).2 with hst | hst <;> rw [hst] <;> rfl
  rintro _ locked writes s h
  refine safe_bind.mpr ((jobs.safe_updateWhere (ScanJob.id_stop now) hjob ?_ h).weaken ?_)
  · rintro locked writes s row ⟨hw, hheld⟩ hlocked hseen hp
    -- the job is still active where it is stopped, as nobody else could write its row
    have hmoves : Moves none _ (row.stop now) :=
      hheld.moves hw.1 (of_decide_eq_true hp) hseen ⟨rfl, rfl, rfl⟩
    exact ⟨hw.putJob hlocked hmoves (fun hst => by cases hst), hheld⟩
  rintro _ locked writes s h
  refine TableIn.safe_read fun s₂ h₂ => ?_
  have h := (hjob.later _ _ _ _ h h₂).1
  split
  · exact ends_rollback writes
  · exact ends_commit h.1 h.completes

theorem call_safe {pg : Postgres} {s : ScanStore} (hfinished : Finished s) (call : RecheckCall) :
    Safe Onward (Ends Onward (Post call)) (call.program pg) (fun _ => False) [] s := by
  cases call with
  | group g => exact recheckGroup_safe hfinished g
  | scan call =>
    cases call with
    | claimTasks tie now agentID limit => exact claimTasks_safe hfinished tie now agentID limit
    | submitResults now batch => exact submitResults_safe hfinished now batch
    | stopScanJob now id => exact stopScanJob_safe hfinished now id

end Cfscan.Recheck
