import Cfscan.Scan.Run
import Cfscan.Scan.Writes

/-!
# Claims and submissions among others

`ClaimTasks` and `SubmitResults`, action by action, with any number of other transactions acting in
between. Both are careful (`Cfscan.Scan.Writes`): the lease-expiry `UPDATE` of a claim, which runs
without the lock of the job, is covered by the task lock and the second look at the row; everything
else happens under the job lock.

The proofs go along the programs with the rules of `Cfscan.Lib.Statement`, one lemma for each
statement. What is known of a row is known because it is locked: between the snapshot that found it
and the lock it can have become anything a careful transaction makes of it, and the second look is
where the program learns what.
-/

set_option autoImplicit false

namespace Cfscan.Scan

open Cfscan.Lib Cfscan.Store

/-! ## Calls

The three calls that meet on a job's rows, each with what must hold when it ends. The
conditions speak of two stores: the one the transaction committed into and the one it left,
whatever other transactions committed between its statements. -/

/-- A call, with the instant its transaction starts. -/
inductive Call where
  | claimTasks (tie : UUID → Nat) (now : Timestamp) (agentID : String) (limit : Int)
  | submitResults (now : Timestamp) (batch : ResultBatch)
  | stopScanJob (now : Timestamp) (id : String)

def Call.program (pg : Postgres) : Call → Program (Ending Reply)
  | .claimTasks tie now agentID limit => do
    let e ← Scan.claimTasks pg tie now agentID limit
    pure (e.map .batch)
  | .submitResults now batch => do
    let e ← Scan.submitResults pg now batch
    pure (e.map .submitted)
  | .stopScanJob now id => do
    let e ← Scan.stopScanJob pg now id
    pure (e.map .job)

/-- The job a submission is for. -/
def Call.submitsFor (pg : Postgres) : Call → Option UUID
  | .submitResults _ batch => pg.uuid batch.jobID
  | _ => none

/-- The job a stop is for. -/
def Call.stopsFor (pg : Postgres) : Call → Option UUID
  | .stopScanJob _ id => pg.uuid id
  | _ => none

/-- What the end of a call does to a frozen job. -/
structure KeepsStopped (pg : Postgres) (jobID : UUID) (call : Call) (ending : Ending Reply)
    (s s' : ScanStore) : Prop where
  untouched : Untouched jobID s s'
  blacklist : s'.blacklist = s.blacklist ∨
    ∃ other, call.submitsFor pg = some other ∧ other ≠ jobID
  handsOut : ∀ batch, ending = .commit (.batch (.ok (some batch))) → batch.jobID ≠ jobID ∧
    ∀ claimed ∈ batch.tasks, ∀ task ∈ s.tasks.rows, task.id = claimed.id → task.jobID ≠ jobID
  submits : call.submitsFor pg = some jobID →
    ending = .commit (.submitted (.ok ())) ∧ s' = s

/-- The postcondition of a call. -/
structure CallPost (pg : Postgres) (call : Call) (ending : Ending Reply) (s s' : ScanStore) :
    Prop where
  keeps : ∀ jobID, Frozen jobID s → KeepsStopped pg jobID call ending s s'
  stops : ∀ jobID item, call.stopsFor pg = some jobID → ending = .commit (.job (.ok item)) →
    Frozen jobID s'

/-! ## Facts that last

What a transaction has read stays true until it ends only where it holds the lock. These are
the facts of that kind: that a job is open, while its row is locked, and that the picked
tasks are, while theirs are. -/

/-- A fact about committed rows that lasts while their locks are held. -/
structure Lasting (fact : (RowKey → Prop) → ScanStore → Prop) : Prop where
  later : ∀ locked s s', fact locked s → Later Rely locked s s' → fact locked s'
  lock : ∀ locked locked' s, fact locked s → (∀ key, locked key → locked' key) → fact locked' s

/-- A locked job that is not stopped. -/
def HeldJob (id : UUID) (locked : RowKey → Prop) (s : ScanStore) : Prop :=
  locked (.job id) ∧ OpenJob s id

/-- Locked tasks that are not final. -/
def HeldTasks (picked : List ScanTask) (locked : RowKey → Prop) (s : ScanStore) : Prop :=
  ∀ task ∈ picked, Grounded none locked s (.task task)

theorem lasting_true : Lasting fun _ _ => True :=
  ⟨fun _ _ _ _ _ => trivial, fun _ _ _ _ _ => trivial⟩

theorem lasting_heldJob (id : UUID) : Lasting (HeldJob id) :=
  ⟨fun _ _ _ h hlater => ⟨h.1, h.2.later hlater h.1⟩, fun _ _ _ h hmono => ⟨hmono _ h.1, h.2⟩⟩

theorem lasting_heldTasks (picked : List ScanTask) : Lasting (HeldTasks picked) :=
  ⟨fun _ _ _ h hlater task htask => (h task htask).later hlater,
    fun _ _ _ h hmono task htask => (h task htask).lock hmono⟩

theorem Lasting.and {fact fact' : (RowKey → Prop) → ScanStore → Prop} (h : Lasting fact)
    (h' : Lasting fact') : Lasting fun locked s => fact locked s ∧ fact' locked s :=
  ⟨fun _ _ _ hf hlater => ⟨h.later _ _ _ hf.1 hlater, h'.later _ _ _ hf.2 hlater⟩,
    fun _ _ _ hf hmono => ⟨h.lock _ _ _ hf.1 hmono, h'.lock _ _ _ hf.2 hmono⟩⟩

/-- A held job is not a frozen one, now or later. -/
theorem HeldJob.not_frozen {id : UUID} {locked : RowKey → Prop} {s s' : ScanStore}
    (h : HeldJob id locked s) (hlater : Later Rely locked s s') : ¬ Frozen id s' :=
  fun hfrozen => hfrozen.not_open (h.2.later hlater h.1)

/-! ## Ends

How a transaction may end. A rollback changes nothing, an absorbed batch (of a stopped job)
neither, and a commit is allowed if every write was grounded in a locked row that was open.
-/

section Ends

variable {pg : Postgres} {call : Call} {locked : RowKey → Prop} {writes : List Write}
  {s : ScanStore}

/-- A rollback, by a call that is not for a frozen job. -/
theorem ends_rollback (writes : List Write) {reply : Reply}
    (hsubmits : ∀ jobID, call.submitsFor pg = some jobID → ∀ s', Later Rely locked s s' →
      ¬ Frozen jobID s') :
    Ends Rely (CallPost pg call) (.rollback reply) locked writes s := by
  intro s' hlater
  refine ⟨fun jobID hfrozen => ⟨.refl _ _, Or.inl rfl, ?_, fun hcall => ?_⟩, ?_⟩
  · intro batch h
    cases h
  · exact absurd hfrozen (hsubmits jobID hcall s' hlater)
  · intro jobID item _ h
    cases h

/-- A submission for a stopped job: it commits nothing, and succeeds. -/
theorem ends_absorbed :
    Ends Rely (CallPost pg call) (.commit (.submitted (.ok ()))) locked [] s := by
  intro s' _
  refine ⟨.refl s', fun jobID _ => ⟨.refl _ _, Or.inl rfl, ?_, fun _ => ⟨rfl, rfl⟩⟩, ?_⟩
  · intro batch h
    cases h
  · intro jobID item _ h
    cases h

/-- The commit of a careful call. -/
theorem ends_commit {reply : Reply} (hc : Careful (call.submitsFor pg) locked writes s)
    (hsubmits : ∀ jobID, call.submitsFor pg = some jobID → HeldJob jobID locked s)
    (hhands : ∀ batch, reply = .batch (.ok (some batch)) → HeldJob batch.jobID locked s ∧
      ∀ claimed ∈ batch.tasks, ∃ task, task.id = claimed.id ∧ Grounded none locked s (.task task))
    (hstops : ∀ jobID item, call.stopsFor pg = some jobID → reply = .job (.ok item) →
      ∀ s', Later Rely locked s s' → Frozen jobID (applyAll s' writes)) :
    Ends Rely (CallPost pg call) (.commit reply) locked writes s := by
  intro s' hlater
  have hc' := hc.later hlater
  refine ⟨hc'.commit, fun jobID hfrozen => ⟨hc'.untouched hfrozen, hc'.blacklist hfrozen, ?_,
    fun hcall => absurd hfrozen ((hsubmits jobID hcall).not_frozen hlater)⟩, ?_⟩
  · intro batch hbatch
    cases hbatch
    obtain ⟨hjob, htasks⟩ := hhands batch rfl
    refine ⟨fun heq => (heq ▸ hjob.not_frozen hlater) hfrozen,
      fun claimed hclaimed task htask hid => ?_⟩
    obtain ⟨taken, htakenID, hground⟩ := htasks claimed hclaimed
    obtain ⟨_, old, hold, hopen, _⟩ := hground.later hlater
    have hmem := Table.find?_eq_some.mp hold
    obtain rfl : old = task := Table.eq_of_key hmem.1 htask (hmem.2.trans (htakenID.trans hid.symm))
    exact hfrozen.no_task hold hopen
  · intro jobID item hcall hending
    cases hending
    exact hstops jobID item hcall rfl s' hlater

end Ends

/-! ## Statements

The rules for the statements all three calls are made of. An `UPDATE` of several rows locks
and rereads each of them, so that the row it writes is the row under the lock, not the one
an earlier query saw. -/

section Statements

variable {own : Option UUID} {fact : (RowKey → Prop) → ScanStore → Prop} {locked : RowKey → Prop}
  {writes : List Write} {s : ScanStore}

theorem Grounded.rewrite {f : ScanTask → ScanTask} (hsame : ∀ task, SameTask task (f task))
    {task : ScanTask} (h : Grounded own locked s (.task task)) :
    Grounded own locked s (.task (f task)) := by
  obtain ⟨hlocked, old, hold, hopen, hsame'⟩ := h
  have hid := (hsame task).id
  exact ⟨by rw [hid]; exact hlocked, old, by rw [hid]; exact hold, hopen, hsame'.trans (hsame task)⟩

/-- A task seen under its lock in a state that is not final. -/
theorem Careful.grounded_task (hc : Careful own locked writes s) {task : ScanTask}
    (hlocked : locked (.task task.id))
    (hseen : (applyAll s writes).tasks.find? task.id = some task)
    (hopen : task.status.final = false) : Grounded own locked s (.task task) := by
  obtain ⟨old, hold, hsame, rfl | hold'⟩ := hc.task hseen
  · exact ⟨hlocked, old, hold, hopen, .refl old⟩
  · exact ⟨hlocked, old, hold, hold', hsame⟩

/-- `UPDATE scan_tasks`, whose condition under the lock makes the write a grounded one. -/
theorem safe_updateTasks {p : ScanTask → Bool} {f : ScanTask → ScanTask}
    (hsame : ∀ task, SameTask task (f task)) (hfact : Lasting fact)
    (hground : ∀ locked writes s task, Careful own locked writes s → fact locked s →
      locked (.task task.id) → (applyAll s writes).tasks.find? task.id = some task →
      p task = true → Grounded own locked s (.task task))
    (hc : Careful own locked writes s) (h : fact locked s) :
    Safe Rely (fun rows locked writes s => Careful own locked writes s ∧ fact locked s ∧
      ∀ row ∈ rows, ∃ task, p task = true ∧ row = f task ∧ Grounded own locked s (.task task))
      (tasks.updateWhere p f) locked writes s := by
  unfold TableIn.updateWhere
  refine TableIn.safe_read fun s' hlater => ?_
  refine tasks.safe_updateEach (fun task => (hsame task).id)
    (fun _ rows locked writes s => Careful own locked writes s ∧ fact locked s ∧
      ∀ row ∈ rows, ∃ task, p task = true ∧ row = f task ∧ Grounded own locked s (.task task))
    ?_ ?_ ?_ ?_ ⟨hc.later hlater, hfact.later _ _ _ h hlater, fun _ hrow => by cases hrow⟩
  · rintro _ rows locked writes s s' ⟨hc, h, hrows⟩ hlater
    refine ⟨hc.later hlater, hfact.later _ _ _ h hlater, fun row hrow => ?_⟩
    obtain ⟨task, hp, heq, hg⟩ := hrows row hrow
    exact ⟨task, hp, heq, hg.later hlater⟩
  · rintro _ rows locked writes s k ⟨hc, h, hrows⟩
    refine ⟨hc.lock fun _ => Or.inr, hfact.lock _ _ _ h fun _ => Or.inr, fun row hrow => ?_⟩
    obtain ⟨task, hp, heq, hg⟩ := hrows row hrow
    exact ⟨task, hp, heq, hg.lock fun _ => Or.inr⟩
  · rintro k _ rows locked writes s hinv _ _
    exact hinv
  · rintro k _ rows locked writes s task ⟨hc, h, hrows⟩ hlocked hseen hp
    obtain rfl : task.id = k := Table.key_of_find? hseen
    have hg := hground _ _ _ task hc h hlocked hseen hp
    refine ⟨hc.put (hg.rewrite hsame), h, fun row hrow => ?_⟩
    rcases List.mem_append.mp hrow with hold | hnew
    · exact hrows row hold
    · exact ⟨task, hp, List.mem_singleton.mp hnew, hg⟩

/-- `UPDATE scan_jobs … WHERE id`, of a job held. -/
theorem safe_updateJob {jobID : UUID} {f : ScanJob → ScanJob} (hf : ∀ job, (f job).id = job.id)
    (hfact : Lasting fact) (hheld : ∀ locked s, fact locked s → HeldJob jobID locked s)
    (hc : Careful own locked writes s) (h : fact locked s) :
    Safe Rely (fun _ locked writes s => Careful own locked writes s ∧ fact locked s)
      (jobs.updateWhere (fun row => decide (row.id = jobID)) f) locked writes s := by
  unfold TableIn.updateWhere
  refine TableIn.safe_read fun s' hlater => ?_
  refine jobs.safe_updateEach hf
    (fun _ _ locked writes s => Careful own locked writes s ∧ fact locked s)
    ?_ ?_ ?_ ?_ ⟨hc.later hlater, hfact.later _ _ _ h hlater⟩
  · rintro _ _ locked writes s s' ⟨hc, h⟩ hlater
    exact ⟨hc.later hlater, hfact.later _ _ _ h hlater⟩
  · rintro _ _ locked writes s k ⟨hc, h⟩
    exact ⟨hc.lock fun _ => Or.inr, hfact.lock _ _ _ h fun _ => Or.inr⟩
  · rintro _ _ _ locked writes s hinv _ _
    exact hinv
  · rintro k _ _ locked writes s job ⟨hc, h⟩ hlocked hseen hp
    have hid : job.id = jobID := of_decide_eq_true hp
    have hgrounded : Grounded own locked s (.job (f job)) := by
      show locked (.job (f job).id) ∧ OpenJob s (f job).id
      rw [hf, hid]
      exact hheld _ _ h
    exact ⟨hc.put hgrounded, h⟩

/-- A task taken earlier, seen again through the writes made since. -/
theorem Careful.grounded_again (hc : Careful own locked writes s) {taken task : ScanTask}
    (htaken : Grounded none locked s (.task taken)) (hid : taken.id = task.id)
    (hseen : (applyAll s writes).tasks.find? task.id = some task) :
    Grounded own locked s (.task task) := by
  obtain ⟨hlocked, old, hold, hopen, _⟩ := htaken
  obtain ⟨old', hold', hsame, _⟩ := hc.task hseen
  rw [hid] at hlocked hold
  rw [hold] at hold'
  cases hold'
  exact ⟨hlocked, old, hold, hopen, hsame⟩

theorem Careful.heldJob (hc : Careful own locked writes s) {job : ScanJob}
    (hlocked : locked (.job job.id)) (hseen : (applyAll s writes).jobs.find? job.id = some job)
    (hopen : job.status ≠ .stopped) : HeldJob job.id locked s := by
  refine ⟨hlocked, ?_⟩
  rcases visible_job s writes job.id with ⟨_, hsame⟩ | ⟨row, hw, hid, _⟩
  · exact ⟨job, hsame ▸ hseen, hopen⟩
  · exact hid ▸ (hc.grounded _ hw).2

end Statements

/-! ## `ClaimTasks`

The hard part is the time between the choice of the job and the lock on it: the job may have
been stopped in between. The second look at the row, under the lock, is what the proof uses.
-/

section Claim

variable {pg : Postgres} {locked : RowKey → Prop} {writes : List Write} {s : ScanStore}

theorem active_open {job : ScanJob} (h : job.active = true) : job.status ≠ .stopped := by
  intro hst
  simp [ScanJob.active, hst] at h

theorem claimFrom_safe {call : Call} (hcall : call.submitsFor pg = none)
    (hstop : call.stopsFor pg = none) (now : Timestamp) (agent : UUID) (limit : Int)
    (job : ScanJob) (hc : Careful none locked writes s) (hheld : HeldJob job.id locked s) :
    Safe Rely (fun e locked writes s => Ends Rely (CallPost pg call) (e.map .batch) locked writes s)
      (claimFrom now agent limit job) locked writes s := by
  unfold claimFrom
  simp only [Tx.bind_eq]
  refine TableIn.safe_read fun s₁ h₁ => safe_bind.mpr ?_
  -- first tasks are locked, past those that others hold; what is picked is held from then on
  refine (tasks.safe_lockUpTo (fun picked locked writes s => Careful none locked writes s ∧
    HeldJob job.id locked s ∧ HeldTasks picked locked s) ?_ ?_ ?_
    ⟨hc.later h₁, (lasting_heldJob _).later _ _ _ hheld h₁, fun _ h => by cases h⟩).weaken ?_
  · rintro picked locked writes s s' ⟨hc, hheld, htasks⟩ hlater
    exact ⟨hc.later hlater, (lasting_heldJob _).later _ _ _ hheld hlater,
      (lasting_heldTasks _).later _ _ _ htasks hlater⟩
  · rintro picked locked writes s k ⟨hc, hheld, htasks⟩
    exact ⟨hc.lock fun _ => Or.inr, (lasting_heldJob _).lock _ _ _ hheld fun _ => Or.inr,
      (lasting_heldTasks _).lock _ _ _ htasks fun _ => Or.inr⟩
  · rintro k picked locked writes s task ⟨hc, hheld, htasks⟩ hlocked hseen hp
    obtain rfl : task.id = k := Table.key_of_find? hseen
    refine ⟨hc, hheld, fun task' htask' => ?_⟩
    rcases List.mem_append.mp htask' with hold | hnew
    · exact htasks task' hold
    · rw [List.mem_singleton.mp hnew]
      exact hc.grounded_task hlocked hseen (by rw [(claimable_eq hp).2.2]; rfl)
  rintro picked locked writes s ⟨hc, hheld, htasks⟩
  -- then they are leased, which no other transaction can have prevented
  refine safe_bind.mpr ((safe_updateTasks (same_lease now)
    ((lasting_heldJob job.id).and (lasting_heldTasks picked)) ?_ hc ⟨hheld, htasks⟩).weaken ?_)
  · rintro locked writes s task hc ⟨_, htasks⟩ _ hseen hp
    obtain ⟨taken, htaken, hid⟩ := List.mem_map.mp (of_decide_eq_true hp)
    exact hc.grounded_again (htasks taken htaken) hid hseen
  rintro leased locked writes s ⟨hc, ⟨hheld, _⟩, hleased⟩
  have hleasedHeld : HeldTasks leased locked s := by
    intro row hrow
    obtain ⟨task, _, rfl, hg⟩ := hleased row hrow
    exact hg.rewrite (same_lease now)
  split
  · exact ends_rollback writes fun jobID h => by rw [hcall] at h; cases h
  -- last the job is started; the tasks handed out are those still held
  refine safe_bind.mpr ((safe_updateJob (ScanJob.id_start now)
    ((lasting_heldJob job.id).and (lasting_heldTasks leased)) (fun _ _ h => h.1) hc
    ⟨hheld, hleasedHeld⟩).weaken ?_)
  rintro _ locked writes s ⟨hc, hheld, hleasedHeld⟩
  refine ends_commit (by rw [hcall]; exact hc) (fun jobID h => by rw [hcall] at h; cases h) ?_ ?_
  · intro batch hbatch
    cases hbatch
    refine ⟨hheld, fun claimed hclaimed => ?_⟩
    obtain ⟨task, htask, rfl⟩ := List.mem_map.mp hclaimed
    exact ⟨task, rfl, hleasedHeld task htask⟩
  · intro jobID item h
    rw [hstop] at h
    cases h

theorem claimTasks_safe (hsane : Sane s) (tie : UUID → Nat) (now : Timestamp) (agentID : String)
    (limit : Int) :
    Safe Rely (Ends Rely (CallPost pg (.claimTasks tie now agentID limit)))
      ((Call.claimTasks tie now agentID limit).program pg) (fun _ => False) [] s := by
  unfold Call.program claimTasks
  refine safe_bind.mpr ?_
  split
  · exact ends_rollback [] fun jobID h => by cases h
  rename_i agent _
  simp only [Tx.bind_eq]
  have hc : Careful none (fun _ => False) [] s := .nil hsane
  refine safe_bind.mpr ((safe_updateTasks same_expire lasting_true ?_ hc trivial).weaken ?_)
  · intro locked writes s task hc _ hlocked hseen hp
    exact hc.grounded_task hlocked hseen (by rw [leaseExpired_leased hp]; rfl)
  rintro _ locked writes s ⟨hc, _, _⟩
  refine TableIn.safe_read fun s₁ h₁ => safe_bind.mpr ?_
  refine (jobs.safe_lockUpTo (fun picked locked writes s => Careful none locked writes s ∧
    ∀ job ∈ picked, HeldJob job.id locked s) ?_ ?_ ?_
    ⟨hc.later h₁, fun _ h => by cases h⟩).weaken ?_
  · rintro picked locked writes s s' ⟨hc, hheld⟩ hlater
    exact ⟨hc.later hlater, fun job hjob =>
      (lasting_heldJob _).later _ _ _ (hheld job hjob) hlater⟩
  · rintro picked locked writes s k ⟨hc, hheld⟩
    exact ⟨hc.lock fun _ => Or.inr, fun job hjob =>
      (lasting_heldJob _).lock _ _ _ (hheld job hjob) fun _ => Or.inr⟩
  · rintro k picked locked writes s job ⟨hc, hheld⟩ hlocked hseen hp
    obtain rfl : job.id = k := Table.key_of_find? hseen
    refine ⟨hc, fun job' hjob' => ?_⟩
    rcases List.mem_append.mp hjob' with hold | hnew
    · exact hheld job' hold
    · rw [List.mem_singleton.mp hnew]
      exact hc.heldJob hlocked hseen (active_open hp)
  rintro picked locked writes s ⟨hc, hheld⟩
  split
  · exact ends_rollback writes fun jobID h => by cases h
  · exact claimFrom_safe rfl rfl now agent limit _ hc (hheld _ (.head _))

end Claim

/-! ## `SubmitResults`

The lock on the job row is taken first and held to the end, so `Submitting` carries it
through every statement. A stop that comes meanwhile waits, and a stop that came before is
seen at the lock and absorbs the batch. -/

/-- A submission under way: careful, with its job held. -/
def Submitting (jobID : UUID) (locked : RowKey → Prop) (writes : List Write) (s : ScanStore) :
    Prop :=
  Careful (some jobID) locked writes s ∧ HeldJob jobID locked s

/-- A task of the job that is locked and not final. -/
def HeldTask (id : Int) (jobID : UUID) (locked : RowKey → Prop) (s : ScanStore) : Prop :=
  locked (.task id) ∧ OpenTask s id jobID

theorem lasting_heldTask (id : Int) (jobID : UUID) : Lasting (HeldTask id jobID) :=
  ⟨fun _ _ _ h hlater => ⟨h.1, h.2.later hlater h.1⟩, fun _ _ _ h hmono => ⟨hmono _ h.1, h.2⟩⟩

section Submit

variable {pg : Postgres} {job : ScanJob} {jobID : UUID} {locked : RowKey → Prop}
  {writes : List Write} {s s' : ScanStore}

theorem Submitting.later (h : Submitting jobID locked writes s) (hlater : Later Rely locked s s') :
    Submitting jobID locked writes s' :=
  ⟨h.1.later hlater, (lasting_heldJob jobID).later _ _ _ h.2 hlater⟩

theorem Submitting.lock {locked' : RowKey → Prop} (h : Submitting jobID locked writes s)
    (hmono : ∀ key, locked key → locked' key) : Submitting jobID locked' writes s :=
  ⟨h.1.lock hmono, (lasting_heldJob jobID).lock _ _ _ h.2 hmono⟩

theorem Submitting.put {w : Write} (h : Submitting jobID locked writes s)
    (hw : Grounded (some jobID) locked s w) : Submitting jobID locked (writes ++ [w]) s :=
  ⟨h.1.put hw, h.2⟩

/-- The blacklist is written under the lock of the job. -/
theorem Submitting.listed (h : Submitting jobID locked writes s) :
    ∃ own, some jobID = some own ∧ locked (.job own) ∧ OpenJob s own :=
  ⟨jobID, rfl, h.2⟩

theorem ProbeResult.row_ids {now : Timestamp} {agent : UUID} {task : ScanTask}
    {result : ProbeResult} {row : ScanResult} (h : result.row pg now job agent task = some row) :
    row.taskID = result.taskID ∧ row.jobID = job.id := by
  simp only [ProbeResult.row, Option.bind_eq_bind, Option.bind_eq_some_iff] at h
  obtain ⟨_, _, _, _, _, _, _, _, _, _, hrow⟩ := h
  cases hrow
  exact ⟨rfl, rfl⟩

/-- A result that is already there is of the job of its task. -/
theorem Careful.result_job {own : Option UUID} (hc : Careful own locked writes s)
    {old : ScanResult} (htask : OpenTask s old.taskID jobID)
    (hseen : (applyAll s writes).results.find? old.taskID = some old) : old.jobID = jobID := by
  obtain ⟨task, hfound, _, hjobID⟩ := htask
  obtain ⟨hmem, hid⟩ := Table.find?_eq_some.mp hfound
  rcases visible_result s writes old.taskID with hsame | ⟨row, hw, _, hrow⟩
  · obtain ⟨task', htask', hid', hjobID'⟩ :=
      hc.sane old (Table.mem_of_find? (hsame.symm.trans hseen))
    rw [← hjobID', ← hjobID, Table.eq_of_key htask' hmem (hid'.trans hid.symm)]
  · obtain rfl := Option.some.inj (hseen.symm.trans hrow)
    obtain ⟨_, task', hfound', _, hjobID'⟩ := hc.grounded _ hw
    rw [hfound] at hfound'
    cases hfound'
    exact hjobID'.symm.trans hjobID

theorem upsertResult_safe {row : ScanResult} (h : Submitting jobID locked writes s)
    (htask : HeldTask row.taskID jobID locked s) (hjobID : row.jobID = jobID) :
    Safe Rely (fun _ locked writes s => Submitting jobID locked writes s) (upsertResult row) locked
      writes s := by
  unfold upsertResult
  simp only [Tx.bind_eq]
  refine TableIn.safe_acquire fun s₁ h₁ => TableIn.safe_read fun s₂ h₂ => ?_
  have hnow := ((h.later h₁).lock fun _ => Or.inr).later h₂
  have hheld := (lasting_heldTask _ _).later _ _ _ ((lasting_heldTask _ _).lock _ _ _
    ((lasting_heldTask _ _).later _ _ _ htask h₁) fun _ => Or.inr) h₂
  split
  · refine ⟨Or.inl rfl, hnow.put ?_⟩
    subst hjobID
    exact hheld
  · rename_i old hseen
    have hid : old.taskID = row.taskID := Table.key_of_find? hseen
    obtain ⟨hlocked, hopen⟩ := hheld
    rw [← hid] at hseen hopen
    refine ⟨Or.inl (congrArg RowKey.result hid), hnow.put ⟨?_, ?_⟩⟩
    · show RowKey.task old.taskID = _ ∨ locked (.task old.taskID)
      rw [hid]
      exact hlocked
    · show OpenTask s₂ old.taskID old.jobID
      rw [hnow.1.result_job hopen hseen]
      exact hopen

theorem block_safe (h : Submitting jobID locked writes s) (now : Timestamp) (agent : UUID)
    (targetIP : Inet) (reason : String) :
    Safe Rely (fun _ locked writes s => Submitting jobID locked writes s)
      (block job now agent targetIP reason) locked writes s := by
  unfold block
  simp only [Tx.bind_eq]
  refine TableIn.safe_acquire fun s₁ h₁ => TableIn.safe_read fun s₂ h₂ => ?_
  have hnow := ((h.later h₁).lock fun _ => Or.inr).later h₂
  split
  · exact ⟨Or.inl rfl, hnow.put hnow.listed⟩
  · rename_i entry hseen
    split
    · refine ⟨Or.inl ?_, hnow.put hnow.listed⟩
      have hkey : entry.key = (agent, targetIP) := Table.key_of_find? hseen
      obtain ⟨hagent, hip⟩ := Prod.mk.inj hkey
      show RowKey.blacklist entry.agentID entry.targetIP = _
      rw [hagent, hip]
    · exact hnow

theorem unblock_safe (h : Submitting jobID locked writes s) (agent : UUID) (targetIP : Inet) :
    Safe Rely (fun _ locked writes s => Submitting jobID locked writes s)
      (unblock agent targetIP) locked writes s := by
  unfold unblock
  simp only [Tx.bind_eq]
  refine TableIn.safe_read fun s₁ h₁ => ?_
  split
  · exact h.later h₁
  refine TableIn.safe_acquire fun s₂ h₂ => TableIn.safe_read fun s₃ h₃ => ?_
  have hnow := (((h.later h₁).later h₂).lock fun _ => Or.inr).later h₃
  split
  · exact hnow
  · exact ⟨Or.inl rfl, hnow.put hnow.listed⟩

theorem submitResult_safe (h : Submitting job.id locked writes s) (now : Timestamp)
    (agentID : String) (result : ProbeResult) :
    Safe Rely (fun _ locked writes s => Submitting job.id locked writes s)
      (submitResult pg now agentID job result) locked writes s := by
  unfold submitResult
  split
  · exact h
  rename_i agent _
  simp only [Tx.bind_eq]
  refine safe_bind.mpr ((safe_updateTasks (same_complete now) (lasting_heldJob job.id) ?_ h.1
    h.2).weaken ?_)
  · intro locked writes s task hc _ hlocked hseen hp
    exact hc.grounded_task hlocked hseen (by rw [(submittable_eq hp).2.2.2]; rfl)
  rintro rows locked writes s ⟨hc, hheld, hrows⟩
  split
  · exact ⟨hc, hheld⟩
  rename_i task _
  obtain ⟨before, hp, rfl, hlocked, old, hold, hopen, hsame⟩ := hrows _ (.head _)
  obtain ⟨hid, hjobID, _⟩ := submittable_eq hp
  have htask : HeldTask result.taskID job.id locked s :=
    ⟨hid ▸ hlocked, old, hid ▸ hold, hopen, hsame.jobID.symm.trans hjobID⟩
  unfold recordResult
  split
  · exact ⟨hc, hheld⟩
  split
  · exact ⟨hc, hheld⟩
  rename_i row hrow
  obtain ⟨htaskID, hrowJob⟩ := ProbeResult.row_ids hrow
  refine safe_bind.mpr ((upsertResult_safe ⟨hc, hheld⟩ (htaskID ▸ htask) hrowJob).weaken ?_)
  intro _ locked writes s h
  dsimp only
  split
  · exact block_safe h now agent _ _
  · exact unblock_safe h agent _

theorem submitEach_safe (h : Submitting job.id locked writes s) (now : Timestamp)
    (agentID : String) (results : List ProbeResult) :
    Safe Rely (fun _ locked writes s => Submitting job.id locked writes s)
      (submitEach pg now agentID job results) locked writes s := by
  induction results generalizing locked writes s with
  | nil => exact h
  | cons result results ih =>
    unfold submitEach
    refine safe_bind.mpr ((submitResult_safe h now agentID result).weaken ?_)
    intro error locked writes s h
    cases error with
    | some error => exact h
    | none => exact ih h

theorem updateProgress_safe (h : Submitting jobID locked writes s) (now : Timestamp) :
    Safe Rely (fun _ locked writes s => Submitting jobID locked writes s)
      (updateProgress now jobID) locked writes s := by
  unfold updateProgress
  simp only [Tx.bind_eq]
  refine TableIn.safe_read fun s₁ h₁ => ?_
  have hnow := h.later h₁
  split
  · exact hnow
  split
  · exact safe_bind.mpr ((safe_updateJob (ScanJob.id_progress now _) (lasting_heldJob jobID)
      (fun _ _ h => h) hnow.1 hnow.2).weaken fun _ _ _ _ h => h)
  · exact hnow

/-- A job that is not there is not going to be frozen. -/
theorem not_frozen_of_none (hnone : s.jobs.find? jobID = none) (hrely : Rely s s') :
    ¬ Frozen jobID s' := by
  intro hfrozen
  obtain ⟨job', hjob', _⟩ := hfrozen.job
  obtain ⟨hmem, hid⟩ := Table.find?_eq_some.mp hjob'
  obtain ⟨job, hjob, hid'⟩ := hrely.jobs job' hmem
  exact Table.find?_eq_none.mp hnone job hjob (hid'.trans hid)

theorem submitResults_safe (hsane : Sane s) (now : Timestamp) (batch : ResultBatch) :
    Safe Rely (Ends Rely (CallPost pg (.submitResults now batch)))
      ((Call.submitResults now batch).program pg) (fun _ => False) [] s := by
  unfold Call.program submitResults
  refine safe_bind.mpr ?_
  cases huuid : pg.uuid batch.jobID with
  | none =>
    refine ends_rollback [] fun jobID h => ?_
    rw [Call.submitsFor, huuid] at h
    cases h
  | some jobID =>
    have hfor : ∀ other, (Call.submitResults now batch).submitsFor pg = some other →
        other = jobID := fun other h => Option.some.inj (h.symm.trans huuid)
    simp only [Tx.bind_eq]
    refine safe_bind.mpr (jobs.safe_selectForUpdate Rely.trans (fun s₁ _ hnone => ?_)
      fun s₁ h₁ => ?_)
    · refine ends_rollback [] fun other h s₂ h₂ => ?_
      rw [hfor other h]
      exact not_frozen_of_none hnone h₂.1
    split
    · rename_i hnone
      refine ends_rollback [] fun other h s₂ h₂ => ?_
      rw [hfor other h]
      exact not_frozen_of_none hnone h₂.1
    rename_i job hseen
    obtain rfl : job.id = jobID := Table.key_of_find? hseen
    split
    · exact ends_absorbed
    rename_i hopen
    have hc : Careful (some job.id) (fun key => key = .job job.id ∨ False) [] s₁ :=
      .nil (h₁.1.sane hsane)
    have hstart : Submitting job.id (fun key => key = .job job.id ∨ False) [] s₁ :=
      ⟨hc, hc.heldJob (Or.inl rfl) hseen hopen⟩
    -- from here on the job is held, so it is not frozen whatever the outcome
    have hrefused : ∀ {locked writes s reply}, Submitting job.id locked writes s →
        Ends Rely (CallPost pg (.submitResults now batch)) (.rollback reply) locked writes s :=
      fun h => ends_rollback _ fun other hother s' hlater =>
        hfor other hother ▸ h.2.not_frozen hlater
    refine safe_bind.mpr ((submitEach_safe hstart now batch.agentID batch.results).weaken ?_)
    intro error locked writes s h
    cases error with
    | some error => exact hrefused h
    | none =>
      refine safe_bind.mpr ((updateProgress_safe h now).weaken ?_)
      intro error locked writes s h
      cases error with
      | some error => exact hrefused h
      | none =>
        refine ends_commit ?_ (fun other hother => hfor other hother ▸ h.2)
          (fun batch h => by cases h) fun _ _ h => by cases h
        rw [Call.submitsFor, huuid]
        exact h.1

end Submit

end Cfscan.Scan
