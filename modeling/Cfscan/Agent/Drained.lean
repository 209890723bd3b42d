import Cfscan.Agent.Loop

/-!
# The loop drains the queue

In turns whose requests come back, and among any calls of others, a round of `processAvailable`
leaves nothing out that it claimed and the agent with less to do: `Round`. So the loop returns when
there is nothing left that it could do, `queue_drained`, and it does return unless others keep
creating tasks.

## What is asked of a turn

`Turn.Calm` is the friendly case: both requests come back, the context stands, and the calls around
them are of others. They may be any calls, stops of the agent's own jobs included, and any time may
pass between the claim and the submission. A stopped job is the reason why `submit` cannot simply be
said to record everything.

## What is counted

`openIDs` are the tasks the agent has to do. A completed round finishes at least one of them for
good (`Round.fewer`), which bounds the rounds while nobody creates tasks. A task that is out on a
lease from before the loop is not claimed before the lease has run out, and is the one thing
`Ends.idle` leaves.

The targets are single addresses (`Event.Plain`), and the table holds fewer than 2^31 tasks, which
is what the counters of a job take.
-/

set_option autoImplicit false

namespace Cfscan.Agent

open Cfscan.Lib Cfscan.Store Cfscan.Scan

/-! ## Leases and births

What others can do to the agent's queue. They lease nothing of it, since a claim only takes
its own caller's tasks, and only two calls create tasks; so while these two do not come, the
open tasks can only become fewer. -/

section Leases

variable {pg : Postgres} {agent : UUID} {w : Service}

/-- The tasks of a new job are pending. -/
theorem leased_created {s s' : ScanStore} (hsteps : Relation.ReflTransGen (Creation pg) s s')
    {task : ScanTask} (htask : task ∈ s'.tasks.rows) (hleased : task.status = .leased) :
    task ∈ s.tasks.rows := by
  induction hsteps with
  | refl => exact htask
  | tail _ hstep ih =>
    rcases hstep with ⟨n, _, rfl⟩ | ⟨job, hc⟩
    · exact ih htask
    · rcases hc.draft.new task htask with hold | ⟨_, hpending, _⟩
      · exact ih hold
      · rw [hleased] at hpending
        cases hpending

/-- A task that is out after a claim was out before, or is handed out by it. -/
theorem leased_claimed (w : Service) (tie : UUID → Nat) (agentID : String) (limit : Int)
    {task : ScanTask} (hleased : task.status = .leased)
    (htask : task ∈ (w.next pg (.call (.claimTasks tie agentID limit))).store.tasks.rows) :
    task ∈ w.store.tasks.rows ∨ pg.uuid agentID = some task.preferredAgentID ∧
      task.id ∈ handed pg w (.call (.claimTasks tie agentID limit)) := by
  simp only [Service.next, Scan.serve, handed] at htask ⊢
  rcases claimTasks_exec pg tie w.clock agentID limit w.store with
    ⟨hsame, -⟩ | ⟨other, job, ids, huuid, hclaim, hexec⟩
  · rw [hsame] at htask
    exact .inl htask
  rw [hexec] at htask ⊢
  obtain ⟨mid, hmid, rfl⟩ := (mem_rewritten (ScanTask.id_lease w.clock)).mp htask
  by_cases hsel : decide (mid.id ∈ ids) = true
  · obtain ⟨picked, hpicked, hid, hclaimable⟩ := hclaim.claimable _ (of_decide_eq_true hsel)
    obtain rfl := Table.eq_of_key hpicked hmid hid
    have hrewritten : rewritten (fun task => decide (task.id ∈ ids)) (ScanTask.lease w.clock)
        picked = picked.lease w.clock := if_pos hsel
    rw [hrewritten]
    refine .inr ⟨?_, ?_⟩
    · rw [huuid]
      exact congrArg some (claimable_eq hclaimable).2.1.symm
    · simp only [taskBatch, ScanStore.handedOut, List.map_map]
      exact List.mem_map.mpr ⟨picked, List.mem_filter.mpr ⟨hpicked, hsel⟩, rfl⟩
  · -- the claim has not picked it, so it was out before, and its lease goes on
    have hkept : rewritten (fun task => decide (task.id ∈ ids)) (ScanTask.lease w.clock)
        mid = mid := if_neg hsel
    rw [hkept] at hleased ⊢
    obtain ⟨old, hold, rfl⟩ := (mem_rewritten ScanTask.id_expire).mp hmid
    rcases expired_step other w.clock old with heq | ⟨-, -, heq⟩
    · rw [heq]
      exact .inl hold
    · rw [heq] at hleased
      cases hleased

/-- Results complete tasks and lease none. -/
theorem leased_submitted {s s' : ScanStore} {now : Timestamp} {agentID : String} {job : ScanJob}
    {results : List ProbeResult} (hrows : Rows pg s)
    (hsubmitted : Submitted pg now agentID job s results s') {task : ScanTask}
    (htask : task ∈ s'.tasks.rows) (hleased : task.status = .leased) : task ∈ s.tasks.rows := by
  obtain ⟨hsteps, hbirths, -⟩ := hsubmitted.evolves hrows
  obtain ⟨old, hold, hid⟩ := hbirths task htask
  obtain ⟨task', htask', hcase⟩ := hsteps old hold
  have hsame : task'.id = old.id := by
    rcases hcase with rfl | ⟨-, rfl⟩ <;> rfl
  obtain rfl := Table.eq_of_key htask' htask (hsame.trans hid)
  rcases hcase with rfl | ⟨-, rfl⟩
  · exact hold
  · cases hleased

/-- Only a claim leases, and only to the agent that makes it. -/
theorem leased_next (hsound : Sound pg w.store) (ev : Scan.Event) {task : ScanTask}
    (htask : task ∈ (w.next pg ev).store.tasks.rows) (hleased : task.status = .leased) :
    task ∈ w.store.tasks.rows ∨ ∃ tie agentID limit, ev = .call (.claimTasks tie agentID limit) ∧
      pg.uuid agentID = some task.preferredAgentID ∧ task.id ∈ handed pg w ev := by
  cases ev with
  | pass duration => exact .inl htask
  | call op =>
    cases op with
    | createScanJob agents jobID input agentTargets =>
      exact .inl (leased_created (.single (createScanJob_cases pg agents w.store w.clock jobID input
        agentTargets)) htask hleased)
    | createBlacklistRechecks world agents settings =>
      exact .inl (leased_created (createBlacklistRechecks_steps hsound.rows.ready
        hsound.rows.single world agents w.clock settings) htask hleased)
    | claimTasks tie agentID limit =>
      rcases leased_claimed w tie agentID limit hleased htask with hold | ⟨huuid, hhanded⟩
      · exact .inl hold
      · exact .inr ⟨tie, agentID, limit, rfl, huuid, hhanded⟩
    | submitResults batch =>
      left
      simp only [Service.next, Scan.serve] at htask
      rcases submitResults_exec pg w.clock batch w.store with
        ⟨_, hexec⟩ | ⟨_, -, -, -, hexec⟩ | ⟨job, -, s', -, -, hsubmitted, hexec⟩ <;>
        rw [hexec] at htask
      · exact htask
      · exact htask
      · rw [(progressed_tasks s' w.clock job.id).1] at htask
        exact leased_submitted hsound.rows hsubmitted htask hleased
    | stopScanJob id =>
      left
      simp only [Service.next, Scan.serve] at htask
      rcases stopScanJob_exec pg w.clock id w.store with ⟨hsame, -⟩ | ⟨job, -, -, -, hexec⟩
      · rw [hsame] at htask
        exact htask
      · rw [hexec] at htask
        obtain ⟨old, hold, rfl⟩ := (mem_rewritten ScanTask.id_cancel).mp htask
        unfold rewritten at hleased ⊢
        split at hleased
        · cases hleased
        · rename_i hsel
          rw [if_neg hsel]
          exact hold

/-- Calls of others lease nothing to the agent. -/
theorem leased_foldl (hsound : Sound pg w.store) {events : List Scan.Event}
    (hothers : ∀ ev ∈ events, ByOthers pg agent ev) {task : ScanTask}
    (htask : task ∈ (events.foldl (Service.next pg) w).store.tasks.rows)
    (hagent : task.preferredAgentID = agent) (hleased : task.status = .leased) :
    task ∈ w.store.tasks.rows := by
  induction events generalizing w with
  | nil => exact htask
  | cons ev events ih =>
    obtain ⟨hev, hrest⟩ := List.forall_mem_cons.mp hothers
    have hmem := ih (hsound.next ev) hrest htask
    refine (leased_next hsound ev hmem hleased).resolve_right ?_
    rintro ⟨tie, agentID, limit, rfl, huuid, -⟩
    exact hev (hagent ▸ huuid)

/-- The ids of the agent's tasks that are not final. -/
def openIDs (agent : UUID) (s : ScanStore) : List Int :=
  (s.tasks.rows.filter fun task =>
    decide (task.preferredAgentID = agent) && !task.status.final).map ScanTask.id

theorem mem_openIDs {s : ScanStore} {id : Int} : id ∈ openIDs agent s ↔ ∃ task ∈ s.tasks.rows,
    task.preferredAgentID = agent ∧ task.status.final = false ∧ task.id = id := by
  simp only [openIDs, List.mem_map, List.mem_filter, Bool.and_eq_true, decide_eq_true_eq,
    Bool.not_eq_true', and_assoc]

theorem nodup_openIDs (agent : UUID) (s : ScanStore) : (openIDs agent s).Nodup :=
  (List.filter_sublist.map ScanTask.id).nodup s.tasks.nodup

theorem not_mem_openIDs {s : ScanStore} {task : ScanTask} (htask : task ∈ s.tasks.rows)
    (hfinal : task.status.final = true) : task.id ∉ openIDs agent s := by
  intro hmem
  obtain ⟨other, hother, -, hopen, hid⟩ := mem_openIDs.mp hmem
  obtain rfl := Table.eq_of_key hother htask hid
  rw [hfinal] at hopen
  cases hopen

theorem births_next (hsound : Sound pg w.store) {ev : Scan.Event} (hnone : CreatesNothing ev) :
    ∀ task' ∈ (w.next pg ev).store.tasks.rows, ∃ task ∈ w.store.tasks.rows,
      task.id = task'.id := by
  intro task' htask'
  cases ev with
  | pass duration => exact ⟨task', htask', rfl⟩
  | call op =>
    cases op with
    | createScanJob => exact absurd hnone id
    | createBlacklistRechecks => exact absurd hnone id
    | claimTasks tie agentID limit =>
      simp only [Service.next, Scan.serve] at htask'
      rcases claimTasks_exec pg tie w.clock agentID limit w.store with
        ⟨hsame, -⟩ | ⟨other, job, ids, -, -, hexec⟩
      · rw [hsame] at htask'
        exact ⟨task', htask', rfl⟩
      · rw [hexec] at htask'
        obtain ⟨mid, hmid, rfl⟩ := (mem_rewritten (ScanTask.id_lease w.clock)).mp htask'
        obtain ⟨old, hold, rfl⟩ := (mem_rewritten ScanTask.id_expire).mp hmid
        refine ⟨old, hold, ?_⟩
        rw [(rewritten_same (same_lease w.clock) _).id, (rewritten_same same_expire old).id]
    | submitResults batch =>
      simp only [Service.next, Scan.serve] at htask'
      rcases submitResults_exec pg w.clock batch w.store with
        ⟨_, hexec⟩ | ⟨_, -, -, -, hexec⟩ | ⟨job, -, s', -, -, hsubmitted, hexec⟩ <;>
        rw [hexec] at htask'
      · exact ⟨task', htask', rfl⟩
      · exact ⟨task', htask', rfl⟩
      · rw [(progressed_tasks s' w.clock job.id).1] at htask'
        exact (hsubmitted.evolves hsound.rows).2.1 task' htask'
    | stopScanJob id =>
      simp only [Service.next, Scan.serve] at htask'
      rcases stopScanJob_exec pg w.clock id w.store with ⟨hsame, -⟩ | ⟨job, -, -, -, hexec⟩
      · rw [hsame] at htask'
        exact ⟨task', htask', rfl⟩
      · rw [hexec] at htask'
        obtain ⟨old, hold, rfl⟩ := (mem_rewritten ScanTask.id_cancel).mp htask'
        exact ⟨old, hold, (rewritten_same same_cancel old).id.symm⟩

/-- Without new tasks there is nothing more to do. -/
theorem openIDs_next (hsound : Sound pg w.store) {ev : Scan.Event} (hnone : CreatesNothing ev) :
    openIDs agent (w.next pg ev).store ⊆ openIDs agent w.store := by
  intro id hid
  obtain ⟨task', htask', hagent, hopen, rfl⟩ := mem_openIDs.mp hid
  obtain ⟨task, htask, hsame⟩ := births_next hsound hnone task' htask'
  refine mem_openIDs.mpr ⟨task, htask, ?_⟩
  cases ev with
  | pass duration =>
    obtain rfl := Table.eq_of_key htask htask' hsame
    exact ⟨hagent, hopen, rfl⟩
  | call op =>
    obtain ⟨task'', htask'', hstep⟩ := (serve_evolves hsound.rows w.clock op).steps task htask
    obtain rfl := Table.eq_of_key htask'' htask' (hstep.same.id.trans hsame)
    refine ⟨hstep.same.agent.symm.trans hagent, ?_, hsame⟩
    by_contra hfinal
    rw [Bool.not_eq_false] at hfinal
    rw [hstep.final hfinal, hfinal] at hopen
    cases hopen

theorem openIDs_foldl (hsound : Sound pg w.store) {events : List Scan.Event}
    (hnone : ∀ ev ∈ events, CreatesNothing ev) :
    openIDs agent (events.foldl (Service.next pg) w).store ⊆ openIDs agent w.store := by
  induction events generalizing w with
  | nil => exact fun _ hid => hid
  | cons ev events ih =>
    obtain ⟨hev, hrest⟩ := List.forall_mem_cons.mp hnone
    exact fun id hid => openIDs_next hsound hev (ih (hsound.next ev) hrest hid)

/-- One task less. -/
theorem openIDs_lt {s s' : ScanStore} {id : Int} (hsub : openIDs agent s' ⊆ openIDs agent s)
    (hopen : id ∈ openIDs agent s) (hdone : id ∉ openIDs agent s') :
    (openIDs agent s').length < (openIDs agent s).length := by
  have herase : openIDs agent s' ⊆ (openIDs agent s).erase id := fun other hother =>
    (List.mem_erase_of_ne fun heq : other = id => hdone (heq ▸ hother)).mpr (hsub hother)
  have hle := (List.subperm_of_subset (nodup_openIDs agent s') herase).length_le
  have hpos := List.length_pos_of_mem hopen
  rw [List.length_erase_of_mem hopen] at hle
  omega

end Leases

/-! ## A calm turn

The two requests of a turn in which both come back. The claim hands out a batch or leaves
nothing to claim (`Exhausted`); the submission is refused for a value only. -/

/-- Nothing is left that a claim of the agent could take. -/
def Exhausted (agent : UUID) (w : Service) : Prop :=
  ∀ task ∈ w.store.tasks.rows, task.preferredAgentID = agent →
    task.status.final = true ∨
      (task.status = .leased ∧ task.leaseExpired agent w.clock = false)

section Turn

variable {pg : Postgres} {uuidText : UUID → String} {letters : Utf8.Letters}
  {accounts : Enrollment.EnrollmentStore} {agentID : String} {concurrency : Int} {agent : UUID}
  {w : Service} {turn : Turn}

/-- A task that is not final belongs to an active job. -/
theorem active_of_open {s : ScanStore} (hsound : Sound pg s) {task : ScanTask}
    (htask : task ∈ s.tasks.rows) (hopen : task.status.final = false) :
    ∃ job ∈ s.jobs.rows, job.id = task.jobID ∧ job.active = true := by
  obtain ⟨job, hjob, hid⟩ := hsound.rows.owner task htask
  refine ⟨job, hjob, hid, ?_⟩
  have hmem : task ∈ s.jobTasks job.id := mem_jobTasks.mpr ⟨htask, hid.symm⟩
  cases hstatus : job.status with
  | pending => simp [ScanJob.active, hstatus]
  | running => simp [ScanJob.active, hstatus]
  | completed =>
    rw [(hsound.jobs job hjob).phase.completed hstatus task hmem] at hopen
    cases hopen
  | stopped =>
    rw [((hsound.jobs job hjob).phase.stopped hstatus).1 task hmem] at hopen
    cases hopen

theorem exhausted_of_none {tie : UUID → Nat} (hsound : Sound pg w.store)
    (huuid : pg.uuid agentID = some agent)
    (hreply : ((claimTasks pg tie w.clock agentID concurrency).exec w.store).1 = .ok none) :
    Exhausted agent w := by
  intro task htask hagent
  by_cases hfinal : task.status.final = true
  · exact Or.inl hfinal
  obtain ⟨job, hjob, hjobID, hactive⟩ :=
    active_of_open hsound htask (Bool.not_eq_true _ ▸ hfinal)
  have hmem : rewritten (ScanTask.leaseExpired agent w.clock) ScanTask.expire task ∈
      (w.store.expired agent w.clock).tasks.rows :=
    (mem_rewritten ScanTask.id_expire).mpr ⟨task, htask, rfl⟩
  have hnone := claimTasks_none huuid hreply hjob hactive hmem
  have hpending : (rewritten (ScanTask.leaseExpired agent w.clock) ScanTask.expire task).status ≠
      .pending := by
    have hsame := rewritten_same (p := ScanTask.leaseExpired agent w.clock) same_expire task
    simpa only [ScanTask.claimable, hsame.jobID, hsame.agent, hjobID, hagent, decide_true,
      Bool.true_and, decide_eq_false_iff_not] using hnone
  unfold rewritten at hpending
  split at hpending
  · exact absurd rfl hpending
  · rename_i hcurrent
    refine Or.inr ⟨?_, Bool.not_eq_true _ ▸ hcurrent⟩
    cases hstatus : task.status with
    | pending => exact absurd hstatus hpending
    | leased => rfl
    | completed => rw [hstatus] at hfinal; exact absurd rfl hfinal
    | cancelled => rw [hstatus] at hfinal; exact absurd rfl hfinal

/-- The claim of a calm turn: nothing to do, or a batch. -/
theorem claim_calm (hsound : Sound pg w.store) (huuid : pg.uuid agentID = some agent)
    (hclaim : turn.claim = .answered) :
    (claim pg accounts agentID concurrency turn w = (some none, w) ∧ Exhausted agent w) ∨
      ∃ batch, ((claimTasks pg turn.tie w.clock agentID concurrency).exec w.store).1 =
          .ok (some batch) ∧
        HandsOut (w.next pg (.call (.claimTasks turn.tie agentID concurrency))).store
          w.clock agent batch ∧
        claim pg accounts agentID concurrency turn w =
          (some (some batch), w.next pg (.call (.claimTasks turn.tie agentID concurrency))) := by
  unfold claim
  rw [hclaim]
  have hnone : ((claimTasks pg turn.tie w.clock agentID concurrency).exec w.store).1 = .ok none →
      Exhausted agent w := exhausted_of_none hsound huuid
  have hhands : ∀ batch, ((claimTasks pg turn.tie w.clock agentID concurrency).exec w.store).1 =
      .ok (some batch) → HandsOut ((claimTasks pg turn.tie w.clock agentID concurrency).exec
        w.store).2 w.clock agent batch := fun batch => claimTasks_handsOut huuid
  have hcases := claimTasks_exec pg turn.tie w.clock agentID concurrency w.store
  have hok : ∃ reply, ((claimTasks pg turn.tie w.clock agentID concurrency).exec w.store).1 =
      .ok reply := claimTasks_ok w.clock w.store huuid
  simp only [Delivery.bring, claimTask, visitNow, Service.next, Scan.serve]
  generalize (claimTasks pg turn.tie w.clock agentID concurrency).exec w.store = r
    at hnone hhands hcases hok
  obtain ⟨reply, s⟩ := r
  obtain ⟨batch?, rfl⟩ := hok
  cases batch? with
  | none =>
    left
    rcases hcases with ⟨hsame, -⟩ | ⟨_, _, _, -, -, hexec⟩
    · dsimp only at hsame
      subst hsame
      exact ⟨rfl, hnone rfl⟩
    · cases hexec
  | some batch =>
    right
    have hhands := hhands batch rfl
    refine ⟨batch, rfl, hhands, ?_⟩
    simp only [if_neg hhands.nonempty, Reply.claimed]

/-- The submission of a calm turn: accepted, or a result is one that no column takes. -/
theorem submit_calm {jobID : UUID} {results : List ProbeResult}
    (hsubmit : turn.submit = .answered) (htext : uuidText jobID ≠ "") (hne : results ≠ []) :
    submit pg uuidText accounts agentID turn jobID results w =
      (if ((Scan.submitResults pg w.clock ⟨agentID, uuidText jobID, results⟩).exec w.store).1 =
          .ok () then some () else none,
        w.next pg (.call (.submitResults ⟨agentID, uuidText jobID, results⟩))) := by
  unfold submit
  rw [hsubmit]
  have hfilled : ¬ (uuidText jobID = "" ∨ results = []) := not_or.mpr ⟨htext, hne⟩
  simp only [Delivery.bring, submitResults, visitNow, if_neg hfilled, Service.next, Scan.serve]
  generalize (Scan.submitResults pg w.clock ⟨agentID, uuidText jobID, results⟩).exec w.store = r
  obtain ⟨reply, s⟩ := r
  cases reply with
  | error error => simp [internalError, Reply.submitted]
  | ok u => simp [Reply.submitted]

end Turn

/-! ## The whole loop

The induction is on the turns. What carries it is `Round`: after a completed turn nothing
the loop has claimed is out any more, and fewer tasks are open unless others have created
some. -/

/-- The server prints the id as a text it reads back. -/
def Printed (pg : Postgres) (uuidText : UUID → String) (id : UUID) : Prop :=
  pg.uuid (uuidText id) = some id ∧ uuidText id ≠ ""

instance (pg : Postgres) (uuidText : UUID → String) (id : UUID) :
    Decidable (Printed pg uuidText id) :=
  inferInstanceAs (Decidable (_ ∧ _))

/-- How the loop ends that started at `w`, or how far it has come. -/
structure Ends (agent : UUID) (w : Service) (turns : List Turn) (r : Outcome × Service) :
    Prop where
  claim : r.1 ≠ .claimFailed
  submit : ∀ results, r.1 = .submitFailed results → ∃ result ∈ results, ¬ result.Fits
  /-- Then no task of the agent is left, except on leases from before that still run. -/
  idle : r.1 = .idle → ∀ task ∈ r.2.store.tasks.rows, task.preferredAgentID = agent →
    task.status.final = true ∨ (task ∈ w.store.tasks.rows ∧ task.status = .leased ∧
      task.leaseExpired agent r.2.clock = false)
  looping : (∀ turn ∈ turns, ∀ ev ∈ turn.before ++ turn.during, CreatesNothing ev) →
    r.1 = .looping → turns.length ≤ (openIDs agent w.store).length

section Loop

variable {pg : Postgres} {uuidText : UUID → String} {letters : Utf8.Letters}
  {accounts : Enrollment.EnrollmentStore} {agentID : String} {concurrency : Int} {agent : UUID}
  {w : Service} {turn : Turn} {turns : List Turn}

theorem claim_grows (accounts : Enrollment.EnrollmentStore) (agentID : String) (concurrency : Int)
    (turn : Turn) (hsound : Sound pg w.store) :
    Sound pg (claim pg accounts agentID concurrency turn w).2.store ∧
      Grows w.store (claim pg accounts agentID concurrency turn w).2.store := by
  have hnext := grows_next hsound (.call (.claimTasks turn.tie agentID concurrency))
  have hsound' := hsound.next (.call (.claimTasks turn.tie agentID concurrency))
  simp only [Service.next, Scan.serve] at hnext hsound'
  unfold claim Delivery.bring claimTask
  simp only [visitNow]
  generalize (claimTasks pg turn.tie w.clock agentID concurrency).exec w.store = r at hnext hsound'
  obtain ⟨reply, s⟩ := r
  cases turn.claim with
  | answered => rcases reply with error | _ | batch <;> exact ⟨hsound', hnext⟩
  | failed handled =>
    cases handled with
    | true => rcases reply with error | _ | batch <;> exact ⟨hsound', hnext⟩
    | false => exact ⟨hsound, .refl _⟩

theorem submit_grows (uuidText : UUID → String) (accounts : Enrollment.EnrollmentStore)
    (agentID : String) (turn : Turn) (hsound : Sound pg w.store) (jobID : UUID)
    (results : List ProbeResult) :
    Sound pg (submit pg uuidText accounts agentID turn jobID results w).2.store ∧
      Grows w.store (submit pg uuidText accounts agentID turn jobID results w).2.store := by
  have hnext := grows_next hsound (.call (.submitResults ⟨agentID, uuidText jobID, results⟩))
  have hsound' := hsound.next (.call (.submitResults ⟨agentID, uuidText jobID, results⟩))
  simp only [Service.next, Scan.serve] at hnext hsound'
  unfold submit Delivery.bring submitResults
  simp only [visitNow]
  by_cases hempty : uuidText jobID = "" ∨ results = []
  · simp only [if_pos hempty]
    rcases turn.submit with _ | _ | _ <;> exact ⟨hsound, .refl _⟩
  · simp only [if_neg hempty]
    generalize (Scan.submitResults pg w.clock ⟨agentID, uuidText jobID, results⟩).exec w.store = r
      at hnext hsound'
    obtain ⟨reply, s⟩ := r
    rcases turn.submit with _ | _ | _ <;> rcases reply with error | _ <;>
      first
        | exact ⟨hsound', hnext⟩
        | exact ⟨hsound, .refl _⟩

theorem processAvailable_grows (uuidText : UUID → String) (letters : Utf8.Letters)
    (accounts : Enrollment.EnrollmentStore) (agentID : String) (concurrency : Int)
    (hsound : Sound pg w.store) (turns : List Turn) :
    Grows w.store
      (processAvailable pg uuidText letters accounts agentID concurrency w turns).2.store := by
  induction turns generalizing w with
  | nil => exact .refl _
  | cons turn turns ih =>
    have hbefore := grows_foldl hsound turn.before
    have hsound₁ : Sound pg (turn.before.foldl (Service.next pg) w).store :=
      sound_foldl hsound turn.before
    obtain ⟨hsound₂, hclaim⟩ := claim_grows accounts agentID concurrency turn hsound₁
    unfold processAvailable
    split
    · rename_i heq
      rw [heq] at hclaim
      exact hbefore.trans hclaim
    · rename_i heq
      rw [heq] at hclaim
      exact hbefore.trans hclaim
    · rename_i batch w₂ heq
      rw [heq] at hclaim hsound₂
      split
      · exact hbefore.trans hclaim
      · have hduring := grows_foldl hsound₂ turn.during
        have hsound₃ := sound_foldl hsound₂ turn.during
        dsimp only
        split
        · rename_i results _
          obtain ⟨hsound₄, hsubmit⟩ :=
            submit_grows uuidText accounts agentID turn hsound₃ batch.jobID results
          split
          · rename_i heq'
            rw [heq'] at hsubmit
            exact hbefore.trans (hclaim.trans (hduring.trans hsubmit))
          · rename_i heq'
            rw [heq'] at hsubmit hsound₄
            exact hbefore.trans (hclaim.trans (hduring.trans (hsubmit.trans (ih hsound₄))))
        · exact hbefore.trans (hclaim.trans hduring)

/-- The batch of a calm turn, from the claim to the submission. -/
theorem submit_turn (accounts : Enrollment.EnrollmentStore) (hsteady : Steady pg w.store)
    {since : Timestamp} {batch : TaskBatch} (hhands : HandsOut w.store since agent batch)
    (hcalm : turn.Calm pg agent)
    (huuid : pg.uuid agentID = some agent) {late : Service}
    (hlate : turn.during.foldl (Service.next pg) w = late)
    (hprinted : Printed pg uuidText batch.jobID)
    (hlength : int4 late.store.tasks.rows.length = true)
    {p : Pool.State ClaimedTask ProbeResult} {results : List ProbeResult}
    (hrun : runBatch letters batch concurrency turn.acts = some p)
    (hret : p.caller = .returned results) :
    (submit pg uuidText accounts agentID turn batch.jobID results late).2 =
        late.next pg (.call (.submitResults ⟨agentID, uuidText batch.jobID, results⟩)) ∧
      ((submit pg uuidText accounts agentID turn batch.jobID results late).1 = none →
        ∃ result ∈ results, ¬ result.Fits) ∧
      ((submit pg uuidText accounts agentID turn batch.jobID results late).1 = some () →
        ∀ c ∈ batch.tasks, ∃ task ∈ (late.next pg (.call (.submitResults
          ⟨agentID, uuidText batch.jobID, results⟩))).store.tasks.rows,
            task.id = c.id ∧ task.status.final = true) := by
  have hduring : ∀ ev ∈ turn.during, ev.Plain pg := fun ev hev =>
    hcalm.plain ev (List.mem_append_right _ hev)
  have hkeeps := keeps_along (batch.tasks.map ClaimedTask.id) (since + leaseTerm) (w := w)
    fun ev hev => hcalm.others ev (List.mem_append_right turn.before hev)
  have hiff := submit_probed hsteady hhands hduring hkeeps hlate huuid hprinted.1 hlength hrun hret
  have hall := runBatch_all hrun hret hcalm.context
  -- the agent sends the batch only if it holds a result
  obtain ⟨first, hfirst⟩ := List.exists_mem_of_ne_nil batch.tasks hhands.nonempty
  have hne : results ≠ [] := by
    obtain ⟨result, hresult, -⟩ := hall first hfirst
    exact List.ne_nil_of_mem hresult
  rw [submit_calm hcalm.submit hprinted.2 hne]
  refine ⟨rfl, fun hnone => ?_, fun hsome => ?_⟩
  · dsimp only at hnone
    split at hnone
    · cases hnone
    · rename_i hrefused
      rw [hiff, not_or] at hrefused
      obtain ⟨result, hrefused⟩ := not_forall.mp hrefused.2
      exact ⟨result, Classical.not_imp.mp hrefused⟩
  · dsimp only at hsome
    split at hsome
    · rename_i hok
      intro c hc
      have hsound : Sound pg late.store := hlate ▸ (hsteady.foldl hduring).sound
      by_cases hstopped : late.store.hasStopped pg (uuidText batch.jobID)
      · -- the stop has cancelled what was out
        obtain ⟨job, hjob, hid, hstatus⟩ := hstopped
        have hjobID : batch.jobID = job.id := Option.some_inj.mp (hprinted.1.symm.trans hid)
        obtain ⟨task, hout, hmem⟩ := HandsOut.later hhands hsteady.sound hkeeps c hc
        rw [hlate] at hmem
        have hcancel : task.cancel ∈ late.store.tasks.rows := by
          refine hmem.resolve_left fun htask => ?_
          have hfinal := ((hsound.jobs job hjob).phase.stopped hstatus).1 task
            (mem_jobTasks.mpr ⟨htask, hout.jobID.trans hjobID⟩)
          rw [hout.status] at hfinal
          cases hfinal
        exact ⟨task.cancel, (next_goesOn hsound.rows _).2 _ hcancel rfl, hout.id, rfl⟩
      · -- every task of the batch has a result, and what is recorded has completed its task
        obtain ⟨job, -, -, hrecorded⟩ := submit_recorded hsound.rows hok hstopped
        obtain ⟨result, hresult, hid⟩ := hall c hc
        obtain ⟨task, htask, htaskID, hstatus, -⟩ := hrecorded result hresult
        exact ⟨task, htask, htaskID.trans hid, by rw [hstatus]; rfl⟩
    · cases hsome

theorem Ends.probing (agent : UUID) (w w' : Service) (turns : List Turn) :
    Ends agent w turns (.probing, w') :=
  ⟨fun h => (by cases h), fun _ h => (by cases h), fun h => (by cases h), fun _ h => (by cases h)⟩

/-- A round the loop has completed: nothing it claimed is out any more, and the agent has less to
do. -/
structure Round (agent : UUID) (turn : Turn) (w w' : Service) : Prop where
  back : ∀ task ∈ w'.store.tasks.rows, task.preferredAgentID = agent → task.status = .leased →
    task ∈ w.store.tasks.rows
  fewer : (∀ ev ∈ turn.before ++ turn.during, CreatesNothing ev) →
    (openIDs agent w'.store).length < (openIDs agent w.store).length

theorem round_of {tie : UUID → Nat} {w₁ w₂ late : Service} {since : Timestamp} {batch : TaskBatch}
    {input : ResultBatch} (hsound : Sound pg w.store) (hcalm : turn.Calm pg agent)
    (hw₁ : turn.before.foldl (Service.next pg) w = w₁)
    (hw₂ : w₁.next pg (.call (.claimTasks tie agentID concurrency)) = w₂)
    (hlate : turn.during.foldl (Service.next pg) w₂ = late)
    (hhands : HandsOut w₂.store since agent batch)
    (hhanded : handed pg w₁ (.call (.claimTasks tie agentID concurrency)) =
      batch.tasks.map ClaimedTask.id)
    (hdone : ∀ c ∈ batch.tasks, ∃ task ∈ (late.next pg (.call (.submitResults input))).store.tasks.rows,
      task.id = c.id ∧ task.status.final = true) :
    Round agent turn w (late.next pg (.call (.submitResults input))) := by
  have hsound₁ : Sound pg w₁.store := hw₁ ▸ sound_foldl hsound turn.before
  have hsound₂ : Sound pg w₂.store := hw₂ ▸ hsound₁.next _
  have hsound₃ : Sound pg late.store := hlate ▸ sound_foldl hsound₂ turn.during
  constructor
  · intro task htask hagent hleased
    have h₃ : task ∈ late.store.tasks.rows := by
      refine (leased_next hsound₃ _ htask hleased).resolve_right ?_
      rintro ⟨_, _, _, hclaim, -⟩
      cases hclaim
    have h₂ : task ∈ w₂.store.tasks.rows := leased_foldl hsound₂
      (fun ev hev => hcalm.others ev (List.mem_append_right _ hev)) (hlate.symm ▸ h₃) hagent hleased
    have h₁ : task ∈ w₁.store.tasks.rows := by
      refine (leased_next hsound₁ _ (hw₂.symm ▸ h₂) hleased).resolve_right ?_
      rintro ⟨_, _, _, -, -, hid⟩
      -- what the claim handed out is final by now
      rw [hhanded] at hid
      obtain ⟨c, hc, hcid⟩ := List.mem_map.mp hid
      obtain ⟨other, hother, hsame, hfinal⟩ := hdone c hc
      obtain rfl := Table.eq_of_key hother htask (hsame.trans hcid)
      rw [hleased] at hfinal
      cases hfinal
    exact leased_foldl hsound (fun ev hev => hcalm.others ev (List.mem_append_left _ hev))
      (hw₁.symm ▸ h₁) hagent hleased
  · intro hnone
    have hsub₁ : openIDs agent w₁.store ⊆ openIDs agent w.store :=
      hw₁ ▸ openIDs_foldl hsound fun ev hev => hnone ev (List.mem_append_left _ hev)
    have hsub₂ : openIDs agent w₂.store ⊆ openIDs agent w₁.store :=
      hw₂ ▸ openIDs_next hsound₁ trivial
    have hsub₃ : openIDs agent late.store ⊆ openIDs agent w₂.store :=
      hlate ▸ openIDs_foldl hsound₂ fun ev hev => hnone ev (List.mem_append_right _ hev)
    have hsub₄ : openIDs agent (late.next pg (.call (.submitResults input))).store ⊆
        openIDs agent late.store := openIDs_next hsound₃ trivial
    obtain ⟨c, hc⟩ := List.exists_mem_of_ne_nil batch.tasks hhands.nonempty
    obtain ⟨out, hmem, hout⟩ := hhands.out c hc
    have hopen : c.id ∈ openIDs agent w₂.store :=
      mem_openIDs.mpr ⟨out, hmem, hout.agent, by rw [hout.status]; rfl, hout.id⟩
    obtain ⟨task, htask, hid, hfinal⟩ := hdone c hc
    refine openIDs_lt (fun id hid => hsub₁ (hsub₂ (hsub₃ (hsub₄ hid)))) (hsub₁ (hsub₂ hopen)) ?_
    exact hid ▸ not_mem_openIDs htask hfinal

theorem Round.ends {w' : Service} {r : Outcome × Service} (h : Round agent turn w w')
    (hends : Ends agent w' turns r) : Ends agent w (turn :: turns) r := by
  refine ⟨hends.claim, hends.submit, fun hidle task htask hagent => ?_, fun hnone hlooping => ?_⟩
  · rcases hends.idle hidle task htask hagent with hfinal | ⟨hmem, hleased, hcurrent⟩
    · exact Or.inl hfinal
    · exact Or.inr ⟨h.back task hmem hagent hleased, hleased, hcurrent⟩
  · obtain ⟨hturn, hturns⟩ := List.forall_mem_cons.mp hnone
    have hle := hends.looping hturns hlooping
    have hlt := h.fewer hturn
    rw [List.length_cons]
    omega

/-- **The loop drains the queue.** With requests that come back and a context that stands, among any
calls of others: the loop never fails, unless a result does not fit its columns; when it returns,
every task of the agent is final, or out on a lease from before the loop that still runs; and while
nobody creates tasks, it returns after at most one round more than the agent had tasks to do. -/
theorem processAvailable_ends (huuid : pg.uuid agentID = some agent) (hsteady : Steady pg w.store)
    (hcalm : ∀ turn ∈ turns, turn.Calm pg agent)
    (hprinted : ∀ job ∈ (processAvailable pg uuidText letters accounts agentID concurrency w
      turns).2.store.jobs.rows, Printed pg uuidText job.id)
    (hlength : int4 (processAvailable pg uuidText letters accounts agentID concurrency w
      turns).2.store.tasks.rows.length = true) :
    Ends agent w turns (processAvailable pg uuidText letters accounts agentID concurrency w turns) := by
  induction turns generalizing w with
  -- no turn is left: the loop is still running
  | nil =>
    exact ⟨fun h => (by cases h), fun _ h => (by cases h), fun h => (by cases h),
      fun _ _ => Nat.zero_le _⟩
  | cons turn turns ih =>
    obtain ⟨hturn, hturns⟩ := List.forall_mem_cons.mp hcalm
    have hbefore : ∀ ev ∈ turn.before, ev.Plain pg := fun ev hev =>
      hturn.plain ev (List.mem_append_left _ hev)
    have hothers : ∀ ev ∈ turn.before, ByOthers pg agent ev := fun ev hev =>
      hturn.others ev (List.mem_append_left _ hev)
    have hsteady₁ := hsteady.foldl hbefore
    generalize hw₁ : turn.before.foldl (Service.next pg) w = w₁ at hsteady₁
    have hback₁ : ∀ task ∈ w₁.store.tasks.rows, task.preferredAgentID = agent →
        task.status = .leased → task ∈ w.store.tasks.rows := fun task htask =>
      leased_foldl hsteady.sound hothers (hw₁.symm ▸ htask)
    unfold processAvailable at hprinted hlength ⊢
    rw [hw₁] at hprinted hlength ⊢
    rcases claim_calm hsteady₁.sound huuid hturn.claim with
      ⟨hclaim, hidle⟩ | ⟨batch, hreply, hhands, hclaim⟩
    · rw [hclaim]
      -- the claim is empty: the loop returns, and what is not final is out on a lease
      refine ⟨fun h => (by cases h), fun _ h => (by cases h), fun _ task htask hagent => ?_,
        fun _ h => (by cases h)⟩
      rcases hidle task htask hagent with hfinal | ⟨hleased, hcurrent⟩
      · exact Or.inl hfinal
      · exact Or.inr ⟨hback₁ task htask hagent hleased, hleased, hcurrent⟩
    · rw [hclaim] at hprinted hlength ⊢
      dsimp only at hprinted hlength ⊢
      -- a batch: `w₂` is the service after the claim, `late` the moment when the probes are through
      rw [if_neg hhands.nonempty] at hprinted hlength ⊢
      have hsteady₂ : Steady pg
          (w₁.next pg (.call (.claimTasks turn.tie agentID concurrency))).store := hsteady₁.next trivial
      generalize hw₂ : w₁.next pg (.call (.claimTasks turn.tie agentID concurrency)) = w₂
        at hhands hsteady₂ hprinted hlength ⊢
      have hsteady₃ : Steady pg (turn.during.foldl (Service.next pg) w₂).store :=
        hsteady₂.foldl fun ev hev => hturn.plain ev (List.mem_append_right _ hev)
      have hgrows₃ := grows_foldl hsteady₂.sound turn.during
      generalize hlate : turn.during.foldl (Service.next pg) w₂ = late
        at hsteady₃ hgrows₃ hprinted hlength ⊢
      cases hrun : runBatch letters batch concurrency turn.acts with
      | none => exact .probing agent w late _
      | some p =>
        rw [hrun] at hprinted hlength
        rw [Option.map_some] at hprinted hlength ⊢
        cases hret : p.caller with
        | waiting => exact .probing agent w late _
        | collecting => exact .probing agent w late _
        | returned results =>
          rw [hret] at hprinted hlength
          dsimp only at hprinted hlength ⊢
          have hmore := submit_grows uuidText accounts agentID turn hsteady₃.sound batch.jobID results
          have hfacts := fun hprinted hlength => submit_turn accounts hsteady₂ hhands hturn
            huuid hlate (hprinted : Printed pg uuidText batch.jobID) hlength hrun hret
          -- the job of the batch is still there at the end, which is where its id is known to print
          obtain ⟨job, hjob, hjobID⟩ := hhands.job
          obtain ⟨job₃, hjob₃, hjobID₃⟩ := hgrows₃.jobs job hjob
          obtain ⟨job₄, hjob₄, hjobID₄⟩ := hmore.2.jobs job₃ hjob₃
          have hsameJob : job₄.id = batch.jobID := hjobID₄.trans (hjobID₃.trans hjobID)
          generalize submit pg uuidText accounts agentID turn batch.jobID results late = r
            at hprinted hlength hmore hfacts hjob₄ ⊢
          obtain ⟨reply, w₄⟩ := r
          cases reply with
          | none =>
            dsimp only at hprinted hlength hmore hjob₄ ⊢
            -- refused: some value did not fit its column
            obtain ⟨-, hrefused, -⟩ :=
              hfacts (hsameJob ▸ hprinted job₄ hjob₄) (hmore.2.int4 hlength)
            exact ⟨fun h => (by cases h), fun _ h => (by cases h; exact hrefused rfl),
              fun h => (by cases h), fun _ h => (by cases h)⟩
          | some u =>
            dsimp only at hprinted hlength hmore hjob₄ ⊢
            -- accepted: the round is done, and the rest of the loop is the induction hypothesis
            have hrest := processAvailable_grows uuidText letters accounts agentID concurrency
              hmore.1 turns
            obtain ⟨job₅, hjob₅, hjobID₅⟩ := hrest.jobs job₄ hjob₄
            obtain ⟨hnext, -, hdone⟩ := hfacts (hjobID₅.trans hsameJob ▸ hprinted job₅ hjob₅)
              (hmore.2.int4 (hrest.int4 hlength))
            dsimp only at hnext
            subst hnext
            have hdone := hdone rfl
            have hround : Round agent turn w _ := round_of hsteady.sound hturn hw₁ hw₂ hlate hhands
              (by simp only [handed, Scan.serve, hreply]) hdone
            exact hround.ends (ih (hsteady₃.next trivial) hturns hprinted hlength)

/-- `processAvailable_ends`, from any state a run of plain calls can reach. -/
theorem queue_drained (pg : Postgres) (uuidText : UUID → String) (letters : Utf8.Letters)
    (accounts : Enrollment.EnrollmentStore) (concurrency : Int) (start : Timestamp)
    (before : List Scan.Event) (turns : List Turn) (hplain : ∀ ev ∈ before, ev.Plain pg)
    (huuid : pg.uuid agentID = some agent) (hcalm : ∀ turn ∈ turns, turn.Calm pg agent)
    (hprinted : ∀ job ∈ (processAvailable pg uuidText letters accounts agentID concurrency
      (replay pg start before) turns).2.store.jobs.rows, Printed pg uuidText job.id)
    (hlength : int4 (processAvailable pg uuidText letters accounts agentID concurrency
      (replay pg start before) turns).2.store.tasks.rows.length = true) :
    Ends agent (replay pg start before) turns (processAvailable pg uuidText letters accounts agentID
      concurrency (replay pg start before) turns) :=
  processAvailable_ends huuid ((Steady.empty pg).foldl hplain) hcalm hprinted hlength

end Loop

/-! ## One task -/

def noAccounts : Enrollment.EnrollmentStore := ⟨.empty, .empty, .empty⟩

/-- The uuid text of the one job. -/
def oneText (_ : UUID) : String := oneJob

/-- A round of the loop an hour after the other, with nothing to do. -/
def twoTurns : List Turn :=
  [⟨[], fun _ => 0, .answered, [.pass (3600 * 1000000)], oneProbe, .answered⟩,
    ⟨[.pass (3600 * 1000000)], fun _ => 0, .answered, [], [], .answered⟩]

theorem calm_twoTurns :
    ∀ turn ∈ twoTurns, turn.Calm oneAddress 0x6f9619ff8b864011b42d00c04fc964ff := by
  have hpass : ∀ (duration : Nat) (ev : Scan.Event), ev ∈ [.pass duration] →
      ev.Plain oneAddress ∧ ByOthers oneAddress 0x6f9619ff8b864011b42d00c04fc964ff ev := by
    intro duration ev hev
    rw [List.mem_singleton.mp hev]
    exact ⟨trivial, trivial⟩
  intro turn hturn
  rcases List.mem_cons.mp hturn with rfl | hturn
  · exact ⟨rfl, rfl, by simp [oneProbe], fun ev hev => (hpass _ ev hev).1,
      fun ev hev => (hpass _ ev hev).2⟩
  · rw [List.mem_singleton.mp hturn]
    exact ⟨rfl, rfl, List.not_mem_nil, fun ev hev => (hpass _ ev hev).1,
      fun ev hev => (hpass _ ev hev).2⟩

theorem queue_drained_twoTurns :
    Ends 0x6f9619ff8b864011b42d00c04fc964ff (replay oneAddress 0 (claimedJob.take 1)) twoTurns
      (processAvailable oneAddress oneText .ascii noAccounts oneAgent 32
        (replay oneAddress 0 (claimedJob.take 1)) twoTurns) ∧
    (processAvailable oneAddress oneText .ascii noAccounts oneAgent 32
      (replay oneAddress 0 (claimedJob.take 1)) twoTurns).1 = .idle := by
  exact ⟨queue_drained oneAddress oneText .ascii noAccounts 32 0 (claimedJob.take 1) twoTurns
    (fun ev hev => plain_claimedJob ev (List.mem_of_mem_take hev)) (by decide +kernel) calm_twoTurns
    (by decide +kernel) (by decide +kernel), by decide +kernel⟩

end Cfscan.Agent
