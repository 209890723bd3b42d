import Cfscan.Lib.Along
import Cfscan.Scan.Failures
import Cfscan.Scan.Settled

/-!
# Work that is out

Between the claim of a batch and the submission of its results, leases end only by the agent's own
claims, tasks are completed only by the agent's own submissions, and a stop cancels them together
with their job. `Keeps` is what the agent itself may do meanwhile; everybody else may do anything,
for any time. The last section is about the other reply to a claim: nothing.

Everybody else includes other agents, stops, creations and the clock. What an agent must not do
itself is claim once more after the deadline, since its own claim is what ends its leases, and
submit the results of these tasks before it submits them. `submit_claimed` is an `iff`: the results
are accepted exactly when the columns take their values, or the job has been stopped and nothing is
looked at.
-/

set_option autoImplicit false

namespace Cfscan.Scan

open Cfscan.Lib Cfscan.Store

/-- An event that leaves the leases of the tasks `ids` alone: the agent claims no more after
`deadline` and submits no result of theirs. -/
def Keeps (pg : Postgres) (agent : UUID) (ids : List Int) (deadline : Timestamp) (w : Service) :
    Event → Prop
  | .call (.claimTasks _ agentID _) => pg.uuid agentID = some agent → w.clock ≤ deadline
  | .call (.submitResults batch) =>
    pg.uuid batch.agentID = some agent → ∀ result ∈ batch.results, result.taskID ∉ ids
  | _ => True

instance (pg : Postgres) (agent : UUID) (ids : List Int) (deadline : Timestamp) (w : Service)
    (ev : Event) : Decidable (Keeps pg agent ids deadline w ev) :=
  match ev with
  | .pass _ => inferInstanceAs (Decidable True)
  | .call (.createScanJob ..) => inferInstanceAs (Decidable True)
  | .call (.createBlacklistRechecks ..) => inferInstanceAs (Decidable True)
  | .call (.claimTasks ..) => inferInstanceAs (Decidable (_ → _))
  | .call (.submitResults _) => inferInstanceAs (Decidable (_ → _))
  | .call (.stopScanJob _) => inferInstanceAs (Decidable True)

/-! ## One call

A leased task is changed by three calls only: a claim by its agent after the lease ran out,
a batch of its agent that names it, and a stop of its job. `Keeps` excludes the first two.
The third is left in, so that after any run the task is as it was or cancelled. -/

section Call

variable {pg : Postgres} {now : Timestamp} {s s' : ScanStore} {agent : UUID} {task : ScanTask}
  {leaseUntil : Timestamp}

theorem kept_creations (hsteps : Relation.ReflTransGen (Creation pg) s s')
    (htask : task ∈ s.tasks.rows) : task ∈ s'.tasks.rows := by
  induction hsteps with
  | refl => exact htask
  | tail _ hstep ih =>
    rcases hstep with ⟨n, _, rfl⟩ | ⟨job, hc⟩
    · exact ih
    · exact hc.draft.old task ih

/-- A claim takes pending tasks and ends leases of its own agent that have run over. -/
theorem kept_claim {other : UUID} {job : ScanJob} {ids : List Int}
    (hclaim : ClaimOf s now other job ids) (htask : task ∈ s.tasks.rows)
    (hleased : task.status = .leased) (hlease : task.leaseUntil = some leaseUntil)
    (hkeeps : other = task.preferredAgentID → now ≤ leaseUntil) :
    task ∈ ((s.expired other now).leased now job.id ids).tasks.rows := by
  have hcurrent : ¬ task.leaseExpired other now = true := by
    intro hexpired
    obtain ⟨given, hgiven, hover⟩ := leaseExpired_lease hexpired
    obtain rfl := Option.some_inj.mp (hlease.symm.trans hgiven)
    simp only [ScanTask.leaseExpired, Bool.and_eq_true, decide_eq_true_eq] at hexpired
    exact absurd (hkeeps hexpired.1.1.symm) (not_le.mpr hover)
  have hmid : task ∈ (s.expired other now).tasks.rows :=
    (mem_rewritten ScanTask.id_expire).mpr ⟨task, htask, if_neg hcurrent⟩
  refine (mem_rewritten (ScanTask.id_lease now)).mpr ⟨task, hmid, if_neg ?_⟩
  intro hsel
  obtain ⟨picked, hpicked, hid, hclaimable⟩ := hclaim.claimable _ (of_decide_eq_true hsel)
  obtain rfl := Table.eq_of_key hpicked hmid hid
  rw [(claimable_eq hclaimable).2.2] at hleased
  cases hleased

/-- A submission completes the tasks it names, of its own agent. -/
theorem kept_submitted {agentID : String} {job : ScanJob} {results : List ProbeResult}
    (hsubmitted : Submitted pg now agentID job s results s') (htask : task ∈ s.tasks.rows)
    (hkeeps : pg.uuid agentID = some task.preferredAgentID →
      ∀ result ∈ results, result.taskID ≠ task.id) : task ∈ s'.tasks.rows := by
  induction hsubmitted with
  | nil => exact htask
  | @cons s s' result results agent' picked row hrecord _ ih =>
    refine ih ?_ fun hagent other hother => hkeeps hagent other (.tail _ hother)
    refine (mem_rewritten (ScanTask.id_complete now)).mpr ⟨task, htask, if_neg fun hsel => ?_⟩
    obtain ⟨hid, -, hagent, -⟩ := submittable_eq hsel
    exact hkeeps (hagent ▸ hrecord.uuid) result (.head _) hid.symm

/-- **A task that is out** stays as it is, or is cancelled. -/
theorem kept_next {w : Service} (hsound : Sound pg w.store) {ids : List Int} {deadline : Timestamp}
    (htask : task ∈ w.store.tasks.rows) (hid : task.id ∈ ids) (hleased : task.status = .leased)
    (hlease : task.leaseUntil = some leaseUntil) (hlong : deadline ≤ leaseUntil) {ev : Event}
    (hkeeps : Keeps pg task.preferredAgentID ids deadline w ev) :
    task ∈ (w.next pg ev).store.tasks.rows ∨ task.cancel ∈ (w.next pg ev).store.tasks.rows := by
  cases ev with
  | pass duration => exact Or.inl htask
  | call op =>
    cases op with
    | createScanJob agents jobID input agentTargets =>
      exact Or.inl (kept_creations (.single
        (createScanJob_cases pg agents w.store w.clock jobID input agentTargets)) htask)
    | createBlacklistRechecks world agents settings =>
      exact Or.inl (kept_creations (createBlacklistRechecks_steps hsound.rows.ready
        hsound.rows.single world agents w.clock settings) htask)
    | claimTasks tie agentID limit =>
      left
      simp only [Service.next, serve]
      rcases claimTasks_exec pg tie w.clock agentID limit w.store with
        ⟨hsame, -⟩ | ⟨other, job, picked, huuid, hclaim, hexec⟩
      · rw [hsame]
        exact htask
      · rw [hexec]
        -- only claims of its own agent expire it, and these come before its lease is over
        refine kept_claim hclaim htask hleased hlease fun hown => ?_
        exact (hkeeps (hown ▸ huuid)).trans hlong
    | submitResults batch =>
      left
      simp only [Service.next, serve]
      rcases submitResults_exec pg w.clock batch w.store with
        ⟨_, hexec⟩ | ⟨_, -, -, -, hexec⟩ | ⟨job, -, s', -, -, hsubmitted, hexec⟩ <;> rw [hexec]
      · exact htask
      · exact htask
      · rw [(progressed_tasks s' w.clock job.id).1]
        exact kept_submitted hsubmitted htask fun hagent result hresult heq =>
          hkeeps hagent result hresult (heq ▸ hid)
    | stopScanJob id =>
      simp only [Service.next, serve]
      rcases stopScanJob_exec pg w.clock id w.store with ⟨hsame, -⟩ | ⟨job, -, -, -, hexec⟩
      · rw [hsame]
        exact Or.inl htask
      · rw [hexec]
        have hmem : rewritten (ScanTask.stoppable job.id) ScanTask.cancel task ∈
            (w.store.stopped w.clock job.id).tasks.rows :=
          (mem_rewritten ScanTask.id_cancel).mpr ⟨task, htask, rfl⟩
        unfold rewritten at hmem
        split at hmem
        · exact Or.inr hmem
        · exact Or.inl hmem

theorem Sound.next {w : Service} (h : Sound pg w.store) (ev : Event) :
    Sound pg (w.next pg ev).store := by
  cases ev with
  | pass duration => exact h
  | call op => exact h.serve w.clock op

/-- Through any events that keep it. -/
theorem kept_along {w : Service} (hsound : Sound pg w.store) {ids : List Int} {deadline : Timestamp}
    (htask : task ∈ w.store.tasks.rows) (hid : task.id ∈ ids) (hleased : task.status = .leased)
    (hlease : task.leaseUntil = some leaseUntil) (hlong : deadline ≤ leaseUntil) {mid : List Event}
    (hkeeps : Along (Service.next pg) (Keeps pg task.preferredAgentID ids deadline) w mid) :
    task ∈ (mid.foldl (Service.next pg) w).store.tasks.rows ∨
      task.cancel ∈ (mid.foldl (Service.next pg) w).store.tasks.rows := by
  refine (hkeeps.invariant (fun w => Sound pg w.store ∧
    (task ∈ w.store.tasks.rows ∨ task.cancel ∈ w.store.tasks.rows)) ⟨hsound, Or.inl htask⟩ ?_).2
  rintro w ev ⟨hsound, hmem⟩ hev
  refine ⟨hsound.next ev, ?_⟩
  rcases hmem with hmem | hmem
  · exact kept_next hsound hmem hid hleased hlease hlong hev
  · right
    cases ev with
    | pass duration => exact hmem
    | call op =>
      obtain ⟨task', htask', hstep⟩ :=
        (serve_evolves hsound.rows w.clock op).steps task.cancel hmem
      obtain rfl := hstep.final rfl
      exact htask'

end Call

/-! ## The batch -/

/-- The task of a reply: out with the agent until `leaseUntil`, for the address it names. -/
structure Out (jobID agent : UUID) (leaseUntil : Timestamp) (claimed : ClaimedTask)
    (task : ScanTask) : Prop where
  id : task.id = claimed.id
  jobID : task.jobID = jobID
  agent : task.preferredAgentID = agent
  status : task.status = .leased
  lease : task.leaseUntil = some leaseUntil
  targetIP : task.targetIP.host = claimed.targetIP

/-- What a claim replies and leaves behind. -/
structure HandsOut (s : ScanStore) (now : Timestamp) (agent : UUID) (batch : TaskBatch) : Prop where
  nonempty : batch.tasks ≠ []
  distinct : (batch.tasks.map ClaimedTask.id).Nodup
  job : ∃ job ∈ s.jobs.rows, job.id = batch.jobID
  out : ∀ claimed ∈ batch.tasks, ∃ task ∈ s.tasks.rows,
    Out batch.jobID agent (now + leaseTerm) claimed task

theorem claimTasks_handsOut {pg : Postgres} {tie : UUID → Nat} {now : Timestamp} {agentID : String}
    {limit : Int} {s : ScanStore} {batch : TaskBatch} {agent : UUID}
    (huuid : pg.uuid agentID = some agent)
    (hreply : ((claimTasks pg tie now agentID limit).exec s).1 = .ok (some batch)) :
    HandsOut ((claimTasks pg tie now agentID limit).exec s).2 now agent batch := by
  rcases claimTasks_exec pg tie now agentID limit s with
    ⟨-, hnone⟩ | ⟨agent', job, ids, huuid', hclaim, hexec⟩
  · exact absurd hreply (hnone batch)
  obtain rfl := Option.some_inj.mp (huuid.symm.trans huuid')
  rw [hexec] at hreply ⊢
  cases hreply
  have hhanded : (taskBatch job ((s.expired agent now).handedOut now ids)).tasks =
      ((s.expired agent now).tasks.rows.filter fun task => decide (task.id ∈ ids)).map
        fun task => ⟨task.id, task.targetIP.host⟩ := by
    rw [taskBatch, ScanStore.handedOut, List.map_map]
    rfl
  refine ⟨?_, ?_, ?_, ?_⟩
  · obtain ⟨id, hid⟩ := List.exists_mem_of_ne_nil ids hclaim.nonempty
    obtain ⟨task, htask, rfl, -⟩ := hclaim.claimable id hid
    rw [hhanded, ne_eq, List.map_eq_nil_iff]
    exact List.ne_nil_of_mem (List.mem_filter.mpr ⟨htask, decide_eq_true hid⟩)
  · rw [hhanded, List.map_map]
    exact (List.filter_sublist.map ScanTask.id).nodup (s.expired agent now).tasks.nodup
  · have hmem : (if decide (job.id = job.id) = true then job.start now else job) ∈
        ((s.expired agent now).jobs.updateWhere (fun row => decide (row.id = job.id))
          (ScanJob.start now) (ScanJob.id_start now)).rows :=
      Table.mem_updateWhere_of_mem hclaim.mem
    rw [if_pos (decide_eq_true rfl)] at hmem
    exact ⟨_, hmem, rfl⟩
  · intro claimed hclaimed
    rw [hhanded, List.mem_map] at hclaimed
    obtain ⟨task, htask, rfl⟩ := hclaimed
    obtain ⟨hmem, hsel⟩ := List.mem_filter.mp htask
    obtain ⟨picked, hpicked, hid, hclaimable⟩ := hclaim.claimable _ (of_decide_eq_true hsel)
    obtain rfl := Table.eq_of_key hpicked hmem hid
    obtain ⟨hjob, hagent, -⟩ := claimable_eq hclaimable
    exact ⟨picked.lease now, (mem_rewritten (ScanTask.id_lease now)).mpr
      ⟨picked, hmem, if_pos hsel⟩, rfl, hjob, hagent, rfl, rfl, rfl⟩

/-! ## The results

A batch that `ClaimTasks` handed out, answered with one result for each task, is accepted as
long as its values fit. The two conditions on the database that this needs, that the tables
are sound and the targets plain, are gathered in `Steady` and hold along every run. -/

/-- What any run of plain calls keeps. -/
structure Steady (pg : Postgres) (s : ScanStore) : Prop where
  sound : Sound pg s
  slots : Slots s.tasks
  counted : FailuresCounted s
  totals : ∀ job ∈ s.jobs.rows, int4 job.totalTargets = true

section Results

variable {pg : Postgres} {s s' : ScanStore} {now : Timestamp} {agentID jobText : String}
  {agent jobID : UUID} {job : ScanJob} {results : List ProbeResult} {claimed : List ClaimedTask}
  {leaseUntil : Timestamp}

theorem Steady.empty (pg : Postgres) : Steady pg .empty :=
  ⟨.empty pg, .empty, fun _ h => absurd h List.not_mem_nil, fun _ h => absurd h List.not_mem_nil⟩

theorem Steady.next {w : Service} (h : Steady pg w.store) {ev : Event} (hplain : ev.Plain pg) :
    Steady pg (w.next pg ev).store := by
  refine ⟨h.sound.next ev, ?_, h.counted.next h.sound.rows ev, ?_⟩
  · cases ev with
    | pass duration => exact h.slots
    | call op => exact Slots.serve h.sound.rows h.slots hplain
  · exact (next_goesOn h.sound.rows ev).1.fits h.totals

theorem Steady.foldl {w : Service} (h : Steady pg w.store) {events : List Event}
    (hplain : ∀ ev ∈ events, ev.Plain pg) :
    Steady pg (events.foldl (Service.next pg) w).store := by
  induction events generalizing w with
  | nil => exact h
  | cons ev events ih =>
    obtain ⟨hev, hrest⟩ := List.forall_mem_cons.mp hplain
    exact ih (h.next hev) hrest

theorem Steady.jobTasks_fit (h : Steady pg s) (hjob : job ∈ s.jobs.rows) :
    int4 (s.jobTasks job.id).length = true := by
  rw [← (h.sound.jobs job hjob).totals.total]
  exact h.totals job hjob

/-- **Results of claimed tasks are accepted when the columns take them**, or their job has been
stopped. -/
theorem submit_claimed (h : Steady pg s) (now : Timestamp) (huuid : pg.uuid agentID = some agent)
    (hid : pg.uuid jobText = some jobID) (hjob : ∃ job ∈ s.jobs.rows, job.id = jobID)
    (hlength : int4 s.tasks.rows.length = true)
    (hout : ∀ c ∈ claimed, ∃ task, Out jobID agent leaseUntil c task ∧
      (task ∈ s.tasks.rows ∨ task.cancel ∈ s.tasks.rows))
    (hdistinct : (results.map ProbeResult.taskID).Nodup)
    (hof : ∀ result ∈ results, ∃ c ∈ claimed,
      result.taskID = c.id ∧ result.targetIP = c.targetIP) :
    ((submitResults pg now ⟨agentID, jobText, results⟩).exec s).1 = .ok () ↔
      s.hasStopped pg jobText ∨ ∀ result ∈ results, result.Fits := by
  obtain ⟨job, hjob, rfl⟩ := hjob
  by_cases hstopped : job.status = .stopped
  · have hexec : (submitResults pg now ⟨agentID, jobText, results⟩).exec s = (.ok (), s) :=
      submitResults_stopped hid hjob hstopped
    exact iff_of_true (congrArg Prod.fst hexec) (Or.inl ⟨job, hjob, hid, hstopped⟩)
  · have hopen : ¬ s.hasStopped pg jobText := by
      rintro ⟨other, hother, hid', hst⟩
      obtain rfl := Table.eq_of_key hother hjob (Option.some_inj.mp (hid'.symm.trans hid))
      exact hstopped hst
    rw [or_iff_right hopen, submitResults_iff now h.sound.rows h.slots huuid hid hjob hstopped
      (h.jobTasks_fit hjob)]
    refine ⟨fun hall result hresult => (hall.acceptable result hresult).fits,
      fun hfits => ⟨hdistinct, fun result hresult => ?_⟩⟩
    obtain ⟨c, hc, htaskID, htarget⟩ := hof result hresult
    obtain ⟨task, hout, hmem⟩ := hout c hc
    have htask : task ∈ s.tasks.rows := by
      -- a cancelled task is one of a stopped job
      refine hmem.resolve_right fun hcancel => ?_
      exact (h.sound.jobs job hjob).no_cancelled hstopped task.cancel
        (mem_jobTasks.mpr ⟨hcancel, hout.jobID⟩) rfl
    refine ⟨⟨task, htask, ?_, htarget.trans hout.targetIP.symm⟩, hfits result hresult,
      h.counted.hasRoom htask hout.status hlength job agent result⟩
    unfold ScanTask.submittable
    simp only [htaskID, hout.id, hout.jobID, hout.agent, hout.status, decide_true, Bool.and_self]

/-- A result that has been recorded: its task is completed, and its row is stored. -/
def Recorded (pg : Postgres) (s : ScanStore) (now : Timestamp) (job : ScanJob)
    (result : ProbeResult) : Prop :=
  ∃ task ∈ s.tasks.rows, task.id = result.taskID ∧ task.status = .completed ∧
    ∃ row ∈ s.results.rows, ∃ agent leased, result.row pg now job agent leased = some row

theorem Submitted.recorded (hrows : Rows pg s)
    (hsubmitted : Submitted pg now agentID job s results s') :
    ∀ result ∈ results, Recorded pg s' now job result := by
  induction hsubmitted with
  | nil => intro result hresult; cases hresult
  | @cons s s' result results agent task row hrecord hrest ih =>
    have hrows' := hrows.recorded hrecord
    refine List.forall_mem_cons.mpr ⟨?_, ih hrows'⟩
    have hdone : task.complete now ∈ (s.recorded now job agent result row).tasks.rows :=
      (mem_rewritten (ScanTask.id_complete now)).mpr
        ⟨task, hrecord.mem, if_pos hrecord.submittable⟩
    have hrow : row ∈ (s.recorded now job agent result row).results.rows := by
      have hput : (s.recorded now job agent result row).results = s.results.put row :=
        congrArg s.results.put (hrecord.resultVersion hrows).1
      rw [hput]
      exact Table.mem_put_self
    -- the rest of the batch leaves a completed task alone
    obtain ⟨hsteps, -, hresults⟩ := hrest.evolves hrows'
    obtain ⟨task', htask', hcase⟩ := hsteps _ hdone
    rcases hcase with rfl | ⟨hleased, -⟩
    · exact ⟨_, htask', (submittable_eq hrecord.submittable).1, rfl, row, hresults row hrow, agent,
        task, hrecord.built⟩
    · cases hleased

/-- What an accepted submission to a job that is not stopped leaves. -/
theorem submit_recorded (hrows : Rows pg s)
    (hok : ((submitResults pg now ⟨agentID, jobText, results⟩).exec s).1 = .ok ())
    (hopen : ¬ s.hasStopped pg jobText) :
    ∃ job ∈ s.jobs.rows, pg.uuid jobText = some job.id ∧ ∀ result ∈ results,
      Recorded pg ((submitResults pg now ⟨agentID, jobText, results⟩).exec s).2 now job result := by
  rcases submitResults_exec pg now ⟨agentID, jobText, results⟩ s with
    ⟨error, hexec⟩ | ⟨job, hjob, hid, hstopped, -⟩ | ⟨job, hjob, s', hid, -, hsubmitted, hexec⟩
  · rw [hexec] at hok
    cases hok
  · exact absurd ⟨job, hjob, hid, hstopped⟩ hopen
  · refine ⟨job, hjob, hid, fun result hresult => ?_⟩
    rw [hexec]
    obtain ⟨htasks, hresults, -⟩ := progressed_tasks s' now job.id
    unfold Recorded
    rw [htasks, hresults]
    exact hsubmitted.recorded hrows result hresult

end Results

/-! ## Nothing to claim

An empty answer of `ClaimTasks` is informative: with the agent's expired leases given back,
no active job has a task for it. The limit is never below one (`claimLimit_pos`), so that a
task that is there would have been picked. -/

section Idle

variable {pg : Postgres} {tie : UUID → Nat} {now : Timestamp} {agentID : String} {limit : Int}
  {s : ScanStore} {agent : UUID} {job : ScanJob} {task : ScanTask}

theorem claimLimit_pos (limit : Int) : 0 < claimLimit limit := by
  unfold claimLimit
  split
  · decide
  · split
    · decide
    · omega

/-- From a job with a claimable task a claim takes something. -/
theorem claimFrom_some (now : Timestamp) (limit : Int) (htask : task ∈ s.tasks.rows)
    (hclaimable : task.claimable job.id agent = true) :
    ∃ batch, ((claimFrom now agent limit job).run s).1 = .commit (.ok (some batch)) := by
  have hcandidate : task.id ∈ claimableTasks job.id agent s := by
    refine List.mem_map_of_mem ?_
    rw [List.mem_insertionSort]
    exact List.mem_filter.mpr ⟨htask, hclaimable⟩
  have hfound : task ∈ ((claimableTasks job.id agent s).filterMap s.tasks.find?).filter
      (ScanTask.claimable job.id agent) :=
    List.mem_filter.mpr ⟨List.mem_filterMap.mpr ⟨task.id, hcandidate, Table.find?_key htask⟩,
      hclaimable⟩
  obtain ⟨first, rest, hpicked⟩ : ∃ first rest, (((claimableTasks job.id agent s).filterMap
      s.tasks.find?).filter (ScanTask.claimable job.id agent)).take (claimLimit limit) =
        first :: rest := by
    obtain ⟨first, rest, hcons⟩ := List.exists_cons_of_ne_nil (List.ne_nil_of_mem hfound)
    obtain ⟨n, hn⟩ := Nat.exists_eq_succ_of_ne_zero (claimLimit_pos limit).ne'
    rw [hcons, hn]
    exact ⟨first, rest.take n, rfl⟩
  have hfirst : first ∈ s.tasks.rows := by
    have hmem := List.mem_of_mem_take (hpicked ▸ List.mem_cons_self :
      first ∈ List.take (claimLimit limit) _)
    obtain ⟨id, -, hid⟩ := List.mem_filterMap.mp (List.mem_of_mem_filter hmem)
    exact Table.mem_of_find? hid
  unfold claimFrom
  simp only [Tx.bind_eq, Tx.run_bind, Tx.run_read, tasks.run_lockUpTo, List.nil_append, tasks_get,
    tasks.run_updateWhere (ScanTask.id_lease now), hpicked]
  split
  · rename_i hnil
    have hmem : first.lease now ∈ ([] : List ScanTask) := by
      rw [← hnil]
      exact List.mem_map_of_mem (List.mem_filter.mpr ⟨hfirst, by simp⟩)
    cases hmem
  · simp only [Tx.run_bind, jobs.run_updateWhere (ScanJob.id_start now)]
    exact ⟨_, rfl⟩

/-- **A claim that hands nothing out has found nothing**: no active job has a task of the agent
that is pending, or was out on a lease that is over. -/
theorem claimTasks_none (huuid : pg.uuid agentID = some agent)
    (hreply : ((claimTasks pg tie now agentID limit).exec s).1 = .ok none)
    (hjob : job ∈ s.jobs.rows) (hactive : job.active = true)
    (htask : task ∈ (s.expired agent now).tasks.rows) :
    task.claimable job.id agent = false := by
  by_contra hclaimable
  rw [Bool.not_eq_false] at hclaimable
  have hcandidate : job.id ∈ claimableJobs tie agent (s.expired agent now) := by
    refine List.mem_map_of_mem ?_
    rw [List.mem_insertionSort]
    refine List.mem_filter.mpr ⟨hjob, ?_⟩
    rw [hactive, Bool.true_and, List.any_eq_true]
    exact ⟨task, htask, hclaimable⟩
  have hfound : job ∈ ((claimableJobs tie agent (s.expired agent now)).filterMap
      (s.expired agent now).jobs.find?).filter ScanJob.active :=
    List.mem_filter.mpr ⟨List.mem_filterMap.mpr ⟨job.id, hcandidate, Table.find?_key hjob⟩, hactive⟩
  unfold claimTasks at hreply
  rw [huuid] at hreply
  have hexpired : tasks.set s (s.tasks.updateWhere (ScanTask.leaseExpired agent now)
      ScanTask.expire ScanTask.id_expire) = s.expired agent now := rfl
  simp only [Tx.exec, Tx.bind_eq, Tx.run_bind, Tx.run_read,
    tasks.run_updateWhere ScanTask.id_expire, jobs.run_lockUpTo,
    List.nil_append, tasks_get, jobs_get, hexpired] at hreply
  obtain ⟨first, rest, hcons⟩ := List.exists_cons_of_ne_nil (List.ne_nil_of_mem hfound)
  rw [hcons, List.take_succ_cons] at hreply
  -- the job that is locked is a candidate too
  obtain ⟨hfirst, -⟩ := List.mem_filter.mp (hcons ▸ List.mem_cons_self :
    first ∈ ((claimableJobs tie agent (s.expired agent now)).filterMap
      (s.expired agent now).jobs.find?).filter ScanJob.active)
  obtain ⟨id, hid, hfind⟩ := List.mem_filterMap.mp hfirst
  obtain ⟨hmem, rfl⟩ := Table.find?_eq_some.mp hfind
  obtain ⟨candidate, hmem', heq⟩ := List.mem_map.mp hid
  rw [List.mem_insertionSort] at hmem'
  obtain ⟨hrow, hany⟩ := List.mem_filter.mp hmem'
  obtain rfl := Table.eq_of_key hrow hmem heq
  obtain ⟨other, hother, hclaimable'⟩ := List.any_eq_true.mp (Bool.and_eq_true_iff.mp hany).2
  obtain ⟨batch, hbatch⟩ := claimFrom_some now limit hother hclaimable'
  dsimp only at hreply
  generalize (claimFrom now agent limit candidate).run (s.expired agent now) = r at hreply hbatch
  obtain ⟨ending, s'⟩ := r
  cases hbatch
  cases hreply

/-- An agent id that is a uuid claims without an error. -/
theorem claimTasks_ok (now : Timestamp) (s : ScanStore) (huuid : pg.uuid agentID = some agent) :
    ∃ reply, ((claimTasks pg tie now agentID limit).exec s).1 = .ok reply := by
  unfold claimTasks
  rw [huuid]
  have hexpired : tasks.set s (s.tasks.updateWhere (ScanTask.leaseExpired agent now)
      ScanTask.expire ScanTask.id_expire) = s.expired agent now := rfl
  simp only [Tx.exec, Tx.bind_eq, Tx.run_bind, Tx.run_read,
    tasks.run_updateWhere ScanTask.id_expire, jobs.run_lockUpTo, List.nil_append, tasks_get, hexpired]
  generalize List.take 1 _ = locked
  cases locked with
  | nil => exact ⟨_, rfl⟩
  | cons job rest =>
    dsimp only
    rcases claimFrom_run now agent limit job (s.expired agent now) with
      ⟨s', hrun⟩ | ⟨ids, -, -, hrun⟩
    · rw [hrun]
      exact ⟨_, rfl⟩
    · rw [hrun]
      exact ⟨_, rfl⟩

end Idle

end Cfscan.Scan
