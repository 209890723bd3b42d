import Cfscan.Scan.Rows

/-!
# The life of a task

`TaskStep` lists what one call can do to one task, with the lease it met; everything about a task
over time follows from it. The run lemma is `Held`: from a claim on, the task is out on a lease
that ends no earlier than three minutes after that claim, or that time has passed, or it is final.

Times are compared as the statements do: a lease is over when it ends **before** the present, so
that a task is handed out again only when more than three minutes have passed. An agent may well
submit a result when the lease is over, and it is taken, as long as the agent has not claimed in
between: nothing else ends a lease.
-/

set_option autoImplicit false

namespace Cfscan.Scan

open Cfscan.Lib Cfscan.Store

/-! ## One call -/

/-- What a call made at `now` does to a task. -/
inductive TaskStep (now : Timestamp) (task : ScanTask) : ScanTask → Prop where
  | stay : TaskStep now task task
  | expire (hstatus : task.status = .leased)
      (hlease : ∃ leaseUntil, task.leaseUntil = some leaseUntil ∧ leaseUntil < now) :
      TaskStep now task task.expire
  | lease (hstatus : task.status = .pending) : TaskStep now task (task.lease now)
  | release (hstatus : task.status = .leased)
      (hlease : ∃ leaseUntil, task.leaseUntil = some leaseUntil ∧ leaseUntil < now) :
      TaskStep now task (task.expire.lease now)
  | complete (hstatus : task.status = .leased) : TaskStep now task (task.complete now)
  | cancel (hstatus : task.status = .pending ∨ task.status = .leased) :
      TaskStep now task task.cancel

/-- The moves of a status. -/
inductive TaskMove : TaskStatus → TaskStatus → Prop where
  | stay (status : TaskStatus) : TaskMove status status
  | lease : TaskMove .pending .leased
  | expire : TaskMove .leased .pending
  | complete : TaskMove .leased .completed
  | cancelPending : TaskMove .pending .cancelled
  | cancelLeased : TaskMove .leased .cancelled

theorem TaskStep.same {now : Timestamp} {task task' : ScanTask} (h : TaskStep now task task') :
    SameTask task task' := by
  cases h <;> exact ⟨rfl, rfl, rfl, rfl, rfl⟩

theorem TaskStep.move {now : Timestamp} {task task' : ScanTask} (h : TaskStep now task task') :
    TaskMove task.status task'.status := by
  cases h with
  | stay => exact .stay _
  | expire hstatus => exact hstatus ▸ .expire
  | lease hstatus => exact hstatus ▸ .lease
  | release hstatus => exact hstatus ▸ .stay _
  | complete hstatus => exact hstatus ▸ .complete
  | cancel hstatus =>
    rcases hstatus with hst | hst
    · exact hst ▸ .cancelPending
    · exact hst ▸ .cancelLeased

/-- A final task stays as it is. -/
theorem TaskStep.final {now : Timestamp} {task task' : ScanTask} (h : TaskStep now task task')
    (hfinal : task.status.final = true) : task' = task := by
  cases h with
  | stay => rfl
  | expire hstatus => rw [hstatus] at hfinal; cases hfinal
  | lease hstatus => rw [hstatus] at hfinal; cases hfinal
  | release hstatus => rw [hstatus] at hfinal; cases hfinal
  | complete hstatus => rw [hstatus] at hfinal; cases hfinal
  | cancel hstatus => rcases hstatus with hst | hst <;> rw [hst] at hfinal <;> cases hfinal

/-- What a call does to the tasks and the results of the database. -/
structure Evolves (now : Timestamp) (s s' : ScanStore) : Prop where
  steps : ∀ task ∈ s.tasks.rows, ∃ task' ∈ s'.tasks.rows, TaskStep now task task'
  births : ∀ task' ∈ s'.tasks.rows,
    (∃ task ∈ s.tasks.rows, task.id = task'.id) ∨ task'.status = .pending
  results : ∀ row ∈ s.results.rows, row ∈ s'.results.rows

theorem Evolves.refl (now : Timestamp) (s : ScanStore) : Evolves now s s :=
  ⟨fun task htask => ⟨task, htask, .stay⟩, fun task htask => Or.inl ⟨task, htask, rfl⟩,
    fun _ h => h⟩

theorem leaseExpired_lease {agent : UUID} {now : Timestamp} {task : ScanTask}
    (h : task.leaseExpired agent now = true) :
    ∃ leaseUntil, task.leaseUntil = some leaseUntil ∧ leaseUntil < now := by
  unfold ScanTask.leaseExpired at h
  cases hlease : task.leaseUntil with
  | none => simp [hlease] at h
  | some leaseUntil =>
    simp only [hlease, Bool.and_eq_true, decide_eq_true_eq] at h
    exact ⟨leaseUntil, rfl, h.2⟩

/-- The expiry update, seen from one task. -/
theorem expired_step (agent : UUID) (now : Timestamp) (task : ScanTask) :
    rewritten (ScanTask.leaseExpired agent now) ScanTask.expire task = task ∨
      (task.status = .leased ∧
        (∃ leaseUntil, task.leaseUntil = some leaseUntil ∧ leaseUntil < now) ∧
        rewritten (ScanTask.leaseExpired agent now) ScanTask.expire task = task.expire) := by
  unfold rewritten
  split
  · rename_i hp
    exact Or.inr ⟨leaseExpired_leased hp, leaseExpired_lease hp, rfl⟩
  · exact Or.inl rfl

/-- A task a claim may take, seen before the expiry update of that claim. -/
theorem claimable_before {s : ScanStore} {now : Timestamp} {jobID agent : UUID} {task : ScanTask}
    (htask : task ∈ (s.expired agent now).tasks.rows)
    (hclaimable : task.claimable jobID agent = true) :
    ∃ old ∈ s.tasks.rows, old.id = task.id ∧ (old.status = .pending ∨
      (old.status = .leased ∧
        ∃ leaseUntil, old.leaseUntil = some leaseUntil ∧ leaseUntil < now)) := by
  obtain ⟨old, hold, rfl⟩ := (mem_rewritten (ScanTask.id_expire)).mp htask
  have hpending := (claimable_eq hclaimable).2.2
  refine ⟨old, hold, (rewritten_same same_expire old).id.symm, ?_⟩
  rcases expired_step agent now old with heq | ⟨hleased, hlease, _⟩
  · rw [heq] at hpending
    exact Or.inl hpending
  · exact Or.inr ⟨hleased, hlease⟩

theorem evolves_claim {s : ScanStore} {now : Timestamp} {agent : UUID} {job : ScanJob}
    {ids : List Int} (hclaim : ClaimOf s now agent job ids) :
    Evolves now s ((s.expired agent now).leased now job.id ids) := by
  have hleased : ∀ task', task' ∈ ((s.expired agent now).leased now job.id ids).tasks.rows ↔
      ∃ task ∈ (s.expired agent now).tasks.rows,
        rewritten (fun task => decide (task.id ∈ ids)) (ScanTask.lease now) task = task' :=
    fun _ => mem_rewritten (ScanTask.id_lease now)
  have hexpired : ∀ task', task' ∈ (s.expired agent now).tasks.rows ↔
      ∃ task ∈ s.tasks.rows,
        rewritten (ScanTask.leaseExpired agent now) ScanTask.expire task = task' :=
    fun _ => mem_rewritten (ScanTask.id_expire)
  refine ⟨fun task htask => ?_, fun task' htask' => ?_, fun _ h => h⟩
  · -- the version between the two updates
    have hmid := (hexpired _).mpr ⟨task, htask, rfl⟩
    have hlast := (hleased _).mpr ⟨_, hmid, rfl⟩
    refine ⟨_, hlast, ?_⟩
    by_cases hsel :
        (rewritten (ScanTask.leaseExpired agent now) ScanTask.expire task).id ∈ ids
    · obtain ⟨picked, hpicked, hid, hclaimable⟩ := hclaim.claimable _ hsel
      have hpending := (claimable_eq hclaimable).2.2
      rw [Table.eq_of_key hpicked hmid hid] at hpending
      rw [rewritten, if_pos (decide_eq_true hsel)]
      rcases expired_step agent now task with heq | ⟨hst, hlease, heq⟩
      · rw [heq] at hpending ⊢
        exact .lease hpending
      · rw [heq]
        exact .release hst hlease
    · rw [rewritten, if_neg (by simpa using hsel)]
      rcases expired_step agent now task with heq | ⟨hst, hlease, heq⟩
      · rw [heq]
        exact .stay
      · rw [heq]
        exact .expire hst hlease
  · obtain ⟨mid, hmid, rfl⟩ := (hleased task').mp htask'
    obtain ⟨task, htask, rfl⟩ := (hexpired mid).mp hmid
    refine Or.inl ⟨task, htask, ?_⟩
    rw [(rewritten_same (same_lease now) _).id, (rewritten_same same_expire task).id]

theorem evolves_stop {s : ScanStore} {now : Timestamp} (jobID : UUID) :
    Evolves now s (s.stopped now jobID) := by
  have hstopped : ∀ task', task' ∈ (s.stopped now jobID).tasks.rows ↔
      ∃ task ∈ s.tasks.rows, rewritten (ScanTask.stoppable jobID) ScanTask.cancel task = task' :=
    fun _ => mem_rewritten (ScanTask.id_cancel)
  refine ⟨fun task htask => ⟨_, (hstopped _).mpr ⟨task, htask, rfl⟩, ?_⟩, fun task' htask' => ?_,
    fun _ h => h⟩
  · unfold rewritten
    split
    · rename_i hp
      exact .cancel (stoppable_eq hp).2
    · exact .stay
  · obtain ⟨task, htask, rfl⟩ := (hstopped task').mp htask'
    exact Or.inl ⟨task, htask, (rewritten_same same_cancel task).id.symm⟩

/-- A batch leaves a task alone or completes it, and it completes it once. -/
theorem Submitted.evolves {pg : Postgres} {now : Timestamp} {agentID : String} {job : ScanJob}
    {s s' : ScanStore} {results : List ProbeResult} (hrows : Rows pg s)
    (h : Submitted pg now agentID job s results s') :
    (∀ task ∈ s.tasks.rows, ∃ task' ∈ s'.tasks.rows,
        task' = task ∨ (task.status = .leased ∧ task' = task.complete now)) ∧
      (∀ task' ∈ s'.tasks.rows, ∃ task ∈ s.tasks.rows, task.id = task'.id) ∧
      ∀ row ∈ s.results.rows, row ∈ s'.results.rows := by
  induction h with
  | nil => exact ⟨fun task htask => ⟨task, htask, Or.inl rfl⟩, fun task htask => ⟨task, htask, rfl⟩,
      fun _ h => h⟩
  | @cons s s' result results agent task row hrecord hrest ih =>
    obtain ⟨hsteps, hbirths, hresults⟩ := ih (hrows.recorded hrecord)
    have hmem : ∀ task', task' ∈ (s.recorded now job agent result row).tasks.rows ↔
        ∃ t ∈ s.tasks.rows, rewritten (ScanTask.submittable job.id agent result.taskID)
          (ScanTask.complete now) t = task' :=
      fun _ => mem_rewritten (ScanTask.id_complete now)
    refine ⟨fun t ht => ?_, fun t' ht' => ?_, fun row' hrow' => ?_⟩
    · obtain ⟨t', ht', hcase⟩ := hsteps _ ((hmem _).mpr ⟨t, ht, rfl⟩)
      refine ⟨t', ht', ?_⟩
      by_cases hsel : t.submittable job.id agent result.taskID = true
      · rw [rewritten, if_pos hsel] at hcase
        rcases hcase with heq | ⟨hleased, _⟩
        · exact Or.inr ⟨(submittable_eq hsel).2.2.2, heq⟩
        · cases hleased
      · rwa [rewritten, if_neg hsel] at hcase
    · obtain ⟨t₁, ht₁, hid⟩ := hbirths t' ht'
      obtain ⟨t, ht, rfl⟩ := (hmem t₁).mp ht₁
      exact ⟨t, ht, (rewritten_same (same_complete now) t).id.symm.trans hid⟩
    · obtain ⟨hversion, hnone⟩ := hrecord.resultVersion hrows
      have hput : (s.recorded now job agent result row).results = s.results.put row :=
        congrArg s.results.put hversion
      refine hresults row' ?_
      rw [hput]
      exact Table.mem_put.mpr (Or.inr ⟨hrow', Table.find?_eq_none.mp hnone row' hrow'⟩)

theorem progressed_tasks (s : ScanStore) (now : Timestamp) (jobID : UUID) :
    (s.progressed now jobID).tasks = s.tasks ∧ (s.progressed now jobID).results = s.results ∧
      (s.progressed now jobID).blacklist = s.blacklist := by
  unfold ScanStore.progressed
  split <;> exact ⟨rfl, rfl, rfl⟩

theorem evolves_creations {pg : Postgres} {now : Timestamp} {s s' : ScanStore}
    (h : Relation.ReflTransGen (Creation pg) s s') : Evolves now s s' := by
  induction h with
  | refl => exact .refl now s
  | tail _ hstep ih =>
    rcases hstep with ⟨n, _, rfl⟩ | ⟨job, hc⟩
    · exact ⟨ih.steps, ih.births, ih.results⟩
    · refine ⟨fun task htask => ?_, fun task' htask' => ?_, fun row hrow => ?_⟩
      · obtain ⟨task', htask', hstep⟩ := ih.steps task htask
        exact ⟨task', hc.draft.old task' htask', hstep⟩
      · rcases hc.draft.new task' htask' with hold | ⟨_, hpending, _⟩
        · exact ih.births task' hold
        · exact Or.inr hpending
      · rw [hc.results]
        exact ih.results row hrow

/-- **What a call does to tasks and results.** -/
theorem serve_evolves {pg : Postgres} {s : ScanStore} (hrows : Rows pg s) (now : Timestamp)
    (op : Op) : Evolves now s (serve pg now s op).2 := by
  rcases serve_cases hrows.ready hrows.single now op with hcreations | hstep
  · exact evolves_creations hcreations
  generalize (serve pg now s op).2 = s' at hstep
  cases hstep with
  | creation hcreation => exact evolves_creations (.single hcreation)
  | claim hclaim => exact evolves_claim hclaim
  | @submit s₁ job agentID results _ _ hsubmitted =>
    obtain ⟨hsteps, hbirths, hresults⟩ := hsubmitted.evolves hrows
    obtain ⟨htasks, hrows', _⟩ := progressed_tasks s₁ now job.id
    refine ⟨fun task htask => ?_, fun task' htask' => ?_, fun row hrow => ?_⟩
    · obtain ⟨task', htask', hcase⟩ := hsteps task htask
      rw [← htasks] at htask'
      rcases hcase with rfl | ⟨hleased, rfl⟩
      · exact ⟨_, htask', .stay⟩
      · exact ⟨_, htask', .complete hleased⟩
    · rw [htasks] at htask'
      exact Or.inl (hbirths task' htask')
    · rw [hrows']
      exact hresults row hrow
  | stop => exact evolves_stop _

/-! ## Claims over a run -/

/-- The tasks a call hands out. -/
def handed (pg : Postgres) (w : Service) : Event → List Int
  | .call op =>
    match (serve pg w.clock w.store op).1 with
    | .batch (.ok (some batch)) => batch.tasks.map ClaimedTask.id
    | _ => []
  | .pass _ => []

/-- A task handed out was pending, or out on a lease that had run over; it is leased now. -/
theorem handed_cases {pg : Postgres} {w : Service} {ev : Event} {id : Int}
    (h : id ∈ handed pg w ev) :
    (∃ task ∈ w.store.tasks.rows, task.id = id ∧ (task.status = .pending ∨
      (task.status = .leased ∧
        ∃ leaseUntil, task.leaseUntil = some leaseUntil ∧ leaseUntil < w.clock))) ∧
      ∃ task ∈ (w.next pg ev).store.tasks.rows, task.id = id ∧ task.status = .leased ∧
        task.leaseUntil = some (w.clock + leaseTerm) := by
  cases ev with
  | pass duration => cases h
  | call op =>
    cases op with
    | claimTasks tie agentID limit =>
      rcases claimTasks_exec pg tie w.clock agentID limit w.store with
        ⟨_, hnone⟩ | ⟨agent, job, ids, _, hclaim, hexec⟩
      · simp only [handed, serve] at h
        generalize (Tx.exec (claimTasks pg tie w.clock agentID limit) w.store).1 = reply at h hnone
        split at h
        · rename_i batch heq
          cases heq
          exact absurd rfl (hnone batch)
        · cases h
      · simp only [handed, serve, hexec, taskBatch, ScanStore.handedOut, List.map_map,
          List.mem_map, List.mem_filter, decide_eq_true_eq, Function.comp_apply] at h
        obtain ⟨task, ⟨htask, hsel⟩, rfl⟩ := h
        obtain ⟨picked, hpicked, hid, hclaimable⟩ := hclaim.claimable _ hsel
        refine ⟨?_, task.lease w.clock, ?_, rfl, rfl, rfl⟩
        · obtain ⟨old, hold, hid', hcase⟩ := claimable_before hpicked hclaimable
          exact ⟨old, hold, hid'.trans hid, hcase⟩
        · simp only [Service.next, serve, hexec]
          refine (mem_rewritten (ScanTask.id_lease w.clock)).mpr ⟨task, htask, ?_⟩
          rw [rewritten, if_pos (decide_eq_true hsel)]
    | createScanJob => cases h
    | createBlacklistRechecks => cases h
    | submitResults => cases h
    | stopScanJob => cases h

/-- A task claimed at the time `since` and not claimable again before its lease has run over. -/
structure Held (id : Int) (since : Timestamp) (w : Service) (task : ScanTask) : Prop where
  mem : task ∈ w.store.tasks.rows
  id : task.id = id
  leased : task.status = .leased →
    ∃ leaseUntil, task.leaseUntil = some leaseUntil ∧ since + leaseTerm ≤ leaseUntil
  pending : task.status = .pending → since + leaseTerm < w.clock
  clock : since ≤ w.clock

theorem Held.next {pg : Postgres} {id : Int} {since : Timestamp} {w : Service} {task : ScanTask}
    (hrows : Rows pg w.store) (h : Held id since w task) (ev : Event) :
    ∃ task', Held id since (w.next pg ev) task' ∧
      (task.status.final = true → task'.status.final = true) := by
  cases ev with
  | pass duration =>
    have hlater : w.clock ≤ w.clock + duration :=
      Int.le_add_of_nonneg_right (Int.natCast_nonneg duration)
    exact ⟨task, ⟨h.mem, h.id, h.leased, fun hst => Int.lt_of_lt_of_le (h.pending hst) hlater,
      Int.le_trans h.clock hlater⟩, fun hfinal => hfinal⟩
  | call op =>
    obtain ⟨task', htask', hstep⟩ := (serve_evolves hrows w.clock op).steps task h.mem
    refine ⟨task', ⟨htask', hstep.same.id.trans h.id, ?_, ?_, h.clock⟩,
      fun hfinal => by rw [hstep.final hfinal]; exact hfinal⟩
    · intro hst
      cases hstep with
      | stay => exact h.leased hst
      | expire => cases hst
      | lease => exact ⟨_, rfl, Int.add_le_add_right h.clock _⟩
      | release => exact ⟨_, rfl, Int.add_le_add_right h.clock _⟩
      | complete => cases hst
      | cancel => cases hst
    · intro hst
      cases hstep with
      | stay => exact h.pending hst
      | expire hleased hlease =>
        -- the lease the expiry met is the one the claim gave, or a later one
        obtain ⟨leaseUntil, hsome, hover⟩ := hlease
        obtain ⟨given, hgiven, hlong⟩ := h.leased hleased
        rw [hsome] at hgiven
        cases hgiven
        exact Int.lt_of_le_of_lt hlong hover
      | lease => cases hst
      | release => cases hst
      | complete => cases hst
      | cancel => cases hst

/-- From a claim on, through any events. -/
theorem Held.replay {pg : Postgres} {start : Timestamp} {before : List Event} {id : Int}
    {since : Timestamp} {task : ScanTask} (h : Held id since (replay pg start before) task)
    (mid : List Event) :
    ∃ task', Held id since (Scan.replay pg start (before ++ mid)) task' ∧
      (task.status.final = true → task'.status.final = true) := by
  induction mid using List.reverseRecOn with
  | nil => exact ⟨task, by simpa using h, fun hfinal => hfinal⟩
  | append_singleton mid ev ih =>
    obtain ⟨task', h', hfinal⟩ := ih
    obtain ⟨task'', h'', hfinal'⟩ := h'.next (Rows.replay pg start _) ev
    rw [← List.append_assoc, replay_append]
    exact ⟨task'', h'', fun hf => hfinal' (hfinal hf)⟩

/-! ## The history of tasks and results -/

/-- Results are the results of the completed tasks, one each. -/
structure ResultsOf (s : ScanStore) : Prop where
  one : ∀ task ∈ s.tasks.rows, task.status = .completed →
    ∃! row, row ∈ s.results.rows ∧ row.taskID = task.id
  of : ∀ row ∈ s.results.rows, ∃ task ∈ s.tasks.rows, task.status = .completed ∧ row.Of task

theorem Rows.resultsOf {pg : Postgres} {s : ScanStore} (h : Rows pg s) : ResultsOf s where
  one := by
    intro task htask hst
    obtain ⟨row, hrow, hid⟩ := h.result task htask hst
    exact ⟨row, ⟨hrow, hid⟩, fun row' ⟨hrow', hid'⟩ =>
      Table.eq_of_key hrow' hrow (hid'.trans hid.symm)⟩
  of := h.filed

/-- One event: the moves of the tasks there are, the status of new ones, and the results kept. -/
structure Moves (s s' : ScanStore) : Prop where
  moves : ∀ task ∈ s.tasks.rows, ∃ task' ∈ s'.tasks.rows, SameTask task task' ∧
    TaskMove task.status task'.status
  births : ∀ task' ∈ s'.tasks.rows,
    (∃ task ∈ s.tasks.rows, task.id = task'.id) ∨ task'.status = .pending
  results : ∀ row ∈ s.results.rows, row ∈ s'.results.rows

theorem Evolves.toMoves {now : Timestamp} {s s' : ScanStore} (h : Evolves now s s') :
    Moves s s' where
  moves := by
    intro task htask
    obtain ⟨task', htask', hstep⟩ := h.steps task htask
    exact ⟨task', htask', hstep.same, hstep.move⟩
  births := h.births
  results := h.results

/-- **The history of tasks and results.** After any events the results are those of the completed
tasks; the next event moves a task only along `TaskMove` and keeps every result; and when a task
handed out by it is handed out again later, more than three minutes have passed and the task was
never completed nor cancelled in between. -/
theorem task_history (pg : Postgres) (start : Timestamp) (before : List Event) (ev : Event)
    (mid : List Event) (ev' : Event) :
    ResultsOf (replay pg start before).store ∧
      Moves (replay pg start before).store (replay pg start (before ++ [ev])).store ∧
      ∀ id ∈ handed pg (replay pg start before) ev,
        id ∈ handed pg (replay pg start (before ++ [ev] ++ mid)) ev' →
          (replay pg start before).clock + leaseTerm <
              (replay pg start (before ++ [ev] ++ mid)).clock ∧
            ∀ mid₁ mid₂, mid = mid₁ ++ mid₂ →
              ∀ task ∈ (replay pg start (before ++ [ev] ++ mid₁)).store.tasks.rows,
                task.id = id → task.status ≠ .completed ∧ task.status ≠ .cancelled := by
  have hrows := Rows.replay pg start before
  refine ⟨hrows.resultsOf, ?_, fun id hid hid' => ?_⟩
  · rw [replay_append]
    cases ev with
    | pass duration => exact (Evolves.refl 0 _).toMoves
    | call op => exact (serve_evolves hrows _ op).toMoves
  obtain ⟨_, task, htask, htaskID, hst, hlease⟩ := handed_cases hid
  obtain ⟨⟨again, hagain, hagainID, hfree⟩, _⟩ := handed_cases hid'
  have hclock : (replay pg start before).clock ≤ (replay pg start (before ++ [ev])).clock := by
    rw [replay_append]
    cases ev with
    | pass duration => exact Int.le_add_of_nonneg_right (Int.natCast_nonneg duration)
    | call op => exact Int.le_refl _
  have hheld : Held id (replay pg start before).clock (replay pg start (before ++ [ev])) task := by
    refine ⟨by rw [replay_append]; exact htask, htaskID, fun _ => ⟨_, hlease, Int.le_refl _⟩, ?_,
      hclock⟩
    intro hpending
    rw [hst] at hpending
    cases hpending
  have hopen : again.status.final = false := by
    rcases hfree with hpending | ⟨hleased, _⟩
    · rw [hpending]; rfl
    · rw [hleased]; rfl
  constructor
  · obtain ⟨task', h', _⟩ := hheld.replay mid
    obtain rfl : task' = again := Table.eq_of_key h'.mem hagain (h'.id.trans hagainID.symm)
    rcases hfree with hpending | ⟨hleased, leaseUntil, hsome, hover⟩
    · exact h'.pending hpending
    · obtain ⟨given, hgiven, hlong⟩ := h'.leased hleased
      rw [hsome] at hgiven
      cases hgiven
      exact Int.lt_of_le_of_lt hlong hover
  · rintro mid₁ mid₂ rfl seen hseen hseenID
    -- a final task would still be final when it is claimed again
    obtain ⟨task₁, h₁, _⟩ := hheld.replay mid₁
    obtain rfl : task₁ = seen := Table.eq_of_key h₁.mem hseen (h₁.id.trans hseenID.symm)
    obtain ⟨task₂, h₂, hfinal⟩ := h₁.replay mid₂
    rw [List.append_assoc] at h₂
    obtain rfl : task₂ = again := Table.eq_of_key h₂.mem hagain (h₂.id.trans hagainID.symm)
    constructor <;> intro heq <;> rw [heq] at hfinal <;> rw [hfinal rfl] at hopen <;> cases hopen

end Cfscan.Scan
