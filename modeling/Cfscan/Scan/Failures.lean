import Cfscan.Scan.Batches
import Cfscan.Scan.Blacklist

/-!
# A failure is counted once

Each result that raises a failure count completes a task of its own, so no count is above the
number of completed tasks, and a database whose tasks an `integer` can number has room for the
failures of the tasks that are still out.

It matters for one column. A submission whose count would not fit is refused as a whole, and this is
how `Scan.Claimed` knows that it does fit.
-/

set_option autoImplicit false

namespace Cfscan.Scan

open Cfscan.Lib Cfscan.Store

def ScanTask.isCompleted (task : ScanTask) : Bool := decide (task.status = .completed)

def ScanStore.completedTasks (s : ScanStore) : Nat := s.tasks.rows.countP ScanTask.isCompleted

/-- No entry has counted more failures than there are completed tasks. -/
def FailuresCounted (s : ScanStore) : Prop :=
  ∀ entry ∈ s.blacklist.rows, 0 ≤ entry.failureCount ∧ entry.failureCount ≤ s.completedTasks

section Counted

variable {pg : Postgres} {now : Timestamp} {s s' : ScanStore}

/-- What is completed stays so, and the completed tasks can only become more. -/
theorem Evolves.completed_le (h : Evolves now s s') : s.completedTasks ≤ s'.completedTasks := by
  have hsub : (s.tasks.rows.filter ScanTask.isCompleted).Subperm
      (s'.tasks.rows.filter ScanTask.isCompleted) := by
    have hnodup := (List.Nodup.of_map _ s.tasks.nodup).filter ScanTask.isCompleted
    refine List.subperm_of_subset hnodup fun task htask => ?_
    obtain ⟨hmem, hstatus⟩ := List.mem_filter.mp htask
    obtain ⟨task', htask', hstep⟩ := h.steps task hmem
    obtain rfl := hstep.final (by rw [of_decide_eq_true hstatus]; rfl)
    exact List.mem_filter.mpr ⟨htask', hstatus⟩
  unfold ScanStore.completedTasks
  rw [List.countP_eq_length_filter, List.countP_eq_length_filter]
  exact hsub.length_le

/-- A transaction that counts no failure. -/
theorem FailuresCounted.keep (h : FailuresCounted s) (hle : s.completedTasks ≤ s'.completedTasks)
    (hblacklist : ∀ k, (s'.blacklist.find? k).map BlacklistEntry.record =
      (s.blacklist.find? k).map BlacklistEntry.record) : FailuresCounted s' := by
  intro entry hentry
  have hfound := hblacklist entry.key
  rw [Table.find?_key hentry] at hfound
  obtain ⟨old, hold, hrecord⟩ := Option.map_eq_some_iff.mp hfound.symm
  obtain ⟨hnonneg, hcount⟩ := h old (Table.mem_of_find? hold)
  rw [← (Prod.mk.inj hrecord).2]
  exact ⟨hnonneg, hcount.trans (Int.ofNat_le.mpr hle)⟩

/-- One result completes one task and counts at most one failure. -/
theorem FailuresCounted.recorded (h : FailuresCounted s) {agentID : String}
    {job : ScanJob} {result : ProbeResult} {agent : UUID} {task : ScanTask} {row : ScanResult}
    (hrecord : RecordOf pg s now agentID job result agent task row) :
    FailuresCounted (s.recorded now job agent result row) := by
  obtain ⟨hid, -, -, hleased⟩ := submittable_eq hrecord.submittable
  -- the completed tasks are one more
  have hone : (s.recorded now job agent result row).completedTasks = s.completedTasks + 1 := by
    have hrewritten : (s.recorded now job agent result row).tasks.rows = s.tasks.rows.map
        (rewritten (ScanTask.submittable job.id agent result.taskID) (ScanTask.complete now)) := rfl
    have hdone : ScanTask.isCompleted (rewritten
        (ScanTask.submittable job.id agent result.taskID) (ScanTask.complete now) task) = true := by
      rw [rewritten, if_pos hrecord.submittable]
      rfl
    have hopen : task.isCompleted = false := by
      unfold ScanTask.isCompleted
      rw [hleased]
      rfl
    unfold ScanStore.completedTasks
    rw [hrewritten, List.countP_map]
    refine (countP_one_more s.tasks.nodup hrecord.mem hopen fun t ht hne => ?_).trans ?_
    · have hsel : ¬ t.submittable job.id agent result.taskID = true := fun hsel =>
        hne ((submittable_eq hsel).1.trans hid.symm)
      rw [Function.comp_apply, rewritten, if_neg hsel]
    · rw [Function.comp_apply, hdone, if_pos rfl]
  intro entry hentry
  rw [hone]
  -- and the failures of an entry are one more at most
  have hfound := reblacklisted_find? s now job agent result row.targetIP entry.key
  have hentry' : entry ∈ (s.reblacklisted now job agent row.targetIP
    (blacklistReason job result)).rows := hentry
  rw [Table.find?_key hentry'] at hfound
  split at hfound
  · split at hfound
    · have hcount := congrArg Prod.snd (Option.some_inj.mp hfound)
      change entry.failureCount = _ at hcount
      cases hold : s.blacklist.find? entry.key with
      | none =>
        rw [hold] at hcount
        change entry.failureCount = 1 at hcount
        omega
      | some old =>
        rw [hold] at hcount
        change entry.failureCount = old.failureCount + 1 at hcount
        obtain ⟨hnonneg, hle⟩ := h old (Table.mem_of_find? hold)
        omega
    · cases hfound
  · obtain ⟨old, hold, hrecord'⟩ := Option.map_eq_some_iff.mp hfound.symm
    obtain ⟨hnonneg, hle⟩ := h old (Table.mem_of_find? hold)
    have hcount : old.failureCount = entry.failureCount := (Prod.mk.inj hrecord').2
    omega

theorem FailuresCounted.submitted (hrows : Rows pg s) (h : FailuresCounted s) {agentID : String}
    {job : ScanJob} {results : List ProbeResult}
    (hsubmitted : Submitted pg now agentID job s results s') : FailuresCounted s' := by
  induction hsubmitted with
  | nil => exact h
  | cons hrecord _ ih => exact ih (hrows.recorded hrecord) (h.recorded hrecord)

theorem FailuresCounted.creations (h : FailuresCounted s)
    (hsteps : Relation.ReflTransGen (Creation pg) s s') : FailuresCounted s' := by
  have hblacklist : ∀ k, (s'.blacklist.find? k).map BlacklistEntry.record =
      (s.blacklist.find? k).map BlacklistEntry.record := by
    induction hsteps with
    | refl => exact fun _ => rfl
    | tail _ hstep ih =>
      rcases hstep with ⟨n, _, rfl⟩ | ⟨job, hc⟩
      · exact ih
      · exact fun k => (hc.blacklist k).trans (ih k)
  have hevolves : Evolves 0 s s' := evolves_creations hsteps
  exact h.keep hevolves.completed_le hblacklist

theorem FailuresCounted.serve (hrows : Rows pg s) (h : FailuresCounted s) (now : Timestamp)
    (op : Op) : FailuresCounted (serve pg now s op).2 := by
  have hle := (serve_evolves hrows now op).completed_le
  rcases serve_cases hrows.ready hrows.single now op with hcreations | hstep
  · exact h.creations hcreations
  generalize (Scan.serve pg now s op).2 = s' at hstep hle
  cases hstep with
  | creation hcreation => exact h.creations (.single hcreation)
  | claim => exact h.keep hle fun _ => rfl
  | @submit s₁ job _ _ _ _ hsubmitted =>
    have hs₁ := h.submitted hrows hsubmitted
    obtain ⟨htasks, -, hblacklist⟩ := progressed_tasks s₁ now job.id
    intro entry hentry
    rw [hblacklist] at hentry
    unfold ScanStore.completedTasks
    rw [htasks]
    exact hs₁ entry hentry
  | stop => exact h.keep hle fun _ => rfl

theorem FailuresCounted.next {w : Service} (hrows : Rows pg w.store) (h : FailuresCounted w.store)
    (ev : Event) : FailuresCounted (w.next pg ev).store := by
  cases ev with
  | pass duration => exact h
  | call op => exact h.serve hrows w.clock op

theorem FailuresCounted.replay (pg : Postgres) (start : Timestamp) (events : List Event) :
    FailuresCounted (replay pg start events).store := by
  induction events using List.reverseRecOn with
  | nil => intro entry hentry; cases hentry
  | append_singleton events ev ih =>
    rw [replay_append]
    exact ih.next (Rows.replay pg start events) ev

/-- A leased task has not been counted yet. -/
theorem FailuresCounted.hasRoom (h : FailuresCounted s) {task : ScanTask}
    (htask : task ∈ s.tasks.rows) (hleased : task.status = .leased)
    (hlength : int4 s.tasks.rows.length = true) (job : ScanJob) (agent : UUID)
    (result : ProbeResult) : HasRoom s job agent result := by
  intro _ entry hentry
  obtain ⟨hnonneg, hle⟩ := h entry (Table.mem_of_find? hentry)
  have hlt : s.completedTasks < s.tasks.rows.length := by
    refine lt_of_le_of_ne List.countP_le_length fun heq => ?_
    have hall := List.countP_eq_length.mp heq task htask
    unfold ScanTask.isCompleted at hall
    rw [hleased] at hall
    cases hall
  simp only [int4, Bool.and_eq_true, decide_eq_true_eq] at hlength ⊢
  omega

end Counted

end Cfscan.Scan
