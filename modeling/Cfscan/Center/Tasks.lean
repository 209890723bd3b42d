import Cfscan.Scan.Run
import Cfscan.Scan.Tasks

/-!
# Which addresses get into the tables

An address comes into `scan_tasks` by the targets of a creation or from `blacklist_entries`, and
into `blacklist_entries` from a task. `Addresses.serve`: a property of addresses that the targets of
every creation have, and that reading an address back preserves, is one of every address in the
tables.

The property is any property of texts, and nothing here knows of pools or syncs. `Addresses` asks it
of tasks and of blacklist entries; results need no clause of their own, as each has the address of
its task (`Addresses.results`).

A recheck is the case that makes the two tables one invariant: it takes addresses from the blacklist
and makes tasks of them, and a failed task puts its address back. The loops of a creation and of a
recheck are walked once each (`foldl_all`, `Addresses.recheckEach`).
-/

set_option autoImplicit false

namespace Cfscan.Center

open Cfscan.Lib Cfscan.Store Cfscan.Scan

/-! ## Creations -/

section Creations

variable {pg : Postgres} {agents : Agents} {s : ScanStore} {now : Timestamp} {jobID : UUID}
  {R : ScanTask → Prop}

theorem insertTask_all {d : Draft} {agent : UUID} {targetIP : Inet} {targetPrefix : Option Cidr}
    {context : String} (hd : ∀ task ∈ d.tasks.rows, R task)
    (hnew : ∀ id, R (newTask id jobID agent targetIP targetPrefix now)) :
    ∀ task ∈ (d.insertTask agents now jobID agent targetIP targetPrefix context).tasks.rows,
      R task := by
  unfold Draft.insertTask
  split
  · exact hd
  split
  · exact hd
  · intro task htask
    rcases Table.mem_put.mp htask with rfl | ⟨hold, -⟩
    · exact hnew _
    · exact hd task hold

/-- A loop whose every step keeps a property of the tasks keeps it. -/
theorem foldl_all {α : Type} {f : Draft → α → Draft} {l : List α}
    (hf : ∀ d, ∀ a ∈ l, (∀ task ∈ d.tasks.rows, R task) → ∀ task ∈ (f d a).tasks.rows, R task)
    {d : Draft} (hd : ∀ task ∈ d.tasks.rows, R task) :
    ∀ task ∈ (l.foldl f d).tasks.rows, R task := by
  induction l generalizing d with
  | nil => exact hd
  | cons a l ih =>
    exact ih (fun d a ha => hf d a (List.mem_cons_of_mem _ ha)) (hf d a List.mem_cons_self hd)

theorem createScanJob_all {input : CreateScanJobRequest} {agentTargets : List AgentScanTargets}
    (hold : ∀ task ∈ s.tasks.rows, R task)
    (hnew : ∀ agentSet ∈ agentTargets, ∀ target ∈ agentSet.targets, ∀ targetIP,
      pg.inet target.targetIP = some targetIP →
        ∀ id agent targetPrefix, R (newTask id jobID agent targetIP targetPrefix now)) :
    (∀ task ∈ (createScanJob pg agents s now jobID input agentTargets).2.tasks.rows, R task) ∧
      (createScanJob pg agents s now jobID input agentTargets).2.blacklist = s.blacklist := by
  have hdraft : ∀ task ∈ (agentTargets.foldl (Draft.insertAgent pg agents s now jobID input)
      s.draft).tasks.rows, R task := by
    refine foldl_all (fun d agentSet hset hd => ?_) hold
    unfold Draft.insertAgent
    split
    · exact hd
    split
    · exact hd
    refine foldl_all (fun d target htarget hd => ?_) hd
    unfold Draft.insertTarget
    split
    · exact hd
    split
    · exact hd
    split
    · exact hd
    rename_i targetIP hip
    split
    · split
      · exact hd
      · exact insertTask_all hd fun id => hnew agentSet hset target htarget targetIP hip id _ _
    · exact hd
  unfold createScanJob
  dsimp only
  split
  · exact ⟨hold, rfl⟩
  split
  · exact ⟨hold, rfl⟩
  split
  · exact ⟨hold, rfl⟩
  split
  · exact ⟨hold, rfl⟩
  split
  · exact ⟨hold, rfl⟩
  split
  · exact ⟨hold, rfl⟩
  · exact ⟨hdraft, rfl⟩

end Creations

/-! ## The tables

Addresses stand in three tables and are copied between them: from tasks to results and to
the blacklist, and from the blacklist back to tasks. `Kept` is what the copying may do to
their text. -/

/-- The addresses of the tables have the property. Those of results are those of their tasks. -/
structure Addresses (P : String → Prop) (s : ScanStore) : Prop where
  tasks : ∀ task ∈ s.tasks.rows, P task.targetIP.host
  blacklist : ∀ entry ∈ s.blacklist.rows, P entry.targetIP.host

section Tables

variable {pg : Postgres} {P : String → Prop} {s s' : ScanStore} {now : Timestamp}

theorem Addresses.empty (P : String → Prop) : Addresses P .empty :=
  ⟨fun _ h => absurd h List.not_mem_nil, fun _ h => absurd h List.not_mem_nil⟩

theorem Addresses.mono {Q : String → Prop} (h : Addresses P s) (hsub : ∀ text, P text → Q text) :
    Addresses Q s :=
  ⟨fun task htask => hsub _ (h.tasks task htask), fun entry he => hsub _ (h.blacklist entry he)⟩

theorem Addresses.results (h : Addresses P s) (hrows : Rows pg s) :
    ∀ row ∈ s.results.rows, P row.targetIP.host := by
  intro row hrow
  obtain ⟨task, htask, -, hof⟩ := hrows.filed row hrow
  rw [hof.targetIP]
  exact h.tasks task htask

/-- The server reads back an address as one of the same kind. -/
def Kept (pg : Postgres) (P : String → Prop) : Prop :=
  ∀ text ip, P text → pg.inet text = some ip → P ip.host

theorem Addresses.created (h : Addresses P s) {agents : Agents} {jobID : UUID}
    {input : CreateScanJobRequest} {agentTargets : List AgentScanTargets}
    (hnew : ∀ agentSet ∈ agentTargets, ∀ target ∈ agentSet.targets, P target.targetIP)
    (hkept : Kept pg P) :
    Addresses P (createScanJob pg agents s now jobID input agentTargets).2 := by
  have hcreated := @createScanJob_all pg agents s now jobID (fun task => P task.targetIP.host) input
    agentTargets h.tasks fun agentSet hset target htarget ip hip _ _ _ =>
      hkept _ _ (hnew agentSet hset target htarget) hip
  refine ⟨hcreated.1, ?_⟩
  rw [hcreated.2]
  exact h.blacklist

theorem Addresses.postponed (h : Addresses P s) {settings : BlacklistRecheckSettings}
    {agent : UUID} {selected : List BlacklistEntry} :
    ∀ entry ∈ (postponeAll pg settings now agent selected s.blacklist).rows,
      P entry.targetIP.host := by
  intro entry hentry
  obtain ⟨old, hold, rfl⟩ := Table.mem_updateWhere.mp hentry
  have hhost := h.blacklist old hold
  split <;> exact hhost

theorem Addresses.recheckAgent (h : Addresses P s) {agents : Agents}
    {settings : BlacklistRecheckSettings} {jobID agent : UUID} {selected : List BlacklistEntry}
    (hselected : ∀ item ∈ selected, P item.targetIP.host) (hkept : Kept pg P) :
    Addresses P (Scan.recheckAgent pg agents s now settings jobID agent selected).2 := by
  have hdraft : ∀ task ∈ (selected.foldl (Draft.insertRecheck pg agents now jobID agent)
      s.draft).tasks.rows, P task.targetIP.host := by
    refine foldl_all (R := fun task => P task.targetIP.host) (fun d item hitem hd => ?_) h.tasks
    unfold Draft.insertRecheck
    split
    · exact hd
    split
    · exact hd
    · rename_i targetIP hip
      exact insertTask_all hd fun id => hkept _ _ (hselected item hitem) hip
  unfold Scan.recheckAgent
  dsimp only
  split
  · exact h
  split
  · exact h
  split
  · exact ⟨h.tasks, h.blacklist⟩
  · exact ⟨hdraft, h.postponed⟩

theorem Addresses.recheckEach {world : RecheckWorld} {agents : Agents}
    {settings : BlacklistRecheckSettings} {candidates : List BlacklistEntry}
    (hcandidates : ∀ item ∈ candidates, P item.targetIP.host) (hkept : Kept pg P)
    {order : List UUID} {n : Nat} {remaining : Int} {result : BlacklistRecheckResult}
    (h : Addresses P s) :
    Addresses P (Scan.recheckEach pg world agents now settings candidates order n remaining result
      s).2.2 := by
  induction order generalizing n remaining result s with
  | nil => exact h
  | cons agent order ih =>
    unfold Scan.recheckEach
    dsimp only
    split
    · exact h
    split
    · exact ih h
    generalize recheckCount world settings _ remaining = count
    have hagent : Addresses P (Scan.recheckAgent pg agents s now settings (world.newID n) agent
        ((candidates.filter fun entry => decide (entry.agentID = agent)).take count)).2 :=
      h.recheckAgent (fun item hitem =>
        hcandidates item (List.mem_of_mem_filter (List.mem_of_mem_take hitem))) hkept
    split
    · rename_i heq
      rw [heq] at hagent
      exact hagent
    · rename_i heq
      rw [heq] at hagent
      exact ih hagent

theorem Addresses.rechecked (h : Addresses P s) {world : RecheckWorld} {agents : Agents}
    {settings : BlacklistRecheckSettings} (hkept : Kept pg P) :
    Addresses P (createBlacklistRechecks pg world agents s now settings).2.2 := by
  have hcandidates : ∀ item ∈ recheckCandidates world agents s now settings.clamp,
      P item.targetIP.host := by
    intro item hitem
    have hsorted := (List.perm_insertionSort _ _).mem_iff.mp (List.mem_of_mem_take hitem)
    exact h.blacklist item (List.mem_of_mem_filter hsorted)
  unfold createBlacklistRechecks
  dsimp only
  split
  · exact h
  have hrechecks : Addresses P (Scan.recheckEach pg world agents now settings.clamp
      (recheckCandidates world agents s now settings.clamp)
      ((recheckCandidates world agents s now settings.clamp).map BlacklistEntry.agentID).eraseDups
      0 settings.clamp.maxTargets ⟨0, 0, [], false, ""⟩ s).2.2 := h.recheckEach hcandidates hkept
  split
  · rename_i heq
    rw [heq] at hrechecks
    exact hrechecks
  · rename_i heq
    rw [heq] at hrechecks
    split <;> exact hrechecks

/-! ## Claims, submissions and stops -/

/-- The tasks are rewritten, and keep their addresses. -/
theorem Addresses.rewrite (h : Addresses P s) {p : ScanTask → Bool} {f : ScanTask → ScanTask}
    (hf : ∀ task, (f task).id = task.id) (hsame : ∀ task, SameTask task (f task)) :
    ∀ task ∈ (s.tasks.updateWhere p f hf).rows, P task.targetIP.host := by
  intro task htask
  obtain ⟨old, hold, rfl⟩ := (mem_rewritten hf).mp htask
  rw [(rewritten_same hsame old).targetIP]
  exact h.tasks old hold

theorem Addresses.recorded (h : Addresses P s) (hrows : Rows pg s) {agentID : String}
    {job : ScanJob} {result : ProbeResult} {agent : UUID} {task : ScanTask} {row : ScanResult}
    (hrecord : RecordOf pg s now agentID job result agent task row) :
    Addresses P (s.recorded now job agent result row) := by
  refine ⟨h.rewrite (ScanTask.id_complete now) (same_complete now), fun entry hentry => ?_⟩
  have hrow : P row.targetIP.host := by
    rw [(hrecord.row_of hrows).targetIP]
    exact h.tasks task hrecord.mem
  change entry ∈ (s.reblacklisted now job agent row.targetIP _).rows at hentry
  unfold ScanStore.reblacklisted at hentry
  split at hentry
  · split at hentry
    · rcases Table.mem_put.mp hentry with rfl | ⟨hold, -⟩
      · exact hrow
      · exact h.blacklist entry hold
    · rename_i old hold
      rcases Table.mem_put.mp hentry with rfl | ⟨hrest, -⟩
      · exact h.blacklist old (Table.mem_of_find? hold)
      · exact h.blacklist entry hrest
  · exact h.blacklist entry (Table.mem_erase.mp hentry).1

theorem Addresses.submitted {agentID : String} {job : ScanJob} {results : List ProbeResult}
    (hsubmitted : Submitted pg now agentID job s results s') (hrows : Rows pg s)
    (h : Addresses P s) : Addresses P s' := by
  induction hsubmitted with
  | nil => exact h
  | cons hrecord _ ih => exact ih (hrows.recorded hrecord) (h.recorded hrows hrecord)

/-- **One call**, with the targets of the agents if it is a creation. -/
theorem Addresses.serve (h : Addresses P s) (hrows : Rows pg s) (hkept : Kept pg P) {op : Op}
    (hnew : ∀ agents jobID input agentTargets, op = .createScanJob agents jobID input agentTargets →
      ∀ agentSet ∈ agentTargets, ∀ target ∈ agentSet.targets, P target.targetIP) :
    Addresses P (Scan.serve pg now s op).2 := by
  cases op with
  | createScanJob agents jobID input agentTargets =>
    exact h.created (hnew agents jobID input agentTargets rfl) hkept
  | createBlacklistRechecks world agents settings => exact h.rechecked hkept
  | claimTasks tie agentID limit =>
    rcases claimTasks_exec pg tie now agentID limit s with ⟨hsame, -⟩ | ⟨agent, _, _, _, -, hexec⟩
    · simp only [Scan.serve, hsame]
      exact h
    · simp only [Scan.serve, hexec]
      have hexpired : Addresses P (s.expired agent now) :=
        ⟨h.rewrite ScanTask.id_expire same_expire, h.blacklist⟩
      exact ⟨hexpired.rewrite (ScanTask.id_lease now) (same_lease now), h.blacklist⟩
  | submitResults batch =>
    rcases submitResults_exec pg now batch s with
      ⟨_, hexec⟩ | ⟨_, _, _, _, hexec⟩ | ⟨job, -, s', -, -, hsubmitted, hexec⟩ <;>
      simp only [Scan.serve, hexec]
    · exact h
    · exact h
    · have hprogressed := progressed_tasks s' now job.id
      have hall := h.submitted hsubmitted hrows
      refine ⟨?_, ?_⟩
      · rw [hprogressed.1]
        exact hall.tasks
      · rw [hprogressed.2.2]
        exact hall.blacklist
  | stopScanJob id =>
    rcases stopScanJob_exec pg now id s with ⟨hsame, -⟩ | ⟨job, -, -, -, hexec⟩
    · simp only [Scan.serve, hsame]
      exact h
    · simp only [Scan.serve, hexec]
      exact ⟨h.rewrite ScanTask.id_cancel same_cancel, h.blacklist⟩

end Tables

end Cfscan.Center
