import Cfscan.Scan.Rows

/-!
# The tasks of one job and agent are for different addresses

`scan_tasks` has `UNIQUE (job_id, preferred_agent_id, target_ip)`, and the targets of a job are
single addresses: the callers of `CreateScanJob` print them from a `netip.Addr`, and a recheck reads
them off the blacklist. So `host(target_ip)` tells the tasks of one job and agent apart
(`Slots.eq_of_host`), as does the blacklist key of the agent and the address.

`host` drops the netmask, and with netmasks two different tasks of one job could be for one host.
The plain targets are what excludes it, and they are asked of the events of a run, not of the store:
nothing in the tables would keep other texts out.
-/

set_option autoImplicit false

namespace Cfscan.Scan

open Cfscan.Lib Cfscan.Store

structure Slots (t : Table Int ScanTask ScanTask.id) : Prop where
  apart : ∀ task ∈ t.rows, ∀ task' ∈ t.rows, task.jobID = task'.jobID →
    task.preferredAgentID = task'.preferredAgentID → task.targetIP = task'.targetIP → task = task'
  single : ∀ task ∈ t.rows, task.targetIP.netmask = none

theorem Slots.empty : Slots Table.empty := by
  constructor <;> intro _ h <;> cases h

/-- Two tasks of a job and an agent with one host are one task. -/
theorem Slots.eq_of_host {t : Table Int ScanTask ScanTask.id} (h : Slots t) {task task' : ScanTask}
    (htask : task ∈ t.rows) (htask' : task' ∈ t.rows) (hjob : task.jobID = task'.jobID)
    (hagent : task.preferredAgentID = task'.preferredAgentID)
    (hhost : task.targetIP.host = task'.targetIP.host) : task = task' := by
  refine h.apart task htask task' htask' hjob hagent ?_
  have hmask : task.targetIP.netmask = task'.targetIP.netmask :=
    (h.single task htask).trans (h.single task' htask').symm
  cases hip : task.targetIP
  cases hip' : task'.targetIP
  rw [hip, hip'] at hhost hmask
  cases hhost
  cases hmask
  rfl

/-- No statement writes the columns. -/
theorem Slots.rewrite {t : Table Int ScanTask ScanTask.id} (h : Slots t) {p : ScanTask → Bool}
    {f : ScanTask → ScanTask} (hf : ∀ task, (f task).id = task.id)
    (hsame : ∀ task, SameTask task (f task)) : Slots (t.updateWhere p f hf) := by
  have hmem : ∀ task', task' ∈ (t.updateWhere p f hf).rows ↔
      ∃ task ∈ t.rows, rewritten p f task = task' := fun _ => Table.mem_updateWhere
  constructor
  · intro task htask task' htask' hjob hagent hip
    obtain ⟨old, hold, rfl⟩ := (hmem task).mp htask
    obtain ⟨old', hold', rfl⟩ := (hmem task').mp htask'
    have hs := rewritten_same (p := p) hsame old
    have hs' := rewritten_same (p := p) hsame old'
    rw [hs.jobID, hs'.jobID] at hjob
    rw [hs.agent, hs'.agent] at hagent
    rw [hs.targetIP, hs'.targetIP] at hip
    rw [h.apart old hold old' hold' hjob hagent hip]
  · intro task htask
    obtain ⟨old, hold, rfl⟩ := (hmem task).mp htask
    rw [(rewritten_same (p := p) hsame old).targetIP]
    exact h.single old hold

/-! ## Creations

The unique constraint is on the address as stored, netmask included. That one job and agent
have one task for each host needs the targets to be single addresses, which is what the
callers print; `PlainAddress` says so of one text. -/

section Create

variable {pg : Postgres} {agents : Agents} {now : Timestamp} {jobID : UUID} {d : Draft}

/-- The conflict target of the insert is the slot. -/
theorem Slots.insertTask (h : Slots d.tasks) {agent : UUID} {targetIP : Inet}
    (hmask : targetIP.netmask = none) (targetPrefix : Option Cidr) (context : String) :
    Slots (d.insertTask agents now jobID agent targetIP targetPrefix context).tasks := by
  unfold Draft.insertTask
  split
  · exact h
  rename_i hfree
  split
  · exact h
  rw [not_or, not_not] at hfree
  -- the conflict target is the slot, so what is inserted takes a free one
  have hnew : ∀ task ∈ d.tasks.rows, ¬ (task.jobID = jobID ∧ task.preferredAgentID = agent ∧
      task.targetIP = targetIP) := by
    have htaken := hfree.2
    simp only [Draft.taken, Bool.not_eq_true, List.any_eq_false, Bool.and_eq_true,
      decide_eq_true_eq, not_and] at htaken
    exact fun task htask hsame => htaken task htask ⟨hsame.1, hsame.2.1⟩ hsame.2.2
  constructor
  · intro task htask task' htask' hjob hagent hip
    rcases Table.mem_put.mp htask with rfl | ⟨htask, -⟩ <;>
      rcases Table.mem_put.mp htask' with rfl | ⟨htask', -⟩
    · rfl
    · exact absurd ⟨hjob.symm, hagent.symm, hip.symm⟩ (hnew task' htask')
    · exact absurd ⟨hjob, hagent, hip⟩ (hnew task htask)
    · exact h.apart task htask task' htask' hjob hagent hip
  · intro task htask
    rcases Table.mem_put.mp htask with rfl | ⟨htask, -⟩
    · exact hmask
    · exact h.single task htask

theorem Slots.foldl {α : Type} {f : Draft → α → Draft} {l : List α}
    (hf : ∀ d, ∀ a ∈ l, Slots d.tasks → Slots (f d a).tasks) (h : Slots d.tasks) :
    Slots (l.foldl f d).tasks := by
  induction l generalizing d with
  | nil => exact h
  | cons a l ih =>
    exact ih (fun d a ha => hf d a (List.mem_cons_of_mem _ ha)) (hf d a List.mem_cons_self h)

/-- The text is read as a single address. -/
def PlainAddress (pg : Postgres) (text : String) : Prop :=
  ∀ ip, pg.inet text = some ip → ip.netmask = none

theorem Slots.insertTarget (h : Slots d.tasks) (s : ScanStore) (input : CreateScanJobRequest)
    (agentID : String) {target : ScanTarget} (hplain : PlainAddress pg target.targetIP) :
    Slots (d.insertTarget pg agents s now jobID input agentID target).tasks := by
  unfold Draft.insertTarget
  split
  · exact h
  split
  · exact h
  split
  · exact h
  rename_i targetIP hip
  split
  · split
    · exact h
    · exact h.insertTask (hplain targetIP hip) _ _
  · exact h

theorem Slots.insertAgent (h : Slots d.tasks) (s : ScanStore) (input : CreateScanJobRequest)
    {agentSet : AgentScanTargets}
    (hplain : ∀ target ∈ agentSet.targets, PlainAddress pg target.targetIP) :
    Slots (d.insertAgent pg agents s now jobID input agentSet).tasks := by
  unfold Draft.insertAgent
  split
  · exact h
  split
  · exact h
  · exact Slots.foldl (fun _ target htarget hd => hd.insertTarget s input _ (hplain target htarget)) h

theorem Slots.createScanJob {s : ScanStore} (h : Slots s.tasks) (input : CreateScanJobRequest)
    {agentTargets : List AgentScanTargets}
    (hplain : ∀ agentSet ∈ agentTargets, ∀ target ∈ agentSet.targets,
      PlainAddress pg target.targetIP) :
    Slots (createScanJob pg agents s now jobID input agentTargets).2.tasks := by
  have hdraft : Slots (agentTargets.foldl (Draft.insertAgent pg agents s now jobID input)
      s.draft).tasks :=
    Slots.foldl (fun _ agentSet hset hd => hd.insertAgent s input (hplain agentSet hset)) h
  unfold Scan.createScanJob
  dsimp only
  repeat' split
  all_goals first | exact h | exact hdraft

/-! ## Rechecks -/

theorem Slots.insertRecheck (h : Slots d.tasks) {agent : UUID} {item : BlacklistEntry}
    (hsingle : item.Single pg) : Slots (d.insertRecheck pg agents now jobID agent item).tasks := by
  unfold Draft.insertRecheck
  rw [hsingle.2]
  split
  · exact h
  · exact h.insertTask hsingle.1 _ _

theorem Slots.recheckAgent {s : ScanStore} (h : Slots s.tasks) (agents : Agents) (now : Timestamp)
    (jobID : UUID) (settings : BlacklistRecheckSettings) (agent : UUID)
    {selected : List BlacklistEntry} (hsingle : ∀ item ∈ selected, item.Single pg) :
    Slots (recheckAgent pg agents s now settings jobID agent selected).2.tasks := by
  have hdraft : Slots (selected.foldl (Draft.insertRecheck pg agents now jobID agent)
      s.draft).tasks :=
    Slots.foldl (fun _ item hitem hd => hd.insertRecheck (hsingle item hitem)) h
  unfold Scan.recheckAgent
  dsimp only
  repeat' split
  all_goals first | exact h | exact hdraft

theorem Slots.recheckEach (agents : Agents) (now : Timestamp) (world : RecheckWorld)
    (settings : BlacklistRecheckSettings) {candidates : List BlacklistEntry}
    (hsingle : ∀ item ∈ candidates, item.Single pg)
    (order : List UUID) (n : Nat) (remaining : Int) (result : BlacklistRecheckResult)
    {s : ScanStore} (h : Slots s.tasks) :
    Slots (recheckEach pg world agents now settings candidates order n remaining result
      s).2.2.tasks := by
  induction order generalizing n remaining result s with
  | nil => exact h
  | cons agent order ih =>
    unfold Scan.recheckEach
    dsimp only
    split
    · exact h
    split
    · exact ih n remaining result h
    have hgroup : ∀ item ∈ (candidates.filter fun entry => decide (entry.agentID = agent)).take
        (recheckCount world settings
          (candidates.filter fun entry => decide (entry.agentID = agent)).length remaining),
        item.Single pg :=
      fun item hitem => hsingle item (List.mem_of_mem_filter (List.mem_of_mem_take hitem))
    have hagent := h.recheckAgent agents now (world.newID n) settings agent hgroup
    split <;> rename_i hrecheck <;> rw [hrecheck] at hagent
    · exact hagent
    · exact ih _ _ _ hagent

theorem Slots.createBlacklistRechecks {s : ScanStore} (h : Slots s.tasks)
    (hsingle : ∀ entry ∈ s.blacklist.rows, entry.Single pg) (world : RecheckWorld)
    (input : BlacklistRecheckSettings) :
    Slots (createBlacklistRechecks pg world agents s now input).2.2.tasks := by
  have hcandidates : ∀ item ∈ recheckCandidates world agents s now input.clamp, item.Single pg := by
    intro item hitem
    have hmem := List.mem_of_mem_take hitem
    rw [(List.perm_insertionSort _ _).mem_iff] at hmem
    exact hsingle item (List.mem_of_mem_filter hmem)
  have heach := Slots.recheckEach agents now world input.clamp hcandidates
    ((recheckCandidates world agents s now input.clamp).map BlacklistEntry.agentID).eraseDups 0
    input.clamp.maxTargets ⟨0, 0, [], false, ""⟩ h
  unfold Scan.createBlacklistRechecks
  dsimp only
  split
  · exact h
  split <;> rename_i hrun <;> rw [hrun] at heach
  · exact heach
  · split <;> exact heach

end Create

/-! ## Runs -/

section Run

variable {pg : Postgres} {now : Timestamp} {s s' : ScanStore}

theorem Slots.submitted {agentID : String} {job : ScanJob} {results : List ProbeResult}
    (hsubmitted : Submitted pg now agentID job s results s') (h : Slots s.tasks) :
    Slots s'.tasks := by
  induction hsubmitted with
  | nil => exact h
  | cons _ _ ih => exact ih (h.rewrite (ScanTask.id_complete now) (same_complete now))

theorem Slots.progressed (h : Slots s.tasks) (now : Timestamp) (jobID : UUID) :
    Slots (s.progressed now jobID).tasks := by
  unfold ScanStore.progressed
  split <;> exact h

/-- The targets of a created job are single addresses. -/
def Op.Plain (pg : Postgres) : Op → Prop
  | .createScanJob _ _ _ agentTargets =>
    ∀ agentSet ∈ agentTargets, ∀ target ∈ agentSet.targets, PlainAddress pg target.targetIP
  | _ => True

def Event.Plain (pg : Postgres) : Event → Prop
  | .call op => op.Plain pg
  | .pass _ => True

theorem Slots.serve (hrows : Rows pg s) (h : Slots s.tasks) {op : Op} (hplain : op.Plain pg) :
    Slots (serve pg now s op).2.tasks := by
  cases op with
  | createScanJob agents jobID input agentTargets => exact h.createScanJob input hplain
  | createBlacklistRechecks world agents settings =>
    exact h.createBlacklistRechecks hrows.single world settings
  | claimTasks tie agentID limit =>
    rcases claimTasks_exec pg tie now agentID limit s with ⟨hsame, -⟩ | ⟨_, _, _, -, -, hexec⟩
    · simp only [Scan.serve, hsame]
      exact h
    · simp only [Scan.serve, hexec]
      exact (h.rewrite ScanTask.id_expire same_expire).rewrite (ScanTask.id_lease now) (same_lease now)
  | submitResults batch =>
    rcases submitResults_exec pg now batch s with
      ⟨_, hexec⟩ | ⟨_, -, -, -, hexec⟩ | ⟨job, -, s', -, -, hsubmitted, hexec⟩ <;>
      simp only [Scan.serve, hexec]
    · exact h
    · exact h
    · exact (Slots.submitted hsubmitted h).progressed now job.id
  | stopScanJob id =>
    rcases stopScanJob_exec pg now id s with ⟨hsame, -⟩ | ⟨job, -, -, -, hexec⟩
    · simp only [Scan.serve, hsame]
      exact h
    · simp only [Scan.serve, hexec]
      exact h.rewrite ScanTask.id_cancel same_cancel

/-- The slots after any run whose jobs have single addresses for targets. -/
theorem Slots.replay {start : Timestamp} {events : List Event}
    (hplain : ∀ ev ∈ events, ev.Plain pg) : Slots (replay pg start events).store.tasks := by
  induction events using List.reverseRecOn with
  | nil => exact .empty
  | append_singleton events ev ih =>
    have h := ih fun ev hev => hplain ev (List.mem_append_left _ hev)
    have hlast := hplain ev (List.mem_append_right _ (List.mem_singleton_self ev))
    rw [replay_append]
    cases ev with
    | pass duration => exact h
    | call op => exact Slots.serve (Rows.replay pg start events) h hlast

end Run

end Cfscan.Scan
