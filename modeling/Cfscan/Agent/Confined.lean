import Cfscan.Agent.Requests
import Cfscan.Enrollment.Process
import Cfscan.Lib.Spares

/-!
# An agent affects its own work only

`Confined` compares two databases row by row, for everybody but one agent. Each statement of the two
transactions spares the rows of others because of the agent guard in its `WHERE` clause; a job row
is shared, and is written only after a task of the agent's in it was.

## What "affects" means here

`Spares` compares the rows of a table under their keys: those of others are there before and after,
the same in every column. For jobs the rows of others are those in which the agent has no task. Nor
does a task change hands: `ScanConfined.new` and `ScanConfined.old` go through all tasks.

A job that two agents share is the one row both write, through `updateProgress`, and what they write
is a count of its tasks. That an agent cannot **read** what others do is not claimed beyond `Mine`:
it is handed the addresses of its own tasks, and nothing else of a reply depends on the rows of
others.

The requests are those the token check lets through as one agent (`AllBy`); what others do comes
before, in the run that leads to the database, and not between them.
-/

set_option autoImplicit false

namespace Cfscan.Agent

open Cfscan.Lib Cfscan.Lib.Table Cfscan.Store Cfscan.Enrollment Cfscan.Scan

/-! ## The scan tables

An agent is involved in a job if a task of it is the agent's. Its calls may write the rows
of such jobs, and the tasks, results and entries that are its own; `ScanConfined` compares
the four tables with these left out. -/

/-- The agent has a task in the job. -/
def Involved (agent : UUID) (s : ScanStore) (jobID : UUID) : Prop :=
  ∃ task ∈ s.tasks.rows, task.jobID = jobID ∧ task.preferredAgentID = agent

structure ScanConfined (agent : UUID) (s s' : ScanStore) : Prop where
  tasks : Spares (fun task => task.preferredAgentID ≠ agent) s.tasks s'.tasks
  results : Spares (fun row => row.agentID ≠ agent) s.results s'.results
  blacklist : Spares (fun entry => entry.agentID ≠ agent) s.blacklist s'.blacklist
  jobs : Spares (fun job => ¬ Involved agent s job.id) s.jobs s'.jobs
  /-- No task comes or goes, or changes hands. -/
  new : ∀ task' ∈ s'.tasks.rows, ∃ task ∈ s.tasks.rows, SameTask task task'
  old : ∀ task ∈ s.tasks.rows, ∃ task' ∈ s'.tasks.rows, SameTask task task'

section Scan

variable {pg : Postgres} {agent : UUID} {s s' s'' : ScanStore} {now : Timestamp} {jobID : UUID}

theorem ScanConfined.refl (agent : UUID) (s : ScanStore) : ScanConfined agent s s :=
  ⟨.refl _ _, .refl _ _, .refl _ _, .refl _ _, fun task h => ⟨task, h, .refl task⟩,
    fun task h => ⟨task, h, .refl task⟩⟩

theorem ScanConfined.involved (h : ScanConfined agent s s') :
    Involved agent s' jobID ↔ Involved agent s jobID := by
  constructor
  · rintro ⟨task', htask', hjob, hagent⟩
    obtain ⟨task, htask, hsame⟩ := h.new task' htask'
    exact ⟨task, htask, hsame.jobID.symm.trans hjob, hsame.agent.symm.trans hagent⟩
  · rintro ⟨task, htask, hjob, hagent⟩
    obtain ⟨task', htask', hsame⟩ := h.old task htask
    exact ⟨task', htask', hsame.jobID.trans hjob, hsame.agent.trans hagent⟩

theorem ScanConfined.trans (h : ScanConfined agent s s') (h' : ScanConfined agent s' s'') :
    ScanConfined agent s s'' where
  tasks := h.tasks.trans h'.tasks fun _ => id
  results := h.results.trans h'.results fun _ => id
  blacklist := h.blacklist.trans h'.blacklist fun _ => id
  jobs := h.jobs.trans h'.jobs fun _ hjob hinvolved => hjob (h.involved.mp hinvolved)
  new := by
    intro task'' htask''
    obtain ⟨task', htask', hsame'⟩ := h'.new task'' htask''
    obtain ⟨task, htask, hsame⟩ := h.new task' htask'
    exact ⟨task, htask, hsame.trans hsame'⟩
  old := by
    intro task htask
    obtain ⟨task', htask', hsame⟩ := h.old task htask
    obtain ⟨task'', htask'', hsame'⟩ := h'.old task' htask'
    exact ⟨task'', htask'', hsame.trans hsame'⟩

/-! ### Statement by statement -/

/-- An update of the agent's own tasks. -/
theorem ScanConfined.tasksUpdate {p : ScanTask → Bool} {f : ScanTask → ScanTask}
    {hf : ∀ task, (f task).id = task.id} (hsame : ∀ task, SameTask task (f task))
    (hown : ∀ task ∈ s.tasks.rows, p task = true → task.preferredAgentID = agent) :
    ScanConfined agent s { s with tasks := s.tasks.updateWhere p f hf } where
  tasks := .updateWhere hf fun task htask hp =>
    ⟨not_not.mpr (hown task htask hp),
      not_not.mpr ((hsame task).agent.trans (hown task htask hp))⟩
  results := .refl _ _
  blacklist := .refl _ _
  jobs := .refl _ _
  new := by
    intro task' htask'
    obtain ⟨task, htask, rfl⟩ := (mem_rewritten hf).mp htask'
    exact ⟨task, htask, rewritten_same hsame task⟩
  old := fun task htask =>
    ⟨_, (mem_rewritten hf).mpr ⟨task, htask, rfl⟩, rewritten_same hsame task⟩

/-- An update of a job the agent has a task in. -/
theorem ScanConfined.jobUpdate {f : ScanJob → ScanJob} {hf : ∀ job, (f job).id = job.id}
    (hinvolved : Involved agent s jobID) :
    ScanConfined agent s
      { s with jobs := s.jobs.updateWhere (fun job => decide (job.id = jobID)) f hf } where
  tasks := .refl _ _
  results := .refl _ _
  blacklist := .refl _ _
  jobs := .updateWhere hf fun job _ hp => by
    have hid : job.id = jobID := by simpa using hp
    exact ⟨fun hout => hout (hid ▸ hinvolved), fun hout => hout (by rwa [hf job, hid])⟩
  new := fun task h => ⟨task, h, .refl task⟩
  old := fun task h => ⟨task, h, .refl task⟩

theorem ScanConfined.progressed (hinvolved : Involved agent s jobID) :
    ScanConfined agent s (s.progressed now jobID) := by
  unfold ScanStore.progressed
  split
  · exact .refl agent s
  · exact .jobUpdate hinvolved

theorem reblacklisted_spares (now : Timestamp) (job : ScanJob) (agent : UUID) (targetIP : Inet)
    (reason : String) :
    Spares (fun entry => entry.agentID ≠ agent) s.blacklist
      (s.reblacklisted now job agent targetIP reason) := by
  have hkey : ∀ entry ∈ s.blacklist.rows, entry.key = (agent, targetIP) →
      ¬ entry.agentID ≠ agent := fun entry _ heq => not_not.mpr (congrArg Prod.fst heq)
  unfold ScanStore.reblacklisted
  split
  · split
    · exact .put (not_not.mpr rfl) hkey
    · rename_i entry hentry
      have hentryKey : entry.key = (agent, targetIP) := key_of_find? hentry
      exact .put (hkey entry (mem_of_find? hentry) hentryKey)
        fun other hother heq => hkey other hother (heq.trans hentryKey)
  · exact .erase hkey

section Record

variable {agentID : String} {job : ScanJob} {result : ProbeResult} {task : ScanTask}
  {row : ScanResult} {results : List ProbeResult}

theorem recordOf_involved (hrecord : RecordOf pg s now agentID job result agent task row) :
    Involved agent s job.id := by
  obtain ⟨_, hjob, hagent, _⟩ := submittable_eq hrecord.submittable
  exact ⟨task, hrecord.mem, hjob, hagent⟩

theorem ScanConfined.recorded (h : Rows pg s)
    (hrecord : RecordOf pg s now agentID job result agent task row) :
    ScanConfined agent s (s.recorded now job agent result row) := by
  obtain ⟨hversion, hnone⟩ := hrecord.resultVersion h
  have hagent : row.agentID = agent :=
    (hrecord.row_of h).agent.trans (submittable_eq hrecord.submittable).2.2.1
  have htasks : ScanConfined agent s
      { s with
        tasks := s.tasks.updateWhere (ScanTask.submittable job.id agent result.taskID)
          (ScanTask.complete now) (ScanTask.id_complete now) } :=
    .tasksUpdate (same_complete now) fun _ _ hp => (submittable_eq hp).2.2.1
  refine { htasks with results := ?_, blacklist := reblacklisted_spares _ _ _ _ _ }
  show Spares _ s.results (s.results.put (s.resultVersion row))
  rw [hversion]
  exact .put (not_not.mpr hagent) fun old hold heq => absurd heq (find?_eq_none.mp hnone old hold)

/-- The results of a batch that was accepted, one after the other. -/
theorem ScanConfined.submitted (huuid : pg.uuid agentID = some agent) (h : Rows pg s)
    (hsubmitted : Submitted pg now agentID job s results s') :
    ScanConfined agent s s' ∧ (results ≠ [] → Involved agent s job.id) := by
  induction hsubmitted with
  | nil s => exact ⟨.refl agent s, fun hne => absurd rfl hne⟩
  | cons hrecord hrest ih =>
    rename_i agent' _ _
    obtain rfl : agent' = agent := Option.some.inj (hrecord.uuid.symm.trans huuid)
    exact ⟨(ScanConfined.recorded h hrecord).trans (ih (h.recorded hrecord)).1,
      fun _ => recordOf_involved hrecord⟩

end Record

/-! ### The two transactions -/

theorem leaseExpired_agent {task : ScanTask} (h : task.leaseExpired agent now = true) :
    task.preferredAgentID = agent := by
  simp only [ScanTask.leaseExpired, Bool.and_eq_true, decide_eq_true_eq] at h
  exact h.1.1

theorem ScanConfined.expired (agent : UUID) (s : ScanStore) (now : Timestamp) :
    ScanConfined agent s (s.expired agent now) :=
  .tasksUpdate same_expire fun _ _ => leaseExpired_agent

/-- The tasks of a claim are the agent's: an id among them is the id of a claimable task. -/
theorem claimOf_own {job : ScanJob} {ids : List Int} (h : ClaimOf s now agent job ids)
    {task : ScanTask} (htask : task ∈ (s.expired agent now).tasks.rows) (hid : task.id ∈ ids) :
    task.claimable job.id agent = true := by
  obtain ⟨task', htask', hsame, hclaimable⟩ := h.claimable _ hid
  rwa [← eq_of_key htask' htask hsame]

theorem ScanConfined.claimed {job : ScanJob} {ids : List Int} (h : ClaimOf s now agent job ids) :
    ScanConfined agent s ((s.expired agent now).leased now job.id ids) := by
  have hexpired := ScanConfined.expired agent s now
  obtain ⟨id, hid⟩ := List.exists_mem_of_ne_nil ids h.nonempty
  obtain ⟨task, htask, -, hclaimable⟩ := h.claimable id hid
  obtain ⟨hjob, hagent, _⟩ := claimable_eq hclaimable
  have hleased : ScanConfined agent (s.expired agent now)
      { s.expired agent now with
        tasks := (s.expired agent now).tasks.updateWhere (fun task => decide (task.id ∈ ids))
          (ScanTask.lease now) (ScanTask.id_lease now) } :=
    .tasksUpdate (same_lease now) fun task htask hp =>
      (claimable_eq (claimOf_own h htask (by simpa using hp))).2.1
  refine (hexpired.trans hleased).trans (.jobUpdate ?_)
  exact hleased.involved.mpr ⟨task, htask, hjob, hagent⟩

/-- A task of a reply: the agent's, with the address it has. -/
def Mine (agent : UUID) (s : ScanStore) (batch : TaskBatch) (claimed : ClaimedTask) : Prop :=
  ∃ task ∈ s.tasks.rows, task.id = claimed.id ∧ task.preferredAgentID = agent ∧
    task.jobID = batch.jobID ∧ task.targetIP.host = claimed.targetIP

theorem claimOf_mine {job : ScanJob} {ids : List Int} (h : ClaimOf s now agent job ids)
    {claimed : ClaimedTask}
    (hclaimed : claimed ∈ (taskBatch job ((s.expired agent now).handedOut now ids)).tasks) :
    Mine agent s (taskBatch job ((s.expired agent now).handedOut now ids)) claimed := by
  obtain ⟨leased, hleased, rfl⟩ := List.mem_map.mp hclaimed
  obtain ⟨task', htask', rfl⟩ := List.mem_map.mp hleased
  obtain ⟨hmem, hid⟩ := List.mem_filter.mp htask'
  obtain ⟨hjob, hagent, _⟩ := claimable_eq (claimOf_own h hmem (by simpa using hid))
  obtain ⟨task, htask, hsame⟩ := (ScanConfined.expired agent s now).new task' hmem
  exact ⟨task, htask, hsame.id.symm, hsame.agent.symm.trans hagent, hsame.jobID.symm.trans hjob,
    congrArg Inet.host hsame.targetIP.symm⟩

end Scan

/-! ## The whole database

The enrollment tables come in through the token check and the heartbeat, which write the
time of the credential's last use and the agent's own row. A request that is refused writes
no more than the check did. -/

structure Confined (agent : UUID) (c c' : Center) : Prop where
  scan : ScanConfined agent c.scan c'.scan
  agents : Spares (fun row => row.id ≠ agent) c.enrollment.agents c'.enrollment.agents
  credentials : Spares (fun row => row.agentID ≠ agent) c.enrollment.credentials
    c'.enrollment.credentials
  enrollments : c'.enrollment.enrollments = c.enrollment.enrollments

section Center

variable {pg : Postgres} {sha256 : String → Vector UInt8 32} {uuidText : UUID → String}
  {agent : UUID} {agentID : String} {c c' c'' : Center} {visit : Visit}

theorem Confined.refl (agent : UUID) (c : Center) : Confined agent c c :=
  ⟨.refl agent _, .refl _ _, .refl _ _, rfl⟩

theorem Confined.trans (h : Confined agent c c') (h' : Confined agent c' c'') :
    Confined agent c c'' :=
  ⟨h.scan.trans h'.scan, h.agents.trans h'.agents fun _ => id,
    h.credentials.trans h'.credentials fun _ => id, h'.enrollments.trans h.enrollments⟩

theorem ScanConfined.confined {s : ScanStore} (h : ScanConfined agent c.scan s) :
    Confined agent c { c with scan := s } :=
  ⟨h, .refl _ _, .refl _ _, rfl⟩

/-- Authentication writes the one credential it found, and names its agent. -/
theorem requireAgentToken_agent {s : EnrollmentStore} {now : Timestamp} {authorization : String}
    {id : UUID}
    (h : (Api.requireAgentToken pg sha256 now s authorization).1 = .agent id) :
    ∃ row ∈ s.credentials.rows, row.agentID = id ∧
      (Api.requireAgentToken pg sha256 now s authorization).2 =
        { s with credentials := s.credentials.put { row with lastUsedAt := some now } } := by
  unfold Api.requireAgentToken at h ⊢
  dsimp only at h ⊢
  split at h
  · cases h
  rename_i hprovided
  rw [if_neg hprovided]
  split at h
  · cases h
  split at h
  · cases h
  · cases h
  · rename_i hauth
    obtain ⟨row, hrow, rfl, rfl⟩ := authenticateAgentCredential_ok hauth
    cases h
    exact ⟨row, (credential_some hrow).1, rfl, rfl⟩

/-- What a request of the agent's does, whatever it asks for. -/
structure Behaved (pg : Postgres) (agent : UUID) (c : Center) (reply : Reply) (c' : Center) :
    Prop where
  confined : Confined agent c c'
  rows : Rows pg c'.scan
  mine : ∀ batch, reply = .batch batch → ∀ claimed ∈ batch.tasks, Mine agent c.scan batch claimed

theorem Behaved.refused {reply : Reply} (h : Rows pg c.scan)
    (hreply : ∀ batch, reply ≠ .batch batch) :
    Behaved pg agent c reply c :=
  ⟨.refl agent c, h, fun batch heq => absurd heq (hreply batch)⟩

theorem Behaved.claimTask (h : Rows pg c.scan) (huuid : pg.uuid agentID = some agent)
    (limit : Int) :
    Behaved pg agent c (claimTask pg visit c agentID limit).1
      (claimTask pg visit c agentID limit).2 := by
  unfold Agent.claimTask
  rcases claimTasks_exec pg visit.tie visit.now agentID limit c.scan with
    ⟨hsame, hnone⟩ | ⟨agent', job, ids, huuid', hclaim, hrun⟩
  · split
    · rename_i hrun
      rw [hrun] at hsame
      subst hsame
      exact .refused h fun _ heq => by cases heq
    · rename_i hrun
      rw [hrun] at hsame
      subst hsame
      exact .refused h fun _ heq => by cases heq
    · rename_i batch s hrun
      rw [hrun] at hnone
      exact absurd rfl (hnone batch)
  · obtain rfl : agent' = agent := Option.some.inj (huuid'.symm.trans huuid)
    rw [hrun]
    dsimp only
    refine ⟨(ScanConfined.claimed hclaim).confined, (h.expired _ _).leased hclaim.claimable, ?_⟩
    intro batch heq claimed hclaimed
    split at heq
    · cases heq
    · cases heq
      exact claimOf_mine hclaim hclaimed

theorem Behaved.submitResults (h : Rows pg c.scan) (huuid : pg.uuid agentID = some agent)
    (input : ResultBatch) :
    Behaved pg agent c (submitResults pg visit c agentID input).1
      (submitResults pg visit c agentID input).2 := by
  unfold Agent.submitResults
  split
  · exact .refused h fun _ heq => by cases heq
  rename_i hinput
  rcases submitResults_exec pg visit.now { input with agentID := agentID } c.scan with
    ⟨error, hrun⟩ | ⟨job, _, _, _, hrun⟩ | ⟨job, _, s, _, _, hsubmitted, hrun⟩
  · rw [hrun]
    exact .refused h fun _ heq => by cases heq
  · rw [hrun]
    exact .refused h fun _ heq => by cases heq
  · rw [hrun]
    -- the API lets no empty batch through, so the job whose progress is rewritten has a task
    -- of the agent
    obtain ⟨hconfined, hinvolved⟩ := ScanConfined.submitted huuid h hsubmitted
    refine ⟨(hconfined.trans (.progressed ?_)).confined, (hsubmitted.rows h).progressed _ _,
      fun _ heq => by cases heq⟩
    exact hconfined.involved.mpr (hinvolved fun hnil => hinput (Or.inr hnil))

theorem Behaved.handle (visit : Visit) (h : Rows pg c.scan) (huuid : pg.uuid agentID = some agent) :
    Behaved pg agent c (handle pg visit c agentID).1 (handle pg visit c agentID).2 := by
  unfold Agent.handle
  split
  · exact .refused h fun _ heq => by cases heq
  · unfold heartbeat
    rw [huuid]
    dsimp only
    cases hfound : c.enrollment.agents.find? agent with
    | none => exact .refused h fun _ heq => by cases heq
    | some row =>
      have hid : row.id = agent := key_of_find? hfound
      refine ⟨⟨.refl agent _, .put ?_ ?_, .refl _ _, rfl⟩, h, fun _ heq => by cases heq⟩
      · exact not_not.mpr hid
      · exact fun old _ heq => not_not.mpr (heq.trans hid)
  · exact .claimTask h huuid _
  · exact .submitResults h huuid _

theorem Behaved.serve (h : Rows pg c.scan) (htext : pg.uuid (uuidText agent) = some agent)
    (hauth : (Api.requireAgentToken pg sha256 visit.seen c.enrollment visit.authorization).1 =
      .agent agent) :
    Behaved pg agent c (serve pg sha256 uuidText c visit).1
      (serve pg sha256 uuidText c visit).2 := by
  obtain ⟨row, hrow, hagent, hstore⟩ := requireAgentToken_agent hauth
  unfold Agent.serve
  split
  · rename_i hcheck
    rw [hcheck] at hauth
    cases hauth
  · rename_i hcheck
    rw [hcheck] at hauth
    cases hauth
  · rename_i id s hcheck
    rw [hcheck] at hauth hstore
    cases hauth
    subst hstore
    have hseen : Confined agent c { c with
        enrollment := { c.enrollment with
          credentials := c.enrollment.credentials.put
            { row with lastUsedAt := some visit.seen } } } := by
      refine ⟨.refl agent _, .refl _ _, .put (not_not.mpr hagent) fun old hold heq => ?_, rfl⟩
      rw [eq_of_key hold hrow heq]
      exact not_not.mpr hagent
    have hhandled := Behaved.handle visit (c := { c with
        enrollment := { c.enrollment with
          credentials := c.enrollment.credentials.put
            { row with lastUsedAt := some visit.seen } } }) h htext
    exact ⟨hseen.trans hhandled.confined, hhandled.rows, hhandled.mine⟩

theorem Mine.base {s s' : ScanStore} {batch : TaskBatch} {claimed : ClaimedTask}
    (h : Mine agent s' batch claimed) (hconfined : ScanConfined agent s s') :
    Mine agent s batch claimed := by
  obtain ⟨task', htask', hid, hagent, hjob, hip⟩ := h
  obtain ⟨task, htask, hsame⟩ := hconfined.new task' htask'
  exact ⟨task, htask, hsame.id.symm.trans hid, hsame.agent.symm.trans hagent,
    hsame.jobID.symm.trans hjob, (congrArg Inet.host hsame.targetIP).symm.trans hip⟩

theorem Confined.serveEach {visits : List Visit} (h : Rows pg c.scan)
    (htext : pg.uuid (uuidText agent) = some agent)
    (hauth : AllBy pg sha256 uuidText agent c visits) :
    Confined agent c (serveEach pg sha256 uuidText c visits).2 ∧
      ∀ batch, Reply.batch batch ∈ (serveEach pg sha256 uuidText c visits).1 →
        ∀ claimed ∈ batch.tasks, Mine agent c.scan batch claimed := by
  induction visits generalizing c with
  | nil => exact ⟨.refl agent c, fun _ hmem => absurd hmem List.not_mem_nil⟩
  | cons visit visits ih =>
    have hfirst := Behaved.serve h htext hauth.1
    obtain ⟨hconfined, hmine⟩ := ih hfirst.rows hauth.2
    refine ⟨hfirst.confined.trans hconfined, fun batch hmem claimed hclaimed => ?_⟩
    rcases List.mem_cons.mp hmem with heq | hrest
    · exact hfirst.mine batch heq.symm claimed hclaimed
    · exact (hmine batch hrest claimed hclaimed).base hfirst.confined.scan

end Center

/-- **An agent affects its own work only.** From any database the scan calls can reach, and any
state of the enrollments, a sequence of requests authenticated as one agent leaves every row of
others and every job it has no task in alone, and hands it tasks of its own. -/
theorem agent_confined (pg : Postgres) (sha256 : String → Vector UInt8 32)
    (uuidText : UUID → String) (start : Timestamp) (events : List Scan.Event)
    (enrollment : EnrollmentStore) (agent : UUID) (visits : List Visit)
    (htext : pg.uuid (uuidText agent) = some agent)
    (hauth : AllBy pg sha256 uuidText agent ⟨enrollment, (replay pg start events).store⟩ visits) :
    Confined agent ⟨enrollment, (replay pg start events).store⟩
        (serveEach pg sha256 uuidText ⟨enrollment, (replay pg start events).store⟩ visits).2 ∧
      ∀ batch, Reply.batch batch ∈ (serveEach pg sha256 uuidText
          ⟨enrollment, (replay pg start events).store⟩ visits).1 →
        ∀ claimed ∈ batch.tasks, Mine agent (replay pg start events).store batch claimed :=
  Confined.serveEach (Rows.replay pg start events) htext hauth

/-! ## A job of two agents -/

def otherAgent : String := "0b7d1c2e-94f3-4a35-8d21-6c5f0e3b9a47"

def otherJob : String := "52f6a1d8-3c40-4b9e-a7d2-1e8f9c0b6d35"

/-- A server that knows two agents and two addresses. -/
def twoAgents : Postgres where
  uuid := fun text =>
    if text = otherAgent then some 0x0b7d1c2e94f34a358d216c5f0e3b9a47
    else if text = otherJob then some 0x52f6a1d83c404b9ea7d21e8f9c0b6d35
    else oneAddress.uuid text
  inet := fun text =>
    if text = "104.16.0.2" then some ⟨"104.16.0.2", none⟩ else oneAddress.inet text
  cidr := fun _ => none
  inet_host := by
    intro text ip h
    split at h
    · cases h
      rfl
    · rename_i hother
      have hhost := oneAddress.inet_host text ip h
      have hne : ip.host ≠ "104.16.0.2" := by
        intro heq
        rw [heq] at hhost
        exact absurd hhost (by decide)
      rw [if_neg hne]
      exact hhost
  cidr_text := cidr_text_of_none

def failedResult (taskID : Int) (targetIP : String) : ProbeResult :=
  { goodResult with
    taskID := taskID, targetIP := targetIP, available := false, errorCode := "TIMEOUT" }

/-- Both agents have a task in the first job, and the other has answered for its own: it is blocked.
The second job is out with the other agent. -/
def sharedJob : List Scan.Event :=
  [.call (.createScanJob (fun _ => some "agent") 0x7d4448409dc041d1b2455ffdce74fad2 oneTarget
      [⟨oneAgent, [⟨"104.16.0.1", ""⟩]⟩, ⟨otherAgent, [⟨"104.16.0.1", ""⟩]⟩]),
    .call (.claimTasks (fun _ => 0) otherAgent 32),
    .call (.submitResults ⟨otherAgent, oneJob, [failedResult 2 "104.16.0.1"]⟩),
    .call (.createScanJob (fun _ => some "agent") 0x52f6a1d83c404b9ea7d21e8f9c0b6d35 oneTarget
      [⟨otherAgent, [⟨"104.16.0.2", ""⟩]⟩]),
    .call (.claimTasks (fun _ => 0) otherAgent 32)]

def secret : String := "AAAAAAAAAAAAAAAAAAAAAAAAAAAAAAAAAAAAAAAAAAA"

def edge (id : UUID) : AgentRow where
  id := id
  name := "edge"
  region := ""
  continent := ""
  concurrency := 32
  status := "online"
  os := "linux"
  architecture := "amd64"
  version := "1.0.0"
  lastSeenAt := 0
  createdAt := 0
  updatedAt := 0

def issued (id agentID : UUID) : CredentialRow where
  id := id
  agentID := agentID
  secretHash := hashSecret racingDigest secret
  createdAt := 0
  lastUsedAt := none
  revokedAt := none

/-- Both agents with a credential. -/
def twoCredentials : EnrollmentStore where
  enrollments := .empty
  agents := (Table.empty.put (edge 0x6f9619ff8b864011b42d00c04fc964ff)).put
    (edge 0x0b7d1c2e94f34a358d216c5f0e3b9a47)
  credentials := (Table.empty.put (issued 0x7d4448409dc041d1b2455ffdce74fad2
    0x6f9619ff8b864011b42d00c04fc964ff)).put (issued 0x52f6a1d83c404b9ea7d21e8f9c0b6d35
      0x0b7d1c2e94f34a358d216c5f0e3b9a47)

def visitAt (now : Timestamp) (request : Request) : Visit where
  authorization := "Bearer " ++ buildAgentToken oneJob secret
  request := request
  seen := now
  now := now
  tie := fun _ => 0

/-- It claims its task, sends results of its own and of a task of the other, then the other's alone
under the other's name, and then its own. -/
def oneAgentVisits : List Visit :=
  [visitAt 1 .heartbeat, visitAt 2 (.claimTask 0),
    visitAt 3 (.submitResults ⟨oneAgent, oneJob, [failedResult 1 "104.16.0.1",
      failedResult 3 "104.16.0.2"]⟩),
    visitAt 4 (.submitResults ⟨otherAgent, otherJob, [failedResult 3 "104.16.0.2"]⟩),
    visitAt 5 (.submitResults ⟨oneAgent, oneJob, [failedResult 1 "104.16.0.1"]⟩)]

def sharedCenter : Center := ⟨twoCredentials, (replay twoAgents 0 sharedJob).store⟩

def oneAgentText (id : UUID) : String :=
  if id = 0x6f9619ff8b864011b42d00c04fc964ff then oneAgent else otherAgent

/-- What names a task of the other is refused, and the other's task, entry and job stay. -/
theorem agent_confined_sharedJob :
    Confined 0x6f9619ff8b864011b42d00c04fc964ff sharedCenter
        (serveEach twoAgents racingDigest oneAgentText sharedCenter oneAgentVisits).2 ∧
      (∀ batch, Reply.batch batch ∈
          (serveEach twoAgents racingDigest oneAgentText sharedCenter oneAgentVisits).1 →
        ∀ claimed ∈ batch.tasks,
          Mine 0x6f9619ff8b864011b42d00c04fc964ff sharedCenter.scan batch claimed) ∧
      (serveEach twoAgents racingDigest oneAgentText sharedCenter oneAgentVisits).1.drop 2 =
        [internalError, internalError, .noContent] := by
  obtain ⟨hconfined, hmine⟩ := agent_confined twoAgents racingDigest oneAgentText 0 sharedJob
    twoCredentials 0x6f9619ff8b864011b42d00c04fc964ff oneAgentVisits (by decide +kernel)
    (by decide +kernel)
  exact ⟨hconfined, hmine, by decide +kernel⟩

end Cfscan.Agent
