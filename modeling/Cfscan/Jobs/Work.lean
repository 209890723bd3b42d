import Cfscan.Jobs.Store
import Cfscan.Lib.Fresh
import Cfscan.Lib.Upsert
import Cfscan.Scan.Run

/-!
# The work of a job

What `CreateScanJob` is asked for is a list of agents, addresses and prefixes. What it creates is
decided by the server, row by row: the conflict clause drops an address the agent already has, the
`NOT EXISTS` one that is blocked, and the rows affected are counted. `work` says it of the request
alone, and `createScanJob_creates` that the call commits a job with these tasks and no others, or
fails and leaves nothing.

`work` is short because the rules are: of the targets in their order, those whose texts are read,
each pair of agent and address once, and of these the ones no blacklist entry holds back, which for
a job that includes blocked addresses are all. The proof says that the draft grows by just these
(`Grown`), one insert after another.

`Unrefused` collects what must be so for the call to succeed: a value some column does not take, an
id that is taken or an unknown agent refuses the whole job. That the connection holds is assumed; a
call that loses it commits nothing.
-/

set_option autoImplicit false

namespace Cfscan.Jobs

open Cfscan.Lib Cfscan.Store Cfscan.Scan

/-- An address for an agent, under a prefix. -/
structure Wanted where
  agent : UUID
  targetIP : Inet
  targetPrefix : Option Cidr
deriving DecidableEq, Repr

def Wanted.key (w : Wanted) : UUID × Inet := (w.agent, w.targetIP)

def Wanted.task (jobID : UUID) (now : Timestamp) (w : Wanted) : ScanTask :=
  newTask 0 jobID w.agent w.targetIP w.targetPrefix now

/-- A target as its texts are read; none of an empty address, and of a text that is not read. -/
def wanted (pg : Postgres) (agentID : String) (target : ScanTarget) : Option Wanted :=
  if target.targetIP = "" then none
  else do
    let targetIP ← pg.inet target.targetIP
    let agent ← pg.uuid agentID
    let targetPrefix ← nullableCidr pg target.prefixCIDR
    some ⟨agent, targetIP, targetPrefix⟩

/-- All that is asked for, in order. -/
def requested (pg : Postgres) (agentTargets : List AgentScanTargets) : List Wanted :=
  agentTargets.flatMap fun agentSet => agentSet.targets.filterMap (wanted pg agentSet.agentID)

/-- No blacklist entry holds it back. -/
def admitted (s : ScanStore) (now : Timestamp) (input : CreateScanJobRequest) (k : UUID × Inet) :
    Bool :=
  input.includeBlocked || !blocked s now k.1 k.2

/-- The first of every agent and address, without those that are blocked. -/
def work (pg : Postgres) (s : ScanStore) (now : Timestamp) (input : CreateScanJobRequest)
    (agentTargets : List AgentScanTargets) : List Wanted :=
  (freshOn Wanted.key [] (requested pg agentTargets)).filter fun w => admitted s now input w.key

/-! ## One insert after another -/

section Inserts

variable {pg : Postgres} {agents : Agents} {s : ScanStore} {now : Timestamp} {jobID : UUID}
  {input : CreateScanJobRequest}

/-- One target of the request, its texts read. -/
def insertWanted (agents : Agents) (s : ScanStore) (now : Timestamp) (jobID : UUID)
    (input : CreateScanJobRequest) (d : Draft) (w : Wanted) : Draft :=
  if d.failure ≠ none then d
  else if admitted s now input w.key = false then d
  else d.insertTask agents now jobID w.agent w.targetIP w.targetPrefix "insert scan task"

theorem insertTarget_eq {agentID : String} {target : ScanTarget}
    (hread : target.targetIP ≠ "" → (wanted pg agentID target).isSome) (d : Draft) :
    d.insertTarget pg agents s now jobID input agentID target =
      match wanted pg agentID target with
      | some w => insertWanted agents s now jobID input d w
      | none => d := by
  unfold Draft.insertTarget
  by_cases hempty : target.targetIP = ""
  · rw [if_pos hempty, wanted, if_pos hempty]
    exact ite_self d
  · rw [if_neg hempty]
    obtain ⟨w, hw⟩ := Option.isSome_iff_exists.mp (hread hempty)
    rw [hw]
    unfold wanted at hw
    rw [if_neg hempty] at hw
    obtain ⟨targetIP, hip, hw⟩ := Option.bind_eq_some_iff.mp hw
    obtain ⟨agent, huuid, hw⟩ := Option.bind_eq_some_iff.mp hw
    obtain ⟨targetPrefix, hcidr, hw⟩ := Option.bind_eq_some_iff.mp hw
    cases hw
    rw [hip]
    dsimp only
    rw [huuid, hcidr]
    unfold insertWanted admitted Wanted.key
    split
    · rfl
    · dsimp only
      cases input.includeBlocked <;> cases blocked s now agent targetIP <;> rfl

/-- Nothing is inserted any more once an insert has failed. -/
theorem failed_insertWanted (l : List Wanted) {d : Draft} (h : d.failure ≠ none) :
    l.foldl (insertWanted agents s now jobID input) d = d := by
  induction l with
  | nil => rfl
  | cons w l ih => rw [List.foldl_cons, insertWanted, if_pos h, ih]

/-- The nested loops go through the request. -/
theorem foldl_insertAgent {agentTargets : List AgentScanTargets}
    (hagents : ∀ agentSet ∈ agentTargets, agentSet.agentID ≠ "")
    (hread : ∀ agentSet ∈ agentTargets, ∀ target ∈ agentSet.targets, target.targetIP ≠ "" →
      (wanted pg agentSet.agentID target).isSome) (d : Draft) :
    agentTargets.foldl (Draft.insertAgent pg agents s now jobID input) d =
      (requested pg agentTargets).foldl (insertWanted agents s now jobID input) d := by
  rw [requested, List.foldl_flatMap]
  refine List.foldl_ext _ _ _ fun d agentSet hset => ?_
  rw [List.foldl_filterMap]
  unfold Draft.insertAgent
  split
  next hfailed =>
    rw [← List.foldl_filterMap, failed_insertWanted _ hfailed]
  next =>
    rw [if_neg (hagents agentSet hset)]
    refine List.foldl_ext _ _ _ fun d target htarget => ?_
    rw [insertTarget_eq (hread agentSet hset target htarget)]
    cases wanted pg agentSet.agentID target <;> rfl

/-- The agents and addresses that already have a task of the job. -/
def takenKeys (jobID : UUID) (d : Draft) : List (UUID × Inet) :=
  (d.tasks.rows.filter fun task => decide (task.jobID = jobID)).map fun task =>
    (task.preferredAgentID, task.targetIP)

theorem taken_iff {d : Draft} {w : Wanted} :
    d.taken jobID w.agent w.targetIP = true ↔ w.key ∈ takenKeys jobID d := by
  simp [Draft.taken, takenKeys, Wanted.key, and_assoc]

/-- The draft `d'` is `d` with these tasks more. -/
structure Grown (now : Timestamp) (jobID : UUID) (d d' : Draft) (given : List Wanted) : Prop where
  failure : d'.failure = none
  inserted : d'.inserted = d.inserted + given.length
  tasks : ∃ news, d'.tasks.rows = d.tasks.rows ++ news ∧
    news.map ScanTask.unnumbered = given.map (Wanted.task jobID now)

/-- A sequence that is ahead of the ids it has given. -/
def Ahead (d : Draft) : Prop := ∀ task ∈ d.tasks.rows, task.id < d.taskSeq

theorem Ahead.unused {d : Draft} (h : Ahead d) : d.tasks.find? d.taskSeq = none :=
  Table.find?_eq_none.mpr fun task htask => Int.ne_of_lt (h task htask)

theorem rows_add {d : Draft} (h : Ahead d) (w : Wanted) :
    (d.add jobID w.agent w.targetIP w.targetPrefix now).tasks.rows =
      d.tasks.rows ++ [newTask d.taskSeq jobID w.agent w.targetIP w.targetPrefix now] :=
  Draft.rows_add h

theorem Ahead.add {d : Draft} (h : Ahead d) (w : Wanted) :
    Ahead (d.add jobID w.agent w.targetIP w.targetPrefix now) :=
  Draft.fresh_add h

theorem takenKeys_add {d : Draft} (h : Ahead d) (w : Wanted) (k : UUID × Inet) :
    k ∈ takenKeys jobID (d.add jobID w.agent w.targetIP w.targetPrefix now) ↔
      k ∈ w.key :: takenKeys jobID d := by
  unfold takenKeys
  rw [rows_add h, List.filter_append, List.map_append, List.mem_append, List.mem_cons, or_comm]
  simp [newTask, Wanted.key]

/-- The inserts of a list give a task to the first of every key that is not taken and not
blocked. The keys taken so far are the `seen` of the specification. -/
theorem grown_insertWanted (l : List Wanted) {d : Draft} (hfailure : d.failure = none)
    (hahead : Ahead d)
    (hagents : ∀ w ∈ freshOn Wanted.key (takenKeys jobID d)
      (l.filter fun w => admitted s now input w.key), agents w.agent ≠ none) :
    Grown now jobID d (l.foldl (insertWanted agents s now jobID input) d)
      (freshOn Wanted.key (takenKeys jobID d) (l.filter fun w => admitted s now input w.key)) := by
  induction l generalizing d with
  | nil => exact ⟨hfailure, rfl, [], (List.append_nil _).symm, rfl⟩
  | cons w l ih =>
    rw [List.foldl_cons, insertWanted, if_neg (not_not.mpr hfailure)]
    cases hadmitted : admitted s now input w.key with
    | false =>
      rw [List.filter_cons_of_neg (by simp [hadmitted])] at hagents ⊢
      exact ih hfailure hahead hagents
    | true =>
      rw [List.filter_cons_of_pos (by simpa using hadmitted)] at hagents ⊢
      rw [if_neg (by simp)]
      by_cases htaken : w.key ∈ takenKeys jobID d
      · -- the conflict clause: only the sequence moves
        rw [freshOn_cons_of_mem htaken] at hagents ⊢
        rw [Draft.insertTask, if_pos (Or.inr (taken_iff.mpr htaken))]
        have hgrown := ih (d := { d with taskSeq := d.taskSeq + 1 }) hfailure (fun task htask =>
          Int.lt_trans (hahead task htask) (Int.lt_add_one_of_le (Int.le_refl _))) hagents
        exact ⟨hgrown.failure, hgrown.inserted, hgrown.tasks⟩
      · -- a row more, whose key is taken for the rest of the list
        rw [freshOn_cons_of_notMem htaken] at hagents ⊢
        have hfree : ¬ (d.tasks.find? d.taskSeq ≠ none ∨
            d.taken jobID w.agent w.targetIP = true) := by
          rw [not_or, not_not, taken_iff]
          exact ⟨hahead.unused, htaken⟩
        rw [Draft.insertTask, if_neg hfree, if_neg (hagents w List.mem_cons_self)]
        change Grown now jobID d (l.foldl (insertWanted agents s now jobID input)
          (d.add jobID w.agent w.targetIP w.targetPrefix now)) _
        have hseen : freshOn Wanted.key (takenKeys jobID
              (d.add jobID w.agent w.targetIP w.targetPrefix now))
              (l.filter fun w => admitted s now input w.key) =
            freshOn Wanted.key (w.key :: takenKeys jobID d)
              (l.filter fun w => admitted s now input w.key) :=
          freshOn_congr (takenKeys_add hahead w) _
        rw [← hseen] at hagents ⊢
        obtain ⟨hnone, hcount, news, hrows, hnews⟩ :=
          ih (d := d.add jobID w.agent w.targetIP w.targetPrefix now) hfailure (hahead.add w)
            fun w' hw' => hagents w' (List.mem_cons_of_mem _ hw')
        refine ⟨hnone, ?_, newTask d.taskSeq jobID w.agent w.targetIP w.targetPrefix now :: news,
          ?_, ?_⟩
        · rw [hcount, List.length_cons]
          dsimp only [Draft.add]
          omega
        · rw [hrows, rows_add hahead, List.append_assoc, List.singleton_append]
        · rw [List.map_cons, List.map_cons, hnews]
          rfl

/-- A set without an agent id fails the call, wherever it stands. -/
theorem failed_insertAgent (agentTargets : List AgentScanTargets) {d : Draft}
    (h : d.failure ≠ none ∨ ∃ agentSet ∈ agentTargets, agentSet.agentID = "") :
    (agentTargets.foldl (Draft.insertAgent pg agents s now jobID input) d).failure ≠ none := by
  induction agentTargets generalizing d with
  | nil => exact h.resolve_right (by simp)
  | cons agentSet agentTargets ih =>
    refine ih ?_
    by_cases hfailed : d.failure = none
    · obtain ⟨missing, hmem, hempty⟩ := h.resolve_left (not_not.mpr hfailed)
      rcases List.mem_cons.mp hmem with rfl | hmem
      · rw [Draft.insertAgent, if_neg (not_not.mpr hfailed), if_pos hempty]
        exact Or.inl (Option.some_ne_none _)
      · exact Or.inr ⟨missing, hmem, hempty⟩
    · rw [Draft.insertAgent, if_pos hfailed]
      exact Or.inl hfailed

end Inserts

/-! ## The addresses upserted -/

/-- The row of an address after its upsert. -/
def upserted (now : Timestamp) (ip : Inet) : Option IPTarget → IPTarget
  | some row => { row with enabled := true, updatedAt := now }
  | none => ⟨ip, "cloudflare_union", true, now, now⟩

theorem upserted_upserted (now : Timestamp) (ip : Inet) (row : Option IPTarget) :
    upserted now ip (some (upserted now ip row)) = upserted now ip row := by
  cases row <;> rfl

theorem upserted_upsertTarget (now : Timestamp) (ip : Inet)
    (t : Table Inet IPTarget IPTarget.ip) :
    Upserted (upserted now) [ip] t (upsertTarget now ip t) := by
  have hput : upsertTarget now ip t = t.put (upserted now ip (t.find? ip)) := by
    unfold upsertTarget
    cases t.find? ip <;> rfl
  rw [hput]
  refine .put ?_
  cases hfind : t.find? ip with
  | none => rfl
  | some row =>
    have hrow : row.ip = ip := Table.key_of_find? hfind
    exact hrow

section Upserts

variable {pg : Postgres} {agents : Agents} {s : JobStore} {now : Timestamp} {jobID : UUID}
  {input : CreateScanJobRequest}

/-- A target that fails nothing has been read and its address upserted. -/
theorem upserted_insertTarget {agentID : String} {d : JobDraft} {target : ScanTarget}
    (h : (d.insertTarget pg agents s now jobID input agentID target).scan.failure = none) :
    d.scan.failure = none ∧
      Upserted (upserted now) ((wanted pg agentID target).toList.map Wanted.targetIP) d.ipTargets
        (d.insertTarget pg agents s now jobID input agentID target).ipTargets := by
  rw [scan_insertTarget] at h
  have hnone : d.scan.failure = none := by
    by_contra hfailed
    rw [Draft.insertTarget, if_pos hfailed] at h
    exact hfailed h
  refine ⟨hnone, ?_⟩
  unfold JobDraft.insertTarget
  rw [if_neg (not_not.mpr hnone)]
  unfold Draft.insertTarget at h
  rw [if_neg (not_not.mpr hnone)] at h
  unfold wanted
  by_cases hempty : target.targetIP = ""
  · rw [if_pos hempty, if_pos hempty]
    exact .nil
  rw [if_neg hempty] at h ⊢
  rw [if_neg hempty]
  cases hip : pg.inet target.targetIP with
  | none =>
    rw [hip] at h
    cases h
  | some targetIP =>
    rw [hip] at h
    dsimp only at h
    split at h
    · rename_i agent targetPrefix huuid hcidr
      rw [huuid, hcidr]
      dsimp only
      split
      · exact upserted_upsertTarget now targetIP _
      · split <;> exact upserted_upsertTarget now targetIP _
    · cases h

theorem upserted_insertAgents {agentTargets : List AgentScanTargets} {d : JobDraft}
    (h : (agentTargets.foldl (JobDraft.insertAgent pg agents s now jobID input) d).scan.failure =
      none) :
    d.scan.failure = none ∧
      Upserted (upserted now) ((requested pg agentTargets).map Wanted.targetIP) d.ipTargets
        (agentTargets.foldl (JobDraft.insertAgent pg agents s now jobID input) d).ipTargets := by
  -- the inner loop, over the targets of one agent
  have htargets : ∀ (agentID : String) (targets : List ScanTarget) (d : JobDraft),
      (targets.foldl (JobDraft.insertTarget pg agents s now jobID input agentID) d).scan.failure =
        none →
      d.scan.failure = none ∧
        Upserted (upserted now) ((targets.filterMap (wanted pg agentID)).map Wanted.targetIP) d.ipTargets
          (targets.foldl (JobDraft.insertTarget pg agents s now jobID input agentID) d).ipTargets := by
    intro agentID targets
    induction targets with
    | nil => exact fun d h => ⟨h, .nil⟩
    | cons target targets ih =>
      intro d h
      obtain ⟨hstep, hrest⟩ := ih _ h
      obtain ⟨hnone, hfirst⟩ := upserted_insertTarget hstep
      refine ⟨hnone, ?_⟩
      have hcons := hfirst.append (upserted_upserted now) hrest
      cases hwanted : wanted pg agentID target with
      | none => simpa [hwanted] using hcons
      | some w => simpa [hwanted] using hcons
  induction agentTargets generalizing d with
  | nil => exact ⟨h, .nil⟩
  | cons agentSet agentTargets ih =>
    obtain ⟨hstep, hrest⟩ := ih h
    have hset : d.scan.failure = none ∧
        Upserted (upserted now)
          ((agentSet.targets.filterMap (wanted pg agentSet.agentID)).map Wanted.targetIP) d.ipTargets
          (d.insertAgent pg agents s now jobID input agentSet).ipTargets := by
      revert hstep
      unfold JobDraft.insertAgent
      split
      next hfailed => exact fun hnone => absurd hnone hfailed
      next =>
        split
        · intro hnone
          cases hnone
        · exact htargets _ _ d
    refine ⟨hset.1, ?_⟩
    have happend := hset.2.append (upserted_upserted now) hrest
    rwa [← List.map_append] at happend

end Upserts

/-! ## The call -/

/-- The server refuses nothing: the texts are read, the agents are there, the numbers fit. -/
structure Unrefused (pg : Postgres) (agents : Agents) (s : ScanStore) (now : Timestamp)
    (jobID : UUID) (input : CreateScanJobRequest) (agentTargets : List AgentScanTargets) : Prop where
  storable : (input.job jobID now).storable = true
  unused : s.jobs.find? jobID = none
  texts : ∀ agentSet ∈ agentTargets, agentSet.agentID ≠ "" → ∀ target ∈ agentSet.targets,
    target.targetIP ≠ "" → (wanted pg agentSet.agentID target).isSome
  agents : ∀ w ∈ work pg s now input agentTargets, agents w.agent ≠ none
  fits : int4 (work pg s now input agentTargets).length = true

/-- A committed job. -/
structure Committed (pg : Postgres) (s s' : JobStore) (now : Timestamp) (jobID : UUID)
    (input : CreateScanJobRequest) (agentTargets : List AgentScanTargets) (job : ScanJob) :
    Prop where
  total : job = { input.job jobID now with
    totalTargets := (work pg s.scan now input agentTargets).length }
  jobs : s'.scan.jobs = s.scan.jobs.put job
  /-- The tasks of the job, and the tasks there were. -/
  tasks : (s'.scan.jobTasks jobID).map ScanTask.unnumbered =
    (work pg s.scan now input agentTargets).map (Wanted.task jobID now)
  others : (s'.scan.tasks.rows.filter fun task => decide (task.jobID ≠ jobID)) = s.scan.tasks.rows
  results : s'.scan.results = s.scan.results
  blacklist : s'.scan.blacklist = s.scan.blacklist
  ipTargets : Upserted (upserted now) ((requested pg agentTargets).map Wanted.targetIP) s.ipTargets
    s'.ipTargets

section Creates

variable {pg : Postgres} {agents : Agents} {s : JobStore} {now : Timestamp} {jobID : UUID}
  {input : CreateScanJobRequest} {agentTargets : List AgentScanTargets}

/-- What the inserts make of a request the server does not refuse. -/
theorem grown_draft (hready : RecheckReady pg s.scan)
    (hunrefused : Unrefused pg agents s.scan now jobID input agentTargets)
    (hagents : ∀ agentSet ∈ agentTargets, agentSet.agentID ≠ "") :
    Grown now jobID s.scan.draft
      (agentTargets.foldl (Draft.insertAgent pg agents s.scan now jobID input) s.scan.draft)
      (work pg s.scan now input agentTargets) := by
  have hkeys : takenKeys jobID s.scan.draft = [] := by
    unfold takenKeys
    rw [List.map_eq_nil_iff, List.filter_eq_nil_iff]
    intro task htask hjob
    obtain ⟨job, hjobs, hid⟩ := hready.owner task htask
    exact Table.find?_eq_none.mp hunrefused.unused job hjobs (hid.trans (of_decide_eq_true hjob))
  have hwork : work pg s.scan now input agentTargets =
      freshOn Wanted.key (takenKeys jobID s.scan.draft) ((requested pg agentTargets).filter
        fun w => admitted s.scan now input w.key) := by
    rw [hkeys, freshOn_filter, work]
  rw [foldl_insertAgent hagents fun agentSet hset => hunrefused.texts agentSet hset
    (hagents agentSet hset), hwork]
  exact grown_insertWanted _ rfl hready.fresh (hwork ▸ hunrefused.agents)

theorem Grown.committed {d : Draft} (hready : RecheckReady pg s.scan)
    (hunused : s.scan.jobs.find? jobID = none) {given : List Wanted}
    (h : Grown now jobID s.scan.draft d given) :
    ((d.tasks.rows.filter fun task => decide (task.jobID = jobID)).map ScanTask.unnumbered =
        given.map (Wanted.task jobID now)) ∧
      (d.tasks.rows.filter fun task => decide (task.jobID ≠ jobID)) = s.scan.tasks.rows := by
  obtain ⟨-, -, news, hrows, hnews⟩ := h
  have hold : ∀ task ∈ s.scan.tasks.rows, task.jobID ≠ jobID := by
    intro task htask heq
    obtain ⟨job, hjobs, hid⟩ := hready.owner task htask
    exact Table.find?_eq_none.mp hunused job hjobs (hid.trans heq)
  have hnew : ∀ task ∈ news, task.jobID = jobID := by
    intro task htask
    obtain ⟨w, -, hw⟩ := List.mem_map.mp (hnews ▸ List.mem_map_of_mem htask)
    exact (congrArg ScanTask.jobID hw).symm
  change d.tasks.rows = s.scan.tasks.rows ++ news at hrows
  rw [hrows, List.filter_append, List.filter_append,
    List.filter_eq_nil_iff.mpr fun task htask => by simpa using hold task htask,
    List.filter_eq_self.mpr fun task htask => by simpa using hnew task htask,
    List.filter_eq_self.mpr fun task htask => by simpa using hold task htask,
    List.filter_eq_nil_iff.mpr fun task htask => by simpa using hnew task htask]
  exact ⟨hnews, List.append_nil _⟩

/-- The draft of a call that succeeds: no set is without its agent, and it has a task for all the
work. -/
theorem Succeeds.grown {d : JobDraft} (h : Succeeds pg agents s now jobID input agentTargets d)
    (hready : RecheckReady pg s.scan)
    (hunrefused : Unrefused pg agents s.scan now jobID input agentTargets) :
    (∀ agentSet ∈ agentTargets, agentSet.agentID ≠ "") ∧
      Grown now jobID s.scan.draft d.scan (work pg s.scan now input agentTargets) := by
  have hscan : d.scan =
      agentTargets.foldl (Draft.insertAgent pg agents s.scan now jobID input) s.scan.draft := by
    rw [← h.draft]
    exact scan_draft agentTargets
  have hagents : ∀ agentSet ∈ agentTargets, agentSet.agentID ≠ "" := fun agentSet hset hempty =>
    failed_insertAgent agentTargets (Or.inr ⟨agentSet, hset, hempty⟩) (hscan ▸ h.failure)
  exact ⟨hagents, hscan ▸ grown_draft hready hunrefused hagents⟩

theorem succeeds_iff (hready : RecheckReady pg s.scan)
    (hunrefused : Unrefused pg agents s.scan now jobID input agentTargets) :
    (∃ d, Succeeds pg agents s now jobID input agentTargets d) ↔
      agentTargets ≠ [] ∧ (∀ agentSet ∈ agentTargets, agentSet.agentID ≠ "") ∧
        work pg s.scan now input agentTargets ≠ [] := by
  constructor
  · rintro ⟨d, h⟩
    obtain ⟨hagents, hgrown⟩ := h.grown hready hunrefused
    refine ⟨h.some, hagents, fun hwork => h.inserted ?_⟩
    rw [hgrown.inserted, hwork]
    rfl
  · rintro ⟨hsome, hagents, hwork⟩
    have hgrown := grown_draft hready hunrefused hagents
    rw [← scan_draft] at hgrown
    have hcount : (agentTargets.foldl (JobDraft.insertAgent pg agents s now jobID input)
        s.draft).scan.inserted = (work pg s.scan now input agentTargets).length :=
      hgrown.inserted.trans (Nat.zero_add _)
    refine ⟨_, rfl, hsome, hunrefused.storable, hunrefused.unused, hgrown.failure, ?_, ?_⟩
    · rw [hcount]
      exact fun hzero => hwork (List.eq_nil_of_length_eq_zero hzero)
    · rw [hcount]
      exact hunrefused.fits

theorem Succeeds.committed {d : JobDraft} (h : Succeeds pg agents s now jobID input agentTargets d)
    (hready : RecheckReady pg s.scan)
    (hunrefused : Unrefused pg agents s.scan now jobID input agentTargets)
    (entries : Table League.Dashboard.LeagueKey League.Dashboard.LeagueRow
      League.Dashboard.LeagueRow.key) :
    Committed pg s (d.commit s (input.job jobID now) entries) now jobID input agentTargets
      { input.job jobID now with totalTargets := d.scan.inserted } := by
  obtain ⟨-, hgrown⟩ := h.grown hready hunrefused
  obtain ⟨htasks, hothers⟩ := hgrown.committed hready hunrefused.unused
  have hcount : d.scan.inserted = (work pg s.scan now input agentTargets).length :=
    hgrown.inserted.trans (Nat.zero_add _)
  refine ⟨by rw [hcount], rfl, htasks, hothers, rfl, rfl, ?_⟩
  have hupserted := upserted_insertAgents (d := s.draft) (h.draft ▸ h.failure)
  rw [h.draft] at hupserted
  exact hupserted.2

/-- A call the server does not refuse creates the work, all of it and nothing else, or fails and
leaves nothing. -/
theorem createScanJob_creates (hready : RecheckReady pg s.scan)
    (hunrefused : Unrefused pg agents s.scan now jobID input agentTargets)
    (range : AnyOrder ScheduledPrefix) :
    (agentTargets ≠ [] ∧ (∀ agentSet ∈ agentTargets, agentSet.agentID ≠ "") ∧
        work pg s.scan now input agentTargets ≠ [] →
      ∃ job s', createScanJob pg agents s now jobID input range agentTargets = (.ok job, s') ∧
        Committed pg s s' now jobID input agentTargets job) ∧
    (¬ (agentTargets ≠ [] ∧ (∀ agentSet ∈ agentTargets, agentSet.agentID ≠ "") ∧
        work pg s.scan now input agentTargets ≠ []) →
      ∃ error n, createScanJob pg agents s now jobID input range agentTargets =
        (.error error, { s with scan := { s.scan with taskSeq := n } })) := by
  rw [← succeeds_iff hready hunrefused]
  rcases createScanJob_cases pg agents s now jobID input range agentTargets with
    ⟨d, entries, hsucceeds, -, hrun⟩ | ⟨hfails, error, n, hrun⟩
  · exact ⟨fun _ => ⟨_, _, hrun, hsucceeds.committed hready hunrefused entries⟩,
      fun hno => absurd ⟨d, hsucceeds⟩ hno⟩
  · exact ⟨fun ⟨d, hsucceeds⟩ => absurd hsucceeds (hfails d), fun _ => ⟨error, n, hrun⟩⟩

end Creates

/-! ## A repeated address -/

def emptyStore : JobStore := ⟨.empty, .empty, .empty⟩

/-- An address, an empty one, and the first again. -/
def repeatedTargets : List AgentScanTargets :=
  [⟨oneAgent, [⟨"104.16.0.1", ""⟩, ⟨"", ""⟩, ⟨"104.16.0.1", ""⟩]⟩]

theorem createScanJob_creates_repeated :
    ∃ job s', createScanJob oneAddress (fun _ => some "agent") emptyStore 0 7 oneTarget
        .unchanged repeatedTargets = (.ok job, s') ∧ job.totalTargets = 1 := by
  have hwork : work oneAddress ScanStore.empty 0 oneTarget repeatedTargets =
      [⟨0x6f9619ff8b864011b42d00c04fc964ff, ⟨"104.16.0.1", none⟩, none⟩] := by decide +kernel
  have hunrefused : Unrefused oneAddress (fun _ => some "agent") ScanStore.empty 0 7 oneTarget
      repeatedTargets := by
    refine ⟨by decide +kernel, rfl, ?_, fun _ _ => Option.some_ne_none _, ?_⟩
    · decide +kernel
    · rw [hwork]
      decide
  obtain ⟨job, s', hrun, hcommitted⟩ := (createScanJob_creates (s := emptyStore)
    ⟨fun _ h => absurd h List.not_mem_nil, fun _ h => absurd h List.not_mem_nil⟩ hunrefused
    .unchanged).1 ⟨by decide, by decide, by
      change work oneAddress ScanStore.empty 0 oneTarget repeatedTargets ≠ []
      rw [hwork]
      exact List.cons_ne_nil _ _⟩
  refine ⟨job, s', hrun, ?_⟩
  rw [hcommitted.total]
  change ((work oneAddress ScanStore.empty 0 oneTarget repeatedTargets).length : Int) = 1
  rw [hwork]
  rfl

end Cfscan.Jobs
