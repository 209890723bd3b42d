import Cfscan.Errors.Records
import Cfscan.Scan.Batches

/-!
# The messages of a batch — `SubmitResults` in `internal/store/postgres/store.go`

A result brings the message of its last error along, which is cut to 1000 bytes and stored with it.
Nothing else reads it. So a batch fares as it would without its messages, unless one of them is cut
inside a character: `submitResults_messages`. `shortened_iff` puts this beside the other records.

The agent has cut the message to 500 bytes before, and written what the cut spoils as U+FFFD
(`Agent.errorMessage`). That cut is **not** the subject here: this is about every batch that the
endpoint can be sent.

The comparison is with the silent batch, the same results with empty messages. If that one is
accepted, the batch with its messages is accepted unless a cut goes through a character, and what it
leaves differs in the column `error_message` alone (`submitEach_silent`). A stopped job takes every
batch, as no row of it is written.

The counterexample is a source that answers in Chinese, which is a body the fetch of a list of
prefixes reads: the record of its error is refused, and the source keeps the status it had.
-/

set_option autoImplicit false

namespace Cfscan.Errors

open Cfscan.Lib Cfscan.Lib.Utf8 Cfscan.Store Cfscan.Scan

/-! ## Rows without their message

`Alike` relates a database to the one the silent batch leaves. Nothing in the processing of
a batch looks at the column, so the relation goes through every step of it. -/

def silentRow (row : ScanResult) : ScanResult := { row with errorMessage := "" }

def silentResult (result : ProbeResult) : ProbeResult := { result with errorMessage := "" }

/-- The same batch, without its messages. -/
def silentBatch (batch : ResultBatch) : ResultBatch :=
  { batch with results := batch.results.map silentResult }

/-- The server takes the shortened message. -/
def Taken (result : ProbeResult) : Prop :=
  ∃ short, textParameter (truncate (text result.errorMessage) 1000) = some short

/-- Databases that agree but for the messages of the results. -/
structure Alike (s s' : ScanStore) : Prop where
  jobs : s.jobs = s'.jobs
  tasks : s.tasks = s'.tasks
  blacklist : s.blacklist = s'.blacklist
  results : ∀ id, (s.results.find? id).map silentRow = (s'.results.find? id).map silentRow

theorem Alike.refl (s : ScanStore) : Alike s s := ⟨rfl, rfl, rfl, fun _ => rfl⟩

section Rows

variable {pg : Postgres} {now : Timestamp} {job : ScanJob} {agent : UUID} {task : ScanTask}
  {result : ProbeResult} {row row' : ScanResult} {s s' : ScanStore}

theorem row_some (h : result.row pg now job agent task = some row) :
    Taken result ∧ (silentResult result).row pg now job agent task = some (silentRow row) := by
  unfold ProbeResult.row at h ⊢
  simp only [Option.bind_eq_bind, Option.bind_eq_some_iff] at h
  obtain ⟨targetIP, hip, targetPrefix, hprefix, short, hshort, u, htexts, v, hints, hrow⟩ := h
  rw [Option.guard_eq_some'] at htexts hints
  simp only [List.all_cons, List.all_nil, Bool.and_true, Bool.and_eq_true] at htexts
  obtain ⟨hhttp, htls, hcolo, hray, hcode, hmessage⟩ := htexts
  refine ⟨⟨short, textParameter_eq_some.mpr ⟨hshort, hmessage⟩⟩, ?_⟩
  cases hrow
  have hempty : storable "" = true := rfl
  simp [silentResult, silentRow, hip, hprefix, truncate_empty, hhttp, htls, hcolo, hray, hcode, hempty,
    hints]

theorem row_of_taken (h : (silentResult result).row pg now job agent task = some row')
    (htaken : Taken result) :
    ∃ row, result.row pg now job agent task = some row ∧ silentRow row = row' := by
  obtain ⟨short, hparameter⟩ := htaken
  obtain ⟨hshort, hmessage⟩ := textParameter_eq_some.mp hparameter
  unfold ProbeResult.row at h ⊢
  simp only [Option.bind_eq_bind, Option.bind_eq_some_iff] at h ⊢
  obtain ⟨targetIP, hip, targetPrefix, hprefix, empty, hempty, u, htexts, v, hints, hrow⟩ := h
  rw [Option.guard_eq_some'] at htexts
  simp only [List.all_cons, List.all_nil, Bool.and_true, Bool.and_eq_true] at htexts
  obtain ⟨hhttp, htls, hcolo, hray, hcode, -⟩ := htexts
  have hall : ([result.httpVersion, result.tlsVersion, result.colo, result.cfRay, result.errorCode,
      short].all storable) = true := by
    simp only [List.all_cons, List.all_nil, Bool.and_true, Bool.and_eq_true]
    exact ⟨hhttp, htls, hcolo, hray, hcode, hmessage⟩
  obtain rfl := Option.some_inj.mp (hempty.symm.trans (truncate_empty 1000))
  cases hrow
  exact ⟨_, ⟨targetIP, hip, targetPrefix, hprefix, short, hshort, u,
    (Option.guard_eq_some' u).mpr hall, v, hints, rfl⟩, rfl⟩

theorem silent_overwrite {old old' : ScanResult} (h : silentRow old = silentRow old') :
    silentRow (old.overwrite row) = silentRow (old'.overwrite (silentRow row)) := by
  simp only [silentRow, ScanResult.mk.injEq] at h
  simp only [silentRow, ScanResult.overwrite, h]

theorem taskID_resultVersion (s : ScanStore) (row : ScanResult) :
    (s.resultVersion row).taskID = row.taskID := by
  unfold ScanStore.resultVersion
  split
  · rfl
  · rename_i old hfind
    have hold : old.taskID = row.taskID := Table.key_of_find? hfind
    exact hold

theorem silent_resultVersion (h : Alike s s') (row : ScanResult) :
    silentRow (s.resultVersion row) = silentRow (s'.resultVersion (silentRow row)) := by
  have hfound := h.results row.taskID
  have hid : (silentRow row).taskID = row.taskID := rfl
  unfold ScanStore.resultVersion
  rw [hid]
  cases hold : s.results.find? row.taskID <;> cases hold' : s'.results.find? row.taskID <;>
    rw [hold, hold'] at hfound
  case none.none => rfl
  case some.some old old' => exact silent_overwrite (Option.some_inj.mp hfound)
  all_goals cases hfound

/-- The same result, with and without its message. -/
theorem alike_recorded (h : Alike s s') (result : ProbeResult) (row : ScanResult) :
    Alike (s.recorded now job agent result row)
      (s'.recorded now job agent (silentResult result) (silentRow row)) := by
  refine ⟨h.jobs, ?_, ?_, fun id => ?_⟩
  · unfold ScanStore.recorded ScanStore.filed
    rw [h.tasks]
    rfl
  · unfold ScanStore.recorded ScanStore.reblacklisted
    rw [h.blacklist]
    rfl
  · change ((s.results.put (s.resultVersion row)).find? id).map silentRow =
      ((s'.results.put (s'.resultVersion (silentRow row))).find? id).map silentRow
    have hid : (silentRow row).taskID = row.taskID := rfl
    rw [Table.find?_put, Table.find?_put, taskID_resultVersion, taskID_resultVersion, hid]
    split
    · exact congrArg some (silent_resultVersion h row)
    · exact h.results id

theorem stats_alike (h : Alike s s') (jobID : UUID) : s.stats jobID = s'.stats jobID := by
  obtain ⟨hjobs, htasks, -, hresults⟩ := h
  -- what is counted does not read the message
  have hcounts : ∀ condition : ScanResult → Bool,
      (∀ row, condition (silentRow row) = condition row) →
        s.counts condition = s'.counts condition := by
    intro condition hcondition
    funext task
    have hrow := hresults task.id
    unfold ScanStore.counts
    cases h : s.results.find? task.id <;> cases h' : s'.results.find? task.id <;>
      rw [h, h'] at hrow
    case some.some row row' =>
      have hsame := congrArg condition (Option.some_inj.mp hrow)
      rw [hcondition, hcondition] at hsame
      simp only [hsame]
    all_goals cases hrow
  unfold ScanStore.stats ScanStore.jobTasks
  rw [hjobs, htasks]
  cases s'.jobs.find? jobID with
  | none => rfl
  | some job =>
    dsimp only
    rw [hcounts (ScanResult.passes job) fun _ => rfl, hcounts (ScanResult.fails job) fun _ => rfl]

theorem updateProgress_alike (h : Alike s s') (jobID : UUID) :
    ((updateProgress now jobID).run s).1 = ((updateProgress now jobID).run s').1 := by
  unfold updateProgress
  simp only [Tx.bind_eq, Tx.run_bind, Tx.run_read]
  rw [stats_alike h]
  cases s'.stats jobID with
  | none => rfl
  | some stats =>
    dsimp only
    split
    · simp only [Tx.run_bind]
      rfl
    · rfl

end Rows

/-! ## With the messages and without

One result at a time: with its message it is recorded if the server takes the message, and
if not, the whole batch is rolled back. -/

section Batch

variable {pg : Postgres} {now : Timestamp} {agentID : String} {job : ScanJob} {s s' : ScanStore}
  {result : ProbeResult} {results : List ProbeResult} {batch : ResultBatch}

/-- **One result**, recorded without its message: with it, it is recorded when the server takes the
message, and leaves the same but for that. -/
theorem submitResult_silent (h : Alike s s')
    (hsilent : ((submitResult pg now agentID job (silentResult result)).run s').1 = none) :
    (((submitResult pg now agentID job result).run s).1 = none ↔ Taken result) ∧
      (((submitResult pg now agentID job result).run s).1 = none →
        Alike ((submitResult pg now agentID job result).run s).2
          ((submitResult pg now agentID job (silentResult result)).run s').2) := by
  rcases submitResult_run pg now agentID job (silentResult result) s' with
    ⟨error, t', hrun⟩ | ⟨agent, task, row', hrecord', hrun'⟩
  · rw [hrun] at hsilent
    cases hsilent
  · have htask : task ∈ s.tasks.rows := h.tasks ▸ hrecord'.mem
    -- a taken message leaves the row and the room in the blacklist as they were without it
    have htaken : Taken result → ((submitResult pg now agentID job result).run s).1 = none := by
      intro htaken
      obtain ⟨row, hbuilt, rfl⟩ := row_of_taken hrecord'.built htaken
      have hrecord : RecordOf pg s now agentID job result agent task row :=
        ⟨hrecord'.uuid, htask, hrecord'.submittable, hrecord'.target, hbuilt⟩
      rw [submitResult_fst hrecord', reblacklist_fst] at hsilent
      rw [submitResult_fst hrecord, reblacklist_fst]
      have hblacklist : (s.filed now job agent result row).blacklist =
          (s'.filed now job agent (silentResult result) (silentRow row)).blacklist := h.blacklist
      rw [hblacklist]
      exact hsilent
    rcases submitResult_run pg now agentID job result s with
      ⟨error, t, hrun⟩ | ⟨agent₁, task₁, row, hrecord, hrun⟩
    · refine ⟨⟨fun hnone => ?_, htaken⟩, fun hnone => ?_⟩ <;>
        rw [hrun] at hnone <;> cases hnone
    · -- both are recorded, by one agent and for one task
      obtain rfl := Option.some_inj.mp (hrecord.uuid.symm.trans hrecord'.uuid)
      obtain ⟨hid, -⟩ := submittable_eq hrecord.submittable
      obtain ⟨hid', -⟩ := submittable_eq hrecord'.submittable
      obtain rfl := Table.eq_of_key hrecord.mem htask (hid.trans hid'.symm)
      obtain ⟨htaken, hbuilt⟩ := row_some hrecord.built
      obtain rfl := Option.some_inj.mp (hbuilt.symm.trans hrecord'.built)
      rw [hrun, hrun']
      exact ⟨iff_of_true rfl htaken, fun _ => alike_recorded h result row⟩

theorem submitEach_silent (h : Alike s s')
    (hsilent : ((submitEach pg now agentID job (results.map silentResult)).run s').1 = none) :
    (((submitEach pg now agentID job results).run s).1 = none ↔
        ∀ result ∈ results, Taken result) ∧
      (((submitEach pg now agentID job results).run s).1 = none →
        Alike ((submitEach pg now agentID job results).run s).2
          ((submitEach pg now agentID job (results.map silentResult)).run s').2) := by
  induction results generalizing s s' with
  | nil => exact ⟨iff_of_true rfl fun _ hresult => absurd hresult List.not_mem_nil, fun _ => h⟩
  | cons result results ih =>
    rw [List.map_cons] at hsilent ⊢
    unfold submitEach at hsilent ⊢
    simp only [Tx.bind_eq, Tx.run_bind] at hsilent ⊢
    cases hfirst' : ((submitResult pg now agentID job (silentResult result)).run s').1 with
    | some error =>
      rw [hfirst'] at hsilent
      cases hsilent
    | none =>
      rw [hfirst'] at hsilent
      obtain ⟨htaken, halike⟩ := submitResult_silent h hfirst'
      rw [List.forall_mem_cons, ← htaken]
      cases hfirst : ((submitResult pg now agentID job result).run s).1 with
      | some error =>
        refine ⟨iff_of_false (fun hnone => ?_) fun hnone => ?_, fun hnone => ?_⟩
        · cases hnone
        · cases hnone.1
        · cases hnone
      | none =>
        obtain ⟨hrest, hleft⟩ := ih (halike hfirst) hsilent
        exact ⟨hrest.trans (and_iff_right rfl).symm, hleft⟩

/-- The batch of a job that is not stopped. -/
theorem submitResults_silent
    (hsilent : ((submitResults pg now (silentBatch batch)).exec s).1 = .ok ()) :
    ((submitResults pg now batch).exec s).1 = .ok () ↔
      (∃ job ∈ s.jobs.rows, pg.uuid batch.jobID = some job.id ∧ job.status = .stopped) ∨
        ∀ result ∈ batch.results, Taken result := by
  obtain ⟨job, hjob, hid⟩ : ∃ job ∈ s.jobs.rows, pg.uuid batch.jobID = some job.id := by
    rcases submitResults_exec pg now (silentBatch batch) s with
      ⟨error, hrun⟩ | ⟨job, hjob, hid, -⟩ | ⟨job, hjob, -, hid, -⟩
    · rw [hrun] at hsilent
      cases hsilent
    · exact ⟨job, hjob, hid⟩
    · exact ⟨job, hjob, hid⟩
  have hstopped : (∃ job' ∈ s.jobs.rows, pg.uuid batch.jobID = some job'.id ∧
      job'.status = .stopped) ↔ job.status = .stopped := by
    constructor
    · rintro ⟨job', hjob', hid', h⟩
      rwa [Table.eq_of_key hjob hjob' (Option.some_inj.mp (hid.symm.trans hid'))]
    · exact fun h => ⟨job, hjob, hid, h⟩
  rw [submitResults_ok now hid hjob, hstopped]
  have hid' : pg.uuid (silentBatch batch).jobID = some job.id := hid
  rcases (submitResults_ok now hid' hjob).mp hsilent with h | ⟨heach', hupdate⟩
  · exact iff_of_true (.inl h) (.inl h)
  · change ((submitEach pg now batch.agentID job (batch.results.map silentResult)).run s).1 =
      none at heach'
    obtain ⟨htaken, hleft⟩ := submitEach_silent (Alike.refl s) heach'
    rw [← htaken]
    refine or_congr_right (and_iff_left_of_imp fun heach => ?_)
    -- the counts are taken without the messages
    rw [updateProgress_alike (hleft heach)]
    exact hupdate

/-- A batch whose messages the server would take as they are. -/
theorem submitResults_messages
    (hmessages : ∀ result ∈ batch.results, storable result.errorMessage = true)
    (hsilent : ((submitResults pg now (silentBatch batch)).exec s).1 = .ok ()) :
    ((submitResults pg now batch).exec s).1 = .ok () ↔
      (∃ job ∈ s.jobs.rows, pg.uuid batch.jobID = some job.id ∧ job.status = .stopped) ∨
        ∀ result ∈ batch.results, cutsBetween (text result.errorMessage) 1000 = true := by
  have htaken : (∀ result ∈ batch.results, Taken result) ↔
      ∀ result ∈ batch.results, cutsBetween (text result.errorMessage) 1000 = true :=
    forall₂_congr fun result hresult => textParameter_truncate (hmessages result hresult) 1000
  rw [submitResults_silent hsilent, htaken]

end Batch

/-! ## What shortening costs -/

/-- **A shortened text is a text just when its cut is between two characters**, and a message that the
server would take makes a write fail just when it is not.

What a write needs besides its message, it needs with an empty one too. -/
theorem shortened_iff {value : Bytes} (hvalid : Valid value) (limit : Nat) :
    (Shortens value limit (truncate value limit) ↔ cutsBetween value limit = true) ∧
      (Shortens value limit (Probe.truncate value limit) ↔ cutsBetween value limit = true) ∧
        (∀ (record : Record) (message : String), storable message = true →
          record.succeeds "" = true →
            (record.succeeds message = true ↔ cutsBetween (text message) record.limit = true)) ∧
          ∀ (pg : Postgres) (now : Timestamp) (s : ScanStore) (batch : ResultBatch),
            (∀ result ∈ batch.results, storable result.errorMessage = true) →
              ((submitResults pg now (silentBatch batch)).exec s).1 = .ok () →
                (((submitResults pg now batch).exec s).1 = .ok () ↔
                  (∃ job ∈ s.jobs.rows, pg.uuid batch.jobID = some job.id ∧
                      job.status = .stopped) ∨
                    ∀ result ∈ batch.results,
                      cutsBetween (text result.errorMessage) 1000 = true) := by
  have hshortens := truncate_iff hvalid limit
  refine ⟨hshortens, hshortens, ?_, ?_⟩
  · intro record message hmessage hempty
    exact Record.succeeds_iff hmessage hempty
  · intro pg now s batch hmessages hsilent
    exact submitResults_messages hmessages hsilent

/-! ### Messages in Chinese -/

/-- Three bytes each after the first. -/
def repeated (start : String) (n : Nat) : String := start ++ String.ofList (List.replicate n '中')

theorem storable_repeated {start : String} (h : storable start = true) (n : Nat) :
    storable (repeated start n) = true := by
  have hbody : (List.replicate n '中').all (fun c => decide (c ≠ Char.ofNat 0)) = true := by
    rw [List.all_replicate]
    cases n <;> rfl
  rw [storable, repeated, String.toList_append, String.toList_ofList, List.all_append, hbody,
    Bool.and_true]
  exact h

theorem length_repeated (start : String) (n : Nat) :
    (text (repeated start n)).length = (text start).length + 3 * n := by
  have hbody : (text (String.ofList (List.replicate n '中'))).length = 3 * n := by
    rw [text, String.toList_ofList, List.length_flatMap, List.map_replicate,
      List.sum_replicate_nat, show (encode '中').length = 3 by decide, Nat.mul_comm]
  rw [repeated, text_append, List.length_append, hbody]

theorem cutsBetween_repeated (start : String) (k n : Nat) :
    cutsBetween (text (repeated start (k + n))) ((text start).length + 3 * k) = true := by
  have hsplit : repeated start (k + n) =
      repeated start k ++ String.ofList (List.replicate n '中') := by
    rw [repeated, repeated, List.replicate_add, String.ofList_append, String.append_assoc]
  rw [hsplit, ← length_repeated]
  exact cutsBetween_append _ _

/-- A message of 1201 bytes; byte 1000 of it begins a character. -/
def wordyResult : ResultBatch :=
  { oneResult with results := [{ goodResult with errorMessage := repeated "a" 400 }] }

/-- Each message is longer than it may be, and cut where a character ends. -/
theorem shortened_repeated :
    Shortens (text (repeated "aa" 200)) 500 (Probe.truncate (text (repeated "aa" 200)) 500) ∧
      (Record.blacklistRecheckRun .empty 0 none).succeeds (repeated "aa" 700) = true ∧
        ((submitResults oneAddress 1 wordyResult).exec (replay oneAddress 0 claimedJob).store).1 =
          .ok () := by
  obtain ⟨-, hprobe, hrecord, hbatch⟩ := shortened_iff (valid_text (repeated "aa" 200)) 500
  refine ⟨hprobe.mpr (cutsBetween_repeated "aa" 166 34), ?_, ?_⟩
  · exact (hrecord _ (repeated "aa" 700) (storable_repeated (by decide) _) (by decide)).mpr
      (cutsBetween_repeated "aa" 666 34)
  · refine (hbatch oneAddress 1 _ wordyResult ?_ (by decide +kernel)).mpr (.inr ?_)
    · intro result hresult
      obtain rfl := List.mem_singleton.mp hresult
      exact storable_repeated (by decide) _
    · intro result hresult
      obtain rfl := List.mem_singleton.mp hresult
      exact cutsBetween_repeated "a" 333 67

/-! ### An answer in Chinese

The error of a list of prefixes that is answered with status 503, by 682 characters of three bytes
each. The last byte of the 655th is byte 2000 of the text. -/

def statusText : String := "fetch AS13335 prefixes: status 503: "

def statusError : String := statusText ++ String.ofList (List.replicate 682 '中')

theorem storable_statusError : storable statusError = true :=
  storable_repeated (by decide) 682

theorem getElem?_statusError : (text statusError)[2000]? = some 0xad := by
  have hbody : List.replicate 682 '中' = List.replicate 654 '中' ++ '中' :: List.replicate 27 '中' := by
    rw [← List.replicate_succ, ← List.replicate_add]
  have hstart : (text statusText ++ (List.replicate 654 '中').flatMap encode).length = 1998 := by
    rw [List.length_append, List.length_flatMap, List.map_replicate, List.sum_replicate]
    decide
  have htext : text statusError = (text statusText ++ (List.replicate 654 '中').flatMap encode) ++
      (encode '中' ++ (List.replicate 27 '中').flatMap encode) := by
    rw [statusError, text_append, hbody, text, text, String.toList_ofList, List.flatMap_append,
      List.flatMap_cons, List.append_assoc]
  rw [htext, List.getElem?_append_right (by omega), hstart]
  rfl

/-- The cut leaves no text, and the source keeps no error. -/
theorem statusError_refused :
    Valid (text statusError) ∧
      ¬ Shortens (text statusError) 2000 (truncate (text statusError) 2000) ∧
        storable statusError = true ∧
          (Record.asnError ⟨none, .initial 0⟩ 0 13335).succeeds "" = true ∧
            (Record.asnError ⟨none, .initial 0⟩ 0 13335).succeeds statusError = false := by
  have hcut : cutsBetween (text statusError) 2000 = false := by
    rw [cutsBetween, getElem?_statusError]
    decide
  have hempty : (Record.asnError ⟨none, .initial 0⟩ 0 13335).succeeds "" = true := by decide
  refine ⟨valid_text statusError, ?_, storable_statusError, hempty, ?_⟩
  · rw [truncate_iff (valid_text statusError), hcut]
    exact Bool.false_ne_true
  · rw [Bool.eq_false_iff, Ne, Record.succeeds_iff storable_statusError hempty]
    change ¬ cutsBetween (text statusError) 2000 = true
    rw [hcut]
    exact Bool.false_ne_true

end Cfscan.Errors
