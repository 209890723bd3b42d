import Cfscan.Enrollment.Handlers

/-!
# Requests that fail — `internal/api/enrollments.go`

What the handlers have checked is so of every row the requests have left (`Checked`): the requested
name and the labels of a pairing keep to their lengths, the labels until a claim replaces them, and
an enrollment that is approved has the approved name, region, continent and concurrency. So no later
request meets a `CHECK` of the schema or the end of a column's range.

`requests_answered`: what is left of `request failed` are texts with a NUL character, ids and tokens
that are taken, a connection that is lost, and one request that is none of these, a decision on an
enrollment that has been approved already.

## What this file does not say

* The sessions of administrators are not here (`Users`): the requests are those the check lets
  through.
* A claim is not measured. Its handler looks at the two ids and the secret, and the columns of the
  labels have no end, so an agent may be of an `os` of any length.
* A reply other than 500 is not described. Which of the refusals a request gets is in the handlers,
  and their texts are those of the source.
* `Failing` says what is so **when** a request fails; that each of its cases does make one fail is
  shown for the last only, the one that is no accident.
-/

set_option autoImplicit false

namespace Cfscan.Enrollment.Api

open Cfscan.Lib Cfscan.Store

/-! ## What a request can be refused for -/

/-- The texts a request has stored, as they are after the checks. -/
def Request.texts : Request → List String
  | .createDevice _ (.ok input) =>
    [input.trimmed.name, input.trimmed.os, input.trimmed.architecture, input.trimmed.version]
  | .createPreauthorized (.ok input) =>
    [trimSpace input.name, trimSpace input.region, trimSpace input.continent]
  | .approve _ (.ok input) => [trimSpace input.name, trimSpace input.region,
      trimSpace input.continent]
  | .approveByID _ (.ok input) => [trimSpace input.name, trimSpace input.region,
      trimSpace input.continent]
  | .claim (.ok input) => [trimSpace input.os, trimSpace input.architecture,
      trimSpace input.version]
  | _ => []

/-- The texts the server reads as uuids. -/
def Request.uuids : Request → List String
  | .approveByID param _ => [trimSpace param]
  | .rejectByID param => [trimSpace param]
  | .claim (.ok input) => [input.credentialID]
  | _ => []

def Request.creates : Request → Bool
  | .createDevice _ _ => true
  | .createPreauthorized _ => true
  | _ => false

/-- The credential id a claim brings along. -/
def Request.credentialID : Request → Option String
  | .claim (.ok input) => some input.credentialID
  | _ => none

/-- The enrollments a decision is addressed to. -/
def Request.names (pg : Postgres) (sha256 : String → Vector UInt8 32) (toLower : String → String)
    (row : EnrollmentRow) : Request → Prop
  | .approve param _ => row.tokenHash = hashSecret sha256 (normalizePairingToken toLower param)
  | .reject param => row.tokenHash = hashSecret sha256 (normalizePairingToken toLower param)
  | .approveByID param _ => pg.uuid (trimSpace param) = some row.id
  | .rejectByID param => pg.uuid (trimSpace param) = some row.id
  | _ => False

/-- Why a request is answered that it failed. -/
inductive Failing (pg : Postgres) (sha256 : String → Vector UInt8 32) (toLower : String → String)
    (s : EnrollmentStore) (visit : Visit) : Prop where
  /-- A text has a NUL character. -/
  | text (value : String) (hvalue : value ∈ visit.request.texts) (hrefused : storable value = false)
  | random (hcreates : visit.request.creates = true) (hbuffer : visit.buffer = none)
  /-- The new row has an id, or its token a hash, that is taken. -/
  | taken (hcreates : visit.request.creates = true) (buffer : Vector UInt8 16)
      (hbuffer : visit.buffer = some buffer)
      (htaken : s.enrollments.find? visit.id ≠ none ∨
        s.byToken (hashSecret sha256 (generateUUID buffer)) ≠ none)
  /-- The server does not read a text that looks like a uuid. -/
  | uuid (value : String) (hvalue : value ∈ visit.request.uuids)
      (hlooks : looksLikeUUID value = true) (hread : pg.uuid value = none)
  /-- Another agent has the credential id. -/
  | credential (value : String) (id : UUID) (hvalue : visit.request.credentialID = some value)
      (hread : pg.uuid value = some id) (htaken : s.credentials.find? id ≠ none)
  /-- The connection to the database is lost. -/
  | lost (hlost : visit.lost ≠ none)
  /-- The enrollment has been approved. -/
  | approved (row : EnrollmentRow) (hrow : row ∈ s.enrollments.rows)
      (hnamed : visit.request.names pg sha256 toLower row) (hstatus : row.status = .approved)
      (hterm : row.expiresAt > visit.now)

/-- What the requests keep of an enrollment. A claim replaces the labels by those the agent sends
then, which no handler measures. -/
structure Checked (row : EnrollmentRow) : Prop where
  texts : storable row.os = true ∧ storable row.architecture = true ∧ storable row.version = true
  requestedName : textLengthBetween row.requestedName 1 maxAgentNameLength = true
  labels : row.status ≠ .claimed → ∀ value ∈ [row.os, row.architecture, row.version],
    textLengthBetween value 0 maxAgentLabelLength = true
  requestedConcurrency :
    1 ≤ row.requestedConcurrency ∧ row.requestedConcurrency ≤ maxAgentConcurrency
  concurrency : 1 ≤ row.concurrency ∧ row.concurrency ≤ maxAgentConcurrency
  admitted : row.status = .approved ∨ row.status = .claimed →
    validApprovedAgent row.name row.region row.continent row.concurrency = true
  unrevoked : row.status ≠ .revoked

structure AllChecked (s : EnrollmentStore) : Prop where
  enrollment : ∀ row ∈ s.enrollments.rows, Checked row
  agent : ∀ agent ∈ s.agents.rows,
    validApprovedAgent agent.name agent.region agent.continent agent.concurrency = true

/-! ## Errors of the store

Each call of the store, inverted on its errors. Where a row has been checked the bounds of
its columns cannot be missed, so what is left of a failed claim is a text, an id, or an
agent or a credential that is there already. -/

section Store

variable {pg : Postgres} {s : EnrollmentStore} {now centerNow : Timestamp} {error : StoreError}

/-- A decision fails where it is addressed to an enrollment that is approved. -/
theorem updatePending_failed {context : String} {named : EnrollmentRow → Bool}
    {set : EnrollmentRow → EnrollmentRow} {hset : ∀ row, (set row).id = row.id}
    (hchecked : AllChecked s)
    (h : updatePending s now context named none set hset = .error error)
    (hstatus : (writeEnrollmentAdminError error).status = 500) :
    ∃ row ∈ s.enrollments.rows, named row = true ∧ row.status = .approved ∧
      row.expiresAt > now := by
  unfold updatePending at h
  split at h
  · cases h
  rename_i hclosed
  split at h
  · cases h
    exact absurd hstatus (by decide)
  rename_i row hfound
  have hrow := List.mem_of_find?_eq_some hfound
  have hnamed := List.find?_some hfound
  obtain rfl := Except.error.inj h
  cases hcase : row.status with
  | pending =>
    have hopen := List.find?_eq_none.mp hclosed row hrow
    simp only [hnamed, EnrollmentRow.openAt, hcase, decide_true, Bool.true_and,
      decide_eq_true_eq, gt_iff_lt] at hopen
    rw [shownStatus, if_pos ⟨Or.inl hcase, Int.not_lt.mp hopen⟩] at hstatus
    exact absurd hstatus (by decide)
  | approved =>
    by_cases hterm : row.expiresAt ≤ now
    · rw [shownStatus, if_pos ⟨Or.inr hcase, hterm⟩] at hstatus
      exact absurd hstatus (by decide)
    · exact ⟨row, hrow, hnamed, hcase, Int.not_le.mp hterm⟩
  | claimed =>
    rw [shownStatus, if_neg (by simp [hcase]), hcase] at hstatus
    exact absurd hstatus (by decide)
  | rejected =>
    rw [shownStatus, if_neg (by simp [hcase]), hcase] at hstatus
    exact absurd hstatus (by decide)
  | revoked => exact absurd hcase (hchecked.enrollment row hrow).unrevoked

/-- What the agent says of itself is stored, or it says something that is not. -/
theorem storable_claimText {requested stored : String}
    (hrequested : storable (trimSpace requested) = true) (hstored : storable stored = true) :
    storable (claimText requested stored) = true := by
  unfold claimText
  split
  · exact hrequested
  · exact hstored

/-- The first claim of an enrollment that was checked. -/
theorem finishClaim_failed {pollInterval : Int} {row : EnrollmentRow} {input : ClaimInput}
    {agentID : UUID} (hrow : Checked row) (hhash : storable input.credentialHash = true)
    (h : finishClaim pg s now row input (claimedAgent row input agentID now) = .error error)
    (hstatus : (claimError pollInterval error).status = 500) :
    (∃ value ∈ [trimSpace input.osName, trimSpace input.architecture, trimSpace input.version],
      storable value = false) ∨ pg.uuid input.credentialID = none ∨
      ∃ id, pg.uuid input.credentialID = some id ∧ s.credentials.find? id ≠ none := by
  unfold finishClaim at h
  split at h
  · rename_i hrefused
    refine Or.inl (by_contra fun hnone => ?_)
    have hall : ∀ value ∈ [trimSpace input.osName, trimSpace input.architecture,
        trimSpace input.version], storable value = true :=
      fun value hvalue => by_contra fun hfalse =>
        hnone ⟨value, hvalue, eq_false_of_ne_true hfalse⟩
    have hos : storable (claimText input.osName row.os) = true :=
      storable_claimText (hall _ (by simp)) hrow.texts.1
    have harchitecture : storable (claimText input.architecture row.architecture) = true :=
      storable_claimText (hall _ (by simp)) hrow.texts.2.1
    have hversion : storable (claimText input.version row.version) = true :=
      storable_claimText (hall _ (by simp)) hrow.texts.2.2
    simp [AgentRow.storable, claimedAgent, hos, harchitecture, hversion] at hrefused
  split at h
  · rename_i hcheck
    have hconcurrency := hrow.concurrency.1
    exact absurd (show row.concurrency > 0 by omega) hcheck
  split at h
  · cases h
    simp [claimError, ClaimReply.status] at hstatus
  split at h
  · rename_i hnone
    exact Or.inr (Or.inl hnone)
  rename_i id huuid
  split at h
  · rename_i hrefused
    rw [hhash] at hrefused
    cases hrefused
  split at h
  · rename_i htaken
    exact Or.inr (Or.inr ⟨id, huuid, htaken⟩)
  · cases h

theorem claimAgentEnrollment_failed {pollInterval : Int} {tokenHash : String} {input : ClaimInput}
    {agentID : UUID} (hchecked : AllChecked s)
    (h : Enrollment.claimAgentEnrollment pg s now centerNow agentID tokenHash input =
      .error error)
    (hstatus : (claimError pollInterval error).status = 500)
    (htoken : storable tokenHash = true) (hhash : storable input.credentialHash = true) :
    (∃ value ∈ [trimSpace input.osName, trimSpace input.architecture, trimSpace input.version],
      storable value = false) ∨ pg.uuid input.credentialID = none ∨
      ∃ id, pg.uuid input.credentialID = some id ∧ s.credentials.find? id ≠ none := by
  have hanswered : ∀ e : StoreError, (claimError pollInterval e).status ≠ 500 →
      Except.error e = (.error error : Except StoreError (AgentEnrollment × EnrollmentStore)) →
      False := by
    intro e hne heq
    obtain rfl := Except.error.inj heq
    exact hne hstatus
  unfold Enrollment.claimAgentEnrollment at h
  rw [if_neg (by simp [htoken])] at h
  split at h
  · exact (hanswered _ (by simp [claimError, ClaimReply.status]) h).elim
  -- what follows is answered with another status, up to the claim of an approved row
  rename_i row hrow
  dsimp only at h
  split at h
  · split at h
    · split at h
      · cases h
      · exact (hanswered _ (by simp [claimError, ClaimReply.status]) h).elim
    · exact (hanswered _ (by simp [claimError, ClaimReply.status]) h).elim
  rename_i hclaimed
  split at h
  · exact (hanswered _ (by simp [claimError, ClaimReply.status]) h).elim
  rename_i hexpired
  split at h
  · exact (hanswered _ (by simp [claimError, ClaimReply.status]) h).elim
  rename_i hpending
  split at h
  · exact (hanswered _ (by simp [claimError, ClaimReply.status]) h).elim
  rename_i hrejected
  split at h
  · exact (hanswered _ (by simp [claimError, ClaimReply.status]) h).elim
  rename_i hrevoked
  split at h
  · rename_i happroved
    cases hcase : shownStatus now row with
    | expired => exact absurd (Or.inl hcase) hexpired
    | stored status =>
      cases status with
      | pending => exact absurd hcase hpending
      | approved => exact absurd hcase happroved
      | claimed => exact absurd hcase hclaimed
      | rejected => exact absurd hcase hrejected
      | revoked => exact absurd hcase hrevoked
  · exact finishClaim_failed (hchecked.enrollment row (byToken_mem hrow).1) hhash h hstatus

end Store

/-! ## What the requests leave

`AllChecked` through each handler. A creation adds a row the handler has checked, a decision
rewrites pending rows with what the approval checked, a claim gives its agent what the row
has. A lost connection leaves either the store of before or the one the call made. -/

section Kept

variable {pg : Postgres} {sha256 : String → Vector UInt8 32} {toLower : String → String}
  {config : AgentEnrollmentConfig} {s s' : EnrollmentStore} {visit : Visit} {now : Timestamp}
  {item : AgentEnrollment}

theorem allChecked_empty : AllChecked .empty :=
  ⟨fun _ hrow => absurd hrow List.not_mem_nil, fun _ hagent => absurd hagent List.not_mem_nil⟩

theorem AllChecked.put (h : AllChecked s) {row : EnrollmentRow} (hrow : Checked row) :
    AllChecked { s with enrollments := s.enrollments.put row } := by
  refine ⟨fun other hother => ?_, h.agent⟩
  rcases Table.mem_put.mp hother with rfl | ⟨hold, -⟩
  · exact hrow
  · exact h.enrollment other hold

theorem AllChecked.decided (h : AllChecked s) {context : String} {named : EnrollmentRow → Bool}
    {refusal : Option DbError} {set : EnrollmentRow → EnrollmentRow}
    {hset : ∀ row, (set row).id = row.id}
    (hkeeps : ∀ row, row.status = .pending → Checked row → Checked (set row))
    (hok : updatePending s now context named refusal set hset = .ok (item, s')) :
    AllChecked s' := by
  obtain ⟨_, _, _, _, _, rfl⟩ := updatePending_ok hok
  refine ⟨fun row hrow => ?_, h.agent⟩
  change row ∈ (s.enrollments.updateWhere (fun row => named row && row.openAt now) set hset).rows
    at hrow
  obtain ⟨old, hold, rfl⟩ := Table.mem_updateWhere.mp hrow
  split
  next hreached =>
    simp only [Bool.and_eq_true, EnrollmentRow.openAt, decide_eq_true_eq] at hreached
    exact hkeeps old hreached.2.1 (h.enrollment old hold)
  next => exact h.enrollment old hold

/-- A lost connection keeps what the call keeps, or what was there. -/
theorem AllChecked.called (h : AllChecked s) {result : Reply × EnrollmentStore}
    (hresult : AllChecked result.2) : AllChecked (visit.called s result).2 := by
  unfold Visit.called
  split
  · exact hresult
  · exact h
  · exact hresult

theorem checked_approve {input : ApproveAgentEnrollmentRequest}
    (hvalid : validApprovedAgent input.name input.region input.continent input.concurrency = true)
    (row : EnrollmentRow) (hpending : row.status = .pending) (h : Checked row) :
    Checked (row.approve input now) where
  texts := h.texts
  requestedName := h.requestedName
  labels := fun _ => h.labels (by simp [hpending])
  requestedConcurrency := h.requestedConcurrency
  concurrency := concurrency_of_valid hvalid
  admitted := fun _ => hvalid
  unrevoked := by simp [EnrollmentRow.approve]

theorem checked_reject (row : EnrollmentRow) (hpending : row.status = .pending) (h : Checked row) :
    Checked (row.reject now) where
  texts := h.texts
  requestedName := h.requestedName
  labels := fun _ => h.labels (by simp [hpending])
  requestedConcurrency := h.requestedConcurrency
  concurrency := h.concurrency
  admitted := by simp [EnrollmentRow.reject]
  unrevoked := by simp [EnrollmentRow.reject]

theorem AllChecked.claimed (h : AllChecked s) {centerNow : Timestamp} {agentID : UUID}
    {tokenHash : String} {input : ClaimInput}
    (hok : Enrollment.claimAgentEnrollment pg s now centerNow agentID tokenHash input =
      .ok (item, s')) : AllChecked s' := by
  obtain ⟨row, hrow, ⟨-, -, rfl⟩ | ⟨hstatus, -, -, hfinish⟩⟩ := claimAgentEnrollment_ok hok
  · exact h
  have hchecked := h.enrollment row (byToken_mem hrow).1
  have hvalid := hchecked.admitted (Or.inl hstatus)
  have htexts : (claimedAgent row input agentID now).storable = true := by
    by_contra hrefused
    rw [finishClaim, if_pos (eq_false_of_ne_true hrefused)] at hfinish
    cases hfinish
  simp only [AgentRow.storable, List.all_cons, List.all_nil, Bool.and_true,
    Bool.and_eq_true] at htexts
  obtain ⟨credentialID, -, -, -, -, rfl⟩ := finishClaim_ok hfinish
  refine ⟨(h.put ?_).enrollment, fun agent hagent => ?_⟩
  · exact
      { texts := htexts
        requestedName := hchecked.requestedName
        labels := fun hclaimed => absurd rfl hclaimed
        requestedConcurrency := hchecked.requestedConcurrency
        concurrency := hchecked.concurrency
        admitted := fun _ => hvalid
        unrevoked := by simp [EnrollmentRow.claim] }
  · rcases Table.mem_put.mp hagent with rfl | ⟨hold, -⟩
    · exact hvalid
    · exact h.agent agent hold

theorem AllChecked.createDevice (h : AllChecked s) (limited : Option Int)
    (body : Except String CreateDeviceEnrollmentRequest) :
    AllChecked (createDeviceEnrollment sha256 config s visit limited body).2 := by
  unfold createDeviceEnrollment
  split
  · exact h
  · exact h
  dsimp only
  split
  · exact h
  rename_i hvalid
  have hvalid := eq_true_of_ne_false hvalid
  split
  · exact h
  refine h.called ?_
  split
  · exact h
  · rename_i hok
    have htexts := storable_of_created hok
    obtain ⟨-, -, -, -, rfl⟩ := createAgentEnrollment_ok hok
    exact h.put
      { texts := htexts
        requestedName := (lengths_of_device hvalid).1
        labels := fun _ => (lengths_of_device hvalid).2
        requestedConcurrency := concurrency_of_device hvalid
        concurrency := concurrency_of_device hvalid
        admitted := by simp [CreateAgentEnrollment.row, deviceEnrollment]
        unrevoked := by simp [CreateAgentEnrollment.row, deviceEnrollment] }

theorem AllChecked.createPreauthorized (h : AllChecked s)
    (body : Except String CreatePreauthorizedEnrollmentRequest) :
    AllChecked (createPreauthorizedEnrollment sha256 s visit body).2 := by
  unfold createPreauthorizedEnrollment
  split
  · exact h
  dsimp only
  split
  · exact h
  rename_i hvalid
  have hvalid := eq_true_of_ne_false hvalid
  split
  · exact h
  split
  · exact h
  refine h.called ?_
  split
  · exact h
  · rename_i hok
    have htexts := storable_of_created hok
    obtain ⟨-, -, -, -, rfl⟩ := createAgentEnrollment_ok hok
    exact h.put
      { texts := htexts
        requestedName := name_of_valid hvalid
        labels := by simp [CreateAgentEnrollment.row, preauthorizedEnrollment, textLengthBetween]
        requestedConcurrency := concurrency_of_valid hvalid
        concurrency := concurrency_of_valid hvalid
        admitted := fun _ => hvalid
        unrevoked := by simp [CreateAgentEnrollment.row, preauthorizedEnrollment] }

end Kept

/-! ## Decisions

The four decisions differ in how they name a row and in what they write. `Decision` is what
they have in common: answered in front of the store, refused for a text or a cast, or a call
of `updatePending`, whose failures and rows need to be looked at only once. -/

/-- How a decision goes: it is answered in front of the store, the store refuses it, or it updates
the pending enrollments it names. -/
inductive Decision (pg : Postgres) (sha256 : String → Vector UInt8 32) (toLower : String → String)
    (s : EnrollmentStore) (visit : Visit) : Reply × EnrollmentStore → Prop where
  | answered (reply : Reply) (hstatus : reply.status ≠ 500) :
    Decision pg sha256 toLower s visit (reply, s)
  | failed (hfailing : Failing pg sha256 toLower s visit) :
    Decision pg sha256 toLower s visit (visit.called s (internalError, s))
  | updated (context : String) (named : EnrollmentRow → Bool)
    (set : EnrollmentRow → EnrollmentRow) (hset : ∀ row, (set row).id = row.id)
    (hkeeps : ∀ row, row.status = .pending → Checked row → Checked (set row))
    (hnames : ∀ row, named row = true → visit.request.names pg sha256 toLower row) :
    Decision pg sha256 toLower s visit
      (visit.called s (decided s (updatePending s visit.now context named none set hset)))

section Decisions

variable {pg : Postgres} {sha256 : String → Vector UInt8 32} {toLower : String → String}
  {s : EnrollmentStore} {visit : Visit} {result : Reply × EnrollmentStore}

/-- Of a call that fails, the connection was lost or the call itself has failed. -/
theorem failing_called (hresult : result.1.status = 500 → Failing pg sha256 toLower s visit)
    (hstatus : (visit.called s result).1.status = 500) : Failing pg sha256 toLower s visit := by
  cases hlost : visit.lost with
  | none =>
    rw [Visit.called, hlost] at hstatus
    exact hresult hstatus
  | some loss => exact .lost (by simp [hlost])

theorem Decision.kept (h : Decision pg sha256 toLower s visit result) (hchecked : AllChecked s) :
    AllChecked result.2 := by
  cases h with
  | answered _ _ => exact hchecked
  | failed _ => exact hchecked.called hchecked
  | updated context named set hset hkeeps _ =>
    refine hchecked.called ?_
    unfold decided
    split
    · exact hchecked
    · rename_i hok
      exact hchecked.decided hkeeps hok

theorem Decision.failing (h : Decision pg sha256 toLower s visit result)
    (hchecked : AllChecked s) (hstatus : result.1.status = 500) :
    Failing pg sha256 toLower s visit := by
  cases h with
  | answered _ hanswered => exact absurd hstatus hanswered
  | failed hfailing => exact hfailing
  | updated context named set hset _ hnames =>
    refine failing_called (fun hstatus => ?_) hstatus
    unfold decided at hstatus
    split at hstatus
    · rename_i herror
      obtain ⟨row, hrow, hnamed, happroved, hterm⟩ := updatePending_failed hchecked herror hstatus
      exact .approved row hrow (hnames row hnamed) happroved hterm
    · exact absurd hstatus (by simp [Reply.status])

/-- An approval that passed the checks, in front of the store. -/
theorem approval_accepted {input : ApproveAgentEnrollmentRequest}
    (hvalid : validApprovedAgent input.name input.region input.continent input.concurrency = true) :
    input.refusal = none ∧ (input.storable = false →
      ∃ value ∈ [input.name, input.region, input.continent], storable value = false) := by
  have hbounds := concurrency_of_valid hvalid
  refine ⟨if_pos (by omega), fun h => exists_refused ?_⟩
  rwa [ApproveAgentEnrollmentRequest.storable, int4_of_concurrency hbounds, Bool.and_true] at h

theorem approve_decision {param : String} {body : Except String ApproveAgentEnrollmentRequest}
    (hrequest : visit.request = .approve param body) :
    Decision pg sha256 toLower s visit
      (approveAgentEnrollment sha256 toLower s visit param body) := by
  unfold approveAgentEnrollment
  dsimp only
  split
  · exact .answered _ (by decide)
  split
  · rename_i hbody
    exact .answered _ (by rw [decodeEnrollmentApproval_error hbody]; decide)
  rename_i input hbody
  obtain ⟨raw, rfl, rfl, hvalid⟩ := decodeEnrollmentApproval_ok hbody
  obtain ⟨hrefusal, htexts⟩ := approval_accepted hvalid
  unfold Enrollment.approveAgentEnrollment
  dsimp only
  rw [storable_hashSecret, Bool.true_and, hrefusal]
  split
  · rename_i hrefused
    obtain ⟨value, hvalue, hrefused⟩ := htexts hrefused
    exact .failed (.text value (by rw [hrequest]; exact hvalue) hrefused)
  · refine .updated _ _ _ _ (checked_approve hvalid) fun row hnamed => ?_
    rw [hrequest]
    show row.tokenHash = hashSecret sha256 (normalizePairingToken toLower param)
    exact of_decide_eq_true hnamed

theorem approveByID_decision {param : String}
    {body : Except String ApproveAgentEnrollmentRequest}
    (hrequest : visit.request = .approveByID param body) :
    Decision pg sha256 toLower s visit (approveAgentEnrollmentByID pg s visit param body) := by
  unfold approveAgentEnrollmentByID
  dsimp only
  split
  · exact .answered _ (by decide)
  rename_i hlooks
  split
  · rename_i hbody
    exact .answered _ (by rw [decodeEnrollmentApproval_error hbody]; decide)
  rename_i input hbody
  obtain ⟨raw, rfl, rfl, hvalid⟩ := decodeEnrollmentApproval_ok hbody
  obtain ⟨hrefusal, htexts⟩ := approval_accepted hvalid
  unfold Enrollment.approveAgentEnrollmentByID
  dsimp only
  split
  · rename_i hread
    exact .failed (.uuid (trimSpace param) (by rw [hrequest]; exact List.mem_singleton_self _)
      (eq_true_of_ne_false hlooks) hread)
  rename_i id hread
  rw [hrefusal]
  split
  · rename_i hrefused
    obtain ⟨value, hvalue, hrefused⟩ := htexts hrefused
    exact .failed (.text value (by rw [hrequest]; exact hvalue) hrefused)
  · refine .updated _ _ _ _ (checked_approve hvalid) fun row hnamed => ?_
    rw [hrequest]
    exact hread.trans (congrArg some (of_decide_eq_true hnamed).symm)

theorem reject_decision {param : String} (hrequest : visit.request = .reject param) :
    Decision pg sha256 toLower s visit (rejectAgentEnrollment sha256 toLower s visit param) := by
  unfold rejectAgentEnrollment
  dsimp only
  split
  · exact .answered _ (by decide)
  unfold Enrollment.rejectAgentEnrollment
  dsimp only
  rw [storable_hashSecret, if_neg (by decide)]
  refine .updated _ _ _ _ checked_reject fun row hnamed => ?_
  rw [hrequest]
  show row.tokenHash = hashSecret sha256 (normalizePairingToken toLower param)
  exact of_decide_eq_true hnamed

theorem rejectByID_decision {param : String} (hrequest : visit.request = .rejectByID param) :
    Decision pg sha256 toLower s visit (rejectAgentEnrollmentByID pg s visit param) := by
  unfold rejectAgentEnrollmentByID
  dsimp only
  split
  · exact .answered _ (by decide)
  rename_i hlooks
  unfold Enrollment.rejectAgentEnrollmentByID
  dsimp only
  split
  · rename_i hread
    exact .failed (.uuid (trimSpace param) (by rw [hrequest]; exact List.mem_singleton_self _)
      (eq_true_of_ne_false hlooks) hread)
  · rename_i id hread
    refine .updated _ _ _ _ checked_reject fun row hnamed => ?_
    rw [hrequest]
    exact hread.trans (congrArg some (of_decide_eq_true hnamed).symm)

end Decisions

/-! ## Runs -/

section Runs

variable {pg : Postgres} {sha256 : String → Vector UInt8 32} {toLower : String → String}
  {config : AgentEnrollmentConfig} {s : EnrollmentStore}

theorem AllChecked.claim (h : AllChecked s) {pollInterval : Int} (outside : Outside)
    (input : ClaimAgentEnrollmentRequest) :
    AllChecked (claimAgentEnrollment pg sha256 pollInterval outside s input).2 := by
  unfold claimAgentEnrollment
  dsimp only
  split
  · exact h
  split
  · exact h
  · rename_i hok
    exact h.claimed hok

theorem AllChecked.handle (h : AllChecked s) (visit : Visit) :
    AllChecked (handle pg sha256 toLower config s visit).2 := by
  cases hrequest : visit.request with
  | createDevice limited body =>
    rw [Api.handle, hrequest]
    exact h.createDevice limited body
  | createPreauthorized body =>
    rw [Api.handle, hrequest]
    exact h.createPreauthorized body
  | approve param body =>
    rw [Api.handle, hrequest]
    have hdecision : Decision pg sha256 toLower s visit _ := approve_decision hrequest
    exact hdecision.kept h
  | approveByID param body =>
    rw [Api.handle, hrequest]
    have hdecision : Decision pg sha256 toLower s visit _ := approveByID_decision hrequest
    exact hdecision.kept h
  | reject param =>
    rw [Api.handle, hrequest]
    have hdecision : Decision pg sha256 toLower s visit _ := reject_decision hrequest
    exact hdecision.kept h
  | rejectByID param =>
    rw [Api.handle, hrequest]
    have hdecision : Decision pg sha256 toLower s visit _ := rejectByID_decision hrequest
    exact hdecision.kept h
  | claim body =>
    rw [Api.handle, hrequest]
    cases body with
    | error message => exact h
    | ok input =>
      dsimp only
      have hclaim := @AllChecked.claim pg sha256 s h config.pollInterval
        ⟨visit.now, visit.centerNow, visit.id⟩ input
      split
      · exact hclaim
      · exact h.called hclaim

theorem AllChecked.play (visits : List Visit) :
    AllChecked (play pg sha256 toLower config visits) := by
  induction visits using List.reverseRecOn with
  | nil => exact allChecked_empty
  | append_singleton visits visit ih =>
    rw [Api.play, List.foldl_concat]
    exact ih.handle visit

end Runs

/-! ## What is left of `request failed` -/

section Failing

variable {pg : Postgres} {sha256 : String → Vector UInt8 32} {toLower : String → String}
  {config : AgentEnrollmentConfig} {s : EnrollmentStore} {visit : Visit}

theorem failing_createDevice {limited : Option Int}
    {body : Except String CreateDeviceEnrollmentRequest}
    (hrequest : visit.request = .createDevice limited body)
    (hstatus : (createDeviceEnrollment sha256 config s visit limited body).1.status = 500) :
    Failing pg sha256 toLower s visit := by
  unfold createDeviceEnrollment at hstatus
  split at hstatus
  · exact absurd hstatus (by simp [Reply.status])
  · exact absurd hstatus (by simp [Reply.status])
  rename_i input
  dsimp only at hstatus
  split at hstatus
  · exact absurd hstatus (by simp [Reply.status])
  rename_i hvalid
  have hbounds := concurrency_of_device (eq_true_of_ne_false hvalid)
  split at hstatus
  · rename_i hnone
    exact .random (by rw [hrequest]; rfl) hnone
  rename_i buffer hbuffer
  refine failing_called (fun hstatus => ?_) hstatus
  split at hstatus
  · rename_i herror
    rcases createAgentEnrollment_error herror (storable_hashSecret sha256 _) hbounds hbounds with
      ⟨value, hvalue, hrefused⟩ | htaken
    · refine .text value ?_ hrefused
      rw [hrequest]
      simp only [deviceEnrollment, List.mem_cons, List.not_mem_nil, or_false] at hvalue
      rcases hvalue with rfl | rfl | rfl | rfl | rfl | rfl | rfl
      all_goals first | exact absurd hrefused (by decide) | simp [Request.texts]
    · exact .taken (by rw [hrequest]; rfl) buffer hbuffer htaken
  · exact absurd hstatus (by simp [Reply.status])

theorem failing_createPreauthorized {body : Except String CreatePreauthorizedEnrollmentRequest}
    (hrequest : visit.request = .createPreauthorized body)
    (hstatus : (createPreauthorizedEnrollment sha256 s visit body).1.status = 500) :
    Failing pg sha256 toLower s visit := by
  unfold createPreauthorizedEnrollment at hstatus
  split at hstatus
  · exact absurd hstatus (by simp [Reply.status])
  rename_i input
  dsimp only at hstatus
  split at hstatus
  · exact absurd hstatus (by simp [Reply.status, invalidAgent])
  rename_i hvalid
  have hbounds := concurrency_of_valid (eq_true_of_ne_false hvalid)
  split at hstatus
  · exact absurd hstatus (by simp [Reply.status])
  split at hstatus
  · rename_i hnone
    exact .random (by rw [hrequest]; rfl) hnone
  rename_i buffer hbuffer
  refine failing_called (fun hstatus => ?_) hstatus
  split at hstatus
  · rename_i herror
    rcases createAgentEnrollment_error herror (storable_hashSecret sha256 _) hbounds hbounds with
      ⟨value, hvalue, hrefused⟩ | htaken
    · refine .text value ?_ hrefused
      rw [hrequest]
      simp only [preauthorizedEnrollment, List.mem_cons, List.not_mem_nil, or_false] at hvalue
      rcases hvalue with rfl | rfl | rfl | rfl | rfl | rfl | rfl
      all_goals first | exact absurd hrefused (by decide) | simp [Request.texts, trimApproval]
    · exact .taken (by rw [hrequest]; rfl) buffer hbuffer htaken
  · exact absurd hstatus (by simp [Reply.status])

theorem failing_claim (hchecked : AllChecked s) {input : ClaimAgentEnrollmentRequest}
    (hrequest : visit.request = .claim (.ok input))
    (hstatus : (claimAgentEnrollment pg sha256 config.pollInterval
      ⟨visit.now, visit.centerNow, visit.id⟩ s input).1.status = 500) :
    Failing pg sha256 toLower s visit := by
  unfold claimAgentEnrollment at hstatus
  dsimp only at hstatus
  split at hstatus
  · exact absurd hstatus (by simp [ClaimReply.status])
  rename_i hlooks
  simp only [not_or, Bool.not_eq_false] at hlooks
  have hmem : input.credentialID ∈ visit.request.uuids := by
    rw [hrequest]
    exact List.mem_singleton_self _
  split at hstatus
  · rename_i herror
    rcases claimAgentEnrollment_failed hchecked herror hstatus (storable_hashSecret sha256 _)
        (storable_hashSecret sha256 _) with
      ⟨value, hvalue, hrefused⟩ | hread | ⟨id, hread, htaken⟩
    · exact .text value (by rw [hrequest]; exact hvalue) hrefused
    · exact .uuid input.credentialID hmem hlooks.2.1 hread
    · exact .credential input.credentialID id (by rw [hrequest]; rfl) hread htaken
  · exact absurd hstatus (by simp [ClaimReply.status])

end Failing

/-- **Requests are answered.** In whatever state requests have left the store, all it holds has
passed the checks, every agent those of an approval; and a request that is answered
`request failed` is `Failing`. -/
theorem requests_answered (pg : Postgres) (sha256 : String → Vector UInt8 32)
    (toLower : String → String) (config : AgentEnrollmentConfig) (visits : List Visit) :
    AllChecked (play pg sha256 toLower config visits) ∧
      ∀ visit, (handle pg sha256 toLower config (play pg sha256 toLower config visits)
        visit).1.status = 500 →
          Failing pg sha256 toLower (play pg sha256 toLower config visits) visit := by
  have hchecked : AllChecked (play pg sha256 toLower config visits) := AllChecked.play visits
  refine ⟨hchecked, fun visit hstatus => ?_⟩
  cases hrequest : visit.request with
  | createDevice limited body =>
    rw [handle, hrequest] at hstatus
    exact failing_createDevice hrequest hstatus
  | createPreauthorized body =>
    rw [handle, hrequest] at hstatus
    exact failing_createPreauthorized hrequest hstatus
  | approve param body =>
    rw [handle, hrequest] at hstatus
    exact (approve_decision hrequest).failing hchecked hstatus
  | approveByID param body =>
    rw [handle, hrequest] at hstatus
    exact (approveByID_decision hrequest).failing hchecked hstatus
  | reject param =>
    rw [handle, hrequest] at hstatus
    exact (reject_decision hrequest).failing hchecked hstatus
  | rejectByID param =>
    rw [handle, hrequest] at hstatus
    exact (rejectByID_decision hrequest).failing hchecked hstatus
  | claim body =>
    rw [handle, hrequest] at hstatus
    cases body with
    | error message => exact absurd hstatus (by simp [Reply.status])
    | ok input =>
      dsimp only at hstatus
      split at hstatus
      next hrefused =>
        rw [Reply.status, hrefused] at hstatus
        cases hstatus
      next =>
        refine failing_called (fun hfailed => ?_) hstatus
        exact failing_claim hchecked hrequest hfailed

/-! ## Approved twice

The second approval hits no row, and the state that is read back has no error of its own, so
that the handler falls through to `request failed`. One pairing and two approvals do it. -/

def oneApproval (now : Timestamp) : Visit where
  request := .approve " 00000000-0000-4000-8000-000000000000"
    (.ok { name := "edge", region := "fra", continent := "EU", concurrency := 4 })
  now := now
  centerNow := now
  id := 2
  buffer := none

/-- A device asks to be paired, and is approved. -/
def onePairing : List Visit :=
  [{ request := .createDevice none
      (.ok { name := "edge", os := "linux", architecture := "amd64", version := "2"
             concurrency := 4 })
     now := 0, centerNow := 0, id := 1, buffer := some (.replicate 16 0) },
    oneApproval 1]

def noUUIDs : Postgres := .withoutAddresses fun _ => none

def zeroDigest : String → Vector UInt8 32 := fun _ => .replicate 32 0

def tenMinutes : AgentEnrollmentConfig := ⟨"https://cfscan.test/", 600, 3⟩

theorem requests_answered_approvedTwice :
    (handle noUUIDs zeroDigest id tenMinutes (play noUUIDs zeroDigest id tenMinutes onePairing)
      (oneApproval 2)).1.status = 500 ∧
      Failing noUUIDs zeroDigest id (play noUUIDs zeroDigest id tenMinutes onePairing)
        (oneApproval 2) := by
  have hstatus : (handle noUUIDs zeroDigest id tenMinutes
      (play noUUIDs zeroDigest id tenMinutes onePairing) (oneApproval 2)).1.status = 500 := by
    decide +kernel
  exact ⟨hstatus,
    (requests_answered noUUIDs zeroDigest id tenMinutes onePairing).2 (oneApproval 2) hstatus⟩

end Cfscan.Enrollment.Api
