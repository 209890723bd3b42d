import Cfscan.Enrollment.Lifecycle
import Cfscan.Enrollment.Token

/-!
# The agent's side of the API — `internal/api/enrollments.go`, `requireAgentToken`

The claim endpoint in front of the store, with the status, code and message of every answer, and
the check an agent's token goes through on each later request.

Two facts are used of the endpoint. What it says is true: a token of a credential the store holds is
taken for the agent of that credential, at any time (`Holds.authenticates`), and an agent has one
credential (`Holds.unique`). Nothing here revokes a credential; the schema has a column for it and
the code no call.

A header is read as the code reads it: `Bearer ` is cut off where it is there, and what is left is
parsed. So a header without it is a token too.
-/

set_option autoImplicit false

namespace Cfscan.Enrollment

open Cfscan.Lib Cfscan.Store

namespace Api

/-! ## Claiming

The states of an enrollment as the waiting agent learns them: 202 while nothing is decided,
200 with the agent's id once it is claimed, and an error with a code of its own for each
state that will not change any more. -/

structure ClaimAgentEnrollmentRequest where
  pairingToken : String
  credentialID : String
  credentialSecret : String
  os : String
  architecture : String
  version : String
deriving DecidableEq, Repr

/-- An `agent_id` that is left out is `none`. -/
structure ClaimAgentEnrollmentResponse where
  status : EnrollmentStatus
  agentID : Option UUID
  name : String
  concurrency : Int
  interval : Int
deriving DecidableEq, Repr

/-- `writeJSON` with a status, or `writeError`. -/
inductive ClaimReply where
  | json (status : Nat) (body : ClaimAgentEnrollmentResponse)
  | error (status : Nat) (code message : String)
deriving DecidableEq, Repr

/-- What a claim request meets: the clocks of the database and of the center, and the uuid a new
agent gets. -/
structure Outside where
  now : Timestamp
  centerNow : Timestamp
  agentID : UUID
deriving Repr

def claimError (pollInterval : Int) : StoreError → ClaimReply
  | .enrollmentPending =>
    .json 202
      { status := .stored .pending, agentID := none, name := "", concurrency := 0
        interval := max pollInterval 1 }
  | .enrollmentExpired => .error 410 "enrollment_expired" "this pairing request has expired"
  | .enrollmentRejected => .error 403 "enrollment_rejected" "this pairing request was rejected"
  | .enrollmentRevoked => .error 410 "enrollment_revoked" "this pairing request was revoked"
  | .enrollmentClaimed => .error 409 "enrollment_claimed" "this pairing request was already used"
  | .enrollmentConflict =>
    .error 409 "agent_name_conflict" "an Agent with this name already exists"
  | .notFound => .error 404 "enrollment_not_found" "pairing request not found"
  | _ => .error 500 "internal_error" "request failed"

def claimAgentEnrollment (pg : Postgres) (sha256 : String → Vector UInt8 32) (pollInterval : Int)
    (outside : Outside) (s : EnrollmentStore) (input : ClaimAgentEnrollmentRequest) :
    ClaimReply × EnrollmentStore :=
  let pairingToken := trimSpace input.pairingToken
  if looksLikeUUID pairingToken = false ∨ looksLikeUUID input.credentialID = false ∨
      trimSpace input.credentialSecret = "" then
    (.error 400 "invalid_request"
      "valid pairing_token, credential_id and credential_secret are required", s)
  else
    match Enrollment.claimAgentEnrollment pg s outside.now outside.centerNow outside.agentID
        (hashSecret sha256 pairingToken)
        { credentialID := input.credentialID
          credentialHash := hashSecret sha256 input.credentialSecret
          osName := input.os
          architecture := input.architecture
          version := input.version } with
    | .error error => (claimError pollInterval error, s)
    | .ok (item, s') =>
      (.json 200
        { status := .stored .claimed, agentID := item.agentID, name := item.name
          concurrency := item.concurrency, interval := 0 }, s')

/-! ## Token authentication -/

/-- `strings.TrimPrefix`. -/
def trimPrefix (mark text : String) : String :=
  if mark.toList.isPrefixOf text.toList then String.ofList (text.toList.drop mark.toList.length)
  else text

@[simp] theorem trimPrefix_append (mark text : String) : trimPrefix mark (mark ++ text) = text := by
  simp [trimPrefix]

/-- How `requireAgentToken` ends: the request goes on as an agent's, or one of two answers. -/
inductive TokenCheck where
  | agent (id : UUID)
  | unauthorized
  | internalError
deriving DecidableEq, Repr

def requireAgentToken (pg : Postgres) (sha256 : String → Vector UInt8 32) (now : Timestamp)
    (s : EnrollmentStore) (authorization : String) : TokenCheck × EnrollmentStore :=
  let provided := trimPrefix "Bearer " authorization
  if provided = "" then (.unauthorized, s)
  else
    match parseAgentToken provided with
    | none => (.unauthorized, s)
    | some (credentialID, secret) =>
      match authenticateAgentCredential pg s now credentialID (hashSecret sha256 secret) with
      | .error .invalidAgentCredential => (.unauthorized, s)
      | .error _ => (.internalError, s)
      | .ok (agentID, s') => (.agent agentID, s')

end Api

/-! ## What the endpoint tells

`Holds` is about the digest, since the store has nothing else of a secret. Two credentials
with one digest would be one to the center; that the digests differ is for the processes to
bring. -/

/-- The store holds the credential of `id` and `secret`, in the name of `agentID`. -/
def Holds (pg : Postgres) (sha256 : String → Vector UInt8 32) (s : EnrollmentStore)
    (credential : Credential) (agentID : UUID) : Prop :=
  ∃ c ∈ s.credentials.rows, c.agentID = agentID ∧ pg.uuid credential.credentialID = some c.id ∧
    c.secretHash = hashSecret sha256 credential.secret

section Holds

variable {pg : Postgres} {sha256 : String → Vector UInt8 32} {s s' : EnrollmentStore}
  {credential credential' : Credential} {agentID : UUID}

theorem Holds.grows (h : Holds pg sha256 s credential agentID) (hgrows : Grows s s') :
    Holds pg sha256 s' credential agentID := by
  obtain ⟨c, hc, hagent, huuid, hhash⟩ := h
  obtain ⟨c', hc', hid, hagent', hhash'⟩ := hgrows.credential c hc
  exact ⟨c', hc', hagent'.trans hagent, by rw [hid, huuid], hhash'.trans hhash⟩

theorem storable_hashSecret (sha256 : String → Vector UInt8 32) (secret : String) :
    storable (hashSecret sha256 secret) = true := by
  have hdigit : ∀ n < 16, decide (Nat.digitChar n ≠ Char.ofNat 0) = true := by decide
  unfold storable hashSecret
  rw [String.toList_ofList, List.all_eq_true]
  intro c hc
  obtain ⟨byte, -, hbyte⟩ := List.mem_flatMap.mp hc
  have hlt := byte.toNat_lt
  simp only [hexByte, List.mem_cons, List.not_mem_nil, or_false] at hbyte
  rcases hbyte with rfl | rfl
  · exact hdigit _ (by omega)
  · exact hdigit _ (by omega)

/-- **A token of a credential the store holds is taken for its agent's.** -/
theorem Holds.authenticates (h : Holds pg sha256 s credential agentID) (hpaired : Paired s)
    (now : Timestamp) :
    (Api.requireAgentToken pg sha256 now s ("Bearer " ++ credential.token)).1 = .agent agentID := by
  obtain ⟨c, hc, rfl, huuid, hhash⟩ := h
  have hfound : s.credential pg credential.credentialID (hashSecret sha256 credential.secret) =
      some c := by
    unfold EnrollmentStore.credential
    rw [huuid]
    simp only [Table.find?_key hc]
    rw [if_pos ⟨hhash, hpaired.standing c hc⟩]
  have hauth : authenticateAgentCredential pg s now credential.credentialID
      (hashSecret sha256 credential.secret) =
        .ok (c.agentID,
          { s with credentials := s.credentials.put { c with lastUsedAt := some now } }) := by
    unfold authenticateAgentCredential
    simp [huuid, storable_hashSecret, hfound]
  have hparse := credential.parseAgentToken_token
  have hne : credential.token ≠ "" := by
    intro heq
    rw [heq] at hparse
    cases hparse
  unfold Api.requireAgentToken
  rw [Api.trimPrefix_append]
  dsimp only
  rw [if_neg hne, hparse]
  simp only [hauth]

/-- Two credentials an agent is known by are one. -/
theorem Holds.unique (hpaired : Paired s) (h : Holds pg sha256 s credential agentID)
    (h' : Holds pg sha256 s credential' agentID) :
    pg.uuid credential.credentialID = pg.uuid credential'.credentialID ∧
      sha256 credential.secret = sha256 credential'.secret := by
  obtain ⟨c, hc, hagent, huuid, hhash⟩ := h
  obtain ⟨c', hc', hagent', huuid', hhash'⟩ := h'
  obtain rfl := hpaired.credential_unique c hc c' hc' (hagent.trans hagent'.symm)
  exact ⟨huuid.trans huuid'.symm, hashSecret_inj (hhash.symm.trans hhash')⟩

end Holds

end Cfscan.Enrollment
