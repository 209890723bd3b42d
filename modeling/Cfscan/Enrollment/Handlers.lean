import Cfscan.Enrollment.Endpoint

/-!
# The administrators' side of the API — `internal/api/enrollments.go`

The handlers that create enrollments and decide on them, with the checks in front of the store. The
checks are what keeps the store's own away: a creation that has passed them is refused for a text
the server does not store, or for an id or a token there is already, and for nothing else.

`Visit.lost` is the connection of one call: lost before the call, which then was not made, or after
it, when only the answer did not come back. Each handler makes one call, and each call is one
transaction, so there is no third way. The error of a lost connection is none of those the handlers
know, and is answered `request failed` in either case.

The limiter in front of `createDeviceEnrollment` comes in as its verdict. `Limits.Rate` says which
verdicts there are.
-/

set_option autoImplicit false

namespace Cfscan.Enrollment.Api

open Cfscan.Lib Cfscan.Store

/-! ## Requests and replies -/

/-- The settings the handlers read. -/
structure AgentEnrollmentConfig where
  publicURL : String
  ttlSeconds : Int
  pollInterval : Int

structure CreateDeviceEnrollmentRequest where
  name : String
  os : String
  architecture : String
  version : String
  concurrency : Int
deriving DecidableEq, Repr

structure CreateDeviceEnrollmentResponse where
  pairingToken : String
  verificationURI : String
  verificationURIComplete : String
  expiresIn : Int
  interval : Int
deriving DecidableEq, Repr

structure CreatePreauthorizedEnrollmentRequest extends ApproveAgentEnrollmentRequest where
  ttlMinutes : Int
deriving DecidableEq, Repr

inductive Request where
  /-- `limited` is how long the limiter makes the client wait, if it does. A body is what
  `decodeJSON` makes of it. -/
  | createDevice (limited : Option Int) (body : Except String CreateDeviceEnrollmentRequest)
  | createPreauthorized (body : Except String CreatePreauthorizedEnrollmentRequest)
  | approve (pairingToken : String) (body : Except String ApproveAgentEnrollmentRequest)
  | approveByID (enrollmentID : String) (body : Except String ApproveAgentEnrollmentRequest)
  | reject (pairingToken : String)
  | rejectByID (enrollmentID : String)
  | claim (body : Except String ClaimAgentEnrollmentRequest)

inductive Reply where
  | device (body : CreateDeviceEnrollmentResponse)
  | preauthorized (item : AgentEnrollment) (pairingToken : String) (expiresIn : Int)
  | enrollment (item : AgentEnrollment)
  | claim (reply : ClaimReply)
  /-- 429, `too_many_enrollment_requests`. -/
  | limited (retryAfter : Int)
  | error (status : Nat) (code message : String)

def ClaimReply.status : ClaimReply → Nat
  | .json status _ => status
  | .error status _ _ => status

def Reply.status : Reply → Nat
  | .device _ => 201
  | .preauthorized _ _ _ => 201
  | .enrollment _ => 200
  | .claim reply => reply.status
  | .limited _ => 429
  | .error status _ _ => status

/-- The connection to the database is lost in the call of the store, and the call has not been made,
or only its answer does not come back. Every call is one transaction. -/
inductive Loss where
  | before
  | after
deriving DecidableEq, Repr

/-- A request with what it meets: the clocks of the database and of the center, the uuid of a new
row, the bytes of a new pairing token, if `crypto/rand` gives any, and what becomes of the
connection. -/
structure Visit where
  request : Request
  now : Timestamp
  centerNow : Timestamp
  id : UUID
  buffer : Option (Vector UInt8 16)
  lost : Option Loss := none

def internalError : Reply := .error 500 "internal_error" "request failed"

def notFound : Reply := .error 404 "enrollment_not_found" "pairing request not found"

/-- A handler that has come to its call of the store. `result` is what it does on a connection that
is kept; an error of the connection is none of those the handlers know. -/
def Visit.called (visit : Visit) (s : EnrollmentStore) (result : Reply × EnrollmentStore) :
    Reply × EnrollmentStore :=
  match visit.lost with
  | none => result
  | some .before => (internalError, s)
  | some .after => (internalError, result.2)

/-! ## Checks

Lengths of texts are in characters here, since the source counts runes, and are taken after
the trimming. An approval is checked as a whole and refused with one message, whichever
field was at fault. -/

def maxAgentConcurrency : Int := 4096

def maxAgentNameLength : Nat := 128

def maxAgentRegionLength : Nat := 128

def maxAgentLabelLength : Nat := 64

/-- A length is a number of characters. -/
def textLengthBetween (value : String) (minimum maximum : Nat) : Bool :=
  decide (minimum ≤ value.length) && decide (value.length ≤ maximum)

def validApprovedAgent (name region continent : String) (concurrency : Int) : Bool :=
  textLengthBetween name 1 maxAgentNameLength && textLengthBetween region 1 maxAgentRegionLength &&
    textLengthBetween continent 1 maxAgentLabelLength &&
    decide (1 ≤ concurrency) && decide (concurrency ≤ maxAgentConcurrency)

/-- The check of `createDeviceEnrollment`. -/
def CreateDeviceEnrollmentRequest.valid (input : CreateDeviceEnrollmentRequest) : Bool :=
  textLengthBetween input.name 1 maxAgentNameLength &&
    textLengthBetween input.os 0 maxAgentLabelLength &&
    textLengthBetween input.architecture 0 maxAgentLabelLength &&
    textLengthBetween input.version 0 maxAgentLabelLength &&
    decide (1 ≤ input.concurrency) && decide (input.concurrency ≤ maxAgentConcurrency)

def CreateDeviceEnrollmentRequest.trimmed (input : CreateDeviceEnrollmentRequest) :
    CreateDeviceEnrollmentRequest :=
  { input with
    name := trimSpace input.name
    os := trimSpace input.os
    architecture := trimSpace input.architecture
    version := trimSpace input.version }

def trimApproval (input : ApproveAgentEnrollmentRequest) : ApproveAgentEnrollmentRequest :=
  { input with
    name := trimSpace input.name
    region := trimSpace input.region
    continent := trimSpace input.continent }

/-- `ttl_minutes`, with its default. -/
def CreatePreauthorizedEnrollmentRequest.minutes (input : CreatePreauthorizedEnrollmentRequest) :
    Int :=
  if input.ttlMinutes = 0 then 30 else input.ttlMinutes

def invalidAgent : Reply :=
  .error 400 "invalid_request" "Agent name, region, continent, or concurrency is invalid"

def decodeEnrollmentApproval (body : Except String ApproveAgentEnrollmentRequest) :
    Except Reply ApproveAgentEnrollmentRequest :=
  match body with
  | .error message => .error (.error 400 "invalid_request" message)
  | .ok input =>
    let input := trimApproval input
    if validApprovedAgent input.name input.region input.continent input.concurrency then .ok input
    else .error invalidAgent

def writeEnrollmentAdminError : StoreError → Reply
  | .notFound => notFound
  | .enrollmentExpired => .error 410 "enrollment_expired" "this pairing request has expired"
  | .enrollmentRejected =>
    .error 409 "enrollment_rejected" "this pairing request was already rejected"
  | .enrollmentClaimed => .error 409 "enrollment_claimed" "this pairing request was already used"
  | _ => internalError

/-! ## Handlers -/

/-- `strings.TrimRight(text, "/")` -/
def trimSlashes (text : String) : String :=
  String.ofList (text.toList.reverse.dropWhile fun c => decide (c = '/')).reverse

def second : Timestamp := 1000000

section Handlers

variable (pg : Postgres) (sha256 : String → Vector UInt8 32) (toLower : String → String)
  (config : AgentEnrollmentConfig) (s : EnrollmentStore) (visit : Visit)

def normalizePairingToken (value : String) : String := toLower (trimSpace value)

/-- The TTL in seconds. -/
def AgentEnrollmentConfig.ttl : Int := if config.ttlSeconds ≤ 0 then 600 else config.ttlSeconds

def deviceEnrollment (input : CreateDeviceEnrollmentRequest) (pairingToken : String) :
    CreateAgentEnrollment where
  tokenHash := hashSecret sha256 pairingToken
  mode := .device
  status := .pending
  requestedName := input.name
  os := input.os
  architecture := input.architecture
  version := input.version
  requestedConcurrency := input.concurrency
  name := ""
  region := ""
  continent := ""
  concurrency := input.concurrency
  expiresAt := visit.centerNow + config.ttl * second

def createDeviceEnrollment (limited : Option Int)
    (body : Except String CreateDeviceEnrollmentRequest) : Reply × EnrollmentStore :=
  match limited, body with
  | some retryAfter, _ => (.limited retryAfter, s)
  | none, .error message => (.error 400 "invalid_request" message, s)
  | none, .ok input =>
    let input := input.trimmed
    if input.valid = false then
      (.error 400 "invalid_request"
        "Agent metadata is too long or concurrency is outside 1 to 4096", s)
    else
      match visit.buffer with
      | none => (internalError, s)
      | some buffer =>
        let pairingToken := generateUUID buffer
        visit.called s <|
          match createAgentEnrollment s visit.now visit.id
              (deviceEnrollment sha256 config visit input pairingToken) with
          | .error _ => (internalError, s)
          | .ok (_, s') =>
            let verificationURI := trimSlashes config.publicURL ++ "/agents/pair"
            (.device
              { pairingToken := pairingToken, verificationURI := verificationURI
                verificationURIComplete := verificationURI ++ "/" ++ pairingToken
                expiresIn := config.ttl, interval := max config.pollInterval 1 }, s')

def preauthorizedEnrollment (input : ApproveAgentEnrollmentRequest) (pairingToken : String)
    (ttl : Int) : CreateAgentEnrollment where
  tokenHash := hashSecret sha256 pairingToken
  mode := .preauthorized
  status := .approved
  requestedName := input.name
  os := ""
  architecture := ""
  version := ""
  requestedConcurrency := input.concurrency
  name := input.name
  region := input.region
  continent := input.continent
  concurrency := input.concurrency
  expiresAt := visit.centerNow + ttl * second

def createPreauthorizedEnrollment (body : Except String CreatePreauthorizedEnrollmentRequest) :
    Reply × EnrollmentStore :=
  match body with
  | .error message => (.error 400 "invalid_request" message, s)
  | .ok input =>
    let agent := trimApproval input.toApproveAgentEnrollmentRequest
    if validApprovedAgent agent.name agent.region agent.continent agent.concurrency = false then
      (invalidAgent, s)
    else
      let ttlMinutes := input.minutes
      if ttlMinutes < 5 ∨ ttlMinutes > 1440 then
        (.error 400 "invalid_request" "ttl_minutes must be between 5 and 1440", s)
      else
        match visit.buffer with
        | none => (internalError, s)
        | some buffer =>
          let pairingToken := generateUUID buffer
          visit.called s <|
            match createAgentEnrollment s visit.now visit.id
                (preauthorizedEnrollment sha256 visit agent pairingToken (ttlMinutes * 60)) with
            | .error _ => (internalError, s)
            | .ok (item, s') => (.preauthorized item pairingToken (ttlMinutes * 60), s')

/-- How the four decisions end. -/
def decided : Except StoreError (AgentEnrollment × EnrollmentStore) → Reply × EnrollmentStore
  | .error error => (writeEnrollmentAdminError error, s)
  | .ok (item, s') => (.enrollment item, s')

def approveAgentEnrollment (param : String) (body : Except String ApproveAgentEnrollmentRequest) :
    Reply × EnrollmentStore :=
  let pairingToken := normalizePairingToken toLower param
  if looksLikeUUID pairingToken = false then (notFound, s)
  else
    match decodeEnrollmentApproval body with
    | .error reply => (reply, s)
    | .ok input =>
      visit.called s <| decided s
        (Enrollment.approveAgentEnrollment s visit.now (hashSecret sha256 pairingToken) input)

def approveAgentEnrollmentByID (param : String)
    (body : Except String ApproveAgentEnrollmentRequest) : Reply × EnrollmentStore :=
  let enrollmentID := trimSpace param
  if looksLikeUUID enrollmentID = false then (notFound, s)
  else
    match decodeEnrollmentApproval body with
    | .error reply => (reply, s)
    | .ok input =>
      visit.called s <| decided s
        (Enrollment.approveAgentEnrollmentByID pg s visit.now enrollmentID input)

def rejectAgentEnrollment (param : String) : Reply × EnrollmentStore :=
  let pairingToken := normalizePairingToken toLower param
  if looksLikeUUID pairingToken = false then (notFound, s)
  else
    visit.called s <| decided s
      (Enrollment.rejectAgentEnrollment s visit.now (hashSecret sha256 pairingToken))

def rejectAgentEnrollmentByID (param : String) : Reply × EnrollmentStore :=
  let enrollmentID := trimSpace param
  if looksLikeUUID enrollmentID = false then (notFound, s)
  else
    visit.called s <| decided s
      (Enrollment.rejectAgentEnrollmentByID pg s visit.now enrollmentID)

def handle : Reply × EnrollmentStore :=
  match visit.request with
  | .createDevice limited body => createDeviceEnrollment sha256 config s visit limited body
  | .createPreauthorized body => createPreauthorizedEnrollment sha256 s visit body
  | .approve param body => approveAgentEnrollment sha256 toLower s visit param body
  | .approveByID param body => approveAgentEnrollmentByID pg s visit param body
  | .reject param => rejectAgentEnrollment sha256 toLower s visit param
  | .rejectByID param => rejectAgentEnrollmentByID pg s visit param
  | .claim (.error message) => (.error 400 "invalid_request" message, s)
  | .claim (.ok input) =>
    let done := claimAgentEnrollment pg sha256 config.pollInterval
      ⟨visit.now, visit.centerNow, visit.id⟩ s input
    -- 400 is answered in front of the store
    if done.1.status = 400 then (.claim done.1, done.2)
    else visit.called s (.claim done.1, done.2)

/-- The store after a sequence of requests. -/
def play (visits : List Visit) : EnrollmentStore :=
  visits.foldl (fun s visit => (handle pg sha256 toLower config s visit).2) .empty

end Handlers

/-! ## The checks in front of the store

What a check that has passed says of each field, and that it is what the columns ask for.
With these the error of a creation can only be a text or a key. -/

theorem concurrency_of_valid {name region continent : String} {concurrency : Int}
    (h : validApprovedAgent name region continent concurrency = true) :
    1 ≤ concurrency ∧ concurrency ≤ maxAgentConcurrency := by
  simp only [validApprovedAgent, Bool.and_eq_true, decide_eq_true_eq] at h
  exact ⟨h.1.2, h.2⟩

theorem concurrency_of_device {input : CreateDeviceEnrollmentRequest} (h : input.valid = true) :
    1 ≤ input.concurrency ∧ input.concurrency ≤ maxAgentConcurrency := by
  simp only [CreateDeviceEnrollmentRequest.valid, Bool.and_eq_true, decide_eq_true_eq] at h
  exact ⟨h.1.2, h.2⟩

/-- The lengths a device has to keep to. -/
theorem lengths_of_device {input : CreateDeviceEnrollmentRequest} (h : input.valid = true) :
    textLengthBetween input.name 1 maxAgentNameLength = true ∧
      ∀ value ∈ [input.os, input.architecture, input.version],
        textLengthBetween value 0 maxAgentLabelLength = true := by
  simp only [CreateDeviceEnrollmentRequest.valid, Bool.and_eq_true] at h
  obtain ⟨⟨⟨⟨⟨hname, hos⟩, harchitecture⟩, hversion⟩, -⟩, -⟩ := h
  simp [hname, hos, harchitecture, hversion]

theorem name_of_valid {name region continent : String} {concurrency : Int}
    (h : validApprovedAgent name region continent concurrency = true) :
    textLengthBetween name 1 maxAgentNameLength = true := by
  simp only [validApprovedAgent, Bool.and_eq_true] at h
  exact h.1.1.1.1

theorem int4_of_concurrency {concurrency : Int}
    (h : 1 ≤ concurrency ∧ concurrency ≤ maxAgentConcurrency) : int4 concurrency = true := by
  rw [maxAgentConcurrency] at h
  simp only [int4, Bool.and_eq_true, decide_eq_true_eq]
  omega

theorem decodeEnrollmentApproval_ok {body : Except String ApproveAgentEnrollmentRequest}
    {input : ApproveAgentEnrollmentRequest} (h : decodeEnrollmentApproval body = .ok input) :
    ∃ raw, body = .ok raw ∧ input = trimApproval raw ∧
      validApprovedAgent input.name input.region input.continent input.concurrency = true := by
  unfold decodeEnrollmentApproval at h
  split at h
  · cases h
  · rename_i raw
    dsimp only at h
    split at h
    · rename_i hvalid
      cases h
      exact ⟨raw, rfl, rfl, hvalid⟩
    · cases h

theorem decodeEnrollmentApproval_error {body : Except String ApproveAgentEnrollmentRequest}
    {reply : Reply} (h : decodeEnrollmentApproval body = .error reply) : reply.status = 400 := by
  unfold decodeEnrollmentApproval at h
  split at h
  · cases h
    rfl
  · dsimp only at h
    split at h
    · cases h
    · cases h
      rfl

/-- A list of texts that is not stored has one that is not. -/
theorem exists_refused {texts : List String} (h : texts.all storable = false) :
    ∃ value ∈ texts, storable value = false := by
  simpa using h

section Creation

variable {s s' : EnrollmentStore} {now : Timestamp} {error : StoreError} {item : AgentEnrollment}

/-- A creation in range is refused for its texts, or for what is taken. -/
theorem createAgentEnrollment_error {id : UUID} {input : CreateAgentEnrollment}
    (h : createAgentEnrollment s now id input = .error error)
    (htoken : storable input.tokenHash = true)
    (hrequested : 1 ≤ input.requestedConcurrency ∧
      input.requestedConcurrency ≤ maxAgentConcurrency)
    (hconcurrency : 1 ≤ input.concurrency ∧ input.concurrency ≤ maxAgentConcurrency) :
    (∃ value ∈ [input.requestedName, input.os, input.architecture, input.version, input.name,
      input.region, input.continent], storable value = false) ∨
      (s.enrollments.find? id ≠ none ∨ s.byToken input.tokenHash ≠ none) := by
  unfold createAgentEnrollment at h
  dsimp only at h
  split at h
  · rename_i hstorable
    refine Or.inl (exists_refused ?_)
    rw [CreateAgentEnrollment.storable, int4_of_concurrency hrequested,
      int4_of_concurrency hconcurrency, List.all_cons, htoken] at hstorable
    simpa only [Bool.and_true, Bool.true_and] using hstorable
  split at h
  · rename_i hcheck
    exact absurd ⟨by omega, by omega⟩ hcheck
  split at h
  · rename_i htaken
    exact Or.inr htaken
  · cases h

theorem storable_of_created {id : UUID} {input : CreateAgentEnrollment}
    (h : createAgentEnrollment s now id input = .ok (item, s')) :
    storable input.os = true ∧ storable input.architecture = true ∧
      storable input.version = true := by
  unfold createAgentEnrollment at h
  dsimp only at h
  split at h
  · cases h
  rename_i hstorable
  simp only [CreateAgentEnrollment.storable, List.all_cons, Bool.not_eq_false,
    Bool.and_eq_true] at hstorable
  obtain ⟨⟨⟨-, -, hos, harchitecture, hversion, -⟩, -⟩, -⟩ := hstorable
  exact ⟨hos, harchitecture, hversion⟩

end Creation

end Cfscan.Enrollment.Api
