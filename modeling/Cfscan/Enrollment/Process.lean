import Cfscan.Enrollment.Endpoint
import Cfscan.Lib.Lossy

/-!
# Pairing, from both ends — `cmd/agent/cli.go`

`connect` and `join` end in the same loop: send the claim with the one credential the process
generated, and go on until an answer settles it. Here any number of such loops face the center
over a channel that loses, delays and repeats messages, while administrators decide and other
calls reach the store.

The invariant is about what a message can tell: whoever is told "claimed" presented a credential
that the store holds in the name of the agent it was told. `Grows` keeps that true for as long as
the message may be on its way.

## What is asked of the processes

Each process has generated a credential of its own, with an id or a secret that no other has
(`hown`), and the digests of the secrets differ where the secrets do (`hsha`). They may have the
same pairing token, and then one of them is paired.

## What it does not say

That a process **is** paired in the end. A channel that delivers nothing pairs nobody, an
administrator may reject, and the term of an enrollment may be over. The loop polls for as long as
no answer settles it.
-/

set_option autoImplicit false

namespace Cfscan.Enrollment

open Cfscan.Lib Cfscan.Lib.Lossy Cfscan.Store

/-! ## The process

The state of one loop between two answers. An answer that is no success and no terminal code
leaves it waiting; a success is believed, and the identity it builds is the one that is
saved. -/

/-- What a process has when it starts to wait. -/
structure Boot where
  serverURL : String
  pairingToken : String
  credential : Credential
  os : String
  architecture : String
  version : String
  interval : Int

/-- `agentIdentity`, the file an agent saves. -/
structure AgentIdentity where
  serverURL : String
  agentID : Option UUID
  token : String
  name : String
  concurrency : Int
deriving DecidableEq, Repr

inductive Phase where
  | waiting (interval : Int)
  | paired (identity : AgentIdentity)
  | failed (status : Nat) (code message : String)
deriving DecidableEq, Repr

/-- The codes that end the wait. -/
def terminalCodes : List String :=
  ["enrollment_rejected", "enrollment_expired", "enrollment_revoked", "enrollment_claimed",
    "agent_name_conflict", "enrollment_not_found"]

def Boot.request (b : Boot) : Phase → Option Api.ClaimAgentEnrollmentRequest
  | .waiting _ =>
    some
      { pairingToken := b.pairingToken, credentialID := b.credential.credentialID
        credentialSecret := b.credential.secret, os := b.os, architecture := b.architecture
        version := b.version }
  | _ => none

/-- The identity `runEnrollment` saves. -/
def Boot.identity (b : Boot) (claimed : Api.ClaimAgentEnrollmentResponse) : AgentIdentity where
  serverURL := b.serverURL
  agentID := claimed.agentID
  token := b.credential.token
  name := claimed.name
  concurrency := claimed.concurrency

/-- One turn of the loop of `waitForEnrollment`. A turn that brings no reply changes nothing. -/
def waitForEnrollment (b : Boot) : Phase → Api.ClaimReply → Phase
  | .waiting interval, .json status result =>
    if status < 200 ∨ status ≥ 300 then .waiting interval
    else if status = 200 ∧ result.status = .stored .claimed then .paired (b.identity result)
    else if result.interval > 0 then .waiting result.interval
    else .waiting interval
  | .waiting interval, .error status code message =>
    if code ∈ terminalCodes then .failed status code message else .waiting interval
  | phase, _ => phase

/-- The processes and the center. `Event` covers the administrators' decisions, and any other call
that reaches the store. -/
def pairing {ι : Type} (pg : Postgres) (sha256 : String → Vector UInt8 32) (pollInterval : Int)
    (boot : ι → Boot) :
    Exchange ι Phase EnrollmentStore Api.Outside Event Api.ClaimAgentEnrollmentRequest
      Api.ClaimReply where
  request := fun p phase => (boot p).request phase
  receive := fun p phase reply => waitForEnrollment (boot p) phase reply
  serve := fun outside s message =>
    Api.claimAgentEnrollment pg sha256 pollInterval outside s message
  internal := fun event s => (exec pg s event).2

/-! ## What a reply tells

Of all replies only "claimed" carries an agent, and the store function gives it in two
places, the first claim and the replayed one. In both the credential of the request is the
one held. -/

/-- A reply that says "claimed", and the agent it names. -/
def Api.ClaimReply.Claimed (reply : Api.ClaimReply) (agentID : Option UUID) : Prop :=
  ∃ status body, reply = .json status body ∧ body.status = .stored .claimed ∧
    body.agentID = agentID

theorem claimError_notClaimed (pollInterval : Int) (error : StoreError) (agentID : Option UUID) :
    ¬ (Api.claimError pollInterval error).Claimed agentID := by
  rintro ⟨status, body, heq, hclaimed, -⟩
  cases error with
  | enrollmentPending =>
    cases heq
    cases hclaimed
  | _ => cases heq

/-- The endpoint tells "claimed" only as the outcome of a claim that succeeded, and changes the
store only then. -/
theorem Api.claimAgentEnrollment_cases (pg : Postgres) (sha256 : String → Vector UInt8 32)
    (pollInterval : Int) (outside : Api.Outside) (s : EnrollmentStore)
    (input : Api.ClaimAgentEnrollmentRequest) :
    ((Api.claimAgentEnrollment pg sha256 pollInterval outside s input).2 = s ∧
        ∀ agentID, ¬ (Api.claimAgentEnrollment pg sha256 pollInterval outside s input).1.Claimed
          agentID) ∨
      ∃ tokenHash claim item s', claim.credentialID = input.credentialID ∧
        claim.credentialHash = hashSecret sha256 input.credentialSecret ∧
        Enrollment.claimAgentEnrollment pg s outside.now outside.centerNow outside.agentID tokenHash
          claim = .ok (item, s') ∧
        (Api.claimAgentEnrollment pg sha256 pollInterval outside s input).2 = s' ∧
        ∀ agentID, (Api.claimAgentEnrollment pg sha256 pollInterval outside s input).1.Claimed
          agentID → agentID = item.agentID := by
  unfold Api.claimAgentEnrollment
  dsimp only
  split
  · refine Or.inl ⟨rfl, fun agentID => ?_⟩
    rintro ⟨status, body, heq, -⟩
    cases heq
  · split
    · exact Or.inl ⟨rfl, claimError_notClaimed _ _⟩
    · rename_i item s' hok
      refine Or.inr ⟨_, _, item, s', ?_, ?_, hok, rfl, fun agentID => ?_⟩
      · rfl
      · rfl
      · rintro ⟨status, body, heq, -, rfl⟩
        cases heq
        rfl

/-- A claim that succeeds leaves the store holding the credential it presented, in the name of
the agent it returns. -/
theorem Paired.claim_holds {pg : Postgres} {sha256 : String → Vector UInt8 32}
    {s s' : EnrollmentStore} (h : Paired s) {now centerNow : Timestamp} {agentID : UUID}
    {tokenHash : String} {input : ClaimInput} {item : AgentEnrollment} {credential : Credential}
    (hid : input.credentialID = credential.credentialID)
    (hhash : input.credentialHash = hashSecret sha256 credential.secret)
    (hok : claimAgentEnrollment pg s now centerNow agentID tokenHash input = .ok (item, s')) :
    ∃ holder, item.agentID = some holder ∧ Holds pg sha256 s' credential holder := by
  obtain ⟨e, htoken, ⟨hclaimed, rfl, rfl⟩ | ⟨_, _, _, hfinish⟩⟩ := claimAgentEnrollment_ok hok
  · -- claimed before: the credential was compared with the one the claim stored then
    obtain ⟨he, rfl⟩ := byToken_mem htoken
    obtain ⟨a, ha, hstands⟩ := h.agent e he hclaimed
    obtain ⟨c, hl⟩ := h.linked he hclaimed ha hstands.1
    rw [h.claim_claimed hl] at hok
    split at hok
    · rename_i hpresents
      refine ⟨a.id, hstands.1, c, hl.credential, hl.holds, ?_, ?_⟩
      · rw [← hid, hpresents.1]
      · rw [← hhash, hpresents.2]
    · cases hok
  · -- the first claim: the credential is the one it has just stored
    obtain ⟨credentialID, huuid, _, _, rfl, rfl⟩ := finishClaim_ok hfinish
    refine ⟨agentID, rfl, _, Table.mem_put_self, rfl, ?_, hhash⟩
    rw [← hid, huuid]

/-! ## The invariant -/

section Pairing

variable {ι : Type} {pg : Postgres} {sha256 : String → Vector UInt8 32} {pollInterval : Int}
  {boot : ι → Boot}

/-- A request carries the credential of its sender. -/
def Sent (boot : ι → Boot) (p : ι) (message : Api.ClaimAgentEnrollmentRequest) : Prop :=
  message.credentialID = (boot p).credential.credentialID ∧
    message.credentialSecret = (boot p).credential.secret

/-- A reply that says "claimed" names an agent the receiver's credential is held for. -/
def Told (pg : Postgres) (sha256 : String → Vector UInt8 32) (boot : ι → Boot)
    (s : EnrollmentStore) (p : ι) (reply : Api.ClaimReply) : Prop :=
  ∀ agentID, reply.Claimed agentID →
    ∃ holder, agentID = some holder ∧ Holds pg sha256 s (boot p).credential holder

/-- So does the identity a process has to save, and its token is that credential's. -/
def Identified (pg : Postgres) (sha256 : String → Vector UInt8 32) (boot : ι → Boot)
    (s : EnrollmentStore) (p : ι) (phase : Phase) : Prop :=
  ∀ identity, phase = .paired identity → identity.token = (boot p).credential.token ∧
    ∃ holder, identity.agentID = some holder ∧ Holds pg sha256 s (boot p).credential holder

theorem Told.grows {s s' : EnrollmentStore} {p : ι} {reply : Api.ClaimReply}
    (h : Told pg sha256 boot s p reply) (hgrows : Grows s s') : Told pg sha256 boot s' p reply := by
  intro agentID hclaimed
  obtain ⟨holder, heq, hholds⟩ := h agentID hclaimed
  exact ⟨holder, heq, hholds.grows hgrows⟩

theorem Identified.grows {s s' : EnrollmentStore} {p : ι} {phase : Phase}
    (h : Identified pg sha256 boot s p phase) (hgrows : Grows s s') :
    Identified pg sha256 boot s' p phase := by
  intro identity hphase
  obtain ⟨htoken, holder, heq, hholds⟩ := h identity hphase
  exact ⟨htoken, holder, heq, hholds.grows hgrows⟩

theorem Told.serve {s : EnrollmentStore} (h : Paired s) {p : ι}
    {message : Api.ClaimAgentEnrollmentRequest} (hsent : Sent boot p message)
    (outside : Api.Outside) :
    Paired (Api.claimAgentEnrollment pg sha256 pollInterval outside s message).2 ∧
      Grows s (Api.claimAgentEnrollment pg sha256 pollInterval outside s message).2 ∧
      Told pg sha256 boot (Api.claimAgentEnrollment pg sha256 pollInterval outside s message).2 p
        (Api.claimAgentEnrollment pg sha256 pollInterval outside s message).1 := by
  rcases Api.claimAgentEnrollment_cases pg sha256 pollInterval outside s message with
    ⟨hstore, hreply⟩ | ⟨tokenHash, claim, item, s', hid, hhash, hok, hstore, hreply⟩
  · rw [hstore]
    exact ⟨h, .refl s, fun agentID hclaimed => absurd hclaimed (hreply agentID)⟩
  · rw [hstore]
    have heffect := exec_effect pg s
      ⟨.claim outside.agentID tokenHash claim, outside.now, outside.centerNow⟩
    simp only [exec, hok, settle] at heffect
    refine ⟨h.effect heffect, heffect.grows.1, fun agentID hclaimed => ?_⟩
    rw [hreply agentID hclaimed]
    exact h.claim_holds (hid.trans hsent.1) (by rw [hhash, hsent.2]) hok

theorem Identified.receive {s : EnrollmentStore} {p : ι} {phase : Phase} {reply : Api.ClaimReply}
    (h : Identified pg sha256 boot s p phase) (htold : Told pg sha256 boot s p reply) :
    Identified pg sha256 boot s p (waitForEnrollment (boot p) phase reply) := by
  intro identity hphase
  unfold waitForEnrollment at hphase
  split at hphase
  · rename_i interval status result
    split at hphase
    · cases hphase
    split at hphase
    · rename_i hclaimed
      cases hphase
      exact ⟨rfl, htold _ ⟨status, result, rfl, hclaimed.2, rfl⟩⟩
    split at hphase <;> cases hphase
  · split at hphase <;> cases hphase
  · exact h identity hphase

theorem pairing_upkeep :
    Upkeep (pairing pg sha256 pollInterval boot) Paired Grows (Sent boot)
      (Told pg sha256 boot) (Identified pg sha256 boot) where
  request := by
    intro s p phase message _ hmessage
    cases phase with
    | waiting interval =>
      cases hmessage
      exact ⟨rfl, rfl⟩
    | paired identity => cases hmessage
    | failed status code message => cases hmessage
  serve := by
    intro outside s p message hgood hsent
    dsimp only [pairing]
    exact Told.serve hgood hsent outside
  internal := fun event s hgood =>
    ⟨hgood.effect (exec_effect pg s event), (exec_effect pg s event).grows.1⟩
  receive := fun _ _ _ _ _ hholds htold => hholds.receive htold
  told_grows := fun _ _ _ _ hgrows htold => htold.grows hgrows
  holds_grows := fun _ _ _ _ hgrows hholds => hholds.grows hgrows

/-- What holds of a world of processes and their center. -/
structure PairingLaw (pg : Postgres) (sha256 : String → Vector UInt8 32)
    (w : World ι Phase EnrollmentStore Api.ClaimAgentEnrollmentRequest Api.ClaimReply) :
    Prop where
  token : ∀ p identity, w.clients p = .paired identity →
    ∃ agentID, identity.agentID = some agentID ∧
      ∀ now, (Api.requireAgentToken pg sha256 now w.server ("Bearer " ++ identity.token)).1 =
        .agent agentID
  own : ∀ p q identity identity', w.clients p = .paired identity →
    w.clients q = .paired identity' → identity.agentID = identity'.agentID → p = q
  oneToOne : OneToOne w.server

variable [DecidableEq ι]

/-- The processes and the center after `acts`; the center starts empty and every process waiting. -/
def pairingRun (pg : Postgres) (sha256 : String → Vector UInt8 32) (pollInterval : Int)
    (boot : ι → Boot) (acts : List (Act ι Api.Outside Event)) :
    World ι Phase EnrollmentStore Api.ClaimAgentEnrollmentRequest Api.ClaimReply :=
  play (pairing pg sha256 pollInterval boot)
    (initial .empty fun p => .waiting (boot p).interval) acts

theorem pairingRun_kept (acts : List (Act ι Api.Outside Event)) :
    Kept Paired (Sent boot) (Told pg sha256 boot) (Identified pg sha256 boot)
      (pairingRun pg sha256 pollInterval boot acts) := by
  refine pairing_upkeep.play (.initial .empty fun p identity hphase => ?_) acts
  cases hphase

/-- **Pairing survives lost and repeated messages.** A process with an identity to save has a
token the center takes for exactly that agent's, and has the agent to itself; and the center
holds one agent for each claimed enrollment. Each process generated its own credential (`hown`),
and SHA-256 tells their secrets apart (`hsha`). -/
theorem pairing_survives (pg : Postgres) (sha256 : String → Vector UInt8 32) (pollInterval : Int)
    (boot : ι → Boot)
    (hown : ∀ p q, pg.uuid (boot p).credential.credentialID =
      pg.uuid (boot q).credential.credentialID →
      (boot p).credential.secret = (boot q).credential.secret → p = q)
    (hsha : ∀ p q, sha256 (boot p).credential.secret = sha256 (boot q).credential.secret →
      (boot p).credential.secret = (boot q).credential.secret)
    (acts : List (Act ι Api.Outside Event)) :
    PairingLaw pg sha256 (pairingRun pg sha256 pollInterval boot acts) := by
  have hkept : Kept Paired (Sent boot) (Told pg sha256 boot) (Identified pg sha256 boot)
      (pairingRun pg sha256 pollInterval boot acts) := pairingRun_kept acts
  refine ⟨fun p identity hp => ?_, fun p q identity identity' hp hq hsame => ?_,
    hkept.good.oneToOne⟩
  · obtain ⟨htoken, agentID, hagent, hholds⟩ := hkept.holds p identity hp
    refine ⟨agentID, hagent, fun now => ?_⟩
    rw [htoken]
    exact hholds.authenticates hkept.good now
  · obtain ⟨_, agentID, hagent, hholds⟩ := hkept.holds p identity hp
    obtain ⟨_, agentID', hagent', hholds'⟩ := hkept.holds q identity' hq
    obtain rfl : agentID = agentID' :=
      Option.some.inj (hagent.symm.trans (hsame.trans hagent'))
    obtain ⟨huuid, hhash⟩ := hholds.unique hkept.good hholds'
    exact hown p q huuid (hsha p q hhash)

end Pairing

/-! ## Two processes and one pairing token -/

/-- The SHA-256 digests of the two secrets below and of their pairing token. -/
def racingDigest (text : String) : Vector UInt8 32 :=
  if text = "AAAAAAAAAAAAAAAAAAAAAAAAAAAAAAAAAAAAAAAAAAA" then
    #v[0x0f, 0x00, 0x73, 0x85, 0xb6, 0xf9, 0xd4, 0xb7, 0xee, 0xb2, 0x74, 0x86, 0x05, 0xaf, 0xe1,
      0xa9, 0x84, 0xa0, 0xa3, 0xbf, 0xa3, 0xf0, 0x14, 0xd0, 0x9e, 0x2a, 0x78, 0x4c, 0xe9, 0xe5,
      0xcd, 0x1a]
  else if text = "AQEBAQEBAQEBAQEBAQEBAQEBAQEBAQEBAQEBAQEBAQE" then
    #v[0x56, 0xd5, 0xfa, 0x73, 0x33, 0xf6, 0xd7, 0x47, 0xdb, 0x42, 0xc2, 0x39, 0x40, 0x7e, 0x5d,
      0xa4, 0xc3, 0x2f, 0x4c, 0x79, 0xf3, 0x5d, 0x09, 0x2b, 0x13, 0x4f, 0xd3, 0x5a, 0x40, 0x2d,
      0x9c, 0x5c]
  else if text = "33333333-3333-4333-b333-333333333333" then
    #v[0x09, 0xd5, 0x95, 0x70, 0xf7, 0x3e, 0x4e, 0xb4, 0x59, 0x9f, 0x10, 0x27, 0x57, 0x78, 0x2f,
      0xff, 0x8c, 0x4d, 0xac, 0x11, 0x02, 0x32, 0x0a, 0x53, 0x3c, 0xf5, 0xbd, 0x41, 0x34, 0x31,
      0x92, 0xc8]
  else Vector.replicate 32 0

/-- A server that knows the two credential ids. -/
def racingUUIDs : Postgres :=
  .withoutAddresses fun text =>
    if text = "11111111-1111-4111-9111-111111111111" then some 0x11111111111141119111111111111111
    else if text = "22222222-2222-4222-a222-222222222222" then
      some 0x2222222222224222a222222222222222
    else none

def racingBoot (p : Bool) : Boot where
  serverURL := "https://center.example"
  pairingToken := "33333333-3333-4333-b333-333333333333"
  credential :=
    if p then generateCredential (Vector.replicate 16 0x11) (Vector.replicate 32 0)
    else generateCredential (Vector.replicate 16 0x22) (Vector.replicate 32 1)
  os := "linux"
  architecture := "amd64"
  version := "1.0.0"
  interval := 3

/-- The token is authorised; the first process claims it and the answer is lost, the second is
too late, and the first asks again. -/
def racingActs : List (Act Bool Api.Outside Event) :=
  [.internal ⟨.createPreauthorized 5
      { tokenHash := hashSecret racingDigest "33333333-3333-4333-b333-333333333333"
        mode := .preauthorized, status := .approved, requestedName := "edge", os := ""
        architecture := "", version := "", requestedConcurrency := 32, name := "edge", region := ""
        continent := "", concurrency := 32, expiresAt := 600 }, 0, 0⟩,
    .send true, .send false, .serve 0 ⟨1, 1, 7⟩, .serve 1 ⟨2, 2, 8⟩, .receive 1, .send true,
    .serve 2 ⟨3, 3, 9⟩, .receive 2]

theorem pairing_survives_racing :
    (pairingRun racingUUIDs racingDigest 3 racingBoot racingActs).clients true = .paired
      { serverURL := "https://center.example", agentID := some 7
        token := "cfa_11111111-1111-4111-9111-111111111111_" ++
          "AAAAAAAAAAAAAAAAAAAAAAAAAAAAAAAAAAAAAAAAAAA"
        name := "edge", concurrency := 32 } ∧
    PairingLaw racingUUIDs racingDigest
      (pairingRun racingUUIDs racingDigest 3 racingBoot racingActs) :=
  ⟨by decide +kernel,
    pairing_survives racingUUIDs racingDigest 3 racingBoot (by decide +kernel) (by decide +kernel)
      racingActs⟩

end Cfscan.Enrollment
