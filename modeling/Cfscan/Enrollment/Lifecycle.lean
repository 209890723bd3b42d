import Cfscan.Enrollment.Paired
import Mathlib.Data.List.Induction

/-!
# The enrollment lifecycle

The links between the rows are in `Paired`; this file adds time.

* `Grows` is the frame: what a call may change in a row that is already there. A claimed
  enrollment, an agent and a credential's secret are never touched again, and the approved
  details are fixed from the moment the status leaves `pending`.
* `History` reads a state back into the calls that led to it: who approved the details an agent
  carries, and which call claimed it.

`enrollment_lifecycle` puts the three together.

Status moves only forward: pending to approved or rejected, approved to claimed. `expired` is no
status of a row but what a reader sees of a pending or approved one whose term is over, and no call
leads out of it.

The statement is over every sequence of the calls, in any order and with any clocks; the two clocks
of an event need not agree, and time may go backwards. What the handlers check before they call is
**not** assumed.
-/

set_option autoImplicit false

namespace Cfscan.Enrollment

open Cfscan.Lib Cfscan.Store

/-! ## The frame

One relation for a row and one for the store, both transitive, so that the run lemma is the
step lemma repeated. Only the last use of a credential changes in a row that is settled. -/

/-- The moves of a stored status. -/
inductive StatusMove : StoredStatus → StoredStatus → Prop where
  | stay (status : StoredStatus) : StatusMove status status
  | approve : StatusMove .pending .approved
  | reject : StatusMove .pending .rejected
  | claim : StatusMove .approved .claimed

/-- What stays of a row, however many calls go by: its name, its approved details once it has
left `pending`, and the whole of it once it is claimed. -/
structure Follows (e e' : EnrollmentRow) : Prop where
  id : e'.id = e.id
  token : e'.tokenHash = e.tokenHash
  decided : e.status ≠ .pending → e'.status ≠ .pending ∧ e'.name = e.name ∧
    e'.region = e.region ∧ e'.continent = e.continent ∧ e'.concurrency = e.concurrency
  claimed : e.status = .claimed → e' = e

theorem Follows.refl (e : EnrollmentRow) : Follows e e :=
  ⟨rfl, rfl, fun h => ⟨h, rfl, rfl, rfl, rfl⟩, fun _ => rfl⟩

theorem Follows.trans {e e' e'' : EnrollmentRow} (h : Follows e e') (h' : Follows e' e'') :
    Follows e e'' where
  id := h'.id.trans h.id
  token := h'.token.trans h.token
  decided := by
    intro hne
    obtain ⟨hne', hname, hregion, hcontinent, hconcurrency⟩ := h.decided hne
    obtain ⟨hne'', hname', hregion', hcontinent', hconcurrency'⟩ := h'.decided hne'
    exact ⟨hne'', hname'.trans hname, hregion'.trans hregion, hcontinent'.trans hcontinent,
      hconcurrency'.trans hconcurrency⟩
  claimed := by
    intro hclaimed
    have he := h.claimed hclaimed
    rw [he] at h'
    exact h'.claimed hclaimed

/-- A later version of a credential differs in `last_used_at` only. -/
def CredentialRow.Follows (c c' : CredentialRow) : Prop :=
  c'.id = c.id ∧ c'.agentID = c.agentID ∧ c'.secretHash = c.secretHash

structure Grows (s s' : EnrollmentStore) : Prop where
  enrollment : ∀ e ∈ s.enrollments.rows, ∃ e' ∈ s'.enrollments.rows, Follows e e'
  agent : ∀ a ∈ s.agents.rows, a ∈ s'.agents.rows
  credential : ∀ c ∈ s.credentials.rows, ∃ c' ∈ s'.credentials.rows, c.Follows c'

theorem Grows.refl (s : EnrollmentStore) : Grows s s where
  enrollment := fun e he => ⟨e, he, .refl e⟩
  agent := fun _ ha => ha
  credential := fun c hc => ⟨c, hc, rfl, rfl, rfl⟩

theorem Grows.trans {s s' s'' : EnrollmentStore} (h : Grows s s') (h' : Grows s' s'') :
    Grows s s'' where
  enrollment := by
    intro e he
    obtain ⟨e', he', hf⟩ := h.enrollment e he
    obtain ⟨e'', he'', hf'⟩ := h'.enrollment e' he'
    exact ⟨e'', he'', hf.trans hf'⟩
  agent := fun a ha => h'.agent a (h.agent a ha)
  credential := by
    intro c hc
    obtain ⟨c', hc', hid, hagent, hhash⟩ := h.credential c hc
    obtain ⟨c'', hc'', hid', hagent', hhash'⟩ := h'.credential c' hc'
    exact ⟨c'', hc'', hid'.trans hid, hagent'.trans hagent, hhash'.trans hhash⟩

/-- One decision, seen from the row it may select. -/
theorem Decision.follows {ev : Event} {set : EnrollmentRow → EnrollmentRow}
    (h : Decision ev set) (hset : ∀ row, (set row).id = row.id) {s : EnrollmentStore}
    {named : EnrollmentRow → Bool} {e : EnrollmentRow} (he : e ∈ s.enrollments.rows) :
    ∃ e' ∈ (s.enrollments.updateWhere (fun row => named row && row.openAt ev.now) set hset).rows,
      Follows e e' ∧ StatusMove e.status e'.status := by
  refine ⟨_, Table.mem_updateWhere_of_mem he, ?_⟩
  by_cases hsel : (named e && e.openAt ev.now) = true
  · rw [if_pos hsel]
    have hpending := (openAt_pending (Bool.and_eq_true _ _ ▸ hsel).2).1
    have hsame := h.sameIdentity e
    refine ⟨⟨hsame.id, hsame.token, fun hne => absurd hpending hne, fun hclaimed => ?_⟩, ?_⟩
    · rw [hpending] at hclaimed; cases hclaimed
    · rw [hpending]
      rcases h.status e with hst | hst <;> rw [hst]
      · exact .approve
      · exact .reject
  · rw [if_neg hsel]
    exact ⟨.refl e, .stay _⟩

/-- Writing one row over its own version, seen from any row of the table. -/
theorem follows_put {s : EnrollmentStore} {row row' e : EnrollmentRow}
    (hrow : row ∈ s.enrollments.rows) (hfollows : Follows row row')
    (hmove : StatusMove row.status row'.status) (he : e ∈ s.enrollments.rows) :
    ∃ e' ∈ (s.enrollments.put row').rows, Follows e e' ∧ StatusMove e.status e'.status := by
  by_cases hid : e.id = row'.id
  · rw [Table.eq_of_key he hrow (hid.trans hfollows.id)]
    exact ⟨row', Table.mem_put_self, hfollows, hmove⟩
  · exact ⟨e, Table.mem_put.mpr (Or.inr ⟨he, hid⟩), .refl e, .stay _⟩

/-- **What a call does to the rows that are there.** -/
theorem Effect.grows {pg : Postgres} {s s' : EnrollmentStore} {ev : Event} {out : Outcome}
    (heffect : Effect pg s ev out s') :
    Grows s s' ∧ ∀ e ∈ s.enrollments.rows,
      ∃ e' ∈ s'.enrollments.rows, Follows e e' ∧ StatusMove e.status e'.status := by
  have hstay : ∀ e ∈ s.enrollments.rows,
      ∃ e' ∈ s.enrollments.rows, Follows e e' ∧ StatusMove e.status e'.status :=
    fun e he => ⟨e, he, .refl e, .stay _⟩
  -- the enrollments decide the first part; agents and credentials are only added to
  have hgrows : ∀ s' : EnrollmentStore, (∀ a ∈ s.agents.rows, a ∈ s'.agents.rows) →
      (∀ c ∈ s.credentials.rows, ∃ c' ∈ s'.credentials.rows, c.Follows c') →
      (∀ e ∈ s.enrollments.rows,
        ∃ e' ∈ s'.enrollments.rows, Follows e e' ∧ StatusMove e.status e'.status) →
      Grows s s' ∧ ∀ e ∈ s.enrollments.rows,
        ∃ e' ∈ s'.enrollments.rows, Follows e e' ∧ StatusMove e.status e'.status := by
    intro s' hagents hcredentials hrows
    exact ⟨⟨fun e he => let ⟨e', he', hf, _⟩ := hrows e he; ⟨e', he', hf⟩, hagents, hcredentials⟩,
      hrows⟩
  have hcred : ∀ c ∈ s.credentials.rows, ∃ c' ∈ s.credentials.rows, c.Follows c' :=
    fun c hc => ⟨c, hc, rfl, rfl, rfl⟩
  cases heffect with
  | refused => exact hgrows _ (fun _ ha => ha) hcred hstay
  | created row _ hid =>
    refine hgrows _ (fun _ ha => ha) hcred fun e he => ⟨e, ?_, .refl e, .stay _⟩
    exact Table.mem_put.mpr (Or.inr ⟨he, Table.find?_eq_none.mp hid e he⟩)
  | decided named set hset _ _ hdecision =>
    exact hgrows _ (fun _ ha => ha) hcred fun e he => hdecision.follows hset he
  | replayed => exact hgrows _ (fun _ ha => ha) hcred hstay
  | claimed row input agentID credentialID _ hrow hstatus _ hagent _ hcredential =>
    refine hgrows _ (fun a ha => ?_) (fun c hc => ⟨c, ?_, rfl, rfl, rfl⟩)
      fun e he => follows_put hrow ⟨rfl, rfl, fun _ => ⟨?_, rfl, rfl, rfl, rfl⟩, ?_⟩ ?_ he
    · exact Table.mem_put.mpr (Or.inr ⟨ha, Table.find?_eq_none.mp hagent a ha⟩)
    · exact Table.mem_put.mpr (Or.inr ⟨hc, Table.find?_eq_none.mp hcredential c hc⟩)
    · simp [EnrollmentRow.claim]
    · intro hclaimed; rw [hstatus] at hclaimed; cases hclaimed
    · rw [hstatus]
      exact .claim
  | authenticated row hrow =>
    refine hgrows _ (fun _ ha => ha) (fun c hc => ?_) hstay
    by_cases hid : c.id = row.id
    · rw [Table.eq_of_key hc hrow hid]
      exact ⟨_, Table.mem_put_self, rfl, rfl, rfl⟩
    · exact ⟨c, Table.mem_put.mpr (Or.inr ⟨hc, hid⟩), rfl, rfl, rfl⟩

/-- The frame after any sequence of calls. -/
theorem Grows.replay (pg : Postgres) (s : EnrollmentStore) (events : List Event) :
    Grows s (replay pg s events) := by
  induction events generalizing s with
  | nil => exact .refl s
  | cons ev events ih => exact (exec_effect pg s ev).grows.1.trans (ih _)

/-! ## History

A property of the events and the store together. `Origin` says where a row of the new store
comes from, which is the induction step; that at most one row has a given name is what makes
"the approval of this row" the approval in the list. -/

/-- Among the calls is one that approved the enrollment, with the details the row carries. -/
def Approved (pg : Postgres) (events : List Event) (e : EnrollmentRow) : Prop :=
  ∃ before ev after, events = before ++ ev :: after ∧
    ∃ item, (exec pg (replay pg .empty before) ev).1 = .enrollment item ∧ item.id = e.id ∧
      ev.op.approval = some e.details

/-- Among the calls is the first claim of the enrollment, a successful one that met it approved;
it presented the credential `c`. -/
def ClaimedWith (pg : Postgres) (events : List Event) (e : EnrollmentRow) (c : CredentialRow) :
    Prop :=
  ∃ before ev after, events = before ++ ev :: after ∧
    ∃ agentID input item, ev.op = .claim agentID e.tokenHash input ∧
      (exec pg (replay pg .empty before) ev).1 = .enrollment item ∧
      (∃ row ∈ (replay pg .empty before).enrollments.rows, row.id = e.id ∧ row.status = .approved) ∧
      e.agentID = some agentID ∧ c.agentID = agentID ∧
      pg.uuid input.credentialID = some c.id ∧ c.secretHash = input.credentialHash

structure History (pg : Postgres) (events : List Event) (s : EnrollmentStore) : Prop where
  approved : ∀ e ∈ s.enrollments.rows, e.status = .approved ∨ e.status = .claimed →
    Approved pg events e
  claimed : ∀ e ∈ s.enrollments.rows, e.status = .claimed →
    ∃ c ∈ s.credentials.rows, ClaimedWith pg events e c

theorem Approved.later {pg : Postgres} {events more : List Event} {e : EnrollmentRow}
    (h : Approved pg events e) : Approved pg (events ++ more) e := by
  obtain ⟨before, ev, after, rfl, hcall⟩ := h
  exact ⟨before, ev, after ++ more, by simp, hcall⟩

theorem ClaimedWith.later {pg : Postgres} {events more : List Event} {e : EnrollmentRow}
    {c c' : CredentialRow} (h : ClaimedWith pg events e c) (hc : c.Follows c') :
    ClaimedWith pg (events ++ more) e c' := by
  obtain ⟨before, ev, after, rfl, agentID, input, item, hop, hok, hrow, hagent, hholds, huuid,
    hhash⟩ := h
  refine ⟨before, ev, after ++ more, by simp, agentID, input, item, hop, hok, hrow, hagent, ?_, ?_,
    ?_⟩
  · rw [hc.2.1, hholds]
  · rw [hc.1, huuid]
  · rw [hc.2.2, hhash]

/-- A decision is addressed to one enrollment. -/
theorem Paired.names_unique {pg : Postgres} {s : EnrollmentStore} (h : Paired s) {op : Op}
    {e e' : EnrollmentRow} (he : e ∈ s.enrollments.rows) (he' : e' ∈ s.enrollments.rows)
    (hname : op.names pg e = true) (hname' : op.names pg e' = true) : e = e' := by
  unfold Op.names at hname hname'
  split at hname <;> simp only [decide_eq_true_eq] at hname hname'
  · exact h.token e he e' he' (hname.trans hname'.symm)
  · exact h.token e he e' he' (hname.trans hname'.symm)
  · exact Table.eq_of_key he he' (Option.some.inj (hname.symm.trans hname'))
  · exact Table.eq_of_key he he' (Option.some.inj (hname.symm.trans hname'))
  · cases hname

/-- What a call leaves a row that it wrote. -/
inductive Origin (pg : Postgres) (s : EnrollmentStore) (ev : Event) (out : Outcome)
    (s' : EnrollmentStore) (e' : EnrollmentRow) : Prop where
  | old (h : e' ∈ s.enrollments.rows)
  | undecided (h : e'.status = .pending ∨ e'.status = .rejected)
  | approved (h : e'.status = .approved) (item : AgentEnrollment) (hout : out = .enrollment item)
      (hid : item.id = e'.id) (hop : ev.op.approval = some e'.details)
  | claimed (row : EnrollmentRow) (hrow : row ∈ s.enrollments.rows)
      (hstatus : row.status = .approved) (input : ClaimInput) (agentID : UUID)
      (hop : ev.op = .claim agentID row.tokenHash input) (item : AgentEnrollment)
      (hout : out = .enrollment item) (he' : e' = row.claim input agentID ev.now)
      (c : CredentialRow) (hc : c ∈ s'.credentials.rows) (hholds : c.agentID = agentID)
      (huuid : pg.uuid input.credentialID = some c.id) (hhash : c.secretHash = input.credentialHash)

theorem Effect.origin {pg : Postgres} {s s' : EnrollmentStore} {ev : Event} {out : Outcome}
    (hpaired : Paired s) (heffect : Effect pg s ev out s') {e' : EnrollmentRow}
    (he' : e' ∈ s'.enrollments.rows) : Origin pg s ev out s' e' := by
  cases heffect with
  | refused => exact .old he'
  | replayed => exact .old he'
  | authenticated => exact .old he'
  | created row _ _ _ _ _ hstatus =>
    rcases Table.mem_put.mp he' with rfl | ⟨hold, _⟩
    · rcases hstatus with hst | ⟨hst, happroval⟩
      · exact .undecided (Or.inl hst)
      · exact .approved hst _ rfl rfl happroval
    · exact .old hold
  | decided named set hset _ hnamed hdecision row hrow hselected =>
    change e' ∈ (s.enrollments.updateWhere _ set hset).rows at he'
    obtain ⟨e, he, rfl⟩ := Table.mem_updateWhere.mp he'
    by_cases hsel : (named e && e.openAt ev.now) = true
    · rw [if_pos hsel]
      -- the row returned is the row rewritten: the key condition names one
      have hone : e = row := by
        simp only [Bool.and_eq_true, hnamed] at hsel hselected
        exact hpaired.names_unique he hrow hsel.1 hselected.1
      subst hone
      cases hdecision with
      | approve input happroval => exact .approved rfl _ rfl rfl happroval
      | reject => exact .undecided (Or.inr rfl)
    · rw [if_neg hsel]
      exact .old he
  | claimed row input agentID credentialID hop hrow hstatus _ _ huuid _ =>
    rcases Table.mem_put.mp he' with rfl | ⟨hold, _⟩
    · exact .claimed row hrow hstatus input agentID hop _ rfl rfl _ Table.mem_put_self rfl huuid rfl
    · exact .old hold

theorem replay_append (pg : Postgres) (s : EnrollmentStore) (events : List Event) (ev : Event) :
    replay pg s (events ++ [ev]) = (exec pg (replay pg s events) ev).2 := by
  simp [replay]

theorem History.step {pg : Postgres} {events : List Event} {ev : Event}
    (h : History pg events (replay pg .empty events)) :
    History pg (events ++ [ev]) (replay pg .empty (events ++ [ev])) := by
  have heffect := exec_effect pg (replay pg .empty events) ev
  have hpaired := Paired.empty.replay pg events
  rw [replay_append]
  have horigin : ∀ e' ∈ (exec pg (replay pg .empty events) ev).2.enrollments.rows, Origin .. :=
    fun _ he' => heffect.origin hpaired he'
  have hgrows := heffect.grows.1
  constructor
  · intro e' he' hstatus
    cases horigin e' he' with
    | old hold => exact (h.approved e' hold hstatus).later
    | undecided hopen => rcases hopen with hst | hst <;> simp [hst] at hstatus
    | approved _ item hout hid hop => exact ⟨events, ev, [], rfl, item, hout, hid, hop⟩
    | claimed row hrow hst input agentID _ _ _ hclaim =>
      obtain ⟨before, evA, after, hev, item, hok, hid, happroval⟩ :=
        h.approved row hrow (Or.inl hst)
      rw [hclaim]
      exact Approved.later ⟨before, evA, after, hev, item, hok, hid, happroval⟩
  · intro e' he' hclaimed
    cases horigin e' he' with
    | old hold =>
      obtain ⟨c, hc, hwith⟩ := h.claimed e' hold hclaimed
      obtain ⟨c', hc', hfollows⟩ := hgrows.credential c hc
      exact ⟨c', hc', hwith.later hfollows⟩
    | undecided hopen => rcases hopen with hst | hst <;> rw [hst] at hclaimed <;> cases hclaimed
    | approved hst => rw [hst] at hclaimed; cases hclaimed
    | claimed row hrow hst input agentID hop item hout hclaim c hc hholds huuid hhash =>
      subst hclaim
      exact ⟨c, hc, events, ev, [], rfl, agentID, input, item, hop, hout, ⟨row, hrow, rfl, hst⟩,
        rfl, hholds, huuid, hhash⟩

theorem History.replay (pg : Postgres) (events : List Event) :
    History pg events (replay pg .empty events) := by
  induction events using List.reverseRecOn with
  | nil => exact ⟨fun _ he => absurd he (by simp [Enrollment.replay, EnrollmentStore.empty]),
      fun _ he => absurd he (by simp [Enrollment.replay, EnrollmentStore.empty])⟩
  | append_singleton events ev ih => exact ih.step

/-! ## The lifecycle

A claim of a claimed enrollment with the credential of the first claim is answered with the
enrollment and its agent, and leaves the store as it is. With any other it is refused. -/

/-- One claimed enrollment, its agent and its credential. -/
structure Linked (s : EnrollmentStore) (e : EnrollmentRow) (a : AgentRow) (c : CredentialRow) :
    Prop where
  enrollment : e ∈ s.enrollments.rows
  claimed : e.status = .claimed
  agent : a ∈ s.agents.rows
  stands : e.StandsFor a
  credential : c ∈ s.credentials.rows
  holds : c.agentID = a.id

/-- The claimed enrollments, the agents and the credentials correspond one to one. -/
structure OneToOne (s : EnrollmentStore) : Prop where
  enrollment : ∀ e ∈ s.enrollments.rows, e.status = .claimed →
    ∃! p : AgentRow × CredentialRow, Linked s e p.1 p.2
  agent : ∀ a ∈ s.agents.rows, ∃! p : EnrollmentRow × CredentialRow, Linked s p.1 a p.2
  credential : ∀ c ∈ s.credentials.rows, ∃! p : EnrollmentRow × AgentRow, Linked s p.1 p.2 c

/-- Any one of the three rows determines the other two. -/
theorem Paired.linked_unique {s : EnrollmentStore} (h : Paired s) {e e' : EnrollmentRow}
    {a a' : AgentRow} {c c' : CredentialRow} (hl : Linked s e a c) (hl' : Linked s e' a' c')
    (hsame : e = e' ∨ a = a' ∨ c = c') : e = e' ∧ a = a' ∧ c = c' := by
  have hagent : a = a' := by
    rcases hsame with rfl | rfl | rfl
    · exact Table.eq_of_key hl.agent hl'.agent
        (Option.some.inj (hl.stands.1.symm.trans hl'.stands.1))
    · rfl
    · exact Table.eq_of_key hl.agent hl'.agent (hl.holds.symm.trans hl'.holds)
  subst hagent
  exact ⟨h.enrollment_unique e hl.enrollment e' hl'.enrollment a.id hl.stands.1 hl'.stands.1, rfl,
    h.credential_unique c hl.credential c' hl'.credential (hl.holds.trans hl'.holds.symm)⟩

theorem Paired.linked {s : EnrollmentStore} (h : Paired s) {e : EnrollmentRow} {a : AgentRow}
    (he : e ∈ s.enrollments.rows) (hclaimed : e.status = .claimed) (ha : a ∈ s.agents.rows)
    (hid : e.agentID = some a.id) : ∃ c, Linked s e a c := by
  obtain ⟨a', ha', hstands⟩ := h.agent e he hclaimed
  obtain rfl : a' = a := Table.eq_of_key ha' ha (Option.some.inj (hstands.1.symm.trans hid))
  obtain ⟨c, hc, hholds⟩ := h.credential a' ha'
  exact ⟨c, he, hclaimed, ha', hstands, hc, hholds⟩

theorem Paired.oneToOne {s : EnrollmentStore} (h : Paired s) : OneToOne s := by
  constructor
  · intro e he hclaimed
    obtain ⟨a, ha, hstands⟩ := h.agent e he hclaimed
    obtain ⟨c, hl⟩ := h.linked he hclaimed ha hstands.1
    refine ⟨(a, c), hl, fun p hp => ?_⟩
    obtain ⟨_, h₁, h₂⟩ := h.linked_unique hp hl (Or.inl rfl)
    exact Prod.ext h₁ h₂
  · intro a ha
    obtain ⟨e, he, hclaimed, hid⟩ := h.enrollment a ha
    obtain ⟨c, hl⟩ := h.linked he hclaimed ha hid
    refine ⟨(e, c), hl, fun p hp => ?_⟩
    obtain ⟨h₁, _, h₂⟩ := h.linked_unique hp hl (Or.inr (Or.inl rfl))
    exact Prod.ext h₁ h₂
  · intro c hc
    obtain ⟨a, ha, hholds⟩ := h.holder c hc
    obtain ⟨e, he, hclaimed, hid⟩ := h.enrollment a ha
    obtain ⟨c', hl⟩ := h.linked he hclaimed ha hid
    obtain rfl : c' = c := h.credential_unique c' hl.credential c hc (hl.holds.trans hholds.symm)
    refine ⟨(e, a), hl, fun p hp => ?_⟩
    obtain ⟨h₁, h₂, _⟩ := h.linked_unique hp hl (Or.inr (Or.inr rfl))
    exact Prod.ext h₁ h₂

/-- A link is for good: the same agent, and the same credential up to its `last_used_at`. -/
theorem Linked.later {pg : Postgres} {s : EnrollmentStore} {e : EnrollmentRow} {a : AgentRow}
    {c : CredentialRow} (hl : Linked s e a c) (after : List Event) :
    ∃ c', Linked (replay pg s after) e a c' ∧ c.Follows c' := by
  have hgrows := Grows.replay pg s after
  obtain ⟨e', he', hfollows⟩ := hgrows.enrollment e hl.enrollment
  obtain rfl := hfollows.claimed hl.claimed
  obtain ⟨c', hc', hfollows'⟩ := hgrows.credential c hl.credential
  exact ⟨c', ⟨he', hl.claimed, hgrows.agent a hl.agent, hl.stands, hc',
    hfollows'.2.1.trans hl.holds⟩, hfollows'⟩

/-- The credential a claimed enrollment answers to, as a claim request presents it. -/
def ClaimInput.presents (pg : Postgres) (input : ClaimInput) (c : CredentialRow) : Prop :=
  pg.uuid input.credentialID = some c.id ∧ input.credentialHash = c.secretHash

instance (pg : Postgres) (input : ClaimInput) (c : CredentialRow) :
    Decidable (input.presents pg c) :=
  inferInstanceAs (Decidable (_ ∧ _))

/-- A claim of a claimed enrollment: its own credential reads it back, any other is refused. -/
theorem Paired.claim_claimed {pg : Postgres} {s : EnrollmentStore} (h : Paired s)
    {e : EnrollmentRow} {a : AgentRow} {c : CredentialRow} (hl : Linked s e a c)
    (now centerNow : Timestamp) (agentID : UUID) (input : ClaimInput) :
    claimAgentEnrollment pg s now centerNow agentID e.tokenHash input =
      if input.presents pg c then .ok (scanEnrollment now e, s) else .error .enrollmentClaimed := by
  have hshown : shownStatus now e = .stored .claimed := by
    simp [shownStatus, hl.claimed]
  have hstorable : ¬ Store.storable e.tokenHash = false := by simp [h.storable e hl.enrollment]
  unfold claimAgentEnrollment
  rw [if_neg hstorable, h.byToken hl.enrollment]
  simp only [hshown, if_true]
  by_cases hp : input.presents pg c
  · have hfound : s.credential pg input.credentialID input.credentialHash = some c := by
      unfold EnrollmentStore.credential
      rw [hp.1]
      simp only [Table.find?_key hl.credential]
      rw [if_pos ⟨hp.2.symm, h.standing c hl.credential⟩]
    rw [if_pos hp, hfound]
    exact if_pos (by rw [hl.holds, hl.stands.1])
  · rw [if_neg hp]
    cases hfound : s.credential pg input.credentialID input.credentialHash with
    | none => rfl
    | some c' =>
      obtain ⟨hc', huuid, hhash, _⟩ := credential_some hfound
      refine if_neg fun hagent => hp ?_
      have hsame : c'.agentID = c.agentID := by
        rw [hl.stands.1] at hagent
        rw [Option.some.inj hagent, hl.holds]
      obtain rfl := h.credential_unique c' hc' c hl.credential hsame
      exact ⟨huuid, hhash.symm⟩

/-- What one call may do, in a reachable store. -/
structure CallLaw (pg : Postgres) (s : EnrollmentStore) (ev : Event) (out : Outcome)
    (s' : EnrollmentStore) : Prop where
  refused : ∀ error, out = .refused error → s' = s
  moves : ∀ e ∈ s.enrollments.rows,
    ∃ e' ∈ s'.enrollments.rows, e'.id = e.id ∧ StatusMove e.status e'.status
  births : ∀ e' ∈ s'.enrollments.rows, (∀ e ∈ s.enrollments.rows, e.id ≠ e'.id) →
    e'.status = .pending ∨ e'.status = .approved
  decisions : ev.op.decides = true → ∀ item, out = .enrollment item →
    ∃ e ∈ s.enrollments.rows, ev.op.names pg e = true ∧ item.id = e.id ∧ e.status = .pending ∧
      e.expiresAt > ev.now
  firstClaims : ∀ agentID tokenHash input, ev.op = .claim agentID tokenHash input →
    ∀ item, out = .enrollment item → ∃ e ∈ s.enrollments.rows, e.tokenHash = tokenHash ∧
      (e.status = .claimed ∨
        (e.status = .approved ∧ e.expiresAt > ev.now ∧ e.expiresAt > ev.centerNow))
  laterClaims : ∀ agentID input e a c, Linked s e a c → ev.op = .claim agentID e.tokenHash input →
    (input.presents pg c → out = .enrollment (scanEnrollment ev.now e) ∧
        (scanEnrollment ev.now e).agentID = some a.id ∧ s' = s) ∧
      (¬ input.presents pg c → out = .refused .enrollmentClaimed ∧ s' = s)

theorem Effect.births {pg : Postgres} {s s' : EnrollmentStore} {ev : Event} {out : Outcome}
    (heffect : Effect pg s ev out s') {e' : EnrollmentRow} (he' : e' ∈ s'.enrollments.rows)
    (hnew : ∀ e ∈ s.enrollments.rows, e.id ≠ e'.id) :
    e'.status = .pending ∨ e'.status = .approved := by
  cases heffect with
  | refused => exact absurd rfl (hnew e' he')
  | replayed => exact absurd rfl (hnew e' he')
  | authenticated => exact absurd rfl (hnew e' he')
  | created row _ _ _ _ _ hstatus =>
    rcases Table.mem_put.mp he' with rfl | ⟨hold, _⟩
    · exact hstatus.imp id And.left
    · exact absurd rfl (hnew e' hold)
  | decided named set hset _ _ hdecision =>
    obtain ⟨e, he, hsame, _⟩ := mem_decided hset hdecision he'
    exact absurd hsame.id.symm (hnew e he)
  | claimed row input agentID _ _ hrow =>
    rcases Table.mem_put.mp he' with rfl | ⟨hold, _⟩
    · exact absurd rfl (hnew row hrow)
    · exact absurd rfl (hnew e' hold)

theorem callLaw {pg : Postgres} {s : EnrollmentStore} (h : Paired s) (ev : Event) :
    CallLaw pg s ev (exec pg s ev).1 (exec pg s ev).2 := by
  have heffect := exec_effect pg s ev
  refine ⟨?_, ?_, fun e' he' hnew => heffect.births he' hnew, ?_, ?_, ?_⟩
  · -- a refused call leaves everything as it was
    intro error hout
    rw [hout] at heffect
    generalize (exec pg s ev).2 = s' at heffect
    cases heffect
    rfl
  · intro e he
    obtain ⟨e', he', hfollows, hmove⟩ := heffect.grows.2 e he
    exact ⟨e', he', hfollows.id, hmove⟩
  · -- an approval or a rejection was of a pending row that had not expired
    intro hdecides item hout
    rw [hout] at heffect
    generalize (exec pg s ev).2 = s' at heffect
    cases heffect with
    | created row hother => rw [hother] at hdecides; cases hdecides
    | decided named set hset _ hnamed _ row hrow hselected =>
      rw [Bool.and_eq_true, hnamed] at hselected
      exact ⟨row, hrow, hselected.1, hset row, openAt_pending hselected.2⟩
    | replayed row hother => rw [hother] at hdecides; cases hdecides
    | claimed row input agentID _ hop => rw [hop] at hdecides; cases hdecides
  · -- a claim is of the row with the token: replayed, or the first
    intro agentID tokenHash input hop item hout
    simp only [exec, hop] at hout
    rcases settle_cases s .enrollment
      (claimAgentEnrollment pg s ev.now ev.centerNow agentID tokenHash input)
      with ⟨error, _, hx⟩ | ⟨item', s', hok, hx⟩
    · rw [hx] at hout; cases hout
    · obtain ⟨row, hfound, hcase⟩ := claimAgentEnrollment_ok hok
      refine ⟨row, (byToken_mem hfound).1, (byToken_mem hfound).2, ?_⟩
      exact hcase.imp And.left fun hfirst => ⟨hfirst.1, hfirst.2.1, hfirst.2.2.1⟩
  · -- once it is claimed, the answer depends on the credential alone
    intro agentID input e a c hl hop
    simp only [exec, hop, h.claim_claimed hl]
    constructor
    · intro hp
      rw [if_pos hp]
      exact ⟨rfl, hl.stands.1, rfl⟩
    · intro hp
      rw [if_neg hp]
      exact ⟨rfl, rfl⟩

/-- **The enrollment lifecycle**, over any sequence of calls at any times. In the store it leads
to, claimed enrollments, agents and credentials correspond one to one; the agent of a claimed
enrollment carries details some call approved and the credential of the claim that met it
approved, and keeps both whatever follows; and whatever call comes next obeys `CallLaw`. -/
theorem enrollment_lifecycle (pg : Postgres) (events : List Event) :
    OneToOne (replay pg .empty events) ∧
      (∀ e a c, Linked (replay pg .empty events) e a c →
        Approved pg events e ∧ ClaimedWith pg events e c ∧
          ∀ after, ∃ c', Linked (replay pg (replay pg .empty events) after) e a c' ∧ c.Follows c') ∧
      ∀ ev, CallLaw pg (replay pg .empty events) ev (exec pg (replay pg .empty events) ev).1
        (exec pg (replay pg .empty events) ev).2 := by
  have hpaired := Paired.empty.replay pg events
  have hhistory := History.replay pg events
  refine ⟨hpaired.oneToOne, ?_, callLaw hpaired⟩
  intro e a c hl
  refine ⟨hhistory.approved e hl.enrollment (Or.inr hl.claimed), ?_, hl.later⟩
  obtain ⟨c', hc', hwith⟩ := hhistory.claimed e hl.enrollment hl.claimed
  -- the credential of the first claim is the one that is linked today
  have hsame : c' = c := by
    obtain ⟨_, _, _, _, agentID, _, _, _, _, _, hagent, hholds, _⟩ := id hwith
    rw [hl.stands.1] at hagent
    exact hpaired.credential_unique c' hc' c hl.credential
      (by rw [hholds, hl.holds, Option.some.inj hagent])
  exact hsame ▸ hwith

end Cfscan.Enrollment
