import Cfscan.Enrollment.Effect

/-!
# Claimed enrollments, agents and credentials

`Paired` is the invariant behind the enrollment lifecycle: a claimed enrollment, its agent and
its credential point at one another, each at exactly one of the other kinds. A first claim writes
all three rows or none, which is what keeps it; no other call touches the links.

The links are columns of three tables, and every one of them could dangle: nothing but these
invariants says that an `agent_id` names an agent, or that a claimed enrollment has one. The schema
has foreign keys for two of them. The third, that no two enrollments have one agent, comes of the
uuid the server draws for a new agent, which is taken to be new when the insert succeeds.

The proof goes effect by effect, one lemma for each constructor of `Effect`.
-/

set_option autoImplicit false

namespace Cfscan.Enrollment

open Cfscan.Lib Cfscan.Store

/-! ## The invariant -/

/-- The agent a claimed enrollment stands for: linked by id, carrying the approved details. -/
def EnrollmentRow.StandsFor (e : EnrollmentRow) (a : AgentRow) : Prop :=
  e.agentID = some a.id ∧ a.name = e.name ∧ a.region = e.region ∧ a.continent = e.continent ∧
    a.concurrency = e.concurrency

structure Paired (s : EnrollmentStore) : Prop where
  token : ∀ e ∈ s.enrollments.rows, ∀ e' ∈ s.enrollments.rows, e.tokenHash = e'.tokenHash → e = e'
  storable : ∀ e ∈ s.enrollments.rows, storable e.tokenHash = true
  unclaimed : ∀ e ∈ s.enrollments.rows, e.status ≠ .claimed → e.agentID = none
  agent : ∀ e ∈ s.enrollments.rows, e.status = .claimed → ∃ a ∈ s.agents.rows, e.StandsFor a
  enrollment : ∀ a ∈ s.agents.rows,
    ∃ e ∈ s.enrollments.rows, e.status = .claimed ∧ e.agentID = some a.id
  enrollment_unique : ∀ e ∈ s.enrollments.rows, ∀ e' ∈ s.enrollments.rows, ∀ id,
    e.agentID = some id → e'.agentID = some id → e = e'
  credential : ∀ a ∈ s.agents.rows, ∃ c ∈ s.credentials.rows, c.agentID = a.id
  credential_unique : ∀ c ∈ s.credentials.rows, ∀ c' ∈ s.credentials.rows,
    c.agentID = c'.agentID → c = c'
  holder : ∀ c ∈ s.credentials.rows, ∃ a ∈ s.agents.rows, c.agentID = a.id
  standing : ∀ c ∈ s.credentials.rows, c.revokedAt = none

theorem Paired.empty : Paired .empty := by
  constructor <;> intro _ h <;> cases h

theorem Paired.byToken {s : EnrollmentStore} (h : Paired s) {e : EnrollmentRow}
    (he : e ∈ s.enrollments.rows) : s.byToken e.tokenHash = some e := by
  cases hfound : s.byToken e.tokenHash with
  | none =>
    have := List.find?_eq_none.mp hfound e he
    simp at this
  | some e' =>
    obtain ⟨he', htoken⟩ := byToken_mem hfound
    rw [h.token e' he' e he htoken]

theorem byToken_none {s : EnrollmentStore} {tokenHash : String} (h : s.byToken tokenHash = none) :
    ∀ e ∈ s.enrollments.rows, e.tokenHash ≠ tokenHash := by
  intro e he
  simpa using List.find?_eq_none.mp h e he

/-! ### What a decision leaves alone -/

/-- The parts of a row a decision does not write. -/
structure SameIdentity (e e' : EnrollmentRow) : Prop where
  id : e'.id = e.id
  token : e'.tokenHash = e.tokenHash
  agent : e'.agentID = e.agentID

theorem Decision.sameIdentity {ev : Event} {set : EnrollmentRow → EnrollmentRow}
    (h : Decision ev set) (e : EnrollmentRow) : SameIdentity e (set e) := by
  cases h <;> exact ⟨rfl, rfl, rfl⟩

theorem Decision.status {ev : Event} {set : EnrollmentRow → EnrollmentRow}
    (h : Decision ev set) (e : EnrollmentRow) :
    (set e).status = .approved ∨ (set e).status = .rejected := by
  cases h with
  | approve input _ => exact Or.inl rfl
  | reject => exact Or.inr rfl

theorem openAt_pending {now : Timestamp} {e : EnrollmentRow} (h : e.openAt now = true) :
    e.status = .pending ∧ e.expiresAt > now := by
  simpa [EnrollmentRow.openAt] using h

/-- A row of the updated table, and the row it comes from. -/
theorem mem_decided {s : EnrollmentStore} {ev : Event} {named : EnrollmentRow → Bool}
    {set : EnrollmentRow → EnrollmentRow} (hset : ∀ row, (set row).id = row.id)
    (hdecision : Decision ev set) {e' : EnrollmentRow}
    (h : e' ∈
      (s.enrollments.updateWhere (fun row => named row && row.openAt ev.now) set hset).rows) :
    ∃ e ∈ s.enrollments.rows, SameIdentity e e' ∧
      (e' = e ∨ (e.status = .pending ∧ (e'.status = .approved ∨ e'.status = .rejected))) := by
  obtain ⟨e, he, rfl⟩ := Table.mem_updateWhere.mp h
  refine ⟨e, he, ?_⟩
  by_cases hsel : (named e && e.openAt ev.now) = true
  · rw [if_pos hsel]
    have hopen := (Bool.and_eq_true _ _ ▸ hsel).2
    exact ⟨hdecision.sameIdentity e, Or.inr ⟨(openAt_pending hopen).1, hdecision.status e⟩⟩
  · rw [if_neg hsel]
    exact ⟨⟨rfl, rfl, rfl⟩, Or.inl rfl⟩

/-! ### The invariant, effect by effect -/

theorem Paired.created {s : EnrollmentStore} (h : Paired s) {row : EnrollmentRow}
    (hid : s.enrollments.find? row.id = none) (htoken : s.byToken row.tokenHash = none)
    (hstorable : Store.storable row.tokenHash = true) (hstatus : row.status ≠ .claimed)
    (hagent : row.agentID = none) :
    Paired { s with enrollments := s.enrollments.put row } := by
  have hnew : ∀ e ∈ s.enrollments.rows, e.tokenHash ≠ row.tokenHash := byToken_none htoken
  have hkept : ∀ e ∈ s.enrollments.rows, e.id ≠ row.id := Table.find?_eq_none.mp hid
  have hmem : ∀ e, e ∈ (s.enrollments.put row).rows ↔ e = row ∨ e ∈ s.enrollments.rows := by
    intro e
    rw [Table.mem_put]
    exact or_congr Iff.rfl ⟨fun he => he.1, fun he => ⟨he, hkept e he⟩⟩
  refine
    { token := ?_, storable := ?_, unclaimed := ?_, agent := ?_, enrollment := ?_,
      enrollment_unique := ?_, credential := h.credential,
      credential_unique := h.credential_unique, holder := h.holder, standing := h.standing }
  · intro e he e' he' htok
    rcases (hmem e).mp he with rfl | hold <;> rcases (hmem e').mp he' with rfl | hold'
    · rfl
    · exact absurd htok.symm (hnew e' hold')
    · exact absurd htok (hnew e hold)
    · exact h.token e hold e' hold' htok
  · intro e he
    rcases (hmem e).mp he with rfl | hold
    · exact hstorable
    · exact h.storable e hold
  · intro e he hne
    rcases (hmem e).mp he with rfl | he
    · exact hagent
    · exact h.unclaimed e he hne
  · intro e he hclaimed
    rcases (hmem e).mp he with rfl | he
    · exact absurd hclaimed hstatus
    · exact h.agent e he hclaimed
  · intro a ha
    obtain ⟨e, he, hclaimed, hlink⟩ := h.enrollment a ha
    exact ⟨e, (hmem e).mpr (Or.inr he), hclaimed, hlink⟩
  · intro e he e' he' id hlink hlink'
    rcases (hmem e).mp he with rfl | he
    · rw [hagent] at hlink; cases hlink
    rcases (hmem e').mp he' with rfl | he'
    · rw [hagent] at hlink'; cases hlink'
    exact h.enrollment_unique e he e' he' id hlink hlink'

theorem Paired.decided {s : EnrollmentStore} (h : Paired s) {ev : Event}
    {named : EnrollmentRow → Bool} {set : EnrollmentRow → EnrollmentRow}
    (hset : ∀ row, (set row).id = row.id) (hdecision : Decision ev set) :
    Paired { s with
      enrollments := s.enrollments.updateWhere (fun row => named row && row.openAt ev.now) set
        hset } := by
  -- a row of the new table that is linked or claimed is a row of the old one, untouched
  have hlinked : ∀ e' ∈ (s.enrollments.updateWhere (fun row => named row && row.openAt ev.now) set
      hset).rows, e'.agentID ≠ none → e' ∈ s.enrollments.rows := by
    intro e' he' hne
    obtain ⟨e, he, hsame, rfl | ⟨hpending, _⟩⟩ := mem_decided hset hdecision he'
    · exact he
    · rw [hsame.agent, h.unclaimed e he (by rw [hpending]; decide)] at hne
      exact absurd rfl hne
  refine
    { token := ?_, storable := ?_, unclaimed := ?_, agent := ?_, enrollment := ?_,
      enrollment_unique := ?_, credential := h.credential,
      credential_unique := h.credential_unique, holder := h.holder, standing := h.standing }
  · intro e he e' he' htok
    obtain ⟨e₀, he₀, hsame, _⟩ := mem_decided hset hdecision he
    obtain ⟨e₀', he₀', hsame', _⟩ := mem_decided hset hdecision he'
    have : e₀ = e₀' := h.token e₀ he₀ e₀' he₀' (by rw [← hsame.token, ← hsame'.token, htok])
    exact Table.eq_of_key he he' (by rw [hsame.id, hsame'.id, this])
  · intro e he
    obtain ⟨e₀, he₀, hsame, _⟩ := mem_decided hset hdecision he
    rw [hsame.token]
    exact h.storable e₀ he₀
  · intro e he hne
    obtain ⟨e₀, he₀, hsame, rfl | ⟨hpending, _⟩⟩ := mem_decided hset hdecision he
    · exact h.unclaimed e he₀ hne
    · rw [hsame.agent]
      exact h.unclaimed e₀ he₀ (by rw [hpending]; decide)
  · intro e he hclaimed
    obtain ⟨e₀, he₀, _, rfl | ⟨_, hstatus⟩⟩ := mem_decided hset hdecision he
    · exact h.agent e he₀ hclaimed
    · rcases hstatus with hst | hst <;> rw [hst] at hclaimed <;> cases hclaimed
  · intro a ha
    obtain ⟨e, he, hclaimed, hlink⟩ := h.enrollment a ha
    have hclosed : (named e && e.openAt ev.now) = false := by
      simp [EnrollmentRow.openAt, hclaimed]
    have : (if named e && e.openAt ev.now then set e else e) ∈ (s.enrollments.updateWhere
        (fun row => named row && row.openAt ev.now) set hset).rows :=
      Table.mem_updateWhere_of_mem he
    rw [if_neg (by simp [hclosed])] at this
    exact ⟨e, this, hclaimed, hlink⟩
  · intro e he e' he' id hlink hlink'
    exact h.enrollment_unique e (hlinked e he (by simp [hlink])) e'
      (hlinked e' he' (by simp [hlink'])) id hlink hlink'

theorem Paired.claimed {s : EnrollmentStore} (h : Paired s) {now : Timestamp}
    {row : EnrollmentRow} {input : ClaimInput} {agentID credentialID : UUID}
    (hrow : row ∈ s.enrollments.rows) (hstatus : row.status = .approved)
    (hagent : s.agents.find? agentID = none)
    (hcredential : s.credentials.find? credentialID = none) :
    Paired
      { enrollments := s.enrollments.put (row.claim input agentID now)
        agents := s.agents.put (claimedAgent row input agentID now)
        credentials := s.credentials.put
          { id := credentialID, agentID := agentID, secretHash := input.credentialHash,
            createdAt := now, lastUsedAt := none, revokedAt := none } } := by
  have hfree : ∀ a ∈ s.agents.rows, a.id ≠ agentID := Table.find?_eq_none.mp hagent
  have hunused : ∀ c ∈ s.credentials.rows, c.id ≠ credentialID := Table.find?_eq_none.mp hcredential
  -- no old row points at the new agent
  have hnolink : ∀ e ∈ s.enrollments.rows, e.agentID ≠ some agentID := by
    intro e he hlink
    by_cases hclaimed : e.status = .claimed
    · obtain ⟨a, ha, hstands⟩ := h.agent e he hclaimed
      exact hfree a ha (Option.some.inj (hstands.1.symm.trans hlink))
    · rw [h.unclaimed e he hclaimed] at hlink; cases hlink
  have hnohold : ∀ c ∈ s.credentials.rows, c.agentID ≠ agentID := by
    intro c hc hlink
    obtain ⟨a, ha, hholds⟩ := h.holder c hc
    exact hfree a ha (hholds.symm.trans hlink)
  refine
    { token := ?_, storable := ?_, unclaimed := ?_, agent := ?_, enrollment := ?_,
      enrollment_unique := ?_, credential := ?_, credential_unique := ?_, holder := ?_,
      standing := ?_ }
  · intro e he e' he' htok
    rcases Table.mem_put.mp he with rfl | ⟨hold, hne⟩ <;>
      rcases Table.mem_put.mp he' with rfl | ⟨hold', hne'⟩
    · rfl
    · exact absurd (congrArg EnrollmentRow.id (h.token row hrow e' hold' htok)).symm hne'
    · exact absurd (congrArg EnrollmentRow.id (h.token e hold row hrow htok)) hne
    · exact h.token e hold e' hold' htok
  · intro e he
    rcases Table.mem_put.mp he with rfl | ⟨hold, _⟩
    · exact h.storable row hrow
    · exact h.storable e hold
  · intro e he hne
    rcases Table.mem_put.mp he with rfl | ⟨he, _⟩
    · exact absurd rfl hne
    · exact h.unclaimed e he hne
  · intro e he hclaimed
    rcases Table.mem_put.mp he with rfl | ⟨he, _⟩
    · exact ⟨_, Table.mem_put_self, rfl, rfl, rfl, rfl, rfl⟩
    · obtain ⟨a, ha, hstands⟩ := h.agent e he hclaimed
      exact ⟨a, Table.mem_put.mpr (Or.inr ⟨ha, hfree a ha⟩), hstands⟩
  · intro a ha
    rcases Table.mem_put.mp ha with rfl | ⟨ha, _⟩
    · exact ⟨_, Table.mem_put_self, rfl, rfl⟩
    · obtain ⟨e, he, hclaimed, hlink⟩ := h.enrollment a ha
      refine ⟨e, Table.mem_put.mpr (Or.inr ⟨he, fun hid => ?_⟩), hclaimed, hlink⟩
      have hsame : e = row := Table.eq_of_key he hrow hid
      rw [hsame, hstatus] at hclaimed
      cases hclaimed
  · intro e he e' he' id hlink hlink'
    rcases Table.mem_put.mp he with rfl | ⟨hold, _⟩ <;>
      rcases Table.mem_put.mp he' with rfl | ⟨hold', _⟩
    · rfl
    · rw [← hlink] at hlink'
      exact absurd hlink' (hnolink e' hold')
    · rw [← hlink'] at hlink
      exact absurd hlink (hnolink e hold)
    · exact h.enrollment_unique e hold e' hold' id hlink hlink'
  · intro a ha
    rcases Table.mem_put.mp ha with rfl | ⟨ha, _⟩
    · exact ⟨_, Table.mem_put_self, rfl⟩
    · obtain ⟨c, hc, hlink⟩ := h.credential a ha
      exact ⟨c, Table.mem_put.mpr (Or.inr ⟨hc, hunused c hc⟩), hlink⟩
  · intro c hc c' hc' hlink
    rcases Table.mem_put.mp hc with rfl | ⟨hold, _⟩ <;>
      rcases Table.mem_put.mp hc' with rfl | ⟨hold', _⟩
    · rfl
    · exact absurd hlink.symm (hnohold c' hold')
    · exact absurd hlink (hnohold c hold)
    · exact h.credential_unique c hold c' hold' hlink
  · intro c hc
    rcases Table.mem_put.mp hc with rfl | ⟨hc, _⟩
    · exact ⟨_, Table.mem_put_self, rfl⟩
    · obtain ⟨a, ha, hlink⟩ := h.holder c hc
      exact ⟨a, Table.mem_put.mpr (Or.inr ⟨ha, hfree a ha⟩), hlink⟩
  · intro c hc
    rcases Table.mem_put.mp hc with rfl | ⟨hc, _⟩
    · rfl
    · exact h.standing c hc

/-- Authentication rewrites one credential's `last_used_at`. -/
theorem Paired.authenticated {s : EnrollmentStore} (h : Paired s) {now : Timestamp}
    {row : CredentialRow} (hrow : row ∈ s.credentials.rows) :
    Paired { s with credentials := s.credentials.put { row with lastUsedAt := some now } } := by
  -- the rows of the new table are those of the old one, up to `last_used_at`
  have hback : ∀ c ∈ (s.credentials.put { row with lastUsedAt := some now }).rows,
      ∃ c₀ ∈ s.credentials.rows, c₀.id = c.id ∧ c₀.agentID = c.agentID ∧
        c₀.revokedAt = c.revokedAt := by
    intro c hc
    rcases Table.mem_put.mp hc with rfl | ⟨hc, _⟩
    · exact ⟨row, hrow, rfl, rfl, rfl⟩
    · exact ⟨c, hc, rfl, rfl, rfl⟩
  refine
    { token := h.token, storable := h.storable, unclaimed := h.unclaimed, agent := h.agent,
      enrollment := h.enrollment, enrollment_unique := h.enrollment_unique, credential := ?_,
      credential_unique := ?_, holder := ?_, standing := ?_ }
  · intro a ha
    obtain ⟨c, hc, hlink⟩ := h.credential a ha
    by_cases hid : c.id = row.id
    · rw [Table.eq_of_key hc hrow hid] at hlink
      exact ⟨_, Table.mem_put_self, hlink⟩
    · exact ⟨c, Table.mem_put.mpr (Or.inr ⟨hc, hid⟩), hlink⟩
  · intro c hc c' hc' hlink
    obtain ⟨c₀, hc₀, hid, hagent, _⟩ := hback c hc
    obtain ⟨c₀', hc₀', hid', hagent', _⟩ := hback c' hc'
    have : c₀ = c₀' := h.credential_unique c₀ hc₀ c₀' hc₀' (by rw [hagent, hagent', hlink])
    exact Table.eq_of_key hc hc' (by rw [← hid, ← hid', this])
  · intro c hc
    obtain ⟨c₀, hc₀, _, hagent, _⟩ := hback c hc
    obtain ⟨a, ha, hlink⟩ := h.holder c₀ hc₀
    exact ⟨a, ha, hagent.symm.trans hlink⟩
  · intro c hc
    obtain ⟨c₀, hc₀, _, _, hrevoked⟩ := hback c hc
    exact hrevoked.symm.trans (h.standing c₀ hc₀)

theorem Paired.effect {pg : Postgres} {s s' : EnrollmentStore} {ev : Event} {out : Outcome}
    (h : Paired s) (heffect : Effect pg s ev out s') : Paired s' := by
  cases heffect with
  | refused => exact h
  | created row _ hid htoken hstorable hagent hstatus =>
    refine h.created hid htoken hstorable ?_ hagent
    rcases hstatus with hst | ⟨hst, _⟩ <;> rw [hst] <;> decide
  | decided named set hset _ _ hdecision => exact h.decided hset hdecision
  | replayed => exact h
  | claimed row input agentID credentialID _ hrow hstatus _ hagent _ hcredential =>
    exact h.claimed hrow hstatus hagent hcredential
  | authenticated row hrow => exact h.authenticated hrow

/-- The invariant after any sequence of calls. -/
theorem Paired.replay (pg : Postgres) {s : EnrollmentStore} (h : Paired s) (events : List Event) :
    Paired (replay pg s events) := by
  induction events generalizing s with
  | nil => exact h
  | cons ev events ih => exact ih (h.effect (exec_effect pg s ev))

end Cfscan.Enrollment
