import Cfscan.Recheck.Calls

/-!
# Rounds that do not overlap

The running check of a round and its first insert are two steps, so that two rounds can both pass
the check before either inserts. `Alone` says that this does not happen: a round makes its check
when no other has passed its own and is still going. Then what the check has seen holds on: the
recheck jobs that were over stay over, and nobody adds one.

`Alone` is a condition on the order of two rounds and on nothing else, and nothing in the source
brings it about: the check takes no lock, and the rows it would have to lock are not there yet.
Whether the rounds are started by the schedule or by hand makes no difference here.

The invariant is `Serial`. It speaks of the transactions under way as well as of the rounds: the
sessions of the system are scan calls or groups of exactly one round, so that whoever adds a recheck
job is known.
-/

set_option autoImplicit false

namespace Cfscan.Recheck

open Cfscan.Lib Cfscan.Store Cfscan.Scan

section Rounds

variable {ι : Type}

/-! ## The law and the condition

`Apart` is asked of every state. `Alone` is asked of one kind of act, the check of a round,
and speaks only of the rounds there are at that moment. -/

/-- Between the beginning of a transaction that inserts a job, and its end. -/
def Round.inserting (round : Round) : Bool :=
  match round.phase with
  | .inserting _ _ _ => true
  | _ => false

def activeRecheck (job : ScanJob) : Bool :=
  decide (job.kind = "blacklist_recheck") && job.active

/-- While a round inserts, the recheck jobs that are pending or running are its own. -/
def Apart (w : Rounds ι) : Prop :=
  ∀ round ∈ w.rounds, round.inserting = true → ∀ job ∈ w.system.db.jobs.rows,
    activeRecheck job = true → job.id ∈ round.result.jobIDs

instance (w : Rounds ι) : Decidable (Apart w) :=
  inferInstanceAs (Decidable (∀ round ∈ w.rounds, _ → ∀ job ∈ w.system.db.jobs.rows, _ → _))

/-- `skip_if_running` is enabled in every call. -/
def Skipping : RoundAct ι → Prop
  | .call _ settings => settings.skipIfRunning = true
  | _ => True

/-- A round makes its running check when no round has passed its own and is still going. -/
def Alone (w : Rounds ι) : RoundAct ι → Prop
  | .check _ => ∀ round ∈ w.rounds, round.underWay = false
  | _ => True

instance : (a : RoundAct ι) → Decidable (Skipping a)
  | .call _ settings => inferInstanceAs (Decidable (settings.skipIfRunning = true))
  | .scan _ | .check _ | .select _ _ _ | .next _ _ _ _ | .step _ | .fail _ _ =>
    inferInstanceAs (Decidable True)

instance (w : Rounds ι) : (a : RoundAct ι) → Decidable (Alone w a)
  | .check _ => inferInstanceAs (Decidable (∀ round ∈ w.rounds, round.underWay = false))
  | .scan _ | .call _ _ | .select _ _ _ | .next _ _ _ _ | .step _ | .fail _ _ =>
    inferInstanceAs (Decidable True)

/-! ## The invariant

`Serial` has the soundness of the system, whose sessions are whose, and that at most one
round is under way. `own` is what the check has found: the active recheck jobs are the
round's own. -/

/-- What a round that is under way can rely on. -/
def Own (s : ScanStore) (round : Round) : Prop :=
  round.underWay = true → ∀ job ∈ s.jobs.rows,
    activeRecheck job = true → job.id ∈ round.result.jobIDs

structure Serial (w : Rounds ι) : Prop where
  sound : w.system.Sound Onward Finished Post
  scans : ∀ i session, w.system.sessions (.inl i) = some session →
    ∃ call, session.call = .scan call
  groups : ∀ n session, w.system.sessions (.inr n) = some session → ∃ round g rest remaining,
    w.rounds[n]? = some round ∧ round.phase = .inserting g rest remaining ∧
      session.call = .group g
  skipping : ∀ round ∈ w.rounds, round.settings.skipIfRunning = true
  alone : ∀ (n m : Nat) (round other : Round), w.rounds[n]? = some round → w.rounds[m]? = some other →
    round.underWay = true → other.underWay = true → n = m
  own : ∀ round ∈ w.rounds, Own w.system.db round

section Serial

variable {pg : Postgres} {w : Rounds ι} {s s' : ScanStore} {round : Round} {n : Nat}

theorem Serial.start (h : Finished s) : Serial (Rounds.start ι s) where
  sound := .initial h
  scans := fun _ _ h => by cases h
  groups := fun _ _ h => by cases h
  skipping := fun _ h => absurd h List.not_mem_nil
  alone := fun _ _ _ _ h => by cases h
  own := fun _ h => absurd h List.not_mem_nil

/-- An active recheck job was one before, unless it is new. -/
theorem activeRecheck_onward {job job' : ScanJob} (h : JobOnward job job')
    (hactive : activeRecheck job' = true) : activeRecheck job = true := by
  simp only [activeRecheck, Bool.and_eq_true, decide_eq_true_eq] at hactive ⊢
  refine ⟨h.kind.symm.trans hactive.1, ?_⟩
  by_contra hover
  rw [h.ended (by simpa using hover)] at hactive
  cases hactive.2

theorem Own.later (h : Own s round) (hon : Onward s s')
    (hjobs : ∀ job ∈ s'.jobs.rows, job.id ∈ round.result.jobIDs ∨
      ∃ old ∈ s.jobs.rows, old.id = job.id) : Own s' round := by
  intro hway job' hjob' hactive
  rcases hjobs job' hjob' with hmine | ⟨job, hjob, hid⟩
  · exact hmine
  · obtain ⟨job'', hjob'', hmoved⟩ := hon.jobs job hjob
    obtain rfl : job'' = job' := Table.eq_of_key hjob'' hjob' (hmoved.id.trans hid)
    rw [← hid]
    exact h hway job hjob (activeRecheck_onward hmoved hactive)

/-- The system and one round move. The database only moves if that round is under way. -/
theorem Serial.move (h : Serial w) (round' : Round)
    {c : System (ι ⊕ Nat) ScanStore RowKey Write RecheckCall RecheckReply}
    (hround : w.rounds[n]? = some round) (hsound : c.Sound Onward Finished Post)
    (hothers : ∀ client, client ≠ .inr n → c.sessions client = w.system.sessions client)
    (hself : ∀ session, c.sessions (.inr n) = some session → ∃ g rest remaining,
      round'.phase = .inserting g rest remaining ∧ session.call = .group g)
    (hskip : round'.settings = round.settings)
    (hway : round'.underWay = true →
      round.underWay = true ∨ ∀ other ∈ w.rounds, other.underWay = false)
    (hown : Own c.db round') (hdb : c.db = w.system.db ∨ round.underWay = true) :
    Serial (⟨c, w.rounds.set n round'⟩ : Rounds ι) := by
  have hmem := List.mem_of_getElem? hround
  have hset : ∀ m other, (w.rounds.set n round')[m]? = some other →
      m = n ∧ other = round' ∨ m ≠ n ∧ w.rounds[m]? = some other := by
    intro m other hother
    by_cases hm : m = n
    · subst hm
      rw [List.getElem?_set_self (List.getElem?_eq_some_iff.mp hround).1] at hother
      exact Or.inl ⟨rfl, (Option.some.inj hother).symm⟩
    · exact Or.inr ⟨hm, (List.getElem?_set_ne (Ne.symm hm)).symm.trans hother⟩
  -- a round beside one that goes on is not under way
  have hidle : ∀ m other, m ≠ n → w.rounds[m]? = some other → round'.underWay = true →
      other.underWay = false := by
    intro m other hm hother hgoes
    rcases hway hgoes with hbefore | hnone
    · by_contra hother'
      exact hm (h.alone m n other round hother hround (by simpa using hother') hbefore)
    · exact hnone other (List.mem_of_getElem? hother)
  constructor
  · exact hsound
  · intro i session hs
    exact h.scans i session ((hothers _ (by simp)).symm.trans hs)
  · intro m session hs
    by_cases hm : m = n
    · subst hm
      obtain ⟨g, rest, remaining, hphase, hcall⟩ := hself session hs
      exact ⟨round', g, rest, remaining,
        List.getElem?_set_self (List.getElem?_eq_some_iff.mp hround).1, hphase, hcall⟩
    · have hne : (Sum.inr m : ι ⊕ Nat) ≠ .inr n := fun heq => hm (Sum.inr.inj heq)
      obtain ⟨other, hrest⟩ := h.groups m session ((hothers _ hne).symm.trans hs)
      exact ⟨other, by simpa only [List.getElem?_set_ne (Ne.symm hm)] using hrest⟩
  · intro other hother
    rcases List.mem_or_eq_of_mem_set hother with hold | rfl
    · exact h.skipping other hold
    · rw [hskip]
      exact h.skipping round hmem
  · intro m m' other other' hother hother' hgoes hgoes'
    rcases hset m other hother with ⟨rfl, rfl⟩ | ⟨hm, hold⟩ <;>
      rcases hset m' other' hother' with ⟨rfl, rfl⟩ | ⟨hm', hold'⟩
    · rfl
    · rw [hidle m' other' hm' hold' hgoes] at hgoes'
      cases hgoes'
    · rw [hidle m other hm hold hgoes'] at hgoes
      cases hgoes
    · exact h.alone m m' other other' hold hold' hgoes hgoes'
  · intro other hother
    obtain ⟨m, hm⟩ := List.mem_iff_getElem?.mp hother
    rcases hset m other hm with ⟨_, rfl⟩ | ⟨hne, hold⟩
    · exact hown
    · intro hgoes
      rcases hdb with hsame | hbefore
      · rw [hsame]
        exact h.own other (List.mem_of_getElem? hold) hgoes
      · exact absurd (h.alone m n other round hold hround hgoes hbefore) hne

/-! ### Act by act -/

variable [DecidableEq ι]

/-- What one act of the system does to a database on which every transaction is orderly. -/
theorem Serial.system (h : Serial w) (pg : Postgres) (a : Lib.Act (ι ⊕ Nat) RecheckCall) :
    (w.system.act (RecheckCall.program pg) a).1.Sound Onward Finished Post ∧
      Onward w.system.db (w.system.act (RecheckCall.program pg) a).1.db ∧
      Guarantee Post w.system.db (w.system.act (RecheckCall.program pg) a).1.db
        (w.system.act (RecheckCall.program pg) a).2 :=
  h.sound.act Onward.refl Onward.trans (fun _ _ hs hr => hr.finished hs)
    (fun call _ hs => call_safe hs call) a

omit [DecidableEq ι] in
theorem scanAct_client (a : Lib.Act ι Call) : (scanAct a).client = .inl a.client := by
  cases a <;> rfl

theorem Serial.scan (h : Serial w) (pg : Postgres) (a : Lib.Act ι Call) :
    Serial (w.act pg (.scan a)) := by
  obtain ⟨hsound, hon, hends⟩ := h.system pg (scanAct a)
  have hclient := scanAct_client a
  -- the call that ends, if one does, is not one that creates a job
  have hjobs : ∀ job ∈ (w.system.act (RecheckCall.program pg) (scanAct a)).1.db.jobs.rows,
      ∃ old ∈ w.system.db.jobs.rows, old.id = job.id := by
    intro job hjob
    cases hended : (w.system.act (RecheckCall.program pg) (scanAct a)).2 with
    | none =>
      rw [hended] at hends
      exact ⟨job, hends ▸ hjob, rfl⟩
    | some e =>
      rw [hended] at hends
      obtain ⟨session, hsession, hcall⟩ := System.act_ended hended
      rw [hclient] at hsession
      obtain ⟨call, hscan⟩ := h.scans _ session hsession
      rcases hends job hjob with hfresh | hold
      · rw [hcall, hscan] at hfresh
        cases hfresh
      · exact hold
  refine ⟨hsound, fun i session hs => ?_, fun n session hs => ?_, h.skipping, h.alone,
    fun round hround => (h.own round hround).later hon fun job hjob => Or.inr (hjobs job hjob)⟩
  · by_cases hi : (.inl i : ι ⊕ Nat) = (scanAct a).client
    · have hs : (w.system.act (RecheckCall.program pg) (scanAct a)).1.sessions (.inl i) =
          some session := hs
      rw [hi] at hs
      rcases System.act_call hs with ⟨old, hold, hcall⟩ | hsend
      · rw [hclient] at hold
        obtain ⟨call, hscan⟩ := h.scans _ old hold
        exact ⟨call, hcall.trans hscan⟩
      · cases a with
        | send client call =>
          injection hsend with _ hcall
          exact ⟨call, hcall.symm⟩
        | step client => cases hsend
        | abort client => cases hsend
    · exact h.scans i session ((System.act_sessions_of_ne hi).symm.trans hs)
  · have hne : (.inr n : ι ⊕ Nat) ≠ (scanAct a).client := by
      rw [hclient]
      simp
    exact h.groups n session ((System.act_sessions_of_ne hne).symm.trans hs)

theorem Serial.call (h : Serial w) (world : RecheckWorld) {settings : BlacklistRecheckSettings}
    (hskip : settings.skipIfRunning = true) : Serial (w.act pg (.call world settings)) where
  sound := h.sound
  scans := h.scans
  groups := by
    intro n session hs
    obtain ⟨round, g, rest, remaining, hround, hrest⟩ := h.groups n session hs
    refine ⟨round, g, rest, remaining, ?_, hrest⟩
    exact (List.getElem?_append_left (List.getElem?_eq_some_iff.mp hround).1).trans hround
  skipping := by
    intro round hround
    rcases List.mem_append.mp hround with hold | hnew
    · exact h.skipping round hold
    · rw [List.mem_singleton.mp hnew]
      exact hskip
  alone := by
    intro n m round other hround hother hway hway'
    have hold : ∀ (k : Nat) (r : Round), (w.rounds ++ [.start world settings])[k]? = some r →
        r.underWay = true → w.rounds[k]? = some r := by
      intro k r hr hgoes
      by_cases hk : k < w.rounds.length
      · exact (List.getElem?_append_left hk).symm.trans hr
      · rw [List.getElem?_append_right (not_lt.mp hk)] at hr
        rw [List.mem_singleton.mp (List.mem_of_getElem? hr)] at hgoes
        cases hgoes
    exact h.alone n m round other (hold n round hround hway) (hold m other hother hway') hway hway'
  own := by
    intro round hround
    rcases List.mem_append.mp hround with hold | hnew
    · exact h.own round hold
    · rw [List.mem_singleton.mp hnew]
      exact fun hway => by cases hway

omit [DecidableEq ι] in
/-- A round that leaves the system alone, and is not inserting. -/
theorem Serial.setRound (h : Serial w) {round' : Round} (hround : w.rounds[n]? = some round)
    (hidle : round.inserting = false) (hskip : round'.settings = round.settings)
    (hway : round'.underWay = true →
      round.underWay = true ∨ ∀ other ∈ w.rounds, other.underWay = false)
    (hown : Own w.system.db round') : Serial (w.setRound n round') := by
  refine h.move _ hround h.sound (fun _ _ => rfl) (fun session hs => ?_) hskip hway hown (Or.inl rfl)
  obtain ⟨other, g, rest, remaining, hother, hphase, _⟩ := h.groups n session hs
  rw [hround] at hother
  cases hother
  simp [Round.inserting, hphase] at hidle

/-- The check of a round that goes on has found no active recheck job. -/
theorem own_check (hskip : round.settings.skipIfRunning = true) (s : ScanStore) :
    Own s (round.check s) := by
  intro hway job hjob hactive
  unfold Round.check at hway
  split at hway
  · cases hway
  · rename_i hnone
    have hzero : activeRechecks s = 0 := by
      by_contra hpos
      exact hnone ⟨hskip, Nat.pos_of_ne_zero hpos⟩
    exact absurd hactive (List.countP_eq_zero.mp hzero job hjob)

theorem Serial.check (h : Serial w) (n : Nat) (halone : Alone w (.check n)) :
    Serial (w.act pg (.check n)) := by
  unfold Rounds.act
  dsimp only
  split
  · exact h
  rename_i round hround
  split
  · rename_i hphase
    refine h.setRound hround ?_ ?_ (fun _ => Or.inr halone)
      (own_check (h.skipping round (List.mem_of_getElem? hround)) _)
    · simp [Round.inserting, hphase]
    · unfold Round.check
      split <;> rfl
  · exact h

theorem Serial.select (h : Serial w) (n : Nat) (agents : Agents) (now : Timestamp) :
    Serial (w.act pg (.select n agents now)) := by
  unfold Rounds.act
  dsimp only
  split
  · exact h
  rename_i round hround
  split
  · rename_i hphase
    have hway : round.underWay = true := by simp [Round.underWay, hphase]
    exact h.setRound hround (by simp [Round.inserting, hphase]) rfl (fun _ => Or.inl hway)
      fun _ => h.own round (List.mem_of_getElem? hround) hway
  · exact h

theorem Serial.next (h : Serial w) (n : Nat) (agents : Agents) (now : Timestamp)
    (taskID : Nat → Int) : Serial (w.act pg (.next n agents now taskID)) := by
  unfold Rounds.act
  dsimp only
  split
  · exact h
  rename_i round hround
  split
  swap
  · exact h
  rename_i groups remaining hphase
  have hway : round.underWay = true := by simp [Round.underWay, hphase]
  have hidle : round.inserting = false := by simp [Round.inserting, hphase]
  split
  · exact h.setRound hround hidle rfl (fun hgoes => by cases hgoes) fun hgoes => by cases hgoes
  rename_i group rest _
  have hfree : w.system.sessions (.inr n) = none := by
    by_contra hsome
    obtain ⟨session, hs⟩ := Option.ne_none_iff_exists'.mp hsome
    obtain ⟨other, g, rest, remaining, hother, hinserting, _⟩ := h.groups n session hs
    rw [hround] at hother
    cases hother
    rw [hphase] at hinserting
    cases hinserting
  have hsound := (h.system pg (.send (.inr n) (.group (round.group agents now taskID group)))).1
  refine h.move _ hround hsound (fun client hne => System.act_sessions_of_ne hne) ?_ rfl
    (fun _ => Or.inl hway) ?_ (Or.inr hway)
  · intro session hs
    rw [System.send_sessions hfree] at hs
    cases hs
    exact ⟨_, rest, remaining, rfl, rfl⟩
  · intro _
    rw [System.send_db]
    exact h.own round (List.mem_of_getElem? hround) hway

/-- The jobs after a step of the transaction of a group: those before it, and its own. -/
theorem Serial.step_jobs (h : Serial w) (pg : Postgres) {g : Group} {rest : List Candidates}
    {remaining : Int} (hround : w.rounds[n]? = some round)
    (hphase : round.phase = .inserting g rest remaining) :
    (∀ session, w.system.sessions (.inr n) = some session → session.call = .group g) ∧
      (∀ job ∈ (w.system.act (RecheckCall.program pg) (.step (.inr n))).1.db.jobs.rows,
        job.id = g.jobID ∨ ∃ old ∈ w.system.db.jobs.rows, old.id = job.id) ∧
      ((w.system.act (RecheckCall.program pg) (.step (.inr n))).2 = none →
        (w.system.act (RecheckCall.program pg) (.step (.inr n))).1.db = w.system.db) := by
  have hcalls : ∀ session, w.system.sessions (.inr n) = some session →
      session.call = .group g := by
    intro session hs
    obtain ⟨other, g', rest', remaining', hother, hinserting, hcall⟩ := h.groups n session hs
    rw [hround] at hother
    cases hother
    rw [hphase] at hinserting
    cases hinserting
    exact hcall
  obtain ⟨_, _, hends⟩ := h.system pg (.step (.inr n))
  refine ⟨hcalls, fun job hjob => ?_, fun hnone => ?_⟩
  · cases hended : (w.system.act (RecheckCall.program pg) (.step (.inr n))).2 with
    | none =>
      rw [hended] at hends
      exact Or.inr ⟨job, hends ▸ hjob, rfl⟩
    | some e =>
      rw [hended] at hends
      obtain ⟨session, hs, hcall⟩ := System.act_ended hended
      refine (hends job hjob).imp_left fun hfresh => ?_
      rw [hcall, hcalls session hs] at hfresh
      exact (Option.some.inj hfresh).symm
  · rw [hnone] at hends
    exact hends

theorem Serial.step (h : Serial w) (n : Nat) : Serial (w.act pg (.step n)) := by
  unfold Rounds.act
  dsimp only
  split
  · exact h
  rename_i round hround
  split
  swap
  · exact h
  rename_i g rest remaining hphase
  have hway : round.underWay = true := by simp [Round.underWay, hphase]
  have hown := h.own round (List.mem_of_getElem? hround)
  obtain ⟨hsound, hon, _⟩ := h.system pg (.step (.inr n))
  obtain ⟨hcalls, hjobs, hsame⟩ := h.step_jobs pg hround hphase
  have hothers : ∀ client, client ≠ (.inr n : ι ⊕ Nat) →
      (w.system.act (RecheckCall.program pg) (.step (.inr n))).1.sessions client =
        w.system.sessions client := fun client hne => System.act_sessions_of_ne hne
  -- the round's own session, if it is still open, is working on the same group
  have hself : ∀ session,
      (w.system.act (RecheckCall.program pg) (.step (.inr n))).1.sessions (.inr n) =
        some session → (w.system.act (RecheckCall.program pg) (.step (.inr n))).2 = none ∧
          session.call = .group g := by
    intro session hs
    cases hold : w.system.sessions (.inr n) with
    | none =>
      rcases System.act_call (a := Lib.Act.step (Sum.inr n)) hs with ⟨old, hsome, _⟩ | hsend
      · cases hold.symm.trans hsome
      · cases hsend
    | some old =>
      rcases System.step_sessions (RecheckCall.program pg) hold with
        ⟨_, _, hnone⟩ | ⟨hnone, new, hnew, hcall⟩
      · cases hnone.symm.trans hs
      · cases hnew.symm.trans hs
        exact ⟨hnone, hcall.trans (hcalls old hold)⟩
  split
  · -- the transaction goes on
    rename_i system hact
    rw [hact] at hsound hothers hself hsame
    have hmove := h.move round hround hsound hothers
      (fun session hs => ⟨g, rest, remaining, hphase, (hself session hs).2⟩) rfl Or.inl
      (fun _ => by rw [hsame rfl]; exact hown hway) (Or.inr hway)
    have hset : w.rounds.set n round = w.rounds := by
      obtain ⟨hn, rfl⟩ := List.getElem?_eq_some_iff.mp hround
      exact List.set_getElem_self hn
    rwa [hset] at hmove
  · -- it commits
    rename_i system call reply hact
    rw [hact] at hsound hothers hself hon hjobs
    refine h.move _ hround hsound hothers (fun session hs => ?_) rfl (fun _ => Or.inl hway) ?_
      (Or.inr hway)
    · cases (hself session hs).1
    · have hnow : Own system.db (round.commit g rest remaining) := by
        refine Own.later (s := w.system.db) (fun _ job hjob hactive => ?_) hon fun job hjob => ?_
        · exact List.mem_append_left _ (hown hway job hjob hactive)
        · refine (hjobs job hjob).imp_left fun hid => ?_
          exact List.mem_append_right _ (List.mem_singleton.mpr hid)
      exact hnow
  · -- it rolls back
    rename_i system call reply hact
    rw [hact] at hsound hothers hself
    refine h.move _ hround hsound hothers (fun session hs => ?_) rfl (fun hgoes => by cases hgoes)
      (fun hgoes => by cases hgoes) (Or.inr hway)
    cases (hself session hs).1

theorem Serial.fail (h : Serial w) (n : Nat) (error : StoreError) :
    Serial (w.act pg (.fail n error)) := by
  unfold Rounds.act
  dsimp only
  split
  · exact h
  rename_i round hround
  split
  · exact h
  refine h.move _ hround (h.system pg (.abort (.inr n))).1
    (fun client hne => System.act_sessions_of_ne hne) (fun session hs => ?_) rfl
    (fun hgoes => by cases hgoes) (fun hgoes => by cases hgoes) (Or.inl System.abort_db)
  rw [System.abort_sessions] at hs
  cases hs

theorem Serial.act (h : Serial w) {a : RoundAct ι} (hskip : Skipping a) (halone : Alone w a) :
    Serial (w.act pg a) := by
  cases a with
  | scan a => exact h.scan pg a
  | call world settings => exact h.call world hskip
  | check n => exact h.check n halone
  | select n agents now => exact h.select n agents now
  | next n agents now taskID => exact h.next n agents now taskID
  | step n => exact h.step n
  | fail n error => exact h.fail n error

omit [DecidableEq ι] in
theorem Serial.apart (h : Serial w) : Apart w := by
  intro round hround hinserting
  refine h.own round hround ?_
  unfold Round.inserting at hinserting
  unfold Round.underWay
  split at hinserting
  · rename_i hphase
    rw [hphase]
  · cases hinserting

end Serial

/-- **Rounds do not overlap**, in every run in which every round makes its running check alone. -/
theorem rounds_apart [DecidableEq ι] (pg : Postgres) (start : Timestamp) (events : List Event)
    (acts : List (RoundAct ι))
    (h : Along (Rounds.act pg) (fun w a => Skipping a ∧ Alone w a)
      (Rounds.start ι (replay pg start events).store) acts) :
    Along (Rounds.act pg) (fun w a => Apart (w.act pg a))
      (Rounds.start ι (replay pg start events).store) acts := by
  have hfinished : Finished (replay pg start events).store :=
    finished_of_jobs (JobOk.replay pg start events)
  exact h.sound (Serial.start hfinished) fun w a hserial hp =>
    ⟨hserial.act hp.1 hp.2, (hserial.act hp.1 hp.2).apart⟩

end Rounds

/-! ## Two rounds -/

/-- One blacklisted address: the only result of the job says that it is not available. -/
def oneBlocked : List Event :=
  claimedJob ++ [.call (.submitResults { oneResult with
    results := [{ goodResult with available := false, errorCode := "CONNECT_TIMEOUT" }] })]

/-- The uuids its jobs get start at `id`. It takes every candidate. -/
def wholeWorld (id : Nat) : RecheckWorld where
  ceilQuotient := fun n _ => n
  ceilProduct := fun n _ => n
  tie := fun _ => 0
  newID := fun n => id + n

def wholeSettings : BlacklistRecheckSettings where
  dueOnly := false
  fraction := 1
  maxTargets := 10
  skipIfRunning := true
  attempts := 3
  timeoutMS := 5000
  maxLatencyMS := 1000
  maxPacketLoss := 50
  retryMinutes := 120

/-- The statements of a round after its check, up to the commit of its only transaction. -/
def wholeRound (n : Nat) (taskID : Int) : List (RoundAct Nat) :=
  [.select n (fun _ => some "agent") 0, .next n (fun _ => some "agent") 0 fun k => taskID + k] ++
    List.replicate 12 (.step n)

/-- The second round comes when the first has inserted its job, and is skipped. -/
theorem rounds_apart_skipped :
    Along (Rounds.act oneAddress) (fun w a => Apart (w.act oneAddress a))
      (Rounds.start Nat (replay oneAddress 0 oneBlocked).store)
      ([.call (wholeWorld 10) wholeSettings, .check 0] ++ wholeRound 0 100 ++
        [.next 0 (fun _ => some "agent") 0 (fun k => 101 + k),
          .call (wholeWorld 20) wholeSettings, .check 1] ++ wholeRound 1 200) :=
  rounds_apart oneAddress 0 oneBlocked _ (by decide +kernel)

/-- Both rounds check before either inserts. -/
theorem rounds_overlap :
    ¬ ∀ (pg : Postgres) (start : Timestamp) (events : List Event) (acts : List (RoundAct Nat)),
      Along (Rounds.act pg) (fun _ a => Skipping a)
        (Rounds.start Nat (replay pg start events).store) acts →
      Along (Rounds.act pg) (fun w a => Apart (w.act pg a))
        (Rounds.start Nat (replay pg start events).store) acts := by
  intro h
  have := h oneAddress 0 oneBlocked ([.call (wholeWorld 10) wholeSettings,
    .call (wholeWorld 20) wholeSettings, .check 0, .check 1] ++ wholeRound 0 100 ++
      wholeRound 1 200) (by decide +kernel)
  revert this
  decide +kernel

end Cfscan.Recheck
