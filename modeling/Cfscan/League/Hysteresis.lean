import Mathlib.Data.List.Induction
import Cfscan.League.Evaluate

/-!
# Whole runs of `Evaluate` — what the streak means, and who may change tier

`PlanLeagueTargets` reloads the statistics of an entry before every evaluation and writes the
tier, the streak and `last_evaluated_at` back. A run is therefore a list of `Call`s whose
statistics, `LastResultAt` and thresholds are arbitrary, threaded through the `Standing` that
carries over.

The invariant is `StreakMeaning`. Above observation the streak is not a counter at all: it is
one bit, and it says that the last advancing evaluation was bad and was tolerated. Everything
about demotion is read off that bit, because the branch `BadStreak >= 2` can only be taken when
the bit was set and the present window is bad again.

What a call is given is arbitrary: the windows of two consecutive calls need have nothing to do with
one another, the thresholds may change in between, and `LastResultAt` may go back. So the results
hold however the statistics are computed, and say nothing of how they are.

`hysteresis` is assembled from lemmas on one call: `StreakMeaning.step` for the streak, and one
lemma for each clause of `Disciplined`, which reads it off the meaning the streak had before the
call.
-/

set_option autoImplicit false

namespace Cfscan.League

/-! ## Runs

`Standing` is what a row carries from one call to the next, a `Call` what is loaded anew.
The evaluations of a run are listed with the standing each met, so that a statement about
one of them can look back at those before it. -/

/-- What carries over from one evaluation to the next. -/
structure Standing where
  tier : Tier
  badStreak : Int
  lastEvaluatedAt : Option Time
deriving DecidableEq, Repr

/-- A row as `prefix_league_entries` creates it. -/
def Standing.fresh : Standing := ⟨.observation, 0, none⟩

/-- One call of `Evaluate`: statistics and `LastResultAt` (the standing inside `stats` is
overwritten by the one carried over) and the thresholds of the job being planned. -/
structure Call where
  stats : PrefixLeagueEntry
  thresholds : Thresholds
deriving DecidableEq, Repr

/-- The entry a call passes to `Evaluate`. -/
def Standing.entry (s : Standing) (call : Call) : PrefixLeagueEntry :=
  { call.stats with
    tier := s.tier
    badStreak := s.badStreak
    lastEvaluatedAt := s.lastEvaluatedAt }

@[simp] theorem entry_tier (s : Standing) (call : Call) : (s.entry call).tier = s.tier := rfl

@[simp] theorem entry_badStreak (s : Standing) (call : Call) :
    (s.entry call).badStreak = s.badStreak := rfl

@[simp] theorem entry_lastResultAt (s : Standing) (call : Call) :
    (s.entry call).lastResultAt = call.stats.lastResultAt := rfl

@[simp] theorem entry_lastEvaluatedAt (s : Standing) (call : Call) :
    (s.entry call).lastEvaluatedAt = s.lastEvaluatedAt := rfl

def PrefixLeagueEntry.standing (entry : PrefixLeagueEntry) : Standing :=
  ⟨entry.tier, entry.badStreak, entry.lastEvaluatedAt⟩

/-- The standing a call leaves behind. -/
def Standing.after (s : Standing) (call : Call) : Standing :=
  (evaluate (s.entry call) call.thresholds).standing

/-- The standing a run ends in. -/
def final (s : Standing) (calls : List Call) : Standing := calls.foldl Standing.after s

/-- A call together with the standing it met. -/
structure Evaluation where
  before : Standing
  call : Call
deriving DecidableEq, Repr

namespace Evaluation

def entry (ev : Evaluation) : PrefixLeagueEntry := ev.before.entry ev.call

def result (ev : Evaluation) : PrefixLeagueEntry := evaluate ev.entry ev.call.thresholds

def after (ev : Evaluation) : Standing := ev.before.after ev.call

def Advancing (ev : Evaluation) : Bool := advancing ev.entry

def Bad (ev : Evaluation) : Bool := bad ev.entry ev.call.thresholds

def Severe (ev : Evaluation) : Bool := severe ev.entry

def Good (ev : Evaluation) : Bool := good ev.entry ev.call.thresholds

def ChampionReady (ev : Evaluation) : Bool := championReady ev.entry ev.call.thresholds

/-- The tier moved from `old` to `new` in this call. -/
def Moves (ev : Evaluation) (old new : Tier) : Prop :=
  ev.before.tier = old ∧ ev.after.tier = new

end Evaluation

/-- The calls of a run, each with the standing it met, in order. -/
def evaluations : Standing → List Call → List Evaluation
  | _, [] => []
  | s, call :: calls => ⟨s, call⟩ :: evaluations (s.after call) calls

/-- The last advancing evaluation of a history. -/
def lastAdvancing (history : List Evaluation) : Option Evaluation :=
  (history.filter Evaluation.Advancing).getLast?

theorem evaluations_append (calls : List Call) :
    ∀ (s : Standing) (more : List Call),
      evaluations s (calls ++ more) = evaluations s calls ++ evaluations (final s calls) more := by
  induction calls with
  | nil => intro s more; rfl
  | cons call calls ih =>
    intro s more
    simp only [List.cons_append, evaluations, ih, final, List.foldl_cons]

theorem final_append (s : Standing) (calls more : List Call) :
    final s (calls ++ more) = final (final s calls) more := by
  simp only [final, List.foldl_append]

theorem lastAdvancing_snoc (history : List Evaluation) (ev : Evaluation) :
    lastAdvancing (history ++ [ev]) =
      if ev.Advancing then some ev else lastAdvancing history := by
  unfold lastAdvancing
  rw [List.filter_append]
  by_cases h : ev.Advancing = true
  · simp [h]
  · simp [h]

/-! ## One call

The possible outcomes from each tier, as a case distinction on the predicates of the source.
The steps of the invariant and the clauses of `Disciplined` are both read off from these. -/

/-- An advancing call, read on standings. -/
theorem Standing.after_of_advancing {s : Standing} {call : Call}
    (h : advancing (s.entry call) = true) :
    s.after call =
      ⟨(switchTier (s.entry call) call.thresholds).1,
        (switchTier (s.entry call) call.thresholds).2, call.stats.lastResultAt⟩ := by
  unfold Standing.after
  rw [evaluate_of_advancing h]
  rfl

theorem Standing.after_of_not_advancing {s : Standing} {call : Call}
    (h : advancing (s.entry call) = false) (ht : s.tier ≠ .other "") : s.after call = s := by
  unfold Standing.after
  rw [evaluate_of_not_advancing h ht]
  rfl

/-- What the streak says in the standing `s` after the evaluations of `history`. The tier is
one of the three the source knows, and above observation the streak is the bit "the last
advancing evaluation was bad and left the tier alone". -/
structure StreakMeaning (history : List Evaluation) (s : Standing) : Prop where
  named : ∀ name, s.tier ≠ .other name
  bit : s.tier ≠ .observation → s.badStreak = 0 ∨ s.badStreak = 1
  held : s.tier ≠ .observation →
    (s.badStreak = 1 ↔ ∃ ev, lastAdvancing history = some ev ∧ ev.Bad = true ∧
      ev.after.tier = ev.before.tier)

theorem StreakMeaning.fresh : StreakMeaning [] Standing.fresh where
  named := by intro name h; cases h
  bit := by intro h; exact absurd rfl h
  held := by intro h; exact absurd rfl h

/-- An advancing call out of observation: promoted with a clean streak, or held there. -/
theorem after_observation {s : Standing} {call : Call} (ht : s.tier = .observation)
    (h : advancing (s.entry call) = true) :
    (good (s.entry call) call.thresholds = true ∧ (s.after call).tier = .challenger ∧
        (s.after call).badStreak = 0) ∨
      (s.after call).tier = .observation := by
  have hsw : switchTier (s.entry call) call.thresholds = _ :=
    switchTier_default (by simp [ht]) (by simp [ht])
  rw [Standing.after_of_advancing h, hsw]
  by_cases hg : good (s.entry call) call.thresholds = true
  · simp [hg]
  · simp [hg]

/-- An advancing call out of the challenger tier, in the source's branch order. -/
theorem after_challenger {s : Standing} {call : Call} (ht : s.tier = .challenger)
    (h : advancing (s.entry call) = true) :
    (severe (s.entry call) = true ∧ (s.after call).tier = .observation) ∨
      (championReady (s.entry call) call.thresholds = true ∧ (s.after call).tier = .champion ∧
        (s.after call).badStreak = 0) ∨
      (bad (s.entry call) call.thresholds = true ∧ s.badStreak ≥ 1 ∧
        (s.after call).tier = .observation) ∨
      ((s.after call).tier = .challenger ∧
        (s.after call).badStreak = streakAfter (s.entry call) call.thresholds ∧
        streakAfter (s.entry call) call.thresholds < 2) := by
  have hsw : switchTier (s.entry call) call.thresholds = _ := switchTier_challenger ht
  rw [Standing.after_of_advancing h, hsw]
  by_cases hsev : severe (s.entry call) = true
  · simp [hsev]
  by_cases hready : championReady (s.entry call) call.thresholds = true
  · simp [hsev, hready]
  by_cases hstreak : streakAfter (s.entry call) call.thresholds ≥ 2
  · right; right; left
    have hbad : bad (s.entry call) call.thresholds = true := by
      by_contra hb
      simp [streakAfter, hb] at hstreak
    have hcount : s.badStreak + 1 ≥ 2 := by simpa [streakAfter, hbad] using hstreak
    refine ⟨hbad, by omega, ?_⟩
    simp [hsev, hready, hstreak]
  · right; right; right
    refine ⟨?_, ?_, by omega⟩ <;> simp [hsev, hready, hstreak]

/-- An advancing call out of the champion tier. -/
theorem after_champion {s : Standing} {call : Call} (ht : s.tier = .champion)
    (h : advancing (s.entry call) = true) :
    (severe (s.entry call) = true ∧ (s.after call).tier = .observation) ∨
      (bad (s.entry call) call.thresholds = true ∧ s.badStreak ≥ 1 ∧
        (s.after call).tier = .challenger ∧ (s.after call).badStreak = 0) ∨
      ((s.after call).tier = .champion ∧
        (s.after call).badStreak = streakAfter (s.entry call) call.thresholds ∧
        streakAfter (s.entry call) call.thresholds < 2) := by
  have hsw : switchTier (s.entry call) call.thresholds = _ := switchTier_champion ht
  rw [Standing.after_of_advancing h, hsw]
  by_cases hsev : severe (s.entry call) = true
  · simp [hsev]
  by_cases hstreak : streakAfter (s.entry call) call.thresholds ≥ 2
  · right; left
    have hbad : bad (s.entry call) call.thresholds = true := by
      by_contra hb
      simp [streakAfter, hb] at hstreak
    have hcount : s.badStreak + 1 ≥ 2 := by simpa [streakAfter, hbad] using hstreak
    refine ⟨hbad, by omega, ?_⟩
    simp [hsev, hstreak]
  · right; right
    refine ⟨?_, ?_, by omega⟩ <;> simp [hsev, hstreak]

/-- Holding a tier above observation turns the streak into the bad bit of the call just made. -/
theorem streak_of_held {s : Standing} {call : Call} (hbit : s.badStreak = 0 ∨ s.badStreak = 1)
    (hlt : streakAfter (s.entry call) call.thresholds < 2) :
    (streakAfter (s.entry call) call.thresholds = 0 ∨
        streakAfter (s.entry call) call.thresholds = 1) ∧
      (streakAfter (s.entry call) call.thresholds = 1 ↔
        bad (s.entry call) call.thresholds = true) := by
  by_cases hb : bad (s.entry call) call.thresholds = true
  · have hs : streakAfter (s.entry call) call.thresholds = s.badStreak + 1 := by
      simp [streakAfter, hb]
    rw [hs] at hlt ⊢
    refine ⟨by omega, fun _ => hb, fun _ => by omega⟩
  · have hs : streakAfter (s.entry call) call.thresholds = 0 := by simp [streakAfter, hb]
    rw [hs]
    exact ⟨Or.inl rfl, fun h => absurd h (by decide), fun h => absurd h hb⟩

/-! ## The invariant, call by call

By what the call does to the tier: it ends at observation, where the streak means nothing,
it moves to another tier, which clears the streak, or it stays where it was above
observation. -/

/-- An advancing call into observation owes the invariant nothing but the tier's name. -/
theorem StreakMeaning.observation {history : List Evaluation} {s : Standing}
    (ht : s.tier = .observation) : StreakMeaning history s where
  named := by intro name h; rw [ht] at h; cases h
  bit := by intro h; exact absurd ht h
  held := by intro h; exact absurd ht h

/-- A call that changed the tier and cleared the streak. -/
theorem StreakMeaning.moved {history : List Evaluation} {s : Standing} {ev : Evaluation}
    (hlast : lastAdvancing history = some ev) (hnamed : ∀ name, s.tier ≠ .other name)
    (hafter : ev.after = s) (hmoved : s.tier ≠ ev.before.tier) (hzero : s.badStreak = 0) :
    StreakMeaning history s where
  named := hnamed
  bit := fun _ => Or.inl hzero
  held := by
    intro _
    rw [hzero, hlast]
    constructor
    · intro h; exact absurd h (by decide)
    · rintro ⟨ev', hev, _, hsame⟩
      cases hev
      rw [hafter] at hsame
      exact absurd hsame hmoved

/-- A call that tolerated its window above observation. -/
theorem StreakMeaning.tolerated {history : List Evaluation} {s : Standing} {call : Call}
    (hlast : lastAdvancing history = some ⟨s, call⟩) (hnamed : ∀ name, s.tier ≠ .other name)
    (hbit : s.badStreak = 0 ∨ s.badStreak = 1) (htier : (s.after call).tier = s.tier)
    (hstreak : (s.after call).badStreak = streakAfter (s.entry call) call.thresholds)
    (hlt : streakAfter (s.entry call) call.thresholds < 2) :
    StreakMeaning history (s.after call) := by
  obtain ⟨hrange, hone⟩ := streak_of_held hbit hlt
  refine ⟨fun name => by rw [htier]; exact hnamed name, fun _ => by rw [hstreak]; exact hrange,
    fun _ => ?_⟩
  rw [hstreak, hone, hlast]
  constructor
  · intro hb
    exact ⟨_, rfl, hb, htier⟩
  · rintro ⟨ev, hev, hb, _⟩
    cases hev
    exact hb

/-- **One call keeps the meaning of the streak.** A call that does not advance leaves both the
standing and the last advancing evaluation alone; an advancing one is split on the tier it met,
and each branch either clears the streak while moving or turns it into the present bad bit. -/
theorem StreakMeaning.step {history : List Evaluation} {s : Standing}
    (h : StreakMeaning history s) (call : Call) :
    StreakMeaning (history ++ [⟨s, call⟩]) (s.after call) := by
  by_cases hadv : advancing (s.entry call) = true
  · have hlast : lastAdvancing (history ++ [⟨s, call⟩]) = some ⟨s, call⟩ := by
      rw [lastAdvancing_snoc]
      exact if_pos hadv
    cases ht : s.tier with
    | observation =>
      rcases after_observation ht hadv with ⟨_, htier, hzero⟩ | htier
      · exact .moved hlast (by rw [htier]; intro name hn; cases hn) rfl
          (by rw [htier]; simp [ht]) hzero
      · exact .observation htier
    | challenger =>
      have hbit := h.bit (by rw [ht]; decide)
      rcases after_challenger ht hadv with ⟨_, htier⟩ | ⟨_, htier, hzero⟩ | ⟨_, _, htier⟩ |
        ⟨htier, hstreak, hlt⟩
      · exact .observation htier
      · exact .moved hlast (by rw [htier]; intro name hn; cases hn) rfl
          (by rw [htier]; simp [ht]) hzero
      · exact .observation htier
      · exact .tolerated hlast h.named hbit (htier.trans ht.symm) hstreak hlt
    | champion =>
      have hbit := h.bit (by rw [ht]; decide)
      rcases after_champion ht hadv with ⟨_, htier⟩ | ⟨_, _, htier, hzero⟩ |
        ⟨htier, hstreak, hlt⟩
      · exact .observation htier
      · exact .moved hlast (by rw [htier]; intro name hn; cases hn) rfl
          (by rw [htier]; simp [ht]) hzero
      · exact .tolerated hlast h.named hbit (htier.trans ht.symm) hstreak hlt
    | other name => exact absurd ht (h.named name)
  · have hadv' : advancing (s.entry call) = false := by simpa using hadv
    have hlast : lastAdvancing (history ++ [⟨s, call⟩]) = lastAdvancing history := by
      rw [lastAdvancing_snoc]
      exact if_neg hadv
    rw [Standing.after_of_not_advancing hadv' (h.named "")]
    exact ⟨h.named, h.bit, by rw [hlast]; exact h.held⟩

/-- The meaning of the streak after a whole run, by induction on its last call. -/
theorem streakMeaning_final (calls : List Call) :
    StreakMeaning (evaluations .fresh calls) (final .fresh calls) := by
  induction calls using List.reverseRecOn with
  | nil => exact .fresh
  | append_singleton calls call ih =>
    rw [evaluations_append, final_append]
    exact ih.step call

/-! ## Reading single evaluations out of a run

From "in this run, at this place" to the invariant at the standing the evaluation met, so
that the main theorem needs no induction of its own. -/

/-- Every evaluation of a run met the standing the calls before it had left. -/
theorem evaluations_split {calls : List Call} :
    ∀ {s : Standing} {past future : List Evaluation} {ev : Evaluation},
      evaluations s calls = past ++ ev :: future →
      ∃ before, past = evaluations s before ∧ ev.before = final s before := by
  induction calls with
  | nil => intro s past future ev h; simp [evaluations] at h
  | cons call calls ih =>
    intro s past future ev h
    cases past with
    | nil =>
      simp only [evaluations, List.nil_append, List.cons.injEq] at h
      exact ⟨[], rfl, by rw [← h.1]; rfl⟩
    | cons first past =>
      simp only [evaluations, List.cons_append, List.cons.injEq] at h
      obtain ⟨before, hpast, hbefore⟩ := ih h.2
      refine ⟨call :: before, ?_, hbefore⟩
      rw [evaluations, ← hpast, ← h.1]

/-- So the invariant is available at every evaluation of a run. -/
theorem streakMeaning_before {calls : List Call} {past future : List Evaluation}
    {ev : Evaluation} (h : evaluations .fresh calls = past ++ ev :: future) :
    StreakMeaning past ev.before := by
  obtain ⟨before, hpast, hbefore⟩ := evaluations_split h
  rw [hpast, hbefore]
  exact streakMeaning_final before

/-- A tier only moves in an advancing call. -/
theorem advancing_of_moved {history : List Evaluation} {ev : Evaluation}
    (h : StreakMeaning history ev.before) (hne : ev.after.tier ≠ ev.before.tier) :
    advancing (ev.before.entry ev.call) = true := by
  by_contra hadv
  refine hne ?_
  have := Standing.after_of_not_advancing (by simpa using hadv) (h.named "")
  rw [Evaluation.after, this]

/-- The bit above observation, when it is set, is the badness of the last advancing call. -/
theorem StreakMeaning.last_bad {history : List Evaluation} {s : Standing}
    (h : StreakMeaning history s) (ht : s.tier ≠ .observation) (hone : s.badStreak ≥ 1) :
    ∃ prev, lastAdvancing history = some prev ∧ prev.Bad = true := by
  have hbit := h.bit ht
  obtain ⟨prev, hlast, hbad, _⟩ := (h.held ht).mp (by omega)
  exact ⟨prev, hlast, hbad⟩

/-- `last_evaluated_at` never goes back, and never goes away. -/
theorem lastEvaluatedAt_mono {history : List Evaluation} {ev : Evaluation}
    (h : StreakMeaning history ev.before) {t : Time} (ht : ev.before.lastEvaluatedAt = some t) :
    ∃ t', ev.after.lastEvaluatedAt = some t' ∧ t ≤ t' := by
  by_cases hadv : advancing (ev.before.entry ev.call) = true
  · have hafter : ev.after.lastEvaluatedAt = ev.call.stats.lastResultAt := by
      rw [Evaluation.after, Standing.after_of_advancing hadv]
    rw [hafter]
    unfold advancing at hadv
    simp only [entry_lastResultAt, entry_lastEvaluatedAt, ht] at hadv
    cases hr : ev.call.stats.lastResultAt with
    | none => simp [hr] at hadv
    | some t' =>
      simp only [hr, decide_eq_true_eq] at hadv
      exact ⟨t', rfl, Int.le_of_lt hadv⟩
  · rw [Evaluation.after, Standing.after_of_not_advancing (by simpa using hadv) (h.named "")]
    exact ⟨t, ht, Int.le_refl t⟩

/-- Leaving the non-advancing calls out of a run leaves it where it was. -/
theorem final_filter_advancing (calls : List Call) :
    final .fresh (((evaluations .fresh calls).filter Evaluation.Advancing).map Evaluation.call)
      = final .fresh calls := by
  induction calls using List.reverseRecOn with
  | nil => rfl
  | append_singleton calls call ih =>
    rw [evaluations_append, List.filter_append, List.map_append, final_append, ih, final_append]
    by_cases hadv : advancing ((final .fresh calls).entry call) = true
    · simp [evaluations, Evaluation.Advancing, Evaluation.entry, hadv]
    · have hsame := Standing.after_of_not_advancing (by simpa using hadv)
        ((streakMeaning_final calls).named "")
      have hskip :
          [(⟨final .fresh calls, call⟩ : Evaluation)].filter Evaluation.Advancing = [] := by
        simp [Evaluation.Advancing, Evaluation.entry, hadv]
      show final (final .fresh calls) (List.map _ (List.filter _ [_])) =
        (final .fresh calls).after call
      rw [hskip, hsame]
      rfl

/-! ## Hysteresis -/

/-- Demotion to the tier below takes two bad windows in a row: the one just judged, and the last
advancing one before it. -/
theorem demoted_after_two_bad {past : List Evaluation} {ev : Evaluation}
    (h : StreakMeaning past ev.before) (hmoves : ev.Moves .champion .challenger) :
    ev.Bad = true ∧ ∃ prev, lastAdvancing past = some prev ∧ prev.Bad = true := by
  obtain ⟨ht, hafter⟩ := hmoves
  have hadv := advancing_of_moved h (by rw [ht, hafter]; decide)
  rcases after_champion ht hadv with ⟨_, htier⟩ | ⟨hbad, hone, _⟩ | ⟨htier, _⟩
  · exact absurd (hafter.symm.trans htier) (by decide)
  · exact ⟨hbad, h.last_bad (by rw [ht]; decide) hone⟩
  · exact absurd (hafter.symm.trans htier) (by decide)

/-- A fall to observation is a severe outage or, from the challenger tier, a second bad window. -/
theorem dropped_to_observation {past : List Evaluation} {ev : Evaluation}
    (h : StreakMeaning past ev.before) :
    (ev.Moves .champion .observation → ev.Severe = true) ∧
      (ev.Moves .challenger .observation → ev.Severe = true ∨
        (ev.Bad = true ∧ ∃ prev, lastAdvancing past = some prev ∧ prev.Bad = true)) := by
  constructor
  · rintro ⟨ht, hafter⟩
    have hadv := advancing_of_moved h (by rw [ht, hafter]; decide)
    rcases after_champion ht hadv with ⟨hsev, _⟩ | ⟨_, _, htier, _⟩ | ⟨htier, _⟩
    · exact hsev
    · exact absurd (hafter.symm.trans htier) (by decide)
    · exact absurd (hafter.symm.trans htier) (by decide)
  · rintro ⟨ht, hafter⟩
    have hadv := advancing_of_moved h (by rw [ht, hafter]; decide)
    rcases after_challenger ht hadv with ⟨hsev, _⟩ | ⟨_, htier, _⟩ | ⟨hbad, hone, _⟩ | ⟨htier, _⟩
    · exact Or.inl hsev
    · exact absurd (hafter.symm.trans htier) (by decide)
    · exact Or.inr ⟨hbad, h.last_bad (by rw [ht]; decide) hone⟩
    · exact absurd (hafter.symm.trans htier) (by decide)

/-- Promotion is one tier at a time, on the tier's own condition, in an advancing call. -/
theorem promoted_on_condition {past : List Evaluation} {ev : Evaluation}
    (h : StreakMeaning past ev.before) :
    (ev.Moves .observation .challenger → ev.Advancing = true ∧ ev.Good = true) ∧
      (ev.Moves .challenger .champion → ev.Advancing = true ∧ ev.ChampionReady = true) ∧
      ¬ ev.Moves .observation .champion := by
  refine ⟨?_, ?_, ?_⟩
  · rintro ⟨ht, hafter⟩
    have hadv := advancing_of_moved h (by rw [ht, hafter]; decide)
    rcases after_observation ht hadv with ⟨hgood, _⟩ | htier
    · exact ⟨hadv, hgood⟩
    · exact absurd (hafter.symm.trans htier) (by decide)
  · rintro ⟨ht, hafter⟩
    have hadv := advancing_of_moved h (by rw [ht, hafter]; decide)
    rcases after_challenger ht hadv with ⟨_, htier⟩ | ⟨hready, _⟩ | ⟨_, _, htier⟩ | ⟨htier, _⟩
    · exact absurd (hafter.symm.trans htier) (by decide)
    · exact ⟨hadv, hready⟩
    · exact absurd (hafter.symm.trans htier) (by decide)
    · exact absurd (hafter.symm.trans htier) (by decide)
  · rintro ⟨ht, hafter⟩
    have hadv := advancing_of_moved h (by rw [ht, hafter]; decide)
    rcases after_observation ht hadv with ⟨_, htier, _⟩ | htier
    · exact absurd (hafter.symm.trans htier) (by decide)
    · exact absurd (hafter.symm.trans htier) (by decide)

/-- What holds of one evaluation of a run, given the evaluations before it. -/
structure Disciplined (past : List Evaluation) (ev : Evaluation) : Prop where
  /-- A call that does not advance changes no field of the entry. -/
  idle : ev.Advancing = false → ev.result = ev.entry
  /-- `last_evaluated_at` never decreases. -/
  clock : ∀ t, ev.before.lastEvaluatedAt = some t →
    ∃ t', ev.after.lastEvaluatedAt = some t' ∧ t ≤ t'
  toChallenger : ev.Moves .observation .challenger → ev.Advancing = true ∧ ev.Good = true
  toChampion : ev.Moves .challenger .champion → ev.Advancing = true ∧ ev.ChampionReady = true
  noJump : ¬ ev.Moves .observation .champion
  demoted : ev.Moves .champion .challenger →
    ev.Bad = true ∧ ∃ prev, lastAdvancing past = some prev ∧ prev.Bad = true
  dropped : ev.Moves .champion .observation → ev.Severe = true
  dismissed : ev.Moves .challenger .observation → ev.Severe = true ∨
    (ev.Bad = true ∧ ∃ prev, lastAdvancing past = some prev ∧ prev.Bad = true)

/-- **Hysteresis over whole runs.** From a fresh entry, after any calls: every evaluation is
disciplined by the ones before it; dropping the calls that did not advance ends the run in the
same standing; and above observation the streak is at most 1, being 1 exactly when the last
advancing call was bad and left the tier where it was. -/
theorem hysteresis (calls : List Call) :
    (∀ past ev future, evaluations .fresh calls = past ++ ev :: future → Disciplined past ev) ∧
      final .fresh (((evaluations .fresh calls).filter Evaluation.Advancing).map Evaluation.call)
        = final .fresh calls ∧
      ((final .fresh calls).tier = .challenger ∨ (final .fresh calls).tier = .champion →
        (0 ≤ (final .fresh calls).badStreak ∧ (final .fresh calls).badStreak ≤ 1) ∧
          ((final .fresh calls).badStreak = 1 ↔
            ∃ ev, lastAdvancing (evaluations .fresh calls) = some ev ∧ ev.Bad = true ∧
              ev.after.tier = ev.before.tier)) := by
  refine ⟨fun past ev future hsplit => ?_, final_filter_advancing calls, fun ht => ?_⟩
  · have h := streakMeaning_before hsplit
    have hup := promoted_on_condition h
    have hdown := dropped_to_observation h
    exact
      { idle := fun hadv => evaluate_of_not_advancing hadv (h.named "")
        clock := fun t ht => lastEvaluatedAt_mono h ht
        toChallenger := hup.1
        toChampion := hup.2.1
        noJump := hup.2.2
        demoted := demoted_after_two_bad h
        dropped := hdown.1
        dismissed := hdown.2 }
  · have h := streakMeaning_final calls
    have hne : (final .fresh calls).tier ≠ .observation := by
      rcases ht with ht | ht <;> rw [ht] <;> decide
    refine ⟨?_, h.held hne⟩
    rcases h.bit hne with hzero | hone <;> omega

/-! ## Deterioration and promotion

The recent window as a reader of the documentation would call it bad: the source's `bad`, with
its `RecentLatencyP95MS > 0` guard left out. -/

def RecentBad (entry : PrefixLeagueEntry) (thresholds : Thresholds) : Prop :=
  entry.recentSampleCount ≥ 3 ∧
    (entry.recentAvailabilityRate < 80 ∨
      entry.recentLatencyP95MS > thresholds.maxLatencyMS * (3 / 2) ∨
      entry.recentPacketLossAvg > lossBoundary thresholds)

def RecentSevere (entry : PrefixLeagueEntry) : Prop :=
  entry.recentSampleCount ≥ 3 ∧ entry.recentAvailabilityRate = 0

/-- Deterioration never promotes, and an outage always drops: what a call owes to a bad window. -/
def Deteriorates (entry : PrefixLeagueEntry) (thresholds : Thresholds) : Prop :=
  (RecentBad entry thresholds → (evaluate entry thresholds).tier.rank ≤ entry.tier.rank) ∧
    (RecentSevere entry → (evaluate entry thresholds).tier = .observation)

/-- The promotion branch of the entry's tier is the one its call takes: it is reached from
observation whenever the seven-day window is good, and from the challenger tier when that window
is champion-ready and no outage was caught first. Neither looks at the recent window. -/
def TakesPromotion (entry : PrefixLeagueEntry) (thresholds : Thresholds) : Prop :=
  (entry.tier.rank = 0 ∧ good entry thresholds = true) ∨
    (entry.tier = .challenger ∧ championReady entry thresholds = true ∧ severe entry = false)

theorem severe_iff {entry : PrefixLeagueEntry} : severe entry = true ↔ RecentSevere entry := by
  simp [severe, RecentSevere]

theorem RecentSevere.recentBad {entry : PrefixLeagueEntry} {thresholds : Thresholds}
    (h : RecentSevere entry) : RecentBad entry thresholds :=
  ⟨h.1, Or.inl (by rw [h.2]; decide)⟩

/-- A tier of rank 0 takes the default branch. -/
theorem switchTier_of_rank_zero {entry : PrefixLeagueEntry} {thresholds : Thresholds}
    (h : entry.tier.rank = 0) :
    switchTier entry thresholds =
      if good entry thresholds then (.challenger, 0)
      else (.observation, streakAfter entry thresholds) :=
  switchTier_default (by intro ht; simp [ht] at h) (by intro ht; simp [ht] at h)

/-- Where the promotion branch is not taken the tier cannot rise, and an outage drops it. -/
theorem switchTier_of_not_promotion {entry : PrefixLeagueEntry} {thresholds : Thresholds}
    (h : ¬ TakesPromotion entry thresholds) :
    (switchTier entry thresholds).1.rank ≤ entry.tier.rank ∧
      (severe entry = true → (switchTier entry thresholds).1 = .observation) := by
  by_cases hrank : entry.tier.rank = 0
  · have hgood : good entry thresholds = false := by
      by_contra hg
      exact h (Or.inl ⟨hrank, by simpa using hg⟩)
    rw [switchTier_of_rank_zero hrank]
    simp [hgood, hrank]
  · cases ht : entry.tier with
    | observation | other _ => simp [ht] at hrank
    | challenger =>
      rw [switchTier_challenger ht]
      by_cases hsev : severe entry = true
      · simp [hsev]
      · have hready : championReady entry thresholds = false := by
          by_contra hr
          exact h (Or.inr ⟨ht, by simpa using hr, by simpa using hsev⟩)
        by_cases hstreak : streakAfter entry thresholds ≥ 2 <;> simp [hsev, hready, hstreak]
    | champion =>
      rw [switchTier_champion ht]
      by_cases hsev : severe entry = true
      · simp [hsev]
      · by_cases hstreak : streakAfter entry thresholds ≥ 2 <;> simp [hsev, hstreak]

/-- Where it is taken the tier rises. -/
theorem switchTier_of_promotion {entry : PrefixLeagueEntry} {thresholds : Thresholds}
    (h : TakesPromotion entry thresholds) :
    entry.tier.rank < (switchTier entry thresholds).1.rank := by
  rcases h with ⟨hrank, hgood⟩ | ⟨ht, hready, hsev⟩
  · rw [switchTier_of_rank_zero hrank]
    simp [hgood, hrank]
  · rw [switchTier_challenger ht]
    simp [hsev, hready, ht]

/-- **Which advancing calls let a deteriorating prefix rise**: exactly those whose recent window
is bad while the tier's promotion branch is taken. -/
theorem deterioration_iff {entry : PrefixLeagueEntry} {thresholds : Thresholds}
    (hadv : advancing entry = true) :
    Deteriorates entry thresholds ↔
      ¬ (RecentBad entry thresholds ∧ TakesPromotion entry thresholds) := by
  have htier : (evaluate entry thresholds).tier = (switchTier entry thresholds).1 := by
    rw [evaluate_of_advancing hadv]
  unfold Deteriorates
  rw [htier]
  constructor
  · rintro ⟨hbad, _⟩ ⟨hrecent, hpromotes⟩
    exact absurd (hbad hrecent) (by have := switchTier_of_promotion hpromotes; omega)
  · intro hnot
    have hkept : RecentBad entry thresholds → ¬ TakesPromotion entry thresholds :=
      fun hrecent hpromotes => hnot ⟨hrecent, hpromotes⟩
    refine ⟨fun hrecent => (switchTier_of_not_promotion (hkept hrecent)).1, fun hsev => ?_⟩
    exact (switchTier_of_not_promotion (hkept hsev.recentBad)).2 (severe_iff.mpr hsev)

/-- A champion whose last day was silent: advancing, severe, and promoted by nothing. -/
def silentChampion : PrefixLeagueEntry :=
  { agentID := "agent", prefixCIDR := "104.16.0.0/24", tier := .champion, active := true,
    sampleCount := 60, distinctIPCount := 20, availabilityRate := 95, latencyP95MS := 80,
    packetLossAvg := 5, recentSampleCount := 3, recentAvailabilityRate := 0,
    recentLatencyP95MS := 0, recentPacketLossAvg := 100, badStreak := 0,
    lastResultAt := some 1, lastScheduledAt := none, lastEvaluatedAt := none }

theorem deterioration_iff_champion :
    Deteriorates silentChampion ⟨100, 5⟩ ↔
      ¬ (RecentBad silentChampion ⟨100, 5⟩ ∧ TakesPromotion silentChampion ⟨100, 5⟩) :=
  deterioration_iff (by decide)

/-- The same prefix one evaluation later, from observation: three samples in the last day, none
of them available, and a good week behind it. It is promoted. -/
def silentObservation : PrefixLeagueEntry := { silentChampion with tier := .observation }

theorem deterioration_promotes :
    ¬ ∀ entry thresholds, advancing entry = true → Deteriorates entry thresholds := by
  intro h
  have htier : (evaluate silentObservation ⟨100, 5⟩).tier = .challenger := by decide
  have hdrops := (h silentObservation ⟨100, 5⟩ (by decide)).2 ⟨by decide, by decide⟩
  rw [htier] at hdrops
  exact absurd hdrops (by decide)

end Cfscan.League
