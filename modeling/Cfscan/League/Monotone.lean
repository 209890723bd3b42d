import Mathlib.Tactic.Linarith
import Cfscan.League.Evaluate

/-!
# Looser thresholds never cost a tier

What makes a prefix rise grows with the thresholds, and what makes it fall shrinks. The streak under
the looser ones is no longer, for every entry whose streak is not negative (`evaluate_mono`); a
negative one counts up to a value below the zero it is reset to.

Both halves are about one call from one entry. They do not compose to runs: where the looser run is
a champion and the stricter one a challenger, a bad day can take the first a step down and, the week
being good, the second a step up.

The streak is a column that may hold any `INTEGER`, and only `Evaluate` keeps it from being
negative, by never writing one that is. That is the only use of the hypothesis.
-/

set_option autoImplicit false

namespace Cfscan.League

/-- `t'` tolerates what `t` does. -/
structure Thresholds.Tighter (t t' : Thresholds) : Prop where
  latency : t.maxLatencyMS ≤ t'.maxLatencyMS
  loss : t.maxPacketLoss ≤ t'.maxPacketLoss

section Mono

variable {entry : PrefixLeagueEntry} {t t' : Thresholds}

theorem positiveWithin_mono {value maximum maximum' : ℚ} (h : maximum ≤ maximum')
    (hwithin : positiveWithin value maximum = true) : positiveWithin value maximum' = true := by
  simp only [positiveWithin, Bool.and_eq_true, decide_eq_true_eq] at hwithin ⊢
  obtain ⟨⟨hvalue, hmaximum⟩, hle⟩ := hwithin
  exact ⟨⟨hvalue, lt_of_lt_of_le hmaximum h⟩, hle.trans h⟩

theorem good_mono (h : t.Tighter t') (hgood : good entry t = true) : good entry t' = true := by
  simp only [good, Bool.and_eq_true, decide_eq_true_eq] at hgood ⊢
  obtain ⟨⟨hcounts, hwithin⟩, hloss⟩ := hgood
  exact ⟨⟨hcounts, positiveWithin_mono h.latency hwithin⟩, hloss.trans h.loss⟩

theorem championReady_mono (h : t.Tighter t') (hready : championReady entry t = true) :
    championReady entry t' = true := by
  simp only [championReady, Bool.and_eq_true, decide_eq_true_eq] at hready ⊢
  obtain ⟨⟨hcounts, hwithin⟩, hloss⟩ := hready
  exact ⟨⟨hcounts, positiveWithin_mono h.latency hwithin⟩, hloss.trans h.loss⟩

/-- The cap at 100 is the same for both. -/
theorem lossBoundary_mono (h : t.Tighter t') : lossBoundary t ≤ lossBoundary t' := by
  have hloss := h.loss
  unfold lossBoundary
  dsimp only
  split <;> split <;> linarith

theorem bad_anti (h : t.Tighter t') (hbad : bad entry t' = true) : bad entry t = true := by
  simp only [bad, Bool.and_eq_true, Bool.or_eq_true, decide_eq_true_eq] at hbad ⊢
  obtain ⟨hsamples, (havailability | ⟨hmeasured, hslow⟩) | hlossy⟩ := hbad
  · exact ⟨hsamples, .inl (.inl havailability)⟩
  · have hlatency := h.latency
    exact ⟨hsamples, .inl (.inr ⟨hmeasured, by linarith⟩)⟩
  · exact ⟨hsamples, .inr (lt_of_le_of_lt (lossBoundary_mono h) hlossy)⟩

/-- A streak that reaches two under the looser thresholds reaches two under the others. -/
theorem two_le_streakAfter (h : t.Tighter t') (hstreak : streakAfter entry t' ≥ 2) :
    streakAfter entry t ≥ 2 := by
  unfold streakAfter at hstreak ⊢
  split at hstreak
  case isTrue hbad =>
    rw [if_pos (bad_anti h hbad)]
    exact hstreak
  case isFalse => omega

theorem streakAfter_le (h : t.Tighter t') (hstreak : -1 ≤ entry.badStreak) :
    streakAfter entry t' ≤ streakAfter entry t := by
  unfold streakAfter
  split
  case isTrue hbad => rw [if_pos (bad_anti h hbad)]
  case isFalse =>
    split
    · omega
    · exact le_rfl

/-- What the switch leaves under the two, whatever the streak they are compared by. -/
theorem switchTier_mono (entry : PrefixLeagueEntry) (h : t.Tighter t') :
    (switchTier entry t).1.rank ≤ (switchTier entry t').1.rank ∧
      (streakAfter entry t' ≤ streakAfter entry t →
        (switchTier entry t).1 = (switchTier entry t').1 →
          (switchTier entry t').2 ≤ (switchTier entry t).2) := by
  cases htier : entry.tier with
  | champion =>
    rw [switchTier_champion htier, switchTier_champion htier]
    by_cases hsevere : severe entry = true
    · rw [if_pos hsevere, if_pos hsevere]
      exact ⟨le_rfl, fun _ _ => le_rfl⟩
    -- under the tighter thresholds the streak is the longer one: what falls under the looser falls there
    · rw [if_neg hsevere, if_neg hsevere]
      by_cases hfalls : streakAfter entry t' ≥ 2
      · rw [if_pos hfalls, if_pos (two_le_streakAfter h hfalls)]
        exact ⟨le_rfl, fun _ _ => le_rfl⟩
      · rw [if_neg hfalls]
        split
        · exact ⟨by simp, fun _ heq => by cases heq⟩
        · exact ⟨le_rfl, fun hle _ => hle⟩
  | challenger =>
    rw [switchTier_challenger htier, switchTier_challenger htier]
    by_cases hsevere : severe entry = true
    · rw [if_pos hsevere, if_pos hsevere]
      exact ⟨le_rfl, fun _ _ => le_rfl⟩
    · rw [if_neg hsevere, if_neg hsevere]
      -- the source asks for a rise before it asks for a fall
      by_cases hrises : championReady entry t = true
      · rw [if_pos hrises, if_pos (championReady_mono h hrises)]
        exact ⟨le_rfl, fun _ _ => le_rfl⟩
      · rw [if_neg hrises]
        by_cases hfalls : streakAfter entry t' ≥ 2
        · rw [if_pos (two_le_streakAfter h hfalls), if_pos hfalls]
          exact ⟨by simp, fun _ heq => by split <;> exact le_rfl⟩
        · rw [if_neg hfalls]
          split <;> split
          · exact ⟨by simp, fun _ heq => by cases heq⟩
          · exact ⟨by simp, fun _ heq => by cases heq⟩
          · exact ⟨by simp, fun _ heq => by cases heq⟩
          · exact ⟨le_rfl, fun hle _ => hle⟩
  | observation | other _ =>
    rw [switchTier_default (by simp [htier]) (by simp [htier]),
      switchTier_default (by simp [htier]) (by simp [htier])]
    by_cases hrises : good entry t = true
    · rw [if_pos hrises, if_pos (good_mono h hrises)]
      exact ⟨le_rfl, fun _ _ => le_rfl⟩
    · rw [if_neg hrises]
      split
      · exact ⟨by simp, fun _ heq => by cases heq⟩
      · exact ⟨le_rfl, fun hle _ => hle⟩

/-- An evaluation under looser thresholds leaves no lower tier; and where it leaves the same one, no
longer streak, for a streak that is not negative before. -/
theorem evaluate_mono (hlatency : t'.maxLatencyMS ≥ t.maxLatencyMS)
    (hloss : t'.maxPacketLoss ≥ t.maxPacketLoss) :
    (evaluate entry t).tier.rank ≤ (evaluate entry t').tier.rank ∧
      (-1 ≤ entry.badStreak → (evaluate entry t).tier = (evaluate entry t').tier →
        (evaluate entry t').badStreak ≤ (evaluate entry t).badStreak) := by
  have h : t.Tighter t' := ⟨hlatency, hloss⟩
  cases hadvancing : advancing entry with
  | true =>
    rw [evaluate_of_advancing hadvancing, evaluate_of_advancing hadvancing]
    obtain ⟨htier, hstreak⟩ := switchTier_mono entry h
    exact ⟨htier, fun hbad => hstreak (streakAfter_le h hbad)⟩
  | false =>
    have hsame : evaluate entry t = evaluate entry t' := evaluate_of_stale hadvancing
    rw [hsame]
    exact ⟨le_rfl, fun _ _ => le_rfl⟩

/-- A champion whose last day was slow, by a measure of 1.5 times the threshold or more. -/
def slowChampion : PrefixLeagueEntry where
  agentID := "agent"
  prefixCIDR := "104.16.0.0/13"
  tier := .champion
  active := true
  sampleCount := 40
  distinctIPCount := 20
  availabilityRate := 100
  latencyP95MS := 200
  packetLossAvg := 0
  recentSampleCount := 8
  recentAvailabilityRate := 100
  recentLatencyP95MS := 400
  recentPacketLossAvg := 0
  badStreak := 0
  lastResultAt := some 2
  lastScheduledAt := some 1
  lastEvaluatedAt := some 1

theorem evaluate_mono_slowChampion :
    (evaluate slowChampion ⟨300, 50⟩).badStreak ≤ (evaluate slowChampion ⟨200, 50⟩).badStreak :=
  (evaluate_mono (by decide) (by decide)).2 (by decide) (by decide +kernel)

/-- A streak of -5 counts up to -4, below the zero a good day resets it to. -/
theorem negative_streak_not_mono :
    ¬ ∀ (entry : PrefixLeagueEntry) (t t' : Thresholds), t'.maxLatencyMS ≥ t.maxLatencyMS →
      t'.maxPacketLoss ≥ t.maxPacketLoss →
      (evaluate entry t).tier.rank ≤ (evaluate entry t').tier.rank ∧
        ((evaluate entry t).tier = (evaluate entry t').tier →
          (evaluate entry t').badStreak ≤ (evaluate entry t).badStreak) := by
  intro h
  have hstreak := (h { slowChampion with badStreak := -5 } ⟨200, 50⟩ ⟨300, 50⟩ (by decide)
    (by decide)).2 (by decide +kernel)
  exact absurd hstreak (by decide +kernel)

end Mono

end Cfscan.League
