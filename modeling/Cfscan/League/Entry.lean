import Mathlib.Data.Rat.Defs

/-!
# League entries — tiers, windows and thresholds

The data `internal/league` works on: one row of `prefix_league_entries` as the store hands it to
`Evaluate` and `PlanAgent`. A row carries two windows of statistics (seven days and twenty-four
hours), the standing they are judged against (`tier`, `badStreak`, `lastEvaluatedAt`) and the
times that drive scheduling.

Floating-point statistics are read as exact rationals: every operation `Evaluate` performs on
them is a comparison, or a product and a sum on the thresholds alone. The columns no modelled
function reads (agent name, region, continent, the probe configuration, `updated_at`) are left
out.

A tier is a text in the source, so that `Tier` has a constructor for every other text. `Evaluate`
never writes such a tier and the table has a `CHECK` against it, and both functions treat it as
observation all the same.
-/

set_option autoImplicit false

namespace Cfscan.League

/-- A `time.Time`, in nanoseconds since Go's zero time, so that `IsZero` is `= 0`. -/
abbrev Time := Int

/-- The three tiers of `league.go`, and any other text a `Tier` string can hold — the source
normalises the latter to `observation`, and so does every function below. -/
inductive Tier where
  | observation
  | challenger
  | champion
  | other (name : String)
deriving DecidableEq, Repr

/-- `normalizedTier`: everything that is not champion or challenger is observation. -/
def normalizedTier : Tier → Tier
  | .champion => .champion
  | .challenger => .challenger
  | _ => .observation

/-- The order `observation < challenger < champion`, on normalised tiers. -/
def Tier.rank (tier : Tier) : Nat :=
  match normalizedTier tier with
  | .champion => 2
  | .challenger => 1
  | _ => 0

structure PrefixLeagueEntry where
  agentID : String
  prefixCIDR : String
  tier : Tier
  active : Bool
  sampleCount : Int
  distinctIPCount : Int
  availabilityRate : ℚ
  latencyP95MS : ℚ
  packetLossAvg : ℚ
  recentSampleCount : Int
  recentAvailabilityRate : ℚ
  recentLatencyP95MS : ℚ
  recentPacketLossAvg : ℚ
  badStreak : Int
  lastResultAt : Option Time
  lastScheduledAt : Option Time
  lastEvaluatedAt : Option Time
deriving DecidableEq, Repr

structure Thresholds where
  maxLatencyMS : ℚ
  maxPacketLoss : ℚ
deriving DecidableEq, Repr

/-! ## Normalised tiers -/

@[simp] theorem normalizedTier_idem (tier : Tier) :
    normalizedTier (normalizedTier tier) = normalizedTier tier := by
  cases tier <;> rfl

@[simp] theorem rank_observation : Tier.observation.rank = 0 := rfl

@[simp] theorem rank_challenger : Tier.challenger.rank = 1 := rfl

@[simp] theorem rank_champion : Tier.champion.rank = 2 := rfl

@[simp] theorem rank_other (name : String) : (Tier.other name).rank = 0 := rfl

end Cfscan.League
