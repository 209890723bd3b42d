import Cfscan.League.Standings
import Cfscan.Lib.Interpolation
import Cfscan.Lib.Log
import Cfscan.Results.Store
import Mathlib.Data.List.Induction

/-!
# The trend of an IP — `internal/store/postgres/league.go`

`percentile` and `GetIPTrend`. Durations and rates are exact rationals here; `none` stands for a
panic, an index outside the list.

`percentile_interpolates` says that `percentile` is the `percentile_cont` of the league statistics,
and rises with the quantile; `trend_newest_iff` when a trend has the newest measurements.

The query orders by the time and is cut behind the ten-thousandth row, so that the **oldest** are
kept where there are more. `trend_newest_iff` is about results at different instants; where several
share one, which of them are kept is the server's choice, and passed in.

The rounding of doubles is left out, here and on the side of `percentile_cont`.
-/

set_option autoImplicit false

namespace Cfscan.Results

open Cfscan.Lib Cfscan.Store

/-! ## `percentile`

The source interpolates between the two points around the position, and returns the point
itself where they are one. `points` extends the sorted list past its end by its last value,
so that the library's `interpolate` can be used without a bound on the index. -/

/-- `sorted[i]`. -/
def at? (sorted : List ℚ) (i : Int) : Option ℚ := if 0 ≤ i then sorted[i.toNat]? else none

def percentile (sorted : List ℚ) (quantile : ℚ) : Option ℚ :=
  if sorted.length = 0 then some 0
  else if sorted.length = 1 then at? sorted 0
  else
    let position := ((sorted.length - 1 : Int) : ℚ) * quantile
    let lower := ⌊position⌋
    let upper := ⌈position⌉
    if lower = upper then at? sorted lower
    else
      let weight := position - lower
      (at? sorted lower).bind fun low => (at? sorted upper).bind fun high =>
        some (low * (1 - weight) + high * weight)

/-- The points of a list, the last of them repeated. -/
def points (sorted : List ℚ) (i : ℕ) : ℚ := sorted.getD (min i (sorted.length - 1)) 0

section Percentile

variable {sorted : List ℚ} {p q : ℚ}

theorem points_of_lt {i : ℕ} (h : i < sorted.length) : sorted[i]? = some (points sorted i) := by
  rw [points, Nat.min_eq_left (by omega), List.getD_eq_getElem?_getD, List.getElem?_eq_getElem h]
  rfl

theorem points_mono (h : sorted.Pairwise (· ≤ ·)) : Monotone (points sorted) := by
  intro i j hij
  cases hlen : sorted.length with
  | zero => simp [points, List.length_eq_zero_iff.mp hlen]
  | succ n =>
    have hle : min i n ≤ min j n := min_le_min_right n hij
    have hj : min j n < sorted.length := by omega
    have hi : min i n < sorted.length := by omega
    simp only [points, hlen, Nat.add_sub_cancel, List.getD_eq_getElem?_getD,
      List.getElem?_eq_getElem hi, List.getElem?_eq_getElem hj, Option.getD_some]
    rcases hle.eq_or_lt with heq | hlt
    · simp only [heq, le_refl]
    · exact List.pairwise_iff_getElem.mp h _ _ hi hj hlt

/-- The place of a quantile, between the first point and the last. -/
theorem position_bounds (sorted : List ℚ) (hp : 0 ≤ p) (hp' : p ≤ 1) :
    0 ≤ ((sorted.length - 1 : ℕ) : ℚ) * p ∧
      ((sorted.length - 1 : ℕ) : ℚ) * p ≤ (sorted.length - 1 : ℕ) :=
  ⟨mul_nonneg (Nat.cast_nonneg _) hp, mul_le_of_le_one_right (Nat.cast_nonneg _) hp'⟩

/-- **No index is outside the list, and the value is interpolated.** -/
theorem percentile_eq (h : sorted ≠ []) (hp : 0 ≤ p) (hp' : p ≤ 1) :
    percentile sorted p =
      some (interpolate (points sorted) (((sorted.length - 1 : ℕ) : ℚ) * p)) := by
  have hlen := List.length_pos_iff.mpr h
  obtain ⟨hnonneg, hle⟩ := position_bounds sorted hp hp'
  have hcast : ((sorted.length - 1 : Int) : ℚ) = ((sorted.length - 1 : ℕ) : ℚ) := by
    rw [Nat.cast_sub hlen]
    push_cast
    ring
  unfold percentile
  rw [if_neg (by omega)]
  split
  · rename_i hone
    rw [hone, at?, if_pos le_rfl, Int.toNat_zero, points_of_lt hlen]
    rw [Nat.sub_self, Nat.cast_zero, zero_mul]
    exact congrArg some (by simpa using (interpolate_natCast (points sorted) 0).symm)
  rename_i hne
  simp only [hcast]
  generalize hx : ((sorted.length - 1 : ℕ) : ℚ) * p = x at hnonneg hle
  -- both neighbours of the position are inside the list
  have hfloor : ⌊x⌋ = (⌊x⌋₊ : Int) := (Int.natCast_floor_eq_floor hnonneg).symm
  have hceil : ⌈x⌉ = (⌈x⌉₊ : Int) := (Int.natCast_ceil_eq_ceil hnonneg).symm
  have hupper : ⌈x⌉₊ < sorted.length := by
    have := Nat.ceil_le.mpr hle
    omega
  have hlower : ⌊x⌋₊ < sorted.length := (Nat.floor_le_ceil x).trans_lt hupper
  have hat : ∀ i : ℕ, i < sorted.length → at? sorted i = some (points sorted i) := by
    intro i hi
    rw [at?, if_pos (Int.natCast_nonneg i), Int.toNat_natCast, points_of_lt hi]
  rw [hfloor, hceil, hat _ hlower, hat _ hupper]
  split
  · -- an integral position
    rename_i hsame
    have hint : ⌊x⌋₊ = ⌈x⌉₊ := by exact_mod_cast hsame
    have hxeq : x = (⌊x⌋₊ : ℕ) :=
      le_antisymm (hint ▸ Nat.le_ceil x) (Nat.floor_le hnonneg)
    rw [hxeq, interpolate_natCast, Nat.floor_natCast]
  · rename_i hdiff
    have hnext : ⌈x⌉₊ = ⌊x⌋₊ + 1 := by
      have hle' := Nat.ceil_le_floor_add_one x
      have hge := Nat.floor_le_ceil x
      have hne' : ⌊x⌋₊ ≠ ⌈x⌉₊ := fun heq => hdiff (by exact_mod_cast heq)
      omega
    rw [hnext]
    simp only [Option.bind_some, Option.some.injEq, interpolate, chord]
    push_cast
    ring

/-- `percentile_cont` is the same line. -/
theorem interpolated_eq (h : sorted ≠ []) (hsorted : sorted.Pairwise (· ≤ ·)) (hp : 0 ≤ p)
    (hp' : p ≤ 1) : League.Dashboard.interpolated p sorted =
      interpolate (points sorted) (((sorted.length - 1 : ℕ) : ℚ) * p) := by
  have hlen := List.length_pos_iff.mpr h
  obtain ⟨hnonneg, hle⟩ := position_bounds sorted hp hp'
  have hself : sorted.mergeSort (fun a b => decide (a ≤ b)) = sorted :=
    List.mergeSort_of_pairwise (hsorted.imp fun hab => decide_eq_true hab)
  have hposition : p * ((sorted.length : ℚ) - 1) = ((sorted.length - 1 : ℕ) : ℚ) * p := by
    rw [Nat.cast_sub hlen, Nat.cast_one, mul_comm]
  unfold League.Dashboard.interpolated
  simp only [hself, hposition]
  generalize ((sorted.length - 1 : ℕ) : ℚ) * p = x at hnonneg hle
  have hfloor : x.floor = (⌊x⌋₊ : Int) := (Int.natCast_floor_eq_floor hnonneg).symm
  have hlower : ⌊x⌋₊ < sorted.length := by
    have := Nat.floor_le_of_le hle
    omega
  have hnext : (sorted[⌊x⌋₊ + 1]?).getD (points sorted ⌊x⌋₊) = points sorted (⌊x⌋₊ + 1) := by
    by_cases hlt : ⌊x⌋₊ + 1 < sorted.length
    · rw [points_of_lt hlt, Option.getD_some]
    · rw [List.getElem?_eq_none (by omega), Option.getD_none, points, points,
        Nat.min_eq_left (by omega), Nat.min_eq_right (by omega)]
      congr 1
      omega
  rw [hfloor, Int.toNat_natCast, points_of_lt hlower, Option.getD_some, hnext, interpolate, chord]
  push_cast
  rfl

/-- **What `percentile` returns.** Of two quantiles of an ascending list it finds both values
without leaving the list: they are on the broken line through the points `(i, sorted[i])`, as
`percentile_cont` has them, between the first element and the last, and in the quantiles' order. -/
theorem percentile_interpolates (h : sorted ≠ []) (hsorted : sorted.Pairwise (· ≤ ·))
    (hp : 0 ≤ p) (hpq : p ≤ q) (hq : q ≤ 1) :
    ∃ first last v w, sorted.head? = some first ∧ sorted.getLast? = some last ∧
      percentile sorted p = some v ∧ percentile sorted q = some w ∧
      (∀ (i : ℕ) (x : ℚ), sorted[i]? = some x →
        ((sorted.length - 1 : ℕ) : ℚ) * p = i → v = x) ∧
      (∀ (i : ℕ) (x y : ℚ), sorted[i]? = some x → sorted[i + 1]? = some y →
        (i : ℚ) ≤ ((sorted.length - 1 : ℕ) : ℚ) * p →
        ((sorted.length - 1 : ℕ) : ℚ) * p ≤ i + 1 →
        v = x + (((sorted.length - 1 : ℕ) : ℚ) * p - i) * (y - x)) ∧
      v = League.Dashboard.interpolated p sorted ∧
      first ≤ v ∧ v ≤ w ∧ w ≤ last := by
  have hlen := List.length_pos_iff.mpr h
  have hp' : p ≤ 1 := hpq.trans hq
  have hq' : 0 ≤ q := hp.trans hpq
  obtain ⟨hnonneg, -⟩ := position_bounds sorted hp hp'
  obtain ⟨-, hle⟩ := position_bounds sorted hq' hq
  have hmono := points_mono hsorted
  have hpositions : ((sorted.length - 1 : ℕ) : ℚ) * p ≤ ((sorted.length - 1 : ℕ) : ℚ) * q :=
    mul_le_mul_of_nonneg_left hpq (Nat.cast_nonneg _)
  have hpoint : ∀ {i : ℕ} {x : ℚ}, sorted[i]? = some x → points sorted i = x := by
    intro i x hi
    obtain ⟨hlt, -⟩ := List.getElem?_eq_some_iff.mp hi
    exact Option.some.inj ((points_of_lt hlt).symm.trans hi)
  refine ⟨points sorted 0, points sorted (sorted.length - 1), _, _, ?_, ?_,
    percentile_eq h hp hp', percentile_eq h hq' hq, ?_, ?_,
    (interpolated_eq h hsorted hp hp').symm, ?_, interpolate_mono hmono hnonneg hpositions, ?_⟩
  · rw [List.head?_eq_getElem?, points_of_lt hlen]
  · rw [List.getLast?_eq_getElem?, points_of_lt (by omega)]
  · intro i x hi hx
    rw [hx, interpolate_natCast, hpoint hi]
  · intro i x y hi hnext hge hle'
    rw [interpolate_cell hge hle', chord, hpoint hi, hpoint hnext]
  · calc points sorted 0 = interpolate (points sorted) (0 : ℕ) := (interpolate_natCast _ 0).symm
      _ ≤ _ := interpolate_mono hmono (Nat.cast_nonneg 0) (by rwa [Nat.cast_zero])
  · calc interpolate (points sorted) (((sorted.length - 1 : ℕ) : ℚ) * q)
        ≤ interpolate (points sorted) (sorted.length - 1 : ℕ) :=
          interpolate_mono hmono (hnonneg.trans hpositions) hle
      _ = points sorted (sorted.length - 1) := interpolate_natCast _ _

theorem percentile_interpolates_three :
    ∃ first last v w, [10, 20, (40 : ℚ)].head? = some first ∧
      [10, 20, (40 : ℚ)].getLast? = some last ∧
      percentile [10, 20, 40] (1 / 2) = some v ∧ percentile [10, 20, 40] (19 / 20) = some w ∧
      first ≤ v ∧ v ≤ w ∧ w ≤ last := by
  obtain ⟨first, last, v, w, hfirst, hlast, hv, hw, -, -, -, hbounds⟩ :=
    @percentile_interpolates [10, 20, 40] (1 / 2) (19 / 20) (by simp)
      (by decide) (by norm_num) (by norm_num) (by norm_num)
  exact ⟨first, last, v, w, hfirst, hlast, hv, hw, hbounds⟩

end Percentile

/-! ## `GetIPTrend`

One pass over the rows fills the sums, the latencies of the available ones and the last colo
that is not empty; rates and averages are of all the points, the percentiles of the
available ones. The parameters of the query are cast and bounded by their columns before it
runs. -/

structure IPTrendFilter where
  agentID : String
  targetIP : String
  scheme : String
  hostname : String
  path : String
  port : Int
  attempts : Int
  timeoutMS : Int
  since : Timestamp
deriving DecidableEq, Repr

structure IPTrendPoint where
  scannedAt : Timestamp
  available : Bool
  latencyMS : ℚ
  packetLoss : ℚ
  tcpConnectMS : ℚ
  tlsHandshakeMS : ℚ
  ttfbMS : ℚ
  colo : String
deriving DecidableEq, Repr

structure IPTrendSummary where
  sampleCount : Nat
  availabilityRate : ℚ
  latencyP50MS : ℚ
  latencyP95MS : ℚ
  packetLossAvg : ℚ
  latestColo : String
deriving DecidableEq, Repr

structure IPTrend where
  agentID : String
  agentName : String
  targetIP : String
  summary : IPTrendSummary
  points : List IPTrendPoint
deriving DecidableEq, Repr

def ScanResult.point (r : ScanResult) : IPTrendPoint :=
  ⟨r.scannedAt, r.available, r.latencyMS, r.packetLoss, r.tcpConnectMS, r.tlsHandshakeMS, r.ttfbMS,
    r.colo⟩

/-- `j.scheme = $4 AND … AND j.timeout_ms = $9`. -/
def IPTrendFilter.probes (filter : IPTrendFilter) (j : ScanJob) : Bool :=
  decide (j.scheme = filter.scheme) && decide (j.hostname = filter.hostname) &&
    decide (j.path = filter.path) && decide (j.port = filter.port) &&
    decide (j.attempts = filter.attempts) && decide (j.timeoutMS = filter.timeoutMS)

/-- The `WHERE` clause. -/
def IPTrendFilter.matches (pg : Postgres) (s : ResultStore) (filter : IPTrendFilter)
    (r : ScanResult) : Bool :=
  decide (pg.uuid filter.agentID = some r.agentID) &&
    decide (pg.inet filter.targetIP = some r.targetIP) && decide (filter.since ≤ r.scannedAt) &&
    (r.jobID.bind s.jobs.find?).any filter.probes

def matching (pg : Postgres) (s : ResultStore) (filter : IPTrendFilter) : List ScanResult :=
  s.results.rows.filter (filter.matches pg s)

/-- `ORDER BY r.scanned_at ASC`. -/
def byScan : SortOrder ScanResult := (SortOrder.ofLinear Timestamp).on ScanResult.scannedAt

/-- The variables of the loop over the rows. -/
structure TrendLoop where
  points : List IPTrendPoint
  latencies : List ℚ
  availableCount : Nat
  packetLossTotal : ℚ
  latestColo : String

def TrendLoop.scan (t : TrendLoop) (point : IPTrendPoint) : TrendLoop where
  points := t.points ++ [point]
  latencies := if point.available then t.latencies ++ [point.latencyMS] else t.latencies
  availableCount := if point.available then t.availableCount + 1 else t.availableCount
  packetLossTotal := t.packetLossTotal + point.packetLoss
  latestColo := if point.colo ≠ "" then point.colo else t.latestColo

def TrendLoop.summary (t : TrendLoop) : Option IPTrendSummary :=
  let count := t.points.length
  let summary : IPTrendSummary :=
    { sampleCount := count
      availabilityRate := if count > 0 then (t.availableCount : ℚ) / count * 100 else 0
      latencyP50MS := 0
      latencyP95MS := 0
      packetLossAvg := if count > 0 then t.packetLossTotal / count else 0
      latestColo := t.latestColo }
  if t.latencies.length > 0 then
    let latencies := t.latencies.mergeSort fun a b => decide (a ≤ b)
    (percentile latencies (1 / 2)).bind fun p50 =>
      (percentile latencies (95 / 100)).bind fun p95 =>
        some { summary with latencyP50MS := p50, latencyP95MS := p95 }
  else some summary

/-- The parameters of the query fit their columns. -/
def IPTrendFilter.fits (filter : IPTrendFilter) : Bool :=
  storable filter.scheme && storable filter.hostname && storable filter.path &&
    int4 filter.port && int4 filter.attempts && int4 filter.timeoutMS

def getIPTrend (pg : Postgres) (s : ResultStore) (arrangement : Arrangement byScan)
    (filter : IPTrendFilter) : Option (Except StoreError IPTrend) :=
  match pg.uuid filter.agentID with
  | none => some (.error (.db "load trend agent" .castFailed))
  | some agentID =>
    match s.agents.find? agentID with
    | none => some (.error .notFound)
    | some agent =>
      if pg.inet filter.targetIP = none then some (.error (.db "load IP trend" .castFailed))
      else if filter.fits = false then some (.error (.db "load IP trend" .valueRefused))
      else
        let rows := (arrangement.rows (matching pg s filter)).take 10000
        let loop := (rows.map ScanResult.point).foldl TrendLoop.scan ⟨[], [], 0, 0, ""⟩
        loop.summary.map fun summary => .ok
          { agentID := filter.agentID
            agentName := agent.name
            targetIP := filter.targetIP
            summary := summary
            points := loop.points }

/-! ## What a trend should be -/

/-- The `k` newest of some results, the oldest of them first. -/
structure MostRecent (k : Nat) (all recent : List ScanResult) : Prop where
  subset : ∀ r ∈ recent, r ∈ all
  ascending : recent.Pairwise fun r r' => r.scannedAt < r'.scannedAt
  length : recent.length = min k all.length
  newest : ∀ r ∈ all, r ∉ recent → ∀ r' ∈ recent, r.scannedAt < r'.scannedAt

/-- The summary is computed over these points. -/
structure SummaryOf (points : List IPTrendPoint) (summary : IPTrendSummary) : Prop where
  sampleCount : summary.sampleCount = points.length
  availabilityRate : points ≠ [] → summary.availabilityRate =
    (points.countP IPTrendPoint.available : ℚ) / points.length * 100
  packetLossAvg : points ≠ [] → summary.packetLossAvg =
    (points.map IPTrendPoint.packetLoss).sum / points.length
  percentiles : ∀ latencies : List ℚ,
    latencies.Perm ((points.filter IPTrendPoint.available).map IPTrendPoint.latencyMS) →
    latencies.Pairwise (· ≤ ·) →
      percentile latencies (1 / 2) = some summary.latencyP50MS ∧
      percentile latencies (95 / 100) = some summary.latencyP95MS

/-- The trend has the newest measurements, and says what they say. -/
def Newest (all : List ScanResult) (trend : IPTrend) : Prop :=
  ∃ recent, MostRecent 10000 all recent ∧ trend.points = recent.map ScanResult.point ∧
    (∀ r ∈ recent, r.colo ≠ "" →
      (∀ r' ∈ all, r'.colo ≠ "" → r'.scannedAt ≤ r.scannedAt) →
        trend.summary.latestColo = r.colo) ∧
    SummaryOf trend.points trend.summary

section Loop

/-- The colo a point tells, if it tells one. -/
def IPTrendPoint.toldColo (point : IPTrendPoint) : Option String :=
  if point.colo ≠ "" then some point.colo else none

theorem foldl_scan (points : List IPTrendPoint) :
    points.foldl TrendLoop.scan ⟨[], [], 0, 0, ""⟩ =
      { points := points
        latencies := (points.filter IPTrendPoint.available).map IPTrendPoint.latencyMS
        availableCount := points.countP IPTrendPoint.available
        packetLossTotal := (points.map IPTrendPoint.packetLoss).sum
        latestColo := (last? IPTrendPoint.toldColo points).getD "" } := by
  induction points using List.reverseRecOn with
  | nil => rfl
  | append_singleton points point ih =>
    rw [List.foldl_append, ih, List.foldl_cons, List.foldl_nil, last?_concat]
    unfold TrendLoop.scan IPTrendPoint.toldColo
    congr 1
    · cases h : point.available <;> simp [h]
    · cases h : point.available <;> simp [h]
    · simp
    · split <;> rfl

/-- The loop never leaves a list, and its summary is that of its points. -/
theorem summary_of_loop (points : List IPTrendPoint) :
    ∃ summary, (points.foldl TrendLoop.scan ⟨[], [], 0, 0, ""⟩).summary = some summary ∧
      summary.latestColo = (last? IPTrendPoint.toldColo points).getD "" ∧
      SummaryOf points summary := by
  rw [foldl_scan]
  unfold TrendLoop.summary
  dsimp only
  have hsame : ∀ latencies latencies' : List ℚ, latencies.Perm latencies' →
      latencies.Pairwise (· ≤ ·) → latencies = latencies'.mergeSort fun a b => decide (a ≤ b) :=
    fun latencies latencies' hperm hsorted =>
      (hperm.trans (List.mergeSort_perm _ _).symm).eq_of_pairwise
        (fun a b _ _ hab hba => le_antisymm hab hba) hsorted
        ((List.pairwise_mergeSort (fun a b c hab hbc => by simp at *; exact hab.trans hbc)
          (fun a b => by simpa using le_total a b) latencies').imp fun h => by simpa using h)
  split
  · rename_i hsome
    generalize hl : (points.filter IPTrendPoint.available).map IPTrendPoint.latencyMS = latencies
      at hsome hsame ⊢
    have hne : latencies.mergeSort (fun a b => decide (a ≤ b)) ≠ [] := by
      rw [← List.length_pos_iff, List.length_mergeSort]
      exact hsome
    have h50 := percentile_eq hne (p := 1 / 2) (by norm_num) (by norm_num)
    have h95 := percentile_eq hne (p := 95 / 100) (by norm_num) (by norm_num)
    rw [h50, Option.bind_some, h95, Option.bind_some]
    refine ⟨_, rfl, rfl, rfl, fun h => if_pos (List.length_pos_iff.mpr h),
      fun h => if_pos (List.length_pos_iff.mpr h), fun other hperm hsorted => ?_⟩
    rw [hl] at hperm
    rw [hsame other latencies hperm hsorted, h50, h95]
    exact ⟨rfl, rfl⟩
  · rename_i hnone
    refine ⟨_, rfl, rfl, rfl, fun h => if_pos (List.length_pos_iff.mpr h),
      fun h => if_pos (List.length_pos_iff.mpr h), fun other hperm hsorted => ?_⟩
    have hempty : other = [] := by
      rw [← List.length_eq_zero_iff, hperm.length_eq]
      omega
    rw [hempty]
    exact ⟨rfl, rfl⟩

end Loop

section Newest

variable {all rows : List ScanResult}

/-- Results of different instants in one ascending list. -/
theorem ascending_of_sorted (hperm : rows.Perm all)
    (hsorted : rows.Pairwise fun a b => byScan.le a b = true)
    (hdistinct : (all.map ScanResult.scannedAt).Nodup) :
    rows.Pairwise fun r r' => r.scannedAt < r'.scannedAt := by
  have hnodup : rows.Pairwise fun r r' => r.scannedAt ≠ r'.scannedAt :=
    List.pairwise_map.mp ((hperm.map ScanResult.scannedAt).nodup_iff.mpr hdistinct)
  exact hsorted.imp₂ (fun r r' hle hne => lt_of_le_of_ne (by simpa [byScan, SortOrder.on,
    SortOrder.ofLinear] using hle) hne) hnodup

/-- All of the results, when they are few enough. -/
theorem mostRecent_all {k : Nat} (hperm : rows.Perm all)
    (hascending : rows.Pairwise fun r r' => r.scannedAt < r'.scannedAt) (hk : all.length ≤ k) :
    MostRecent k all rows where
  subset := fun r hr => hperm.mem_iff.mp hr
  ascending := hascending
  length := by rw [hperm.length_eq, Nat.min_eq_right hk]
  newest := fun r hr hnot => absurd (hperm.mem_iff.mpr hr) hnot

/-- The first `k` of more than `k` results leave out the newest, at whatever `k` but 0. -/
theorem not_mostRecent {k : Nat} (hpos : 0 < k) (hperm : rows.Perm all)
    (hascending : rows.Pairwise fun r r' => r.scannedAt < r'.scannedAt) (hk : k < all.length)
    {recent : List ScanResult} (hrecent : MostRecent k all recent) :
    (rows.take k).map ScanResult.scannedAt ≠ recent.map ScanResult.scannedAt := by
  intro heq
  have hlen := hperm.length_eq
  have hlast : rows.length - 1 < rows.length := by omega
  -- the newest result comes after everything that is kept
  have hlater : ∀ r ∈ rows.take k, r.scannedAt < rows[rows.length - 1].scannedAt := by
    intro r hr
    obtain ⟨i, hi, rfl⟩ := List.getElem_of_mem hr
    rw [List.length_take] at hi
    rw [List.getElem_take]
    exact List.pairwise_iff_getElem.mp hascending _ _ (by omega) hlast (by omega)
  have htimes : ∀ r ∈ recent, r.scannedAt < rows[rows.length - 1].scannedAt := by
    intro r hr
    have hmem : r.scannedAt ∈ (rows.take k).map ScanResult.scannedAt :=
      heq ▸ List.mem_map_of_mem hr
    obtain ⟨r', hr', htime⟩ := List.mem_map.mp hmem
    exact htime ▸ hlater r' hr'
  have hout : rows[rows.length - 1] ∉ recent := fun hin => lt_irrefl _ (htimes _ hin)
  obtain ⟨r, hr⟩ : ∃ r, r ∈ recent := by
    apply List.exists_mem_of_length_pos
    rw [hrecent.length]
    omega
  exact lt_asymm (htimes r hr)
    (hrecent.newest _ (hperm.mem_iff.mp (List.getElem_mem hlast)) hout r hr)

/-- The newest colo told is that of the newest result that has one. -/
theorem latestColo_eq (hperm : rows.Perm all)
    (hascending : rows.Pairwise fun r r' => r.scannedAt < r'.scannedAt) {r : ScanResult}
    (hr : r ∈ rows) (hcolo : r.colo ≠ "")
    (hnewest : ∀ r' ∈ all, r'.colo ≠ "" → r'.scannedAt ≤ r.scannedAt) :
    (last? IPTrendPoint.toldColo (rows.map ScanResult.point)).getD "" = r.colo := by
  obtain ⟨before, after, rfl⟩ := List.append_of_mem hr
  have htold : r.point.toldColo = some r.colo := if_pos hcolo
  rw [List.map_append, List.map_cons, last?_of_split htold, Option.getD_some]
  intro point hpoint
  obtain ⟨r', hr', rfl⟩ := List.mem_map.mp hpoint
  have hlt := (List.pairwise_cons.mp (List.pairwise_append.mp hascending).2.1).1 r' hr'
  refine if_neg fun hcolo' => ?_
  have hmem : r' ∈ all := hperm.mem_iff.mp (by simp [hr'])
  exact absurd (hnewest r' hmem hcolo') (not_le_of_gt hlt)

end Newest

section Trend

variable {pg : Postgres} {s : ResultStore} {arrangement : Arrangement byScan}
  {filter : IPTrendFilter}

/-- The agent exists and the parameters are taken. -/
def Trending (pg : Postgres) (s : ResultStore) (filter : IPTrendFilter) : Prop :=
  (∃ agentID, pg.uuid filter.agentID = some agentID ∧ s.agents.find? agentID ≠ none) ∧
    pg.inet filter.targetIP ≠ none ∧ filter.fits = true

theorem getIPTrend_refused (h : ¬ Trending pg s filter) :
    ∃ error, getIPTrend pg s arrangement filter = some (.error error) := by
  unfold getIPTrend
  split
  · exact ⟨_, rfl⟩
  rename_i agentID hagent
  split
  · exact ⟨_, rfl⟩
  rename_i agent hrow
  split
  · exact ⟨_, rfl⟩
  rename_i hip
  split
  · exact ⟨_, rfl⟩
  rename_i hfits
  exact absurd ⟨⟨agentID, hagent, by simp [hrow]⟩, hip, by simpa using hfits⟩ h

theorem getIPTrend_ok (h : Trending pg s filter) :
    ∃ trend, getIPTrend pg s arrangement filter = some (.ok trend) ∧
      trend.points =
        ((arrangement.rows (matching pg s filter)).take 10000).map ScanResult.point ∧
      trend.summary.latestColo = (last? IPTrendPoint.toldColo trend.points).getD "" ∧
      SummaryOf trend.points trend.summary := by
  obtain ⟨⟨agentID, hagent, hrow⟩, hip, hfits⟩ := h
  obtain ⟨agent, hrow⟩ := Option.ne_none_iff_exists'.mp hrow
  obtain ⟨summary, hsummary, hcolo, hof⟩ := summary_of_loop
    (((arrangement.rows (matching pg s filter)).take 10000).map ScanResult.point)
  let trend : IPTrend :=
    { agentID := filter.agentID
      agentName := agent.name
      targetIP := filter.targetIP
      summary := summary
      points := ((arrangement.rows (matching pg s filter)).take 10000).map ScanResult.point }
  refine ⟨trend, ?_, rfl, hcolo, hof⟩
  unfold getIPTrend
  simp only [hagent, hrow, if_neg hip, hfits, Bool.true_eq_false, if_false, hsummary,
    Option.map_some]
  rw [foldl_scan]

/-- A trend has the newest measurements exactly when it has all of them. -/
theorem newest_iff {trend : IPTrend}
    (hpoints : trend.points =
      ((arrangement.rows (matching pg s filter)).take 10000).map ScanResult.point)
    (hcolo : trend.summary.latestColo = (last? IPTrendPoint.toldColo trend.points).getD "")
    (hsummary : SummaryOf trend.points trend.summary)
    (hdistinct : ((matching pg s filter).map ScanResult.scannedAt).Nodup) :
    Newest (matching pg s filter) trend ↔ (matching pg s filter).length ≤ 10000 := by
  have hperm := arrangement.perm (matching pg s filter)
  have hascending := ascending_of_sorted hperm (arrangement.sorted _) hdistinct
  constructor
  · rintro ⟨recent, hrecent, hsame, -⟩
    by_contra hmany
    refine not_mostRecent (by decide) hperm hascending (Nat.lt_of_not_le hmany) hrecent ?_
    have htimes := congrArg (List.map IPTrendPoint.scannedAt) (hpoints.symm.trans hsame)
    rw [List.map_map, List.map_map] at htimes
    exact htimes
  · intro hfew
    have hall : (arrangement.rows (matching pg s filter)).take 10000 =
        arrangement.rows (matching pg s filter) :=
      List.take_of_length_le (by rwa [arrangement.length])
    rw [hall] at hpoints
    refine ⟨_, mostRecent_all hperm hascending hfew, hpoints, fun r hr hne hnewest => ?_, hsummary⟩
    rw [hcolo, hpoints]
    exact latestColo_eq hperm hascending hr hne hnewest

/-- **The newest measurements of an IP.** Where the agent exists and the parameters are taken there
is a trend, and of results at different instants it has the newest exactly when no more than 10000
match. -/
theorem trend_newest_iff (hdistinct : ((matching pg s filter).map ScanResult.scannedAt).Nodup) :
    (¬ Trending pg s filter ∧
      ∃ error, getIPTrend pg s arrangement filter = some (.error error)) ∨
    ∃ trend, getIPTrend pg s arrangement filter = some (.ok trend) ∧
      (Newest (matching pg s filter) trend ↔ (matching pg s filter).length ≤ 10000) := by
  by_cases h : Trending pg s filter
  · obtain ⟨trend, hok, hpoints, hcolo, hsummary⟩ := @getIPTrend_ok pg s arrangement filter h
    exact Or.inr ⟨trend, hok, newest_iff hpoints hcolo hsummary hdistinct⟩
  · exact Or.inl ⟨h, getIPTrend_refused h⟩

end Trend

/-! ## An IP that was probed often -/

/-- A server that reads every text as the one agent, and an address by its own text. -/
def oneAgentServer : Postgres where
  uuid := fun _ => some 7
  inet := fun text => if text = "" then none else some ⟨text, none⟩
  cidr := fun _ => none
  inet_host := by
    intro text ip h
    split at h
    · cases h
    · cases h
      exact if_neg ‹_›
  cidr_text := cidr_text_of_none

def probedAt (time : Nat) : ScanResult where
  id := time
  jobID := some 1
  agentID := 7
  targetIP := ⟨"104.16.0.1", none⟩
  targetPrefix := none
  available := true
  latencyMS := 20
  packetLoss := 0
  tcpConnectMS := 5
  tlsHandshakeMS := 10
  ttfbMS := 15
  totalMS := 20
  httpStatus := 200
  httpVersion := "HTTP/2.0"
  tlsVersion := "TLS 1.3"
  colo := "KIX"
  cfRay := ""
  errorCode := ""
  scannedAt := time

def probedOften (times : Nat) : ResultStore where
  results := ⟨(List.range times).map probedAt, by
    rw [List.map_map]
    exact List.nodup_range.map fun i j h => Int.ofNat.inj h⟩
  agents := ⟨[⟨7, "tokyo-1", "Chiyoda", "Asia"⟩], by decide⟩
  jobs := ⟨[⟨1, "job", "normal", "https", "example.com", "/cdn-cgi/trace", 443, 3, 2000, 0⟩],
    by decide⟩
  coloLocations := .empty

def wholeTrend : IPTrendFilter :=
  ⟨"tokyo-1", "104.16.0.1", "https", "example.com", "/cdn-cgi/trace", 443, 3, 2000, 0⟩

theorem matching_probedOften (times : Nat) :
    matching oneAgentServer (probedOften times) wholeTrend = (List.range times).map probedAt := by
  refine List.filter_eq_self.mpr fun r hr => ?_
  obtain ⟨i, -, rfl⟩ := List.mem_map.mp hr
  have hsince : decide (wholeTrend.since ≤ (probedAt i).scannedAt) = true :=
    decide_eq_true (Int.natCast_nonneg i)
  unfold IPTrendFilter.matches
  rw [hsince]
  rfl

theorem distinct_probedOften (times : Nat) :
    ((matching oneAgentServer (probedOften times) wholeTrend).map ScanResult.scannedAt).Nodup := by
  rw [matching_probedOften, List.map_map]
  exact List.nodup_range.map fun i j h => Int.ofNat.inj h

theorem trend_newest_two :
    (¬ Trending oneAgentServer (probedOften 2) wholeTrend ∧
      ∃ error, getIPTrend oneAgentServer (probedOften 2) (.insertionSort byScan) wholeTrend =
        some (.error error)) ∨
    ∃ trend, getIPTrend oneAgentServer (probedOften 2) (.insertionSort byScan) wholeTrend =
        some (.ok trend) ∧
      (Newest (matching oneAgentServer (probedOften 2) wholeTrend) trend ↔
        (matching oneAgentServer (probedOften 2) wholeTrend).length ≤ 10000) :=
  trend_newest_iff (distinct_probedOften 2)

/-- Of 10001 results at different instants the newest is left out. -/
theorem trend_misses_newest :
    ((matching oneAgentServer (probedOften 10001) wholeTrend).map ScanResult.scannedAt).Nodup ∧
    ∃ trend, getIPTrend oneAgentServer (probedOften 10001) (.insertionSort byScan) wholeTrend =
        some (.ok trend) ∧
      ¬ Newest (matching oneAgentServer (probedOften 10001) wholeTrend) trend := by
  refine ⟨distinct_probedOften 10001, ?_⟩
  have htrending : Trending oneAgentServer (probedOften 10001) wholeTrend :=
    ⟨⟨7, rfl, by decide⟩, by decide, by decide⟩
  obtain ⟨trend, hok, hpoints, hcolo, hsummary⟩ :=
    @getIPTrend_ok _ _ (.insertionSort byScan) _ htrending
  refine ⟨trend, hok, fun hnewest => ?_⟩
  have hfew := (newest_iff hpoints hcolo hsummary (distinct_probedOften 10001)).mp hnewest
  rw [matching_probedOften, List.length_map, List.length_range] at hfew
  exact absurd hfew (by decide)

end Cfscan.Results
