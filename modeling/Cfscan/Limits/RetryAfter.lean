import Cfscan.Limits.Login
import Cfscan.Limits.Rate

/-!
# What a refused client is told

A refusal carries the whole seconds that are left of the wait, one at least. The rest of a second
is dropped, not rounded up, so a client that comes back when it was told to is refused once more
unless a whole number of seconds was left, or no more than one.

To be `Honest` is to keep one promise only: that a call after the seconds that were named is let in,
if no other call of the key touches its slot in between. It is not asked that there is no shorter
wait.

The two limiters are treated side by side, since they share `retryAfter` and differ in what a wait
is counted from: the end of a block there, the end of a window here.
-/

set_option autoImplicit false

namespace Cfscan.Limits

open Cfscan.Lib
open Cfscan.League (Time)

/-- An error response with the header `Retry-After`. -/
structure Refusal where
  status : Nat
  retryAfter : Int
  code : String
  message : String
deriving DecidableEq

/-- The guard of `login`. -/
def World.login (w : World) (key : String) : Option Refusal :=
  if (w.allow key).1 = true then none
  else some ⟨429, retryAfter (w.allow key).2, "too_many_login_attempts", "登录尝试过多，请稍后再试"⟩

/-- The guard of `createDeviceEnrollment`. -/
def RateLimiter.createDeviceEnrollment (l : RateLimiter) (now : Time) (key : String) :
    Option Refusal :=
  if (l.allow now key).1.1 = true then none
  else some ⟨429, retryAfter (l.allow now key).1.2, "too_many_enrollment_requests",
    "too many enrollment requests"⟩

/-- The event is about a request of the key. -/
def World.Touches (w : World) (key : String) : Event → Prop
  | .arrive other => other = key
  | .fail n | .succeed n => w.running[n]? = some key
  | .pass _ | .leave _ => False

/-- A refused login that comes back at the time it was told, no other of its key in between, is let
in. -/
def World.Honest (w : World) (key : String) : Prop :=
  ∀ refusal, w.login key = some refusal → ∀ between,
    Along World.next (fun w ev => ¬ w.Touches key ev) w between →
    (between.foldl World.next w).clock = w.clock + refusal.retryAfter * second.toInt →
    (between.foldl World.next w).login key = none

/-- The same of a refused enrollment. -/
def RateLimiter.Honest (l : RateLimiter) (call : Call) : Prop :=
  ∀ refusal, l.createDeviceEnrollment call.time call.key = some refusal →
    ∀ between, (∀ c ∈ between, c.key ≠ call.key) →
      (l.after (call :: between)).createDeviceEnrollment
        (call.time + refusal.retryAfter * second.toInt) call.key = none

/-- What is left of a wait is a whole number of seconds, or one second at most. -/
def Whole (left : Int) : Prop := left % second.toInt = 0 ∨ left ≤ second.toInt

instance (left : Int) : Decidable (Whole left) := inferInstanceAs (Decidable (_ ∨ _))

/-- The seconds cover what is left exactly when nothing was dropped. -/
theorem le_retryAfter_iff {d : Duration} (h : 0 ≤ d.toInt)
    (hsmall : d.toInt < 2 ^ 20 * 1000000000) :
    d.toInt ≤ retryAfter d * second.toInt ↔ Whole d.toInt := by
  unfold retryAfter Whole
  rw [int_seconds h hsmall, toInt_second]
  omega

/-! ## Logins

No block is further away than it is long, which keeps the wait below the 2^20 seconds up to
which the conversion is exact. Only an event of the same key changes what a refusal was
about. -/

section Login

variable {w : World} {key : String} {state : AttemptState}

theorem attempts_next {ev : Event} (h : ¬ w.Touches key ev) :
    (w.next ev).limiter.attempts key = w.limiter.attempts key := by
  cases ev with
  | pass | leave => rfl
  | arrive other =>
    have hkey : other ≠ key := h
    rcases LoginLimiter.allow_cases w.limiter w.clock other with
      ⟨_, -, -, hallow⟩ | ⟨-, hallow | hallow⟩ <;> simp only [World.next, hallow]
    exact LoginLimiter.put_of_ne none hkey
  | fail n =>
    cases hrunning : w.running[n]? with
    | none => simp only [World.next, hrunning]
    | some other =>
      have hkey : other ≠ key := by
        rintro rfl
        exact h hrunning
      simp only [World.next, hrunning, LoginLimiter.failure_eq]
      exact LoginLimiter.put_of_ne _ hkey
  | succeed n =>
    cases hrunning : w.running[n]? with
    | none => simp only [World.next, hrunning]
    | some other =>
      have hkey : other ≠ key := by
        rintro rfl
        exact h hrunning
      simp only [World.next, hrunning]
      exact LoginLimiter.put_of_ne none hkey

theorem login_eq_none_iff : w.login key = none ↔
    ∀ state, w.limiter.attempts key = some state → ¬ w.clock < state.blockedUntil := by
  unfold World.login World.allow
  rcases LoginLimiter.allow_cases w.limiter w.clock key with
    ⟨state, hstate, hblocked, hallow⟩ | ⟨hopen, hallow | hallow⟩ <;> rw [hallow]
  · exact ⟨nofun, fun h => absurd hblocked (h state hstate)⟩
  · exact ⟨fun _ => hopen, fun _ => rfl⟩
  · exact ⟨fun _ => hopen, fun _ => rfl⟩

/-- No block is further away than a block is long. -/
structure Near (w : World) : Prop where
  started : 0 ≤ w.clock
  block : w.limiter.block = 10 * minute
  near : ∀ key state, w.limiter.attempts key = some state →
    state.blockedUntil ≤ add w.clock w.limiter.block

theorem toInt_block : (10 * minute).toInt = 600000000000 := by decide

theorem Near.zero_le (h : Near w) : 0 ≤ add w.clock w.limiter.block := by
  have hstarted := h.started
  rw [h.block, add, toInt_block]
  linarith

/-- The slots but one are left alone. -/
theorem Near.put (h : Near w) {slot : Option AttemptState} {running : List String}
    (hslot : ∀ state, slot = some state → state.blockedUntil ≤ add w.clock w.limiter.block) :
    Near ⟨w.clock, w.limiter.put key slot, running⟩ := by
  refine ⟨h.started, h.block, fun other state hstate => ?_⟩
  by_cases hkey : key = other
  · subst hkey
    exact hslot state ((LoginLimiter.put_self slot).symm.trans hstate)
  · exact h.near other state ((LoginLimiter.put_of_ne slot hkey).symm.trans hstate)

theorem Near.next (h : Near w) (ev : Event) : Near (w.next ev) := by
  cases ev with
  | pass duration =>
    have hlater : w.clock ≤ w.clock + duration :=
      Int.le_add_of_nonneg_right (Int.natCast_nonneg _)
    exact ⟨h.started.trans hlater, h.block, fun key state hstate =>
      (h.near key state hstate).trans (add_le_add_left hlater _)⟩
  | leave n => exact ⟨h.started, h.block, h.near⟩
  | arrive key =>
    rcases LoginLimiter.allow_cases w.limiter w.clock key with
      ⟨_, -, -, hallow⟩ | ⟨-, hallow | hallow⟩ <;> simp only [World.next, hallow]
    · exact ⟨h.started, h.block, h.near⟩
    · exact ⟨h.started, h.block, h.near⟩
    · refine h.put fun state hstate => ?_
      cases hstate
  | succeed n =>
    cases hrunning : w.running[n]? with
    | none => simpa only [World.next, hrunning] using h
    | some key =>
      simp only [World.next, hrunning]
      refine h.put fun state hstate => ?_
      cases hstate
  | fail n =>
    cases hrunning : w.running[n]? with
    | none => simpa only [World.next, hrunning] using h
    | some key =>
      simp only [World.next, hrunning, LoginLimiter.failure_eq]
      refine h.put fun state hstate => ?_
      cases hstate
      dsimp only
      split
      · exact le_rfl
      -- a failure that does not block keeps the end of an earlier block, or starts from zero
      · unfold LoginLimiter.record
        cases hslot : w.limiter.attempts key with
        | none => exact h.zero_le
        | some state =>
          dsimp only
          split
          · exact h.zero_le
          · exact h.near key state hslot

theorem near_replay (start : Nat) (events : List Event) : Near (replay start events) := by
  induction events using List.reverseRecOn with
  | nil => exact ⟨Int.natCast_nonneg start, rfl, nofun⟩
  | append_singleton events ev ih =>
    rw [replay, List.foldl_append]
    exact ih.next ev

theorem attempts_foldl {between : List Event}
    (h : Along World.next (fun w ev => ¬ w.Touches key ev) w between) :
    (between.foldl World.next w).limiter.attempts key = w.limiter.attempts key :=
  h.invariant (fun w' => w'.limiter.attempts key = w.limiter.attempts key) rfl
    fun _ _ hkept hev => (attempts_next hev).trans hkept

theorem login_of_blocked (hstate : w.limiter.attempts key = some state)
    (hblocked : w.clock < state.blockedUntil) :
    w.login key = some ⟨429, retryAfter (sub state.blockedUntil w.clock),
      "too_many_login_attempts", "登录尝试过多，请稍后再试"⟩ := by
  unfold World.login World.allow
  rw [LoginLimiter.allow_of_blocked hstate hblocked]
  rfl

theorem login_honest_iff (h : Near w) (hstate : w.limiter.attempts key = some state)
    (hblocked : w.clock < state.blockedUntil) :
    w.Honest key ↔ Whole (state.blockedUntil - w.clock) := by
  have hrefused := login_of_blocked hstate hblocked
  have hnear := h.near key state hstate
  rw [h.block, add, toInt_block] at hnear
  have hleft : (sub state.blockedUntil w.clock).toInt = state.blockedUntil - w.clock :=
    toInt_sub_of_fits hblocked.le (by linarith)
  have hcovers := le_retryAfter_iff (d := sub state.blockedUntil w.clock)
    (by rw [hleft]; linarith) (by rw [hleft]; linarith)
  rw [hleft] at hcovers
  rw [← hcovers]
  constructor
  · intro honest
    have hpos : 1 ≤ retryAfter (sub state.blockedUntil w.clock) := le_max_right _ _
    -- the request that arrives just then, with nothing in between
    have hnext := honest _ hrefused
      [.pass (retryAfter (sub state.blockedUntil w.clock) * second.toInt).toNat] ⟨id, trivial⟩ (by
        simp only [List.foldl_cons, List.foldl_nil, World.next]
        rw [Int.toNat_of_nonneg (by rw [toInt_second]; omega)])
    have hopen := login_eq_none_iff.mp hnext state hstate
    simp only [List.foldl_cons, List.foldl_nil, World.next] at hopen
    rw [Int.toNat_of_nonneg (by rw [toInt_second]; omega)] at hopen
    linarith
  · intro hcovered refusal hrefusal between helse hclock
    cases hrefused.symm.trans hrefusal
    -- no event in between touches the key, so the block is the one that refused
    refine login_eq_none_iff.mpr fun state' hstate' => ?_
    rw [attempts_foldl helse, hstate] at hstate'
    cases hstate'
    rw [hclock]
    linarith

end Login

/-! ## Enrollments -/

section Enrollment

variable {l : RateLimiter} {call : Call} {state : RateState} {earlier : List Call}

theorem createDeviceEnrollment_eq_none_iff {now : Int} {key : String}
    (hstate : l.states key = some state) (hfull : l.limit ≤ state.count)
    (hstart : state.windowStart ≤ now) :
    l.createDeviceEnrollment now key = none ↔ state.windowStart + l.window.toInt ≤ now := by
  unfold RateLimiter.createDeviceEnrollment
  rw [← le_sub_iff hstart]
  rcases allow_cases l now key with ⟨hallow, hover⟩ | ⟨state', hstate', hover, hallow⟩
  · rw [hallow]
    exact ⟨fun _ => hover state hstate, fun _ => rfl⟩
  · cases hstate.symm.trans hstate'
    rcases hallow with ⟨-, hallow⟩ | ⟨hroom, -⟩
    · rw [hallow]
      exact ⟨nofun, fun h => absurd h hover⟩
    · omega

/-- A refusal tells what is left of a full window. -/
theorem createDeviceEnrollment_of_full (hstate : l.states call.key = some state)
    (hfull : l.limit ≤ state.count) (hover : ¬ l.window ≤ sub call.time state.windowStart) :
    l.allow call.time call.key =
        ((false, max (l.window - sub call.time state.windowStart) second), l) ∧
      l.createDeviceEnrollment call.time call.key =
        some ⟨429, retryAfter (max (l.window - sub call.time state.windowStart) second),
          "too_many_enrollment_requests", "too many enrollment requests"⟩ := by
  have hallow : l.allow call.time call.key =
      ((false, max (l.window - sub call.time state.windowStart) second), l) := by
    rcases allow_cases l call.time call.key with
      ⟨-, hover'⟩ | ⟨state', hstate', -, ⟨-, hallow⟩ | ⟨hroom, -⟩⟩
    · exact absurd (hover' state hstate) hover
    · cases hstate.symm.trans hstate'
      exact hallow
    · cases hstate.symm.trans hstate'
      omega
  refine ⟨hallow, ?_⟩
  unfold RateLimiter.createDeviceEnrollment
  rw [hallow]
  rfl

theorem enrollment_honest_iff (hstate : l.states call.key = some state)
    (hfull : l.limit ≤ state.count) (hstart : state.windowStart ≤ call.time)
    (hover : call.time < state.windowStart + l.window.toInt)
    (hwindow : l.window.toInt < 2 ^ 20 * 1000000000) :
    l.Honest call ↔ Whole (state.windowStart + l.window.toInt - call.time) := by
  obtain ⟨hallow, hrefused⟩ := createDeviceEnrollment_of_full hstate hfull
    (mt (le_sub_iff hstart).mp (not_le.mpr hover))
  have hleft := toInt_left hstart hover
  have hretry : (max (l.window - sub call.time state.windowStart) second).toInt =
      max (state.windowStart + l.window.toInt - call.time) 1000000000 := by
    rw [toInt_max, hleft, toInt_second]
  have hpos : 1 ≤ retryAfter (max (l.window - sub call.time state.windowStart) second) :=
    le_max_right _ _
  -- The clamp to a second does not change which waits are whole.
  have hcovers : state.windowStart + l.window.toInt - call.time ≤
      retryAfter (max (l.window - sub call.time state.windowStart) second) * second.toInt ↔
        Whole (state.windowStart + l.window.toInt - call.time) := by
    have hseconds := le_retryAfter_iff
      (d := max (l.window - sub call.time state.windowStart) second)
      (by rw [hretry]; exact le_max_of_le_right (by decide))
      (by rw [hretry]; exact max_lt (by linarith) (by decide))
    rw [hretry] at hseconds
    generalize state.windowStart + l.window.toInt - call.time = left at hseconds ⊢
    unfold Whole at hseconds ⊢
    rw [toInt_second] at hseconds ⊢
    rcases le_total left 1000000000 with hshort | hlong
    · exact iff_of_true (hshort.trans (le_mul_of_one_le_left (by decide) hpos)) (Or.inr hshort)
    · rwa [max_eq_left hlong] at hseconds
  have hcomesBack : ∀ between : List Call, (∀ c ∈ between, c.key ≠ call.key) →
      ((l.after (call :: between)).createDeviceEnrollment
        (call.time + retryAfter (max (l.window - sub call.time state.windowStart) second) *
          second.toInt) call.key = none ↔
        state.windowStart + l.window.toInt - call.time ≤
          retryAfter (max (l.window - sub call.time state.windowStart) second) * second.toInt) := by
    intro between helse
    have hkept : (l.after (call :: between)).states call.key = some state := by
      rw [← List.singleton_append, after_append, after_singleton, hallow, after_of_ne helse, hstate]
    rw [createDeviceEnrollment_eq_none_iff hkept (by rwa [after_limit])
      (by rw [toInt_second]; linarith), after_window]
    constructor <;> intro h <;> linarith
  rw [← hcovers]
  constructor
  · intro honest
    exact (hcomesBack [] nofun).mp (honest _ hrefused [] nofun)
  · intro hcovered refusal hrefusal between helse
    cases hrefused.symm.trans hrefusal
    exact (hcomesBack between helse).mpr hcovered

end Enrollment

/-! ## Both limiters -/

/-- **A refused client can come back when it was told to, exactly when no part of a second was
dropped.** -/
theorem retryAfter_honest_iff (start : Nat) (events : List Event) (earlier : List Call) :
    (∀ (key : String) (state : AttemptState),
      (replay start events).limiter.attempts key = some state →
      (replay start events).clock < state.blockedUntil →
      ((replay start events).Honest key ↔
        Whole (state.blockedUntil - (replay start events).clock))) ∧
    ∀ (call : Call) (state : RateState),
      (earlier ++ [call]).Pairwise (fun call next => call.time ≤ next.time) →
      (enrollmentLimiter.after earlier).states call.key = some state →
      12 ≤ state.count → call.time < state.windowStart + minute.toInt →
      ((enrollmentLimiter.after earlier).Honest call ↔
        Whole (state.windowStart + minute.toInt - call.time)) := by
  constructor
  · intro key state hstate hblocked
    exact login_honest_iff (near_replay start events) hstate hblocked
  · intro call state hclock hstate hfull hover
    have hstart := windowStart_le minute (by decide : (1 : Int) ≤ 12) hclock hstate
    have hlimit : (enrollmentLimiter.after earlier).limit = 12 := after_limit
    have hwindow : (enrollmentLimiter.after earlier).window = minute := after_window
    have h := enrollment_honest_iff hstate (by rwa [hlimit]) hstart (by rwa [hwindow])
      (by rw [hwindow]; decide)
    rwa [hwindow] at h

/-- The eighth failure was 598.5 seconds ago, and the client is told to come back in one second. -/
theorem retryAfter_dishonest : ¬ ((∀ start events key, (replay start events).Honest key) ∧
    ∀ (earlier : List Call) (call : Call),
      (earlier ++ [call]).Pairwise (fun call next => call.time ≤ next.time) →
      (enrollmentLimiter.after earlier).Honest call) := by
  rintro ⟨honest, -⟩
  have hnext := honest 0 (eightFailures.take 16 ++ [.pass 598500000000]) "198.51.100.7"
    ⟨429, 1, "too_many_login_attempts", "登录尝试过多，请稍后再试"⟩ (by decide +kernel)
    [.pass 1000000000] ⟨id, trivial⟩ (by decide +kernel)
  exact absurd hnext (by decide +kernel)

/-- Two seconds before the end the client is told the truth. -/
def twoSecondsLeft : List Event := eightFailures.take 16 ++ [.pass 598000000000]

theorem retryAfter_honest_twoSecondsLeft :
    (replay (0 : Nat) twoSecondsLeft).Honest "198.51.100.7" :=
  ((retryAfter_honest_iff 0 twoSecondsLeft []).1 "198.51.100.7" ⟨8, 0, 600000000000⟩
    (by decide +kernel) (by decide +kernel)).mpr (by decide +kernel)

end Cfscan.Limits
