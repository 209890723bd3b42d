import Cfscan.Lib.FixedWindow
import Cfscan.Lib.Keyed
import Cfscan.Limits.Duration

/-!
# The rate limit on enrollments

`RateLimiter.Allow` counts the admitted calls of a key in a window that starts with the first of
them. A call is one `Keyed` step, the admitted calls of a key stand in `Windows`, and a refusal
means that the last of these is full and not over.

The four parts of `allow_two_sided` are all about arbitrary sequences of calls under a clock that
does not go back, of any keys in any order. The bound is `2 * limit - 1` and not `limit`, since the
windows are fixed: a caller may use up one at its end and the next at its beginning.

A slot is never taken off the map, as in the source: a window that is over stays in its slot until
the next call of its key.
-/

set_option autoImplicit false

namespace Cfscan.Limits

open Cfscan.Lib
open Cfscan.League (Time)

structure RateState where
  count : Int
  windowStart : Time
deriving DecidableEq

structure RateLimiter where
  states : String → Option RateState
  limit : Int
  window : Duration

def newRateLimiter (limit : Int) (window : Duration) : RateLimiter := ⟨fun _ => none, limit, window⟩

/-- What `NewRateLimiter(12, time.Minute)` gives the enrollment endpoint. -/
def enrollmentLimiter : RateLimiter := newRateLimiter 12 minute

def RateLimiter.put (l : RateLimiter) (key : String) (state : RateState) : RateLimiter :=
  { l with states := Function.update l.states key (some state) }

def RateLimiter.allow (l : RateLimiter) (now : Time) (key : String) :
    (Bool × Duration) × RateLimiter :=
  match l.states key with
  | none => ((true, 0), l.put key ⟨1, now⟩)
  | some state =>
    if sub now state.windowStart ≥ l.window then ((true, 0), l.put key ⟨1, now⟩)
    else if state.count ≥ l.limit then
      ((false, max (l.window - sub now state.windowStart) second), l)
    else ((true, 0), l.put key { state with count := state.count + 1 })

/-! ## Runs -/

structure Call where
  time : Time
  key : String
deriving DecidableEq

structure Answer extends Call where
  allowed : Bool
  retry : Duration
deriving DecidableEq

/-- The answers to a sequence of calls. -/
def RateLimiter.answers : RateLimiter → List Call → List Answer
  | _, [] => []
  | l, call :: calls =>
    let r := l.allow call.time call.key
    ⟨call, r.1.1, r.1.2⟩ :: answers r.2 calls

def RateLimiter.after (l : RateLimiter) (calls : List Call) : RateLimiter :=
  calls.foldl (fun l call => (l.allow call.time call.key).2) l

/-! ## One call -/

section Step

variable {l : RateLimiter} {now : Time} {key other : String} {call : Call} {calls more : List Call}

/-- Everything a call can do. -/
theorem allow_cases (l : RateLimiter) (now : Time) (key : String) :
    (l.allow now key = ((true, 0), l.put key ⟨1, now⟩) ∧
      ∀ state, l.states key = some state → l.window ≤ sub now state.windowStart) ∨
    ∃ state, l.states key = some state ∧ ¬ l.window ≤ sub now state.windowStart ∧
      ((l.limit ≤ state.count ∧
          l.allow now key = ((false, max (l.window - sub now state.windowStart) second), l)) ∨
        (state.count < l.limit ∧
          l.allow now key = ((true, 0), l.put key ⟨state.count + 1, state.windowStart⟩))) := by
  unfold RateLimiter.allow
  cases hstate : l.states key with
  | none => exact Or.inl ⟨rfl, nofun⟩
  | some state =>
    dsimp only
    split <;> rename_i hover
    · exact Or.inl ⟨rfl, fun _ hsome => Option.some.inj hsome ▸ hover⟩
    · refine Or.inr ⟨state, rfl, hover, ?_⟩
      split <;> rename_i hfull
      · exact Or.inl ⟨hfull, rfl⟩
      · exact Or.inr ⟨by omega, rfl⟩

@[simp] theorem newRateLimiter_limit (limit : Int) (window : Duration) :
    (newRateLimiter limit window).limit = limit := rfl

@[simp] theorem newRateLimiter_window (limit : Int) (window : Duration) :
    (newRateLimiter limit window).window = window := rfl

@[simp] theorem put_states (state : RateState) :
    (l.put key state).states = Function.update l.states key (some state) := rfl

theorem allow_of_ne (h : other ≠ key) : (l.allow now other).2.states key = l.states key := by
  rcases allow_cases l now other with ⟨hallow, -⟩ | ⟨_, -, -, ⟨-, hallow⟩ | ⟨-, hallow⟩⟩ <;>
    rw [hallow]
  all_goals first | rfl | exact Function.update_of_ne h.symm _ _

@[simp] theorem allow_limit : (l.allow now key).2.limit = l.limit := by
  rcases allow_cases l now key with ⟨h, -⟩ | ⟨_, -, -, ⟨-, h⟩ | ⟨-, h⟩⟩ <;> rw [h] <;> rfl

@[simp] theorem allow_window : (l.allow now key).2.window = l.window := by
  rcases allow_cases l now key with ⟨h, -⟩ | ⟨_, -, -, ⟨-, h⟩ | ⟨-, h⟩⟩ <;> rw [h] <;> rfl

/-- The limiter reads and writes the slot of the key. -/
def rateSlots (limit : Int) (window : Duration) : Keyed String Call RateState (Bool × Duration) where
  key := Call.key
  slot call state :=
    let r := RateLimiter.allow ⟨fun _ => state, limit, window⟩ call.time call.key
    (r.1, r.2.states call.key)

theorem serve_rateSlots (l : RateLimiter) (call : Call) :
    (rateSlots l.limit l.window).serve l.states call =
      ((l.allow call.time call.key).1, (l.allow call.time call.key).2.states) := by
  unfold Keyed.serve rateSlots RateLimiter.allow
  dsimp only
  cases hstate : l.states call.key with
  | none => simp
  | some state =>
    dsimp only
    split
    · simp
    split
    · simp [← hstate]
    · simp

end Step

/-! ## Runs, key by key

The limiter is a map of slots, and a call looks at the slot of its key. What the other keys
do is filtered out by the library's lemmas about `Keyed`. -/

section Run

variable {l : RateLimiter} {calls more : List Call}

def answer (a : Call × (Bool × Duration)) : Answer := ⟨a.1, a.2.1, a.2.2⟩

theorem answers_eq : l.answers calls =
    ((rateSlots l.limit l.window).answers l.states calls).map answer := by
  induction calls generalizing l with
  | nil => rfl
  | cons call calls ih =>
    have hserve := serve_rateSlots l call
    simp only [RateLimiter.answers, Keyed.answers, List.map_cons, hserve]
    rw [ih, allow_limit, allow_window]
    rfl

theorem after_eq : l.after calls =
    ⟨(rateSlots l.limit l.window).final l.states calls, l.limit, l.window⟩ := by
  induction calls generalizing l with
  | nil => rfl
  | cons call calls ih =>
    have hserve := serve_rateSlots l call
    simp only [RateLimiter.after, Keyed.final, List.foldl_cons, hserve] at ih ⊢
    rw [ih, allow_limit, allow_window]

@[simp] theorem after_singleton (call : Call) :
    l.after [call] = (l.allow call.time call.key).2 := rfl

@[simp] theorem after_limit : (l.after calls).limit = l.limit := by rw [after_eq]

@[simp] theorem after_window : (l.after calls).window = l.window := by rw [after_eq]

theorem answers_append :
    l.answers (calls ++ more) = l.answers calls ++ (l.after calls).answers more := by
  rw [answers_eq, answers_eq, answers_eq, after_eq, Keyed.answers_append, List.map_append]

@[simp] theorem after_append : l.after (calls ++ more) = (l.after calls).after more :=
  List.foldl_append

theorem map_toCall_answers : (l.answers calls).map Answer.toCall = calls := by
  rw [answers_eq, List.map_map]
  exact Keyed.map_fst_answers

/-- The times at which calls of the key were admitted. -/
def admitted (key : String) (answers : List Answer) : List Time :=
  (answers.filter fun a => decide (a.key = key) && a.allowed).map fun a => a.time

theorem admitted_append (key : String) (answers later : List Answer) :
    admitted key (answers ++ later) = admitted key answers ++ admitted key later := by
  simp [admitted]

@[simp] theorem admitted_singleton (key : String) (call : Call) :
    admitted key (l.answers [call]) =
      if call.key = key ∧ (l.allow call.time call.key).1.1 = true then [call.time] else [] := by
  simp only [admitted, RateLimiter.answers, List.filter_cons, List.filter_nil, Bool.and_eq_true,
    decide_eq_true_eq]
  split <;> rfl

theorem time_of_mem_admitted {key : String} {u : Time}
    (h : u ∈ admitted key (l.answers calls)) : ∃ call ∈ calls, call.time = u := by
  obtain ⟨a, ha, rfl⟩ := List.mem_map.mp h
  have hmem := List.mem_map_of_mem (f := Answer.toCall) (List.mem_of_mem_filter ha)
  rw [map_toCall_answers] at hmem
  exact ⟨a.toCall, hmem, rfl⟩

end Run

/-! ## Windows

From slots to times. `InWindow` ties the slot of a key to the last of its `Windows`, and the
two counts of the theorem are the library's, read through it. -/

section Window

variable {limit : Int} {window : Duration} {calls : List Call}

/-- The slot of a key tells the last window of its admissions. -/
def InWindow (limit : Int) (window : Duration) (ts : List Time) : Option RateState → Prop
  | none => ts = []
  | some state => ∃ n : Nat, state.count = n ∧
      Windows window.toInt limit.toNat ts state.windowStart n

theorem InWindow.allow {l : RateLimiter} {ts : List Time} {now : Int} {key : String}
    (hlimit : 1 ≤ l.limit) (h : InWindow l.limit l.window ts (l.states key))
    (hlast : ∀ u ∈ ts, u ≤ now) :
    InWindow l.limit l.window (ts ++ if (l.allow now key).1.1 then [now] else [])
      ((l.allow now key).2.states key) := by
  rcases allow_cases l now key with ⟨hallow, hover⟩ | ⟨state, hstate, hover, hallow⟩
  · rw [hallow, put_states, Function.update_self, if_pos rfl]
    cases hstate : l.states key with
    | none =>
      rw [hstate] at h
      rw [show ts = [] from h]
      exact ⟨1, rfl, .first now⟩
    | some state =>
      rw [hstate] at h
      obtain ⟨n, -, hwindows⟩ := h
      have hstart := hlast _ hwindows.start_mem
      exact ⟨1, rfl, hwindows.next ((le_sub_iff hstart).mp (hover state hstate)) hlast⟩
  · rw [hstate] at h
    obtain ⟨n, hcount, hwindows⟩ := h
    rcases hallow with ⟨hfull, hallow⟩ | ⟨hroom, hallow⟩
    · rw [hallow, hstate, if_neg Bool.false_ne_true, List.append_nil]
      exact ⟨n, hcount, hwindows⟩
    · rw [hallow, put_states, Function.update_self, if_pos rfl]
      exact ⟨n + 1, by rw [hcount]; rfl, hwindows.more (by omega) hlast⟩

/-- **After any run the slots tell the windows.** -/
theorem inWindow_after (window : Duration) (hlimit : 1 ≤ limit)
    (hclock : calls.Pairwise fun call next => call.time ≤ next.time) (key : String) :
    InWindow limit window (admitted key ((newRateLimiter limit window).answers calls))
      (((newRateLimiter limit window).after calls).states key) := by
  induction calls using List.reverseRecOn with
  | nil => rfl
  | append_singleton calls call ih =>
    obtain ⟨hbefore, -, hcross⟩ := List.pairwise_append.mp hclock
    have hlast : ∀ u ∈ admitted key ((newRateLimiter limit window).answers calls), u ≤ call.time := by
      intro u hu
      obtain ⟨earlier, hearlier, rfl⟩ := time_of_mem_admitted hu
      exact hcross earlier hearlier call (List.mem_singleton_self call)
    rw [answers_append, admitted_append, after_append]
    have hslot := ih hbefore
    by_cases hkey : call.key = key
    · subst hkey
      have hnext := InWindow.allow (l := (newRateLimiter limit window).after calls)
        (by simpa using hlimit) (by simpa using hslot) hlast
      simpa using hnext
    · simpa [hkey, allow_of_ne hkey] using hslot

/-- A call that is refused meets a full window that is not over, and leaves it. -/
theorem refused_cases {l : RateLimiter} {now : Time} {key : String}
    (h : (l.allow now key).1.1 = false) :
    ∃ state, l.states key = some state ∧ ¬ l.window ≤ sub now state.windowStart ∧
      l.limit ≤ state.count ∧
      l.allow now key = ((false, max (l.window - sub now state.windowStart) second), l) := by
  rcases allow_cases l now key with ⟨hallow, -⟩ | ⟨state, hstate, hover, ⟨hfull, hallow⟩ | ⟨-, hallow⟩⟩
  · rw [hallow] at h
    cases h
  · exact ⟨state, hstate, hover, hfull, hallow⟩
  · rw [hallow] at h
    cases h

theorem after_of_ne {l : RateLimiter} {calls : List Call} {key : String}
    (h : ∀ call ∈ calls, call.key ≠ key) : (l.after calls).states key = l.states key := by
  rw [after_eq]
  exact Keyed.final_of_ne h

/-- A key is answered as if its calls were the only ones. -/
theorem answers_filter (l : RateLimiter) (calls : List Call) (key : String) :
    (l.answers calls).filter (fun a => a.key = key) =
      l.answers (calls.filter fun c => c.key = key) := by
  rw [answers_eq, answers_eq, List.filter_map]
  exact congrArg _ (Keyed.answers_filter (k := rateSlots l.limit l.window)
    (rfl : l.states key = l.states key))

variable {earlier between : List Call} {call next : Call}

/-- The start of the window of a key is the time of a call before. -/
theorem windowStart_le (window : Duration) (hlimit : 1 ≤ limit)
    (hclock : (earlier ++ [call]).Pairwise fun call next => call.time ≤ next.time) {state : RateState}
    (hstate : ((newRateLimiter limit window).after earlier).states call.key = some state) :
    state.windowStart ≤ call.time := by
  obtain ⟨hbefore, -, hcross⟩ := List.pairwise_append.mp hclock
  have hslot := inWindow_after window hlimit hbefore call.key
  rw [hstate] at hslot
  obtain ⟨n, -, hwindows⟩ := hslot
  obtain ⟨first, hfirst, hstart⟩ := time_of_mem_admitted hwindows.start_mem
  rw [← hstart]
  exact hcross first hfirst call (List.mem_singleton_self call)

/-- In an interval as long as the window at most `2 * limit - 1` calls of a key are admitted. -/
theorem admitted_lt (hlimit : 1 ≤ limit)
    (hclock : calls.Pairwise fun call next => call.time ≤ next.time) (key : String) (t : Time) :
    ((admitted key ((newRateLimiter limit window).answers calls)).countP
      fun u => decide (within window.toInt t u) : Nat) ≤ 2 * limit - 1 := by
  have hslot := inWindow_after window hlimit hclock key
  cases hstate : ((newRateLimiter limit window).after calls).states key with
  | none =>
    rw [hstate] at hslot
    rw [show admitted key _ = [] from hslot, List.countP_nil]
    omega
  | some state =>
    rw [hstate] at hslot
    obtain ⟨n, -, hwindows⟩ := hslot
    have hcount := (hwindows.count_lt (by omega) t).1
    omega

/-- A call is refused only after as many admissions as the limit within the last window. -/
theorem le_recent_of_refused (hlimit : 1 ≤ limit)
    (hclock : (earlier ++ [call]).Pairwise fun call next => call.time ≤ next.time)
    (h : (((newRateLimiter limit window).after earlier).allow call.time call.key).1.1 = false) :
    limit ≤ ((admitted call.key ((newRateLimiter limit window).answers earlier)).countP
      fun u => decide (call.time - window.toInt < u ∧ u ≤ call.time) : Nat) := by
  obtain ⟨state, hstate, hover, hfull, -⟩ := refused_cases h
  have hstart := windowStart_le window hlimit hclock hstate
  obtain ⟨hbefore, -, hcross⟩ := List.pairwise_append.mp hclock
  have hslot := inWindow_after window hlimit hbefore call.key
  rw [hstate] at hslot
  obtain ⟨n, hcount, hwindows⟩ := hslot
  rw [after_window, newRateLimiter_window, le_sub_iff hstart] at hover
  rw [after_limit, newRateLimiter_limit] at hfull
  have hrecent : ∀ u, state.windowStart ≤ u →
      u ∈ admitted call.key ((newRateLimiter limit window).answers earlier) →
      decide (call.time - window.toInt < u ∧ u ≤ call.time) = true := by
    intro u hu hmem
    obtain ⟨first, hfirst, rfl⟩ := time_of_mem_admitted hmem
    have hlast := hcross first hfirst call (List.mem_singleton_self call)
    exact decide_eq_true ⟨by linarith, hlast⟩
  calc limit ≤ state.count := hfull
    _ = n := hcount
    _ ≤ _ := by exact_mod_cast hwindows.le_countP hrecent

/-- Once the time of a refusal is over, the key is admitted. -/
theorem allowed_of_retry (hlimit : 1 ≤ limit)
    (hclock : (earlier ++ call :: between ++ [next]).Pairwise fun call next => call.time ≤ next.time)
    (h : (((newRateLimiter limit window).after earlier).allow call.time call.key).1.1 = false)
    (hkey : next.key = call.key) (hothers : ∀ c ∈ between, c.key ≠ call.key)
    (hretry : call.time + (((newRateLimiter limit window).after earlier).allow call.time
      call.key).1.2.toInt ≤ next.time) :
    (((newRateLimiter limit window).after (earlier ++ call :: between)).allow next.time
      next.key).1.1 = true := by
  obtain ⟨state, hstate, hover, -, hallow⟩ := refused_cases h
  have hsub : (earlier ++ [call]).Sublist (earlier ++ call :: between ++ [next]) := by simp
  have hstart := windowStart_le window hlimit (hclock.sublist hsub) hstate
  -- only calls of other keys came in between, so the record is the one that refused
  have hslot : ((newRateLimiter limit window).after (earlier ++ call :: between)).states next.key =
      some state := by
    rw [List.append_cons, after_append, after_append, after_singleton, hallow, hkey,
      after_of_ne hothers, hstate]
  rw [after_window, newRateLimiter_window] at hover
  have hleft := toInt_left hstart (not_le.mp (mt (le_sub_iff hstart).mpr hover))
  rw [hallow, toInt_max, after_window, newRateLimiter_window, hleft] at hretry
  rcases allow_cases ((newRateLimiter limit window).after (earlier ++ call :: between)) next.time
    next.key with ⟨hnext, -⟩ | ⟨state', hstate', hover', -⟩
  · rw [hnext]
  · cases hslot.symm.trans hstate'
    have hlater : state.windowStart ≤ next.time := hstart.trans (by
      have hpair : [call, next].Pairwise fun call next => call.time ≤ next.time :=
        hclock.sublist (by simp)
      simpa using hpair)
    rw [after_window, newRateLimiter_window, le_sub_iff hlater] at hover'
    -- the wait that was handed out reaches the end of its window
    have hmax := le_max_left (state.windowStart + window.toInt - call.time) second.toInt
    exact absurd (by linarith) hover'

end Window

/-! ## The limit -/

/-- **The limit is two-sided.** -/
theorem allow_two_sided (limit : Int) (hlimit : 1 ≤ limit) (window : Duration) (calls : List Call)
    (hclock : calls.Pairwise fun call next => call.time ≤ next.time) :
    (∀ key t, ((admitted key ((newRateLimiter limit window).answers calls)).countP
      fun u => decide (within window.toInt t u) : Nat) ≤ 2 * limit - 1) ∧
    (∀ earlier call later, calls = earlier ++ call :: later →
      (((newRateLimiter limit window).after earlier).allow call.time call.key).1.1 = false →
      limit ≤ ((admitted call.key ((newRateLimiter limit window).answers earlier)).countP
        fun u => decide (call.time - window.toInt < u ∧ u ≤ call.time) : Nat)) ∧
    (∀ key others, (others.filter fun c => c.key = key) = calls.filter (fun c => c.key = key) →
      ((newRateLimiter limit window).answers others).filter (fun a => a.key = key) =
        ((newRateLimiter limit window).answers calls).filter fun a => a.key = key) ∧
    ∀ earlier call between next later, calls = earlier ++ call :: between ++ next :: later →
      (((newRateLimiter limit window).after earlier).allow call.time call.key).1.1 = false →
      next.key = call.key → (∀ c ∈ between, c.key ≠ call.key) →
      call.time + (((newRateLimiter limit window).after earlier).allow call.time
        call.key).1.2.toInt ≤ next.time →
      (((newRateLimiter limit window).after (earlier ++ call :: between)).allow next.time
        next.key).1.1 = true := by
  refine ⟨admitted_lt hlimit hclock, ?_, ?_, ?_⟩
  · rintro earlier call later rfl hrefused
    exact le_recent_of_refused hlimit (hclock.sublist (by simp)) hrefused
  · intro key others hsame
    rw [answers_filter, answers_filter, hsame]
  · rintro earlier call between next later rfl hrefused hkey hothers hretry
    exact allowed_of_retry hlimit (hclock.sublist (by simp)) hrefused hkey hothers hretry

/-- Three calls at once and one a minute later, by a client that may make two a minute. -/
def minuteCalls : List Call :=
  [⟨0, "client"⟩, ⟨0, "client"⟩, ⟨0, "client"⟩, ⟨60000000000, "client"⟩]

theorem allow_two_sided_minuteCalls :
    ((admitted "client" ((newRateLimiter 2 minute).answers minuteCalls)).countP
        fun u => decide (within minute.toInt 1 u) : Nat) ≤ (3 : Int) ∧
      (((newRateLimiter 2 minute).after (minuteCalls.take 3)).allow 60000000000 "client").1.1 =
        true :=
  have h := allow_two_sided 2 (by decide) minute minuteCalls (by decide)
  ⟨h.1 "client" 1, h.2.2.2 (minuteCalls.take 2) ⟨0, "client"⟩ [] ⟨60000000000, "client"⟩ [] rfl
    (by decide) rfl nofun (by decide)⟩

end Cfscan.Limits
