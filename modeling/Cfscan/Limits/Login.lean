import Cfscan.Lib.Along
import Cfscan.Limits.Duration
import Mathlib.Logic.Function.Basic

/-!
# The limit on logins

A login asks `Allow` first and reports `Failure` or `Success` when it is through, so that any number
of attempts that were let in are still running when a block is set. Both reports take the limiter's
lock: a run is a sequence of arrivals and ends under a clock that never goes back.

A failure that comes when the window is over starts the record of its key afresh, and drops a block
that is longer than the window. `block_holds` is what is left of the block without such failures.

Attempts are told apart by their place among those that are running, not by their key: two logins
from one address are two attempts, and either can end first.

`BlockHolds` is about any failure of a run that blocks a key, and the time until its deadline. The
exception it makes for a success is the code's own: a success clears the record. The exception it
does **not** make is the late failure, and `nineFailures_unblock` is a run where that is what
happens.
-/

set_option autoImplicit false

namespace Cfscan.Limits

open Cfscan.Lib
open Cfscan.League (Time)

/-- `blockedUntil` is Go's zero time until a block is set. -/
structure AttemptState where
  failures : Int
  windowStart : Time
  blockedUntil : Time
deriving DecidableEq

structure LoginLimiter where
  attempts : String → Option AttemptState
  maxFailures : Int
  window : Duration
  block : Duration

/-- `NewLoginLimiter`. -/
def newLoginLimiter : LoginLimiter := ⟨fun _ => none, 8, 5 * minute, 10 * minute⟩

namespace LoginLimiter

def put (l : LoginLimiter) (key : String) (state : Option AttemptState) : LoginLimiter :=
  { l with attempts := Function.update l.attempts key state }

def allow (l : LoginLimiter) (now : Time) (key : String) : (Bool × Duration) × LoginLimiter :=
  match l.attempts key with
  | none => ((true, 0), l)
  | some state =>
    if now < state.blockedUntil then ((false, sub state.blockedUntil now), l)
    else if sub now state.windowStart ≥ l.window then ((true, 0), l.put key none)
    else ((true, 0), l)

/-- The record a failure counts on. -/
def record (l : LoginLimiter) (now : Time) (key : String) : AttemptState :=
  match l.attempts key with
  | none => ⟨0, now, 0⟩
  | some state => if sub now state.windowStart ≥ l.window then ⟨0, now, 0⟩ else state

def failure (l : LoginLimiter) (now : Time) (key : String) : LoginLimiter :=
  let state := l.record now key
  let state := { state with failures := state.failures + 1 }
  if state.failures ≥ l.maxFailures then
    l.put key (some { state with blockedUntil := add now l.block })
  else l.put key (some state)

def success (l : LoginLimiter) (key : String) : LoginLimiter := l.put key none

end LoginLimiter

/-! ## Runs

Arrivals and reports are separate events, since a password is compared in between. An
attempt is named by its place among those that are running. -/

/-- The keys of the attempts that were let in and have not ended are in `running`. -/
structure World where
  clock : Time
  limiter : LoginLimiter
  running : List String

inductive Event where
  /-- Time goes by, in nanoseconds. -/
  | pass (duration : Nat)
  | arrive (key : String)
  | fail (n : Nat)
  | succeed (n : Nat)
  /-- The attempt ends without a report: its body is refused, or the database is down. -/
  | leave (n : Nat)
deriving DecidableEq

def World.allow (w : World) (key : String) : Bool × Duration := (w.limiter.allow w.clock key).1

def World.next (w : World) : Event → World
  | .pass duration => { w with clock := w.clock + duration }
  | .arrive key =>
    let r := w.limiter.allow w.clock key
    { w with limiter := r.2, running := if r.1.1 then w.running ++ [key] else w.running }
  | .fail n =>
    match w.running[n]? with
    | none => w
    | some key => { w with
        limiter := w.limiter.failure w.clock key
        running := w.running.eraseIdx n }
  | .succeed n =>
    match w.running[n]? with
    | none => w
    | some key => { w with limiter := w.limiter.success key, running := w.running.eraseIdx n }
  | .leave n => { w with running := w.running.eraseIdx n }

def World.initial (start : Time) : World := ⟨start, newLoginLimiter, []⟩

def replay (start : Time) (events : List Event) : World := events.foldl World.next (.initial start)

/-- The key a failure blocks, and until when. -/
def World.blocks (w : World) : Event → Option (String × Time)
  | .fail n => w.running[n]?.bind fun key =>
    if (w.limiter.record w.clock key).failures + 1 ≥ w.limiter.maxFailures then
      some (key, add w.clock w.limiter.block)
    else none
  | _ => none

/-- The key a success is reported for. -/
def World.clears (w : World) : Event → Option String
  | .succeed n => w.running[n]?
  | _ => none

/-- Whatever failure of a run blocks a key, the key stays blocked until then unless a success is
reported for it. -/
def BlockHolds (start : Time) (events : List Event) : Prop :=
  ∀ before ev after key deadline, events = before ++ ev :: after →
    (replay start before).blocks ev = some (key, deadline) →
    Along World.next (fun w e => w.clears e ≠ some key) (replay start (before ++ [ev])) after →
    (replay start events).clock < deadline → ((replay start events).allow key).1 = false

/-- No failure comes for a key that is blocked when its window is over. -/
def Timely (w : World) : Event → Prop
  | .fail n => ∀ key ∈ w.running[n]?, ∀ state ∈ w.limiter.attempts key,
    w.clock < state.blockedUntil → ¬ sub w.clock state.windowStart ≥ w.limiter.window
  | _ => True

instance (w : World) : (ev : Event) → Decidable (Timely w ev)
  | .fail n => inferInstanceAs (Decidable (∀ key ∈ w.running[n]?, _))
  | .pass _ | .arrive _ | .succeed _ | .leave _ => inferInstanceAs (Decidable True)

/-! ## One call -/

namespace LoginLimiter

variable {l : LoginLimiter} {now : Time} {key other : String} {state : AttemptState}

@[simp] theorem put_self (slot : Option AttemptState) : (l.put key slot).attempts key = slot :=
  Function.update_self ..

theorem put_of_ne (slot : Option AttemptState) (h : other ≠ key) :
    (l.put other slot).attempts key = l.attempts key :=
  Function.update_of_ne h.symm _ _

/-- A blocked key is refused, and nothing changes. -/
theorem allow_of_blocked (hstate : l.attempts key = some state) (h : now < state.blockedUntil) :
    l.allow now key = ((false, sub state.blockedUntil now), l) := by
  unfold allow
  rw [hstate]
  exact if_pos h

/-- A call that lets the key in may drop its record, and does no more. -/
theorem allow_cases (l : LoginLimiter) (now : Time) (key : String) :
    (∃ state, l.attempts key = some state ∧ now < state.blockedUntil ∧
      l.allow now key = ((false, sub state.blockedUntil now), l)) ∨
    ((∀ state, l.attempts key = some state → ¬ now < state.blockedUntil) ∧
      (l.allow now key = ((true, 0), l) ∨ l.allow now key = ((true, 0), l.put key none))) := by
  unfold allow
  cases hstate : l.attempts key with
  | none => exact Or.inr ⟨nofun, Or.inl rfl⟩
  | some state =>
    dsimp only
    split <;> rename_i hblocked
    · exact Or.inl ⟨state, rfl, hblocked, rfl⟩
    · refine Or.inr ⟨fun _ hsome => Option.some.inj hsome ▸ hblocked, ?_⟩
      split
      · exact Or.inr rfl
      · exact Or.inl rfl

/-- A failure counts on the record, and sets the block when it is one too many. -/
theorem failure_eq (l : LoginLimiter) (now : Time) (key : String) :
    l.failure now key = l.put key (some ⟨(l.record now key).failures + 1,
      (l.record now key).windowStart,
      if (l.record now key).failures + 1 ≥ l.maxFailures then add now l.block
      else (l.record now key).blockedUntil⟩) := by
  unfold failure
  dsimp only
  split <;> rfl

/-- Within the window the record is kept. -/
theorem record_of_some (hstate : l.attempts key = some state)
    (h : ¬ sub now state.windowStart ≥ l.window) : l.record now key = state := by
  unfold record
  rw [hstate]
  exact if_neg h

end LoginLimiter

/-! ## One step

`Blocked` is what a step keeps, unless it is a success for the key or a late failure. A
failure within the window can only move the deadline further away. -/

section Step

variable {w : World} {key : String} {deadline : Time}

/-- The key is blocked until the deadline, which is over or not further away than a block. -/
def Blocked (key : String) (deadline : Time) (w : World) : Prop :=
  deadline ≤ w.clock ∨ deadline ≤ add w.clock w.limiter.block ∧
    ∃ state, w.limiter.attempts key = some state ∧ deadline ≤ state.blockedUntil ∧
      w.limiter.maxFailures ≤ state.failures

theorem Blocked.refused (h : Blocked key deadline w) (hclock : w.clock < deadline) :
    (w.allow key).1 = false := by
  rcases h with hover | ⟨-, state, hstate, hdeadline, -⟩
  · exact absurd hover (not_le.mpr hclock)
  · rw [World.allow, LoginLimiter.allow_of_blocked hstate (hclock.trans_le hdeadline)]

theorem Blocked.of_blocks {ev : Event} (h : w.blocks ev = some (key, deadline)) :
    Blocked key deadline (w.next ev) := by
  cases ev with
  | fail n =>
    obtain ⟨key', hkey, hblock⟩ := Option.bind_eq_some_iff.mp h
    split at hblock
    case isFalse => cases hblock
    case isTrue hmany =>
      obtain ⟨rfl, rfl⟩ := Prod.mk.inj (Option.some.inj hblock)
      simp only [World.next, hkey, LoginLimiter.failure_eq, if_pos hmany]
      exact Or.inr ⟨le_rfl, _, LoginLimiter.put_self _, le_rfl, hmany⟩
  | _ => cases h

/-- Time goes by, and the slot of the key is left alone. -/
theorem Blocked.still {w' : World} (h : Blocked key deadline w) (hclock : w.clock ≤ w'.clock)
    (hblock : w'.limiter.block = w.limiter.block)
    (hmax : w'.limiter.maxFailures = w.limiter.maxFailures)
    (hslot : w'.limiter.attempts key = w.limiter.attempts key) : Blocked key deadline w' := by
  rcases h with hover | ⟨hnear, state, hstate, hdeadline, hmany⟩
  · exact Or.inl (hover.trans hclock)
  · refine Or.inr ⟨hnear.trans ?_, state, hslot.trans hstate, hdeadline, hmax ▸ hmany⟩
    rw [hblock]
    exact add_le_add_left hclock _

/-- Only a success or a late failure ends a block before its time. -/
theorem Blocked.next (h : Blocked key deadline w) {ev : Event} (htimely : Timely w ev)
    (hclears : w.clears ev ≠ some key) : Blocked key deadline (w.next ev) := by
  cases ev with
  | pass duration => exact h.still (Int.le_add_of_nonneg_right (Int.natCast_nonneg _)) rfl rfl rfl
  | leave n => exact h.still le_rfl rfl rfl rfl
  | arrive other =>
    rcases LoginLimiter.allow_cases w.limiter w.clock other with
      ⟨state, -, -, hallow⟩ | ⟨hopen, hallow | hallow⟩ <;> simp only [World.next, hallow]
    · exact h.still le_rfl rfl rfl rfl
    · exact h.still le_rfl rfl rfl rfl
    · by_cases hkey : other = key
      · subst hkey
        rcases h with hover | ⟨-, state, hstate, hdeadline, -⟩
        · exact Or.inl hover
        · exact Or.inl (hdeadline.trans (not_lt.mp (hopen state hstate)))
      · exact h.still le_rfl rfl rfl (LoginLimiter.put_of_ne none hkey)
  | succeed n =>
    cases hrunning : w.running[n]? with
    | none => simpa only [World.next, hrunning] using h
    | some other =>
      have hkey : other ≠ key := by
        rintro rfl
        exact hclears hrunning
      simp only [World.next, hrunning]
      exact h.still le_rfl rfl rfl (LoginLimiter.put_of_ne none hkey)
  | fail n =>
    cases hrunning : w.running[n]? with
    | none => simpa only [World.next, hrunning] using h
    | some other =>
      simp only [World.next, hrunning, LoginLimiter.failure_eq]
      by_cases hkey : other = key
      · subst hkey
        rcases h with hover | ⟨hnear, state, hstate, hdeadline, hmany⟩
        · exact Or.inl hover
        rcases lt_or_ge w.clock deadline with hclock | hover
        · -- The window is not over, so the record is the one that blocks, and this failure blocks
          -- the key again.
          have hrecord := LoginLimiter.record_of_some hstate
            (htimely other hrunning state hstate (hclock.trans_le hdeadline))
          have hagain : w.limiter.maxFailures ≤ state.failures + 1 := by omega
          rw [hrecord, if_pos hagain]
          exact Or.inr ⟨hnear, _, LoginLimiter.put_self _, hnear, hagain⟩
        · exact Or.inl hover
      · exact h.still le_rfl rfl rfl (LoginLimiter.put_of_ne _ hkey)

end Step

/-! ## The block -/

/-- **Without late failures a block lasts.** -/
theorem block_holds (start : Time) (events : List Event)
    (htimely : Along World.next Timely (.initial start) events) : BlockHolds start events := by
  intro before ev after key deadline hevents hblocks hclears hclock
  subst hevents
  rw [List.append_cons] at htimely hclock ⊢
  obtain ⟨-, hafter⟩ := along_append.mp htimely
  have hset : Blocked key deadline (replay start (before ++ [ev])) := by
    rw [replay, List.foldl_append]
    exact Blocked.of_blocks hblocks
  have hkept := (hafter.and hclears).invariant (Blocked key deadline) hset
    fun w ev hw hev => hw.next hev.1 hev.2
  rw [replay, List.foldl_append] at hclock ⊢
  exact hkept.refused hclock

/-- Nine logins from one address: the eighth failure blocks it for ten minutes, and the ninth comes
a second later, when the window is over. -/
def nineFailures : List Event :=
  [.arrive "198.51.100.7", .fail 0, .pass 299000000000] ++
    List.replicate 8 (.arrive "198.51.100.7") ++ List.replicate 7 (.fail 0) ++
    [.pass 1000000000, .fail 0]

theorem nineFailures_unblock : ¬ ∀ start events, BlockHolds start events := by
  intro h
  have hholds := h 0 nineFailures (nineFailures.take 17) (.fail 0) [.pass 1000000000, .fail 0]
    "198.51.100.7" 899000000000 rfl (by decide +kernel) (by decide +kernel) (by decide +kernel)
  exact absurd hholds (by decide +kernel)

/-- Eight failures at once. -/
def eightFailures : List Event :=
  List.replicate 8 (.arrive "198.51.100.7") ++ List.replicate 8 (.fail 0) ++ [.pass 599999999999]

theorem block_holds_eightFailures : ((replay 0 eightFailures).allow "198.51.100.7").1 = false :=
  block_holds 0 eightFailures (by decide +kernel) (eightFailures.take 15) (.fail 0)
    [.pass 599999999999] "198.51.100.7" 600000000000 rfl (by decide +kernel) (by decide +kernel)
    (by decide +kernel)

end Cfscan.Limits
