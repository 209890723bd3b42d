import Mathlib.Algebra.BigOperators.Group.Multiset.Basic
import Mathlib.Algebra.Order.Group.Multiset
import Mathlib.Data.Multiset.MapFold
import Mathlib.Tactic.Abel

/-!
# A pool of workers between two channels

A feeder offers tasks one by one on a channel without a buffer and closes it when it is through or
called off. Any number of workers receive from it, run what they received, and send the result on
a buffered channel. The caller waits until every worker is done and then collects the results.

`step` is one move of one party, or the cancellation of them all, and `play` a schedule of moves.
Three facts hold under every schedule. A task is always in one place (`Sound`), unless the feeder
dropped it when it was called off. While the caller has not returned some party can move
(`Sound.exists_step`), provided the buffer has room for every task. And every move takes some of
the pool's `weight`, so that a schedule is only so long (`play_length`).

What a worker makes of a task is any function, and how long it takes is the scheduler's choice. That
the run of a task ends is an assumption about that function and not about the pool: here it does.
-/

set_option autoImplicit false

namespace Cfscan.Lib.Pool

/-! ## The parties

A move is one party's, or two parties' that meet at the channel without a buffer, or it
calls the pool off. `Move` lists the moves with what they change, so that a proof about
`step` is a case distinction on `Move`. -/

inductive Worker (τ ρ : Type) where
  | receiving
  | working (task : τ)
  | sending (result : ρ)
  | done
deriving DecidableEq, Repr

def Worker.isDone {τ ρ : Type} : Worker τ ρ → Bool
  | .done => true
  | _ => false

inductive Feeder (τ : Type) where
  | offering (tasks : List τ)
  /-- Out of the loop; the channel is still open. -/
  | leaving
  | closed
deriving DecidableEq, Repr

inductive Caller (ρ : Type) where
  | waiting
  | collecting (items : List ρ)
  | returned (items : List ρ)
deriving DecidableEq, Repr

structure State (τ ρ : Type) where
  feeder : Feeder τ
  workers : List (Worker τ ρ)
  results : List ρ
  cancelled : Bool
  caller : Caller ρ
deriving DecidableEq, Repr

/-- What can happen next. `ω` is what a task meets while it runs. -/
inductive Act (ω : Type) where
  | cancel
  /-- The feeder and a worker meet at the channel. -/
  | handOff (worker : Nat)
  | leave
  | close
  | finish (worker : Nat) (outcome : ω)
  | send (worker : Nat)
  | exit (worker : Nat)
  /-- Every worker is done, and the caller closes the results. -/
  | wake
  | collect
  | ret
deriving DecidableEq, Repr

variable {τ ρ ω κ : Type}

def start (tasks : List τ) (workers : Nat) : State τ ρ where
  feeder := .offering tasks
  workers := List.replicate workers .receiving
  results := []
  cancelled := false
  caller := .waiting

variable (run : τ → ω → ρ) (capacity : Nat)

/-- A party in the state the act asks for makes its move; `none` is an act that cannot happen. -/
def step (p : State τ ρ) : Act ω → Option (State τ ρ)
  | .cancel => if p.cancelled then none else some { p with cancelled := true }
  | .handOff i =>
    match p.feeder, p.workers[i]? with
    | .offering (task :: tasks), some .receiving =>
      some { p with feeder := .offering tasks, workers := p.workers.set i (.working task) }
    | _, _ => none
  | .leave =>
    match p.feeder with
    | .offering [] => some { p with feeder := .leaving }
    | .offering (_ :: _) => if p.cancelled then some { p with feeder := .leaving } else none
    | _ => none
  | .close =>
    match p.feeder with
    | .leaving => some { p with feeder := .closed }
    | _ => none
  | .finish i outcome =>
    match p.workers[i]? with
    | some (.working task) =>
      some { p with workers := p.workers.set i (.sending (run task outcome)) }
    | _ => none
  | .send i =>
    match p.workers[i]? with
    | some (.sending result) =>
      if p.results.length < capacity then
        some { p with workers := p.workers.set i .receiving, results := p.results ++ [result] }
      else none
    | _ => none
  | .exit i =>
    match p.feeder, p.workers[i]? with
    | .closed, some .receiving => some { p with workers := p.workers.set i .done }
    | _, _ => none
  | .wake =>
    match p.caller with
    | .waiting =>
      if p.workers.all Worker.isDone then some { p with caller := .collecting [] } else none
    | _ => none
  | .collect =>
    match p.caller, p.results with
    | .collecting items, result :: results =>
      some { p with caller := .collecting (items ++ [result]), results := results }
    | _, _ => none
  | .ret =>
    match p.caller, p.results with
    | .collecting items, [] => some { p with caller := .returned items }
    | _, _ => none

def play (p : State τ ρ) : List (Act ω) → Option (State τ ρ)
  | [] => some p
  | a :: acts => (step run capacity p a).bind fun p' => play p' acts

/-- What the moves change, and when each can be made. -/
inductive Move (p : State τ ρ) : State τ ρ → Prop
  | cancel (h : p.cancelled = false) : Move p { p with cancelled := true }
  | handOff {i : Nat} {task : τ} {tasks : List τ} (hf : p.feeder = .offering (task :: tasks))
      (hw : p.workers[i]? = some .receiving) :
      Move p { p with feeder := .offering tasks, workers := p.workers.set i (.working task) }
  | leave {tasks : List τ} (hf : p.feeder = .offering tasks)
      (h : tasks = [] ∨ p.cancelled = true) : Move p { p with feeder := .leaving }
  | close (hf : p.feeder = .leaving) : Move p { p with feeder := .closed }
  | finish {i : Nat} {task : τ} (outcome : ω) (hw : p.workers[i]? = some (.working task)) :
      Move p { p with workers := p.workers.set i (.sending (run task outcome)) }
  | send {i : Nat} {result : ρ} (hw : p.workers[i]? = some (.sending result))
      (h : p.results.length < capacity) :
      Move p { p with workers := p.workers.set i .receiving, results := p.results ++ [result] }
  | exit {i : Nat} (hf : p.feeder = .closed) (hw : p.workers[i]? = some .receiving) :
      Move p { p with workers := p.workers.set i .done }
  | wake (hc : p.caller = .waiting) (h : p.workers.all Worker.isDone = true) :
      Move p { p with caller := .collecting [] }
  | collect {items results : List ρ} {result : ρ} (hc : p.caller = .collecting items)
      (h : p.results = result :: results) :
      Move p { p with caller := .collecting (items ++ [result]), results := results }
  | ret {items : List ρ} (hc : p.caller = .collecting items) (h : p.results = []) :
      Move p { p with caller := .returned items }

section Step

variable {run : τ → ω → ρ} {capacity : Nat} {p p' : State τ ρ} {a : Act ω}

theorem move_of_step (h : step run capacity p a = some p') : Move run capacity p p' := by
  -- one case for each act: the branch that moves gives the move, the others return `none`
  cases a with
  | cancel =>
    simp only [step] at h
    split at h
    · cases h
    · cases h
      exact .cancel (Bool.eq_false_iff.mpr ‹_›)
  | handOff i =>
    simp only [step] at h
    split at h
    · cases h
      exact .handOff ‹_› ‹_›
    · cases h
  | leave =>
    simp only [step] at h
    split at h
    · cases h
      exact .leave ‹_› (Or.inl rfl)
    · split at h
      · cases h
        exact .leave ‹_› (Or.inr ‹_›)
      · cases h
    · cases h
  | close =>
    simp only [step] at h
    split at h
    · cases h
      exact .close ‹_›
    · cases h
  | finish i outcome =>
    simp only [step] at h
    split at h
    · cases h
      exact .finish outcome ‹_›
    · cases h
  | send i =>
    simp only [step] at h
    split at h
    · split at h
      · cases h
        exact .send ‹_› ‹_›
      · cases h
    · cases h
  | exit i =>
    simp only [step] at h
    split at h
    · cases h
      exact .exit ‹_› ‹_›
    · cases h
  | wake =>
    simp only [step] at h
    split at h
    · split at h
      · cases h
        exact .wake ‹_› ‹_›
      · cases h
    · cases h
  | collect =>
    simp only [step] at h
    split at h
    · cases h
      exact .collect ‹_› ‹_›
    · cases h
  | ret =>
    simp only [step] at h
    split at h
    · cases h
      exact .ret ‹_› ‹_›
    · cases h

theorem play_concat {acts : List (Act ω)} (h : play run capacity p acts = some p') (a : Act ω) :
    play run capacity p (acts ++ [a]) = step run capacity p' a := by
  induction acts generalizing p with
  | nil =>
    cases h
    simp [play]
  | cons b acts ih =>
    obtain ⟨q, hstep, hrest⟩ := Option.bind_eq_some_iff.mp h
    rw [List.cons_append, play, hstep, Option.bind_some, ih hrest]

/-- Only the one act cancels. -/
theorem cancelled_step (h : step run capacity p a = some p') (ha : a ≠ .cancel) :
    p'.cancelled = p.cancelled := by
  cases a with
  | cancel => exact absurd rfl ha
  | _ =>
    simp only [step] at h
    grind

theorem cancelled_play {acts : List (Act ω)} (h : play run capacity p acts = some p')
    (hacts : .cancel ∉ acts) : p'.cancelled = p.cancelled := by
  induction acts generalizing p with
  | nil =>
    cases h
    rfl
  | cons a acts ih =>
    obtain ⟨q, hstep, hplay⟩ := Option.bind_eq_some_iff.mp h
    rw [List.mem_cons, not_or] at hacts
    rw [ih hplay hacts.2, cancelled_step hstep fun heq => hacts.1 heq.symm]

end Step

/-! ## Where a task is

Counted as a multiset of names over the feeder, the workers, the buffer and the caller. A
move passes a name on or keeps it; only the feeder of a pool that was called off drops
names. -/

/-- The sum over the workers when one of them moves. -/
theorem sum_set {μ : Type} [AddCommMonoid μ] (f : Worker τ ρ → μ) {workers : List (Worker τ ρ)}
    {i : Nat} {w : Worker τ ρ} (w' : Worker τ ρ) (h : workers[i]? = some w) :
    ((workers.set i w').map f).sum + f w = (workers.map f).sum + f w' := by
  induction workers generalizing i with
  | nil => cases h
  | cons v workers ih =>
    cases i with
    | zero =>
      cases h
      simp only [List.set_cons_zero, List.map_cons, List.sum_cons]
      abel
    | succ i =>
      have hrest := ih (i := i) h
      simp only [List.set_cons_succ, List.map_cons, List.sum_cons]
      rw [add_assoc, hrest]
      abel

section Held

variable (id : τ → κ) (resultID : ρ → κ)

/-- The task a worker has, by its name. -/
def Worker.held : Worker τ ρ → Multiset κ
  | .receiving => 0
  | .working task => {id task}
  | .sending result => {resultID result}
  | .done => 0

def Feeder.held : Feeder τ → Multiset κ
  | .offering tasks => (tasks : Multiset τ).map id
  | .leaving => 0
  | .closed => 0

def Caller.held : Caller ρ → Multiset κ
  | .waiting => 0
  | .collecting items => (items : Multiset ρ).map resultID
  | .returned items => (items : Multiset ρ).map resultID

/-- All tasks in the pool, by their names. -/
def State.held (p : State τ ρ) : Multiset κ :=
  p.feeder.held id + (p.workers.map (Worker.held id resultID)).sum +
    (p.results : Multiset ρ).map resultID + p.caller.held resultID

/-- What holds of every state reached: no task is lost or doubled, workers leave only a closed
channel, and the caller goes on only when they all have. -/
structure Sound (tasks : List τ) (p : State τ ρ) : Prop where
  held : ∃ dropped : Multiset κ, p.held id resultID + dropped = (tasks : Multiset τ).map id ∧
    (p.cancelled = false → dropped = 0)
  exited : .done ∈ p.workers → p.feeder = .closed
  woken : p.caller ≠ .waiting → ∀ w ∈ p.workers, w = .done
  emptied : ∀ items, p.caller = .returned items → p.results = []

variable {id : τ → κ} {resultID : ρ → κ} {run : τ → ω → ρ} {capacity : Nat} {tasks : List τ}
  {p p' : State τ ρ} {acts : List (Act ω)}

theorem sound_start (tasks : List τ) (workers : Nat) :
    Sound id resultID tasks (start tasks workers) where
  held := by
    refine ⟨0, ?_, fun _ => rfl⟩
    simp [State.held, start, Feeder.held, Caller.held, Worker.held]
  exited := fun h => absurd (List.eq_of_mem_replicate h) (by simp)
  woken := fun h => absurd rfl h
  emptied := by
    intro items h
    cases h

/-- A worker that is not done moves on, and nobody else. -/
theorem done_of_set {workers : List (Worker τ ρ)} {i : Nat} {w : Worker τ ρ} (hw : w ≠ .done)
    (h : .done ∈ workers.set i w) : .done ∈ workers :=
  (List.mem_or_eq_of_mem_set h).resolve_right hw.symm

/-- While some worker is not done the caller waits. -/
theorem Sound.waiting (h : Sound id resultID tasks p) {i : Nat} {w : Worker τ ρ}
    (hw : p.workers[i]? = some w) (hdone : w ≠ .done) : p.caller = .waiting := by
  by_contra hcaller
  exact hdone (h.woken hcaller w (List.mem_of_getElem? hw))

/-- A move of worker `i` that carries one task on, or takes one in, keeps where the tasks are. -/
theorem held_set (id : τ → κ) (resultID : ρ → κ) {i : Nat} {w : Worker τ ρ} (w' : Worker τ ρ)
    (hw : p.workers[i]? = some w) :
    ((p.workers.set i w').map (Worker.held id resultID)).sum + w.held id resultID =
      (p.workers.map (Worker.held id resultID)).sum + w'.held id resultID :=
  sum_set (Worker.held id resultID) w' hw

/-- A worker that is not done moves: the caller still waits, so only the tasks and the exits are left
to check. -/
theorem Sound.worked (h : Sound id resultID tasks p) {i : Nat} {w : Worker τ ρ}
    (hw : p.workers[i]? = some w) (hopen : w ≠ .done)
    (hheld : p'.held id resultID = p.held id resultID) (hcancelled : p'.cancelled = p.cancelled)
    (hcaller : p'.caller = p.caller) (hexited : .done ∈ p'.workers → p'.feeder = .closed) :
    Sound id resultID tasks p' := by
  have hwaiting : p'.caller = .waiting := hcaller.trans (h.waiting hw hopen)
  refine ⟨?_, hexited, fun hne => absurd hwaiting hne, fun items hitems => ?_⟩
  · rw [hheld, hcancelled]
    exact h.held
  · cases hwaiting.symm.trans hitems

theorem Sound.move (hid : ∀ task outcome, resultID (run task outcome) = id task)
    (h : Sound id resultID tasks p) (hmove : Move run capacity p p') :
    Sound id resultID tasks p' := by
  obtain ⟨dropped, hheld, hdropped⟩ := h.held
  cases hmove with
  | cancel _ =>
    exact ⟨⟨dropped, hheld, fun hc => absurd hc (by simp)⟩, h.exited, h.woken, h.emptied⟩
  | @handOff i task rest hf hw =>
    refine h.worked hw (by simp) ?_ rfl rfl ?_
    · -- the first of the tasks offered is now the worker's
      have hset := held_set id resultID (.working task) hw
      simp only [State.held, hf, Feeder.held, Worker.held, add_zero] at hset ⊢
      rw [hset, ← Multiset.cons_coe, Multiset.map_cons, ← Multiset.singleton_add]
      abel
    · intro hdone
      rw [h.exited (done_of_set (by simp) hdone)] at hf
      cases hf
  | @leave rest hf hwhy =>
    -- what the feeder still offers is dropped
    refine ⟨⟨dropped + (rest : Multiset τ).map id, ?_, fun hc => ?_⟩, ?_, h.woken, h.emptied⟩
    · rw [← hheld]
      simp only [State.held, hf, Feeder.held]
      abel
    · rcases hwhy with rfl | hcancelled
      · rw [hdropped hc]
        rfl
      · exact absurd hc (by simp [hcancelled])
    · intro hdone
      cases hf.symm.trans (h.exited hdone)
  | close hf =>
    refine ⟨⟨dropped, ?_, hdropped⟩, fun _ => rfl, h.woken, h.emptied⟩
    rw [← hheld]
    simp only [State.held, hf, Feeder.held]
  | @finish i task outcome hw =>
    refine h.worked hw (by simp) ?_ rfl rfl fun hdone => h.exited (done_of_set (by simp) hdone)
    have hset := held_set id resultID (.sending (run task outcome)) hw
    simp only [Worker.held, hid, add_left_inj] at hset
    simp only [State.held, hset]
  | @send i result hw hroom =>
    refine h.worked hw (by simp) ?_ rfl rfl fun hdone => h.exited (done_of_set (by simp) hdone)
    have hset := held_set id resultID .receiving hw
    simp only [Worker.held, add_zero] at hset
    simp only [State.held, ← hset, ← Multiset.coe_add, Multiset.map_add, Multiset.coe_singleton,
      Multiset.map_singleton]
    abel
  | @exit i hf hw =>
    refine h.worked hw (by simp) ?_ rfl rfl fun _ => hf
    have hset := held_set id resultID .done hw
    simp only [Worker.held, add_zero] at hset
    simp only [State.held, hset]
  | wake hc hall =>
    refine ⟨⟨dropped, ?_, hdropped⟩, h.exited, fun _ w hw => ?_, ?_⟩
    · rw [← hheld]
      simp [State.held, hc, Caller.held]
    · have hdone := List.all_eq_true.mp hall w hw
      cases w <;> first | rfl | cases hdone
    · intro items hitems
      cases hitems
  | @collect items results result hc hr =>
    refine ⟨⟨dropped, ?_, hdropped⟩, h.exited, fun _ => h.woken (by simp [hc]), ?_⟩
    · rw [← hheld]
      simp only [State.held, hc, hr, Caller.held, ← Multiset.coe_add, ← Multiset.cons_coe,
        ← Multiset.singleton_add, Multiset.map_add, Multiset.map_singleton, Multiset.coe_nil,
        Multiset.map_zero]
      abel
    · intro items' hitems
      cases hitems
  | @ret items hc hr =>
    refine ⟨⟨dropped, ?_, hdropped⟩, h.exited, fun _ => h.woken (by simp [hc]), fun _ _ => hr⟩
    rw [← hheld]
    simp [State.held, hc, Caller.held]

/-- **No task is lost or doubled**, under any schedule. -/
theorem Sound.play (hid : ∀ task outcome, resultID (run task outcome) = id task)
    (h : Sound id resultID tasks p) (hplay : play run capacity p acts = some p') :
    Sound id resultID tasks p' := by
  induction acts generalizing p with
  | nil =>
    cases hplay
    exact h
  | cons a acts ih =>
    obtain ⟨q, hstep, hrest⟩ := Option.bind_eq_some_iff.mp hplay
    exact ih (h.move hid (move_of_step hstep)) hrest

/-! ## What the caller returns -/

/-- When the caller has returned, its items are all tasks, but for those that were dropped. -/
theorem Sound.returned (h : Sound id resultID tasks p) (hcrew : p.workers ≠ [] ∨ tasks = [])
    {items : List ρ} (hret : p.caller = .returned items) :
    ∃ dropped : Multiset κ,
      (items : Multiset ρ).map resultID + dropped = (tasks : Multiset τ).map id ∧
      (p.cancelled = false → dropped = 0) := by
  obtain ⟨dropped, hheld, hdropped⟩ := h.held
  have hdone := h.woken (by simp [hret])
  have hworkers : (p.workers.map (Worker.held id resultID)).sum = 0 :=
    List.sum_eq_zero fun x hx => by
      obtain ⟨w, hw, rfl⟩ := List.mem_map.mp hx
      rw [hdone w hw]
      rfl
  have hfeeder : p.feeder.held id = 0 := by
    rcases hcrew with hcrew | rfl
    · obtain ⟨w, hw⟩ := List.exists_mem_of_ne_nil _ hcrew
      rw [h.exited (hdone w hw ▸ hw)]
      rfl
    · rw [State.held, add_assoc, add_assoc, add_assoc] at hheld
      exact Multiset.le_zero.mp ((Multiset.le_add_right _ _).trans (le_of_eq hheld))
  rw [State.held, hfeeder, hworkers, h.emptied items hret, hret] at hheld
  exact ⟨dropped, by simpa [Caller.held] using hheld, hdropped⟩

/-! ## Somebody can move

A case distinction on who is waiting for whom. With room for every task in the buffer no
worker waits for the caller, and so nobody waits in a circle. -/

/-- How many tasks a part of the pool has. -/
theorem card_held_le (h : Sound id resultID tasks p) : (p.held id resultID).card ≤ tasks.length := by
  obtain ⟨dropped, hheld, -⟩ := h.held
  have hcard := congrArg Multiset.card hheld
  rw [Multiset.card_add, Multiset.card_map, Multiset.coe_card] at hcard
  omega

/-- While a worker has a result to send there is room for it. -/
theorem Sound.room (h : Sound id resultID tasks p) {i : Nat} {result : ρ}
    (hw : p.workers[i]? = some (.sending result)) : p.results.length < tasks.length := by
  have hcard := card_held_le h
  have hset := congrArg Multiset.card (held_set id resultID .receiving hw)
  simp only [Worker.held, Multiset.card_add, Multiset.card_zero, Multiset.card_singleton] at hset
  simp only [State.held, Multiset.card_add, Multiset.card_map, Multiset.coe_card] at hcard
  omega

/-- **No deadlock.** Until the caller has returned some party can move, whether or not the pool is
called off. -/
theorem Sound.exists_step (run : τ → ω → ρ) [Nonempty ω] (h : Sound id resultID tasks p)
    (hroom : tasks.length ≤ capacity) (hcaller : ∀ items, p.caller ≠ .returned items) :
    ∃ a : Act ω, a ≠ .cancel ∧ (step run capacity p a).isSome = true := by
  cases hc : p.caller with
  | returned items => exact absurd hc (hcaller items)
  | collecting items =>
    cases hr : p.results with
    | nil => exact ⟨.ret, by simp, by simp [step, hc, hr]⟩
    | cons result results => exact ⟨.collect, by simp, by simp [step, hc, hr]⟩
  | waiting =>
    by_cases hall : p.workers.all Worker.isDone = true
    · exact ⟨.wake, by simp, by simp [step, hc, hall]⟩
    obtain ⟨w, hmem, hdone⟩ : ∃ w ∈ p.workers, w.isDone = false := by
      simpa using hall
    obtain ⟨i, hw⟩ := List.mem_iff_getElem?.mp hmem
    cases w with
    | done => cases hdone
    | working task =>
      obtain ⟨outcome⟩ := ‹Nonempty ω›
      exact ⟨.finish i outcome, by simp, by simp [step, hw]⟩
    | sending result =>
      have hlt := Nat.lt_of_lt_of_le (h.room hw) hroom
      exact ⟨.send i, by simp, by simp [step, hw, hlt]⟩
    | receiving =>
      -- the worker waits for the feeder, which is not kept waiting itself
      cases hf : p.feeder with
      | offering tasks =>
        cases tasks with
        | nil => exact ⟨.leave, by simp, by simp [step, hf]⟩
        | cons task tasks => exact ⟨.handOff i, by simp, by simp [step, hf, hw]⟩
      | leaving => exact ⟨.close, by simp, by simp [step, hf]⟩
      | closed => exact ⟨.exit i, by simp, by simp [step, hf, hw]⟩

end Held

/-! ## Every schedule ends

The weights are chosen so that each move loses at least one: a task that is handed off costs
the feeder four and gives the worker three. -/

def Worker.weight : Worker τ ρ → Nat
  | .receiving => 1
  | .working _ => 4
  | .sending _ => 3
  | .done => 0

def Feeder.weight : Feeder τ → Nat
  | .offering tasks => 4 * tasks.length + 2
  | .leaving => 1
  | .closed => 0

def Caller.weight : Caller ρ → Nat
  | .waiting => 2
  | .collecting _ => 1
  | .returned _ => 0

/-- What is left to do, in moves. -/
def State.weight (p : State τ ρ) : Nat :=
  p.feeder.weight + (p.workers.map Worker.weight).sum + p.results.length + p.caller.weight +
    if p.cancelled then 0 else 1

section Weight

variable {run : τ → ω → ρ} {capacity : Nat} {p p' : State τ ρ} {acts : List (Act ω)}

theorem Move.weight_lt (h : Move run capacity p p') : p'.weight < p.weight := by
  cases h with
  | cancel hc => simp [State.weight, hc]
  | @handOff _ task _ hf hw =>
    have hset := sum_set Worker.weight (.working task) hw
    simp only [State.weight, hf, Feeder.weight, Worker.weight, List.length_cons] at hset ⊢
    omega
  | leave hf _ =>
    simp only [State.weight, hf, Feeder.weight]
    omega
  | close hf =>
    simp only [State.weight, hf, Feeder.weight]
    omega
  | @finish _ task outcome hw =>
    have hset := sum_set Worker.weight (.sending (run task outcome)) hw
    simp only [State.weight, Worker.weight] at hset ⊢
    omega
  | send hw _ =>
    have hset := sum_set Worker.weight .receiving hw
    simp only [State.weight, Worker.weight, List.length_append, List.length_singleton] at hset ⊢
    omega
  | exit _ hw =>
    have hset := sum_set Worker.weight .done hw
    simp only [State.weight, Worker.weight] at hset ⊢
    omega
  | wake hc _ =>
    simp only [State.weight, hc, Caller.weight]
    omega
  | collect hc hr =>
    simp only [State.weight, hc, hr, Caller.weight, List.length_cons]
    omega
  | ret hc _ =>
    simp only [State.weight, hc, Caller.weight]
    omega

theorem play_length (h : play run capacity p acts = some p') :
    acts.length + p'.weight ≤ p.weight := by
  induction acts generalizing p with
  | nil =>
    cases h
    simp
  | cons a acts ih =>
    obtain ⟨q, hstep, hrest⟩ := Option.bind_eq_some_iff.mp h
    have hlt := (move_of_step hstep).weight_lt
    have hle := ih hrest
    rw [List.length_cons]
    omega

theorem weight_start (tasks : List τ) (workers : Nat) :
    (start tasks workers : State τ ρ).weight = 4 * tasks.length + workers + 5 := by
  simp only [State.weight, start, Feeder.weight, Caller.weight, List.map_replicate, Worker.weight,
    List.sum_replicate, List.length_nil]
  simp
  omega

/-- Workers come and go in place. -/
theorem length_workers_play (h : play run capacity p acts = some p') :
    p'.workers.length = p.workers.length := by
  induction acts generalizing p with
  | nil =>
    cases h
    rfl
  | cons a acts ih =>
    obtain ⟨q, hstep, hrest⟩ := Option.bind_eq_some_iff.mp h
    rw [ih hrest]
    cases move_of_step hstep <;> first | rfl | exact List.length_set

end Weight

end Cfscan.Lib.Pool
