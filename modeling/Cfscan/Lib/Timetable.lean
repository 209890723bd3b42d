import Cfscan.Lib.Along

/-!
# A next time that is written back

Recurring work keeps, beside its plan, the time it is due next. An edit changes the plan and sets
that time by it; a run first moves the time ahead and later writes back a time it worked out. The
question is whether the time still belongs to the plan after the two have crossed.

`Dial` is what can be seen of one such piece of work in a state, and `Traced` a state with all
the states before it. `Dial.onTime` needs of each step only that it is one of the four of `Move`.

A run that goes on holds a lease (`leased`), and while there is one nothing is promised. It is at
the moments without a lease that the time must be right, which is what `onTime` says of them.
-/

set_option autoImplicit false

namespace Cfscan.Lib

/-! ## States with their past -/

structure Traced (σ : Type) where
  now : σ
  /-- Every state so far, the latest first. -/
  past : List σ

variable {σ act π τ : Type}

def Traced.start (s : σ) : Traced σ := ⟨s, [s]⟩

def Traced.step (step : σ → act → σ) (x : Traced σ) (a : act) : Traced σ :=
  ⟨step x.now a, step x.now a :: x.past⟩

theorem Traced.foldl_now (step : σ → act → σ) (acts : List act) (x : Traced σ) :
    (acts.foldl (Traced.step step) x).now = acts.foldl step x.now := by
  induction acts generalizing x with
  | nil => rfl
  | cons a acts ih => exact ih (x.step step a)

/-! ## Plans and times

Nothing is asked of the plans or of the rule by which a time follows from one. `record` is
the step that needs the past: the plan whose time it writes must be the plan in force, and
it was so at the instant the time was worked out for. -/

structure Dial (σ π τ : Type) where
  clock : σ → τ
  /-- `none` when there is no such work. -/
  plan : σ → Option π
  next : σ → Option τ
  /-- A run that moved the time ahead is still to write one back. -/
  leased : σ → Prop

namespace Dial

variable (d : Dial σ π τ) (due : π → τ → τ)

/-- The plan was in force at the instant `t`. -/
def Stored (past : List σ) (t : τ) (plan : π) : Prop :=
  ∃ s ∈ past, d.clock s = t ∧ d.plan s = some plan

instance [DecidableEq τ] [DecidableEq π] (past : List σ) (t : τ) (plan : π) :
    Decidable (d.Stored past t plan) :=
  inferInstanceAs (Decidable (∃ s ∈ past, _ ∧ _))

/-- The time is the one the plan gives, for an instant at which the plan was in force. -/
def OnTime (x : Traced σ) : Prop :=
  ∃ plan t, d.plan x.now = some plan ∧ d.Stored x.past t plan ∧ d.next x.now = some (due plan t)

/-- What a step may do to the dial. -/
inductive Move (past : List σ) (s s' : σ) : Prop where
  | still (hplan : d.plan s' = d.plan s) (hnext : d.next s' = d.next s)
      (hleased : d.leased s → d.leased s')
  | edit (plan : π) (hplan : d.plan s' = some plan)
      (hnext : d.next s' = some (due plan (d.clock s')))
  | claim (hleased : d.leased s')
  | record (plan : π) (t : τ) (hplan : d.plan s' = some plan) (hstored : d.Stored past t plan)
      (hnext : d.next s' = some (due plan t))

variable {d due}

theorem Stored.later {past : List σ} {t : τ} {plan : π} (h : d.Stored past t plan) (s : σ) :
    d.Stored (s :: past) t plan := by
  obtain ⟨u, hu, hclock⟩ := h
  exact ⟨u, List.mem_cons_of_mem s hu, hclock⟩

variable {step : σ → act → σ} {x : Traced σ} {a : act}

/-- An edit sets the time right. -/
theorem OnTime.edit (plan : π) (hplan : d.plan (step x.now a) = some plan)
    (hnext : d.next (step x.now a) = some (due plan (d.clock (step x.now a)))) :
    d.OnTime due (x.step step a) :=
  ⟨plan, _, hplan, ⟨_, List.mem_cons_self, rfl, hplan⟩, hnext⟩

/-- So does a record of the plan in force. -/
theorem OnTime.record (plan : π) (t : τ) (hplan : d.plan (step x.now a) = some plan)
    (hstored : d.Stored x.past t plan) (hnext : d.next (step x.now a) = some (due plan t)) :
    d.OnTime due (x.step step a) :=
  ⟨plan, t, hplan, hstored.later _, hnext⟩

/-- Once right, the time stays right until a run moves it, and then that run is in flight. -/
theorem Move.kept (h : d.Move due x.past x.now (step x.now a))
    (hx : d.leased x.now ∨ d.OnTime due x) :
    d.leased (x.step step a).now ∨ d.OnTime due (x.step step a) := by
  cases h with
  | still hplan hnext hleased =>
    refine hx.imp hleased ?_
    rintro ⟨plan, t, hp, hstored, hn⟩
    exact ⟨plan, t, hplan.trans hp, hstored.later _, hnext.trans hn⟩
  | edit plan hplan hnext => exact Or.inr (.edit plan hplan hnext)
  | claim hleased => exact Or.inl hleased
  | record plan t hplan hstored hnext => exact Or.inr (.record plan t hplan hstored hnext)

/-- **From the first edit or record on, the time belongs to the plan whenever no run that moved it
is in flight.** -/
theorem onTime {P : Traced σ → act → Prop} (completes : Traced σ → act → Prop) {s : σ}
    (hmove : ∀ x a, P x a → d.Move due x.past x.now (step x.now a))
    (hcompletes : ∀ x a, P x a → completes x a → d.OnTime due (x.step step a))
    {before after : List act}
    (h : Along (Traced.step step) P (.start s) (before ++ a :: after))
    (ha : completes (before.foldl (Traced.step step) (.start s)) a)
    (hidle : ¬ d.leased ((before ++ a :: after).foldl (Traced.step step) (.start s)).now) :
    d.OnTime due ((before ++ a :: after).foldl (Traced.step step) (.start s)) := by
  obtain ⟨_, hp, hafter⟩ := along_append.mp h
  rw [List.foldl_append, List.foldl_cons] at hidle ⊢
  have hkept := hafter.invariant (fun x => d.leased x.now ∨ d.OnTime due x)
    (Or.inr (hcompletes _ a hp ha)) fun x a hx hp => (hmove x a hp).kept hx
  exact hkept.resolve_left hidle

end Dial

end Cfscan.Lib
