import Mathlib.Data.List.Basic

/-!
# A register behind a cache

What a reader sees is the last write. A flush makes that durable, and a crash leaves any of what was
written since the last flush, or what that flush left.

Anybody may write at any time, and the only order among writes is that in which they happened. What
a reader may find after a crash is told from the acts since the last one (`recent`).
-/

set_option autoImplicit false

namespace Cfscan.Lib

structure Register (α : Type) where
  durable : α
  /-- Written since the last flush, the newest at the end. -/
  cached : List α

namespace Register

variable {α : Type} {r r' r'' : Register α} {a : α}

def options (r : Register α) : List α := r.durable :: r.cached

def view (r : Register α) : α := r.options.getLast (List.cons_ne_nil _ _)

inductive Act (α : Type) where
  | write (a : α)
  | flush
  | crash

inductive Step : Register α → Act α → Register α → Prop where
  | write (r : Register α) (a : α) : Step r (.write a) { r with cached := r.cached ++ [a] }
  | flush (r : Register α) : Step r .flush ⟨r.view, []⟩
  | crash {r : Register α} {a : α} (h : a ∈ r.options) : Step r .crash ⟨a, []⟩

inductive Run : Register α → List (Act α) → Register α → Prop where
  | nil (r : Register α) : Run r [] r
  | cons {r r' r'' : Register α} {act : Act α} {acts : List (Act α)} (step : Step r act r')
      (run : Run r' acts r'') : Run r (act :: acts) r''

theorem view_mem (r : Register α) : r.view ∈ r.options := List.getLast_mem _

theorem view_write (r : Register α) (a : α) :
    view { r with cached := r.cached ++ [a] } = a := by
  unfold view options
  exact List.getLast_append_singleton (durable r :: r.cached)

theorem Run.append {acts acts' : List (Act α)} (h : Run r acts r') (h' : Run r' acts' r'') :
    Run r (acts ++ acts') r'' := by
  induction h with
  | nil => exact h'
  | cons step _ ih => exact .cons step (ih h')

theorem Step.options {act : Act α} (h : Step r act r') :
    ∀ a ∈ r'.options, a ∈ r.options ∨ act = .write a := by
  intro a ha
  cases h with
  | write b =>
    rcases List.mem_append.mp (show a ∈ r.options ++ [b] from ha) with hold | hnew
    · exact .inl hold
    · exact .inr (congrArg Act.write (List.mem_singleton.mp hnew).symm)
  | flush =>
    rw [List.mem_singleton.mp ha]
    exact .inl r.view_mem
  | crash hmem =>
    rw [List.mem_singleton.mp ha]
    exact .inl hmem

/-- Nothing is read that was not there at first or written since. -/
theorem Run.options {acts : List (Act α)} (h : Run r acts r') :
    ∀ a ∈ r'.options, a ∈ r.options ∨ .write a ∈ acts := by
  induction h with
  | nil r => exact fun a ha => .inl ha
  | cons step _ ih =>
    intro a ha
    rcases ih a ha with hold | hnew
    · rcases step.options a hold with hfirst | hwrite
      · exact .inl hfirst
      · exact .inr (hwrite ▸ List.mem_cons_self)
    · exact .inr (List.mem_cons_of_mem _ hnew)

/-- What was done since the last crash, after `log`. -/
def recent (log acts : List (Act α)) : List (Act α) :=
  acts.foldl (fun log act => match act with
    | .crash => []
    | act => log ++ [act]) log

theorem recent_append (log acts acts' : List (Act α)) :
    recent log (acts ++ acts') = recent (recent log acts) acts' := List.foldl_append

theorem recent_eq {log acts : List (Act α)} (h : .crash ∉ acts) :
    recent log acts = log ++ acts := by
  induction acts generalizing log with
  | nil => exact (List.append_nil log).symm
  | cons a acts ih =>
    rw [List.mem_cons, not_or] at h
    have hlog : recent log (a :: acts) = recent (log ++ [a]) acts := by
      cases a with
      | crash => exact absurd rfl h.1
      | write a => rfl
      | flush => rfl
    rw [hlog, ih h.2, List.append_assoc]
    rfl

theorem mem_of_mem_recent {log acts : List (Act α)} {act : Act α} (h : act ∈ recent log acts) :
    act ∈ log ∨ act ∈ acts := by
  induction acts generalizing log with
  | nil => exact .inl h
  | cons a acts ih =>
    rcases ih h with hlog | hlater
    · cases a with
      | crash => cases hlog
      | write a =>
        rcases List.mem_append.mp hlog with hold | hnew
        · exact .inl hold
        · exact .inr (List.mem_singleton.mp hnew ▸ List.mem_cons_self)
      | flush =>
        rcases List.mem_append.mp hlog with hold | hnew
        · exact .inl hold
        · exact .inr (List.mem_singleton.mp hnew ▸ List.mem_cons_self)
    · exact .inr (List.mem_cons_of_mem _ hlater)

/-- Where something was written since the last crash, it is such a write that is read. -/
def Current (log : List (Act α)) (r : Register α) : Prop :=
  ∀ a, .write a ∈ log → .write r.view ∈ log

theorem Run.current {log acts : List (Act α)} (h : Run r acts r') (hr : Current log r) :
    Current (recent log acts) r' := by
  induction h generalizing log with
  | nil r => exact hr
  | cons step _ ih =>
    refine ih ?_
    cases step with
    | write a =>
      intro _ _
      rw [view_write]
      exact List.mem_append_right log List.mem_cons_self
    | flush =>
      intro a ha
      rcases List.mem_append.mp ha with hold | hnew
      · exact List.mem_append_left _ (hr a hold)
      · cases List.mem_singleton.mp hnew
    | crash hmem => exact fun _ ha => nomatch ha

end Register

end Cfscan.Lib
