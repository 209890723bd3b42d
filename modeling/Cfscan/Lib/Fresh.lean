import Mathlib.Data.List.Nodup

/-!
# Picking what has not been seen

A shared set of what is taken, and lists drawn through it: `fresh seen l` is what of `l` is new,
each element at its first occurrence, and `pick n seen l` the first `n` of those. Only membership
in `seen` matters, so any representation of the set gives the same picks.

`freshOn key` is the same for elements told apart by a key: of each key not in `seen` the first
element that has it.

`pick` is a prefix of `fresh`, and most questions about picking from several lists in turn are about
`fresh` of the lists put together. So the lemmas come in pairs, one for each.
-/

set_option autoImplicit false

namespace Cfscan.Lib

variable {α : Type} [DecidableEq α]

def fresh (seen : List α) : List α → List α
  | [] => []
  | a :: l => if a ∈ seen then fresh seen l else a :: fresh (a :: seen) l

def pick (n : Nat) (seen l : List α) : List α := (fresh seen l).take n

@[simp] theorem fresh_nil (seen : List α) : fresh seen [] = [] := rfl

theorem fresh_cons_of_mem {seen l : List α} {a : α} (h : a ∈ seen) :
    fresh seen (a :: l) = fresh seen l := by
  rw [fresh, if_pos h]

theorem fresh_cons_of_notMem {seen l : List α} {a : α} (h : a ∉ seen) :
    fresh seen (a :: l) = a :: fresh (a :: seen) l := by
  rw [fresh, if_neg h]

theorem fresh_sublist (seen l : List α) : (fresh seen l).Sublist l := by
  induction l generalizing seen with
  | nil => exact List.Sublist.refl _
  | cons a l ih =>
    rw [fresh]
    split
    · exact (ih seen).cons a
    · exact (ih (a :: seen)).cons_cons a

theorem notMem_of_mem_fresh {seen l : List α} {x : α} (hx : x ∈ fresh seen l) : x ∉ seen := by
  induction l generalizing seen with
  | nil => simp at hx
  | cons a l ih =>
    rw [fresh] at hx
    split at hx
    · exact ih hx
    next ha =>
      rcases List.mem_cons.1 hx with rfl | hx
      · exact ha
      · exact fun h => ih hx (List.mem_cons_of_mem _ h)

theorem mem_fresh {seen l : List α} {x : α} : x ∈ fresh seen l ↔ x ∈ l ∧ x ∉ seen := by
  refine ⟨fun hx => ⟨(fresh_sublist seen l).subset hx, notMem_of_mem_fresh hx⟩, ?_⟩
  rintro ⟨hx, hseen⟩
  induction l generalizing seen with
  | nil => exact hx
  | cons a l ih =>
    rw [fresh]
    split
    next ha =>
      refine ih ((List.mem_cons.1 hx).resolve_left ?_) hseen
      rintro rfl
      exact hseen ha
    next ha =>
      by_cases hxa : x = a
      · exact hxa ▸ List.mem_cons_self
      · exact List.mem_cons_of_mem _ (ih ((List.mem_cons.1 hx).resolve_left hxa)
          (by simp [hxa, hseen]))

theorem nodup_fresh (seen l : List α) : (fresh seen l).Nodup := by
  induction l generalizing seen with
  | nil => exact List.nodup_nil
  | cons a l ih =>
    rw [fresh]
    split
    · exact ih seen
    · exact List.nodup_cons.2 ⟨fun h => notMem_of_mem_fresh h List.mem_cons_self, ih _⟩

/-- What is new, as a list operation: what is not seen, without its repetitions. -/
theorem fresh_eq_eraseDups (seen l : List α) :
    fresh seen l = (l.filter fun a => decide (a ∉ seen)).eraseDups := by
  induction l generalizing seen with
  | nil => rfl
  | cons a l ih =>
    by_cases ha : a ∈ seen
    · rw [fresh_cons_of_mem ha, List.filter_cons_of_neg (by simp [ha]), ih]
    · rw [fresh_cons_of_notMem ha, List.filter_cons_of_pos (by simp [ha]), List.eraseDups_cons, ih,
        List.filter_filter]
      congr 2
      apply List.filter_congr
      intro b _
      by_cases hba : b = a
      · simp [hba]
      · simp [hba]

@[simp] theorem pick_zero (seen l : List α) : pick 0 seen l = [] := rfl

@[simp] theorem pick_nil (n : Nat) (seen : List α) : pick n seen [] = [] := by
  simp [pick]

theorem pick_cons_of_mem {n : Nat} {seen l : List α} {a : α} (h : a ∈ seen) :
    pick n seen (a :: l) = pick n seen l := by
  rw [pick, fresh_cons_of_mem h, pick]

theorem pick_cons_of_notMem {n : Nat} {seen l : List α} {a : α} (h : a ∉ seen) :
    pick (n + 1) seen (a :: l) = a :: pick n (a :: seen) l := by
  rw [pick, fresh_cons_of_notMem h, List.take_succ_cons, pick]

theorem length_pick_le (n : Nat) (seen l : List α) : (pick n seen l).length ≤ n :=
  List.length_take_le _ _

theorem mem_of_mem_pick {n : Nat} {seen l : List α} {x : α} (hx : x ∈ pick n seen l) : x ∈ l :=
  (fresh_sublist seen l).subset (List.mem_of_mem_take hx)

theorem notMem_of_mem_pick {n : Nat} {seen l : List α} {x : α} (hx : x ∈ pick n seen l) :
    x ∉ seen :=
  notMem_of_mem_fresh (List.mem_of_mem_take hx)

theorem nodup_pick (n : Nat) (seen l : List α) : (pick n seen l).Nodup :=
  (nodup_fresh seen l).sublist (List.take_sublist _ _)

section Key

variable {β : Type} {key : β → α}

def freshOn (key : β → α) (seen : List α) : List β → List β
  | [] => []
  | b :: l => if key b ∈ seen then freshOn key seen l else b :: freshOn key (key b :: seen) l

theorem freshOn_cons_of_mem {seen : List α} {b : β} {l : List β} (h : key b ∈ seen) :
    freshOn key seen (b :: l) = freshOn key seen l := by
  rw [freshOn, if_pos h]

theorem freshOn_cons_of_notMem {seen : List α} {b : β} {l : List β} (h : key b ∉ seen) :
    freshOn key seen (b :: l) = b :: freshOn key (key b :: seen) l := by
  rw [freshOn, if_neg h]

theorem freshOn_sublist (seen : List α) (l : List β) : (freshOn key seen l).Sublist l := by
  induction l generalizing seen with
  | nil => exact List.Sublist.refl _
  | cons b l ih =>
    rw [freshOn]
    split
    · exact (ih seen).cons b
    · exact (ih _).cons_cons b

/-- Seen by their keys, the elements kept are the fresh keys. -/
theorem map_freshOn (seen : List α) (l : List β) :
    (freshOn key seen l).map key = fresh seen (l.map key) := by
  induction l generalizing seen with
  | nil => rfl
  | cons b l ih =>
    rw [List.map_cons, freshOn, fresh]
    split
    · exact ih seen
    · rw [List.map_cons, ih]

theorem nodup_freshOn (seen : List α) (l : List β) : ((freshOn key seen l).map key).Nodup :=
  map_freshOn seen l ▸ nodup_fresh seen _

/-- Of every key that is not taken, an element is kept. -/
theorem mem_map_freshOn {seen : List α} {l : List β} {a : α} :
    a ∈ (freshOn key seen l).map key ↔ a ∈ l.map key ∧ a ∉ seen := by
  rw [map_freshOn, mem_fresh]

/-- Of a sorted list, the least element of every key is kept. -/
theorem le_of_mem_freshOn {r : β → β → Prop} {seen : List α} {l : List β} (hl : l.Pairwise r)
    {b c : β} (hb : b ∈ freshOn key seen l) (hc : c ∈ l) (hkey : key c = key b) :
    c = b ∨ r b c := by
  induction l generalizing seen with
  | nil => exact absurd hc List.not_mem_nil
  | cons a l ih =>
    obtain ⟨hhead, hl⟩ := List.pairwise_cons.mp hl
    by_cases hseen : key a ∈ seen
    · rw [freshOn_cons_of_mem hseen] at hb
      have hnew := (mem_map_freshOn.mp (List.mem_map_of_mem (f := key) hb)).2
      rcases List.mem_cons.mp hc with rfl | hc
      · exact absurd (hkey ▸ hseen) hnew
      · exact ih hl hb hc
    · rw [freshOn_cons_of_notMem hseen] at hb
      rcases List.mem_cons.mp hb with rfl | hb
      · exact (List.mem_cons.mp hc).imp id (hhead c)
      · have hnew := (mem_map_freshOn.mp (List.mem_map_of_mem (f := key) hb)).2
        rcases List.mem_cons.mp hc with rfl | hc
        · exact absurd (hkey ▸ List.mem_cons_self) hnew
        · exact ih hl hb hc

/-- Where no key repeats or is taken, everything is kept. -/
theorem freshOn_eq_self {seen : List α} {l : List β} (hnodup : (l.map key).Nodup)
    (hseen : ∀ b ∈ l, key b ∉ seen) : freshOn key seen l = l := by
  induction l generalizing seen with
  | nil => rfl
  | cons b l ih =>
    obtain ⟨hb, hnodup⟩ := List.nodup_cons.1 hnodup
    rw [freshOn_cons_of_notMem (hseen b List.mem_cons_self), ih hnodup fun c hc => ?_]
    rw [List.mem_cons, not_or]
    exact ⟨fun heq => hb (heq ▸ List.mem_map_of_mem hc), hseen c (List.mem_cons_of_mem _ hc)⟩

/-- What is kept depends on which keys are equal, not on what the keys are. -/
theorem freshOn_comp {γ : Type} [DecidableEq γ] {f : α → γ} (hf : Function.Injective f)
    (seen : List α) (l : List β) :
    freshOn (fun b => f (key b)) (seen.map f) l = freshOn key seen l := by
  induction l generalizing seen with
  | nil => rfl
  | cons b l ih =>
    simp only [freshOn, List.mem_map_of_injective hf, ← List.map_cons, ih]

/-- Dropping some of the keys, before or after: of the two sets of seen keys only what is not
dropped matters. -/
theorem freshOn_filter_of_agree {seen seen' : List α} {q : α → Bool}
    (hagree : ∀ k, q k = true → (k ∈ seen ↔ k ∈ seen')) (l : List β) :
    freshOn key seen (l.filter fun b => q (key b)) =
      (freshOn key seen' l).filter fun b => q (key b) := by
  induction l generalizing seen seen' with
  | nil => rfl
  | cons b l ih =>
    cases hq : q (key b) with
    | false =>
      rw [List.filter_cons_of_neg (by simp [hq])]
      by_cases hb : key b ∈ seen'
      · rw [freshOn_cons_of_mem hb]
        exact ih hagree
      · rw [freshOn_cons_of_notMem hb, List.filter_cons_of_neg (by simp [hq])]
        refine ih fun k hk => ?_
        -- a key that is kept is not the key of `b`
        have hne : k ≠ key b := fun heq => by simp [heq, hq] at hk
        simp [hagree k hk, hne]
    | true =>
      rw [List.filter_cons_of_pos (by simp [hq])]
      by_cases hb : key b ∈ seen
      · rw [freshOn_cons_of_mem hb, freshOn_cons_of_mem ((hagree _ hq).1 hb)]
        exact ih hagree
      · have hcons : ∀ k, q k = true → (k ∈ key b :: seen ↔ k ∈ key b :: seen') := fun k hk => by
          simp [hagree k hk]
        rw [freshOn_cons_of_notMem hb, freshOn_cons_of_notMem (mt (hagree _ hq).2 hb),
          List.filter_cons_of_pos (by simp [hq]), ih hcons]

theorem freshOn_filter (seen : List α) (q : α → Bool) (l : List β) :
    freshOn key seen (l.filter fun b => q (key b)) =
      (freshOn key seen l).filter fun b => q (key b) :=
  freshOn_filter_of_agree (fun _ _ => Iff.rfl) l

/-- What is kept depends on the set, not on how it is listed. -/
theorem freshOn_congr {seen seen' : List α} (h : ∀ k, k ∈ seen ↔ k ∈ seen') (l : List β) :
    freshOn key seen l = freshOn key seen' l := by
  simpa using freshOn_filter_of_agree (q := fun _ => true) (fun k _ => h k) l

/-- The first `n` of the elements kept. -/
def pickOn (key : β → α) (n : Nat) (seen : List α) (l : List β) : List β :=
  (freshOn key seen l).take n

@[simp] theorem pickOn_zero (seen : List α) (l : List β) : pickOn key 0 seen l = [] := rfl

@[simp] theorem pickOn_nil (n : Nat) (seen : List α) : pickOn key n seen [] = [] := by
  simp [pickOn, freshOn]

theorem length_pickOn_le (key : β → α) (n : Nat) (seen : List α) (l : List β) :
    (pickOn key n seen l).length ≤ n :=
  List.length_take_le _ _

theorem pickOn_cons_of_mem {n : Nat} {seen : List α} {b : β} {l : List β} (h : key b ∈ seen) :
    pickOn key n seen (b :: l) = pickOn key n seen l := by
  rw [pickOn, freshOn_cons_of_mem h, pickOn]

theorem pickOn_cons_of_notMem {n : Nat} {seen : List α} {b : β} {l : List β} (h : key b ∉ seen) :
    pickOn key (n + 1) seen (b :: l) = b :: pickOn key n (key b :: seen) l := by
  rw [pickOn, freshOn_cons_of_notMem h, List.take_succ_cons, pickOn]

/-- Picking from one list and then from the next is picking from both. -/
theorem pickOn_append (n : Nat) (seen : List α) (l l' : List β) :
    pickOn key n seen (l ++ l') = pickOn key n seen l ++
      pickOn key (n - (pickOn key n seen l).length)
        (((pickOn key n seen l).map key).reverse ++ seen) l' := by
  induction l generalizing n seen with
  | nil => simp
  | cons b l ih =>
    rw [List.cons_append]
    by_cases hb : key b ∈ seen
    · rw [pickOn_cons_of_mem hb, pickOn_cons_of_mem hb, ih]
    · cases n with
      | zero => simp
      | succ n =>
        rw [pickOn_cons_of_notMem hb, pickOn_cons_of_notMem hb, ih]
        simp

end Key

end Cfscan.Lib
