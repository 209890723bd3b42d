import Mathlib.Data.List.Pairwise
import Mathlib.Order.Lattice

/-!
# Sorting with a `less` function

`sort.Slice` is documented to sort by a `less` that describes a transitive ordering, and not to be
stable. A `SortSlice` is any function that keeps to this: it always returns a permutation, and a
sorted one when `less` is a strict weak order on the elements of the list. Which of the sorted
permutations it returns is left open. `SortSlice.insertion` is one such function.

Where `less` is no weak order the documentation promises nothing but a permutation, and neither does
the structure. `sort_eq_of_perm` is the case in which the choice disappears: no two elements are
tied.
-/

set_option autoImplicit false

namespace Cfscan.Lib

variable {α β : Type}

/-- `less` is a strict weak order on the elements of a list. -/
structure StrictWeakOrder (less : α → α → Bool) (l : List α) : Prop where
  asymm : ∀ a ∈ l, ∀ b ∈ l, less a b = true → less b a = false
  negTrans : ∀ a ∈ l, ∀ b ∈ l, ∀ c ∈ l, less b a = false → less c b = false → less c a = false

/-- Comparing by a key is a strict weak order. -/
theorem StrictWeakOrder.of_key [LinearOrder β] {less : α → α → Bool} {l : List α} (key : α → β)
    (h : ∀ a ∈ l, ∀ b ∈ l, less a b = true ↔ key a < key b) : StrictWeakOrder less l where
  asymm := by
    intro a ha b hb hab
    rw [← Bool.not_eq_true, h b hb a ha]
    exact lt_asymm ((h a ha b hb).1 hab)
  negTrans := by
    intro a ha b hb c hc hba hcb
    rw [← Bool.not_eq_true, h b hb a ha, not_lt] at hba
    rw [← Bool.not_eq_true, h c hc b hb, not_lt] at hcb
    rw [← Bool.not_eq_true, h c hc a ha, not_lt]
    exact le_trans hba hcb

theorem StrictWeakOrder.mono {less : α → α → Bool} {l l' : List α} (h : StrictWeakOrder less l)
    (hsub : ∀ a ∈ l', a ∈ l) : StrictWeakOrder less l' where
  asymm := fun a ha b hb => h.asymm a (hsub a ha) b (hsub b hb)
  negTrans := fun a ha b hb c hc => h.negTrans a (hsub a ha) b (hsub b hb) c (hsub c hc)

structure SortSlice where
  sort : {α : Type} → (α → α → Bool) → List α → List α
  perm : ∀ {α : Type} (less : α → α → Bool) (l : List α), (sort less l).Perm l
  sorted : ∀ {α : Type} (less : α → α → Bool) (l : List α), StrictWeakOrder less l →
    (sort less l).Pairwise fun a b => less b a = false

/-- Where no two elements tie, the order is determined: by neither the function that sorts nor the
order it is given the elements in. -/
theorem SortSlice.sort_eq_of_perm (s s' : SortSlice) {less : α → α → Bool} {l l' : List α}
    (hless : StrictWeakOrder less l)
    (huntied : l.Pairwise fun a b => less a b = true ∨ less b a = true) (hperm : l'.Perm l) :
    s'.sort less l' = s.sort less l := by
  have hless' : StrictWeakOrder less l' := hless.mono fun a => hperm.mem_iff.1
  have hsorted := (s'.perm less l').trans (hperm.trans (s.perm less l).symm)
  refine hsorted.eq_of_pairwise (fun a b ha hb hab hba => ?_) (s'.sorted less l' hless')
    (s.sorted less l hless)
  by_contra hne
  have hmem : a ∈ l := hperm.mem_iff.1 ((s'.perm less l').mem_iff.1 ha)
  have : Std.Symm fun a b => less a b = true ∨ less b a = true := ⟨fun _ _ => Or.symm⟩
  rcases huntied.forall hmem ((s.perm less l).mem_iff.1 hb) hne with h | h
  · simp [h] at hba
  · simp [h] at hab

/-! ## Insertion sort

One function that does what `SortSlice` asks for: it keeps the elements of any list and
sorts those lists on which `less` is a strict weak order. -/

def insertBy (less : α → α → Bool) (a : α) : List α → List α
  | [] => [a]
  | b :: l => if less b a then b :: insertBy less a l else a :: b :: l

def insertionSort (less : α → α → Bool) : List α → List α
  | [] => []
  | a :: l => insertBy less a (insertionSort less l)

theorem insertBy_perm (less : α → α → Bool) (a : α) (l : List α) :
    (insertBy less a l).Perm (a :: l) := by
  induction l with
  | nil => exact List.Perm.refl _
  | cons b l ih =>
    rw [insertBy]
    split
    · exact (ih.cons b).trans (List.Perm.swap a b l)
    · exact List.Perm.refl _

theorem insertionSort_perm (less : α → α → Bool) (l : List α) :
    (insertionSort less l).Perm l := by
  induction l with
  | nil => exact List.Perm.refl _
  | cons a l ih => exact (insertBy_perm less a _).trans (ih.cons a)

theorem insertBy_sorted {less : α → α → Bool} {a : α} {l : List α}
    (hless : StrictWeakOrder less (a :: l)) (hl : l.Pairwise fun x y => less y x = false) :
    (insertBy less a l).Pairwise fun x y => less y x = false := by
  induction l with
  | nil => exact List.pairwise_singleton _ _
  | cons b l ih =>
    obtain ⟨hb, hl⟩ := List.pairwise_cons.1 hl
    rw [insertBy]
    split
    next hba =>
      have hsub : ∀ x ∈ a :: l, x ∈ a :: b :: l := by simp +contextual
      refine List.pairwise_cons.2 ⟨fun x hx => ?_, ih (hless.mono hsub) hl⟩
      rcases List.mem_cons.1 ((insertBy_perm less a l).mem_iff.1 hx) with rfl | hx
      · exact hless.asymm b (by simp) x (by simp) hba
      · exact hb x hx
    next hba =>
      have hba : less b a = false := by simpa using hba
      refine List.pairwise_cons.2 ⟨fun x hx => ?_, List.pairwise_cons.2 ⟨hb, hl⟩⟩
      rcases List.mem_cons.1 hx with rfl | hx
      · exact hba
      · exact hless.negTrans a (by simp) b (by simp) x (by simp [hx]) hba (hb x hx)

theorem insertionSort_sorted {less : α → α → Bool} {l : List α} (hless : StrictWeakOrder less l) :
    (insertionSort less l).Pairwise fun x y => less y x = false := by
  induction l with
  | nil => exact List.Pairwise.nil
  | cons a l ih =>
    refine insertBy_sorted (hless.mono fun x hx => ?_)
      (ih (hless.mono fun x => List.mem_cons_of_mem _))
    exact ((insertionSort_perm less l).cons a).mem_iff.1 hx

def SortSlice.insertion : SortSlice where
  sort := insertionSort
  perm := insertionSort_perm
  sorted := fun _ _ => insertionSort_sorted

end Cfscan.Lib
