import Mathlib.Data.List.Nodup
import Mathlib.Data.List.Perm.Basic
import Mathlib.Data.List.Sort
import Mathlib.Order.Lattice

/-!
# Pages of an ordered listing

A query with `ORDER BY … LIMIT … OFFSET …` returns a slice of some arrangement of its rows. The
clause gives a total preorder (`SortOrder`), and each query is free to arrange rows that the clause
does not tell apart (`Arrangement`), so two pages of one listing can be cut from different
arrangements.

When the order tells every two rows apart there is only one arrangement, and the pages put
together are that (`pages_eq`). In general they are the rows, each once, exactly when all rows
tied with one another fall on one page (`pages_perm_iff`).

Two things are therefore kept apart all along. What the clause determines is said of the order, and
what it leaves open of the arrangements; where the result does not depend on the second, it is said
for all of them.
-/

set_option autoImplicit false

namespace Cfscan.Lib

variable {α ρ : Type}

/-! ## Orders

Total preorders, closed under what an `ORDER BY` is written with: a key, a direction, and a
second criterion for rows the first leaves tied. -/

structure SortOrder (ρ : Type) where
  le : ρ → ρ → Bool
  total : ∀ a b, le a b = true ∨ le b a = true
  trans : ∀ a b c, le a b = true → le b c = true → le a c = true

namespace SortOrder

def ofLinear (α : Type) [LinearOrder α] : SortOrder α where
  le := fun a b => decide (a ≤ b)
  total := fun a b => by simpa using le_total a b
  trans := fun a b c hab hbc => by simpa using le_trans (of_decide_eq_true hab) (of_decide_eq_true hbc)

/-- By an expression over the row. -/
def on (o : SortOrder α) (key : ρ → α) : SortOrder ρ where
  le := fun a b => o.le (key a) (key b)
  total := fun a b => o.total (key a) (key b)
  trans := fun a b c => o.trans (key a) (key b) (key c)

/-- `DESC`. -/
def desc (o : SortOrder ρ) : SortOrder ρ where
  le := fun a b => o.le b a
  total := fun a b => (o.total a b).symm
  trans := fun a b c hab hbc => o.trans c b a hbc hab

/-- The next item of the clause decides where the first does not. -/
def thenBy (o o' : SortOrder ρ) : SortOrder ρ where
  le := fun a b => o.le a b && (!o.le b a || o'.le a b)
  total := by
    intro a b
    have h := o.total a b
    have h' := o'.total a b
    revert h h'
    cases o.le a b <;> cases o.le b a <;> cases o'.le a b <;> cases o'.le b a <;> simp
  trans := by
    intro a b c hab hbc
    simp only [Bool.and_eq_true, Bool.or_eq_true, Bool.not_eq_true'] at hab hbc ⊢
    refine ⟨o.trans a b c hab.1 hbc.1, ?_⟩
    by_cases hca : o.le c a = true
    · -- all three are tied in the first item
      have hba : o.le b a = true := o.trans b c a hbc.1 hca
      have hcb : o.le c b = true := o.trans c a b hca hab.1
      rw [hba] at hab
      rw [hcb] at hbc
      exact Or.inr (o'.trans a b c (hab.2.resolve_left Bool.noConfusion)
        (hbc.2.resolve_left Bool.noConfusion))
    · exact Or.inl (by simpa using hca)

/-- `MAX`. -/
def max? (o : SortOrder ρ) : List ρ → Option ρ
  | [] => none
  | a :: l =>
    match o.max? l with
    | none => some a
    | some b => some (if o.le a b then b else a)

/-- The clause does not tell the rows apart. -/
def Tied (o : SortOrder ρ) (a b : ρ) : Prop := o.le a b = true ∧ o.le b a = true

@[simp] theorem tied_ofLinear [LinearOrder α] {a b : α} : (ofLinear α).Tied a b ↔ a = b := by
  simp only [Tied, ofLinear, decide_eq_true_eq]
  exact le_antisymm_iff.symm

@[simp] theorem tied_on {o : SortOrder α} {key : ρ → α} {a b : ρ} :
    (o.on key).Tied a b ↔ o.Tied (key a) (key b) := Iff.rfl

@[simp] theorem tied_desc {o : SortOrder ρ} {a b : ρ} : o.desc.Tied a b ↔ o.Tied a b := and_comm

@[simp] theorem tied_thenBy {o o' : SortOrder ρ} {a b : ρ} :
    (o.thenBy o').Tied a b ↔ o.Tied a b ∧ o'.Tied a b := by
  simp only [Tied, thenBy, Bool.and_eq_true, Bool.or_eq_true, Bool.not_eq_true']
  constructor
  · rintro ⟨⟨hab, hab'⟩, hba, hba'⟩
    rw [hba] at hab'
    rw [hab] at hba'
    exact ⟨⟨hab, hba⟩, hab'.resolve_left Bool.noConfusion, hba'.resolve_left Bool.noConfusion⟩
  · rintro ⟨⟨hab, hba⟩, hab', hba'⟩
    exact ⟨⟨hab, Or.inr hab'⟩, hba, Or.inr hba'⟩

/-- Where the first item decides it decides, and where it does not the next one does. -/
theorem le_thenBy {o o' : SortOrder ρ} {a b : ρ} (h : (o.thenBy o').le a b = true) :
    o.le a b = true ∧ (o.Tied a b → o'.le a b = true) := by
  simp only [thenBy, Bool.and_eq_true, Bool.or_eq_true, Bool.not_eq_true'] at h
  refine ⟨h.1, fun htied => h.2.resolve_left fun hfalse => ?_⟩
  rw [htied.2] at hfalse
  cases hfalse

theorem refl (o : SortOrder ρ) (a : ρ) : o.le a a = true := (o.total a a).elim id id

end SortOrder

/-! ## Arrangements -/

/-- What a query may make of `ORDER BY`. -/
structure Arrangement (o : SortOrder ρ) where
  rows : List ρ → List ρ
  perm : ∀ l, (rows l).Perm l
  sorted : ∀ l, (rows l).Pairwise fun a b => o.le a b = true

namespace Arrangement

variable {o : SortOrder ρ} {l : List ρ}

def mergeSort (o : SortOrder ρ) : Arrangement o where
  rows := fun l => l.mergeSort o.le
  perm := fun l => List.mergeSort_perm l o.le
  sorted := fun l => List.pairwise_mergeSort (fun a b c => o.trans a b c)
    (fun a b => by simpa using o.total a b) l

/-- The same rows as `mergeSort`, by structural recursion. -/
def insertionSort (o : SortOrder ρ) : Arrangement o where
  rows := fun l => l.insertionSort fun a b => o.le a b = true
  perm := fun l => List.perm_insertionSort _ l
  sorted := fun l => by
    have : Std.Total fun a b => o.le a b = true := ⟨o.total⟩
    have : IsTrans ρ fun a b => o.le a b = true := ⟨o.trans⟩
    exact List.pairwise_insertionSort _ l

theorem mem (A : Arrangement o) {a : ρ} : a ∈ A.rows l ↔ a ∈ l := (A.perm l).mem_iff

@[simp] theorem length (A : Arrangement o) (l : List ρ) : (A.rows l).length = l.length :=
  (A.perm l).length_eq

/-- Where no two rows are tied there is one arrangement. -/
theorem rows_eq (A B : Arrangement o) (h : ∀ a ∈ l, ∀ b ∈ l, o.Tied a b → a = b) :
    A.rows l = B.rows l :=
  ((A.perm l).trans (B.perm l).symm).eq_of_pairwise
    (fun a b ha hb hab hba => h a (A.mem.mp ha) b (B.mem.mp hb) ⟨hab, hba⟩) (A.sorted l) (B.sorted l)

/-- Where no two rows are tied, a part of them comes in the order it has among all. -/
theorem rows_filter (A : Arrangement o) (h : ∀ a ∈ l, ∀ b ∈ l, o.Tied a b → a = b)
    (q : ρ → Bool) : A.rows (l.filter q) = (A.rows l).filter q := by
  refine ((A.perm _).trans ((A.perm l).filter q).symm).eq_of_pairwise
    (fun a b ha hb hab hba => ?_) (A.sorted _) ((A.sorted l).filter _)
  exact h a (List.mem_of_mem_filter (A.mem.mp ha)) b (A.mem.mp (List.mem_of_mem_filter hb))
    ⟨hab, hba⟩

end Arrangement

/-! ## Pages

Pages of one arrangement put together are a prefix of it, and all of it when they are as
many as its length asks for. -/

/-- Page `n`, from 0. -/
def page (size n : Nat) (rows : List ρ) : List ρ := (rows.drop (n * size)).take size

theorem pages_flatten (size k : Nat) (rows : List ρ) :
    (List.range k).flatMap (fun n => page size n rows) = rows.take (k * size) := by
  induction k with
  | zero => simp
  | succ k ih =>
    rw [List.range_succ, List.flatMap_append, ih, List.flatMap_singleton, page, Nat.succ_mul,
      List.take_add]

theorem mem_of_mem_pages {size k : Nat} {rows : Nat → List ρ} {a : ρ}
    (h : a ∈ (List.range k).flatMap fun n => page size n (rows n)) : ∃ n, a ∈ rows n := by
  obtain ⟨n, _, ha⟩ := List.mem_flatMap.mp h
  exact ⟨n, List.mem_of_mem_drop (List.mem_of_mem_take ha)⟩

/-- What is read off the pages of a listing. -/
theorem flatMap_map_pages {g : ρ → α} {size k : Nat} {items rows : Nat → List ρ}
    (h : ∀ n < k, items n = page size n (rows n)) :
    (List.range k).flatMap (fun n => (items n).map g) =
      ((List.range k).flatMap fun n => page size n (rows n)).map g := by
  rw [List.map_flatMap]
  refine List.flatMap_congr fun n hn => ?_
  rw [h n (List.mem_range.mp hn)]

/-- The number of pages: the quotient, rounded up. -/
def totalPages (total size : Nat) : Nat := (total + size - 1) / size

theorem le_totalPages {total size : Nat} (hsize : 0 < size) : total ≤ totalPages total size * size := by
  unfold totalPages
  have hmod := Nat.div_add_mod (total + size - 1) size
  have hlt := Nat.mod_lt (total + size - 1) hsize
  rw [Nat.mul_comm] at hmod
  omega

theorem div_lt_totalPages {total size i : Nat} (hsize : 0 < size) (hi : i < total) :
    i / size < totalPages total size :=
  Nat.div_lt_of_lt_mul (Nat.mul_comm .. ▸ Nat.lt_of_lt_of_le hi (le_totalPages hsize))

/-- It is the ceiling. -/
theorem totalPages_le_iff {total size k : Nat} (hsize : 0 < size) :
    totalPages total size ≤ k ↔ total ≤ k * size := by
  constructor
  · exact fun h => Nat.le_trans (le_totalPages hsize) (Nat.mul_le_mul_right size h)
  · intro h
    rw [totalPages, ← Nat.lt_succ_iff, Nat.div_lt_iff_lt_mul hsize, Nat.succ_mul]
    omega

/-- **A listing with a total order**: the pages put together are the arrangement. -/
theorem pages_eq {o : SortOrder ρ} {l : List ρ} {size : Nat} (hsize : 0 < size)
    (A : Nat → Arrangement o) (B : Arrangement o)
    (h : ∀ a ∈ l, ∀ b ∈ l, o.Tied a b → a = b) :
    (List.range (totalPages l.length size)).flatMap (fun n => page size n ((A n).rows l)) =
      B.rows l := by
  have hone : ∀ n, (A n).rows l = B.rows l := fun n => (A n).rows_eq B h
  simp only [hone, pages_flatten]
  exact List.take_of_length_le (by rw [B.length]; exact le_totalPages hsize)

/-! ## Ties

Where a row stands depends on the arrangement, but only within the rows tied with it: it has
at least `before` rows in front of it and fewer than `upTo`. Both are counts over the
unordered rows. -/

section Ties

variable {o : SortOrder ρ} {l L : List ρ} {size : Nat} {a : ρ}

/-- The rows in front of a row whatever the arrangement. -/
def before (o : SortOrder ρ) (l : List ρ) (a : ρ) : Nat := l.countP fun b => !o.le a b

/-- These, and the rows tied with it. -/
def upTo (o : SortOrder ρ) (l : List ρ) (a : ρ) : Nat := l.countP fun b => o.le b a

/-- All rows tied with a row fall on the page the first of them falls on. -/
def TiesOnOnePage (o : SortOrder ρ) (size : Nat) (l : List ρ) : Prop :=
  ∀ a ∈ l, (upTo o l a - 1) / size = before o l a / size

/-- In an arrangement a row stands behind all that precede it and before all that follow. -/
theorem le_of_sorted (hL : L.Pairwise fun a b => o.le a b = true) {i j : Nat} (hij : i ≤ j)
    (hj : j < L.length) : o.le (getElem L i (Nat.lt_of_le_of_lt hij hj)) L[j] = true := by
  rcases Nat.lt_or_eq_of_le hij with hlt | rfl
  · exact List.pairwise_iff_getElem.mp hL i j _ hj hlt
  · exact (o.total _ _).elim id id

/-- What stands at a position from some point on, or up to it, bounds a count. -/
theorem countP_le_of_from {p : ρ → Bool} {i : Nat}
    (h : ∀ j, i ≤ j → (hj : j < L.length) → p L[j] = false) : L.countP p ≤ i := by
  have hrest : (L.drop i).countP p = 0 := by
    rw [List.countP_eq_zero]
    intro b hb
    obtain ⟨j, hj, rfl⟩ := List.mem_iff_getElem.mp hb
    rw [List.getElem_drop]
    simpa using h (i + j) (Nat.le_add_right ..) (by rw [List.length_drop] at hj; omega)
  rw [← List.take_append_drop i L, List.countP_append, hrest, Nat.add_zero]
  exact Nat.le_trans List.countP_le_length (List.length_take_le ..)

theorem lt_countP_of_upTo {p : ρ → Bool} {i : Nat} (hi : i < L.length)
    (h : ∀ j, (hj : j ≤ i) → p (getElem L j (Nat.lt_of_le_of_lt hj hi)) = true) : i < L.countP p := by
  have hfirst : (L.take (i + 1)).countP p = (L.take (i + 1)).length := by
    rw [List.countP_eq_length]
    intro b hb
    obtain ⟨j, hj, rfl⟩ := List.mem_iff_getElem.mp hb
    rw [List.getElem_take]
    exact h j (by rw [List.length_take] at hj; omega)
  have hlength : (L.take (i + 1)).length = i + 1 := by
    rw [List.length_take]
    omega
  rw [← List.take_append_drop (i + 1) L, List.countP_append, hfirst, hlength]
  omega

/-- Where a row stands. -/
theorem before_le_position (hL : L.Pairwise fun a b => o.le a b = true) {i : Nat}
    (hi : i < L.length) : before o L L[i] ≤ i ∧ i < upTo o L L[i] := by
  constructor
  · exact countP_le_of_from fun j hij hj => by simpa using le_of_sorted hL hij hj
  · exact lt_countP_of_upTo hi fun j hj => le_of_sorted hL hj hi

/-- And what stands there. -/
theorem tied_of_position (hL : L.Pairwise fun a b => o.le a b = true) {i : Nat}
    (hi : i < L.length) (hbefore : before o L a ≤ i) (hupTo : i < upTo o L a) : o.Tied L[i] a := by
  constructor
  · by_contra hnot
    refine absurd hupTo (Nat.not_lt.mpr (countP_le_of_from fun j hij hj => ?_))
    have hle := le_of_sorted hL hij hj
    by_contra hja
    exact hnot (o.trans _ _ _ hle (by simpa using hja))
  · by_contra hnot
    refine absurd hbefore (Nat.not_le.mpr (lt_countP_of_upTo hi fun j hj => ?_))
    have hle := le_of_sorted hL hj hi
    rw [Bool.not_eq_true']
    by_contra haj
    exact hnot (o.trans _ _ _ (by simpa using haj) hle)

theorem before_perm (h : L.Perm l) : before o L a = before o l a := h.countP_eq _

theorem upTo_perm (h : L.Perm l) : upTo o L a = upTo o l a := h.countP_eq _

/-- Where a row stands in an arrangement. -/
theorem Arrangement.position (A : Arrangement o) {i : Nat} (hi : i < (A.rows l).length) :
    before o l (A.rows l)[i] ≤ i ∧ i < upTo o l (A.rows l)[i] := by
  have hposition := before_le_position (A.sorted l) hi
  rwa [before_perm (A.perm l), upTo_perm (A.perm l)] at hposition

theorem Arrangement.bounds (A : Arrangement o) (ha : a ∈ l) : before o l a < upTo o l a := by
  obtain ⟨i, hi, rfl⟩ := List.mem_iff_getElem.mp (A.mem.mpr ha)
  obtain ⟨hlow, hhigh⟩ := A.position hi
  exact Nat.lt_of_le_of_lt hlow hhigh

/-- A page is the rows of the positions that belong to it. -/
theorem page_eq_filter {n : Nat} {p : ρ → Bool}
    (h : ∀ i, (hi : i < L.length) → (p L[i] = true ↔ i / size = n)) (hsize : 0 < size) :
    page size n L = L.filter p := by
  have hsplit : L = L.take (n * size) ++ (page size n L ++ L.drop (n * size + size)) := by
    rw [page, ← List.drop_drop, List.take_append_drop, List.take_append_drop]
  have hdiv : ∀ i, i / size = n ↔ n * size ≤ i ∧ i < n * size + size := fun i => by
    rw [Nat.div_eq_iff hsize]
    omega
  have hfirst : (L.take (n * size)).filter p = [] := by
    rw [List.filter_eq_nil_iff]
    intro b hb hp
    obtain ⟨i, hi, rfl⟩ := List.mem_iff_getElem.mp hb
    rw [List.getElem_take] at hp
    rw [List.length_take] at hi
    have := ((hdiv i).mp ((h i (by omega)).mp hp)).1
    omega
  have hlast : (L.drop (n * size + size)).filter p = [] := by
    rw [List.filter_eq_nil_iff]
    intro b hb hp
    obtain ⟨i, hi, rfl⟩ := List.mem_iff_getElem.mp hb
    rw [List.getElem_drop] at hp
    rw [List.length_drop] at hi
    have := ((hdiv _).mp ((h _ (by omega)).mp hp)).2
    omega
  have hpage : (page size n L).filter p = page size n L := by
    rw [List.filter_eq_self]
    intro b hb
    obtain ⟨i, hi, rfl⟩ := List.mem_iff_getElem.mp hb
    simp only [page, List.length_take, List.length_drop] at hi
    simp only [page, List.getElem_take, List.getElem_drop]
    exact (h _ (by omega)).mpr ((hdiv _).mpr (by omega))
  conv_rhs => rw [hsplit, List.filter_append, List.filter_append, hfirst, hpage, hlast]
  simp

/-- Splitting a list by a number below `k` and putting it together again. -/
theorem flatMap_filter_perm (f : ρ → Nat) (k : Nat) (l : List ρ) :
    ((List.range k).flatMap fun n => l.filter fun a => decide (f a = n)).Perm
      (l.filter fun a => decide (f a < k)) := by
  induction k with
  | zero => simp
  | succ k ih =>
    rw [List.range_succ, List.flatMap_append, List.flatMap_singleton]
    refine (ih.append_right _).trans ?_
    have hsplit := List.filter_append_perm (fun a => decide (f a < k))
      (l.filter fun a => decide (f a < k + 1))
    rw [List.filter_filter, List.filter_filter] at hsplit
    refine List.Perm.trans (.of_eq ?_) hsplit
    congr 1
    · refine List.filter_congr fun a _ => ?_
      rw [Bool.eq_iff_iff]
      simp only [decide_eq_true_eq, Bool.and_eq_true]
      omega
    · refine List.filter_congr fun a _ => ?_
      rw [Bool.eq_iff_iff]
      simp only [decide_eq_true_eq, Bool.and_eq_true, Bool.not_eq_true', decide_eq_false_iff_not]
      omega

/-- Ties on one page: whatever the arrangements, the pages are the rows. -/
theorem pages_perm (hsize : 0 < size) (h : TiesOnOnePage o size l) (A : Nat → Arrangement o) :
    ((List.range (totalPages l.length size)).flatMap fun n => page size n ((A n).rows l)).Perm l := by
  have hpage : ∀ n, (page size n ((A n).rows l)).Perm
      (l.filter fun a => decide (before o l a / size = n)) := by
    intro n
    have hperm := (A n).perm l
    refine List.Perm.trans (.of_eq (page_eq_filter (fun i hi => ?_) hsize)) (hperm.filter _)
    obtain ⟨hlow, hhigh⟩ := (A n).position hi
    have hties := h _ ((A n).mem.mp (List.getElem_mem hi))
    have hsame : i / size = before o l ((A n).rows l)[i] / size := Nat.le_antisymm
      (hties ▸ Nat.div_le_div_right (by omega)) (Nat.div_le_div_right hlow)
    rw [decide_eq_true_eq, hsame]
  have hall : (l.filter fun a => decide (before o l a / size < totalPages l.length size)) = l := by
    rw [List.filter_eq_self]
    intro a ha
    refine decide_eq_true (div_lt_totalPages hsize ?_)
    obtain ⟨i, hi, rfl⟩ := List.mem_iff_getElem.mp ((A 0).mem.mpr ha)
    have hlow := ((A 0).position hi).1
    rw [(A 0).length] at hi
    omega
  have hsplit := flatMap_filter_perm (fun a => before o l a / size) (totalPages l.length size) l
  rw [hall] at hsplit
  exact (List.Perm.flatMap_left _ fun n _ => hpage n).trans hsplit

/-! ### Ties across a boundary -/

/-- The arrangement with two tied neighbours of one list exchanged. -/
def Arrangement.exchange [DecidableEq ρ] (A : Arrangement o) {P Q : List ρ} {x y : ρ}
    (hrows : A.rows l = P ++ x :: y :: Q) (htied : o.Tied x y) : Arrangement o where
  rows := fun l' => if l' = l then P ++ y :: x :: Q else A.rows l'
  perm := by
    intro l'
    split
    · rename_i heq
      subst heq
      exact ((List.Perm.swap x y Q).append_left P).trans (hrows ▸ A.perm l')
    · exact A.perm l'
  sorted := by
    intro l'
    split
    · have hsorted := A.sorted l
      rw [hrows] at hsorted
      simp only [List.pairwise_append, List.pairwise_cons, List.mem_cons] at hsorted ⊢
      obtain ⟨hP, ⟨hx, hy, hQ⟩, hcross⟩ := hsorted
      refine ⟨hP, ⟨?_, fun b hb => hx b (Or.inr hb), hQ⟩, fun a ha b hb => hcross a ha b ?_⟩
      · rintro b (rfl | hb)
        · exact htied.2
        · exact hy b hb
      · rcases hb with rfl | rfl | hb
        · exact Or.inr (Or.inl rfl)
        · exact Or.inl rfl
        · exact Or.inr (Or.inr hb)
    · exact A.sorted l'

theorem mem_page {n i : Nat} (hsize : 0 < size) (hi : i < L.length) (hn : i / size = n) :
    L[i] ∈ page size n L := by
  have hbounds : n * size ≤ i ∧ i < n * size + size := by
    rw [Nat.div_eq_iff hsize] at hn
    omega
  refine List.mem_iff_getElem.mpr ⟨i - n * size, ?_, ?_⟩
  · simp only [page, List.length_take, List.length_drop]
    omega
  · simp only [page, List.getElem_take, List.getElem_drop]
    congr 1
    omega

/-- Of two tied neighbours the first can come one place later. -/
theorem Arrangement.exists_later [DecidableEq ρ] (A : Arrangement o) {i : Nat}
    (hi : i + 1 < (A.rows l).length)
    (htied : o.Tied (getElem (A.rows l) i (Nat.lt_of_succ_lt hi)) (A.rows l)[i + 1]) :
    ∃ B : Arrangement o, (B.rows l)[i + 1]? = some (getElem (A.rows l) i (Nat.lt_of_succ_lt hi)) := by
  generalize hx : getElem (A.rows l) i (Nat.lt_of_succ_lt hi) = x at htied
  generalize hy : (A.rows l)[i + 1] = y at htied
  have hrows : A.rows l = (A.rows l).take i ++ x :: y :: (A.rows l).drop (i + 2) := by
    rw [← hx, ← hy, ← List.drop_eq_getElem_cons, ← List.drop_eq_getElem_cons,
      List.take_append_drop]
  have htake : ((A.rows l).take i).length = i := by
    rw [List.length_take]
    omega
  have hexchanged : (A.exchange hrows htied).rows l =
      (A.rows l).take i ++ y :: x :: (A.rows l).drop (i + 2) := if_pos rfl
  refine ⟨A.exchange hrows htied, ?_⟩
  rw [hexchanged, List.getElem?_append_right (by omega), htake]
  simp

/-- Two tied neighbours on the two sides of a boundary: one of them can appear on both pages. -/
theorem repeated_of_boundary [DecidableEq ρ] (A : Arrangement o) (hsize : 0 < size) {i k : Nat}
    (hi : i + 1 < l.length) (hk : totalPages l.length size = k)
    (hboundary : i / size < (i + 1) / size)
    (htied : o.Tied (getElem (A.rows l) i (by rw [A.length]; omega))
      (getElem (A.rows l) (i + 1) (by rw [A.length]; omega))) :
    ∃ B : Nat → Arrangement o,
      ¬ ((List.range k).flatMap fun n => page size n ((B n).rows l)).Nodup := by
  have hlength : i + 1 < (A.rows l).length := by rw [A.length]; exact hi
  obtain ⟨B, hB⟩ := A.exists_later hlength htied
  obtain ⟨hlater, hthere⟩ := List.getElem?_eq_some_iff.mp hB
  refine ⟨fun n => if n = i / size then A else B, fun hnodup => ?_⟩
  have hlast : (i + 1) / size < k := hk ▸ div_lt_totalPages hsize hi
  have hdisjoint := List.pairwise_iff_getElem.mp (List.nodup_flatMap.mp hnodup).2 (i / size)
    ((i + 1) / size) (by rw [List.length_range]; omega) (by rw [List.length_range]; omega) hboundary
  simp only [Function.onFun, List.getElem_range] at hdisjoint
  rw [if_pos trivial, if_neg (Nat.ne_of_gt hboundary)] at hdisjoint
  have hmem := mem_page hsize hlater rfl
  rw [hthere] at hmem
  exact hdisjoint (mem_page hsize (Nat.lt_of_succ_lt hlength) rfl) hmem

/-- In an arrangement the rows tied with one stand at the positions between its two bounds. -/
theorem Arrangement.tied_at (A : Arrangement o) {i : Nat} (hlow : before o l a ≤ i)
    (hhigh : i < upTo o l a) :
    o.Tied (getElem (A.rows l) i (by
      rw [A.length]
      exact Nat.lt_of_lt_of_le hhigh List.countP_le_length)) a :=
  tied_of_position (A.sorted l) _ (by rw [before_perm (A.perm l)]; exact hlow)
    (by rw [upTo_perm (A.perm l)]; exact hhigh)

/-- **A listing with ties**: whatever arrangement each page is cut from, the pages are the rows,
each once, exactly when no tied rows are on two sides of a page boundary. -/
theorem pages_perm_iff [DecidableEq ρ] (hsize : 0 < size) (hl : l.Nodup) :
    (∀ A : Nat → Arrangement o, ((List.range (totalPages l.length size)).flatMap fun n =>
      page size n ((A n).rows l)).Perm l) ↔ TiesOnOnePage o size l := by
  refine ⟨fun h => ?_, fun h A => pages_perm hsize h A⟩
  intro a ha
  let A := Arrangement.mergeSort o
  have hupTo : upTo o l a ≤ l.length := List.countP_le_length
  have hbounds := A.bounds ha
  by_contra hne
  -- the last position of the tie is on a later page: some boundary lies between
  obtain ⟨j, hj, hboundary⟩ : ∃ j, before o l a ≤ j ∧ j + 1 < upTo o l a ∧
      j / size < (j + 1) / size := by
    by_contra hnone
    have hsame : ∀ d, before o l a + d < upTo o l a →
        (before o l a + d) / size = before o l a / size := by
      intro d
      induction d with
      | zero => exact fun _ => rfl
      | succ d ih =>
        intro hd
        have hstep : ¬ (before o l a + d) / size < (before o l a + d + 1) / size :=
          fun hlt => hnone ⟨before o l a + d, Nat.le_add_right .., by omega, hlt⟩
        have hmono : (before o l a + d) / size ≤ (before o l a + d + 1) / size :=
          Nat.div_le_div_right (Nat.le_succ _)
        rw [← ih (by omega)]
        exact Nat.le_antisymm (Nat.not_lt.mp hstep) hmono
    have hlast := hsame (upTo o l a - 1 - before o l a) (by omega)
    rw [Nat.add_sub_cancel' (by omega)] at hlast
    exact hne hlast
  have hfirst := A.tied_at hj (by omega)
  have hsecond := A.tied_at (by omega) hboundary.1
  obtain ⟨B, hB⟩ := repeated_of_boundary A hsize (by omega) rfl hboundary.2
    ⟨o.trans _ _ _ hfirst.1 hsecond.2, o.trans _ _ _ hsecond.1 hfirst.2⟩
  exact hB ((h B).nodup_iff.mpr hl)

end Ties

/-! ## Joins -/

/-- Rows read through a join that `g` undoes are arranged as what they were read from. -/
theorem map_perm_iff {f : α → Option ρ} {g : ρ → α} {L : List ρ} {l : List α}
    (hL : ∀ b ∈ L, f (g b) = some b) (hl : ∀ a ∈ l, ∃ b, f a = some b ∧ g b = a) :
    (L.map g).Perm l ↔ L.Perm (l.filterMap f) := by
  have hback : (L.map g).filterMap f = L := by
    rw [List.filterMap_map]
    exact (List.filterMap_congr fun b hb => hL b hb).trans List.filterMap_some
  have hforth : (l.filterMap f).map g = l := by
    rw [List.map_filterMap]
    refine (List.filterMap_congr fun a ha => ?_).trans List.filterMap_some
    obtain ⟨b, hb, hg⟩ := hl a ha
    rw [hb, Option.map_some, hg]
  constructor
  · intro h
    exact hback ▸ h.filterMap f
  · intro h
    exact hforth ▸ h.map g

end Cfscan.Lib
