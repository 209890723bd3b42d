import Cfscan.Lib.Page

/-!
# The first rows of each group

`ROW_NUMBER() OVER (PARTITION BY … ORDER BY …) <= k` keeps the first `k` rows of each group, in
whatever arrangement the query puts the group. Which rows these are depends on the arrangement
where tied rows stand on both sides of the cut, and nowhere else (`top_eq`, `exists_top_ne`).

A listing of these rows selects them anew for every page. Its pages are the selected rows, each
once, exactly when the cut is decided and ties stay on one page (`top_pages_perm_iff`).

The groups are those of a key, and the cut is of the same length in each. A row that is selected in
one arrangement and not in another is tied with a row on the other side of the cut, and with none
that the order tells apart from it.
-/

set_option autoImplicit false

namespace Cfscan.Lib

variable {ρ γ : Type} [DecidableEq γ] {o : SortOrder ρ} {group : ρ → γ} {k : Nat} {l : List ρ}

/-- The rows of the group of a row. -/
def groupOf (group : ρ → γ) (l : List ρ) (a : ρ) : List ρ :=
  l.filter fun b => decide (group b = group a)

theorem mem_groupOf {a b : ρ} : b ∈ groupOf group l a ↔ b ∈ l ∧ group b = group a := by
  simp only [groupOf, List.mem_filter, decide_eq_true_eq]

theorem self_mem_groupOf (group : ρ → γ) {a : ρ} (ha : a ∈ l) : a ∈ groupOf group l a :=
  mem_groupOf.mpr ⟨ha, rfl⟩

theorem groupOf_eq {a b : ρ} (hb : b ∈ groupOf group l a) : groupOf group l b = groupOf group l a := by
  unfold groupOf
  rw [(mem_groupOf.mp hb).2]

/-- No tie stands across the cut of a group. -/
def CutDecided (o : SortOrder ρ) (group : ρ → γ) (k : Nat) (l : List ρ) : Prop :=
  ∀ a ∈ l, before o (groupOf group l a) a < k → upTo o (groupOf group l a) a ≤ k

variable [DecidableEq ρ]

/-- `ROW_NUMBER()`. -/
def rowNumber (A : Arrangement o) (group : ρ → γ) (l : List ρ) (a : ρ) : Nat :=
  (A.rows (groupOf group l a)).idxOf a + 1

def top (A : Arrangement o) (group : ρ → γ) (k : Nat) (l : List ρ) : List ρ :=
  l.filter fun a => decide (rowNumber A group l a ≤ k)

theorem mem_top {A : Arrangement o} {a : ρ} :
    a ∈ top A group k l ↔ a ∈ l ∧ (A.rows (groupOf group l a)).idxOf a < k := by
  simp only [top, rowNumber, List.mem_filter, decide_eq_true_eq, Nat.succ_le_iff]

theorem nodup_top (A : Arrangement o) (hl : l.Nodup) : (top A group k l).Nodup := hl.filter _

/-- Where the cut is decided, a row is in front of it when the first of its ties is. -/
theorem mem_top_iff (h : CutDecided o group k l) {A : Arrangement o} {a : ρ} (ha : a ∈ l) :
    a ∈ top A group k l ↔ before o (groupOf group l a) a < k := by
  have hmem := A.mem.mpr (self_mem_groupOf group ha)
  have hposition := A.position (List.idxOf_lt_length_of_mem hmem)
  rw [List.getElem_idxOf] at hposition
  have hcut := h a ha
  rw [mem_top]
  constructor
  · rintro ⟨_, hfront⟩
    omega
  · intro hbefore
    exact ⟨ha, by omega⟩

theorem top_eq (h : CutDecided o group k l) (A B : Arrangement o) :
    top A group k l = top B group k l := by
  refine List.filter_congr fun a ha => ?_
  have hA := (mem_top_iff h ha (A := A)).trans (mem_top_iff h ha (A := B)).symm
  rw [mem_top, mem_top, and_iff_right ha, and_iff_right ha] at hA
  rw [Bool.eq_iff_iff, decide_eq_true_eq, decide_eq_true_eq]
  exact hA

/-- The group of a row and its number in it are the same pairs in every arrangement. -/
theorem numbering_perm (hl : l.Nodup) (A B : Arrangement o) :
    (l.map fun a => (group a, (A.rows (groupOf group l a)).idxOf a)).Perm
      (l.map fun a => (group a, (B.rows (groupOf group l a)).idxOf a)) := by
  have hnodup : ∀ (C : Arrangement o) (a : ρ), (C.rows (groupOf group l a)).Nodup := fun C a =>
    (C.perm _).nodup_iff.mpr (hl.filter _)
  have hinj : ∀ C : Arrangement o,
      (l.map fun a => (group a, (C.rows (groupOf group l a)).idxOf a)).Nodup := by
    intro C
    refine List.Nodup.map_on (fun a ha b hb heq => ?_) hl
    obtain ⟨hgroup, hindex⟩ := Prod.mk.inj heq
    have hb' : b ∈ groupOf group l a := mem_groupOf.mpr ⟨hb, hgroup.symm⟩
    rw [groupOf_eq hb'] at hindex
    exact (List.idxOf_inj (C.mem.mpr (self_mem_groupOf group ha))).mp hindex
  have hsubset : ∀ C D : Arrangement o,
      (l.map fun a => (group a, (C.rows (groupOf group l a)).idxOf a)) ⊆
        l.map fun a => (group a, (D.rows (groupOf group l a)).idxOf a) := by
    intro C D p hp
    obtain ⟨a, ha, rfl⟩ := List.mem_map.mp hp
    have hlt := List.idxOf_lt_length_of_mem (C.mem.mpr (self_mem_groupOf group ha))
    rw [C.length, ← D.length] at hlt
    -- the row that has this number in the other arrangement
    have hmem := D.mem.mp (List.getElem_mem hlt)
    refine List.mem_map.mpr ⟨_, (mem_groupOf.mp hmem).1, ?_⟩
    rw [(mem_groupOf.mp hmem).2, groupOf_eq hmem, (hnodup D a).idxOf_getElem]
  exact (List.perm_ext_iff_of_nodup (hinj A) (hinj B)).mpr fun p =>
    ⟨fun hp => hsubset A B hp, fun hp => hsubset B A hp⟩

/-- However many rows are selected, it is the same number. -/
theorem length_top (hl : l.Nodup) (A B : Arrangement o) :
    (top A group k l).length = (top B group k l).length := by
  have hcount : ∀ C : Arrangement o, (top C group k l).length =
      (l.map fun a => (group a, (C.rows (groupOf group l a)).idxOf a)).countP
        fun p => decide (p.2 + 1 ≤ k) := by
    intro C
    rw [List.countP_map, top, ← List.countP_eq_length_filter]
    rfl
  rw [hcount A, hcount B]
  exact (numbering_perm hl A B).countP_eq _

/-- Of the rows tied across a position, one can stand on either side of it. -/
theorem exists_across {a : ρ} (hl : l.Nodup) (hbefore : before o l a < k) (hupTo : k < upTo o l a) :
    ∃ (A B : Arrangement o) (x : ρ), x ∈ l ∧ (A.rows l).idxOf x < k ∧ k ≤ (B.rows l).idxOf x := by
  let A := Arrangement.mergeSort o
  have hlength : upTo o l a ≤ (A.rows l).length := by
    rw [A.length]
    exact List.countP_le_length
  have hnodup : ∀ C : Arrangement o, (C.rows l).Nodup := fun C => (C.perm l).nodup_iff.mpr hl
  cases k with
  | zero => exact absurd hbefore (Nat.not_lt_zero _)
  | succ i =>
    have hi : i + 1 < (A.rows l).length := Nat.lt_of_lt_of_le hupTo hlength
    have hfirst := A.tied_at (Nat.lt_succ_iff.mp hbefore) (Nat.lt_of_succ_lt hupTo)
    have hsecond := A.tied_at (Nat.le_of_lt hbefore) hupTo
    obtain ⟨B, hB⟩ := A.exists_later hi
      ⟨o.trans _ _ _ hfirst.1 hsecond.2, o.trans _ _ _ hsecond.1 hfirst.2⟩
    obtain ⟨hlater, hthere⟩ := List.getElem?_eq_some_iff.mp hB
    refine ⟨A, B, (A.rows l)[i], A.mem.mp (List.getElem_mem _), ?_, ?_⟩
    · rw [(hnodup A).idxOf_getElem]
      exact Nat.lt_succ_self i
    · have hindex : (B.rows l).idxOf (A.rows l)[i] = i + 1 := by
        rw [← hthere, (hnodup B).idxOf_getElem]
      exact Nat.le_of_eq hindex.symm

/-- A tie across the cut lets one row in or leaves it out. -/
theorem exists_top_ne (hl : l.Nodup) (h : ¬ CutDecided o group k l) :
    ∃ (A B : Arrangement o) (x : ρ), x ∈ top A group k l ∧ x ∉ top B group k l := by
  obtain ⟨a, ha, hbefore, hupTo⟩ :
      ∃ a ∈ l, before o (groupOf group l a) a < k ∧ k < upTo o (groupOf group l a) a := by
    by_contra hnone
    exact h fun a ha hbefore => Nat.not_lt.mp fun hupTo => hnone ⟨a, ha, hbefore, hupTo⟩
  have hnodup : (groupOf group l a).Nodup := hl.filter _
  obtain ⟨A, B, x, hx, hA, hB⟩ := exists_across hnodup hbefore hupTo
  rw [← groupOf_eq hx] at hA hB
  exact ⟨A, B, x, mem_top.mpr ⟨(mem_groupOf.mp hx).1, hA⟩,
    fun htop => Nat.not_lt.mpr hB (mem_top.mp htop).2⟩

/-! ## Their pages

Two orders are at work, that of the ranking and that of the page. A listing is complete in
every arrangement exactly when neither the cut nor a boundary between pages falls between
tied rows. -/

section Pages

variable {σ : Type} [DecidableEq σ] {o' : SortOrder σ} {f : ρ → Option σ}

/-- **The pages of the first rows of each group**, selected anew for every page and read with `f`,
a join that loses none of them. -/
theorem top_pages_perm_iff {size : Nat} (hsize : 0 < size) (hl : l.Nodup)
    (hf : ∀ a ∈ l, (f a).isSome) (hinj : ∀ a a' b, b ∈ f a → b ∈ f a' → a = a') :
    (∀ (count selected : Arrangement o) (rank : Nat → Arrangement o) (A : Nat → Arrangement o'),
      ((List.range (totalPages (top count group k l).length size)).flatMap fun n =>
        page size n ((A n).rows ((top (rank n) group k l).filterMap f))).Perm
          ((top selected group k l).filterMap f)) ↔
      CutDecided o group k l ∧
        TiesOnOnePage o' size ((top (Arrangement.mergeSort o) group k l).filterMap f) := by
  have hlength : ∀ A : Arrangement o, (top A group k l).length =
      ((top A group k l).filterMap f).length := fun A => by
    rw [List.length_filterMap_eq_countP, List.countP_eq_length.mpr]
    exact fun a ha => hf a (mem_top.mp ha).1
  simp only [hlength]
  constructor
  · intro h
    refine ⟨?_, (pages_perm_iff hsize ((nodup_top _ hl).filterMap hinj)).mp fun A =>
      h _ _ (fun _ => _) A⟩
    by_contra hcut
    obtain ⟨B, C, x, hB, hC⟩ := exists_top_ne hl hcut
    obtain ⟨y, hy⟩ := Option.isSome_iff_exists.mp (hf x (mem_top.mp hB).1)
    let A := Arrangement.mergeSort o'
    have hpages := h B C (fun _ => B) fun _ => A
    rw [pages_flatten, List.take_of_length_le (by rw [A.length]; exact le_totalPages hsize)] at hpages
    have hmem := hpages.mem_iff.mp (A.mem.mpr (List.mem_filterMap.mpr ⟨x, hB, hy⟩))
    obtain ⟨x', hx', hy'⟩ := List.mem_filterMap.mp hmem
    exact hC (hinj x x' y hy hy' ▸ hx')
  · rintro ⟨hcut, hties⟩ count selected rank A
    simp only [top_eq hcut _ (Arrangement.mergeSort o)]
    exact pages_perm hsize hties A

end Pages

end Cfscan.Lib
