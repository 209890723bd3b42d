import Mathlib.Algebra.BigOperators.Group.List.Basic
import Mathlib.Algebra.GroupWithZero.Nat
import Mathlib.Data.List.Sort
import Mathlib.Order.Lattice

/-!
# Allotting a budget group by group

A list is walked group by group, in a given order of the keys, and each group is given its share or
what is left of the budget. `allot_take`: cutting a list that is sorted by key to its first `limit`
elements changes nothing of the allotment, as long as the share of `limit` elements covers the
budget, though the cut shortens the group it falls into. The share need only be monotone and
subadditive, as a rounded-up fraction is.

A share of a group is counted against the group as it stands in the list, so that cutting the list
changes the shares themselves and not only what is left of the budget. What saves the result is that
this can show in the last group only, and that there the budget has run out already.
-/

set_option autoImplicit false

namespace Cfscan.Lib

variable {α κ : Type}

/-- Of each key in turn its share of elements, or what is left of the budget. -/
def allot [DecidableEq κ] (share : Nat → Nat) (key : α → κ) (l : List α) :
    List κ → Nat → List (κ × List α)
  | [], _ => []
  | k :: keys, remaining =>
      let group := l.filter fun a => decide (key a = k)
      let count := min (share group.length) remaining
      (k, group.take count) :: allot share key l keys (remaining - count)

/-- What a share must satisfy for a cut to go unnoticed. -/
structure Share (share : Nat → Nat) : Prop where
  le : ∀ n, share n ≤ n
  mono : ∀ {m n}, m ≤ n → share m ≤ share n
  add_le : ∀ m n, share (m + n) ≤ share m + share n

section Keys

variable [DecidableEq κ] {share : Nat → Nat} {key : α → κ} {l l' : List α} {keys : List κ}
  {budget : Nat}

theorem allot_cons (k : κ) :
    allot share key l (k :: keys) budget =
      (k, (l.filter fun a => decide (key a = k)).take
        (min (share (l.filter fun a => decide (key a = k)).length) budget)) ::
      allot share key l keys
        (budget - min (share (l.filter fun a => decide (key a = k)).length) budget) := rfl

/-- Only the groups count. -/
theorem allot_congr (h : ∀ k ∈ keys,
    (l.filter fun a => decide (key a = k)) = l'.filter fun a => decide (key a = k)) :
    allot share key l keys budget = allot share key l' keys budget := by
  induction keys generalizing budget with
  | nil => rfl
  | cons k keys ih =>
    rw [allot_cons, allot_cons, h k List.mem_cons_self,
      ih fun k' hk' => h k' (List.mem_cons_of_mem _ hk')]

/-- With nothing left, nobody is given anything. -/
theorem allot_zero : allot share key l keys 0 = keys.map fun k => (k, []) := by
  induction keys with
  | nil => rfl
  | cons k keys ih => rw [allot_cons, List.map_cons, Nat.min_zero, List.take_zero, ih]

/-- The elements given out are as many as the shares and the budget allow. -/
theorem sum_length_allot (hshare : Share share) :
    ((allot share key l keys budget).map fun given => given.2.length).sum =
      min budget ((keys.map fun k => share (l.filter fun a => decide (key a = k)).length).sum) := by
  induction keys generalizing budget with
  | nil => simp [allot]
  | cons k keys ih =>
    have hle := hshare.le (l.filter fun a => decide (key a = k)).length
    rw [allot_cons, List.map_cons, List.sum_cons, ih, List.map_cons, List.sum_cons,
      List.length_take]
    omega

theorem map_fst_allot : (allot share key l keys budget).map Prod.fst = keys := by
  induction keys generalizing budget with
  | nil => rfl
  | cons k keys ih => rw [allot_cons, List.map_cons, ih]

theorem flatMap_allot_sublist : ((allot share key l keys budget).flatMap Prod.snd).Sublist
    (keys.flatMap fun k => l.filter fun a => decide (key a = k)) := by
  induction keys generalizing budget with
  | nil => exact List.Sublist.refl _
  | cons k keys ih =>
    rw [allot_cons, List.flatMap_cons, List.flatMap_cons]
    exact (List.take_sublist _ _).append ih

end Keys

/-! ## Cutting a sorted list

By induction on the keys. The first group stands in front of a sorted list and can be split
off; the cut falls into it, where the budget ends it, or behind it, where the induction
hypothesis takes over. -/

section Sorted

variable [LinearOrder κ] {share : Nat → Nat} {key : α → κ} {l : List α} {keys : List κ}

/-- The group of the least key stands in front. -/
theorem filter_append_filter_ne {k : κ} (hsorted : l.Pairwise fun a b => key a ≤ key b)
    (hle : ∀ a ∈ l, k ≤ key a) :
    l = (l.filter fun a => decide (key a = k)) ++ l.filter fun a => decide (key a ≠ k) := by
  induction l with
  | nil => rfl
  | cons a l ih =>
    obtain ⟨ha, hsorted⟩ := List.pairwise_cons.1 hsorted
    by_cases hk : key a = k
    · rw [List.filter_cons_of_pos (by simpa using hk), List.filter_cons_of_neg (by simpa using hk),
        List.cons_append, ← ih hsorted fun b hb => hle b (List.mem_cons_of_mem _ hb)]
    · have hlt : k < key a := lt_of_le_of_ne (hle a List.mem_cons_self) (Ne.symm hk)
      have hne : ∀ b ∈ a :: l, key b ≠ k := by
        intro b hb
        rcases List.mem_cons.1 hb with rfl | hb
        · exact hk
        · exact (lt_of_lt_of_le hlt (ha b hb)).ne'
      rw [List.filter_eq_nil_iff.2 fun b hb => by simpa using hne b hb, List.nil_append,
        List.filter_eq_self.2 fun b hb => by simpa using hne b hb]

/-- What is left of a sorted list after its first group. -/
structure Remainder (key : α → κ) (k : κ) (keys : List κ) (l : List α) (rest : List α) : Prop where
  split : l = (l.filter fun a => decide (key a = k)) ++ rest
  sorted : rest.Pairwise fun a b => key a ≤ key b
  mem : ∀ a ∈ rest, key a ∈ keys
  group : ∀ k' ∈ keys,
    (l.filter fun a => decide (key a = k')) = rest.filter fun a => decide (key a = k')

theorem exists_remainder {k : κ} (hsorted : l.Pairwise fun a b => key a ≤ key b)
    (hkeys : (k :: keys).Pairwise (· < ·)) (hmem : ∀ a ∈ l, key a ∈ k :: keys) :
    ∃ rest, Remainder key k keys l rest := by
  obtain ⟨hk, -⟩ := List.pairwise_cons.1 hkeys
  have hle : ∀ a ∈ l, k ≤ key a := fun a ha => by
    rcases List.mem_cons.1 (hmem a ha) with heq | hlater
    · exact heq.ge
    · exact (hk _ hlater).le
  refine ⟨l.filter fun a => decide (key a ≠ k), filter_append_filter_ne hsorted hle,
    hsorted.sublist List.filter_sublist, fun a ha => ?_, fun k' hk' => ?_⟩
  · obtain ⟨ha, hne⟩ := List.mem_filter.1 ha
    exact (List.mem_cons.1 (hmem a ha)).resolve_left (by simpa using hne)
  · rw [List.filter_filter]
    refine List.filter_congr fun a _ => ?_
    have hne : k' ≠ k := (hk k' hk').ne'
    by_cases hkey : key a = k'
    · simp [hkey, hne]
    · simp [hkey]

/-- A list sorted by key is made of its groups. -/
theorem flatMap_filter_eq (hsorted : l.Pairwise fun a b => key a ≤ key b)
    (hkeys : keys.Pairwise (· < ·)) (hmem : ∀ a ∈ l, key a ∈ keys) :
    (keys.flatMap fun k => l.filter fun a => decide (key a = k)) = l := by
  induction keys generalizing l with
  | nil => simpa [eq_comm, List.eq_nil_iff_forall_not_mem] using hmem
  | cons k keys ih =>
    obtain ⟨rest, hrest⟩ := exists_remainder hsorted hkeys hmem
    rw [List.flatMap_cons, List.flatMap_congr hrest.group,
      ih hrest.sorted hkeys.of_cons hrest.mem, ← hrest.split]

/-- **A cut goes unnoticed.** If the share of `limit` elements covers the budget, what is allotted
of the first `limit` elements is what is allotted of all. -/
theorem allot_take (hshare : Share share) (hsorted : l.Pairwise fun a b => key a ≤ key b)
    (hkeys : keys.Pairwise (· < ·)) (hmem : ∀ a ∈ l, key a ∈ keys) {limit budget : Nat}
    (hbudget : budget ≤ share limit) :
    allot share key (l.take limit) keys budget = allot share key l keys budget := by
  induction keys generalizing l limit budget with
  | nil => rfl
  | cons k keys ih =>
    obtain ⟨rest, hrest⟩ := exists_remainder hsorted hkeys hmem
    obtain ⟨group, hgroup⟩ : ∃ group, (l.filter fun a => decide (key a = k)) = group := ⟨_, rfl⟩
    have hsplit := hrest.split
    rw [hgroup] at hsplit
    have hkeyed : ∀ a ∈ group, key a = k := fun a ha => by
      rw [← hgroup] at ha
      simpa using (List.mem_filter.1 ha).2
    have hapart : ∀ a ∈ rest, key a ≠ k := fun a ha =>
      ((List.pairwise_cons.1 hkeys).1 _ (hrest.mem a ha)).ne'
    -- the cut takes of this group what there is room for, and the rest of the room is for the rest
    have hcut : l.take limit = group.take limit ++ rest.take (limit - group.length) := by
      rw [hsplit, List.take_append]
    have hfirst : ((l.take limit).filter fun a => decide (key a = k)) = group.take limit := by
      rw [hcut, List.filter_append,
        List.filter_eq_self.2 fun a ha => by simpa using hkeyed a (List.mem_of_mem_take ha),
        List.filter_eq_nil_iff.2 fun a ha => by simpa using hapart a (List.mem_of_mem_take ha),
        List.append_nil]
    have hlater : ∀ k' ∈ keys, ((l.take limit).filter fun a => decide (key a = k')) =
        (rest.take (limit - group.length)).filter fun a => decide (key a = k') := by
      intro k' hk'
      have hne : k ≠ k' := ((List.pairwise_cons.1 hkeys).1 k' hk').ne
      rw [hcut, List.filter_append, List.filter_eq_nil_iff.2 fun a ha => by
        simpa [hkeyed a (List.mem_of_mem_take ha)] using hne, List.nil_append]
    rw [allot_cons, allot_cons, hfirst, hgroup, allot_congr hlater, allot_congr hrest.group]
    rcases Nat.lt_or_ge limit group.length with hover | hfits
    · -- the cut falls into this group, which takes all that is left either way
      have hlimit := hshare.le limit
      have hmono := hshare.mono hover.le
      rw [List.length_take, Nat.min_eq_left hover.le, Nat.min_eq_right hbudget,
        Nat.min_eq_right (Nat.le_trans hbudget hmono), List.take_take,
        Nat.min_eq_left (Nat.le_trans hbudget hlimit), Nat.sub_self, allot_zero, allot_zero]
    · have hadd := hshare.add_le group.length (limit - group.length)
      rw [Nat.add_sub_cancel' hfits] at hadd
      rw [List.take_of_length_le hfits,
        ih hrest.sorted hkeys.of_cons hrest.mem (by omega)]

/-- The keys of a sorted list, each once. -/
theorem pairwise_eraseDups {ks : List κ} (h : ks.Pairwise (· ≤ ·)) :
    ks.eraseDups.Pairwise (· < ·) := by
  match ks with
  | [] => exact List.Pairwise.nil
  | k :: ks =>
    have hshorter : (ks.filter fun k' => !k' == k).length < ks.length + 1 :=
      Nat.lt_succ_of_le (List.length_filter_le _ ks)
    obtain ⟨hk, h⟩ := List.pairwise_cons.1 h
    rw [List.eraseDups_cons]
    refine List.pairwise_cons.2 ⟨fun k' hk' => ?_, pairwise_eraseDups (h.sublist
      List.filter_sublist)⟩
    obtain ⟨hmem, hne⟩ := List.mem_filter.1 (List.mem_eraseDups.1 hk')
    exact lt_of_le_of_ne (hk k' hmem) fun heq => by simp [heq] at hne
termination_by ks.length

end Sorted

end Cfscan.Lib
