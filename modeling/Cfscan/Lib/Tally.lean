import Cfscan.Lib.Table
import Mathlib.Algebra.BigOperators.Group.List.Lemmas

/-!
# Tallies

A map from keys to totals, in the order in which the keys first came: adding to a key that is not
there starts it from zero. After a list of items has gone in, each key that some item has is there
once, with the total of the items that have it (`mem_tally`).
-/

set_option autoImplicit false

namespace Cfscan.Lib

variable {κ M β : Type} [DecidableEq κ] [AddMonoid M]

abbrev Tally (κ M : Type) := Table κ (κ × M) Prod.fst

namespace Tally

def total (t : Tally κ M) (k : κ) : M := ((t.find? k).map Prod.snd).getD 0

def add (t : Tally κ M) (k : κ) (x : M) : Tally κ M := t.put (k, t.total k + x)

theorem find?_add (t : Tally κ M) (k k' : κ) (x : M) :
    (t.add k x).find? k' = if k = k' then some (k, t.total k + x) else t.find? k' := by
  rw [add, Table.find?_put]

theorem total_add (t : Tally κ M) (k k' : κ) (x : M) :
    (t.add k x).total k' = if k = k' then t.total k + x else t.total k' := by
  rw [total, find?_add]
  split
  · rfl
  · rfl

end Tally

/-- The items one after the other, each under its key. -/
def tally (key : β → κ) (weight : β → M) (items : List β) : Tally κ M :=
  items.foldl (fun t b => t.add (key b) (weight b)) Table.empty

section Fold

variable {key : β → κ} {weight : β → M}

/-- What items add to a tally. -/
theorem find?_foldl_add (items : List β) (t : Tally κ M) (k : κ) :
    (items.foldl (fun t b => t.add (key b) (weight b)) t).find? k =
      if k ∈ items.map key then
        some (k, t.total k + ((items.filter fun b => decide (key b = k)).map weight).sum)
      else t.find? k := by
  induction items generalizing t with
  | nil => rfl
  | cons b items ih =>
    rw [List.foldl_cons, ih, Tally.find?_add, Tally.total_add]
    by_cases hb : key b = k
    · subst hb
      rw [if_pos rfl, if_pos rfl, List.map_cons, if_pos List.mem_cons_self,
        List.filter_cons_of_pos (by simp), List.map_cons, List.sum_cons, add_assoc]
      split
      · rfl
      next hlater =>
        -- no later item has the key
        have hnone : items.filter (fun c => decide (key c = key b)) = [] := by
          refine List.filter_eq_nil_iff.2 fun c hc heq => hlater ?_
          exact List.mem_map.2 ⟨c, hc, of_decide_eq_true heq⟩
        rw [hnone, List.map_nil, List.sum_nil, add_zero]
    · rw [if_neg hb, if_neg hb, List.filter_cons_of_neg (by simp [hb])]
      have hmem : k ∈ (b :: items).map key ↔ k ∈ items.map key := by
        rw [List.map_cons, List.mem_cons]
        exact or_iff_right (Ne.symm hb)
      simp only [hmem]

theorem find?_tally (items : List β) (k : κ) :
    (tally key weight items).find? k =
      if k ∈ items.map key then
        some (k, ((items.filter fun b => decide (key b = k)).map weight).sum)
      else none := by
  rw [tally, find?_foldl_add]
  simp only [Tally.total, Table.find?_empty, Option.map_none, Option.getD_none, zero_add]

/-- Each key of the items, with the total of its items. -/
theorem mem_tally {items : List β} {entry : κ × M} :
    entry ∈ (tally key weight items).rows ↔
      entry.1 ∈ items.map key ∧
        entry.2 = ((items.filter fun b => decide (key b = entry.1)).map weight).sum := by
  have hrow : entry ∈ (tally key weight items).rows ↔
      (tally key weight items).find? entry.1 = some entry := by
    rw [Table.find?_eq_some]
    exact (and_iff_left rfl).symm
  rw [hrow, find?_tally]
  by_cases hk : entry.1 ∈ items.map key
  · rw [if_pos hk, Option.some.injEq, Prod.ext_iff]
    exact ⟨fun h => ⟨hk, h.2.symm⟩, fun h => ⟨rfl, h.2.symm⟩⟩
  · rw [if_neg hk]
    exact ⟨fun h => absurd h.symm (Option.some_ne_none entry), fun h => absurd h.1 hk⟩

end Fold

end Cfscan.Lib
