import Cfscan.Lib.Loop
import Mathlib.Data.List.Basic
import Mathlib.Data.List.Perm.Basic
import Mathlib.Data.List.Nodup

/-!
# Round robin, plain and by a pattern

Two ways to merge queues. `serve` goes round the groups and takes one element of each that still
has one, until a round adds nothing; what it returns is the columns of the groups, one after the
other (`serve_total`). `weighted` goes round a pattern of keys, each turn serving the queue of its
key, until a budget is reached or a whole pattern adds nothing.

For the second, `Progress` says where the run stands after any number of slots: a queue has been
served exactly as often as its key has come up, or to its end. The shares follow by counting.

Both are defined as loops with fuel and are shown to end; the shares and the order of service are
then read off what they return. `AtHead` is the invariant of the second loop: a budget that is not
used up means that the last pattern was a whole one.
-/

set_option autoImplicit false

namespace Cfscan.Lib.RoundRobin

variable {α : Type}

/-! ## The plain round robin

A round is a column: the elements at one position of all the groups that are long enough.
The loop leaves at the first empty column, and no later one has an element. -/

/-- One group in one round: its element of that round, if it has one. -/
def serveGroup (round : Nat) (acc : List α × Bool) (group : List α) : List α × Bool :=
  match group[round]? with
  | some item => (acc.1 ++ [item], true)
  | none => acc

def serveTurn (groups : List (List α)) (s : Nat × List α) : Turn (Nat × List α) (List α) :=
  let (out, added) := groups.foldl (serveGroup s.1) (s.2, false)
  if added then .again (s.1 + 1, out) else .leave out

def serve (groups : List (List α)) (fuel : Nat) : Option (List α) :=
  loop (serveTurn groups) fuel (0, [])

/-- What the groups have to offer in a round. -/
def column (groups : List (List α)) (round : Nat) : List α := groups.filterMap (·[round]?)

/-- The first `n` rounds. -/
def columns (groups : List (List α)) (n : Nat) : List α := (List.range n).flatMap (column groups)

/-- The number of rounds that have something to offer. -/
def depth (groups : List (List α)) : Nat := groups.foldr (fun group d => max group.length d) 0

theorem length_le_depth {groups : List (List α)} {group : List α} (h : group ∈ groups) :
    group.length ≤ depth groups := by
  induction groups with
  | nil => simp at h
  | cons g gs ih =>
    rcases List.mem_cons.1 h with rfl | h
    · exact Nat.le_max_left _ _
    · exact Nat.le_trans (ih h) (Nat.le_max_right _ _)

theorem depth_le {groups : List (List α)} {n : Nat} (h : ∀ group ∈ groups, group.length ≤ n) :
    depth groups ≤ n := by
  induction groups with
  | nil => exact Nat.zero_le _
  | cons g gs ih =>
    exact Nat.max_le.2 ⟨h g (by simp), ih fun group hg => h group (List.mem_cons_of_mem _ hg)⟩

theorem mem_column {groups : List (List α)} {round : Nat} {item : α} :
    item ∈ column groups round ↔ ∃ group ∈ groups, group[round]? = some item := by
  simp [column]

/-- The rounds with nothing to offer are those past the longest group. -/
theorem column_eq_nil_iff {groups : List (List α)} {round : Nat} :
    column groups round = [] ↔ depth groups ≤ round := by
  rw [column, List.filterMap_eq_nil_iff]
  constructor
  · intro hnone
    exact depth_le fun group hgroup => List.getElem?_eq_none_iff.1 (hnone group hgroup)
  · intro hdepth group hgroup
    exact List.getElem?_eq_none_iff.2 (Nat.le_trans (length_le_depth hgroup) hdepth)

theorem columns_succ (groups : List (List α)) (n : Nat) :
    columns groups (n + 1) = columns groups n ++ column groups n := by
  simp [columns, List.range_succ]

theorem foldl_serveGroup (groups : List (List α)) (round : Nat) (out : List α) (added : Bool) :
    groups.foldl (serveGroup round) (out, added) =
      (out ++ column groups round, added || !(column groups round).isEmpty) := by
  induction groups generalizing out added with
  | nil => simp [column]
  | cons g gs ih =>
    rw [List.foldl_cons, serveGroup]
    cases hitem : g[round]? with
    | none => simp [ih, column, hitem]
    | some item => simp [ih, column, hitem]

/-- One turn of the loop: past the last column it leaves, before it takes the next one. -/
theorem serveTurn_eq (groups : List (List α)) (round : Nat) (out : List α) :
    serveTurn groups (round, out) =
      if depth groups ≤ round then .leave out
      else .again (round + 1, out ++ column groups round) := by
  simp only [serveTurn, foldl_serveGroup, Bool.false_or]
  by_cases hend : depth groups ≤ round
  · simp [hend, column_eq_nil_iff.2 hend]
  · have hsome : column groups round ≠ [] := mt column_eq_nil_iff.1 hend
    simp [hend, hsome]

/-- **The loop returns the columns in order**, within one turn more than there are columns. -/
theorem serve_total (groups : List (List α)) {fuel : Nat} (hfuel : depth groups < fuel) :
    serve groups fuel = some (columns groups (depth groups)) := by
  obtain ⟨result, rfl, hrun⟩ := loop_total (serveTurn groups)
    (fun s => s.1 ≤ depth groups ∧ s.2 = columns groups s.1)
    (fun result => result = columns groups (depth groups)) (fun s => depth groups - s.1)
    (fun s result hs hturn => by
      rw [serveTurn_eq] at hturn
      split at hturn
      next hend =>
        cases hturn
        rw [hs.2, Nat.le_antisymm hs.1 hend]
      next => cases hturn)
    (fun s s' hs hturn => by
      rw [serveTurn_eq] at hturn
      split at hturn
      next => cases hturn
      next hmore =>
        cases hturn
        refine ⟨⟨by simp only; omega, ?_⟩, by simp only; omega⟩
        rw [columns_succ, hs.2])
    (s := (0, [])) ⟨Nat.zero_le _, rfl⟩
  exact hrun fuel (by simpa using hfuel)

theorem flatMap_getElem?_range (group : List α) {n : Nat} (h : group.length ≤ n) :
    (List.range n).flatMap (fun round => group[round]?.toList) = group := by
  induction n generalizing group with
  | zero => simp_all
  | succ n ih =>
    cases group with
    | nil => simp
    | cons a group =>
      rw [List.range_succ_eq_map, List.flatMap_cons, List.flatMap_map]
      simpa using ih group (by simpa using h)

/-- Nothing is lost and nothing is served twice. -/
theorem columns_perm (groups : List (List α)) {n : Nat} (h : depth groups ≤ n) :
    (columns groups n).Perm groups.flatten := by
  induction groups with
  | nil => simp [columns, column]
  | cons g gs ih =>
    have hcolumn : column (g :: gs) = fun round => g[round]?.toList ++ column gs round := by
      funext round
      cases hitem : g[round]? <;> simp [column, hitem]
    rw [columns, hcolumn, List.flatten_cons]
    refine (List.flatMap_append_perm _ _ _).symm.trans ?_
    rw [flatMap_getElem?_range g (Nat.le_trans (Nat.le_max_left _ _) h)]
    exact (ih (Nat.le_trans (Nat.le_max_right _ _) h)).append_left g

/-- **Fairness.** Of the elements taken from the front, none belongs to a later round than an
element left out. -/
theorem mem_take_of_later {groups : List (List α)} {n k r : Nat} {x y : α}
    (hnodup : (columns groups (depth groups)).Nodup) (hr : r < k)
    (hx : x ∈ column groups k) (hy : y ∈ column groups r)
    (htaken : x ∈ (columns groups (depth groups)).take n) :
    y ∈ (columns groups (depth groups)).take n := by
  have hk : k < depth groups := by
    obtain ⟨group, hg, hitem⟩ := mem_column.1 hx
    have hlt := (List.getElem?_eq_some_iff.1 hitem).1
    exact Nat.lt_of_lt_of_le hlt (length_le_depth hg)
  obtain ⟨later, hsplit, hlater⟩ : ∃ later, columns groups (depth groups) =
      columns groups k ++ later ∧ x ∈ later := by
    refine ⟨(List.range' k (depth groups - k)).flatMap (column groups), ?_, ?_⟩
    · have happend := List.range'_append_1 (s := 0) (m := k) (n := depth groups - k)
      rw [Nat.zero_add, Nat.add_sub_cancel' (Nat.le_of_lt hk)] at happend
      rw [columns, columns, List.range_eq_range', List.range_eq_range', ← happend,
        List.flatMap_append]
    · exact List.mem_flatMap.2 ⟨k, by simp [List.mem_range'_1]; omega, hx⟩
  have hearly : y ∈ columns groups k := List.mem_flatMap.2 ⟨r, List.mem_range.2 hr, hy⟩
  rw [hsplit] at hnodup htaken ⊢
  rw [List.take_append, List.mem_append] at htaken ⊢
  rcases htaken with htaken | htaken
  · exact absurd hlater (List.disjoint_of_nodup_append hnodup (List.mem_of_mem_take htaken))
  · have hlong : (columns groups k).length ≤ n := by
      by_contra hshort
      rw [Nat.sub_eq_zero_of_le (by omega)] at htaken
      simp at htaken
    exact .inl (by rwa [List.take_of_length_le hlong])

/-! ## Round robin by a pattern

`Progress` counts, for each key, the slots of the pattern that have gone by; a queue has
been served that often or is used up. It is kept slot by slot, and the budget may end it
inside a pass. -/

variable {κ : Type} [DecidableEq κ]

/-- How far each queue has been served, and what has been served. -/
structure Cursor (κ α : Type) where
  positions : κ → Nat
  result : List α

def Cursor.serve (s : Cursor κ α) (k : κ) (item : α) : Cursor κ α where
  positions := Function.update s.positions k (s.positions k + 1)
  result := s.result ++ [item]

/-- One pass over the pattern: an exhausted queue is skipped, and the pass stops at the budget.
The flag says whether anything has been served. -/
def pass (queues : κ → List α) (budget : Nat) :
    List κ → Cursor κ α → Bool → Cursor κ α × Bool
  | [], s, added => (s, added)
  | k :: slots, s, added =>
      match (queues k)[s.positions k]? with
      | none => pass queues budget slots s added
      | some item =>
          if budget ≤ (s.serve k item).result.length then (s.serve k item, true)
          else pass queues budget slots (s.serve k item) true

def weightedTurn (pattern : List κ) (queues : κ → List α) (budget : Nat) (s : Cursor κ α) :
    Turn (Cursor κ α) (List α) :=
  if budget ≤ s.result.length then .leave s.result
  else
    let (s, added) := pass queues budget pattern s false
    if added then .again s else .leave s.result

def weighted (pattern : List κ) (queues : κ → List α) (budget fuel : Nat) : Option (List α) :=
  loop (weightedTurn pattern queues budget) fuel ⟨fun _ => 0, []⟩

/-- Adding to one of the lists of a concatenation. -/
theorem flatMap_update_perm {keys : List κ} (hkeys : keys.Nodup) {k : κ} (hk : k ∈ keys)
    {lists : κ → List α} {list : List α} (extra : List α) (hlist : list.Perm (extra ++ lists k)) :
    (keys.flatMap (Function.update lists k list)).Perm (extra ++ keys.flatMap lists) := by
  obtain ⟨before, after, rfl⟩ := List.append_of_mem hk
  have hother : ∀ l : List κ, k ∉ l → l.flatMap (Function.update lists k list) = l.flatMap lists :=
    fun l hl => List.flatMap_congr fun k' hk' => by
      rw [Function.update_of_ne (by rintro rfl; exact hl hk')]
  have hsplit := List.nodup_append.1 hkeys
  have hbefore : k ∉ before := fun h => hsplit.2.2 k h k (by simp) rfl
  have hafter : k ∉ after := (List.nodup_cons.1 hsplit.2.1).1
  simp only [List.flatMap_append, List.flatMap_cons, hother before hbefore, hother after hafter,
    Function.update_self]
  have hput : (before.flatMap lists ++ (list ++ after.flatMap lists)).Perm
      (before.flatMap lists ++ (extra ++ (lists k ++ after.flatMap lists))) := by
    rw [← List.append_assoc extra]
    exact (hlist.append_right _).append_left _
  refine hput.trans ?_
  rw [← List.append_assoc, ← List.append_assoc extra]
  exact List.perm_append_comm.append_right _

/-- Where a run stands after `rounds` passes and the slots `done` of the next one: every queue has
been served as often as its key came up, unless it ran out before. -/
structure Progress (keys pattern : List κ) (queues : κ → List α) (rounds : Nat) (done : List κ)
    (s : Cursor κ α) : Prop where
  positions : ∀ k, s.positions k =
    min (queues k).length (rounds * pattern.count k + done.count k)
  served : s.result.Perm (keys.flatMap fun k => (queues k).take (s.positions k))
  length_le : s.result.length ≤ rounds * pattern.length + done.length

section Progress

variable {keys pattern : List κ} {queues : κ → List α} {rounds : Nat} {done : List κ}
  {s : Cursor κ α}

theorem Progress.start : Progress keys pattern queues 0 [] ⟨fun _ => 0, []⟩ where
  positions := by simp
  served := by simp
  length_le := Nat.zero_le _

/-- A slot whose queue has run out changes nothing. -/
theorem Progress.skip {k : κ} (h : Progress keys pattern queues rounds done s)
    (hnone : (queues k)[s.positions k]? = none) :
    Progress keys pattern queues rounds (done ++ [k]) s where
  positions := by
    intro k'
    rw [h.positions k', List.count_append]
    by_cases hk : k' = k
    · subst hk
      have hend := List.getElem?_eq_none_iff.1 hnone
      have := h.positions k'
      omega
    · simp [Ne.symm hk]
  served := h.served
  length_le := by have := h.length_le; simp only [List.length_append]; omega

/-- Serving one more element of one queue. -/
theorem flatMap_take_update (hkeys : keys.Nodup) {k : κ} (hk : k ∈ keys) {n : κ → Nat} {item : α}
    (hitem : (queues k)[n k]? = some item) :
    (keys.flatMap fun k' => (queues k').take (Function.update n k (n k + 1) k')).Perm
      (item :: keys.flatMap fun k' => (queues k').take (n k')) := by
  have hupdate : (fun k' => (queues k').take (Function.update n k (n k + 1) k')) =
      Function.update (fun k' => (queues k').take (n k')) k ((queues k).take (n k + 1)) := by
    funext k'
    by_cases hk' : k' = k
    · subst hk'; simp
    · simp [hk']
  rw [hupdate]
  refine flatMap_update_perm hkeys hk [item] ?_
  rw [List.take_add_one, hitem]
  exact List.perm_append_comm

/-- A slot whose queue has an element left serves it. -/
theorem Progress.serve {k : κ} {item : α} (hkeys : keys.Nodup) (hk : k ∈ keys)
    (h : Progress keys pattern queues rounds done s)
    (hitem : (queues k)[s.positions k]? = some item) :
    Progress keys pattern queues rounds (done ++ [k]) (s.serve k item) where
  positions := by
    intro k'
    have hpos := h.positions k'
    rw [Cursor.serve, List.count_append]
    by_cases hkk : k' = k
    · subst hkk
      have hlt := (List.getElem?_eq_some_iff.1 hitem).1
      simp only [Function.update_self, List.count_singleton_self]
      omega
    · simp [Function.update_of_ne hkk, Ne.symm hkk, hpos]
  served := by
    refine (List.perm_append_singleton item s.result).trans ?_
    exact (h.served.cons item).trans (flatMap_take_update hkeys hk hitem).symm
  length_le := by
    have := h.length_le
    simp only [Cursor.serve, List.length_append, List.length_singleton]
    omega

/-- What a pass over the slots does: it goes through them all below the budget, or stops at the
budget after some of the pattern. It serves something unless every queue it met had run out. -/
structure Passed (keys pattern : List κ) (queues : κ → List α) (rounds budget : Nat)
    (slots : List κ) (s s' : Cursor κ α) : Prop where
  grows : s.result.length ≤ s'.result.length
  idle : s'.result.length = s.result.length →
    s' = s ∧ ∀ k ∈ slots, (queues k).length ≤ s.positions k
  stand : (s'.result.length < budget ∧ Progress keys pattern queues rounds pattern s') ∨
    (s'.result.length = budget ∧
      ∃ done, done <+: pattern ∧ Progress keys pattern queues rounds done s')

theorem Progress.pass {budget : Nat} {slots : List κ} (added : Bool) (hkeys : keys.Nodup)
    (hpattern : done ++ slots = pattern) (hsub : ∀ k ∈ pattern, k ∈ keys)
    (h : Progress keys pattern queues rounds done s) (hlt : s.result.length < budget) :
    ∃ s' added', pass queues budget slots s added = (s', added') ∧
      (added' = true ↔ added = true ∨ s.result.length < s'.result.length) ∧
      Passed keys pattern queues rounds budget slots s s' := by
  induction slots generalizing done s added with
  | nil =>
    rw [List.append_nil] at hpattern
    subst hpattern
    exact ⟨s, added, rfl, by simp, Nat.le_refl _, fun _ => ⟨rfl, by simp⟩, .inl ⟨hlt, h⟩⟩
  | cons k slots ih =>
    have hk : k ∈ keys := hsub k (hpattern ▸ by simp)
    have hnext : (done ++ [k]) ++ slots = pattern := by simpa using hpattern
    rw [RoundRobin.pass]
    cases hitem : (queues k)[s.positions k]? with
    | none =>
      obtain ⟨s', added', hpass, hflag, hpassed⟩ := ih added hnext (h.skip hitem) hlt
      refine ⟨s', added', hpass, hflag, hpassed.grows, fun hsame => ?_, hpassed.stand⟩
      obtain ⟨hs, hslots⟩ := hpassed.idle hsame
      exact ⟨hs, by simpa [List.getElem?_eq_none_iff.1 hitem] using hslots⟩
    | some item =>
      have hserve := h.serve hkeys hk hitem
      have hlength : (s.serve k item).result.length = s.result.length + 1 := by
        simp [Cursor.serve]
      dsimp only
      split
      next hfull =>
        refine ⟨_, _, rfl, by simp [hlength], by omega, fun hsame => by omega, ?_⟩
        exact .inr ⟨by omega, done ++ [k], hnext ▸ List.prefix_append _ _, hserve⟩
      next hroom =>
        obtain ⟨s', added', hpass, hflag, hpassed⟩ :=
          ih true hnext hserve (by omega)
        have hgrows := hpassed.grows
        refine ⟨s', added', hpass, ?_, by omega, fun hsame => by omega, hpassed.stand⟩
        exact ⟨fun _ => .inr (by omega), fun _ => hflag.2 (.inl rfl)⟩

/-- The run at the head of the loop. -/
def AtHead (keys pattern : List κ) (queues : κ → List α) (budget : Nat) (s : Cursor κ α) : Prop :=
  s.result.length ≤ budget ∧ ∃ rounds done, done <+: pattern ∧
    Progress keys pattern queues rounds done s ∧ (s.result.length < budget → done = [])

/-- A whole pattern is the start of the next round. -/
theorem Progress.nextRound (h : Progress keys pattern queues rounds pattern s) :
    Progress keys pattern queues (rounds + 1) [] s where
  positions := by
    intro k
    rw [h.positions k, Nat.add_mul, Nat.one_mul, List.count_nil, Nat.add_zero]
  served := h.served
  length_le := by
    have := h.length_le
    rw [Nat.add_mul, Nat.one_mul]
    simpa using this

/-- By the time the budget is reached, or nothing is left, every queue has had its share: its
slots in the whole patterns that fit into the budget. -/
theorem Progress.share {budget : Nat} (h : Progress keys pattern queues rounds done s)
    (hdone : done <+: pattern) (hfull : s.result.length = budget) (k : κ) :
    min (queues k).length (budget / pattern.length * pattern.count k) ≤ s.positions k := by
  have hle := h.length_le
  rw [hfull] at hle
  have hdoneLe := hdone.length_le
  have hslots : budget / pattern.length * pattern.count k ≤
      rounds * pattern.count k + done.count k := by
    rcases Nat.lt_or_ge rounds (budget / pattern.length) with hlt | hge
    · -- the last pass was a whole one
      have hwhole : budget / pattern.length * pattern.length ≤ budget := Nat.div_mul_le_self _ _
      have hmul : (rounds + 1) * pattern.length ≤ budget / pattern.length * pattern.length :=
        Nat.mul_le_mul_right _ hlt
      rw [Nat.add_mul, Nat.one_mul] at hmul
      have hlen : done.length = pattern.length := by omega
      have hround : budget / pattern.length ≤ rounds + 1 :=
        Nat.div_le_of_le_mul (by rw [Nat.mul_comm, Nat.add_mul, Nat.one_mul]; omega)
      rw [hdone.eq_of_length hlen, ← Nat.succ_mul]
      exact Nat.mul_le_mul_right _ hround
    · exact Nat.le_add_right_of_le (Nat.mul_le_mul_right _ hge)
  rw [h.positions k]
  omega

end Progress

/-- What the weighted round robin returns. -/
structure Weighted (keys pattern : List κ) (queues : κ → List α) (budget : Nat)
    (taken : κ → Nat) (result : List α) : Prop where
  served : result.Perm (keys.flatMap fun k => (queues k).take (taken k))
  length : result.length = min budget (keys.flatMap queues).length
  share : ∀ k ∈ keys, min (queues k).length (budget / pattern.length * pattern.count k) ≤ taken k
  taken_le : ∀ k, taken k ≤ (queues k).length

section Weighted

variable {keys pattern : List κ} {queues : κ → List α} {budget : Nat}

omit [DecidableEq κ] in
theorem flatMap_take_sublist (keys : List κ) (queues : κ → List α) (taken : κ → Nat) :
    (keys.flatMap fun k => (queues k).take (taken k)).Sublist (keys.flatMap queues) := by
  induction keys with
  | nil => exact List.Sublist.refl _
  | cons k keys ih => exact (List.take_sublist _ _).append ih

/-- The budget is reached. -/
theorem Weighted.of_full {rounds : Nat} {done : List κ} {s : Cursor κ α}
    (h : Progress keys pattern queues rounds done s) (hdone : done <+: pattern)
    (hfull : s.result.length = budget) :
    Weighted keys pattern queues budget s.positions s.result where
  served := h.served
  length := by
    have hle := (flatMap_take_sublist keys queues s.positions).length_le
    rw [← h.served.length_eq] at hle
    omega
  share := fun k _ => h.share hdone hfull k
  taken_le := fun k => by rw [h.positions k]; exact Nat.min_le_left _ _

/-- Every queue has run out. -/
theorem Weighted.of_idle {rounds : Nat} {done : List κ} {s : Cursor κ α}
    (h : Progress keys pattern queues rounds done s) (hroom : s.result.length ≤ budget)
    (hidle : ∀ k ∈ keys, (queues k).length ≤ s.positions k) :
    Weighted keys pattern queues budget s.positions s.result where
  served := h.served
  length := by
    have hall : (keys.flatMap fun k => (queues k).take (s.positions k)) = keys.flatMap queues :=
      List.flatMap_congr fun k hk => List.take_of_length_le (hidle k hk)
    have hlen := h.served.length_eq
    rw [hall] at hlen
    omega
  share := fun k hk => Nat.le_trans (Nat.min_le_left _ _) (hidle k hk)
  taken_le := fun k => by rw [h.positions k]; exact Nat.min_le_left _ _

/-- Below the budget, the loop's turn is one pass over the pattern. -/
theorem AtHead.pass {s : Cursor κ α} (hkeys : keys.Nodup) (hsub : ∀ k ∈ pattern, k ∈ keys)
    (h : AtHead keys pattern queues budget s) (hroom : ¬ budget ≤ s.result.length) :
    ∃ rounds s' added', Progress keys pattern queues rounds [] s ∧
      RoundRobin.pass queues budget pattern s false = (s', added') ∧
      (added' = true ↔ s.result.length < s'.result.length) ∧
      Passed keys pattern queues rounds budget pattern s s' := by
  obtain ⟨-, rounds, done, -, hprogress, hshort⟩ := h
  obtain rfl := hshort (by omega)
  obtain ⟨s', added', hpass, hflag, hpassed⟩ :=
    hprogress.pass false hkeys (List.nil_append pattern) hsub
      (Nat.lt_of_not_le hroom)
  exact ⟨rounds, s', added', hprogress, hpass, by simpa using hflag, hpassed⟩

/-- **The weighted round robin ends**, within one turn more than its budget, and returns every
queue's share without losing or repeating an element. -/
theorem weighted_total (queues : κ → List α) (budget : Nat) (hkeys : keys.Nodup)
    (hpattern : ∀ k, k ∈ pattern ↔ k ∈ keys) :
    ∃ taken result, (∀ fuel, budget < fuel → weighted pattern queues budget fuel = some result) ∧
      Weighted keys pattern queues budget taken result := by
  have hsub : ∀ k ∈ pattern, k ∈ keys := fun k => (hpattern k).1
  -- the variant is the room that is left: a turn that goes on has served something
  obtain ⟨result, ⟨taken, hresult⟩, hrun⟩ := loop_total
    (weightedTurn pattern queues budget) (AtHead keys pattern queues budget)
    (fun result => ∃ taken, Weighted keys pattern queues budget taken result)
    (fun s => budget - s.result.length)
    (fun s result hs hturn => by
      unfold weightedTurn at hturn
      split at hturn
      next hfull =>
        obtain ⟨hle, rounds, done, hdone, hprogress, -⟩ := hs
        cases hturn
        exact ⟨_, Weighted.of_full hprogress hdone (Nat.le_antisymm hle hfull)⟩
      next hroom =>
        obtain ⟨rounds, s', added', hprogress, hpass, hflag, hpassed⟩ := hs.pass hkeys hsub hroom
        rw [hpass] at hturn
        cases added' with
        | true => cases hturn
        | false =>
          have hgrows := hpassed.grows
          have hstill : ¬ s.result.length < s'.result.length := fun hlt =>
            Bool.noConfusion (hflag.2 hlt)
          obtain ⟨rfl, hidle⟩ := hpassed.idle (by omega)
          cases hturn
          exact ⟨_, Weighted.of_idle hprogress hs.1 fun k hk => hidle k ((hpattern k).2 hk)⟩)
    (fun s s' hs hturn => by
      unfold weightedTurn at hturn
      split at hturn
      next hfull => cases hturn
      next hroom =>
        obtain ⟨rounds, s₁, added', hprogress, hpass, hflag, hpassed⟩ := hs.pass hkeys hsub hroom
        rw [hpass] at hturn
        cases added' with
        | false => cases hturn
        | true =>
          cases hturn
          have hgrows := hflag.1 rfl
          refine ⟨?_, by omega⟩
          rcases hpassed.stand with ⟨hlt, hwhole⟩ | ⟨hfull, done, hdone, hcut⟩
          · exact ⟨Nat.le_of_lt hlt, rounds + 1, [], List.nil_prefix, hwhole.nextRound,
              fun _ => rfl⟩
          · exact ⟨Nat.le_of_eq hfull, rounds, done, hdone, hcut, fun hlt => by omega⟩)
    (s := ⟨fun _ => 0, []⟩) ⟨Nat.zero_le _, 0, [], List.nil_prefix, Progress.start, fun _ => rfl⟩
  exact ⟨taken, result, fun fuel hfuel => hrun fuel (by simpa using hfuel), hresult⟩

end Weighted

end Cfscan.Lib.RoundRobin
