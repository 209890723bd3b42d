import Cfscan.Lib.Utf8

/-!
# Queries as `application/x-www-form-urlencoded`

`serialize` writes pairs as a query, and `parse` reads the pairs of a query; what it cannot read it
leaves out. `parse_serialize`: it reads what was written. All of it is about bytes: the separators
are bytes that `escape` does not leave in a name or a value.

A space is written as a plus sign and read back from either form. What `parse` makes of a query that
`serialize` did not write is part of the definition and of no theorem.
-/

set_option autoImplicit false

namespace Cfscan.Lib.FormQuery

open Utf8 (Bytes cut)

/-! ## Escapes

The set of bytes that stand for themselves is that of form encoding, not of URLs in general:
a tilde is escaped and an asterisk is not. -/

/-- Letters, digits, `*`, `-`, `.` and `_` stand for themselves. -/
def unreserved (b : UInt8) : Bool :=
  decide (48 ≤ b ∧ b ≤ 57) || decide (65 ≤ b ∧ b ≤ 90) || decide (97 ≤ b ∧ b ≤ 122) ||
    decide (b ∈ [42, 45, 46, 95])

def upperHex (n : UInt8) : UInt8 := if n < 10 then 48 + n else 55 + n

/-- A space is `+`, and any other byte `%` with two digits. -/
def escapeByte (b : UInt8) : Bytes :=
  if unreserved b then [b]
  else if b = 32 then [43]
  else [37, upperHex (b / 16), upperHex (b % 16)]

def escape (s : Bytes) : Bytes := s.flatMap escapeByte

def unhex (b : UInt8) : Option UInt8 :=
  if 48 ≤ b ∧ b ≤ 57 then some (b - 48)
  else if 97 ≤ b ∧ b ≤ 102 then some (b - 87)
  else if 65 ≤ b ∧ b ≤ 70 then some (b - 55)
  else none

def unescape : Bytes → Option Bytes
  | [] => some []
  | b :: s =>
    if b = 37 then
      match s with
      | high :: low :: rest => do
        let h ← unhex high
        let l ← unhex low
        let decoded ← unescape rest
        pure ((16 * h + l) :: decoded)
      | _ => none
    else (unescape s).map ((if b = 43 then 32 else b) :: ·)

/-! ## Pairs -/

abbrev Pair := Bytes × Bytes

/-- Between two `&`: a name, `=` and a value. Neither nothing nor a `;` is read. -/
def parsePair (s : Bytes) : Option Pair :=
  if 59 ∈ s ∨ s = [] then none
  else do
    let name ← unescape (cut 61 s).1
    let value ← unescape (cut 61 s).2.1
    pure (name, value)

def parse (query : Bytes) : List Pair := (query.splitOn 38).filterMap parsePair

def serializePair (pair : Pair) : Bytes := escape pair.1 ++ 61 :: escape pair.2

def serialize (pairs : List Pair) : Bytes := List.intercalate [38] (pairs.map serializePair)

/-- The first value of a name, or nothing. -/
def get (pairs : List Pair) (name : Bytes) : Bytes :=
  ((pairs.find? fun pair => pair.1 == name).map Prod.snd).getD []

/-- The value of a name is set: its first pair is rewritten, and the others go. -/
def set (pairs : List Pair) (name value : Bytes) : List Pair :=
  if pairs.any fun pair => pair.1 == name then
    (pairs.takeWhile fun pair => pair.1 != name) ++ (name, value) ::
      ((pairs.dropWhile fun pair => pair.1 != name).tail.filter fun pair => pair.1 != name)
  else pairs ++ [(name, value)]

/-! ## One byte -/

theorem upperHex_lt {n : Nat} (h : n < 16) :
    unhex (upperHex (UInt8.ofNat n)) = some (UInt8.ofNat n) ∧
      unreserved (upperHex (UInt8.ofNat n)) = true := by
  revert n
  decide

theorem unhex_upperHex {n : UInt8} (h : n < 16) : unhex (upperHex n) = some n := by
  have hn := (upperHex_lt (UInt8.lt_iff_toNat_lt.mp h)).1
  rwa [UInt8.ofNat_toNat] at hn

theorem unreserved_upperHex {n : UInt8} (h : n < 16) : unreserved (upperHex n) = true := by
  have hn := (upperHex_lt (UInt8.lt_iff_toNat_lt.mp h)).2
  rwa [UInt8.ofNat_toNat] at hn

theorem high_lt (b : UInt8) : b / 16 < 16 := by
  rw [UInt8.lt_iff_toNat_lt, UInt8.toNat_div]
  have hb := b.toNat_lt
  change b.toNat / 16 < 16
  omega

theorem low_lt (b : UInt8) : b % 16 < 16 := by
  rw [UInt8.lt_iff_toNat_lt, UInt8.toNat_mod]
  exact Nat.mod_lt _ (by decide)

theorem high_low (b : UInt8) : 16 * (b / 16) + b % 16 = b := by
  apply UInt8.toNat_inj.mp
  have hb := b.toNat_lt
  rw [UInt8.toNat_add, UInt8.toNat_mul, UInt8.toNat_div, UInt8.toNat_mod]
  change (16 * (b.toNat / 16) % 256 + b.toNat % 16) % 256 = b.toNat
  omega

theorem unescape_plain {b : UInt8} (h : b ≠ 37) (s : Bytes) :
    unescape (b :: s) = (unescape s).map ((if b = 43 then 32 else b) :: ·) := by
  cases s with
  | nil => simp [unescape, h]
  | cons c s => cases s <;> simp [unescape, h]

theorem unescape_escapeByte (b : UInt8) (s : Bytes) :
    unescape (escapeByte b ++ s) = (unescape s).map (b :: ·) := by
  unfold escapeByte
  split
  · rename_i hb
    have hne : b ≠ 37 ∧ b ≠ 43 := by
      constructor
      · rintro rfl
        exact absurd hb (by decide)
      · rintro rfl
        exact absurd hb (by decide)
    rw [List.singleton_append, unescape_plain hne.1, if_neg hne.2]
  split
  · rename_i hspace
    subst hspace
    rw [List.singleton_append, unescape_plain (by decide), if_pos rfl]
  · simp only [List.cons_append, List.nil_append, unescape, if_true, unhex_upperHex (high_lt b),
      unhex_upperHex (low_lt b), Option.bind_eq_bind, Option.bind_some, high_low]
    cases unescape s <;> rfl

/-- A byte that is written as an escape is in no escaped text. -/
theorem notMem_escape {sep : UInt8} (hsep : unreserved sep = false) (hplus : sep ≠ 43)
    (hpercent : sep ≠ 37) (s : Bytes) : sep ∉ escape s := by
  intro hmem
  obtain ⟨b, -, hb⟩ := List.mem_flatMap.mp hmem
  have hhex : ∀ n : UInt8, n < 16 → sep ≠ upperHex n := by
    rintro n hn rfl
    rw [unreserved_upperHex hn] at hsep
    cases hsep
  unfold escapeByte at hb
  split at hb
  · rename_i hreserved
    rw [List.mem_singleton.mp hb, hreserved] at hsep
    cases hsep
  split at hb
  · exact hplus (List.mem_singleton.mp hb)
  · simp only [List.mem_cons, List.not_mem_nil, or_false] at hb
    rcases hb with h | h | h
    · exact hpercent h
    · exact hhex _ (high_lt b) h
    · exact hhex _ (low_lt b) h

/-! ## What was written is read

The separators do not occur in an escaped text, so a query falls apart into the pairs it was
made of, and each of them into its name and its value. -/

theorem unescape_escape (s : Bytes) : unescape (escape s) = some s := by
  induction s with
  | nil => rfl
  | cons b s ih =>
    rw [escape, List.flatMap_cons, unescape_escapeByte]
    change (unescape (escape s)).map (b :: ·) = _
    rw [ih]
    rfl

theorem parsePair_serializePair (pair : Pair) : parsePair (serializePair pair) = some pair := by
  have hsemicolon : ∀ s, (59 : UInt8) ∉ escape s :=
    notMem_escape (by decide) (by decide) (by decide)
  have hequals : ∀ s, (61 : UInt8) ∉ escape s :=
    notMem_escape (by decide) (by decide) (by decide)
  have hread : ¬ ((59 : UInt8) ∈ serializePair pair ∨ serializePair pair = []) := by
    simp [serializePair, hsemicolon]
  rw [parsePair, if_neg hread, serializePair, Utf8.cut_append (hequals _)]
  simp [unescape_escape]

theorem parse_serialize (pairs : List Pair) : parse (serialize pairs) = pairs := by
  unfold parse serialize
  cases pairs with
  | nil => rfl
  | cons pair pairs =>
    have hamp : ∀ s ∈ (pair :: pairs).map serializePair, (38 : UInt8) ∉ s := by
      intro s hs
      obtain ⟨p, -, rfl⟩ := List.mem_map.mp hs
      have hescape : ∀ s, (38 : UInt8) ∉ escape s :=
        notMem_escape (by decide) (by decide) (by decide)
      simp [serializePair, hescape]
    rw [List.splitOn_intercalate 38 hamp (by simp), List.filterMap_map]
    have hall : (parsePair ∘ serializePair) = some := funext parsePair_serializePair
    rw [hall, List.filterMap_some]

/-! ## Names that are set once

`set` replaces a value where the name is there already. Different names, set one after the
other, are appended as they come. -/

theorem set_new {pairs : List Pair} {name : Bytes} (h : name ∉ pairs.map Prod.fst)
    (value : Bytes) : set pairs name value = pairs ++ [(name, value)] := by
  unfold set
  rw [if_neg]
  simp only [List.any_eq_true, beq_iff_eq, not_exists, not_and]
  intro pair hpair heq
  exact h (heq ▸ List.mem_map_of_mem hpair)

/-- Pairs of different names are set one after another as they stand. -/
theorem foldl_set (pairs before : List Pair) (h : ((before ++ pairs).map Prod.fst).Nodup) :
    pairs.foldl (fun params pair => set params pair.1 pair.2) before = before ++ pairs := by
  induction pairs generalizing before with
  | nil => simp
  | cons pair pairs ih =>
    have hnew : pair.1 ∉ before.map Prod.fst := by
      rw [List.map_append, List.map_cons, List.nodup_append] at h
      exact fun hmem => h.2.2 _ hmem _ List.mem_cons_self rfl
    rw [List.foldl_cons, set_new hnew, ih]
    · simp
    · simpa using h

end Cfscan.Lib.FormQuery
