import Mathlib.Data.List.Basic
import Mathlib.Data.List.Range

/-!
# Numbered placeholders

A query text holds `$1`, `$2`, … where the server puts its arguments. `placeholders` reads their
numbers off a text, in order; what stands between quotes is text to the server, whatever it holds.

A piece of text is `Apart` when what it holds does not depend on what comes behind it, as long as
that does not go on with a digit. Pieces that are apart are put together piece by piece.

Quoted text is skipped by counting quotes, as a server does that knows no other way to quote.
Comments and dollar quotes are not recognised.
-/

set_option autoImplicit false

namespace Cfscan.Lib

/-- The number at the front of a text. -/
def number (l : List Char) : Option Nat :=
  match l.takeWhile Char.isDigit with
  | [] => none
  | digits => some (Nat.ofDigitChars 10 digits 0)

def placeholdersFrom : Bool → List Char → List Nat
  | _, [] => []
  | quoted, c :: rest =>
    if c = '\'' then placeholdersFrom (!quoted) rest
    else if c = '$' ∧ quoted = false then
      (number rest).toList ++ placeholdersFrom quoted rest
    else placeholdersFrom quoted rest

def placeholders (text : String) : List Nat := placeholdersFrom false text.toList

/-! ## Pieces

Whether two texts can be read one after the other depends on the end of the first: a number
must not go on, and a quote must not be open. `plain` is the decidable case, in which there
is nothing to read at all. -/

/-- The text does not go on a number. -/
def Separate (l : List Char) : Prop := ∀ c ∈ l.head?, c.isDigit = false

/-- No placeholder can begin in the text, and its quotes are closed. -/
def plain (l : List Char) : Bool :=
  l.all (fun c => decide (c ≠ '$')) && decide (l.count '\'' % 2 = 0)

def Apart (l : List Char) : Prop :=
  ∀ rest, Separate rest →
    placeholdersFrom false (l ++ rest) = placeholdersFrom false l ++ placeholdersFrom false rest

section Pieces

variable {a b l : List Char}

theorem Separate.append (ha : Separate a) (hb : Separate b) : Separate (a ++ b) := by
  cases a with
  | nil => exact hb
  | cons c a => exact ha

theorem Separate.append_of_ne_nil (ha : Separate a) (hne : a ≠ []) (b : List Char) :
    Separate (a ++ b) := by
  cases a with
  | nil => exact absurd rfl hne
  | cons c a => exact ha

/-- Without a placeholder, only the quotes count. -/
theorem placeholdersFrom_append (h : '$' ∉ a) (quoted : Bool) (rest : List Char) :
    placeholdersFrom quoted (a ++ rest) =
      placeholdersFrom (quoted ^^ decide (a.count '\'' % 2 = 1)) rest := by
  induction a generalizing quoted with
  | nil => simp
  | cons c a ih =>
    rw [List.mem_cons, not_or] at h
    rw [List.cons_append, placeholdersFrom]
    by_cases hquote : c = '\''
    · rw [if_pos hquote, ih h.2, hquote, List.count_cons_self]
      have hflip : decide ((a.count '\'' + 1) % 2 = 1) = !decide (a.count '\'' % 2 = 1) := by
        rw [← decide_not]
        exact decide_eq_decide.2 (by omega)
      rw [hflip, Bool.not_xor, Bool.xor_not]
    · rw [if_neg hquote, if_neg fun hc => h.1 hc.1.symm, ih h.2,
        List.count_cons_of_ne hquote]

theorem plain_iff : plain l = true ↔ '$' ∉ l ∧ l.count '\'' % 2 = 0 := by
  rw [plain, Bool.and_eq_true, List.all_eq_true, decide_eq_true_iff]
  refine and_congr_left fun _ => ?_
  simp only [decide_eq_true_eq]
  exact ⟨fun h hmem => h '$' hmem rfl, fun h c hc heq => h (heq ▸ hc)⟩

/-- A text given by its characters. -/
theorem plain_of_eq {text : String} (h : text = String.ofList l) (hplain : plain l = true) :
    plain text.toList = true := by
  rwa [h, String.toList_ofList]

theorem notMem_of_eq {text : String} {c : Char} (h : text = String.ofList l) (hc : c ∉ l) :
    c ∉ text.toList := by
  rwa [h, String.toList_ofList]

theorem separate_of_all (h : l.head?.all (fun c => !c.isDigit) = true) : Separate l := by
  intro c hc
  rw [Option.mem_def.1 hc] at h
  simpa using h

/-- A text that begins with no digit, whatever follows it. -/
theorem separate_of_eq {text : String} {c : Char} (h : text = String.ofList (c :: l))
    (hc : c.isDigit = false) (rest : List Char) : Separate (text.toList ++ rest) := by
  rw [h, String.toList_ofList]
  intro d hd
  cases hd
  exact hc

/-- A plain text holds nothing and does not change what comes behind it. -/
theorem plain_append (h : plain a = true) (rest : List Char) :
    placeholdersFrom false (a ++ rest) = placeholdersFrom false rest := by
  obtain ⟨hnone, hquotes⟩ := plain_iff.1 h
  rw [placeholdersFrom_append hnone]
  simp [hquotes]

theorem placeholdersFrom_plain (h : plain a = true) : placeholdersFrom false a = [] := by
  have happend := plain_append h []
  rwa [List.append_nil] at happend

theorem plain_append_plain (ha : plain a = true) (hb : plain b = true) :
    plain (a ++ b) = true := by
  obtain ⟨hnone, hquotes⟩ := plain_iff.1 ha
  obtain ⟨hnone', hquotes'⟩ := plain_iff.1 hb
  refine plain_iff.2 ⟨fun hmem => (List.mem_append.1 hmem).elim hnone hnone', ?_⟩
  rw [List.count_append]
  omega

theorem Apart.of_plain (h : plain a = true) : Apart a := fun rest _ => by
  rw [plain_append h, placeholdersFrom_plain h, List.nil_append]

theorem Apart.append (ha : Apart a) (hb : Apart b) (hsep : Separate b) : Apart (a ++ b) := by
  intro rest hrest
  rw [List.append_assoc, ha _ (hsep.append hrest), hb rest hrest, ha b hsep, List.append_assoc]

/-- Nothing in front of it is taken for a digit. -/
theorem Apart.plain_append (ha : plain a = true) (hb : Apart b) : Apart (a ++ b) := by
  intro rest hrest
  rw [List.append_assoc, Lib.plain_append ha, Lib.plain_append ha, hb rest hrest]

theorem number_toDigits (n : Nat) (hsep : Separate l) :
    number (Nat.toDigits 10 n ++ l) = some n := by
  have hdigits : ∀ c ∈ Nat.toDigits 10 n, c.isDigit = true := fun c hc =>
    Nat.isDigit_of_mem_toDigits (by decide) (by decide) hc
  have hrest : l.takeWhile Char.isDigit = [] := by
    cases l with
    | nil => rfl
    | cons c l => rw [List.takeWhile_cons, hsep c rfl]; rfl
  have htake : (Nat.toDigits 10 n ++ l).takeWhile Char.isDigit = Nat.toDigits 10 n := by
    rw [List.takeWhile_append_of_pos hdigits, hrest, List.append_nil]
  rw [number, htake]
  split
  next hnil => exact absurd hnil Nat.toDigits_ne_nil
  next => rw [Nat.ofDigitChars_ten_toDigits]

theorem plain_toDigits (n : Nat) : plain (Nat.toDigits 10 n) = true := by
  have hdigits : ∀ c ∈ Nat.toDigits 10 n, c.isDigit = true := fun c hc =>
    Nat.isDigit_of_mem_toDigits (by decide) (by decide) hc
  refine plain_iff.2 ⟨fun hmem => ?_, ?_⟩
  · exact absurd (hdigits _ hmem) (by decide)
  · rw [List.count_eq_zero.2 fun hmem => absurd (hdigits _ hmem) (by decide)]

theorem placeholdersFrom_dollar (n : Nat) (hsep : Separate l) :
    placeholdersFrom false ('$' :: Nat.toDigits 10 n ++ l) = n :: placeholdersFrom false l := by
  rw [List.cons_append, placeholdersFrom, if_neg (by decide), if_pos ⟨rfl, rfl⟩,
    number_toDigits n hsep, plain_append (plain_toDigits n)]
  rfl

theorem placeholdersFrom_one (n : Nat) :
    placeholdersFrom false ('$' :: Nat.toDigits 10 n) = [n] := by
  have hone := placeholdersFrom_dollar (l := []) n fun c hc => by cases hc
  rwa [List.append_nil] at hone

theorem Apart.dollar (n : Nat) : Apart ('$' :: Nat.toDigits 10 n) := fun rest hrest => by
  rw [placeholdersFrom_dollar n hrest, placeholdersFrom_one]
  rfl

/-- Parts joined by a plain separator. -/
theorem intercalate_apart {sep : List Char} (hplain : plain sep = true) (hne : sep ≠ [])
    (hsep : Separate sep) {parts : List (List Char)} (h : ∀ part ∈ parts, Apart part) :
    Apart (sep.intercalate parts) ∧
      placeholdersFrom false (sep.intercalate parts) =
        parts.flatMap (placeholdersFrom false) := by
  induction parts with
  | nil => exact ⟨Apart.of_plain rfl, rfl⟩
  | cons part parts ih =>
    obtain ⟨hpart, hparts⟩ := List.forall_mem_cons.1 h
    obtain ⟨hapart, hnumbers⟩ := ih hparts
    cases parts with
    | nil =>
      rw [List.intercalate_singleton, List.flatMap_singleton]
      exact ⟨hpart, rfl⟩
    | cons next parts =>
      have hrest : Separate (sep ++ sep.intercalate (next :: parts)) :=
        hsep.append_of_ne_nil hne _
      rw [List.intercalate_cons_cons, List.append_assoc, List.flatMap_cons]
      refine ⟨hpart.append (hapart.plain_append hplain) hrest, ?_⟩
      rw [hpart _ hrest, plain_append hplain, hnumbers]

end Pieces

end Cfscan.Lib
