import Cfscan.Lib.FormQuery
import Cfscan.Results.Request

/-!
# Queries of the web client — `web/src/lib/http.ts`

The client writes an object of filters into the query of a request, and the center reads one name at
a time. `queryOf_createQueryString`: whatever texts are in the object, it reads what was sent, the
empty text for what was not.

The statement goes all the way: from the object, through `URLSearchParams` and its escapes, to the
bytes after the `?`, and back through Go's parser of queries to the text of one name. Both halves of
the format are in `Lib.FormQuery`.

## What it does not say

* A number is a whole one below 2^53. `String` prints others in ways that are not modelled, and the
  client sends none.
* An object has each name once, as objects do; the parser would join nothing and read the first.
* The empty text and `undefined` are not told apart. Neither is sent, and both are read as the empty
  text.
-/

set_option autoImplicit false

namespace Cfscan.Web

open Cfscan.Lib
open Utf8 (Bytes)

/-! ## The client

`URLSearchParams.set` on the entries that are neither undefined nor empty, one after the
other. The texts are encoded as UTF-8 before they are escaped. -/

/-- A value in an object of filters; the numbers are whole, and below 2^53, so that `String` prints
all their digits. -/
inductive Value where
  | undefined
  | text (s : String)
  | number (n : Nat)
  | flag (b : Bool)
deriving DecidableEq, Repr

/-- `String(value)`. -/
def Value.string : Value → String
  | .undefined => "undefined"
  | .text s => s
  | .number n => toString n
  | .flag b => if b then "true" else "false"

/-- The entries of an object, in their order. -/
abbrev Values := List (String × Value)

def setParam (params : List FormQuery.Pair) (entry : String × Value) : List FormQuery.Pair :=
  if entry.2 ≠ .undefined ∧ entry.2 ≠ .text "" then
    FormQuery.set params (Utf8.text entry.1) (Utf8.text entry.2.string)
  else params

/-- The query with its `?`, a text in ASCII. -/
def createQueryString (values : Values) : Bytes :=
  let text := FormQuery.serialize (values.foldl setParam [])
  if text ≠ [] then 63 :: text else []

/-! ## The center -/

/-- `r.URL.Query().Get(name)` for the target of a request. -/
def queryOf (target : Bytes) (name : String) : String :=
  String.ofList (Utf8.runes
    (FormQuery.get (FormQuery.parse (Utf8.cut 63 target).2.1) (Utf8.text name)))

/-! ## What is sent -/

/-- The text a value is sent as, empty where it is not sent. -/
def Value.sent (value : Value) : String := if value = .undefined then "" else value.string

/-- The text sent under a name. -/
def sent (values : Values) (name : String) : String :=
  match values.find? fun entry => entry.1 == name with
  | some entry => entry.2.sent
  | none => ""

theorem sent_nil (name : String) : sent [] name = "" := rfl

theorem sent_cons_self (values : Values) (name : String) (value : Value) :
    sent ((name, value) :: values) name = value.sent := by
  rw [sent, List.find?_cons_of_pos (by simp)]

theorem sent_cons_of_ne {key name : String} (h : key ≠ name) (values : Values) (value : Value) :
    sent ((key, value) :: values) name = sent values name := by
  rw [sent, List.find?_cons_of_neg (by simpa using h)]
  rfl

@[simp] theorem sent_text (s : String) : (Value.text s).sent = s := rfl

@[simp] theorem sent_number (n : Nat) : (Value.number n).sent = toString n := rfl

/-- The entries that become parameters. -/
def shown (values : Values) : Values :=
  values.filter fun entry => decide (entry.2 ≠ .undefined ∧ entry.2 ≠ .text "")

def param (entry : String × Value) : FormQuery.Pair :=
  (Utf8.text entry.1, Utf8.text entry.2.string)

theorem text_injective : Function.Injective Utf8.text := by
  intro s t h
  rw [← String.toList_inj, ← Utf8.runes_text s, ← Utf8.runes_text t, h]

section Sent

variable {values : Values}

theorem shown_cons_of_pos {entry : String × Value}
    (h : entry.2 ≠ .undefined ∧ entry.2 ≠ .text "") :
    shown (entry :: values) = entry :: shown values := List.filter_cons_of_pos (decide_eq_true h)

theorem shown_cons_of_neg {entry : String × Value}
    (h : ¬ (entry.2 ≠ .undefined ∧ entry.2 ≠ .text "")) :
    shown (entry :: values) = shown values := List.filter_cons_of_neg (by simpa using h)

theorem foldl_setParam (values : Values) (params : List FormQuery.Pair) :
    values.foldl setParam params =
      ((shown values).map param).foldl
        (fun params pair => FormQuery.set params pair.1 pair.2) params := by
  induction values generalizing params with
  | nil => rfl
  | cons entry values ih =>
    rw [List.foldl_cons, ih]
    unfold setParam
    by_cases hshown : entry.2 ≠ .undefined ∧ entry.2 ≠ .text ""
    · rw [if_pos hshown, shown_cons_of_pos hshown]
      rfl
    · rw [if_neg hshown, shown_cons_of_neg hshown]

theorem nodup_params (h : (values.map Prod.fst).Nodup) :
    (((shown values).map param).map Prod.fst).Nodup := by
  have hnames : ((shown values).map Prod.fst).Nodup :=
    h.sublist (List.filter_sublist.map Prod.fst)
  rw [List.map_map]
  have hsame : (Prod.fst ∘ param : String × Value → Bytes) = Utf8.text ∘ Prod.fst := rfl
  rw [hsame, ← List.map_map]
  exact hnames.map text_injective

theorem get_params (h : (values.map Prod.fst).Nodup) (name : String) :
    FormQuery.get ((shown values).map param) (Utf8.text name) = Utf8.text (sent values name) := by
  have hget : ∀ rest : Values, FormQuery.get (rest.map param) (Utf8.text name) =
      ((rest.find? fun entry => entry.1 == name).map fun entry =>
        Utf8.text entry.2.string).getD [] := by
    intro rest
    have hname : (fun pair : FormQuery.Pair => pair.1 == Utf8.text name) ∘ param =
        fun entry : String × Value => entry.1 == name := by
      funext entry
      simp only [Function.comp_apply, param, beq_eq_beq, text_injective.eq_iff]
    rw [FormQuery.get, List.find?_map, hname, Option.map_map]
    rfl
  rw [hget]
  induction values with
  | nil => rfl
  | cons entry values ih =>
    obtain ⟨key, value⟩ := entry
    rw [List.map_cons, List.nodup_cons] at h
    by_cases hkey : key = name
    · subst hkey
      rw [sent_cons_self]
      by_cases hshown : value ≠ .undefined ∧ value ≠ .text ""
      · rw [shown_cons_of_pos hshown, List.find?_cons_of_pos (by simp), Value.sent,
          if_neg hshown.1]
        rfl
      · -- the name is not among the rest
        have hrest : (shown values).find? (fun entry => entry.1 == key) = none := by
          rw [List.find?_eq_none]
          intro entry hentry hsame
          have hmem := List.mem_map_of_mem (f := Prod.fst) (List.mem_of_mem_filter hentry)
          rw [beq_iff_eq.mp hsame] at hmem
          exact h.1 hmem
        rw [shown_cons_of_neg hshown, hrest]
        rw [not_and_or, not_not, not_not] at hshown
        rcases hshown with rfl | rfl <;> rfl
    · rw [sent_cons_of_ne hkey, ← ih h.2]
      by_cases hshown : value ≠ .undefined ∧ value ≠ .text ""
      · rw [shown_cons_of_pos hshown, List.find?_cons_of_neg (by simpa using hkey)]
      · rw [shown_cons_of_neg hshown]

/-- What the center reads is what was sent. -/
theorem queryOf_createQueryString {path : String} (hpath : '?' ∉ path.toList)
    (h : (values.map Prod.fst).Nodup) (name : String) :
    queryOf (Utf8.text path ++ createQueryString values) name = sent values name := by
  have hquery : (Utf8.cut 63 (Utf8.text path ++ createQueryString values)).2.1 =
      FormQuery.serialize ((shown values).map param) := by
    have hmark : (63 : UInt8) ∉ Utf8.text path :=
      fun hmem => hpath ((Utf8.mem_text_iff (by decide) path).mp hmem)
    unfold createQueryString
    dsimp only
    rw [foldl_setParam, FormQuery.foldl_set _ _ (nodup_params h), List.nil_append]
    split
    · rw [Utf8.cut_append hmark]
    · rename_i hempty
      rw [List.append_nil, Utf8.cut_of_notMem hmark, not_not.mp hempty]
  rw [queryOf, hquery, FormQuery.parse_serialize, get_params h, Utf8.runes_text,
    String.ofList_toList]

end Sent

end Cfscan.Web
