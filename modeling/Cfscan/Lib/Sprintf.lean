import Mathlib.Data.List.Basic

/-!
# Formatted text

`fmt.Sprintf` with the verbs `%d`, `%s` and `%%`, without flags: each verb takes the next argument,
and a format that does not fit its arguments is reported inside the text, as Go does it.

The width of a number, the padding of a text and the verbs for anything else are left out. An
argument of the wrong kind for its verb is reported as well.
-/

set_option autoImplicit false

namespace Cfscan.Lib

inductive FmtArg where
  | int (value : Int)
  | str (value : String)
deriving DecidableEq, Repr

namespace FmtArg

def decimal : Int → List Char
  | .ofNat n => Nat.toDigits 10 n
  | .negSucc n => '-' :: Nat.toDigits 10 (n + 1)

def text : FmtArg → List Char
  | int value => decimal value
  | str value => value.toList

/-- The argument with its type, as the reports have it. -/
def typed : FmtArg → List Char
  | int value => ['i', 'n', 't', '='] ++ decimal value
  | str value => ['s', 't', 'r', 'i', 'n', 'g', '='] ++ value.toList

def format (verb : Char) : FmtArg → List Char
  | int value => if verb = 'd' then decimal value else ['%', '!', verb, '('] ++ typed (int value) ++ [')']
  | str value => if verb = 's' then value.toList else ['%', '!', verb, '('] ++ typed (str value) ++ [')']

/-- The report of arguments that no verb took. -/
def extra : List FmtArg → List Char
  | [] => []
  | args => ['%', '!', '(', 'E', 'X', 'T', 'R', 'A', ' '] ++
      [',', ' '].intercalate (args.map typed) ++ [')']

end FmtArg

/-- The rest of a format, behind a percent sign or not. -/
def sprintfFrom : Bool → List Char → List FmtArg → List Char
  | false, [], args => FmtArg.extra args
  | true, [], args =>
    ['%', '!', '(', 'N', 'O', 'V', 'E', 'R', 'B', ')'] ++ FmtArg.extra args
  | false, c :: rest, args =>
    if c = '%' then sprintfFrom true rest args else c :: sprintfFrom false rest args
  | true, verb :: rest, args =>
    if verb = '%' then '%' :: sprintfFrom false rest args
    else
      match args with
      | [] => ['%', '!', verb, '(', 'M', 'I', 'S', 'S', 'I', 'N', 'G', ')'] ++
          sprintfFrom false rest []
      | arg :: args => arg.format verb ++ sprintfFrom false rest args

def sprintf (format : String) (args : List FmtArg) : String :=
  String.ofList (sprintfFrom false format.toList args)

theorem sprintfFrom_append {l : List Char} (h : '%' ∉ l) (rest : List Char)
    (args : List FmtArg) : sprintfFrom false (l ++ rest) args = l ++ sprintfFrom false rest args := by
  induction l with
  | nil => rfl
  | cons c l ih =>
    rw [List.mem_cons, not_or] at h
    rw [List.cons_append, sprintfFrom, if_neg (Ne.symm h.1), ih h.2, List.cons_append]

/-- Text before the first verb is copied. -/
theorem sprintf_append {before : String} (h : '%' ∉ before.toList) (rest : String)
    (args : List FmtArg) : sprintf (before ++ rest) args = before ++ sprintf rest args := by
  rw [← String.toList_inj, sprintf, sprintf, String.toList_ofList, String.toList_append,
    String.toList_append, String.toList_ofList, sprintfFrom_append h]

end Cfscan.Lib
