import Cfscan.Store.Postgres
import Mathlib.Data.List.DropRight

/-!
# Trimmed texts

What `strings.TrimSpace` leaves: a text that is trimmed already, with the characters of the one it
was given.

Trimming is used on what a request brings, and then the same text is trimmed again further in, or
compared with one that was. So the lemmas are about doing it twice, and about a text that needs
none.
-/

set_option autoImplicit false

namespace Cfscan.Store

/-- What was cut off at the end leaves the start as it was. -/
theorem dropWhile_rdropWhile (p : Char → Bool) (l : List Char) :
    ((l.dropWhile p).rdropWhile p).dropWhile p = (l.dropWhile p).rdropWhile p := by
  rw [List.dropWhile_eq_self_iff]
  intro hpos
  have hstart := List.rdropWhile_prefix p (l.dropWhile p)
  have hlen := Nat.lt_of_lt_of_le hpos hstart.length_le
  rw [hstart.getElem hpos]
  exact List.dropWhile_get_zero_not _ _ hlen

@[simp] theorem trimSpace_trimSpace (text : String) : trimSpace (trimSpace text) = trimSpace text := by
  have h := dropWhile_rdropWhile isSpace text.toList
  rw [List.rdropWhile] at h
  unfold trimSpace
  rw [String.toList_ofList, h, List.reverse_reverse, List.dropWhile_idempotent]

/-- A text between two characters that are no space has nothing to trim. -/
theorem trimSpace_eq_self {first last : Char} {l : List Char} (hfirst : isSpace first = false)
    (hlast : isSpace last = false) :
    trimSpace (String.ofList (first :: l ++ [last])) = String.ofList (first :: l ++ [last]) := by
  simp [trimSpace, hfirst, hlast]

theorem mem_of_mem_trimSpace {text : String} {c : Char} (h : c ∈ (trimSpace text).toList) :
    c ∈ text.toList := by
  unfold trimSpace at h
  rw [String.toList_ofList, List.mem_reverse] at h
  have hback := (List.dropWhile_sublist isSpace).mem h
  rw [List.mem_reverse] at hback
  exact (List.dropWhile_sublist isSpace).mem hback

theorem storable_trimSpace {text : String} (h : storable text = true) :
    storable (trimSpace text) = true :=
  List.all_eq_true.mpr fun c hc => List.all_eq_true.mp h c (mem_of_mem_trimSpace hc)

/-- Characters that change without becoming a space, or ceasing to be one, do so before trimming as
they do after it. -/
theorem trimSpace_map {f : Char → Char} (h : ∀ c, isSpace (f c) = isSpace c) (text : String) :
    trimSpace (String.ofList (text.toList.map f)) =
      String.ofList ((trimSpace text).toList.map f) := by
  have hspace : isSpace ∘ f = isSpace := funext h
  unfold trimSpace
  simp only [String.toList_ofList, List.dropWhile_map, hspace, ← List.map_reverse]

end Cfscan.Store
