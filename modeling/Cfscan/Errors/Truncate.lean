import Cfscan.Lib.Utf8
import Cfscan.Store.Postgres

/-!
# Shortened error texts — `internal/store/postgres/store.go`, `internal/probe/probe.go`

Both packages keep at most so many bytes of the text of an error, with a `truncate` of their own. The
cut is at a byte, and need not be between two characters: `truncate_iff` says when it is.

`Store.truncate` is the text the server reads out of the bytes: `truncate_text`.

A Go string is a sequence of bytes, and so is what `truncate` makes of it. `Shortens` is what its
callers need of it: a text, of at most so many bytes, that begins the whole one. The first of these
is the one that can fail.

`cutsBetween` decides it by looking at one byte, the first that is left out: the cut is between two
characters when that byte begins one. It is a fact about UTF-8 and stands with it in `Lib.Utf8`.
-/

set_option autoImplicit false

namespace Cfscan.Errors

open Cfscan.Lib Cfscan.Lib.Utf8 Cfscan.Store

def truncate (value : Bytes) (limit : Nat) : Bytes :=
  if value.length ≤ limit then value else value.take limit

namespace Probe

/-- `truncate` of `internal/probe`, which has the same body. -/
def truncate (value : Bytes) (max : Nat) : Bytes := Errors.truncate value max

end Probe

/-- What the server reads in a `text` parameter; `none` when it refuses the bytes. -/
def textParameter (value : Bytes) : Option String :=
  (String.fromUTF8? value.toByteArray).filter storable

/-- A text of at most `limit` bytes that begins `value`, and all of it when it fits. -/
structure Shortens (value : Bytes) (limit : Nat) (short : Bytes) : Prop where
  valid : Valid short
  begins : short <+: value
  length_le : short.length ≤ limit
  whole : value.length ≤ limit → short = value

section Cut

variable {value : Bytes} {limit : Nat}

theorem truncate_eq (value : Bytes) (limit : Nat) : truncate value limit = value.take limit := by
  unfold truncate
  split
  · exact (List.take_of_length_le ‹_›).symm
  · rfl

/-- Every shortened text begins the whole one and fits; it is a text when no character is cut. -/
theorem truncate_iff (h : Valid value) (limit : Nat) :
    Shortens value limit (truncate value limit) ↔ cutsBetween value limit = true := by
  rw [← valid_take_iff h, ← truncate_eq]
  refine ⟨fun hshort => hshort.valid, fun hvalid => ⟨hvalid, ?_, ?_, fun hle => if_pos hle⟩⟩
  · rw [truncate_eq]
    exact List.take_prefix _ _
  · rw [truncate_eq]
    exact List.length_take_le _ _

end Cut

/-! ## What the server reads -/

theorem fromUTF8?_of_not_valid {value : Bytes} (h : ¬ Valid value) :
    String.fromUTF8? value.toByteArray = none := by
  rw [String.fromUTF8?, dif_neg]
  exact h

theorem fromUTF8?_text (t : String) : String.fromUTF8? (text t).toByteArray = some t := by
  have hvalid : (text t).toByteArray.IsValidUTF8 := valid_text t
  rw [String.fromUTF8?, dif_pos hvalid, Option.some.injEq]
  exact String.toByteArray_inj.mp (toByteArray_text t)

theorem truncate_text (value : String) (limit : Nat) :
    Store.truncate value limit = String.fromUTF8? (truncate (text value) limit).toByteArray := by
  unfold Store.truncate truncate
  rw [length_text]
  split
  · exact (fromUTF8?_text value).symm
  · rw [toByteArray_take, toByteArray_text]
    rfl

theorem storable_iff (t : String) : storable t = true ↔ (0 : UInt8) ∉ text t := by
  rw [mem_text_iff (by decide), storable, List.all_eq_true]
  simp only [decide_eq_true_eq]
  exact ⟨fun h hmem => h _ hmem rfl, fun h c hc heq => h (heq ▸ hc)⟩

theorem textParameter_text (t : String) : textParameter (text t) = some t ↔ storable t = true := by
  rw [textParameter, fromUTF8?_text, Option.filter_eq_some_iff]
  exact and_iff_right rfl

/-- Of a text that the server would take, the shortened one is refused for a cut character only. -/
theorem textParameter_truncate {t : String} (ht : storable t = true) (limit : Nat) :
    (∃ short, textParameter (truncate (text t) limit) = some short) ↔
      cutsBetween (text t) limit = true := by
  constructor
  · rintro ⟨short, hshort⟩
    have hvalid : Valid (truncate (text t) limit) := by
      by_contra hnot
      rw [textParameter, fromUTF8?_of_not_valid hnot] at hshort
      cases hshort
    rwa [truncate_eq, valid_take_iff (valid_text t)] at hvalid
  · intro hcut
    have hshort := (truncate_iff (valid_text t) limit).mpr hcut
    obtain ⟨short, heq⟩ := valid_iff.mp hshort.valid
    -- a beginning of a text without a NUL has none
    have hstorable : storable short = true := by
      rw [storable_iff] at ht ⊢
      rw [heq]
      exact fun hmem => ht (hshort.begins.subset hmem)
    rw [← heq]
    exact ⟨short, (textParameter_text short).mpr hstorable⟩

end Cfscan.Errors
