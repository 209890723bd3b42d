import Cfscan.Enrollment.Token
import Cfscan.Lib.Utf8

/-!
# Tokens as bytes — `internal/enrollment/security.go`

A Go string is any sequence of bytes, and what a request carries need not be UTF-8. These are the
functions of `Cfscan.Enrollment.Token` as they run on bytes: `len` and `SplitN` count and compare
bytes, `range` decodes runes and `TrimSpace` asks `unicode.IsSpace` of them.

`parseAgentToken_eq_some` says which texts are tokens, and of which pair; `looksLikeUUID_iff` which
texts are uuids.

A byte that is no UTF-8 is one rune, U+FFFD, and so is each of its neighbours. No such rune is a
hexadecimal digit or a hyphen, and that is why a text that looks like a uuid is 36 bytes of ASCII
(`uuidChar_of_le`). The secret is free: any bytes that are not all space, underscores among them,
since `SplitN` stops at the third part.

It does **not** say that a token is of a credential the center knows; see `Enrollment.Endpoint`.
-/

set_option autoImplicit false

namespace Cfscan.Enrollment.Raw

open Cfscan.Lib Cfscan.Lib.Utf8

/-- `strings.TrimSpace`. -/
def trimSpace (text : Bytes) : Bytes := trim Store.isSpace text

/-- The `switch` in the loop of `LooksLikeUUID`. -/
def uuidChar (index : Nat) (char : Char) : Bool :=
  if hyphenAt index then decide (char = '-') else isHexDigit char

def looksLikeUUID (value : Bytes) : Bool :=
  decide (value.length = 36) && (range value).all fun r => uuidChar r.1 r.2

/-- `_`. -/
def underscore : UInt8 := 0x5f

/-- `-`. -/
def hyphen : UInt8 := 0x2d

/-- `cfa`. -/
def agentTokenPrefix : Bytes := [0x63, 0x66, 0x61]

def buildAgentToken (credentialID secret : Bytes) : Bytes :=
  agentTokenPrefix ++ [underscore] ++ credentialID ++ [underscore] ++ secret

/-- `none` is `ErrInvalidAgentToken`. -/
def parseAgentToken (token : Bytes) : Option (Bytes × Bytes) :=
  match Utf8.splitN underscore 3 token with
  | [mark, credentialID, secret] =>
    if mark ≠ agentTokenPrefix ∨ looksLikeUUID credentialID = false ∨ trimSpace secret = [] then none
    else some (credentialID, secret)
  | _ => none

/-- What `claimAgentEnrollment` takes for a credential. -/
def claimable (credentialID credentialSecret : Bytes) : Prop :=
  looksLikeUUID credentialID = true ∧ trimSpace credentialSecret ≠ []

/-! ## What looks like a uuid

The source walks over runes with the byte index of each, so a rune of several bytes would
shift the hyphens. No such rune passes, which makes the walk one over bytes, and the five
groups and four hyphens follow. -/

def hexByte (b : UInt8) : Bool :=
  (decide (0x30 ≤ b) && decide (b ≤ 0x39)) || (decide (0x61 ≤ b) && decide (b ≤ 0x66)) ||
    (decide (0x41 ≤ b) && decide (b ≤ 0x46))

/-- Hexadecimal digits in groups of 8, 4, 4, 4 and 12, with hyphens between them. -/
def UUIDLayout (value : Bytes) : Prop :=
  ∃ a b c d e : Bytes,
    value = a ++ hyphen :: (b ++ hyphen :: (c ++ hyphen :: (d ++ hyphen :: e))) ∧
      a.length = 8 ∧ b.length = 4 ∧ c.length = 4 ∧ d.length = 4 ∧ e.length = 12 ∧
      ∀ x ∈ a ++ b ++ c ++ d ++ e, hexByte x = true

theorem uuidChar_byte {b : UInt8} (h : b.toNat < 128) (index : Nat) :
    uuidChar index (Char.ofNat b.toNat) = if hyphenAt index then decide (b = hyphen) else hexByte b := by
  have hall : ∀ n < 128, decide (Char.ofNat n = '-') = decide (UInt8.ofNat n = hyphen) ∧
      isHexDigit (Char.ofNat n) = hexByte (UInt8.ofNat n) := by decide
  obtain ⟨hdash, hhex⟩ := hall b.toNat h
  rw [UInt8.ofNat_toNat] at hdash hhex
  rw [uuidChar, hdash, hhex]

theorem uuidChar_of_le (index : Nat) (char : Char) (h : 128 ≤ char.toNat) :
    uuidChar index char = false := by
  unfold uuidChar
  split
  · rw [decide_eq_false_iff_not]
    rintro rfl
    exact absurd h (by decide)
  · rw [isHexDigit]
    have hlt : ∀ top : Char, top.toNat < 128 → decide (char ≤ top) = false := by
      intro top htop
      rw [decide_eq_false_iff_not, Char.le_def, UInt32.le_iff_toNat_le]
      exact Nat.not_le_of_lt (Nat.lt_of_lt_of_le htop h)
    rw [hlt '9' (by decide), hlt 'f' (by decide), hlt 'F' (by decide)]
    simp

/-- The loop, as a check of every byte at its place. -/
def UUIDBytes (index : Nat) (value : Bytes) : Prop :=
  ∀ j b, value[j]? = some b → (if hyphenAt (index + j) then decide (b = hyphen) else hexByte b) = true

theorem hexByte_lt {b : UInt8} (h : hexByte b = true) : b.toNat < 128 := by
  simp only [hexByte, Bool.or_eq_true, Bool.and_eq_true, decide_eq_true_eq,
    UInt8.le_iff_toNat_le] at h
  have : (0x39 : UInt8).toNat = 57 := rfl
  have : (0x66 : UInt8).toNat = 102 := rfl
  have : (0x46 : UInt8).toNat = 70 := rfl
  omega

theorem looksLikeUUID_bytes {value : Bytes} :
    looksLikeUUID value = true ↔ value.length = 36 ∧ UUIDBytes 0 value := by
  rw [looksLikeUUID, Bool.and_eq_true, decide_eq_true_eq, range,
    all_rangeFrom uuidChar_of_le]
  refine and_congr_right fun _ => forall_congr' fun j => forall_congr' fun b => imp_congr_right
    fun _ => ?_
  constructor
  · rintro ⟨hb, hchar⟩
    rwa [uuidChar_byte hb] at hchar
  · intro hbyte
    have hb : b.toNat < 128 := by
      split at hbyte
      · rw [decide_eq_true_eq.mp hbyte]
        decide
      · exact hexByte_lt hbyte
    exact ⟨hb, by rwa [uuidChar_byte hb]⟩

theorem uuidBytes_append {index : Nat} {a rest : Bytes} :
    UUIDBytes index (a ++ rest) ↔ UUIDBytes index a ∧ UUIDBytes (index + a.length) rest := by
  constructor
  · intro h
    constructor
    · intro j b hj
      obtain ⟨hlt, -⟩ := List.getElem?_eq_some_iff.mp hj
      exact h j b (by rwa [List.getElem?_append_left hlt])
    · intro j b hj
      have hlater := h (a.length + j) b
        (by rwa [List.getElem?_append_right (Nat.le_add_right _ _), Nat.add_sub_cancel_left])
      rwa [← Nat.add_assoc] at hlater
  · rintro ⟨ha, hrest⟩ j b hj
    by_cases hlt : j < a.length
    · exact ha j b (by rwa [List.getElem?_append_left hlt] at hj)
    · rw [List.getElem?_append_right (Nat.le_of_not_lt hlt)] at hj
      have hlater := hrest (j - a.length) b hj
      rwa [Nat.add_assoc, Nat.add_sub_cancel' (Nat.le_of_not_lt hlt)] at hlater

/-- A hyphen where one is due. -/
theorem uuidBytes_hyphen {index : Nat} {b : UInt8} {rest : Bytes} (h : hyphenAt index = true) :
    UUIDBytes index (b :: rest) ↔ b = hyphen ∧ UUIDBytes (index + 1) rest := by
  rw [← List.singleton_append, uuidBytes_append]
  refine and_congr_left fun _ => ⟨fun hone => ?_, ?_⟩
  · simpa [h] using hone 0 b rfl
  · rintro rfl j b hj
    cases j with
    | zero =>
      cases hj
      simp [h]
    | succ j => cases hj

/-- A group of digits with no hyphen due in it. -/
theorem uuidBytes_group {index : Nat} {a : Bytes}
    (h : ∀ j < a.length, hyphenAt (index + j) = false) :
    UUIDBytes index a ↔ ∀ x ∈ a, hexByte x = true := by
  constructor
  · intro hall x hx
    obtain ⟨j, hj⟩ := List.mem_iff_getElem?.mp hx
    obtain ⟨hlt, -⟩ := List.getElem?_eq_some_iff.mp hj
    simpa [h j hlt] using hall j x hj
  · intro hall j b hj
    obtain ⟨hlt, -⟩ := List.getElem?_eq_some_iff.mp hj
    rw [h j hlt, if_neg Bool.false_ne_true]
    exact hall b (List.mem_of_getElem? hj)

/-- Bytes laid out in groups of 8, 4, 4, 4 and 12 with one byte between them. -/
theorem uuidBytes_groups {a b c d e : Bytes} {w x y z : UInt8} (ha : a.length = 8)
    (hb : b.length = 4) (hc : c.length = 4) (hd : d.length = 4) (he : e.length = 12) :
    UUIDBytes 0 (a ++ w :: (b ++ x :: (c ++ y :: (d ++ z :: e)))) ↔
      (w = hyphen ∧ x = hyphen ∧ y = hyphen ∧ z = hyphen) ∧
        ∀ v ∈ a ++ b ++ c ++ d ++ e, hexByte v = true := by
  rw [uuidBytes_append, ha, uuidBytes_hyphen (by decide), uuidBytes_append, hb,
    uuidBytes_hyphen (by decide), uuidBytes_append, hc, uuidBytes_hyphen (by decide),
    uuidBytes_append, hd, uuidBytes_hyphen (by decide),
    uuidBytes_group (by rw [ha]; decide), uuidBytes_group (by rw [hb]; decide),
    uuidBytes_group (by rw [hc]; decide), uuidBytes_group (by rw [hd]; decide),
    uuidBytes_group (by rw [he]; decide)]
  simp only [List.forall_mem_append]
  tauto

theorem exists_split {n : Nat} {s : Bytes} (h : n < s.length) :
    ∃ a x rest, a.length = n ∧ s = a ++ x :: rest := by
  refine ⟨s.take n, s[n], s.drop (n + 1), ?_, ?_⟩
  · rw [List.length_take, Nat.min_eq_left (Nat.le_of_lt h)]
  · rw [← List.drop_eq_getElem_cons h, List.take_append_drop]

/-- **Which texts look like a uuid.** -/
theorem looksLikeUUID_iff {value : Bytes} : looksLikeUUID value = true ↔ UUIDLayout value := by
  rw [looksLikeUUID_bytes]
  constructor
  · rintro ⟨hlen, hbytes⟩
    obtain ⟨a, w, rest, ha, rfl⟩ := exists_split (n := 8) (s := value) (by omega)
    simp only [List.length_append, List.length_cons] at hlen
    obtain ⟨b, x, rest, hb, rfl⟩ := exists_split (n := 4) (s := rest) (by omega)
    simp only [List.length_append, List.length_cons] at hlen
    obtain ⟨c, y, rest, hc, rfl⟩ := exists_split (n := 4) (s := rest) (by omega)
    simp only [List.length_append, List.length_cons] at hlen
    obtain ⟨d, z, e, hd, rfl⟩ := exists_split (n := 4) (s := rest) (by omega)
    simp only [List.length_append, List.length_cons] at hlen
    have he : e.length = 12 := by omega
    obtain ⟨⟨rfl, rfl, rfl, rfl⟩, hhex⟩ := (uuidBytes_groups ha hb hc hd he).mp hbytes
    exact ⟨a, b, c, d, e, rfl, ha, hb, hc, hd, he, hhex⟩
  · rintro ⟨a, b, c, d, e, rfl, ha, hb, hc, hd, he, hhex⟩
    refine ⟨?_, (uuidBytes_groups ha hb hc hd he).mpr ⟨⟨rfl, rfl, rfl, rfl⟩, hhex⟩⟩
    simp only [List.length_append, List.length_cons, ha, hb, hc, hd, he]

/-! ## What is a token

`SplitN` with three parts cuts at the first two underscores. The prefix and a uuid have
none, so the pair is recovered whatever the secret contains. -/

theorem underscore_notMem {value : Bytes} (h : looksLikeUUID value = true) :
    underscore ∉ value := by
  intro hmem
  obtain ⟨j, hj⟩ := List.mem_iff_getElem?.mp hmem
  have hbyte := (looksLikeUUID_bytes.mp h).2 j underscore hj
  split at hbyte <;> exact absurd hbyte (by decide)

theorem splitN_three {t mark id secret : Bytes} :
    Utf8.splitN underscore 3 t = [mark, id, secret] ↔
      t = mark ++ underscore :: (id ++ underscore :: secret) ∧
        underscore ∉ mark ∧ underscore ∉ id := by
  rw [splitN_eq_cons]
  constructor
  · rintro ⟨rest, rfl, hmark, hrest⟩
    obtain ⟨last, rfl, hid, hlast⟩ := splitN_eq_cons.mp hrest
    obtain rfl := List.singleton_inj.mp hlast
    exact ⟨rfl, hmark, hid⟩
  · rintro ⟨rfl, hmark, hid⟩
    exact ⟨_, rfl, hmark, splitN_eq_cons.mpr ⟨secret, rfl, hid, rfl⟩⟩

theorem buildAgentToken_eq (id secret : Bytes) :
    buildAgentToken id secret = agentTokenPrefix ++ underscore :: (id ++ underscore :: secret) := by
  simp [buildAgentToken]

theorem parseAgentToken_eq_some {t id secret : Bytes} :
    parseAgentToken t = some (id, secret) ↔ t = buildAgentToken id secret ∧ claimable id secret := by
  rw [buildAgentToken_eq]
  constructor
  · intro h
    unfold parseAgentToken at h
    split at h
    · rename_i mark id' secret' hsplit
      split at h
      · cases h
      · rename_i hok
        simp only [not_or, not_not, Bool.not_eq_false] at hok
        obtain ⟨rfl, hid, hsecret⟩ := hok
        cases h
        exact ⟨(splitN_three.mp hsplit).1, hid, hsecret⟩
    · cases h
  · rintro ⟨rfl, hid, hsecret⟩
    have hsplit : Utf8.splitN underscore 3
        (agentTokenPrefix ++ underscore :: (id ++ underscore :: secret)) =
          [agentTokenPrefix, id, secret] :=
      splitN_three.mpr ⟨rfl, by decide, underscore_notMem hid⟩
    unfold parseAgentToken
    rw [hsplit]
    dsimp only
    rw [if_neg]
    simp [hid, hsecret]

/-- **The token format is unambiguous**, over all byte strings: a token is read as the pair it was
built of, nothing else is a token, and a uuid is laid out 8-4-4-4-12. -/
theorem agent_tokens :
    (∀ id secret, claimable id secret →
      parseAgentToken (buildAgentToken id secret) = some (id, secret)) ∧
    (∀ t id secret, parseAgentToken t = some (id, secret) ↔
      t = buildAgentToken id secret ∧ claimable id secret) ∧
    ∀ value, looksLikeUUID value = true ↔ UUIDLayout value :=
  ⟨fun _ _ h => parseAgentToken_eq_some.mpr ⟨rfl, h⟩, fun _ _ _ => parseAgentToken_eq_some,
    fun _ => looksLikeUUID_iff⟩

/-- A secret with underscores, and one that is not UTF-8. -/
theorem agent_tokens_underscores :
    parseAgentToken (buildAgentToken (text "8b8f3bf4-5ea2-49e0-b07e-087f69973223")
        (text "random_secret_with_underscores")) =
      some (text "8b8f3bf4-5ea2-49e0-b07e-087f69973223", text "random_secret_with_underscores") ∧
    parseAgentToken (buildAgentToken (text "8B8F3BF4-5EA2-49E0-B07E-087F69973223") [0xff, 0x5f]) =
      some (text "8B8F3BF4-5EA2-49E0-B07E-087F69973223", [0xff, 0x5f]) :=
  ⟨agent_tokens.1 _ _ ⟨by decide +kernel, by decide +kernel⟩,
    agent_tokens.1 _ _ ⟨by decide +kernel, by decide +kernel⟩⟩

end Cfscan.Enrollment.Raw
