import Mathlib.Data.List.TakeWhile

/-!
# Texts as bytes, decoded as UTF-8

A text is any sequence of bytes. `decodeRune` reads the character at its front, and where none is
encoded there takes one byte for U+FFFD; `range` reads a text that way from its front to its end,
with the byte each character starts at, and `decodeLastRune` reads one character from its end.
`trim` and `mapRunes` are built on these; on bytes below 128 all of them work byte by byte. `cut` and
`splitN` look for one byte and decode nothing.

The bytes of a `String` are the `Valid` texts. What is left of one up to some byte is valid just when
that byte begins a character: `valid_take_iff`.

The functions follow the Go packages `strings` and `unicode/utf8` in what they do with
bytes that encode nothing: each is one character by itself and is never taken together with its
neighbours. A text that is not valid goes through all of them and comes out as some text.
-/

set_option autoImplicit false

namespace Cfscan.Lib.Utf8

abbrev Bytes := List UInt8

def encode (c : Char) : Bytes := String.utf8EncodeChar c

def text (s : String) : Bytes := s.toList.flatMap encode

/-- The character encoded at the front. -/
def front? (s : Bytes) : Option Char := s.toByteArray.utf8DecodeChar? 0

def runeError : Char := Char.ofNat 0xfffd

/-- The first character and its width. -/
def decodeRune (s : Bytes) : Char × Nat :=
  match front? s with
  | some c => (c, c.utf8Size)
  | none => (runeError, 1)

/-- The characters from byte `index` on, after `skip` more bytes of the last one. -/
def rangeFrom : Nat → Nat → Bytes → List (Nat × Char)
  | _, _, [] => []
  | index, skip + 1, _ :: s => rangeFrom (index + 1) skip s
  | index, 0, b :: s =>
    (index, (decodeRune (b :: s)).1) ::
      rangeFrom (index + 1) ((decodeRune (b :: s)).2 - 1) s

/-- The characters with the bytes they start at. -/
def range (s : Bytes) : List (Nat × Char) := rangeFrom 0 0 s

def runes (s : Bytes) : List Char := (range s).map Prod.snd

/-- The last character and its width. -/
def decodeLastRune (s : Bytes) : Char × Nat :=
  match [1, 2, 3, 4].find? fun n =>
      decide (n ≤ s.length) && ((front? (s.drop (s.length - n))).map Char.utf8Size == some n) with
  | some n => decodeRune (s.drop (s.length - n))
  | none => (runeError, 1)

/-! ## Trimming and mapping

As `strings.TrimLeftFunc`, `strings.TrimRightFunc`, `strings.TrimFunc` and `strings.Map`. A
byte that encodes nothing is offered to the predicate as U+FFFD, and is mapped as that. -/

/-- The text from its first character on that does not meet `p`. -/
def trimLeft (p : Char → Bool) (s : Bytes) : Bytes :=
  match (range s).find? fun r => !p r.2 with
  | some r => s.drop r.1
  | none => []

/-- The text without the characters at its end that meet `p`; `fuel` bounds how many. -/
def trimRightFrom (p : Char → Bool) : Nat → Bytes → Bytes
  | 0, s => s
  | fuel + 1, s =>
    if s ≠ [] ∧ p (decodeLastRune s).1 = true then
      trimRightFrom p fuel (s.take (s.length - (decodeLastRune s).2))
    else s

def trimRight (p : Char → Bool) (s : Bytes) : Bytes := trimRightFrom p s.length s

def trim (p : Char → Bool) (s : Bytes) : Bytes := trimRight p (trimLeft p s)

def mapRunes (f : Char → Char) (s : Bytes) : Bytes := (runes s).flatMap fun c => encode (f c)

/-! ## Cutting -/

/-- What is before and after the first `sep`, and whether there is one. -/
def cut (sep : UInt8) (s : Bytes) : Bytes × Bytes × Bool :=
  match s.dropWhile (· != sep) with
  | [] => (s, [], false)
  | _ :: after => (s.takeWhile (· != sep), after, true)

/-- At most `n` parts, the last one not split. -/
def splitN (sep : UInt8) : Nat → Bytes → List Bytes
  | 0, _ => []
  | 1, s => [s]
  | n + 2, s =>
    match cut sep s with
    | (before, after, true) => before :: splitN sep (n + 1) after
    | (before, _, false) => [before]

/-! ## One character -/

theorem encode_of_ascii {c : Char} (h : c.toNat < 128) : encode c = [UInt8.ofNat c.toNat] := by
  have hsize : c.utf8Size = 1 := by
    rw [Char.utf8Size_eq_one_iff, UInt32.le_iff_toNat_le]
    exact Nat.le_of_lt_succ h
  rw [encode, String.utf8EncodeChar_eq_singleton hsize]
  rfl

theorem length_encode (c : Char) : (encode c).length = c.utf8Size := String.length_utf8EncodeChar c

theorem encode_ne_nil (c : Char) : encode c ≠ [] := by
  rw [← List.length_pos_iff, length_encode]
  exact c.utf8Size_pos

/-- No byte of a character past ASCII is one of an ASCII character. -/
theorem le_of_mem_encode {c : Char} (h : 128 ≤ c.toNat) : ∀ b ∈ encode c, 128 ≤ b.toNat := by
  have hor : ∀ x y : UInt8, 128 ≤ y.toNat → 128 ≤ (x ||| y).toNat := by
    intro x y hy
    rw [UInt8.toNat_or]
    exact Nat.le_trans hy Nat.right_le_or
  unfold encode
  rcases Char.utf8Size_eq c with hone | htwo | hthree | hfour
  · rw [Char.utf8Size_eq_one_iff, UInt32.le_iff_toNat_le] at hone
    exact absurd h (Nat.not_le_of_lt (Nat.lt_succ_of_le hone))
  · rw [String.utf8EncodeChar_eq_cons_cons htwo]
    simp only [List.mem_cons, List.not_mem_nil, or_false]
    rintro b (rfl | rfl) <;> exact hor _ _ (by decide)
  · rw [String.utf8EncodeChar_eq_cons_cons_cons hthree]
    simp only [List.mem_cons, List.not_mem_nil, or_false]
    rintro b (rfl | rfl | rfl) <;> exact hor _ _ (by decide)
  · rw [String.utf8EncodeChar_eq_cons_cons_cons_cons hfour]
    simp only [List.mem_cons, List.not_mem_nil, or_false]
    rintro b (rfl | rfl | rfl | rfl) <;> exact hor _ _ (by decide)

theorem front?_encode_append (c : Char) (s : Bytes) : front? (encode c ++ s) = some c := by
  unfold front?
  rw [List.toByteArray_append]
  exact ByteArray.utf8DecodeChar?_utf8EncodeChar_append

theorem exists_of_front? {c : Char} {s : Bytes} (h : front? s = some c) :
    ∃ rest, s = encode c ++ rest := by
  obtain ⟨rest, hrest⟩ := ByteArray.exists_of_utf8DecodeChar?_eq_some h
  refine ⟨rest.data.toList, ?_⟩
  have hdata := congrArg (fun b => b.data.toList) hrest
  simpa [List.data_toByteArray, encode] using hdata

theorem toNat_ofNat_byte {b : UInt8} (h : b.toNat < 128) : (Char.ofNat b.toNat).toNat = b.toNat := by
  have hvalid : ∀ n < 128, (Char.ofNat n).toNat = n := by decide
  exact hvalid _ h

theorem encode_ofNat_byte {b : UInt8} (h : b.toNat < 128) : encode (Char.ofNat b.toNat) = [b] := by
  have hnat := toNat_ofNat_byte h
  rw [encode_of_ascii (by rw [hnat]; exact h), hnat, UInt8.ofNat_toNat]

theorem decodeRune_of_ascii {b : UInt8} (h : b.toNat < 128) (s : Bytes) :
    decodeRune (b :: s) = (Char.ofNat b.toNat, 1) := by
  have hfront : front? (b :: s) = some (Char.ofNat b.toNat) := by
    have happend := front?_encode_append (Char.ofNat b.toNat) s
    rwa [encode_ofNat_byte h] at happend
  unfold decodeRune
  rw [hfront]
  dsimp only
  rw [← length_encode, encode_ofNat_byte h]
  rfl

theorem le_decodeRune {b : UInt8} (h : 128 ≤ b.toNat) (s : Bytes) :
    128 ≤ (decodeRune (b :: s)).1.toNat := by
  unfold decodeRune
  split
  · rename_i c hc
    obtain ⟨rest, hrest⟩ := exists_of_front? hc
    by_contra hlt
    rw [encode_of_ascii (Nat.lt_of_not_le hlt), List.singleton_append, List.cons.injEq] at hrest
    rw [hrest.1, UInt8.toNat_ofNat'] at h
    omega
  · decide

/-! ## What was encoded is decoded -/

theorem rangeFrom_skip (index : Nat) (rest s : Bytes) :
    rangeFrom index rest.length (rest ++ s) = rangeFrom (index + rest.length) 0 s := by
  induction rest generalizing index with
  | nil => rfl
  | cons b rest ih =>
    rw [List.length_cons, List.cons_append, rangeFrom, ih, Nat.add_right_comm, Nat.add_assoc]

theorem rangeFrom_encode_append (index : Nat) (c : Char) (s : Bytes) :
    rangeFrom index 0 (encode c ++ s) = (index, c) :: rangeFrom (index + c.utf8Size) 0 s := by
  have hdecode : decodeRune (encode c ++ s) = (c, c.utf8Size) := by
    unfold decodeRune
    rw [front?_encode_append]
  obtain ⟨b, rest, hencode⟩ := List.exists_cons_of_ne_nil (encode_ne_nil c)
  have hsize := length_encode c
  rw [hencode, List.cons_append] at hdecode
  rw [hencode, List.length_cons] at hsize
  rw [hencode, List.cons_append, rangeFrom, hdecode, ← hsize, Nat.add_sub_cancel, rangeFrom_skip,
    Nat.add_right_comm, Nat.add_assoc]

theorem runes_text (t : String) : runes (text t) = t.toList := by
  have hfrom : ∀ (l : List Char) (index : Nat),
      (rangeFrom index 0 (l.flatMap encode)).map Prod.snd = l := by
    intro l
    induction l with
    | nil => exact fun _ => rfl
    | cons c l ih =>
      intro index
      rw [List.flatMap_cons, rangeFrom_encode_append, List.map_cons, ih]
  exact hfrom t.toList 0

/-! ## ASCII

A check of characters that only ASCII characters pass can be made byte by byte, on any text. -/

section Ascii

variable {q : Nat → Char → Bool} {s : Bytes}

theorem rangeFrom_cons_of_ascii {b : UInt8} (h : b.toNat < 128) (index : Nat) (s : Bytes) :
    rangeFrom index 0 (b :: s) = (index, Char.ofNat b.toNat) :: rangeFrom (index + 1) 0 s := by
  rw [rangeFrom, decodeRune_of_ascii h]
  rfl

/-- A check of every character that only ASCII characters pass is a check of every byte. -/
theorem all_rangeFrom (hq : ∀ i c, 128 ≤ c.toNat → q i c = false) (index : Nat) (s : Bytes) :
    (rangeFrom index 0 s).all (fun r => q r.1 r.2) = true ↔
      ∀ j b, s[j]? = some b → b.toNat < 128 ∧ q (index + j) (Char.ofNat b.toNat) = true := by
  induction s generalizing index with
  | nil => simp [rangeFrom]
  | cons b s ih =>
    by_cases hb : b.toNat < 128
    · rw [rangeFrom_cons_of_ascii hb, List.all_cons, Bool.and_eq_true, ih]
      dsimp only
      constructor
      · rintro ⟨hfirst, hrest⟩ j b' hj
        cases j with
        | zero =>
          cases hj
          exact ⟨hb, hfirst⟩
        | succ j =>
          have hlater := hrest j b' hj
          rwa [Nat.add_assoc, Nat.add_comm 1 j] at hlater
      · intro hall
        refine ⟨(hall 0 b rfl).2, fun j b' hj => ?_⟩
        have hlater := hall (j + 1) b' hj
        rwa [Nat.add_assoc, Nat.add_comm 1 j]
    · rw [rangeFrom, List.all_cons, Bool.and_eq_true]
      constructor
      · rintro ⟨hfirst, -⟩
        rw [hq _ _ (le_decodeRune (Nat.le_of_not_lt hb) s)] at hfirst
        cases hfirst
      · intro hall
        exact absurd (hall 0 b rfl).1 hb

theorem runes_of_ascii (h : ∀ b ∈ s, b.toNat < 128) :
    runes s = s.map fun b => Char.ofNat b.toNat := by
  have hfrom : ∀ (s : Bytes) (index : Nat), (∀ b ∈ s, b.toNat < 128) →
      (rangeFrom index 0 s).map Prod.snd = s.map fun b => Char.ofNat b.toNat := by
    intro s
    induction s with
    | nil => exact fun _ _ => rfl
    | cons b s ih =>
      intro index hs
      rw [rangeFrom_cons_of_ascii (hs b List.mem_cons_self), List.map_cons, List.map_cons,
        ih _ fun b' hb' => hs b' (List.mem_cons_of_mem b hb')]
  exact hfrom s 0 h

theorem ascii_of_runes (h : ∀ c ∈ runes s, c.toNat < 128) : ∀ b ∈ s, b.toNat < 128 := by
  have hall : (rangeFrom 0 0 s).all (fun r => decide (r.2.toNat < 128)) = true :=
    List.all_eq_true.mpr fun r hr => decide_eq_true (h r.2 (List.mem_map_of_mem hr))
  intro b hb
  obtain ⟨j, hj⟩ := List.mem_iff_getElem?.mp hb
  exact ((all_rangeFrom (q := fun _ c => decide (c.toNat < 128))
    (fun _ c hc => decide_eq_false (Nat.not_lt_of_le hc)) 0 s).mp hall j b hj).1

end Ascii

/-! ## What cutting and trimming leave -/

section Cut

variable {sep : UInt8} {s before after : Bytes}

theorem cut_append (h : sep ∉ before) : cut sep (before ++ sep :: after) = (before, after, true) := by
  have hne : ∀ b ∈ before, (b != sep) = true := by
    intro b hb
    rw [bne_iff_ne]
    rintro rfl
    exact h hb
  rw [cut, List.dropWhile_append_of_pos hne, List.takeWhile_append_of_pos hne]
  simp

theorem cut_of_notMem (h : sep ∉ s) : cut sep s = (s, [], false) := by
  have hnil : s.dropWhile (· != sep) = [] := by
    rw [List.dropWhile_eq_nil_iff]
    intro b hb
    rw [bne_iff_ne]
    rintro rfl
    exact h hb
  rw [cut, hnil]

theorem cut_eq_true : cut sep s = (before, after, true) ↔
    s = before ++ sep :: after ∧ sep ∉ before := by
  constructor
  · intro hcut
    by_cases hsep : sep ∈ s
    · obtain ⟨before', after', rfl, hnot⟩ := List.eq_append_cons_of_mem hsep
      rw [cut_append hnot] at hcut
      cases hcut
      exact ⟨rfl, hnot⟩
    · rw [cut_of_notMem hsep] at hcut
      cases hcut
  · rintro ⟨rfl, hnot⟩
    exact cut_append hnot

/-- Two parts or more. -/
theorem splitN_eq_cons {n : Nat} {part next : Bytes} {parts : List Bytes} :
    splitN sep (n + 2) s = part :: next :: parts ↔
      ∃ rest, s = part ++ sep :: rest ∧ sep ∉ part ∧ splitN sep (n + 1) rest = next :: parts := by
  rw [splitN]
  split
  · rename_i before after hcut
    obtain ⟨rfl, hnot⟩ := cut_eq_true.mp hcut
    constructor
    · intro h
      obtain ⟨rfl, hrest⟩ := List.cons.inj h
      exact ⟨after, rfl, hnot, hrest⟩
    · rintro ⟨rest, heq, hpart, hrest⟩
      have hsame := (cut_append hnot).symm.trans ((congrArg (cut sep) heq).trans (cut_append hpart))
      obtain ⟨rfl, hafter, -⟩ := by simpa only [Prod.mk.injEq] using hsame
      rw [hafter, hrest]
  · rename_i before after hcut
    constructor
    · intro h
      simp at h
    · rintro ⟨rest, rfl, hpart, -⟩
      rw [cut_append hpart] at hcut
      cases hcut

end Cut

theorem trimLeft_suffix (p : Char → Bool) (s : Bytes) : trimLeft p s <:+ s := by
  unfold trimLeft
  split
  · exact List.drop_suffix _ _
  · exact List.nil_suffix

theorem trimRightFrom_begins (p : Char → Bool) (fuel : Nat) (s : Bytes) :
    trimRightFrom p fuel s <+: s := by
  induction fuel generalizing s with
  | zero => exact List.prefix_rfl
  | succ fuel ih =>
    rw [trimRightFrom]
    split
    · exact (ih _).trans (List.take_prefix _ _)
    · exact List.prefix_rfl

theorem trim_within (p : Char → Bool) (s : Bytes) : trim p s <:+: s :=
  (trimRightFrom_begins p _ _).isInfix.trans (trimLeft_suffix p s).isInfix

/-! ## Letter case

The lower case of a character past ASCII is passed in, with the two such characters whose lower case
is ASCII. -/

structure Letters where
  toLower : Char → Char
  toLower_ascii : ∀ c, c.toNat < 128 → toLower c = c.toLower
  /-- The dotted capital I and the kelvin sign. -/
  toLower_of_le : ∀ c, 128 ≤ c.toNat → (toLower c).toNat < 128 →
    c.toNat = 0x130 ∧ toLower c = 'i' ∨ c.toNat = 0x212a ∧ toLower c = 'k'

def Letters.lower (letters : Letters) (s : Bytes) : Bytes := mapRunes letters.toLower s

theorem toLower_of_not_ascii {c : Char} (h : 128 ≤ c.toNat) : c.toLower = c := by
  unfold Char.toLower
  rw [dif_neg]
  rintro ⟨-, hle⟩
  exact absurd (UInt32.le_iff_toNat_le.mp hle) (Nat.not_le_of_lt (Nat.lt_of_lt_of_le (by decide) h))

/-- No character past ASCII has a case, but for the two. -/
def Letters.ascii : Letters where
  toLower c := if c.toNat = 0x130 then 'i' else if c.toNat = 0x212a then 'k' else c.toLower
  toLower_ascii := by
    intro c hc
    rw [if_neg (by omega), if_neg (by omega)]
  toLower_of_le := by
    intro c hc
    split
    · exact fun _ => Or.inl ⟨‹_›, rfl⟩
    · split
      · exact fun _ => Or.inr ⟨‹_›, rfl⟩
      · rw [toLower_of_not_ascii hc]
        exact fun hlt => absurd hlt (Nat.not_lt_of_le hc)

def lowerByte (b : UInt8) : UInt8 := UInt8.ofNat (Char.ofNat b.toNat).toLower.toNat

theorem toLower_ofNat_lt {b : UInt8} (h : b.toNat < 128) :
    (Char.ofNat b.toNat).toLower.toNat < 128 := by
  have hall : ∀ n < 128, (Char.ofNat n).toLower.toNat < 128 := by decide
  exact hall _ h

theorem lower_of_ascii (letters : Letters) {s : Bytes} (h : ∀ b ∈ s, b.toNat < 128) :
    letters.lower s = s.map lowerByte := by
  rw [Letters.lower, mapRunes, runes_of_ascii h, List.flatMap_map]
  induction s with
  | nil => rfl
  | cons b s ih =>
    have hb := h b List.mem_cons_self
    have hnat : (Char.ofNat b.toNat).toNat < 128 := by rwa [toNat_ofNat_byte hb]
    rw [List.flatMap_cons, List.map_cons, ih fun b' hb' => h b' (List.mem_cons_of_mem b hb'),
      letters.toLower_ascii _ hnat, encode_of_ascii (toLower_ofNat_lt hb), List.singleton_append,
      lowerByte]

/-! ## Valid texts

A `String` is valid by construction and a list of bytes need not be. Cutting a valid text at
a byte leaves a valid text exactly when no character is cut, which can be seen from the one
byte at the cut. -/

/-- `utf8.Valid`. -/
def Valid (s : Bytes) : Prop := s.toByteArray.IsValidUTF8

instance (s : Bytes) : Decidable (Valid s) := inferInstanceAs (Decidable s.toByteArray.IsValidUTF8)

/-- No character has bytes on both sides of `index`. -/
def cutsBetween (s : Bytes) (index : Nat) : Bool :=
  s[index]?.all fun b => decide b.IsUTF8FirstByte

theorem toByteArray_text (t : String) : (text t).toByteArray = t.toByteArray :=
  String.utf8Encode_toList

theorem length_text (t : String) : (text t).length = t.utf8ByteSize := by
  rw [← String.size_toByteArray, ← toByteArray_text, List.size_toByteArray]

theorem text_append (t t' : String) : text (t ++ t') = text t ++ text t' := by
  rw [text, String.toList_append, List.flatMap_append]
  rfl

theorem valid_iff {s : Bytes} : Valid s ↔ ∃ t, text t = s := by
  constructor
  · intro h
    have hbytes : (text ⟨s.toByteArray, h⟩).toByteArray = s.toByteArray := toByteArray_text _
    have hdata := congrArg (fun b => b.data.toList) hbytes
    exact ⟨⟨s.toByteArray, h⟩, by simpa [List.data_toByteArray] using hdata⟩
  · rintro ⟨t, rfl⟩
    rw [Valid, toByteArray_text]
    exact t.isValidUTF8

theorem valid_text (t : String) : Valid (text t) := valid_iff.mpr ⟨t, rfl⟩

theorem toByteArray_take (s : Bytes) (n : Nat) :
    (s.take n).toByteArray = s.toByteArray.extract 0 n := by
  apply ByteArray.ext
  simp [List.data_toByteArray]

theorem cutsBetween_of_le {s : Bytes} {n : Nat} (h : s.length ≤ n) : cutsBetween s n = true := by
  rw [cutsBetween, List.getElem?_eq_none h]
  rfl

theorem valid_take_iff {s : Bytes} (h : Valid s) (n : Nat) :
    Valid (s.take n) ↔ cutsBetween s n = true := by
  obtain ⟨t, rfl⟩ := valid_iff.mp h
  by_cases hn : n < (text t).length
  · have hpos : (⟨n⟩ : String.Pos.Raw) < t.rawEndPos := by
      simpa [String.Pos.Raw.lt_iff, length_text] using hn
    have hvalid : Valid ((text t).take n) ↔ (⟨n⟩ : String.Pos.Raw).IsValid t := by
      rw [Valid, toByteArray_take, toByteArray_text,
        String.Pos.Raw.isValid_iff_isValidUTF8_extract_zero]
      exact (and_iff_right (String.Pos.Raw.le_of_lt hpos)).symm
    have hbyte : (text t)[n]? = some (t.getUTF8Byte ⟨n⟩ hpos) := by
      rw [List.getElem?_eq_getElem hn, Option.some.injEq]
      simp only [String.getUTF8Byte, ← toByteArray_text]
      simp
    rw [hvalid, String.Pos.Raw.isValid_iff_isUTF8FirstByte,
      or_iff_right (String.Pos.Raw.ne_of_lt hpos), cutsBetween, hbyte]
    simp [hpos]
  · have hle := Nat.le_of_not_lt hn
    rw [List.take_of_length_le hle]
    exact iff_of_true h (cutsBetween_of_le hle)

/-- A text may be cut at the end of what it begins with. -/
theorem cutsBetween_append (t t' : String) :
    cutsBetween (text (t ++ t')) (text t).length = true := by
  rw [← valid_take_iff (valid_text _), text_append, List.take_left]
  exact valid_text t

/-- An ASCII byte is in a text as the character it is. -/
theorem mem_text_iff {b : UInt8} (hb : b.toNat < 128) (t : String) :
    b ∈ text t ↔ Char.ofNat b.toNat ∈ t.toList := by
  rw [text, List.mem_flatMap]
  constructor
  · rintro ⟨c, hc, hmem⟩
    by_cases hascii : c.toNat < 128
    · rw [encode_of_ascii hascii, List.mem_singleton] at hmem
      have hnat : b.toNat = c.toNat := by
        rw [hmem, UInt8.toNat_ofNat']
        exact Nat.mod_eq_of_lt (Nat.lt_trans hascii (by decide))
      rw [hnat, Char.ofNat_toNat]
      exact hc
    · exact absurd (le_of_mem_encode (Nat.le_of_not_lt hascii) b hmem) (Nat.not_le_of_lt hb)
  · intro hc
    refine ⟨_, hc, ?_⟩
    rw [encode_ofNat_byte hb]
    exact List.mem_singleton_self b

end Cfscan.Lib.Utf8
