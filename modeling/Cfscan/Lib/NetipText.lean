import Cfscan.Lib.Netip
import Mathlib.Data.List.TakeWhile

/-!
# What `net/netip` prints, it reads back

`parseAddr_string` and `parsePrefix_string`: for every address (with or without a zone) and every
prefix, parsing the printed text gives the value back. The work is in the IPv6 text, whose fields
are read one at a time: each step lemma below reads one printed field and what follows it (the
end, a colon, a `::`), and `parseIPv6Fields_join` is the run.

The other direction does not hold and is not claimed: many texts are read as one address, with
capital letters, with leading zeros in a field, with another run of zeros cut short.
-/

set_option autoImplicit false

namespace Cfscan.Lib.Netip

/-! ## Digits -/

theorem digitValue_digitChar {d : Nat} (hd : d < 10) : digitValue d.digitChar = d := by
  simp [digitValue, Nat.toNat_digitChar_of_lt_ten hd]

theorem digitValue_lt {c : Char} (hc : c.isDigit = true) : digitValue c < 10 := by
  simp only [Char.isDigit, Bool.and_eq_true, decide_eq_true_eq] at hc
  have hle : c.toNat ≤ '9'.toNat := UInt32.le_iff_toNat_le.1 hc.2
  have hnine : '9'.toNat = 57 := rfl
  show c.toNat - 48 < 10
  omega

theorem hexValue_digitChar : ∀ d < 16, hexValue d.digitChar = some d := by decide

theorem isDigit_of_mem_decimal {n : Nat} {c : Char} (hc : c ∈ decimal n) : c.isDigit = true :=
  Nat.isDigit_of_mem_toDigits (by decide) (by decide) hc

theorem decimal_ne_nil (n : Nat) : decimal n ≠ [] := Nat.toDigits_ne_nil

theorem hex_ne_nil (n : Nat) : hex n ≠ [] := Nat.toDigits_ne_nil

/-- A number above the base prints as its quotient followed by its last digit. -/
theorem toDigits_snoc {b m d : Nat} (hb : 1 < b) (hm : 0 < m) (hd : d < b) :
    Nat.toDigits b (b * m + d) = Nat.toDigits b m ++ [d.digitChar] := by
  rw [← Nat.toDigits_append_toDigits hb hm hd, Nat.toDigits_of_lt_base hd]

theorem exists_hexValue_of_mem_hex {n : Nat} {c : Char} (hc : c ∈ hex n) :
    ∃ d, hexValue c = some d := by
  unfold hex at hc
  induction n using Nat.base_induction 16 (by decide) with
  | single m hm =>
    rw [Nat.toDigits_of_lt_base hm, List.mem_singleton] at hc
    exact ⟨m, hc ▸ hexValue_digitChar m hm⟩
  | digit m k hk hm ih =>
    rw [toDigits_snoc (by decide) hm hk, List.mem_append, List.mem_singleton] at hc
    rcases hc with hc | rfl
    · exact ih hc
    · exact ⟨k, hexValue_digitChar k hk⟩

/-! ## IPv4 -/

/-- The field loop reads a printed octet whatever follows it. -/
theorem parseIPv4Fields_decimal {done : List Nat} {n : Nat} (hn : n ≤ 255) (rest : List Char) :
    parseIPv4Fields done 0 0 (decimal n ++ rest) =
      parseIPv4Fields done n (decimal n).length rest := by
  unfold decimal
  induction n using Nat.base_induction 10 (by decide) generalizing rest with
  | single m hm =>
    rw [Nat.toDigits_of_lt_base hm, List.singleton_append, parseIPv4Fields]
    simp [digitValue_digitChar hm, hm, show ¬ m > 255 by omega]
  | digit m k hk hm ih =>
    rw [toDigits_snoc (by decide) hm hk, List.append_assoc, ih (by omega), List.singleton_append,
      parseIPv4Fields]
    simp only [Nat.isDigit_digitChar, hk, decide_true, if_true, digitValue_digitChar hk,
      show ¬ ((Nat.toDigits 10 m).length = 1 ∧ m = 0) by omega, if_false,
      show ¬ m * 10 + k > 255 by omega, List.length_append, List.length_singleton,
      Nat.mul_comm 10 m]

theorem parseIPv4Fields_dot {done : List Nat} {val digLen : Nat} {rest : List Char}
    (hlen : digLen ≠ 0) (hrest : rest ≠ []) (hdone : done.length < 3) :
    parseIPv4Fields done val digLen ('.' :: rest) = parseIPv4Fields (done ++ [val]) 0 0 rest := by
  rw [parseIPv4Fields]
  simp [hlen, hrest, show ¬ done.length = 3 by omega, show Char.isDigit '.' = false by decide]

theorem length_decimal_ne_zero (n : Nat) : (decimal n).length ≠ 0 := by
  simp [decimal_ne_nil]

/-- Four printed octets are read back. -/
theorem parseIPv4Fields_octets {digits : List Nat} (hlen : digits.length = 4)
    (hdigits : ∀ d ∈ digits, d ≤ 255) :
    parseIPv4Fields [] 0 0 (['.'].intercalate (digits.map decimal)) = some digits := by
  match digits, hlen with
  | [a, b, c, d], _ =>
    simp only [List.mem_cons, forall_eq_or_imp] at hdigits
    obtain ⟨ha, hb, hc, hd, -⟩ := hdigits
    simp only [List.map_cons, List.map_nil, List.intercalate_cons_cons, List.intercalate_singleton,
      List.append_assoc, List.singleton_append]
    rw [parseIPv4Fields_decimal ha, parseIPv4Fields_dot (length_decimal_ne_zero a) (by simp)
        (by simp), parseIPv4Fields_decimal hb, parseIPv4Fields_dot (length_decimal_ne_zero b)
        (by simp) (by simp), parseIPv4Fields_decimal hc,
      parseIPv4Fields_dot (length_decimal_ne_zero c) (by simp [decimal_ne_nil]) (by simp)]
    rw [← List.append_nil (decimal d), parseIPv4Fields_decimal hd]
    simp [parseIPv4Fields]

theorem octet_le {value : BitVec 32} {d : Nat} (hd : d ∈ octets value) : d ≤ 255 :=
  Nat.le_of_lt_succ (lt_of_mem_fields (by decide) hd)

@[simp] theorem length_octets (value : BitVec 32) : (octets value).length = 4 :=
  length_fields _ _ _

theorem parseIPv4Fields_string4 (value : BitVec 32) :
    parseIPv4Fields [] 0 0 (string4 value) = some (octets value) :=
  parseIPv4Fields_octets (length_octets value) fun _ => octet_le

/-! ## IPv6 fields

What the parser does with one printed field is one lemma for each thing that can follow it:
nothing, a colon, an ellipsis. Longer texts go by induction on the list of fields. -/

theorem hextet_lt {value : BitVec 128} {d : Nat} (hd : d ∈ hextets value) : d < 65536 :=
  lt_of_mem_fields (by decide) hd

theorem length_hex_le {m : Nat} (hm : m < 4096) : (Nat.toDigits 16 m).length ≤ 3 :=
  (Nat.length_toDigits_le_iff (by decide) (by decide)).2 hm

/-- The hexadecimal loop reads a printed field whatever follows it. -/
theorem readHex_hex {n : Nat} (hn : n < 65536) (rest : List Char) :
    readHex 0 0 (hex n ++ rest) = readHex n (hex n).length rest := by
  unfold hex
  induction n using Nat.base_induction 16 (by decide) generalizing rest with
  | single m hm =>
    rw [Nat.toDigits_of_lt_base hm, List.singleton_append, readHex]
    simp [hexValue_digitChar m hm, show m ≤ 65535 by omega]
  | digit m k hk hm ih =>
    have hlen : (Nat.toDigits 16 m).length ≤ 3 := length_hex_le (by omega)
    rw [toDigits_snoc (by decide) hm hk, List.append_assoc, ih (by omega), List.singleton_append,
      readHex, hexValue_digitChar k hk]
    simp only [show ¬ (Nat.toDigits 16 m).length > 3 by omega, if_false,
      show ¬ m * 16 + k > 65535 by omega, List.length_append, List.length_singleton,
      Nat.mul_comm 16 m]

theorem readHex_stop {acc off : Nat} {c : Char} {rest : List Char} (hc : hexValue c = none) :
    readHex acc off (c :: rest) = some (acc, off, c :: rest) := by
  rw [readHex, hc]

/-- Decimal digits are hexadecimal ones, so the loop runs over an octet and stops at its dot. -/
theorem readHex_octet {acc off : Nat} {cs : List Char} (hcs : ∀ c ∈ cs, c.isDigit = true)
    (hoff : off + cs.length ≤ 4) (hacc : acc < 16 ^ off) (rest : List Char) :
    ∃ acc', readHex acc off (cs ++ '.' :: rest) = some (acc', off + cs.length, '.' :: rest) := by
  induction cs generalizing acc off with
  | nil => exact ⟨acc, readHex_stop (by decide)⟩
  | cons c cs ih =>
    simp only [List.mem_cons, forall_eq_or_imp, List.length_cons] at hcs hoff
    have hd : digitValue c < 10 := digitValue_lt hcs.1
    have hpow : (16 : Nat) ^ (off + 1) ≤ 16 ^ 4 := Nat.pow_le_pow_right (by decide) (by omega)
    have hacc' : acc * 16 + digitValue c < 16 ^ (off + 1) := by rw [Nat.pow_succ]; omega
    obtain ⟨acc', hacc'⟩ := ih hcs.2 (by omega) hacc'
    refine ⟨acc', ?_⟩
    rw [List.cons_append, readHex, hexValue, if_pos hcs.1]
    simp only [show ¬ off > 3 by omega, if_false, show ¬ acc * 16 + digitValue c > 65535 by omega]
    rw [hacc', List.length_cons, Nat.add_assoc, Nat.add_comm 1]

/-- Printed fields start with a character that is not a colon. -/
theorem intercalate_hex_cons (x : Nat) (xs : List Nat) :
    ∃ c rest, c ≠ ':' ∧ [':'].intercalate ((x :: xs).map hex) = c :: rest := by
  obtain ⟨c, cs, hcs⟩ := List.exists_cons_of_ne_nil (hex_ne_nil x)
  have hc : c ≠ ':' := by
    rintro rfl
    obtain ⟨d, hd⟩ := exists_hexValue_of_mem_hex (n := x) (hcs ▸ List.mem_cons_self)
    simp [show hexValue ':' = none by decide] at hd
  cases xs with
  | nil => exact ⟨c, cs, hc, by simp [hcs]⟩
  | cons y ys => exact ⟨c, _, hc, by
      rw [List.map_cons, List.map_cons, List.intercalate_cons_cons, hcs]; rfl⟩

section Fields

variable {done : List Nat} {ellipsis : Option Nat} {room n : Nat}

/-- A field at the end of the text. -/
theorem parseIPv6Fields_last (hn : n < 65536) :
    parseIPv6Fields done ellipsis (room + 1) (hex n) = some (done ++ [n], ellipsis) := by
  have hread := readHex_hex hn []
  rw [List.append_nil] at hread
  rw [parseIPv6Fields, hread]
  simp [readHex, hex_ne_nil]

/-- A field with another after it. -/
theorem parseIPv6Fields_colon (hn : n < 65536) {c : Char} (hc : c ≠ ':') (rest : List Char) :
    parseIPv6Fields done ellipsis (room + 1) (hex n ++ ':' :: c :: rest) =
      parseIPv6Fields (done ++ [n]) ellipsis room (c :: rest) := by
  rw [parseIPv6Fields, readHex_hex hn, readHex_stop (by decide)]
  simp [hex_ne_nil, hc]

/-- A field with the `::` after it. -/
theorem parseIPv6Fields_ellipsis (hn : n < 65536) (rest : List Char) :
    parseIPv6Fields done none (room + 1) (hex n ++ ':' :: ':' :: rest) =
      if rest = [] then some (done ++ [n], some (done.length + 1))
      else parseIPv6Fields (done ++ [n]) (some (done.length + 1)) room rest := by
  rw [parseIPv6Fields, readHex_hex hn, readHex_stop (by decide)]
  simp [hex_ne_nil]

end Fields

/-- A run of fields up to the end of the text. -/
theorem parseIPv6Fields_join (done : List Nat) (ellipsis : Option Nat) {xs : List Nat} {room : Nat}
    (hne : xs ≠ []) (hxs : ∀ x ∈ xs, x < 65536) (hroom : xs.length ≤ room) :
    parseIPv6Fields done ellipsis room ([':'].intercalate (xs.map hex)) =
      some (done ++ xs, ellipsis) := by
  induction xs generalizing done room with
  | nil => exact absurd rfl hne
  | cons x xs ih =>
    obtain ⟨room, rfl⟩ : ∃ r, room = r + 1 := ⟨room - 1, by simp at hroom; omega⟩
    have hx : x < 65536 := hxs x (by simp)
    cases xs with
    | nil => simpa using parseIPv6Fields_last hx
    | cons y ys =>
      obtain ⟨c, rest, hc, htext⟩ := intercalate_hex_cons y ys
      have ih := @ih (done ++ [x]) room (by simp)
        (fun z hz => hxs z (List.mem_cons_of_mem _ hz)) (by simpa using hroom)
      rw [List.map_cons, List.map_cons, List.intercalate_cons_cons, ← List.map_cons, htext] at *
      simp only [List.append_assoc, List.singleton_append]
      rw [parseIPv6Fields_colon hx hc, ih, List.append_assoc, List.singleton_append]

/-- A run of fields with the `::` after it, and the fields that follow the `::`. -/
theorem parseIPv6Fields_joinEllipsis (done : List Nat) {xs ys : List Nat} {room : Nat}
    (hne : xs ≠ []) (hxs : ∀ x ∈ xs, x < 65536) (hys : ∀ y ∈ ys, y < 65536)
    (hroom : xs.length + ys.length ≤ room) :
    parseIPv6Fields done none room
        ([':'].intercalate (xs.map hex) ++ ':' :: ':' :: [':'].intercalate (ys.map hex)) =
      some (done ++ xs ++ ys, some (done.length + xs.length)) := by
  induction xs generalizing done room with
  | nil => exact absurd rfl hne
  | cons x xs ih =>
    obtain ⟨room, rfl⟩ : ∃ r, room = r + 1 := ⟨room - 1, by simp at hroom; omega⟩
    have hx : x < 65536 := hxs x (by simp)
    have hroom : xs.length + ys.length ≤ room := by simp at hroom; omega
    cases xs with
    | nil =>
      rw [List.map_singleton, List.intercalate_singleton, parseIPv6Fields_ellipsis hx]
      cases ys with
      | nil => simp
      | cons y ys =>
        obtain ⟨c, rest, -, htext⟩ := intercalate_hex_cons y ys
        rw [if_neg (by rw [htext]; simp),
          parseIPv6Fields_join _ _ (by simp) hys (by simpa using hroom)]
        simp
    | cons z zs =>
      obtain ⟨c, rest, hc, htext⟩ := intercalate_hex_cons z zs
      have ih := @ih (done ++ [x]) room (by simp)
        (fun w hw => hxs w (List.mem_cons_of_mem _ hw)) hroom
      rw [htext] at ih
      rw [List.map_cons, List.map_cons, List.intercalate_cons_cons, ← List.map_cons, htext]
      simp only [List.append_assoc, List.cons_append, List.nil_append] at ih ⊢
      rw [parseIPv6Fields_colon hx hc, ih]
      simp only [List.length_append, List.length_cons, List.length_nil]
      congr 3
      omega

/-- The IPv4 tail, in the place of the last two fields. -/
theorem parseIPv6Fields_octets (done : List Nat) (at_ room : Nat) {digits : List Nat}
    (hlen : digits.length = 4) (hdigits : ∀ d ∈ digits, d ≤ 255) :
    parseIPv6Fields done (some at_) (room + 2) (['.'].intercalate (digits.map decimal)) =
      some (done ++ fields 65536 2 (joinFields 256 digits), some at_) := by
  have hfields := parseIPv4Fields_octets hlen hdigits
  match digits, hlen with
  | [a, b, c, d], _ =>
    have ha : (decimal a).length ≤ 3 :=
      (Nat.length_toDigits_le_iff (by decide) (by decide)).2
        (Nat.lt_of_le_of_lt (hdigits a (by simp)) (by decide))
    obtain ⟨acc, hread⟩ := @readHex_octet 0 0 (decimal a)
      (fun _ => isDigit_of_mem_decimal) (by omega) (by decide)
      (['.'].intercalate ([b, c, d].map decimal))
    have htext : ['.'].intercalate ([a, b, c, d].map decimal) =
        decimal a ++ '.' :: ['.'].intercalate ([b, c, d].map decimal) := by
      rw [List.map_cons, List.map_cons, List.intercalate_cons_cons, ← List.map_cons]; simp
    rw [htext] at hfields ⊢
    rw [parseIPv6Fields, hread]
    generalize ['.'].intercalate ([b, c, d].map decimal) = tail at hfields ⊢
    simp [hfields, decimal_ne_nil]

/-! ## The longest run of zeros

The round trip needs of `zeroRun` only that what it names is a run of zeros. That it is the
longest, and the first of those, decides how the text looks and not what it means. -/

/-- A run `(start, length)` names zero fields of the list. -/
def IsRun (digits : List Nat) (run : Nat × Nat) : Prop :=
  run.1 + run.2 ≤ digits.length ∧
    (digits.drop run.1).take run.2 = List.replicate run.2 0

theorem isRun_zeros {digits : List Nat} {i : Nat} (hi : i ≤ digits.length) :
    IsRun digits (i, zeros (digits.drop i)) := by
  have hle : zeros (digits.drop i) ≤ (digits.drop i).length :=
    (List.takeWhile_sublist _).length_le
  refine ⟨by simp only [List.length_drop] at hle; simp only; omega, ?_⟩
  have htake : (digits.drop i).take (zeros (digits.drop i)) =
      (digits.drop i).takeWhile (· == 0) :=
    (List.prefix_iff_eq_take.1 (List.takeWhile_prefix _)).symm
  simp only [htake]
  exact List.eq_replicate_iff.2 ⟨rfl, fun d hd => by simpa using List.mem_takeWhile_imp hd⟩

theorem isRun_zeroRun (digits : List Nat) : IsRun digits (zeroRun digits) := by
  unfold zeroRun
  -- the loop invariant: the best run so far is a run
  suffices h : ∀ (is : List Nat) (best : Nat × Nat), (∀ i ∈ is, i ≤ digits.length) →
      IsRun digits best →
      IsRun digits (is.foldl (fun best i =>
        let run := zeros (digits.drop i)
        if run ≥ 2 ∧ run > best.2 then (i, run) else best) best) from
    h _ _ (fun i hi => (List.mem_range.1 hi).le) ⟨by simp, by simp⟩
  intro is
  induction is with
  | nil => exact fun _ _ hbest => hbest
  | cons i is ih =>
    intro best his hbest
    refine ih _ (fun j hj => his j (List.mem_cons_of_mem _ hj)) ?_
    dsimp only
    split
    · exact isRun_zeros (his i List.mem_cons_self)
    · exact hbest

/-- The list with its run taken out, and put back. -/
theorem IsRun.split {digits : List Nat} {run : Nat × Nat} (h : IsRun digits run) :
    digits.take run.1 ++ List.replicate run.2 0 ++ digits.drop (run.1 + run.2) = digits := by
  rw [← h.2, ← List.drop_drop, List.append_assoc, List.take_append_drop, List.take_append_drop]

/-! ## IPv6 text -/

theorem mem_intercalate {sep c : Char} {xss : List (List Char)}
    (hc : c ∈ [sep].intercalate xss) : c = sep ∨ ∃ xs ∈ xss, c ∈ xs := by
  induction xss with
  | nil => simp at hc
  | cons xs xss ih =>
    cases xss with
    | nil => exact .inr ⟨xs, by simpa using hc⟩
    | cons ys xss =>
      rw [List.intercalate_cons_cons] at hc
      simp only [List.mem_append, List.mem_singleton] at hc
      rcases hc with (hc | hc) | hc
      · exact .inr ⟨xs, by simp, hc⟩
      · exact .inl hc
      · rcases ih hc with hc | ⟨zs, hzs, hc⟩
        · exact .inl hc
        · exact .inr ⟨zs, List.mem_cons_of_mem _ hzs, hc⟩

theorem mem_string4 {value : BitVec 32} {c : Char} (hc : c ∈ string4 value) :
    c = '.' ∨ c.isDigit = true := by
  rcases mem_intercalate hc with hc | ⟨xs, hxs, hc⟩
  · exact .inl hc
  · obtain ⟨d, -, rfl⟩ := List.mem_map.1 hxs
    exact .inr (isDigit_of_mem_decimal hc)

theorem mem_join_hex {xs : List Nat} {c : Char} (hc : c ∈ [':'].intercalate (xs.map hex)) :
    c = ':' ∨ ∃ d, hexValue c = some d := by
  rcases mem_intercalate hc with hc | ⟨ys, hys, hc⟩
  · exact .inl hc
  · obtain ⟨d, -, rfl⟩ := List.mem_map.1 hys
    exact .inr (exists_hexValue_of_mem_hex hc)

theorem mem_string6 {value : BitVec 128} {c : Char} (hc : c ∈ string6 value) :
    c = ':' ∨ ∃ d, hexValue c = some d := by
  unfold string6 at hc
  dsimp only at hc
  split at hc
  · exact mem_join_hex hc
  · simp only [List.mem_append, List.mem_cons, List.not_mem_nil, or_false] at hc
    rcases hc with (hc | hc | hc) | hc
    · exact mem_join_hex hc
    · exact .inl hc
    · exact .inl hc
    · exact mem_join_hex hc

/-- Text that starts with a field is read by the loop from its start. -/
theorem parseIPv6Body_of_ne {c : Char} {rest : List Char} (hc : c ≠ ':') :
    parseIPv6Body (c :: rest) =
      (parseIPv6Fields [] none 8 (c :: rest)).bind fun r => expand r.1 r.2 := by
  unfold parseIPv6Body
  split
  · simp_all
  · simp_all
  · rfl

theorem parseIPv6Body_ellipsis {rest : List Char} (hrest : rest ≠ []) :
    parseIPv6Body (':' :: ':' :: rest) =
      (parseIPv6Fields [] (some 0) 8 rest).bind fun r => expand r.1 r.2 := by
  cases rest with
  | nil => exact absurd rfl hrest
  | cons c rest => rfl

@[simp] theorem length_hextets (value : BitVec 128) : (hextets value).length = 8 :=
  length_fields _ _ _

/-- The `::` puts back the zeros it stood for. -/
theorem expand_ellipsis (left right : List Nat) {len : Nat} (hlen : len ≠ 0)
    (htotal : left.length + len + right.length = 8) :
    expand (left ++ right) (some left.length) = some (left ++ List.replicate len 0 ++ right) := by
  have hlt : (left ++ right).length < 8 := by rw [List.length_append]; omega
  rw [expand, if_pos hlt, List.take_left, List.drop_left, List.length_append]
  congr 4
  omega

theorem parseIPv6Body_string6 (value : BitVec 128) :
    parseIPv6Body (string6 value) = some (hextets value) := by
  have hlen := length_hextets value
  have hlt : ∀ d ∈ hextets value, d < 65536 := fun _ => hextet_lt
  unfold string6
  dsimp only
  generalize hextets value = digits at hlen hlt ⊢
  have hrun := isRun_zeroRun digits
  generalize zeroRun digits = run at hrun ⊢
  obtain ⟨start, len⟩ := run
  have hsplit := hrun.split
  have hle : start + len ≤ 8 := hlen ▸ hrun.1
  simp only at hsplit ⊢
  have hleft : ∀ d ∈ digits.take start, d < 65536 := fun d hd => hlt d (List.mem_of_mem_take hd)
  have hright : ∀ d ∈ digits.drop (start + len), d < 65536 :=
    fun d hd => hlt d (List.mem_of_mem_drop hd)
  split
  next hnone =>
    -- no run: eight fields
    have hne : digits ≠ [] := by rintro rfl; simp at hlen
    obtain ⟨d, ds, rfl⟩ := List.exists_cons_of_ne_nil hne
    obtain ⟨c, rest, hc, htext⟩ := intercalate_hex_cons d ds
    have hjoin := parseIPv6Fields_join [] none hne hlt hlen.le
    rw [htext] at hjoin ⊢
    rw [parseIPv6Body_of_ne hc, hjoin]
    simp [expand, hlen]
  next hsome =>
    have hlenLeft : (digits.take start).length = start := by rw [List.length_take]; omega
    have hlenRight : (digits.drop (start + len)).length = 8 - (start + len) := by
      rw [List.length_drop, hlen]
    have hexpand := expand_ellipsis (digits.take start) (digits.drop (start + len)) hsome
      (by omega)
    rw [hsplit] at hexpand
    generalize digits.take start = left at hleft hlenLeft hexpand ⊢
    generalize digits.drop (start + len) = right at hright hlenRight hexpand ⊢
    cases left with
    | nil =>
      cases right with
      | nil =>
        -- the unspecified address, written `::`
        simpa [parseIPv6Body, expand] using hexpand
      | cons d ds =>
        obtain ⟨c, rest, -, htext⟩ := intercalate_hex_cons d ds
        have hjoin := parseIPv6Fields_join [] (some 0) (List.cons_ne_nil d ds) hright
          (show _ ≤ 8 by omega)
        rw [htext] at hjoin ⊢
        rw [List.map_nil, List.intercalate_nil, List.nil_append, List.cons_append,
          List.cons_append, List.nil_append, parseIPv6Body_ellipsis (by simp), hjoin]
        exact hexpand
    | cons d ds =>
      obtain ⟨c, rest, hc, htext⟩ := intercalate_hex_cons d ds
      have hjoin := parseIPv6Fields_joinEllipsis [] (List.cons_ne_nil d ds) hleft hright
        (show _ ≤ 8 by omega)
      rw [htext] at hjoin ⊢
      simp only [List.append_assoc, List.cons_append, List.nil_append] at hjoin ⊢
      rw [parseIPv6Body_of_ne hc, hjoin]
      simpa using hexpand

/-- The fields of an IPv4-mapped address: five zeros, `ffff`, and the two of the IPv4 address. -/
theorem hextets_is4In6 {value : BitVec 128} (h : is4In6 value = true) :
    hextets value = List.replicate 5 0 ++
      (65535 :: fields 65536 2 (joinFields 256 (octets (value.truncate 32)))) := by
  have hhigh : value.toNat / 2 ^ 32 = 65535 := by simpa [is4In6] using h
  have hlow : joinFields 256 (octets (value.truncate 32)) = value.toNat % 2 ^ 32 := by
    rw [octets, joinFields_fields, BitVec.truncate_eq_setWidth, BitVec.toNat_setWidth]
    omega
  rw [hlow]
  simp only [hextets, fields, List.nil_append, List.cons_append, List.replicate]
  simp only [List.cons.injEq, and_true]
  omega

theorem parseIPv6Body_4in6 {value : BitVec 128} (h : is4In6 value = true) :
    parseIPv6Body (string4In6 value) = some (hextets value) := by
  have hoctets := parseIPv6Fields_octets [65535] 0 5
    (length_octets (value.truncate 32)) fun _ => octet_le
  have hexpand := expand_ellipsis []
    (65535 :: fields 65536 2 (joinFields 256 (octets (value.truncate 32))))
    (show 5 ≠ 0 by decide) (by simp)
  obtain ⟨c, rest, hc, htext⟩ : ∃ c rest, c ≠ ':' ∧ string4 (value.truncate 32) = c :: rest := by
    cases htext : string4 (value.truncate 32) with
    | nil => simpa [htext, parseIPv4Fields] using parseIPv4Fields_string4 (value.truncate 32)
    | cons c rest =>
      refine ⟨c, rest, ?_, rfl⟩
      rintro rfl
      rcases mem_string4 (c := ':') (htext ▸ List.mem_cons_self) with h | h <;>
        exact absurd h (by decide)
  have hfield : parseIPv6Fields [] (some 0) 8 (hex 65535 ++ ':' :: c :: rest) =
      parseIPv6Fields [65535] (some 0) 7 (c :: rest) :=
    parseIPv6Fields_colon (by decide) hc rest
  rw [← htext, show hex 65535 = ['f', 'f', 'f', 'f'] by decide] at hfield
  show parseIPv6Body (':' :: ':' :: (['f', 'f', 'f', 'f'] ++ ':' :: string4 _)) = _
  rw [parseIPv6Body_ellipsis (by simp), hfield]
  show (parseIPv6Fields [65535] (some 0) 7 (['.'].intercalate _)).bind _ = _
  rw [hoctets, hextets_is4In6 h]
  exact hexpand

/-! ## Round trips -/

theorem mem_intercalate_sep (sep : Char) {xss : List (List Char)} (hlen : 2 ≤ xss.length) :
    sep ∈ [sep].intercalate xss := by
  match xss, hlen with
  | xs :: ys :: xss, _ => rw [List.intercalate_cons_cons]; simp

theorem dot_mem_string4 (value : BitVec 32) : '.' ∈ string4 value :=
  mem_intercalate_sep _ (by simp)

theorem colon_mem_string6 (value : BitVec 128) : ':' ∈ string6 value := by
  unfold string6
  dsimp only
  split
  · exact mem_intercalate_sep _ (by simp)
  · simp

theorem hexValue_ne {c : Char} (hc : ∃ d, hexValue c = some d) :
    c ≠ '.' ∧ c ≠ ':' ∧ c ≠ '%' := by
  obtain ⟨d, hd⟩ := hc
  refine ⟨?_, ?_, ?_⟩ <;> rintro rfl
  · simp [show hexValue '.' = none by decide] at hd
  · simp [show hexValue ':' = none by decide] at hd
  · simp [show hexValue '%' = none by decide] at hd

theorem hexValue_of_isDigit {c : Char} (hc : c.isDigit = true) : ∃ d, hexValue c = some d :=
  ⟨digitValue c, by rw [hexValue, if_pos hc]⟩

/-- The text of an IPv6 address before its zone. -/
def body (value : BitVec 128) : List Char :=
  if is4In6 value then string4In6 value else string6 value

theorem parseIPv6Body_body (value : BitVec 128) :
    parseIPv6Body (body value) = some (hextets value) := by
  unfold body
  split
  next h => exact parseIPv6Body_4in6 h
  next => exact parseIPv6Body_string6 value

theorem percent_notMem_body (value : BitVec 128) : '%' ∉ body value := by
  unfold body
  split
  · intro h
    rcases List.mem_append.1 h with h | h
    · simp at h
    · rcases mem_string4 h with h | h
      · simp at h
      · exact (hexValue_ne (hexValue_of_isDigit h)).2.2 rfl
  · intro h
    rcases mem_string6 h with h | h
    · simp at h
    · exact (hexValue_ne h).2.2 rfl

theorem firstMark_eq {s : List Char} {mark : Char} (hmem : mark ∈ s)
    (hmark : mark = '.' ∨ mark = ':') (hs : ∀ c ∈ s, c = mark ∨ ∃ d, hexValue c = some d) :
    firstMark s = some mark := by
  unfold firstMark
  cases hfind : s.find? fun c => c == '.' || c == ':' || c == '%' with
  | none =>
    have := List.find?_eq_none.1 hfind mark hmem
    rcases hmark with rfl | rfl <;> simp at this
  | some c =>
    have hc := List.find?_some hfind
    rcases hs c (List.mem_of_find?_eq_some hfind) with rfl | hhex
    · rfl
    · obtain ⟨hdot, hcolon, hpercent⟩ := hexValue_ne hhex
      simp [hdot, hcolon, hpercent] at hc

theorem firstMark_string4 (value : BitVec 32) : firstMark (string4 value) = some '.' :=
  firstMark_eq (dot_mem_string4 value) (.inl rfl) fun _ hc =>
    (mem_string4 hc).imp_right hexValue_of_isDigit

theorem firstMark_body (value : BitVec 128) (suffix : List Char) :
    firstMark (body value ++ suffix) = some ':' := by
  have hbody : firstMark (body value) = some ':' := by
    unfold body
    split
    · rfl
    · exact firstMark_eq (colon_mem_string6 value) (.inr rfl) fun _ => mem_string6
  unfold firstMark at hbody ⊢
  rw [List.find?_append, hbody]
  rfl

/-- Reading the body of an IPv6 address and its zone. -/
theorem parseIPv6_chars (value : BitVec 128) (zone : String) :
    parseIPv6 (Addr.chars (.v6 value zone)) = some (.v6 value zone) := by
  have hplain : ∀ c ∈ body value, (c != '%') = true := by
    intro c hc
    simpa using fun h : c = '%' => percent_notMem_body value (h ▸ hc)
  show parseIPv6 (body value ++ zoneSuffix zone) = _
  unfold parseIPv6
  dsimp only
  rw [List.takeWhile_append_of_pos hplain, List.dropWhile_append_of_pos hplain]
  by_cases hzone : zone = ""
  · simp [zoneSuffix, hzone, parseIPv6Body_body]
  · obtain ⟨z, zs, hzs⟩ := List.exists_cons_of_ne_nil (l := zone.toList)
      (by rwa [Ne, String.toList_eq_nil_iff])
    have hzone' : String.ofList (z :: zs) = zone := by rw [← hzs, String.ofList_toList]
    simp only [zoneSuffix, hzone, if_false, hzs]
    simp [parseIPv6Body_body, hzone']

/-- **An address is read back from its text.** -/
theorem parseAddr_string (a : Addr) : parseAddr a.string = some a := by
  rw [parseAddr, Addr.string, String.toList_ofList, parseAddrChars]
  cases a with
  | v4 value =>
    have hmark : firstMark (Addr.chars (.v4 value)) = some '.' := firstMark_string4 value
    rw [hmark]
    simp [Addr.chars, parseIPv4, parseIPv4Fields_string4]
  | v6 value zone =>
    have hmark : firstMark (Addr.chars (.v6 value zone)) = some ':' := firstMark_body value _
    rw [hmark]
    exact parseIPv6_chars value zone

theorem cutLast_append {sep : Char} {before after : List Char} (h : sep ∉ after) :
    cutLast sep (before ++ sep :: after) = some (before, after) := by
  have hnone : cutLast sep after = none := by
    induction after with
    | nil => rfl
    | cons c rest ih =>
      simp only [List.mem_cons, not_or] at h
      rw [cutLast, ih h.2, if_neg (Ne.symm h.1)]
  induction before with
  | nil => simp [cutLast, hnone]
  | cons c rest ih => simp [cutLast, ih]

/-- Only zero prints with a leading zero. -/
theorem eq_zero_of_head_decimal {n : Nat} (h : (decimal n).head? = some '0') : n = 0 := by
  unfold decimal at h
  induction n using Nat.base_induction 10 (by decide) with
  | single m hm => simpa [Nat.toDigits_of_lt_base hm] using h
  | digit m k hk hm ih =>
    rw [toDigits_snoc (by decide) hm hk, List.head?_append_of_ne_nil _ Nat.toDigits_ne_nil] at h
    exact absurd (ih h) hm.ne'

theorem parseBits_decimal (n : Nat) : parseBits (decimal n) = some n := by
  have hdigits : (decimal n).any (fun c => !c.isDigit) = false := by
    simpa using fun c hc => isDigit_of_mem_decimal (n := n) hc
  have hzero : ¬ ((decimal n).length > 1 ∧ (decimal n).head? = some '0') := by
    rintro ⟨hlen, hhead⟩
    rw [eq_zero_of_head_decimal hhead] at hlen
    exact absurd hlen (by decide)
  rw [parseBits, if_neg (by simp [decimal_ne_nil, hdigits]), if_neg hzero, decimal,
    Nat.ofDigitChars_ten_toDigits]

theorem parsePrefix_string (p : Prefix) : parsePrefix p.string = some p := by
  have hslash : '/' ∉ decimal p.bits := fun h => absurd (isDigit_of_mem_decimal h) (by decide)
  have haddr : parseAddrChars p.addr.chars = some p.addr := by
    simpa [parseAddr, Addr.string] using parseAddr_string p.addr
  simp [parsePrefix, Prefix.string, Prefix.chars, cutLast_append hslash, haddr, parseBits_decimal,
    prefixFrom, p.zoneless, p.bits_le]

end Cfscan.Lib.Netip
