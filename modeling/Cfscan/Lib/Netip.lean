import Mathlib.Data.List.Basic
import Mathlib.Data.Nat.Digits.Defs

/-!
# IP addresses and prefixes, as Go's `net/netip` reads and prints them

`Addr` is an IPv4 address, or an IPv6 address with a zone (the empty zone is no zone); `Prefix` is
a zoneless address with a length its family allows. `parseAddr` and `parsePrefix` follow the
parsers of the package character by character (leading zeros, the `::`, the embedded IPv4 tail,
the zone), and `string` its printers (the longest run of zero fields, `::ffff:` before an
IPv4-mapped address). Parsing returns `none` where Go returns an error.

Text is a list of characters. Go's strings are bytes, but a byte outside ASCII is an error wherever
these parsers look at it, except in a zone, which is only carried along.

The functions are written to be read beside the package and evaluated on examples, which is why they
go through characters by structural recursion. What is proved of masking and containment is about
`toNat`, the address as one number.
-/

set_option autoImplicit false

namespace Cfscan.Lib.Netip

/-! ## Addresses and prefixes -/

inductive Addr where
  | v4 (value : BitVec 32)
  | v6 (value : BitVec 128) (zone : String)
deriving DecidableEq, Repr

namespace Addr

def bitLen : Addr → Nat
  | v4 _ => 32
  | v6 _ _ => 128

def zone : Addr → String
  | v4 _ => ""
  | v6 _ zone => zone

def is4 : Addr → Bool
  | v4 _ => true
  | v6 _ _ => false

/-- The address as a number: `As4` or `As16` read in big-endian order. -/
def toNat : Addr → Nat
  | v4 value => value.toNat
  | v6 value _ => value.toNat

/-- All but the `bits` leading bits of the address cleared. -/
def mask : Addr → Nat → Addr
  | v4 value, bits => v4 ((value >>> (32 - bits)) <<< (32 - bits))
  | v6 value zone, bits => v6 ((value >>> (128 - bits)) <<< (128 - bits)) zone

@[simp] theorem bitLen_mask (a : Addr) (bits : Nat) : (a.mask bits).bitLen = a.bitLen := by
  cases a <;> rfl

@[simp] theorem zone_mask (a : Addr) (bits : Nat) : (a.mask bits).zone = a.zone := by
  cases a <;> rfl

@[simp] theorem is4_mask (a : Addr) (bits : Nat) : (a.mask bits).is4 = a.is4 := by
  cases a <;> rfl

end Addr

structure Prefix where
  addr : Addr
  bits : Nat
  bits_le : bits ≤ addr.bitLen
  zoneless : addr.zone = ""
deriving DecidableEq, Repr

namespace Prefix

def masked (p : Prefix) : Prefix where
  addr := p.addr.mask p.bits
  bits := p.bits
  bits_le := by simpa using p.bits_le
  zoneless := by simpa using p.zoneless

/-- `Contains`: families must match, an address with a zone is in no prefix, and the leading bits
must agree. -/
def contains (p : Prefix) (a : Addr) : Bool :=
  match p.addr, a with
  | .v4 network, .v4 value => value >>> (32 - p.bits) == network >>> (32 - p.bits)
  | .v6 network _, .v6 value zone =>
      zone == "" && value >>> (128 - p.bits) == network >>> (128 - p.bits)
  | _, _ => false

/-- The number of bits the prefix leaves to its hosts. -/
def hostBits (p : Prefix) : Nat := p.addr.bitLen - p.bits

end Prefix

/-! ## Masks as arithmetic

A mask is two shifts, and on numbers a division and a multiplication by the same power. That
two addresses share a network is then an equation of two quotients. -/

theorem toNat_shift_shift {w : Nat} (value : BitVec w) (k : Nat) :
    ((value >>> k) <<< k).toNat = value.toNat / 2 ^ k * 2 ^ k := by
  have hle : value.toNat / 2 ^ k * 2 ^ k ≤ value.toNat := Nat.div_mul_le_self _ _
  rw [BitVec.toNat_shiftLeft, BitVec.toNat_ushiftRight, Nat.shiftLeft_eq,
    Nat.shiftRight_eq_div_pow, Nat.mod_eq_of_lt (Nat.lt_of_le_of_lt hle value.isLt)]

theorem Addr.toNat_lt (a : Addr) : a.toNat < 2 ^ a.bitLen := by
  cases a with
  | v4 value => exact value.isLt
  | v6 value zone => exact value.isLt

theorem Addr.toNat_mask (a : Addr) (bits : Nat) :
    (a.mask bits).toNat = a.toNat / 2 ^ (a.bitLen - bits) * 2 ^ (a.bitLen - bits) := by
  cases a <;> exact toNat_shift_shift _ _

namespace Prefix

@[simp] theorem bits_masked (p : Prefix) : p.masked.bits = p.bits := rfl

@[simp] theorem is4_masked (p : Prefix) : p.masked.addr.is4 = p.addr.is4 := Addr.is4_mask _ _

@[simp] theorem bitLen_masked (p : Prefix) : p.masked.addr.bitLen = p.addr.bitLen :=
  Addr.bitLen_mask _ _

@[simp] theorem hostBits_masked (p : Prefix) : p.masked.hostBits = p.hostBits := by
  simp [hostBits]

theorem toNat_masked (p : Prefix) :
    p.masked.addr.toNat = p.addr.toNat / 2 ^ p.hostBits * 2 ^ p.hostBits :=
  Addr.toNat_mask _ _

theorem shift_shift_idem {w : Nat} (value : BitVec w) (k : Nat) :
    ((value >>> k) <<< k >>> k) <<< k = (value >>> k) <<< k := by
  apply BitVec.eq_of_toNat_eq
  rw [toNat_shift_shift, toNat_shift_shift, Nat.mul_div_cancel _ (Nat.two_pow_pos k)]

@[simp] theorem masked_masked (p : Prefix) : p.masked.masked = p.masked := by
  obtain ⟨addr, bits, hbits, hzone⟩ := p
  cases addr <;> simp [masked, Addr.mask, shift_shift_idem]

theorem shiftRight_eq_iff {w : Nat} (x y : BitVec w) (k : Nat) :
    x >>> k = y >>> k ↔ x.toNat / 2 ^ k = y.toNat / 2 ^ k := by
  rw [← BitVec.toNat_inj, BitVec.toNat_ushiftRight, BitVec.toNat_ushiftRight,
    Nat.shiftRight_eq_div_pow, Nat.shiftRight_eq_div_pow]

/-- Containment, in numbers. -/
theorem contains_iff (p : Prefix) (a : Addr) :
    p.contains a = true ↔ a.is4 = p.addr.is4 ∧ a.zone = "" ∧
      a.toNat / 2 ^ p.hostBits = p.addr.toNat / 2 ^ p.hostBits := by
  obtain ⟨addr, bits, hbits, hzone⟩ := p
  cases addr <;> cases a <;>
    simp [contains, hostBits, Addr.is4, Addr.zone, Addr.toNat, Addr.bitLen, shiftRight_eq_iff]

end Prefix

/-! ## Fields

An address as digits to the base of its fields, the most significant first: four bytes, or
eight groups of sixteen bits. -/

/-- The `n` digits of a number in base `b`, most significant first. -/
def fields (b : Nat) : Nat → Nat → List Nat
  | 0, _ => []
  | n + 1, value => fields b n (value / b) ++ [value % b]

/-- The number the digits spell. -/
def joinFields (b : Nat) (digits : List Nat) : Nat := digits.foldl (fun value d => value * b + d) 0

@[simp] theorem length_fields (b n value : Nat) : (fields b n value).length = n := by
  induction n generalizing value with
  | zero => rfl
  | succ n ih => simp [fields, ih]

theorem lt_of_mem_fields {b n value d : Nat} (hb : 0 < b) (hd : d ∈ fields b n value) : d < b := by
  induction n generalizing value with
  | zero => simp [fields] at hd
  | succ n ih =>
    simp only [fields, List.mem_append, List.mem_singleton] at hd
    rcases hd with hd | rfl
    · exact ih hd
    · exact Nat.mod_lt _ hb

theorem joinFields_concat (b : Nat) (digits : List Nat) (d : Nat) :
    joinFields b (digits ++ [d]) = joinFields b digits * b + d := by
  simp [joinFields]

theorem joinFields_fields (b n value : Nat) : joinFields b (fields b n value) = value % b ^ n := by
  induction n generalizing value with
  | zero => simp [fields, joinFields, Nat.mod_one]
  | succ n ih =>
    rw [fields, joinFields_concat, ih, Nat.pow_succ, Nat.mul_comm (b ^ n) b, Nat.mod_mul]
    rw [Nat.mul_comm, Nat.add_comm]

def octets (value : BitVec 32) : List Nat := fields 256 4 value.toNat

def hextets (value : BitVec 128) : List Nat := fields 65536 8 value.toNat

def ofOctets (digits : List Nat) : BitVec 32 := BitVec.ofNat 32 (joinFields 256 digits)

def ofHextets (digits : List Nat) : BitVec 128 := BitVec.ofNat 128 (joinFields 65536 digits)

@[simp] theorem ofOctets_octets (value : BitVec 32) : ofOctets (octets value) = value := by
  apply BitVec.eq_of_toNat_eq
  rw [ofOctets, octets, joinFields_fields, BitVec.toNat_ofNat]
  have hvalue := value.isLt
  omega

@[simp] theorem ofHextets_hextets (value : BitVec 128) : ofHextets (hextets value) = value := by
  apply BitVec.eq_of_toNat_eq
  rw [ofHextets, hextets, joinFields_fields, BitVec.toNat_ofNat]
  have hvalue := value.isLt
  omega

/-! ## Printing

An IPv6 address prints its longest run of at least two zero fields as `::`, the first such
run where there are several. A mapped IPv4 address keeps its dotted form behind `::ffff:`. -/

def decimal (n : Nat) : List Char := Nat.toDigits 10 n

def hex (n : Nat) : List Char := Nat.toDigits 16 n

def string4 (value : BitVec 32) : List Char := ['.'].intercalate ((octets value).map decimal)

/-- The number of zero fields at the front. -/
def zeros (digits : List Nat) : Nat := (digits.takeWhile (· == 0)).length

/-- The longest run of at least two zero fields, as its start and its length; the first such run
when several are longest. A length of 0 is no run. -/
def zeroRun (digits : List Nat) : Nat × Nat :=
  (List.range digits.length).foldl (fun best i =>
    let run := zeros (digits.drop i)
    if run ≥ 2 ∧ run > best.2 then (i, run) else best) (0, 0)

/-- The fields in hexadecimal, with the run written `::`. -/
def string6 (value : BitVec 128) : List Char :=
  let digits := hextets value
  let run := zeroRun digits
  if run.2 = 0 then [':'].intercalate (digits.map hex)
  else
    [':'].intercalate ((digits.take run.1).map hex) ++ [':', ':'] ++
      [':'].intercalate ((digits.drop (run.1 + run.2)).map hex)

/-- `Is4In6`: the address is of the form `::ffff:a.b.c.d`. -/
def is4In6 (value : BitVec 128) : Bool := value.toNat / 2 ^ 32 == 65535

def zoneSuffix (zone : String) : List Char := if zone = "" then [] else '%' :: zone.toList

def string4In6 (value : BitVec 128) : List Char :=
  [':', ':', 'f', 'f', 'f', 'f', ':'] ++ string4 (value.truncate 32)

def Addr.chars : Addr → List Char
  | .v4 value => string4 value
  | .v6 value zone =>
      (if is4In6 value then string4In6 value else string6 value) ++ zoneSuffix zone

def Addr.string (a : Addr) : String := String.ofList a.chars

def Prefix.chars (p : Prefix) : List Char := p.addr.chars ++ '/' :: decimal p.bits

def Prefix.string (p : Prefix) : String := String.ofList p.chars

/-! ## Parsing

Field by field, as the source reads them, with the place of an ellipsis and the room that is
left. A leading zero is refused in a dotted field, and so is a prefix length with one. -/

def digitValue (c : Char) : Nat := c.toNat - '0'.toNat

/-- The loop of `parseIPv4Fields`. A dot needs a digit before it and something after it; a field
may not go past 255 nor carry a leading zero. -/
def parseIPv4Fields (done : List Nat) (val digLen : Nat) : List Char → Option (List Nat)
  | [] => if done.length < 3 then none else some (done ++ [val])
  | c :: rest =>
      if c.isDigit then
        if digLen = 1 ∧ val = 0 then none
        else if val * 10 + digitValue c > 255 then none
        else parseIPv4Fields done (val * 10 + digitValue c) (digLen + 1) rest
      else if c = '.' then
        if digLen = 0 ∨ rest = [] then none
        else if done.length = 3 then none
        else parseIPv4Fields (done ++ [val]) 0 0 rest
      else none

def parseIPv4 (s : List Char) : Option Addr :=
  (parseIPv4Fields [] 0 0 s).map fun digits => .v4 (ofOctets digits)

def hexValue (c : Char) : Option Nat :=
  if c.isDigit then some (digitValue c)
  else if 'a' ≤ c ∧ c ≤ 'f' then some (c.toNat - 'a'.toNat + 10)
  else if 'A' ≤ c ∧ c ≤ 'F' then some (c.toNat - 'A'.toNat + 10)
  else none

/-- The hexadecimal number at the front, how many digits it has, and what follows. -/
def readHex (acc off : Nat) : List Char → Option (Nat × Nat × List Char)
  | [] => some (acc, off, [])
  | c :: rest =>
      match hexValue c with
      | none => some (acc, off, c :: rest)
      | some d =>
          if off > 3 then none
          else if acc * 16 + d > 65535 then none
          else readHex (acc * 16 + d) (off + 1) rest

/-- The loop of `parseIPv6`, over the fields still to fill: `done` are the fields so far and
`ellipsis` is where the `::` stood, as a number of fields. -/
def parseIPv6Fields (done : List Nat) (ellipsis : Option Nat) :
    Nat → List Char → Option (List Nat × Option Nat)
  | 0, s => if s = [] then some (done, ellipsis) else none
  | room + 1, s => do
      let (acc, off, rest) ← readHex 0 0 s
      if off = 0 then none
      else
        match rest with
        | [] => some (done ++ [acc], ellipsis)
        | '.' :: _ =>
            -- an embedded IPv4 address takes the last two fields
            if ellipsis = none ∧ done.length ≠ 6 then none
            else if room = 0 then none
            else do
              let digits ← parseIPv4Fields [] 0 0 s
              some (done ++ fields 65536 2 (joinFields 256 digits), ellipsis)
        | [':'] => none
        | ':' :: ':' :: rest =>
            if ellipsis.isSome then none
            else if rest = [] then some (done ++ [acc], some (done.length + 1))
            else parseIPv6Fields (done ++ [acc]) (some (done.length + 1)) room rest
        | ':' :: rest => parseIPv6Fields (done ++ [acc]) ellipsis room rest
        | _ => none

/-- What follows the loop: the `::` stands for at least one field of zeros. -/
def expand (done : List Nat) : Option Nat → Option (List Nat)
  | none => if done.length < 8 then none else some done
  | some at_ =>
      if done.length < 8 then
        some (done.take at_ ++ List.replicate (8 - done.length) 0 ++ done.drop at_)
      else none

/-- The fields of an IPv6 address without its zone. -/
def parseIPv6Body (s : List Char) : Option (List Nat) :=
  match s with
  | [':', ':'] => some (List.replicate 8 0)
  | ':' :: ':' :: rest => (parseIPv6Fields [] (some 0) 8 rest).bind fun r => expand r.1 r.2
  | _ => (parseIPv6Fields [] none 8 s).bind fun r => expand r.1 r.2

def parseIPv6 (s : List Char) : Option Addr :=
  let body := s.takeWhile (· != '%')
  match s.dropWhile (· != '%') with
  | [] => (parseIPv6Body body).map fun digits => .v6 (ofHextets digits) ""
  | [_] => none
  | _ :: zone => (parseIPv6Body body).map fun digits => .v6 (ofHextets digits) (String.ofList zone)

/-- The first of `.`, `:` and `%` in the text, which decides what `ParseAddr` takes it for. -/
def firstMark (s : List Char) : Option Char := s.find? fun c => c == '.' || c == ':' || c == '%'

def parseAddrChars (s : List Char) : Option Addr :=
  match firstMark s with
  | some '.' => parseIPv4 s
  | some ':' => parseIPv6 s
  | _ => none

def parseAddr (s : String) : Option Addr := parseAddrChars s.toList

/-- The text before and after the last occurrence of a character. -/
def cutLast (sep : Char) : List Char → Option (List Char × List Char)
  | [] => none
  | c :: rest =>
      match cutLast sep rest with
      | some (before, after) => some (c :: before, after)
      | none => if c = sep then some ([], rest) else none

/-- The bits after the slash: decimal, no sign, no leading zero. -/
def parseBits (s : List Char) : Option Nat :=
  if s = [] ∨ s.any (fun c => !c.isDigit) then none
  else if s.length > 1 ∧ s.head? = some '0' then none
  else some (Nat.ofDigitChars 10 s 0)

def prefixFrom (a : Addr) (bits : Nat) : Option Prefix :=
  if hzone : a.zone = "" then
    if hbits : bits ≤ a.bitLen then some ⟨a, bits, hbits, hzone⟩ else none
  else none

def parsePrefix (s : String) : Option Prefix := do
  let (before, after) ← cutLast '/' s.toList
  let a ← parseAddrChars before
  let bits ← parseBits after
  prefixFrom a bits

end Cfscan.Lib.Netip
