import Cfscan.Lib.Netip
import Cfscan.Lib.NetipText
import Cfscan.Lib.Fresh

/-!
# Sampling addresses from a prefix

The translation of `addressFor` and `FromPrefix` in `internal/targets/sample.go`. SHA-256 is a
parameter: any function from text to 256 bits.

`none` is a panic: `big.Int.Mod` of a zero modulus, or `FillBytes` of a number that does not fit.
`exists_addressFor` shows that neither happens on a masked prefix, and that the address lies in
it; `fromPrefix_parsed` says what `FromPrefix` returns.

A text that has been drawn stands in the `seen` map of the caller, so the map is threaded through
here as it is there: `fromPrefix` returns it, also when it returns an error. It is a list of texts,
newest first, and is only ever asked whether it has one.
-/

set_option autoImplicit false

namespace Cfscan

/-- `model.ScanTarget`. -/
structure ScanTarget where
  targetIP : String
  prefixCIDR : String
deriving DecidableEq, Repr

namespace Targets

open Lib Lib.Netip

def maxSampleTargets : Int := 10000

/-- The texts a `seen` map holds. -/
abbrev Seen := List String

/-- The errors of `FromPrefix`: `parse prefix "…": …`, wrapping that of `netip.ParsePrefix`. -/
inductive SampleError where
  | parsePrefix (cidr : String)
deriving DecidableEq, Repr

/-! ## The functions

In the order of the source, with `none` for a panic. `draw` is the loop of `FromPrefix`, and
its bound of 4096 rounds is the source's own. -/

/-- `big.Int.Mod` on natural numbers. -/
def mod (x modulus : Nat) : Option Nat := if modulus = 0 then none else some (x % modulus)

/-- `FillBytes` into the 4 or 16 bytes of the prefix's family, and the address they make. -/
def fillBytes (p : Prefix) (value : Nat) : Option Addr :=
  if value < 2 ^ p.addr.bitLen then
    some (if p.addr.is4 then .v4 (BitVec.ofNat 32 value) else .v6 (BitVec.ofNat 128 value) "")
  else none

def addressFor (sha256 : String → BitVec 256) (p : Prefix) (seed : String) (round : Nat) :
    Option Addr := do
  let bits := p.addr.bitLen
  let base := p.addr.toNat
  let count := 1 <<< p.hostBits
  let hash := sha256 (p.string ++ "|" ++ seed ++ "|" ++ toString round)
  let offset ← mod hash.toNat count
  if bits = 32 ∧ p.hostBits > 1 then
    -- an IPv4 network and its broadcast address are not drawn
    let offset ← mod offset (count - 2)
    fillBytes p (base + (offset + 1))
  else fillBytes p (base + offset)

/-- The loop of `FromPrefix`, with the rounds left to it. -/
def draw (sha256 : String → BitVec 256) (p : Prefix) (seed : String) (count : Int) :
    Nat → Nat → List ScanTarget → Seen → Option (List ScanTarget × Seen)
  | 0, _, items, seen => some (items, seen)
  | left + 1, round, items, seen =>
      if (items.length : Int) < count then do
        let addr ← addressFor sha256 p seed round
        let value := addr.string
        if value ∈ seen then draw sha256 p seed count left (round + 1) items seen
        else
          draw sha256 p seed count left (round + 1) (items ++ [⟨value, p.string⟩]) (value :: seen)
      else some (items, seen)

/-- `FromPrefix`, with the `seen` map it leaves behind. -/
def fromPrefix (sha256 : String → BitVec 256) (cidr : String) (count : Int) (seed : String)
    (seen : Seen) : Option (Except SampleError (List ScanTarget) × Seen) :=
  if count ≤ 0 then some (.ok [], seen)
  else
    match parsePrefix cidr with
    | none => some (.error (.parsePrefix cidr), seen)
    | some parsed => do
        let (items, seen) ← draw sha256 parsed.masked seed count 4096 0 [] seen
        some (.ok items, seen)

/-! ## `addressFor`

On a masked prefix the base has zeros where the offset goes, so that base and offset add up
to an address of the block and `FillBytes` has room for it. -/

section Address

variable {p : Prefix}

/-- A masked prefix is the first address of its block. -/
theorem toNat_of_masked (h : p.masked = p) :
    p.addr.toNat = p.addr.toNat / 2 ^ p.hostBits * 2 ^ p.hostBits := by
  have htoNat := p.toNat_masked
  rwa [h] at htoNat

/-- The block of a masked prefix ends within its family. -/
theorem block_le (h : p.masked = p) : p.addr.toNat + 2 ^ p.hostBits ≤ 2 ^ p.addr.bitLen := by
  have hpow : 2 ^ p.addr.bitLen = 2 ^ p.bits * 2 ^ p.hostBits := by
    rw [← Nat.pow_add, Prefix.hostBits, Nat.add_sub_cancel' p.bits_le]
  have hdiv : p.addr.toNat / 2 ^ p.hostBits < 2 ^ p.bits :=
    Nat.div_lt_of_lt_mul (by rw [Nat.mul_comm, ← hpow]; exact p.addr.toNat_lt)
  calc p.addr.toNat + 2 ^ p.hostBits
      = (p.addr.toNat / 2 ^ p.hostBits + 1) * 2 ^ p.hostBits := by
        rw [Nat.add_mul, Nat.one_mul, ← toNat_of_masked h]
    _ ≤ 2 ^ p.bits * 2 ^ p.hostBits := Nat.mul_le_mul_right _ hdiv
    _ = 2 ^ p.addr.bitLen := hpow.symm

theorem exists_fillBytes {value : Nat} (h : value < 2 ^ p.addr.bitLen) :
    ∃ a, fillBytes p value = some a ∧ a.is4 = p.addr.is4 ∧ a.zone = "" ∧ a.toNat = value := by
  rw [fillBytes, if_pos h]
  refine ⟨_, rfl, ?_⟩
  cases haddr : p.addr with
  | v4 network =>
    rw [haddr] at h
    exact ⟨rfl, rfl, Nat.mod_eq_of_lt h⟩
  | v6 network zone =>
    rw [haddr] at h
    exact ⟨rfl, rfl, Nat.mod_eq_of_lt h⟩

/-- An offset below the size of the block gives an address of the block. -/
theorem exists_fillBytes_offset (h : p.masked = p) {offset : Nat}
    (hoffset : offset < 2 ^ p.hostBits) :
    ∃ a, fillBytes p (p.addr.toNat + offset) = some a ∧ p.contains a = true := by
  have hlt : p.addr.toNat + offset < 2 ^ p.addr.bitLen :=
    Nat.lt_of_lt_of_le (Nat.add_lt_add_left hoffset _) (block_le h)
  obtain ⟨a, ha, hfour, hzone, hvalue⟩ := exists_fillBytes hlt
  refine ⟨a, ha, (p.contains_iff a).2 ⟨hfour, hzone, ?_⟩⟩
  rw [hvalue, toNat_of_masked h, Nat.mul_comm, Nat.mul_add_div (Nat.two_pow_pos _),
    Nat.div_eq_of_lt hoffset, Nat.add_zero, Nat.mul_div_cancel_left _ (Nat.two_pow_pos _)]

theorem mod_of_pos {x modulus : Nat} (h : 0 < modulus) : mod x modulus = some (x % modulus) := by
  rw [mod, if_neg (Nat.pos_iff_ne_zero.1 h)]

/-- On a masked prefix `addressFor` returns an address of the prefix, whatever the hash. -/
theorem exists_addressFor (sha256 : String → BitVec 256) (seed : String) (round : Nat)
    (h : p.masked = p) :
    ∃ a, addressFor sha256 p seed round = some a ∧ p.contains a = true := by
  have hblock : 0 < 2 ^ p.hostBits := Nat.two_pow_pos _
  unfold addressFor
  simp only [Nat.one_shiftLeft, mod_of_pos hblock, Option.bind_eq_bind, Option.bind_some]
  split
  next hv4 =>
    have hfour : 2 ^ 2 ≤ 2 ^ p.hostBits := Nat.pow_le_pow_right (by decide) hv4.2
    have husable : 0 < 2 ^ p.hostBits - 2 := by omega
    rw [mod_of_pos husable, Option.bind_some]
    refine exists_fillBytes_offset h ?_
    have hlt := Nat.mod_lt ((sha256 (p.string ++ "|" ++ seed ++ "|" ++ toString round)).toNat %
      2 ^ p.hostBits) husable
    omega
  next => exact exists_fillBytes_offset h (Nat.mod_lt _ hblock)

/-- What `addressFor` returns on a masked prefix lies in it. -/
theorem contains_of_addressFor {sha256 : String → BitVec 256} {seed : String} {round : Nat}
    {a : Addr} (h : p.masked = p) (ha : addressFor sha256 p seed round = some a) :
    p.contains a = true := by
  obtain ⟨b, hb, hin⟩ := exists_addressFor sha256 seed round h
  exact Option.some.inj (hb.symm.trans ha) ▸ hin

end Address

/-! ## `FromPrefix` -/

/-- The texts of the addresses drawn in `left` rounds from round `round` on. -/
def draws (sha256 : String → BitVec 256) (p : Prefix) (seed : String) (round left : Nat) :
    List String :=
  (List.range' round left).filterMap fun r => (addressFor sha256 p seed r).map Addr.string

section FromPrefix

variable {sha256 : String → BitVec 256} {p : Prefix} {seed : String}

theorem draws_succ {round left : Nat} {a : Addr} (ha : addressFor sha256 p seed round = some a) :
    draws sha256 p seed round (left + 1) = a.string :: draws sha256 p seed (round + 1) left := by
  simp [draws, List.range'_succ, ha]

/-- Every text drawn is that of an address of the prefix. -/
theorem exists_of_mem_draws (h : p.masked = p) {round left : Nat} {text : String}
    (htext : text ∈ draws sha256 p seed round left) :
    ∃ a, a.string = text ∧ p.contains a = true := by
  obtain ⟨r, -, hr⟩ := List.mem_filterMap.1 htext
  obtain ⟨a, ha, hin⟩ := exists_addressFor sha256 seed r h
  rw [ha, Option.map_some, Option.some.injEq] at hr
  exact ⟨a, hr, hin⟩

/-- The loop picks the first addresses not yet in the `seen` map, and adds them to it. -/
theorem draw_eq (h : p.masked = p) {left round : Nat} {items : List ScanTarget} {seen : Seen}
    {count : Nat} (hcount : items.length ≤ count) :
    draw sha256 p seed count left round items seen =
      some (items ++ (pick (count - items.length) seen (draws sha256 p seed round left)).map
          (⟨·, p.string⟩),
        (pick (count - items.length) seen (draws sha256 p seed round left)).reverse ++ seen) := by
  induction left generalizing round items seen with
  | zero => simp [draw, draws]
  | succ left ih =>
    obtain ⟨a, ha, -⟩ := exists_addressFor sha256 seed round h
    rw [draw, draws_succ ha]
    by_cases hlt : items.length < count
    · rw [if_pos (by exact_mod_cast hlt), ha]
      simp only [Option.bind_eq_bind, Option.bind_some]
      split
      next hseen => rw [ih hcount, pick_cons_of_mem hseen]
      next hseen =>
        obtain ⟨n, hn⟩ : ∃ n, count - items.length = n + 1 := ⟨count - items.length - 1, by omega⟩
        have hn' : count - (items ++ [(⟨a.string, p.string⟩ : ScanTarget)]).length = n := by
          simp only [List.length_append, List.length_singleton]; omega
        rw [ih (by simp only [List.length_append, List.length_singleton]; omega), hn', hn,
          pick_cons_of_notMem hseen]
        simp
    · rw [if_neg (by exact_mod_cast hlt), show count - items.length = 0 by omega]
      simp

/-- **`FromPrefix`.** It returns the first `count` of the addresses drawn from the masked prefix in
4096 rounds that the `seen` map does not hold, and adds exactly those to the map. -/
theorem fromPrefix_parsed {cidr : String} (hparse : parsePrefix cidr = some p) (count : Int)
    (seen : Seen) :
    fromPrefix sha256 cidr count seed seen =
      some (.ok ((pick count.toNat seen (draws sha256 p.masked seed 0 4096)).map
          (⟨·, p.masked.string⟩)),
        (pick count.toNat seen (draws sha256 p.masked seed 0 4096)).reverse ++ seen) := by
  unfold fromPrefix
  split
  next hle => simp [Int.toNat_of_nonpos hle]
  next hpos =>
    obtain ⟨n, rfl⟩ : ∃ n : Nat, count = n := ⟨count.toNat, by omega⟩
    have hdraw := @draw_eq sha256 p.masked seed p.masked_masked 4096 0 [] seen n (Nat.zero_le _)
    simp only [hparse]
    rw [hdraw]
    simp

/-- **`FromPrefix` on a masked prefix.** The same with the prefix itself. -/
theorem fromPrefix_masked (h : p.masked = p) (count : Int) (seen : Seen) :
    fromPrefix sha256 p.string count seed seen =
      some (.ok ((pick count.toNat seen (draws sha256 p seed 0 4096)).map (⟨·, p.string⟩)),
        (pick count.toNat seen (draws sha256 p seed 0 4096)).reverse ++ seen) := by
  have hparsed := @fromPrefix_parsed sha256 p seed _ (parsePrefix_string p) count seen
  rwa [h] at hparsed

end FromPrefix

end Targets

end Cfscan
