import Cfscan.Targets.Sample

/-!
# What is drawn from a prefix

`addressFor` reduces the hash modulo the size of the block and, in an IPv4 block with a network and
a broadcast address of its own, once more to leave these two out. `drawnOffset` is the offset that
comes of it. It reaches every selectable address of the prefix and nothing else.

`FromPrefix` then takes the first of 4096 such draws that the caller's map does not hold yet.

"For some hash" is all that can be said of what is reached: SHA-256 is a parameter, and whether some
seed and round have a given hash is a question about it. What is shown of the arithmetic is that it
adds no restriction of its own.

The offsets are numbers below 2^128, and the source's are of type `big.Int`. Nothing wraps.
-/

set_option autoImplicit false

namespace Cfscan.Targets

open Lib Lib.Netip

/-! ## Network and broadcast

The two addresses of a block that are not given away, by their bits. Of a masked prefix they
are the first and the last of the block. -/

/-- All host bits clear. -/
def network (p : Prefix) : Addr := p.addr.mask p.bits

/-- All host bits set. -/
def broadcast (p : Prefix) : Addr :=
  match p.addr with
  | .v4 value => .v4 (value ||| BitVec.allOnes 32 >>> p.bits)
  | .v6 value zone => .v6 (value ||| BitVec.allOnes 128 >>> p.bits) zone

theorem network_of_masked {p : Prefix} (h : p.masked = p) : network p = p.addr :=
  congrArg Prefix.addr h

/-- Shifting out `bits` of `w` ones leaves `w - bits` ones. -/
theorem ones_div {w bits : Nat} (h : bits ≤ w) : (2 ^ w - 1) / 2 ^ bits = 2 ^ (w - bits) - 1 := by
  have hpos : 0 < 2 ^ bits := Nat.two_pow_pos bits
  have hrest : 0 < 2 ^ (w - bits) := Nat.two_pow_pos _
  have hsplit : 2 ^ w - 1 = 2 ^ bits * (2 ^ (w - bits) - 1) + (2 ^ bits - 1) := by
    have hpow : 2 ^ w = 2 ^ bits * 2 ^ (w - bits) := by
      rw [← Nat.pow_add, Nat.add_sub_cancel' h]
    have hle : 2 ^ bits ≤ 2 ^ bits * 2 ^ (w - bits) := Nat.le_mul_of_pos_right _ hrest
    rw [hpow, Nat.mul_sub, Nat.mul_one]
    omega
  rw [hsplit, Nat.mul_add_div hpos, Nat.div_eq_of_lt (Nat.sub_lt hpos Nat.one_pos), Nat.add_zero]

theorem toNat_or_ones {w bits : Nat} (value : BitVec w) (hbits : bits ≤ w)
    (hvalue : value.toNat = value.toNat / 2 ^ (w - bits) * 2 ^ (w - bits)) :
    (value ||| BitVec.allOnes w >>> bits).toNat = value.toNat + (2 ^ (w - bits) - 1) := by
  have hlt : 2 ^ (w - bits) - 1 < 2 ^ (w - bits) := Nat.sub_lt (Nat.two_pow_pos _) Nat.one_pos
  rw [BitVec.toNat_or, BitVec.toNat_ushiftRight, BitVec.toNat_allOnes, Nat.shiftRight_eq_div_pow,
    ones_div hbits, hvalue, Nat.mul_comm, ← Nat.two_pow_add_eq_or_of_lt hlt]

theorem toNat_broadcast {p : Prefix} (h : p.masked = p) :
    (broadcast p).toNat = p.addr.toNat + (2 ^ p.hostBits - 1) := by
  have hvalue := toNat_of_masked h
  have hbits := p.bits_le
  obtain ⟨addr, bits, _, _⟩ := p
  cases addr with
  | v4 value => exact toNat_or_ones value hbits hvalue
  | v6 value zone => exact toNat_or_ones value hbits hvalue

@[simp] theorem is4_broadcast (p : Prefix) : (broadcast p).is4 = p.addr.is4 := by
  unfold broadcast
  cases p.addr <;> rfl

@[simp] theorem zone_broadcast (p : Prefix) : (broadcast p).zone = p.addr.zone := by
  unfold broadcast
  cases p.addr <;> rfl

theorem Addr.eq_of_toNat {a b : Addr} (hfour : a.is4 = b.is4) (hzone : a.zone = b.zone)
    (hvalue : a.toNat = b.toNat) : a = b := by
  cases a with
  | v4 x =>
    cases b with
    | v4 y => exact congrArg Addr.v4 (BitVec.eq_of_toNat_eq hvalue)
    | v6 y zone => cases hfour
  | v6 x zone =>
    cases b with
    | v4 y => cases hfour
    | v6 y zone' =>
      obtain rfl : zone = zone' := hzone
      exact congrArg (Addr.v6 · zone) (BitVec.eq_of_toNat_eq hvalue)

/-! ## The selectable addresses

Each is an offset into the block, and so is what `addressFor` draws. The draw takes the hash
by the size of the block and then, where two addresses are left out, by two less, and adds
one: every offset that may be given is some hash's. -/

/-- The addresses a prefix may be given: those of its block, but for the network and the broadcast
address of an IPv4 prefix shorter than `/31`. -/
structure Selectable (p : Prefix) (a : Addr) : Prop where
  is4 : a.is4 = p.addr.is4
  inside : p.contains a = true
  network : p.addr.is4 = true → p.bits < 31 → a ≠ network p
  broadcast : p.addr.is4 = true → p.bits < 31 → a ≠ broadcast p

/-- The offset of `addressFor` for the number a hash makes. -/
def drawnOffset (p : Prefix) (hash : Nat) : Nat :=
  if p.addr.bitLen = 32 ∧ p.hostBits > 1 then hash % 2 ^ p.hostBits % (2 ^ p.hostBits - 2) + 1
  else hash % 2 ^ p.hostBits

/-- The offsets of the selectable addresses. -/
def SelectableOffset (p : Prefix) (offset : Nat) : Prop :=
  offset < 2 ^ p.hostBits ∧
    (p.addr.bitLen = 32 ∧ p.hostBits > 1 → 0 < offset ∧ offset ≠ 2 ^ p.hostBits - 1)

section Offset

variable {p : Prefix}

theorem four_le_block (h : p.hostBits > 1) : 4 ≤ 2 ^ p.hostBits :=
  Nat.pow_le_pow_right (Nat.succ_pos 1) h

/-- Shorter than `/31`, as `addressFor` asks it. -/
theorem cut_iff : p.addr.bitLen = 32 ∧ p.hostBits > 1 ↔ p.addr.is4 = true ∧ p.bits < 31 := by
  unfold Prefix.hostBits
  cases p.addr with
  | v4 value =>
    simp only [Addr.bitLen, Addr.is4, true_and, gt_iff_lt]
    omega
  | v6 value zone => simp [Addr.bitLen, Addr.is4]

/-- No modulus is zero. -/
theorem addressFor_eq (sha256 : String → BitVec 256) (p : Prefix) (seed : String) (round : Nat) :
    addressFor sha256 p seed round = fillBytes p (p.addr.toNat +
      drawnOffset p (sha256 (p.string ++ "|" ++ seed ++ "|" ++ toString round)).toNat) := by
  unfold addressFor drawnOffset
  simp only [Nat.one_shiftLeft, mod_of_pos (Nat.two_pow_pos p.hostBits), Option.bind_eq_bind,
    Option.bind_some]
  split
  next hcut =>
    have hfour := four_le_block hcut.2
    rw [mod_of_pos (by omega), Option.bind_some]
  next => rfl

theorem selectableOffset_drawnOffset (p : Prefix) (hash : Nat) :
    SelectableOffset p (drawnOffset p hash) := by
  unfold drawnOffset
  split
  next hcut =>
    have hfour := four_le_block hcut.2
    have hlt : hash % 2 ^ p.hostBits % (2 ^ p.hostBits - 2) < 2 ^ p.hostBits - 2 :=
      Nat.mod_lt _ (by omega)
    exact ⟨by omega, fun _ => ⟨Nat.succ_pos _, by omega⟩⟩
  next hcut => exact ⟨Nat.mod_lt _ (Nat.two_pow_pos _), fun h => absurd h hcut⟩

/-- Every such offset is drawn, already by a number below the size of the block. -/
theorem exists_drawnOffset {offset : Nat} (h : SelectableOffset p offset) :
    ∃ hash < 2 ^ p.hostBits, drawnOffset p hash = offset := by
  obtain ⟨hlt, hends⟩ := h
  by_cases hcut : p.addr.bitLen = 32 ∧ p.hostBits > 1
  · -- both reductions leave `offset - 1` alone
    obtain ⟨hpos, hlast⟩ := hends hcut
    refine ⟨offset - 1, by omega, ?_⟩
    rw [drawnOffset, if_pos hcut, Nat.mod_eq_of_lt (show offset - 1 < 2 ^ p.hostBits by omega),
      Nat.mod_eq_of_lt (by omega), Nat.sub_add_cancel hpos]
  · exact ⟨offset, hlt, by rw [drawnOffset, if_neg hcut, Nat.mod_eq_of_lt hlt]⟩

/-- An address of the block is its first one and an offset. -/
theorem exists_offset (hmasked : p.masked = p) {a : Addr} (h : p.contains a = true) :
    ∃ offset < 2 ^ p.hostBits, a.toNat = p.addr.toNat + offset := by
  obtain ⟨-, -, hblock⟩ := (p.contains_iff a).1 h
  refine ⟨a.toNat % 2 ^ p.hostBits, Nat.mod_lt _ (Nat.two_pow_pos _), ?_⟩
  calc a.toNat = a.toNat / 2 ^ p.hostBits * 2 ^ p.hostBits + a.toNat % 2 ^ p.hostBits :=
        (Nat.div_add_mod' _ _).symm
    _ = p.addr.toNat + a.toNat % 2 ^ p.hostBits := by
        rw [hblock, ← toNat_of_masked hmasked]

/-- The selectable addresses are those at the selectable offsets. -/
theorem selectable_iff (hmasked : p.masked = p) {a : Addr} (h : p.contains a = true) {offset : Nat}
    (hoffset : a.toNat = p.addr.toNat + offset) :
    Selectable p a ↔ SelectableOffset p offset := by
  obtain ⟨hfour, hzone, -⟩ := (p.contains_iff a).1 h
  have hnetwork : a = network p ↔ offset = 0 := by
    rw [network_of_masked hmasked]
    refine ⟨fun heq => ?_, fun hzero => Addr.eq_of_toNat hfour (hzone.trans p.zoneless.symm) ?_⟩
    · rw [heq] at hoffset
      omega
    · rw [hoffset, hzero, Nat.add_zero]
  have hbroadcast : a = broadcast p ↔ offset = 2 ^ p.hostBits - 1 := by
    refine ⟨fun heq => ?_, fun hlast => Addr.eq_of_toNat ?_ ?_ ?_⟩
    · rw [heq, toNat_broadcast hmasked] at hoffset
      omega
    · rw [hfour, is4_broadcast]
    · rw [hzone, zone_broadcast, p.zoneless]
    · rw [hoffset, hlast, toNat_broadcast hmasked]
  have hlt : offset < 2 ^ p.hostBits := by
    obtain ⟨other, hother, heq⟩ := exists_offset hmasked h
    omega
  constructor
  · intro hselectable
    refine ⟨hlt, fun hcut => ?_⟩
    obtain ⟨h4, h31⟩ := cut_iff.1 hcut
    exact ⟨Nat.pos_of_ne_zero (mt hnetwork.2 (hselectable.network h4 h31)),
      mt hbroadcast.2 (hselectable.broadcast h4 h31)⟩
  · rintro ⟨-, hends⟩
    refine ⟨hfour, h, fun h4 h31 => ?_, fun h4 h31 => ?_⟩
    · exact mt hnetwork.1 (Nat.ne_of_gt (hends (cut_iff.2 ⟨h4, h31⟩)).1)
    · exact mt hbroadcast.1 (hends (cut_iff.2 ⟨h4, h31⟩)).2

/-- What is filled in at a selectable offset is the selectable address there. -/
theorem exists_selectable (hmasked : p.masked = p) {offset : Nat} (h : SelectableOffset p offset) :
    ∃ a, fillBytes p (p.addr.toNat + offset) = some a ∧ Selectable p a ∧
      a.toNat = p.addr.toNat + offset := by
  obtain ⟨a, ha, hin⟩ := exists_fillBytes_offset hmasked h.1
  obtain ⟨b, hb, -, -, hvalue⟩ := exists_fillBytes (p := p)
    (Nat.lt_of_lt_of_le (Nat.add_lt_add_left h.1 p.addr.toNat) (block_le hmasked))
  obtain rfl : a = b := Option.some.inj (ha.symm.trans hb)
  exact ⟨a, ha, (selectable_iff hmasked hin hvalue).2 h, hvalue⟩

end Offset

/-- **`addressFor` on a masked prefix.** Whatever the hash it returns, and it returns a selectable
address; and every selectable address is returned for some hash. -/
theorem addressFor_selectable (p : Prefix) (hmasked : p.masked = p) (seed : String)
    (round : Nat) :
    (∀ sha256 : String → BitVec 256, ∃ a, addressFor sha256 p seed round = some a ∧
      Selectable p a) ∧
    (∀ a, Selectable p a → ∃ hash : BitVec 256,
      addressFor (fun _ => hash) p seed round = some a) := by
  constructor
  · intro sha256
    rw [addressFor_eq]
    obtain ⟨a, ha, hselectable, -⟩ := exists_selectable hmasked (selectableOffset_drawnOffset p _)
    exact ⟨a, ha, hselectable⟩
  · intro a ha
    obtain ⟨offset, -, hoffset⟩ := exists_offset hmasked ha.inside
    have hselectable := (selectable_iff hmasked ha.inside hoffset).1 ha
    obtain ⟨hash, hlt, hdrawn⟩ := exists_drawnOffset hselectable
    -- the hash has bits enough for every block
    have hbits : p.hostBits ≤ 256 := by
      unfold Prefix.hostBits
      cases p.addr with
      | v4 value => exact (Nat.sub_le 32 _).trans (by decide)
      | v6 value zone => exact (Nat.sub_le 128 _).trans (by decide)
    have hlt256 : hash < 2 ^ 256 :=
      Nat.lt_of_lt_of_le hlt (Nat.pow_le_pow_right (Nat.succ_pos 1) hbits)
    refine ⟨BitVec.ofNat 256 hash, ?_⟩
    rw [addressFor_eq, BitVec.toNat_ofNat, Nat.mod_eq_of_lt hlt256, hdrawn]
    obtain ⟨b, hb, hb', hvalue⟩ := exists_selectable hmasked hselectable
    have hsame : b = a := by
      obtain ⟨hfour, hzone, -⟩ := (p.contains_iff a).1 ha.inside
      obtain ⟨hfour', hzone', -⟩ := (p.contains_iff b).1 hb'.inside
      exact Addr.eq_of_toNat (hfour'.trans hfour.symm) (hzone'.trans hzone.symm)
        (hvalue.trans hoffset.symm)
    rw [hb, hsame]

/-- The third address of a `/30`. -/
theorem addressFor_selectable_thirty :
    ∃ hash : BitVec 256, addressFor (fun _ => hash)
      ⟨.v4 (BitVec.ofNat 32 (198 * 2 ^ 24 + 4)), 30, by decide, rfl⟩ "" 7 =
        some (.v4 (BitVec.ofNat 32 (198 * 2 ^ 24 + 6))) :=
  (addressFor_selectable _ (by decide) "" 7).2 _
    ⟨by decide, by decide, fun _ _ => by decide, fun _ _ => by decide⟩

/-! ## `FromPrefix` -/

/-- The addresses of 4096 rounds as texts, without those of the map and without repetitions. -/
def untaken (addr : Nat → Addr) (seen : Seen) : List String :=
  (((List.range 4096).map fun round => (addr round).string).filter
    fun text => decide (text ∉ seen)).eraseDups

theorem pick_draws {sha256 : String → BitVec 256} {p : Prefix} {seed : String} {addr : Nat → Addr}
    (h : ∀ round, addressFor sha256 p seed round = some (addr round)) (n : Nat) (seen : Seen) :
    pick n seen (draws sha256 p seed 0 4096) = (untaken addr seen).take n := by
  have hdraws : ∀ rounds, draws sha256 p seed 0 rounds =
      (List.range rounds).map fun round => (addr round).string := by
    intro rounds
    simp only [draws, h, Option.map_some, List.range_eq_range', List.filterMap_eq_map']
  rw [pick, fresh_eq_eraseDups, hdraws, untaken]

/-- **`FromPrefix` on a CIDR that parses.** It returns the first `count` of the untaken addresses of
the masked prefix, all of them if there are fewer, and adds exactly these to the map. -/
theorem fromPrefix_first (sha256 : String → BitVec 256) (cidr : String) (p : Prefix)
    (hparse : parsePrefix cidr = some p) (count : Int) (seed : String) (seen : Seen) :
    ∃ (addr : Nat → Addr) (seen' : Seen),
      (∀ round < 4096, addressFor sha256 p.masked seed round = some (addr round)) ∧
      fromPrefix sha256 cidr count seed seen =
        some (.ok (((untaken addr seen).take count.toNat).map fun text =>
          ⟨text, p.masked.string⟩), seen') ∧
      ∀ text, text ∈ seen' ↔ text ∈ seen ∨ text ∈ (untaken addr seen).take count.toNat := by
  choose addr haddr _ using fun round => exists_addressFor sha256 seed round p.masked_masked
  refine ⟨addr, ((untaken addr seen).take count.toNat).reverse ++ seen,
    fun round _ => haddr round, ?_, fun text => ?_⟩
  · rw [fromPrefix_parsed hparse, pick_draws haddr]
  · rw [List.mem_append, List.mem_reverse, or_comm]

/-- `10.1.2.3/30`, which has host bits set. -/
def unmaskedThirty : Prefix := ⟨.v4 (BitVec.ofNat 32 (10 * 2 ^ 24 + 66051)), 30, by decide, rfl⟩

theorem fromPrefix_first_unmasked :
    ∃ items seen', fromPrefix (fun _ => 0) "10.1.2.3/30" 2 "s" ["10.1.2.2"] =
        some (.ok items, seen') ∧ items.length ≤ 2 ∧
      ∀ item ∈ items, item.prefixCIDR = "10.1.2.0/30" := by
  have hparse : parsePrefix "10.1.2.3/30" = some unmaskedThirty := by decide +kernel
  have hmasked : unmaskedThirty.masked.string = "10.1.2.0/30" := by decide +kernel
  obtain ⟨addr, seen', -, hrun, -⟩ := fromPrefix_first (fun _ => 0) "10.1.2.3/30" unmaskedThirty
    hparse 2 "s" ["10.1.2.2"]
  refine ⟨_, seen', hrun, ?_, fun item hitem => ?_⟩
  · rw [List.length_map]
    exact List.length_take_le _ _
  · obtain ⟨text, -, rfl⟩ := List.mem_map.1 hitem
    exact hmasked

end Cfscan.Targets
