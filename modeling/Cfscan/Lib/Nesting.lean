import Cfscan.Lib.NetipText

/-!
# How prefixes lie to one another

Two masked prefixes that share an address are nested: the one with fewer bits contains the other,
and with equally many bits they are one prefix.

The zone of an address plays no part, since a prefix has none and contains no address with one.
-/

set_option autoImplicit false

namespace Cfscan.Lib.Netip

theorem Addr.string_injective : Function.Injective Addr.string := by
  intro a b h
  have hread := parseAddr_string a
  rw [h, parseAddr_string] at hread
  exact (Option.some.inj hread).symm

theorem Addr.eq_of_toNat {a b : Addr} (hfamily : a.is4 = b.is4) (hzone : a.zone = b.zone)
    (hvalue : a.toNat = b.toNat) : a = b := by
  cases a <;> cases b <;> simp_all [Addr.is4, Addr.zone, Addr.toNat, BitVec.toNat_inj]

namespace Prefix

/-- A prefix strictly inside another. -/
def Inside (q p : Prefix) : Prop := q ≠ p ∧ ∀ a, q.contains a = true → p.contains a = true

def Disjoint (p q : Prefix) : Prop := ∀ a, p.contains a = true → q.contains a = true → False

theorem string_injective : Function.Injective Prefix.string := by
  intro p q h
  have hread := parsePrefix_string p
  rw [h, parsePrefix_string] at hread
  exact (Option.some.inj hread).symm

variable {p q : Prefix} {a : Addr}

/-- A masked prefix contains its own address. -/
theorem contains_self (p : Prefix) : p.contains p.addr = true :=
  (p.contains_iff _).2 ⟨rfl, p.zoneless, rfl⟩

theorem bitLen_eq_of_shared (hp : p.contains a = true) (hq : q.contains a = true) :
    q.addr.bitLen = p.addr.bitLen := by
  have hfamily : q.addr.is4 = p.addr.is4 :=
    ((q.contains_iff a).1 hq).1.symm.trans ((p.contains_iff a).1 hp).1
  cases hqaddr : q.addr <;> cases hpaddr : p.addr <;> simp_all [Addr.is4, Addr.bitLen]

/-- The block of a shorter prefix is made of blocks of the longer. -/
theorem contains_of_shared (hp : p.contains a = true) (hq : q.contains a = true)
    (hbits : p.bits ≤ q.bits) {b : Addr} (hb : q.contains b = true) : p.contains b = true := by
  obtain ⟨hp4, -, hpa⟩ := (p.contains_iff a).1 hp
  obtain ⟨hq4, -, hqa⟩ := (q.contains_iff a).1 hq
  obtain ⟨hb4, hbzone, hqb⟩ := (q.contains_iff b).1 hb
  have hhost : p.hostBits = q.hostBits + (q.bits - p.bits) := by
    have hle := q.bits_le
    rw [bitLen_eq_of_shared hp hq] at hle
    rw [hostBits, hostBits, bitLen_eq_of_shared hp hq]
    omega
  refine (p.contains_iff b).2 ⟨hb4.trans (hq4.symm.trans hp4), hbzone, ?_⟩
  rw [← hpa, hhost, Nat.pow_add, ← Nat.div_div_eq_div_mul, ← Nat.div_div_eq_div_mul, hqb, hqa]

/-- Of two prefixes that share an address, the other one with no fewer bits is inside the first. -/
theorem inside_of_shared (hp : p.contains a = true) (hq : q.contains a = true)
    (hbits : p.bits ≤ q.bits) (hne : q ≠ p) : q.Inside p :=
  ⟨hne, fun _ hb => contains_of_shared hp hq hbits hb⟩

/-- Masked prefixes of one length that share an address are one prefix. -/
theorem eq_of_shared (hpm : p.masked = p) (hqm : q.masked = q) (hp : p.contains a = true)
    (hq : q.contains a = true) (hbits : p.bits = q.bits) : p = q := by
  have hlen := bitLen_eq_of_shared hp hq
  obtain ⟨hp4, -, hpa⟩ := (p.contains_iff a).1 hp
  obtain ⟨hq4, -, hqa⟩ := (q.contains_iff a).1 hq
  have hhost : p.hostBits = q.hostBits := by rw [hostBits, hostBits, hlen, hbits]
  have hvalue : p.addr.toNat = q.addr.toNat := by
    have hpnat := p.toNat_masked
    have hqnat := q.toNat_masked
    rw [hpm] at hpnat
    rw [hqm] at hqnat
    rw [hpnat, hqnat, ← hpa, ← hqa, hhost]
  have haddr : p.addr = q.addr :=
    Addr.eq_of_toNat (hp4.symm.trans hq4) (p.zoneless.trans q.zoneless.symm) hvalue
  obtain ⟨_, _, _, _⟩ := p
  obtain ⟨_, _, _, _⟩ := q
  simp_all

end Prefix

end Cfscan.Lib.Netip
