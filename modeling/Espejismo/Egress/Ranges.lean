import Mathlib.Data.Nat.Bitwise
import Espejismo.Egress.Policy

/-!
# Egress.Ranges

The address ranges that `deny_private_ips` closes, as blocks of the address
space, and that the check of an address covers them.
-/

namespace Net

def ipv4Value (a b c d : UInt8) : Nat := ((a.toNat * 256 + b.toNat) * 256 + c.toNat) * 256 + d.toNat

def InBlock (na nb nc nd : UInt8) (len : Nat) (a b c d : UInt8) : Prop :=
  ipv4Value a b c d / 2 ^ (32 - len) = ipv4Value na nb nc nd / 2 ^ (32 - len)

def PrivateV4 (a b c d : UInt8) : Prop :=
  InBlock 0 0 0 0 8 a b c d ∨ InBlock 10 0 0 0 8 a b c d ∨ InBlock 100 64 0 0 10 a b c d ∨
    InBlock 127 0 0 0 8 a b c d ∨ InBlock 169 254 0 0 16 a b c d ∨
    InBlock 172 16 0 0 12 a b c d ∨ InBlock 192 168 0 0 16 a b c d ∨
    ipv4Value 224 0 0 0 ≤ ipv4Value a b c d

def mappedV6 (a b c d : UInt8) : Vector UInt16 8 :=
  #v[0, 0, 0, 0, 0, 0xffff, segmentOf a b, segmentOf c d]

/-- The leading bits of an IPv6 address are those of its first segment. -/
def InSegmentBlock (network : UInt16) (len : Nat) (segments : Vector UInt16 8) : Prop :=
  (leadingSegment segments).toNat / 2 ^ (16 - len) = network.toNat / 2 ^ (16 - len)

/-- The IPv6 addresses that are not public: loopback, unspecified, unique-local,
link-local and multicast. -/
def PrivateV6 (segments : Vector UInt16 8) : Prop :=
  segments = localhostV6 ∨ segments = unspecifiedV6 ∨
    InSegmentBlock 0xfc00 7 segments ∨ InSegmentBlock 0xfe80 10 segments ∨
    InSegmentBlock 0xff00 8 segments

inductive PrivateIp : IpAddr → Prop
  | v4 {a b c d} : PrivateV4 a b c d → PrivateIp (.v4 a b c d)
  | mapped {a b c d} : PrivateV4 a b c d → PrivateIp (.v6 (mappedV6 a b c d))
  | v6 {segments} : PrivateV6 segments → PrivateIp (.v6 segments)

theorem and_high_bits (k n : Nat) (h : x < 2 ^ (n + k)) :
    x &&& ((2 ^ n - 1) * 2 ^ k) = x / 2 ^ k * 2 ^ k := by
  apply Nat.eq_of_testBit_eq
  intro i
  rw [Nat.testBit_and, Nat.testBit_mul_two_pow, Nat.testBit_mul_two_pow, Nat.testBit_div_two_pow]
  by_cases hi : k ≤ i
  · by_cases hn : i - k < n
    · simp [hi, hn]
    · have hlt : x < 2 ^ i := lt_of_lt_of_le h (Nat.pow_le_pow_right (by decide) (by omega))
      simp [hi, Nat.testBit_lt_two_pow hlt]
  · simp [hi]

theorem ipv4Value_div (a b c d : UInt8) : ipv4Value a b c d / 2 ^ 16 = a.toNat * 256 + b.toNat := by
  have hc := c.toNat_lt
  have hd := d.toNat_lt
  simp only [ipv4Value]
  omega

theorem InBlock.leading (h : InBlock na nb nc nd len a b c d) (hln : len ≤ 16) :
    (a.toNat * 256 + b.toNat) / 2 ^ (16 - len) = (na.toNat * 256 + nb.toNat) / 2 ^ (16 - len) := by
  have hsp : 32 - len = 16 + (16 - len) := by omega
  rw [InBlock, hsp, pow_add, ← Nat.div_div_eq_div_mul, ← Nat.div_div_eq_div_mul,
    ipv4Value_div, ipv4Value_div] at h
  exact h

end Net

namespace Espejismo

open Net

theorem octets_of_privateV4 (h : PrivateV4 a b c d) :
    a = 0 ∨ a = 10 ∨ (a = 100 ∧ 64 ≤ b ∧ b ≤ 127) ∨ a = 127 ∨ (a = 169 ∧ b = 254) ∨
      (a = 172 ∧ 16 ≤ b ∧ b ≤ 31) ∨ (a = 192 ∧ b = 168) ∨ 224 ≤ a := by
  have hb := b.toNat_lt
  have hc := c.toNat_lt
  have hd := d.toNat_lt
  simp only [UInt8.le_iff_toNat_le, ← UInt8.toNat_inj]
  rcases h with h | h | h | h | h | h | h | h
  -- the multicast and reserved addresses are a half line, the others blocks
  case inr.inr.inr.inr.inr.inr.inr =>
    simp [ipv4Value] at h ⊢
    omega
  all_goals
    have hle := InBlock.leading h (by decide)
    simp at hle ⊢
    omega

theorem special_of_privateV4 (h : PrivateV4 a b c d) :
    isPrivateOrSpecial.special a b c d = true := by
  rcases octets_of_privateV4 h with rfl | rfl | ⟨rfl, h1, h2⟩ | rfl | ⟨rfl, rfl⟩ | ⟨rfl, h1, h2⟩ |
    ⟨rfl, rfl⟩ | h
  all_goals simp_all [isPrivateOrSpecial.special, isPrivateV4]

theorem toIpv4Mapped_mappedV6 (a b c d : UInt8) :
    toIpv4Mapped (mappedV6 a b c d) = some (.v4 a b c d) := by
  have hlw (x y : UInt8) : (x.toNat * 256 + y.toNat) % 65536 = x.toNat * 256 + y.toNat := by
    have := x.toNat_lt
    have := y.toNat_lt
    omega
  have hdi (x y : UInt8) : (x.toNat * 256 + y.toNat) / 256 = x.toNat := by
    have := y.toNat_lt
    omega
  have hmod (x y : UInt8) : UInt8.ofNat (x.toNat * 256 + y.toNat) = y := by
    simp
  simp [toIpv4Mapped, mappedV6, segmentOf, hlw, hdi]

variable {segments : Vector UInt16 8}

theorem toIpv4Mapped_eq_none (h : leadingSegment segments ≠ 0) : toIpv4Mapped segments = none := by
  unfold toIpv4Mapped
  split
  case h_1 heq =>
      have hfi : segments.toList[0]? = some 0 := by rw [heq]; rfl
      rw [Vector.getElem?_toList] at hfi
      exact absurd (Option.some.inj hfi) h
  case h_2 => rfl

theorem and_eq_of_inSegmentBlock (h : InSegmentBlock network len segments) (hln : len ≤ 16)
    (hma : mask.toNat = (2 ^ len - 1) * 2 ^ (16 - len))
    (hne : network.toNat / 2 ^ (16 - len) * 2 ^ (16 - len) = network.toNat) :
    leadingSegment segments &&& mask = network := by
  have hlt : (leadingSegment segments).toNat < 2 ^ (len + (16 - len)) := by
    rw [Nat.add_sub_of_le hln]
    exact (leadingSegment segments).toNat_lt
  rw [← UInt16.toNat_inj, UInt16.toNat_and, hma, and_high_bits _ _ hlt, h, hne]

theorem isPrivateOrSpecial_of_privateV6 (h : PrivateV6 segments) :
    isPrivateOrSpecial (.v6 segments) = true := by
  have hbl {network : UInt16} {len : Nat} (hnt : network.toNat / 2 ^ (16 - len) ≠ 0)
      (h : InSegmentBlock network len segments) : toIpv4Mapped segments = none := by
    apply toIpv4Mapped_eq_none
    intro hze
    rw [InSegmentBlock, hze] at h
    exact hnt (by simpa using h.symm)
  rcases h with rfl | rfl | h | h | h
  · rfl
  · rfl
  · have hlo : isUniqueLocalV6 segments = true := by
      rw [isUniqueLocalV6, and_eq_of_inSegmentBlock h (by decide) rfl rfl]
      rfl
    simp [isPrivateOrSpecial, hbl (by decide) h, hlo]
  · have hlo : isUnicastLinkLocalV6 segments = true := by
      rw [isUnicastLinkLocalV6, and_eq_of_inSegmentBlock h (by decide) rfl rfl]
      rfl
    simp [isPrivateOrSpecial, hbl (by decide) h, hlo]
  · have hmu : isMulticastV6 segments = true := by
      rw [isMulticastV6, and_eq_of_inSegmentBlock h (by decide) rfl rfl]
      rfl
    simp [isPrivateOrSpecial, hbl (by decide) h, hmu]

theorem isPrivateOrSpecial_of_privateIp (h : PrivateIp ip) : isPrivateOrSpecial ip = true := by
  cases h with
  | v4 h => exact special_of_privateV4 h
  | mapped h =>
    simp only [isPrivateOrSpecial, toIpv4Mapped_mappedV6]
    exact special_of_privateV4 h
  | v6 h => exact isPrivateOrSpecial_of_privateV6 h

end Espejismo
