import Dunlin.Lib.Network
import Dunlin.Webhook

/-!
# Public addresses as ranges

`isPublic` decides with masks, with constants shifted into place, and by the first case that
applies. `is_public_ranges` says the same with intervals of numbers, for every address. An IPv6
address that carries an IPv4 one (`carriedV4`) is as public as that one.

The masks of IPv4 come down to one fact: a network of the list is an interval, since its address is
a multiple of its size (`inNet_iff`). For IPv6 the cases of the source are taken in order, and the
first that applies is named: an address that carries an IPv4 one, the translated unicast range, and
the rest.

## Scope

Addresses are numbers below `2 ^ 32` and `2 ^ 128`, the segments of an IPv6 address its digits in
base `2 ^ 16`. Nothing is decided by running through addresses.

## Main results

* `isPublicV4_iff` — an IPv4 address is public if no listed network has it
* `isPublicV6_of_carried`, `isPublicV6_of_not_carried` — the two kinds of IPv6 address
* `is_public_ranges` — both families, in one statement
-/

namespace Dunlin

open Lib

/-- The IPv4 address an IPv6 address carries: the last 32 bits in the mapped form and in NAT64,
the 32 bits after the prefix in 6to4. -/
def carriedV4 (ip : Ipv6Addr) : Option Ipv4Addr :=
  if 0xffff * 2 ^ 32 ≤ ip.toNat ∧ ip.toNat < 0x10000 * 2 ^ 32 then some (.ofNat 32 ip.toNat)
  else if 0x64ff9b * 2 ^ 96 ≤ ip.toNat ∧ ip.toNat < 0x64ff9b * 2 ^ 96 + 2 ^ 32 then
    some (.ofNat 32 ip.toNat)
  else if 0x2002 * 2 ^ 112 ≤ ip.toNat ∧ ip.toNat < 0x2003 * 2 ^ 112 then
    some (.ofNat 32 (ip.toNat / 2 ^ 80))
  else none

/-! ### Masks -/

theorem inNet_iff {w : ℕ} {ip net : BitVec w} {bits : ℕ} :
    inNet ip net bits = true ↔ ip.toNat ∈ (Network.of net bits).range := by
  rw [Network.mem_range_of, inNet, beq_iff_eq]
  rfl

/-- The interval of a network written with its first address. -/
theorem inNet_iff_of_aligned {w : ℕ} {ip net : BitVec w} {bits : ℕ}
    (h : 2 ^ (w - bits) ∣ net.toNat) :
    inNet ip net bits = true ↔ ip.toNat ∈ Set.Icc net.toNat (net.toNat + 2 ^ (w - bits) - 1) := by
  rw [inNet_iff, Network.range_of_base ⟨net, bits, h⟩]
  rfl

theorem aligned_blockedV4 : ∀ b ∈ blockedV4, 2 ^ (32 - b.2) ∣ b.1.toNat := by decide

theorem aligned_blockedV6 : ∀ b ∈ blockedV6, 2 ^ (128 - b.2) ∣ b.1.toNat := by decide

theorem isPublicV4_iff {ip : Ipv4Addr} : isPublicV4 ip = true ↔
    ∀ b ∈ blockedV4, ip.toNat ∉ Set.Icc b.1.toNat (b.1.toNat + 2 ^ (32 - b.2) - 1) := by
  simp only [isPublicV4, Bool.not_eq_true', List.any_eq_false]
  refine forall₂_congr fun b hb => not_congr ?_
  exact inNet_iff_of_aligned (aligned_blockedV4 b hb)

/-! ### IPv6 -/

section V6

variable {ip : Ipv6Addr}

theorem toIpv4Mapped_eq : toIpv4Mapped ip =
    if 0xffff * 2 ^ 32 ≤ ip.toNat ∧ ip.toNat < 0x10000 * 2 ^ 32 then some (.ofNat 32 ip.toNat)
    else none := by
  have hlow : ip.extractLsb' 0 32 = BitVec.ofNat 32 ip.toNat := by
    apply BitVec.eq_of_toNat_eq
    simp
  have hhigh : ip.extractLsb' 32 96 = 0xffff#96 ↔
      0xffff * 2 ^ 32 ≤ ip.toNat ∧ ip.toNat < 0x10000 * 2 ^ 32 := by
    have hconst : (0xffff#96).toNat = 0xffff := rfl
    have hlt := ip.isLt
    rw [← BitVec.toNat_inj, BitVec.extractLsb'_toNat, Nat.shiftRight_eq_div_pow, hconst]
    omega
  rw [toIpv4Mapped, hlow]
  simp only [hhigh]

/-- Two neighbouring segments read as an IPv4 address. -/
theorem embeddedV4_segments {i : ℕ} (hi : i < 7) :
    embeddedV4 (segment ip i) (segment ip (i + 1)) =
      BitVec.ofNat 32 (ip.toNat / 2 ^ (96 - 16 * i)) := by
  have hstart : 112 - 16 * i = 112 - 16 * (i + 1) + 16 := by omega
  have hnext : 112 - 16 * (i + 1) = 96 - 16 * i := by omega
  apply BitVec.eq_of_toNat_eq
  rw [embeddedV4, segment, segment, BitVec.extractLsb'_append_extractLsb'_eq_extractLsb' hstart,
    BitVec.extractLsb'_toNat, Nat.shiftRight_eq_div_pow, BitVec.toNat_ofNat, hnext]

theorem segment_zero_iff : segment ip 0 = 0x2002#16 ↔
    0x2002 * 2 ^ 112 ≤ ip.toNat ∧ ip.toNat < 0x2003 * 2 ^ 112 := by
  have hconst : (0x2002#16).toNat = 0x2002 := rfl
  have hlt := ip.isLt
  rw [← BitVec.toNat_inj, segment, BitVec.extractLsb'_toNat, Nat.shiftRight_eq_div_pow, hconst]
  omega

theorem inV6_nat64_iff : inV6 ip 0x0064ff9b000000000000000000000000#128 96 = true ↔
    0x64ff9b * 2 ^ 96 ≤ ip.toNat ∧ ip.toNat < 0x64ff9b * 2 ^ 96 + 2 ^ 32 := by
  rw [inV6, inNet_iff_of_aligned (by decide), Set.mem_Icc]
  show 0x64ff9b * 2 ^ 96 ≤ _ ∧ _ ≤ 0x64ff9b * 2 ^ 96 + 2 ^ 32 - 1 ↔ _
  omega

theorem inV6_unicast_iff : inV6 ip (0x2000#128 <<< 112) 3 = true ↔
    ip.toNat ∈ Set.Icc (0x2000 * 2 ^ 112) (0x4000 * 2 ^ 112 - 1) := by
  rw [inV6, inNet_iff_of_aligned (by decide)]
  rfl

/-- An address that carries an IPv4 one is as public as that one. -/
theorem isPublicV6_of_carried {v4 : Ipv4Addr} (h : carriedV4 ip = some v4) :
    isPublicV6 ip = isPublicV4 v4 := by
  unfold carriedV4 at h
  rw [isPublicV6, toIpv4Mapped_eq]
  split at h
  · rename_i hmapped
    rw [if_pos hmapped, h]
  · rename_i hmapped
    rw [if_neg hmapped]
    dsimp only
    split at h
    · rename_i hnat64
      have hlast : embeddedV4 (segment ip 6) (segment ip 7) = BitVec.ofNat 32 ip.toNat := by
        rw [embeddedV4_segments (i := 6) (by decide), Nat.pow_zero, Nat.div_one]
      rw [if_pos (inV6_nat64_iff.mpr hnat64), hlast, Option.some.inj h]
    · rename_i hnat64
      rw [if_neg fun hin => hnat64 (inV6_nat64_iff.mp hin)]
      split at h
      · rename_i h6to4
        have hmiddle : embeddedV4 (segment ip 1) (segment ip 2) =
            BitVec.ofNat 32 (ip.toNat / 2 ^ 80) := embeddedV4_segments (by decide)
        rw [if_pos (segment_zero_iff.mpr h6to4), hmiddle, Option.some.inj h]
      · cases h

/-- Being outside the blocked IPv6 ranges. -/
theorem outside_blockedV6_iff : (!blockedV6.any fun (net, bits) => inV6 ip net bits) = true ↔
    ∀ b ∈ blockedV6, ip.toNat ∉ Set.Icc b.1.toNat (b.1.toNat + 2 ^ (128 - b.2) - 1) := by
  simp only [Bool.not_eq_true', List.any_eq_false]
  refine forall₂_congr fun b hb => not_congr ?_
  exact inNet_iff_of_aligned (aligned_blockedV6 b hb)

/-- Any other address is judged by the IPv6 ranges. -/
theorem isPublicV6_of_not_carried (h : carriedV4 ip = none) : isPublicV6 ip = true ↔
    ip.toNat ∈ Set.Icc (0x2000 * 2 ^ 112) (0x4000 * 2 ^ 112 - 1) ∧
      ∀ b ∈ blockedV6, ip.toNat ∉ Set.Icc b.1.toNat (b.1.toNat + 2 ^ (128 - b.2) - 1) := by
  unfold carriedV4 at h
  rw [isPublicV6, toIpv4Mapped_eq]
  split at h
  · cases h
  · rename_i hmapped
    rw [if_neg hmapped]
    dsimp only
    split at h
    · cases h
    · rename_i hnat64
      rw [if_neg fun hin => hnat64 (inV6_nat64_iff.mp hin)]
      split at h
      · cases h
      · rename_i h6to4
        rw [if_neg fun hin => h6to4 (segment_zero_iff.mp hin), ← outside_blockedV6_iff,
          ← inV6_unicast_iff]
        cases inV6 ip (0x2000#128 <<< 112) 3 <;> simp

/-- The only public addresses in `::/8` carry a public IPv4 address. -/
theorem carried_of_isPublicV6 (hlow : ip.toNat < 2 ^ 120) (h : isPublicV6 ip = true) :
    ∃ v4, isPublicV4 v4 = true ∧
      (ip.toNat = 0xffff * 2 ^ 32 + v4.toNat ∨ ip.toNat = 0x64ff9b * 2 ^ 96 + v4.toNat) := by
  cases hcarried : carriedV4 ip with
  | none =>
    have hunicast := ((isPublicV6_of_not_carried hcarried).mp h).1
    rw [Set.mem_Icc] at hunicast
    omega
  | some v4 =>
    refine ⟨v4, isPublicV6_of_carried hcarried ▸ h, ?_⟩
    unfold carriedV4 at hcarried
    split at hcarried
    · have hv4 := congrArg BitVec.toNat (Option.some.inj hcarried)
      rw [BitVec.toNat_ofNat] at hv4
      omega
    · split at hcarried
      · have hv4 := congrArg BitVec.toNat (Option.some.inj hcarried)
        rw [BitVec.toNat_ofNat] at hv4
        omega
      · split at hcarried
        · omega
        · cases hcarried

/-- Nothing above the global unicast range is public. -/
theorem isPublicV6_eq_false (hhigh : 0x4000 * 2 ^ 112 ≤ ip.toNat) : isPublicV6 ip = false := by
  have hnone : carriedV4 ip = none := by
    rw [carriedV4]
    rw [if_neg (by omega), if_neg (by omega), if_neg (by omega)]
  rw [Bool.eq_false_iff]
  intro h
  have hunicast := ((isPublicV6_of_not_carried hnone).mp h).1
  rw [Set.mem_Icc] at hunicast
  omega

end V6

/-- Unique local, link-local and multicast addresses. -/
def internalV6 : List (Network 128) := [
  ⟨0xfc00#128 <<< 112, 7, by decide⟩,
  ⟨0xfe80#128 <<< 112, 10, by decide⟩,
  ⟨0xff00#128 <<< 112, 8, by decide⟩]

/-- **`is_public` is a list of ranges.** The masks agree with intervals; an IPv4 address is public
if it is in none of the listed networks, an IPv6 address that carries one if that one is, and any
other if it is a global unicast address in none of the listed networks. Below `100::` only forms of
public IPv4 hosts are public, and no unique local, link-local or multicast address is. -/
theorem is_public_ranges :
    (∀ (ip net : Ipv4Addr) (bits : ℕ), bits ≤ 32 →
      (inV4 ip net bits = true ↔ ip.toNat ∈ (Network.of net bits).range)) ∧
    (∀ (ip net : Ipv6Addr) (bits : ℕ), bits ≤ 128 →
      (inV6 ip net bits = true ↔ ip.toNat ∈ (Network.of net bits).range)) ∧
    (∀ ip, isPublic (.v4 ip) = true ↔
      ∀ b ∈ blockedV4, ip.toNat ∉ Set.Icc b.1.toNat (b.1.toNat + 2 ^ (32 - b.2) - 1)) ∧
    (∀ ip v4, carriedV4 ip = some v4 → isPublic (.v6 ip) = isPublic (.v4 v4)) ∧
    (∀ ip, carriedV4 ip = none → (isPublic (.v6 ip) = true ↔
      ip.toNat ∈ Set.Icc (0x2000 * 2 ^ 112) (0x4000 * 2 ^ 112 - 1) ∧
        ∀ b ∈ blockedV6, ip.toNat ∉ Set.Icc b.1.toNat (b.1.toNat + 2 ^ (128 - b.2) - 1))) ∧
    (∀ ip : Ipv6Addr, ip.toNat < 2 ^ 120 → isPublic (.v6 ip) = true →
      ∃ v4, isPublic (.v4 v4) = true ∧
        (ip.toNat = 0xffff * 2 ^ 32 + v4.toNat ∨ ip.toNat = 0x64ff9b * 2 ^ 96 + v4.toNat)) ∧
    ∀ n ∈ internalV6, ∀ ip : Ipv6Addr, ip.toNat ∈ n.range → isPublic (.v6 ip) = false := by
  refine ⟨fun ip net bits _ => inNet_iff, fun ip net bits _ => inNet_iff,
    fun ip => isPublicV4_iff, fun ip v4 h => isPublicV6_of_carried h,
    fun ip h => isPublicV6_of_not_carried h, fun ip hlow h => carried_of_isPublicV6 hlow h, ?_⟩
  intro n hn ip hip
  have habove : ∀ n ∈ internalV6, 0x4000 * 2 ^ 112 ≤ n.base.toNat := by decide
  exact isPublicV6_eq_false ((habove n hn).trans hip.1)

example : isPublic (.v6 (0x0064ff9b0000000000000000a9fea9fe#128)) = false := by decide

end Dunlin
