import Mathlib.Data.BitVec
import Mathlib.Order.Interval.Set.Basic

/-!
# Networks of addresses

A network fixes the first `bits` bits of a `w`-bit address and leaves the rest open. Code tests for
membership with a mask; a specification says which addresses there are. The two meet in
`Network.mem_range_of`: under the mask of a network an address looks like another one exactly when
it lies in the interval of the other's network.

The base of a `Network` has no bit set after the fixed ones, so its interval starts at the base.

## Main results

* `and_mask_eq_iff` — when two addresses look alike under a mask, by division
* `mem_range_of` — the mask and the interval agree, at every width
* `range_of_base` — a network whose base is aligned is the interval from its base
-/

namespace Lib

variable {w : ℕ}

/-- A network of `w`-bit addresses. -/
structure Network (w : ℕ) where
  base : BitVec w
  bits : ℕ
  /-- The bits left open are zero. -/
  aligned : 2 ^ (w - bits) ∣ base.toNat

namespace Network

/-- The ones of the bits a network fixes. -/
def mask (w bits : ℕ) : BitVec w := BitVec.allOnes w <<< (w - bits)

/-- The addresses of a network. -/
def range (n : Network w) : Set ℕ := Set.Icc n.base.toNat (n.base.toNat + 2 ^ (w - n.bits) - 1)

/-- Addresses agree under a mask if they agree without the bits it clears. -/
theorem and_mask_eq_iff {x y : BitVec w} {bits : ℕ} :
    x &&& mask w bits = y &&& mask w bits ↔ x >>> (w - bits) = y >>> (w - bits) := by
  rw [mask]
  generalize w - bits = n
  constructor
  · intro h
    ext i hi
    have hbit := congrArg (·.getLsbD (n + i)) h
    simp only [BitVec.getLsbD_and, BitVec.getLsbD_shiftLeft, BitVec.getLsbD_allOnes] at hbit
    rw [BitVec.getElem_ushiftRight, BitVec.getElem_ushiftRight]
    by_cases hlt : n + i < w
    · have hle : ¬n + i < n := by omega
      simpa [hlt, hi, hle] using hbit
    · rw [BitVec.getLsbD_of_ge _ _ (Nat.le_of_not_lt hlt),
        BitVec.getLsbD_of_ge _ _ (Nat.le_of_not_lt hlt)]
  · intro h
    ext i hi
    simp only [BitVec.getElem_and, BitVec.getElem_shiftLeft, BitVec.getElem_allOnes]
    by_cases hin : i < n
    · simp [hin]
    · have hbit := congrArg (·.getLsbD (i - n)) h
      simp only [BitVec.getLsbD_ushiftRight, Nat.add_sub_cancel' (Nat.le_of_not_lt hin)] at hbit
      simpa [hin, ← BitVec.getLsbD_eq_getElem] using hbit

/-- The mask cuts an address down to a multiple of the size of the network. -/
theorem and_mask_eq_iff_div {x y : BitVec w} {bits : ℕ} :
    x &&& mask w bits = y &&& mask w bits ↔
      x.toNat / 2 ^ (w - bits) = y.toNat / 2 ^ (w - bits) := by
  rw [and_mask_eq_iff, ← BitVec.toNat_inj, BitVec.toNat_ushiftRight, BitVec.toNat_ushiftRight,
    Nat.shiftRight_eq_div_pow, Nat.shiftRight_eq_div_pow]

/-- The network of an address. -/
def of (net : BitVec w) (bits : ℕ) : Network w where
  base := BitVec.ofNat w (net.toNat / 2 ^ (w - bits) * 2 ^ (w - bits))
  bits := bits
  aligned := by
    rw [BitVec.toNat_ofNat, Nat.mod_eq_of_lt]
    · exact Dvd.intro_left _ rfl
    · exact Nat.lt_of_le_of_lt (Nat.div_mul_le_self _ _) net.isLt

theorem toNat_base_of (net : BitVec w) (bits : ℕ) :
    (of net bits).base.toNat = net.toNat / 2 ^ (w - bits) * 2 ^ (w - bits) := by
  rw [of, BitVec.toNat_ofNat, Nat.mod_eq_of_lt]
  exact Nat.lt_of_le_of_lt (Nat.div_mul_le_self _ _) net.isLt

/-- **The mask and the interval agree**, at every width. -/
theorem mem_range_of {ip net : BitVec w} {bits : ℕ} :
    ip.toNat ∈ (of net bits).range ↔ ip &&& mask w bits = net &&& mask w bits := by
  have hpos : 0 < 2 ^ (w - bits) := Nat.two_pow_pos _
  rw [and_mask_eq_iff_div, range, Set.mem_Icc, toNat_base_of]
  show _ ∧ _ ≤ _ + 2 ^ (w - bits) - 1 ↔ _
  rw [Nat.div_eq_iff hpos]

/-- A network is the one of its base. -/
theorem range_of_base (n : Network w) : (of n.base n.bits).range = n.range := by
  rw [range, range, toNat_base_of, Nat.div_mul_cancel n.aligned]
  rfl

end Network

end Lib
