import Mathlib.Algebra.Order.Field.Power
import Mathlib.Data.Int.Log
import Mathlib.Data.Rat.Floor
import Mathlib.Tactic.NormNum
import Mathlib.Tactic.Positivity

/-!
# Floating-point numbers

The numbers of a binary format that are not negative, as the rational numbers they stand for.
`round` takes a rational number to the nearest one with the format's precision, and of two that are
equally near to the even one; what is too large becomes infinite. The operations round the exact
result.

Rounding does not cross a power of two: `atLeast_round`, and from it a lower bound for each
operation.

There are no negative numbers and no exceptions: a result that is too large is `infinity`, and
`0 * infinity` is `nan`, as the standard has it. A format is a precision and the range of its
exponents, and `binary64` is one.

## Main results

* `floor_le_roundHalfEven` — rounding to an integer does not go below the floor
* `atLeast_round`, `atLeast_mul`, `atLeast_add` — lower bounds that survive rounding
-/

namespace Lib

/-- The nearest natural number, and of two the even one. -/
def roundHalfEven (q : ℚ) : ℕ :=
  let n := ⌊q⌋₊
  if q - n < 1 / 2 ∨ (q - n = 1 / 2 ∧ n % 2 = 0) then n else n + 1

theorem floor_le_roundHalfEven (q : ℚ) : ⌊q⌋₊ ≤ roundHalfEven q := by
  unfold roundHalfEven
  dsimp only
  split
  · exact le_rfl
  · exact Nat.le_succ _

/-- A binary format. -/
structure FloatFormat where
  /-- The bits of a mantissa. -/
  precision : ℕ
  minExponent : ℤ
  /-- The power of two from which on numbers are infinite. -/
  maxExponent : ℤ

def binary64 : FloatFormat := ⟨53, -1022, 1024⟩

inductive Floating
  | finite (value : ℚ)
  | infinity
  | nan
  deriving DecidableEq, Repr

namespace FloatFormat

/-- The distance between the numbers of the format around `q`. -/
def spacing (f : FloatFormat) (q : ℚ) : ℚ :=
  2 ^ (max (Int.log 2 q) f.minExponent - (f.precision - 1))

def round (f : FloatFormat) (q : ℚ) : Floating :=
  let value := roundHalfEven (q / f.spacing q) * f.spacing q
  if value < 2 ^ f.maxExponent then .finite value else .infinity

def mul (f : FloatFormat) : Floating → Floating → Floating
  | .finite a, .finite b => f.round (a * b)
  | .infinity, .finite a | .finite a, .infinity => if a = 0 then .nan else .infinity
  | .infinity, .infinity => .infinity
  | .nan, _ | _, .nan => .nan

def add (f : FloatFormat) : Floating → Floating → Floating
  | .finite a, .finite b => f.round (a + b)
  | .infinity, .finite _ | .finite _, .infinity | .infinity, .infinity => .infinity
  | .nan, _ | _, .nan => .nan

end FloatFormat

/-- A number, finite or not, that is at least `b`. -/
def Floating.AtLeast (b : ℚ) : Floating → Prop
  | .finite value => b ≤ value
  | .infinity => True
  | .nan => False

namespace FloatFormat

variable {f : FloatFormat} {x y : Floating} {q b : ℚ} {j k : ℤ}

theorem spacing_pos (f : FloatFormat) (q : ℚ) : 0 < f.spacing q := zpow_pos (by decide) _

theorem atLeast_round_of_le (h : b ≤ roundHalfEven (q / f.spacing q) * f.spacing q) :
    (f.round q).AtLeast b := by
  unfold round
  dsimp only
  split
  · exact h
  · trivial

theorem atLeast_round_zero : (f.round q).AtLeast 0 :=
  atLeast_round_of_le (mul_nonneg (Nat.cast_nonneg _) (spacing_pos f q).le)

/-- Around a normal number a mantissa with its first bit alone is a power of two. -/
theorem two_pow_mul_spacing (hf : 1 ≤ f.precision) (hlog : f.minExponent ≤ Int.log 2 q) :
    ((2 ^ (f.precision - 1) : ℕ) : ℚ) * f.spacing q = 2 ^ Int.log 2 q := by
  rw [spacing, max_eq_left hlog, Nat.cast_pow, Nat.cast_ofNat, ← zpow_natCast,
    ← zpow_add₀ two_ne_zero, Nat.cast_sub hf, Nat.cast_one, add_sub_cancel]

/-- Rounding stays above a power of two. -/
theorem atLeast_round (hf : 1 ≤ f.precision) (hk : f.minExponent ≤ k) (h : 2 ^ k ≤ q) :
    (f.round q).AtLeast (2 ^ k) := by
  have hq : 0 < q := (zpow_pos (by decide) k).trans_le h
  have hlog : k ≤ Int.log 2 q := (Int.zpow_le_iff_le_log one_lt_two hq).mp (by exact_mod_cast h)
  have hspacing := two_pow_mul_spacing hf (hk.trans hlog)
  -- the mantissa of `q` has all its bits
  have hmantissa : ((2 ^ (f.precision - 1) : ℕ) : ℚ) ≤ q / f.spacing q := by
    rw [le_div_iff₀ (spacing_pos f q), hspacing]
    exact_mod_cast Int.zpow_log_le_self one_lt_two hq
  have hround : 2 ^ (f.precision - 1) ≤ roundHalfEven (q / f.spacing q) :=
    (Nat.le_floor hmantissa).trans (floor_le_roundHalfEven _)
  refine atLeast_round_of_le ?_
  calc (2 : ℚ) ^ k ≤ 2 ^ Int.log 2 q := zpow_le_zpow_right₀ one_le_two hlog
    _ = ((2 ^ (f.precision - 1) : ℕ) : ℚ) * f.spacing q := hspacing.symm
    _ ≤ roundHalfEven (q / f.spacing q) * f.spacing q :=
      mul_le_mul_of_nonneg_right (Nat.cast_le.mpr hround) (spacing_pos f q).le

theorem atLeast_mul (hf : 1 ≤ f.precision) (hjk : f.minExponent ≤ j + k) (hx : x.AtLeast (2 ^ j))
    (hy : y.AtLeast (2 ^ k)) : (f.mul x y).AtLeast (2 ^ (j + k)) := by
  have hj : (0 : ℚ) < 2 ^ j := zpow_pos (by decide) j
  have hk : (0 : ℚ) < 2 ^ k := zpow_pos (by decide) k
  cases x with
  | finite a =>
    have ha : 2 ^ j ≤ a := hx
    cases y with
    | finite b =>
      refine atLeast_round hf hjk ?_
      rw [zpow_add₀ two_ne_zero]
      exact mul_le_mul ha hy hk.le (hj.le.trans ha)
    | infinity =>
      rw [mul, if_neg (hj.trans_le ha).ne']
      trivial
    | nan => exact hy.elim
  | infinity =>
    cases y with
    | finite b =>
      have hb : 2 ^ k ≤ b := hy
      rw [mul, if_neg (hk.trans_le hb).ne']
      trivial
    | infinity => trivial
    | nan => exact hy.elim
  | nan => exact hx.elim

theorem atLeast_add (hf : 1 ≤ f.precision) (hj : f.minExponent ≤ j) (hx : x.AtLeast (2 ^ j))
    (hy : y.AtLeast 0) : (f.add x y).AtLeast (2 ^ j) := by
  cases x with
  | finite a =>
    cases y with
    | finite b => exact atLeast_round hf hj (le_add_of_le_of_nonneg hx hy)
    | infinity => trivial
    | nan => exact hy.elim
  | infinity =>
    cases y with
    | finite b => trivial
    | infinity => trivial
    | nan => exact hy.elim
  | nan => exact hx.elim

end FloatFormat

end Lib
