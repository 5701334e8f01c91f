import DirectiveRunner.Number.Binary64
import Mathlib.Algebra.Order.Field.Rat
import Mathlib.Data.Rat.Cast.Lemmas
import Mathlib.Algebra.Order.Field.Power
import Mathlib.Tactic.Linarith
import Mathlib.Tactic.NormNum
import Mathlib.Tactic.FieldSimp
import Mathlib.Tactic.Positivity
import Mathlib.Tactic.Ring
/-!
# How near a rounded number is

The number that a `Binary64` stands for is a fraction, its `value`. An operation that gives the
nearest number of the format rounds its exact result (`Rounds`): it is off by a small part of the
result, and it does not fall below an integer that the result reaches. The second says more than
the first where a result is compared with an integer afterwards.

Results between one and `2 ^ 53` are enough here. Their mantissa has 53 bits
(`zpow_exponentFor_le_div`), and this is where the size of the error comes from.
-/

namespace DirectiveRunner

/-! ## Quotients -/

theorem div_le_roundedQuotient (n d : Nat) : n / d ≤ roundedQuotient n d := by
  unfold roundedQuotient
  dsimp only
  split <;> omega

/-- A quotient is rounded to an integer that is at most a half away. -/
theorem roundedQuotient_near (n : Nat) {d : Nat} (pos : 0 < d) :
    2 * (roundedQuotient n d * d) ≤ 2 * n + d ∧ 2 * n ≤ 2 * (roundedQuotient n d * d) + d := by
  have parts := Nat.div_add_mod' n d
  have less := Nat.mod_lt n pos
  unfold roundedQuotient
  dsimp only
  split
  · next down =>
    simp only [Bool.or_eq_true, Bool.and_eq_true, decide_eq_true_eq] at down
    omega
  · next up =>
    simp only [Bool.or_eq_true, Bool.and_eq_true, decide_eq_true_eq, not_or] at up
    rw [Nat.add_mul]
    omega

theorem abs_roundedQuotient_sub_le (n : Nat) {d : Nat} (pos : 0 < d) :
    |(roundedQuotient n d : ℚ) - n / d| ≤ 1 / 2 := by
  obtain ⟨above, below⟩ := roundedQuotient_near n pos
  have above : 2 * ((roundedQuotient n d : ℚ) * d) ≤ 2 * n + d := by exact_mod_cast above
  have below : 2 * (n : ℚ) ≤ 2 * (roundedQuotient n d * d) + d := by exact_mod_cast below
  have posd : (0 : ℚ) < d := by exact_mod_cast pos
  have apart : (roundedQuotient n d : ℚ) - n / d = (roundedQuotient n d * d - n) / d := by
    field_simp
  rw [apart, abs_le, le_div_iff₀ posd, div_le_iff₀ posd]
  constructor <;> linarith

namespace Binary64

/-! ## Values -/

/-- The number that is meant. -/
def value (x : Binary64) : ℚ := x.mantissa * 2 ^ x.exponent

theorem scaled_pos (n : Nat) {d : Nat} (pos : 0 < d) (e : Int) : 0 < (scaled n d e).2 := by
  unfold scaled
  split
  · exact pos
  · exact Nat.mul_pos pos (Nat.two_pow_pos _)

theorem scaled_eq (n d : Nat) (e : Int) :
    ((scaled n d e).1 / (scaled n d e).2 : ℚ) = n / d * 2 ^ e := by
  unfold scaled
  split
  · next nonneg =>
    obtain ⟨k, rfl⟩ := Int.eq_ofNat_of_zero_le nonneg
    simp [div_mul_eq_mul_div]
  · next negative =>
    obtain ⟨k, rfl⟩ : ∃ k : Nat, e = -k := ⟨(-e).toNat, by omega⟩
    simp [div_eq_mul_inv, mul_assoc, mul_comm]

theorem fraction_pos (x : Binary64) : 0 < x.fraction.2 := scaled_pos _ Nat.one_pos _

theorem fraction_eq (x : Binary64) : (x.fraction.1 / x.fraction.2 : ℚ) = x.value := by
  rw [fraction, scaled_eq, Nat.cast_one, div_one, value]

theorem atLeast_iff (x : Binary64) (n : Nat) : x.atLeast n = true ↔ (n : ℚ) ≤ x.value := by
  have pos : (0 : ℚ) < x.fraction.2 := by exact_mod_cast x.fraction_pos
  rw [← fraction_eq, le_div_iff₀ pos]
  unfold atLeast
  simp only [decide_eq_true_eq]
  exact_mod_cast Iff.rfl

theorem abs_tenths_sub_le (x : Binary64) : |(x.tenths : ℚ) - 10 * x.value| ≤ 1 / 2 := by
  have near := abs_roundedQuotient_sub_le (10 * x.fraction.1) x.fraction_pos
  rwa [Nat.cast_mul, mul_div_assoc, fraction_eq] at near

/-! ## The nearest number -/

/-- `x` is `r` rounded. -/
structure Rounds (x : Binary64) (r : ℚ) : Prop where
  /-- It is off by at most half a unit in the last of 53 places. -/
  near : |x.value - r| ≤ r / 2 ^ 53
  /-- It reaches the integers that `r` reaches. -/
  reaches : ∀ m : Nat, (m : ℚ) ≤ r → (m : ℚ) ≤ x.value

variable {n d : Nat}

/-- A fraction is at least the power of two that the logarithms of its parts leave. -/
theorem zpow_log2_le_div (pos : 0 < d) (pos' : 0 < n) :
    (2 : ℚ) ^ ((n.log2 : Int) - d.log2 - 1) ≤ n / d := by
  have upper : (d : ℚ) ≤ 2 ^ ((d.log2 : Int) + 1) := by exact_mod_cast Nat.lt_log2_self.le
  have lower : (2 : ℚ) ^ (n.log2 : Int) ≤ n := by exact_mod_cast Nat.log2_self_le pos'.ne'
  have posd : (0 : ℚ) < d := by exact_mod_cast pos
  calc (2 : ℚ) ^ ((n.log2 : Int) - d.log2 - 1)
      = 2 ^ (n.log2 : Int) / 2 ^ ((d.log2 : Int) + 1) := by
        rw [← zpow_sub₀ two_ne_zero]
        congr 1
        omega
    _ ≤ n / d := div_le_div₀ (by positivity) lower posd upper

/-- A number from one on has a mantissa of at least 53 bits before it is rounded. -/
theorem zpow_exponentFor_le_div (pos : 0 < d) (one : d ≤ n) :
    (2 : ℚ) ^ (exponentFor n d + 52) ≤ n / d := by
  have logs : d.log2 ≤ n.log2 := by
    rw [Nat.le_log2 (by omega)]
    exact (Nat.log2_self_le (by omega)).trans one
  unfold exponentFor
  dsimp only
  -- the logarithms alone may leave one bit too few, and the test tells
  split
  · rw [max_eq_right (by simp only [leastExponent]; omega),
      show (n.log2 : Int) - d.log2 - 52 - 1 + 52 = n.log2 - d.log2 - 1 by omega]
    exact zpow_log2_le_div pos (by omega)
  · next enough =>
    rw [max_eq_right (by simp only [leastExponent]; omega)]
    generalize (n.log2 : Int) - d.log2 - 52 = e at enough
    have posd : (0 : ℚ) < (scaled n d (-e)).2 := by exact_mod_cast scaled_pos n pos (-e)
    have bits : (2 : ℚ) ^ 52 ≤ n / d * 2 ^ (-e) := by
      rw [← scaled_eq, le_div_iff₀ posd]
      exact_mod_cast Nat.le_of_not_lt enough
    rw [zpow_neg, ← div_eq_mul_inv, le_div_iff₀ (by positivity)] at bits
    rw [zpow_add₀ two_ne_zero, mul_comm]
    exact bits

/-- The two ways to write a mantissa down mean the same. -/
theorem value_carry (m : Nat) (e : Int) :
    (if m = Nat.pow 2 53 then (⟨Nat.pow 2 52, e + 1⟩ : Binary64) else ⟨m, e⟩).value =
      m * 2 ^ e := by
  split
  · next carry =>
    subst carry
    simp only [value, zpow_add₀ (two_ne_zero' ℚ), zpow_one, Nat.pow_eq]
    push_cast
    ring
  · rfl

/-- A mantissa of at least 53 bits that is rounded, with the last bit worth no more than one. -/
theorem rounds_of_value_eq {x : Binary64} {e : Int} (pos : 0 < d) (nonpos : e ≤ 0)
    (long : (2 : ℚ) ^ (e + 52) ≤ n / d)
    (value_eq : x.value = roundedQuotient (scaled n d (-e)).1 (scaled n d (-e)).2 * 2 ^ e) :
    x.Rounds (n / d) := by
  have posd := scaled_pos n pos (-e)
  -- scaling by a power of two is undone by the exponent, so one integer quotient is rounded
  have unscaled : (n / d : ℚ) = (scaled n d (-e)).1 / (scaled n d (-e)).2 * 2 ^ e := by
    rw [scaled_eq, mul_assoc, ← zpow_add₀ two_ne_zero, neg_add_cancel, zpow_zero, mul_one]
  generalize scaled n d (-e) = f at posd value_eq unscaled
  constructor
  · have near := abs_roundedQuotient_sub_le f.1 posd
    have unit : (2 : ℚ) ^ e ≤ n / d / 2 ^ 52 := by
      rw [zpow_add₀ two_ne_zero] at long
      rw [le_div_iff₀ (by positivity)]
      exact long
    rw [value_eq, unscaled, ← sub_mul, abs_mul, abs_of_pos (show (0 : ℚ) < 2 ^ e by positivity),
      ← unscaled]
    calc |(roundedQuotient f.1 f.2 : ℚ) - f.1 / f.2| * 2 ^ e
        ≤ 1 / 2 * (n / d / 2 ^ 52) := mul_le_mul near unit (by positivity) (by norm_num)
      _ = n / d / 2 ^ 53 := by ring
  · intro m reached
    obtain ⟨k, rfl⟩ : ∃ k : Nat, e = -k := ⟨(-e).toNat, by omega⟩
    -- the exponent is not positive, so an integer is a multiple of the last unit
    have integer : m * 2 ^ k ≤ roundedQuotient f.1 f.2 := by
      refine le_trans ?_ (div_le_roundedQuotient _ _)
      rw [Nat.le_div_iff_mul_le posd]
      have posd' : (0 : ℚ) < f.2 := by exact_mod_cast posd
      rw [unscaled, zpow_neg, zpow_natCast, ← div_eq_mul_inv, le_div_iff₀ (by positivity),
        le_div_iff₀ posd'] at reached
      exact_mod_cast reached
    rw [value_eq, zpow_neg, zpow_natCast, ← div_eq_mul_inv, le_div_iff₀ (by positivity)]
    exact_mod_cast integer

/-- The nearest number of the format is the quotient rounded. -/
theorem nearest?_rounds (pos : 0 < d) (one : d ≤ n) (small : n < 2 ^ 53 * d) :
    ∃ x, nearest? n d = some x ∧ x.Rounds (n / d) := by
  have long := zpow_exponentFor_le_div pos one
  unfold nearest?
  rw [if_neg (by omega)]
  dsimp only
  generalize exponentFor n d = e at long
  have nonpos : e ≤ 0 := by
    have posd : (0 : ℚ) < d := by exact_mod_cast pos
    have less : (n / d : ℚ) < 2 ^ (53 : Int) := by
      rw [div_lt_iff₀ posd]
      exact_mod_cast small
    have := (zpow_lt_zpow_iff_right₀ one_lt_two).mp (long.trans_lt less)
    omega
  rw [if_neg ?_]
  · exact ⟨_, rfl, rounds_of_value_eq pos nonpos long (value_carry _ e)⟩
  · split <;> dsimp only <;> omega

/-- A number is divided by an integer as its value is, up to rounding. -/
theorem dividedBy_rounds {x : Binary64} (pos : 0 < d) (one : (d : ℚ) ≤ x.value)
    (small : x.value < 2 ^ 53 * d) : (x.dividedBy d).Rounds (x.value / d) := by
  have posd : (0 : ℚ) < x.fraction.2 := by exact_mod_cast x.fraction_pos
  rw [← fraction_eq, le_div_iff₀ posd] at one
  rw [← fraction_eq, div_lt_iff₀ posd] at small
  obtain ⟨y, nearest, rounds⟩ := nearest?_rounds (n := x.fraction.1) (d := x.fraction.2 * d)
    (Nat.mul_pos x.fraction_pos pos)
    (by rw [Nat.mul_comm]; exact_mod_cast one)
    (by rw [Nat.mul_comm x.fraction.2, ← Nat.mul_assoc]; exact_mod_cast small)
  rw [Nat.cast_mul, ← div_div, fraction_eq] at rounds
  unfold dividedBy
  dsimp only
  rw [nearest]
  exact rounds

end Binary64

end DirectiveRunner
