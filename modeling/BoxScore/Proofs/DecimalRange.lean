import BoxScore.Decimal.Binary64
import Mathlib.Algebra.Order.Field.Power
import Mathlib.Data.Rat.Lemmas
import Mathlib.Tactic.FieldSimp
import Mathlib.Tactic.Linarith
import Mathlib.Tactic.NormNum
import Mathlib.Tactic.Positivity
import Mathlib.Tactic.Ring

/- Which decimals have a finite number nearest to them. In the middle between the greatest
   finite number and the one that would follow it lies `overflow`; a decimal below it is
   rounded to a finite number, and one from there on is infinite. The exponent decides all
   but the last binary place before that. -/
namespace BoxScore

namespace Fraction

variable {f g : Fraction}

def value (f : Fraction) : ℚ := f.num / f.den

theorem whole_value (n : Nat) : (whole n).value = n := by
  simp [whole, value]

theorem scale_den_pos (positive : 0 < f.den) {base : Nat} (large : 0 < base) (power : Int) :
    0 < (f.scale base power).den := by
  unfold scale
  split
  · exact Nat.mul_pos positive (Nat.pow_pos large)
  · exact positive

theorem scale_value (f : Fraction) (base : Nat) (power : Int) :
    (f.scale base power).value = f.value * (base : ℚ) ^ power := by
  unfold scale value
  split
  · rename_i negative
    obtain ⟨n, rfl⟩ : ∃ n : Nat, power = -(n : Int) := ⟨power.natAbs, by omega⟩
    simp only [Int.natAbs_neg, Int.natAbs_natCast, Nat.pow_eq, Nat.cast_mul, Nat.cast_pow,
      zpow_neg, zpow_natCast]
    rw [← div_div, div_eq_mul_inv]
  · rename_i nonnegative
    obtain ⟨n, rfl⟩ := Int.eq_ofNat_of_zero_le (Int.not_lt.mp nonnegative)
    simp only [Int.natAbs_natCast, Nat.pow_eq, Nat.cast_mul, Nat.cast_pow, zpow_natCast]
    rw [mul_div_right_comm]

theorem lt_iff (first : 0 < f.den) (second : 0 < g.den) : f.lt g ↔ f.value < g.value := by
  have one : (0 : ℚ) < f.den := by exact_mod_cast first
  have two : (0 : ℚ) < g.den := by exact_mod_cast second
  rw [lt, decide_eq_true_eq, value, value, div_lt_div_iff₀ one two]
  exact_mod_cast Iff.rfl

theorem num_eq (f : Fraction) : f.num = f.floor * f.den + f.num % f.den :=
  (Nat.div_add_mod' _ _).symm

theorem round_le (f : Fraction) : f.round ≤ f.floor + 1 := by
  unfold round
  split <;> omega

theorem round_of_odd (odd : f.floor % 2 = 1) :
    f.round = f.floor + 1 ↔ f.den ≤ 2 * (f.num % f.den) := by
  unfold round half
  split
  · rename_i less
    rw [Nat.compare_eq_lt] at less
    omega
  · rename_i more
    rw [Nat.compare_eq_gt] at more
    omega
  · rename_i equal
    rw [Nat.compare_eq_eq] at equal
    omega

theorem round_eq_iff (positive : 0 < f.den) {n : Nat} (even : n % 2 = 0)
    (below : f.value < n) : f.round = n ↔ (n : ℚ) - 1 / 2 ≤ f.value := by
  have den : (0 : ℚ) < f.den := by exact_mod_cast positive
  have under : f.num < n * f.den := by
    rw [value, div_lt_iff₀ den] at below
    exact_mod_cast below
  have middle : (n : ℚ) - 1 / 2 ≤ f.value ↔ 2 * (n * f.den) ≤ 2 * f.num + f.den := by
    have cast : (2 : ℚ) * (n * f.den) ≤ 2 * f.num + f.den ↔
        2 * (n * f.den) ≤ 2 * f.num + f.den := by exact_mod_cast Iff.rfl
    rw [value, le_div_iff₀ den, ← cast]
    constructor <;> intro bound <;> linarith
  have short : f.floor < n := Nat.div_lt_of_lt_mul (by rwa [Nat.mul_comm] at under)
  have rest : f.num % f.den < f.den := Nat.mod_lt _ positive
  have parts := f.num_eq
  rw [middle]
  obtain near | far : n = f.floor + 1 ∨ f.floor + 2 ≤ n := by omega
  · rw [near, round_of_odd (by omega), Nat.add_mul]
    omega
  · have gap : (f.floor + 2) * f.den ≤ n * f.den := Nat.mul_le_mul_right _ far
    have most := f.round_le
    rw [Nat.add_mul] at gap
    omega

end Fraction

namespace Binary64

/-- The middle between the greatest finite number and the one that would follow it. -/
def overflow : ℚ := (significandLimit - 1 / 2) * 2 ^ greatestExponent

theorem log2_bounds {f : Fraction} (above : 0 < f.num) (positive : 0 < f.den) :
    (2 : ℚ) ^ ((f.num.log2 : Int) - f.den.log2 - 1) < f.value ∧
      f.value < 2 ^ ((f.num.log2 : Int) - f.den.log2 + 1) := by
  have two : (2 : ℚ) ≠ 0 := by norm_num
  have den : (0 : ℚ) < f.den := by exact_mod_cast positive
  have numLow : (2 : ℚ) ^ f.num.log2 ≤ f.num := by
    exact_mod_cast Nat.log2_self_le above.ne'
  have numHigh : (f.num : ℚ) < 2 ^ (f.num.log2 + 1) := by
    exact_mod_cast Nat.lt_log2_self
  have denLow : (2 : ℚ) ^ f.den.log2 ≤ f.den := by
    exact_mod_cast Nat.log2_self_le positive.ne'
  have denHigh : (f.den : ℚ) < 2 ^ (f.den.log2 + 1) := by
    exact_mod_cast Nat.lt_log2_self
  constructor
  · calc (2 : ℚ) ^ ((f.num.log2 : Int) - f.den.log2 - 1)
        = 2 ^ f.num.log2 / 2 ^ (f.den.log2 + 1) := by
          rw [sub_sub, zpow_sub₀ two, zpow_natCast]
          exact_mod_cast rfl
      _ < f.num / f.den := by
          rw [div_lt_div_iff₀ (by positivity) den]
          exact mul_lt_mul' numLow denHigh den.le (by exact_mod_cast above)
  · calc (f.num : ℚ) / f.den
        < 2 ^ (f.num.log2 + 1) / 2 ^ f.den.log2 := by
          rw [div_lt_div_iff₀ den (by positivity)]
          exact mul_lt_mul numHigh denLow (by positivity) (by positivity)
      _ = 2 ^ ((f.num.log2 : Int) - f.den.log2 + 1) := by
          rw [sub_add_eq_add_sub, zpow_sub₀ two, zpow_natCast]
          exact_mod_cast rfl

theorem significandLimit_cast : (significandLimit : ℚ) = 2 ^ (53 : Int) := by
  norm_num [significandLimit]

theorem exponentOf_bounds {f : Fraction} (above : 0 < f.num) (positive : 0 < f.den) :
    ∃ e : Int, exponentOf f = max e leastExponent ∧
      (2 : ℚ) ^ (e + 52) ≤ f.value ∧ f.value < 2 ^ (e + 53) := by
  obtain ⟨lower, upper⟩ := log2_bounds above positive
  unfold exponentOf
  generalize shift : (f.num.log2 : Int) - f.den.log2 - 53 = low
  have test : (f.scale 2 (-low)).lt (.whole significandLimit) ↔ f.value < 2 ^ (low + 53) := by
    rw [Fraction.lt_iff (Fraction.scale_den_pos positive (by decide) _) (by decide),
      Fraction.scale_value, Fraction.whole_value, significandLimit_cast, Nat.cast_ofNat,
      zpow_neg, ← div_eq_mul_inv, div_lt_iff₀ (by positivity), ← zpow_add₀ (by norm_num),
      add_comm 53]
  refine ⟨if (f.scale 2 (-low)).lt (.whole significandLimit) then low else low + 1, ?_, ?_⟩
  · dsimp only
    split <;> omega
  · split
    · rename_i small
      refine ⟨?_, test.mp small⟩
      rw [show low + 52 = (f.num.log2 : Int) - f.den.log2 - 1 by omega]
      exact lower.le
    · rename_i large
      rw [test, not_lt] at large
      rw [show low + 1 + 52 = low + 53 by omega,
        show low + 1 + 53 = (f.num.log2 : Int) - f.den.log2 + 1 by omega]
      exact ⟨large, upper⟩

theorem ofFraction_isFinite {f : Fraction} {negative : Bool} :
    (ofFraction negative f).isFinite ↔ exponentOf f < greatestExponent ∨
      exponentOf f = greatestExponent ∧
        (f.scale 2 (-greatestExponent)).round ≠ significandLimit := by
  have cases : (ofFraction negative f).isFinite ↔
      ¬ greatestExponent < if (f.scale 2 (-exponentOf f)).round = significandLimit
        then exponentOf f + 1 else exponentOf f := by
    unfold ofFraction
    by_cases full : (f.scale 2 (-exponentOf f)).round = significandLimit
    · simp only [if_pos full]
      split <;> simp_all [isFinite]
    · simp only [if_neg full]
      split <;> simp_all [isFinite]
  rw [cases]
  obtain low | same | high := lt_trichotomy (exponentOf f) greatestExponent
  · simp only [low, true_or, iff_true]
    split <;> omega
  · rw [same]
    split <;> simp_all
  · have past : ¬ exponentOf f < greatestExponent := by omega
    have other : exponentOf f ≠ greatestExponent := by omega
    simp only [past, other, false_or, false_and, iff_false, not_not]
    split <;> omega

theorem pow_lt_overflow : (2 : ℚ) ^ (52 + greatestExponent) < overflow := by
  rw [overflow, zpow_add₀ (by norm_num), significandLimit_cast]
  exact mul_lt_mul_of_pos_right (by norm_num) (by positivity)

theorem overflow_lt_pow : overflow < (2 : ℚ) ^ (53 + greatestExponent) := by
  rw [overflow, zpow_add₀ (by norm_num), significandLimit_cast]
  exact mul_lt_mul_of_pos_right (by norm_num) (by positivity)

theorem rounded_up_iff {f : Fraction} (positive : 0 < f.den)
    (below : f.value < 2 ^ (greatestExponent + 53)) :
    (f.scale 2 (-greatestExponent)).round = significandLimit ↔ overflow ≤ f.value := by
  have scaled : (f.scale 2 (-greatestExponent)).value = f.value / 2 ^ greatestExponent := by
    rw [Fraction.scale_value, zpow_neg, Nat.cast_ofNat, div_eq_mul_inv]
  have under : (f.scale 2 (-greatestExponent)).value < significandLimit := by
    rwa [scaled, div_lt_iff₀ (by positivity), significandLimit_cast,
      ← zpow_add₀ (by norm_num), add_comm]
  rw [Fraction.round_eq_iff (Fraction.scale_den_pos positive (by decide) _) (by decide) under,
    scaled, le_div_iff₀ (by positivity), overflow]

theorem ofFraction_isFinite_iff {f : Fraction} (above : 0 < f.num) (positive : 0 < f.den)
    (negative : Bool) : (ofFraction negative f).isFinite ↔ f.value < overflow := by
  obtain ⟨e, exponent, lower, upper⟩ := exponentOf_bounds above positive
  have least : leastExponent < greatestExponent := by decide
  rw [ofFraction_isFinite]
  obtain low | rfl | high := lt_trichotomy e greatestExponent
  · have small : f.value < overflow := calc
      f.value < 2 ^ (e + 53) := upper
      _ ≤ 2 ^ (52 + greatestExponent) := zpow_le_zpow_right₀ (by norm_num) (by omega)
      _ < overflow := pow_lt_overflow
    exact iff_of_true (.inl (by omega)) small
  · rw [exponent, max_eq_left least.le, Ne, rounded_up_iff positive upper]
    simp
  · have large : overflow ≤ f.value := calc
      overflow ≤ 2 ^ (53 + greatestExponent) := overflow_lt_pow.le
      _ ≤ 2 ^ (e + 52) := zpow_le_zpow_right₀ (by norm_num) (by omega)
      _ ≤ f.value := lower
    exact iff_of_false (by omega) large.not_gt

theorem overflow_le_tenPow : overflow ≤ (10 : ℚ) ^ (309 : Int) := by
  have powers : ((2 ^ 1024 : Nat) : ℚ) ≤ (10 ^ 309 : Nat) := Nat.cast_le.mpr (by decide +kernel)
  rw [Nat.cast_pow, Nat.cast_pow, ← zpow_natCast, ← zpow_natCast] at powers
  exact overflow_lt_pow.le.trans powers

theorem decimal_bounds {digits : Nat} (above : 0 < digits) (power : Int) :
    (10 : ℚ) ^ (power + (Nat.toDigits 10 digits).length - 1) ≤ digits * 10 ^ power ∧
      digits * 10 ^ power < (10 : ℚ) ^ (power + (Nat.toDigits 10 digits).length) := by
  obtain ⟨width, length⟩ : ∃ width, (Nat.toDigits 10 digits).length = width + 1 :=
    Nat.exists_eq_succ_of_ne_zero Nat.length_toDigits_pos.ne'
  have lower : 10 ^ width ≤ digits := by
    cases width with
    | zero => exact above
    | succ width =>
      rw [← Nat.not_lt, ← Nat.length_toDigits_le_iff (by decide) (Nat.succ_pos width), length]
      omega
  have upper : digits < 10 ^ (width + 1) :=
    (Nat.length_toDigits_le_iff (by decide) (Nat.succ_pos width)).mp length.le
  have ten : (10 : ℚ) ≠ 0 := by norm_num
  rw [length, add_comm power, add_sub_right_comm, zpow_add₀ ten, zpow_add₀ ten,
    show ((width + 1 : Nat) : Int) - 1 = (width : Nat) by omega, zpow_natCast, zpow_natCast]
  constructor
  · exact mul_le_mul_of_nonneg_right (by exact_mod_cast lower) (by positivity)
  · exact mul_lt_mul_of_pos_right (by exact_mod_cast upper) (by positivity)

theorem overflow_pos : 0 < overflow := lt_trans (by positivity) pow_lt_overflow

/-- A decimal is infinite from the middle after the greatest finite number on. -/
theorem ofDecimal_isFinite_iff (negative : Bool) (digits : Nat) (power : Int) :
    (ofDecimal negative digits power).isFinite ↔ (digits : ℚ) * 10 ^ power < overflow := by
  obtain rfl | above := Nat.eq_zero_or_pos digits
  · simpa [ofDecimal, zero, isFinite] using overflow_pos
  obtain ⟨lower, upper⟩ := decimal_bounds above power
  unfold ofDecimal
  dsimp only
  split
  · rename_i small
    have narrow : power + (Nat.toDigits 10 digits).length < -330 := by
      simpa [above.ne'] using small
    refine iff_of_true rfl (upper.trans (lt_of_le_of_lt ?_ pow_lt_overflow))
    calc (10 : ℚ) ^ (power + (Nat.toDigits 10 digits).length)
        ≤ 10 ^ (0 : Int) := zpow_le_zpow_right₀ (by norm_num) (by omega)
      _ ≤ 2 ^ (52 + greatestExponent) := by
        rw [zpow_zero]
        exact one_le_zpow₀ (by norm_num) (by decide)
  · split
    · rename_i wide
      refine iff_of_false Bool.false_ne_true (not_lt.mpr ?_)
      calc overflow
          ≤ (10 : ℚ) ^ (309 : Int) := overflow_le_tenPow
        _ ≤ 10 ^ (power + (Nat.toDigits 10 digits).length - 1) :=
          zpow_le_zpow_right₀ (by norm_num) (by omega)
        _ ≤ digits * 10 ^ power := lower
    · have num : 0 < ((Fraction.whole digits).scale 10 power).num := by
        unfold Fraction.scale
        split
        · exact above
        · exact Nat.mul_pos above (Nat.pow_pos (by decide))
      rw [ofFraction_isFinite_iff num (Fraction.scale_den_pos Nat.one_pos (by decide) _),
        Fraction.scale_value, Fraction.whole_value, Nat.cast_ofNat]

theorem ofFraction_cases (negative : Bool) (f : Fraction) :
    (ofFraction negative f).isFinite ∨ ofFraction negative f = .infinite negative := by
  unfold ofFraction
  dsimp only
  split
  all_goals
    split
    · exact .inr rfl
    · exact .inl rfl

theorem ofDecimal_cases (negative : Bool) (digits : Nat) (power : Int) :
    (ofDecimal negative digits power).isFinite ∨
      ofDecimal negative digits power = .infinite negative := by
  unfold ofDecimal
  dsimp only
  split
  · exact .inl rfl
  · split
    · exact .inr rfl
    · exact ofFraction_cases negative _

end Binary64

end BoxScore
