import Mathlib.Analysis.SpecialFunctions.Log.Base

namespace MyCeph.Lib

/-!
# Binary logarithms of integers

Bounds on `log2` that integer arithmetic decides, and the error of integer divisions.

* `mul_logb_le`, `le_mul_logb` — from powers of two around a power of the argument;
* `logb_add_le`, `le_logb_add` — from powers of two around a product;
* `cast_div_bounds`, `tdiv_near` — what a division loses.
-/

theorem logb_cast_le {a b : ℕ} (ha : 0 < a) (h : a ≤ b) : Real.logb 2 a ≤ Real.logb 2 b := by
  apply Real.logb_le_logb_of_le (by norm_num)
  · exact_mod_cast ha
  · exact_mod_cast h

theorem logb_two_pow (n : ℕ) : Real.logb 2 (2 ^ n) = n := by
  rw [Real.logb_pow, Real.logb_self_eq_one (by norm_num), mul_one]

/-- An integer bound on a power is one on the logarithm. -/
theorem mul_logb_le {a q n : ℕ} (ha : 0 < a) (h : a ^ q ≤ 2 ^ n) : q * Real.logb 2 a ≤ n := by
  have hlog := logb_cast_le (Nat.pow_pos ha) h
  push_cast at hlog
  rwa [Real.logb_pow, logb_two_pow] at hlog

theorem le_mul_logb {a q n : ℕ} (h : 2 ^ n ≤ a ^ q) : n ≤ q * Real.logb 2 a := by
  have hlog := logb_cast_le (Nat.two_pow_pos n) h
  push_cast at hlog
  rwa [logb_two_pow, Real.logb_pow] at hlog

/-- Likewise for products. -/
theorem logb_add_le {a b c n : ℕ} (ha : 0 < a) (hb : 0 < b) (hc : 0 < c)
    (h : a * b ≤ c * 2 ^ n) : Real.logb 2 a + Real.logb 2 b ≤ Real.logb 2 c + n := by
  have hlog := logb_cast_le (Nat.mul_pos ha hb) h
  push_cast at hlog
  rwa [Real.logb_mul (by positivity) (by positivity), Real.logb_mul (by positivity) (by positivity),
    logb_two_pow] at hlog

theorem le_logb_add {a b c n : ℕ} (ha : 0 < a) (hb : 0 < b) (hc : 0 < c)
    (h : c * 2 ^ n ≤ a * b) : Real.logb 2 c + n ≤ Real.logb 2 a + Real.logb 2 b := by
  have hlog := logb_cast_le (Nat.mul_pos hc (Nat.two_pow_pos n)) h
  push_cast at hlog
  rwa [Real.logb_mul (by positivity) (by positivity), Real.logb_mul (by positivity) (by positivity),
    logb_two_pow] at hlog

/-- What is left out by a division. -/
theorem cast_div_bounds (a : ℕ) {d : ℕ} (hd : 0 < d) :
    (d : ℝ) * (a / d : ℕ) ≤ a ∧ (a : ℝ) < d * ((a / d : ℕ) + 1) := by
  constructor
  · exact_mod_cast Nat.mul_div_le a d
  · exact_mod_cast Nat.lt_mul_div_succ a hd

/-- A division that rounds towards 0. -/
theorem tdiv_near (a : ℤ) {w : ℤ} (hw : 0 < w) : |(Int.tdiv a w : ℝ) - a / w| ≤ 1 := by
  have hpos : (0 : ℝ) < w := by exact_mod_cast hw
  have hmod : (w : ℝ) * Int.tdiv a w + Int.tmod a w = a := by
    exact_mod_cast Int.mul_tdiv_add_tmod a w
  have hlt : (Int.tmod a w : ℝ) < w := by exact_mod_cast Int.tmod_lt_of_pos a hw
  have hgt : -(w : ℝ) < Int.tmod a w := by exact_mod_cast Int.lt_tmod_of_pos a hw
  have hdiv : (Int.tdiv a w : ℝ) - a / w = -(Int.tmod a w / w) := by
    rw [← hmod, add_div, mul_div_cancel_left₀ _ (ne_of_gt hpos)]
    ring
  rw [hdiv, abs_neg, abs_div, abs_of_pos hpos, div_le_one hpos]
  exact le_of_lt (abs_lt.mpr ⟨hgt, hlt⟩)

end MyCeph.Lib
