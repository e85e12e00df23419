import MyCeph.Crush.Hash
import MyCeph.Crush.LnTable
import Mathlib.Algebra.Order.Ring.Int
import Mathlib.Algebra.Order.Ring.Abs
import Mathlib.Data.Nat.Bitwise
import Mathlib.Data.Int.Bitwise
import Mathlib.Tactic.Ring
import Mathlib.Tactic.Linarith

namespace MyCeph.Crush

/-!
# The straw length

`rseudo_random_number.h`: the fixed-point logarithm `crush_ln` and the straw
`generate_exponential_distribution` draws for one item, `(ln u - 2^48) / weight` in
64-bit integers.  `unsigned` and `__u64` values are natural numbers with explicit
wrap-around, `int` and `__s64` values integers brought into range by `toS32` and
`toS64`.

* `crushLn_le` — `ln u ≤ 2^48` for every 16-bit `u`, so no straw is positive while the
  weight stays positive as an `int`;
* `draw_mono` — there a heavier item never draws a shorter straw;
* `s64Min_lt_draw` — for every non-zero weight a straw beats the `S64_MIN` of an item
  of weight 0.
-/

/-- Conversion to `int`. -/
def toS32 (x : ℤ) : ℤ := Int.bmod x (2 ^ 32)

/-- Conversion to `__s64`. -/
def toS64 (x : ℤ) : ℤ := Int.bmod x (2 ^ 64)

/-- `S64_MIN`. -/
def s64Min : ℤ := -2 ^ 63

/-- `__builtin_clz`, of a non-zero 32-bit word. -/
def builtinClz (x : ℕ) : ℕ := 31 - Nat.log2 x

/-- The first half of `crush_ln`: shift `x` until bit 15 or 16 is set, and say which
    power of two was there. -/
def crushLnNormalize (x : ℕ) : ℕ × ℕ :=
  if x &&& 0x18000 = 0 then
    let bits := builtinClz (x &&& 0x1FFFF) - 16
    (x <<< bits % 2 ^ 32, 15 - bits)
  else (x, 15)

/-- The second half of `crush_ln`: the logarithm of the normalized `x` from the two
    tables. -/
def crushLnMantissa (x : ℕ) : ℕ :=
  let index1 := (x >>> 8) <<< 1
  let RH := rhLhTbl.getD (index1 - 256) 0
  let LH := rhLhTbl.getD (index1 + 1 - 256) 0
  let xl64 := (x * RH % 2 ^ 64) >>> 48
  let index2 := xl64 &&& 0xff
  let LL := llTbl.getD index2 0
  ((LH + LL) % 2 ^ 64) >>> (48 - 12 - 32)

/-- `crush_ln`. -/
def crushLn (xin : ℕ) : ℕ :=
  let (x, iexpon) := crushLnNormalize ((xin + 1) % 2 ^ 32)
  (iexpon <<< (12 + 32) + crushLnMantissa x) % 2 ^ 64

variable (H : CrushHash)

/-- The `ln` of `generate_exponential_distribution`: the logarithm of 16 hash bits,
    less `2^48`. -/
def strawLn (type : ℕ) (x y z : ℤ) : ℤ :=
  let hash := H.crushHash32_3 type (UInt32.ofInt x) (UInt32.ofInt y) (UInt32.ofInt z)
  toS64 (crushLn (hash.toNat &&& 0xffff) - 0x1000000000000)

/-- `generate_exponential_distribution`.  `weight` arrives as an `int`. -/
def generateExponentialDistribution (type : ℕ) (x y z : ℤ) (weight : ℤ) : ℤ :=
  Int.tdiv (strawLn H type x y z) weight

/-! ### The logarithm of a 16-bit value is at most `2^48` -/

/-- For every row `k = x >> 8` of the first table, the index into the second table stays
    below 256, and no entry it can reach lifts the logarithm over `2^48`. -/
private theorem table_rows :
    ∀ k < 128,
      let RH := rhLhTbl.getD (2 * k) 0
      let top := ((k + 128) * 256 + 255) * RH
      2 ^ 63 ≤ (k + 128) * 256 * RH ∧ top < 2 ^ 63 + 2 ^ 56 ∧ rhLhTbl.getD (2 * k + 1) 0 ≤ 2 ^ 48 ∧
      ((llTbl.take (top / 2 ^ 48 - 2 ^ 15 + 1)).all fun LL =>
        rhLhTbl.getD (2 * k + 1) 0 + LL ≤ 2 ^ 48) = true := by
  decide +kernel

/-- A check of all entries, read at one of them. -/
private theorem getD_le_of_take_all {l : List ℕ} {p : ℕ → Bool} {n i : ℕ}
    (h : (l.take n).all p = true) (hi : i < n) (hp : p 0 = true) : p (l.getD i 0) = true := by
  by_cases hl : i < l.length
  · rw [List.getD_eq_getElem?_getD, List.getElem?_eq_getElem hl]
    refine List.all_eq_true.mp h _ ?_
    rw [List.mem_take_iff_getElem]
    exact ⟨i, by omega, rfl⟩
  · rw [List.getD_eq_getElem?_getD, List.getElem?_eq_none (by omega)]
    exact hp

/-- The index into the second table, for a product in the range `table_rows` gives. -/
private theorem index2_eq {p : ℕ} (hlo : 2 ^ 63 ≤ p) (hhi : p < 2 ^ 63 + 2 ^ 56) :
    ((p % 2 ^ 64) >>> 48) &&& 0xff = p / 2 ^ 48 - 2 ^ 15 := by
  rw [Nat.shiftRight_eq_div_pow, show (0xff : ℕ) = 2 ^ 8 - 1 by norm_num,
    Nat.and_two_pow_sub_one_eq_mod]
  omega

/-- The logarithm of a mantissa is at most 1. -/
theorem crushLnMantissa_le {x : ℕ} (hlo : 2 ^ 15 ≤ x) (hhi : x < 2 ^ 16) :
    crushLnMantissa x ≤ 2 ^ 44 := by
  obtain ⟨k, hk⟩ : ∃ k, x / 256 = k + 128 := ⟨x / 256 - 128, by omega⟩
  obtain ⟨hbot, htop, hLH, hall⟩ := table_rows k (by omega)
  have hrow : (x >>> 8) <<< 1 = 2 * k + 256 := by
    rw [Nat.shiftLeft_eq, Nat.shiftRight_eq_div_pow]; omega
  -- `x * RH` stays between the two ends of its row.
  have h1 : (k + 128) * 256 * rhLhTbl.getD (2 * k) 0 ≤ x * rhLhTbl.getD (2 * k) 0 :=
    Nat.mul_le_mul_right _ (by omega)
  have h2 : x * rhLhTbl.getD (2 * k) 0 ≤ ((k + 128) * 256 + 255) * rhLhTbl.getD (2 * k) 0 :=
    Nat.mul_le_mul_right _ (by omega)
  have hidx := Nat.div_le_div_right (c := 2 ^ 48) h2
  have hLL := getD_le_of_take_all hall (Nat.lt_succ_of_le (Nat.sub_le_sub_right hidx _))
    (by simpa using hLH)
  rw [decide_eq_true_eq] at hLL
  unfold crushLnMantissa
  simp only [hrow, Nat.add_sub_cancel, show 2 * k + 256 + 1 - 256 = 2 * k + 1 by omega]
  rw [index2_eq (le_trans hbot h1) (lt_of_le_of_lt h2 htop), Nat.shiftRight_eq_div_pow]
  omega

/-- Masking with three bits moved up keeps those bits of the number. -/
private theorem and_shiftLeft (x m k : ℕ) : x &&& (m <<< k) = ((x >>> k) &&& m) <<< k := by
  apply Nat.eq_of_testBit_eq
  intro i
  simp only [Nat.testBit_and, Nat.testBit_shiftLeft, Nat.testBit_shiftRight]
  by_cases h : k ≤ i
  · simp [h]
  · simp [h]

/-- The two bits that the code tests for a mantissa that is already normal. -/
private theorem and_0x18000 (x : ℕ) : (x &&& 0x18000) = (x / 2 ^ 15 % 4) * 2 ^ 15 := by
  rw [show (0x18000 : ℕ) = 3 <<< 15 by decide, and_shiftLeft, Nat.shiftLeft_eq,
    Nat.shiftRight_eq_div_pow, show (3 : ℕ) = 2 ^ 2 - 1 by norm_num,
    Nat.and_two_pow_sub_one_eq_mod]

/-- Below `2^16` the normalized value lies in `[2^15, 2^16)`. -/
theorem crushLnNormalize_spec {x : ℕ} (h0 : 0 < x) (hx : x < 2 ^ 16) :
    2 ^ 15 ≤ (crushLnNormalize x).1 ∧ (crushLnNormalize x).1 < 2 ^ 16 ∧
      (crushLnNormalize x).2 ≤ 15 := by
  unfold crushLnNormalize
  rw [and_0x18000]
  by_cases h : x < 2 ^ 15
  · have hmask : x &&& 0x1FFFF = x := by
      rw [show (0x1FFFF : ℕ) = 2 ^ 17 - 1 by norm_num, Nat.and_two_pow_sub_one_eq_mod]; omega
    rw [if_pos (by omega), hmask]
    -- The shift brings the leading one to bit 15.
    have hlog : Nat.log2 x < 15 := (Nat.log2_lt (by omega)).mpr h
    have hle : 2 ^ Nat.log2 x ≤ x := Nat.log2_self_le (by omega)
    have hlt : x < 2 ^ (Nat.log2 x + 1) := Nat.lt_log2_self
    have hbits : builtinClz x - 16 = 15 - Nat.log2 x := by unfold builtinClz; omega
    simp only [hbits, Nat.shiftLeft_eq]
    have hsplit : 2 ^ Nat.log2 x * 2 ^ (15 - Nat.log2 x) = 2 ^ 15 := by
      rw [← pow_add]; congr 1; omega
    have h1 : 2 ^ 15 ≤ x * 2 ^ (15 - Nat.log2 x) :=
      hsplit ▸ Nat.mul_le_mul_right _ hle
    have h2 : x * 2 ^ (15 - Nat.log2 x) < 2 ^ 16 := by
      calc x * 2 ^ (15 - Nat.log2 x)
          < 2 ^ (Nat.log2 x + 1) * 2 ^ (15 - Nat.log2 x) :=
            Nat.mul_lt_mul_of_pos_right hlt (Nat.two_pow_pos _)
        _ = 2 ^ 16 := by rw [← pow_add]; congr 1; omega
    generalize x * 2 ^ (15 - Nat.log2 x) = y at *
    omega
  · rw [if_neg (by omega)]
    omega

/-- **The logarithm stays at or below `2^48`** on the 16-bit values a hash is cut to. -/
theorem crushLn_le {u : ℕ} (hu : u ≤ 0xffff) : crushLn u ≤ 2 ^ 48 := by
  rcases Nat.lt_or_ge u 0xffff with hlt | hge
  · have hx : (u + 1) % 2 ^ 32 = u + 1 := by omega
    obtain ⟨hlo, hhi, hexp⟩ := crushLnNormalize_spec (Nat.succ_pos u) (x := u + 1) (by omega)
    have hm := crushLnMantissa_le hlo hhi
    unfold crushLn
    rw [hx]
    generalize crushLnNormalize (u + 1) = n at *
    obtain ⟨x, iexpon⟩ := n
    simp only [Nat.shiftLeft_eq] at *
    omega
  · obtain rfl : u = 0xffff := by omega
    -- Only at the top does `x` overflow 16 bits; one value is computed.
    decide +kernel

/-! ### Straws -/

theorem toS64_of_range {x : ℤ} (h1 : -2 ^ 63 ≤ x) (h2 : x < 2 ^ 63) : toS64 x = x := by
  unfold toS64
  exact Int.bmod_eq_of_le (by omega) (by omega)

/-- The straw lies between -2^48 and 0. -/
theorem strawLn_range (type : ℕ) (x y z : ℤ) :
    -2 ^ 48 ≤ strawLn H type x y z ∧ strawLn H type x y z ≤ 0 := by
  unfold strawLn
  generalize H.crushHash32_3 type (UInt32.ofInt x) (UInt32.ofInt y) (UInt32.ofInt z) = hash
  have hu : hash.toNat &&& 0xffff ≤ 0xffff := Nat.and_le_right
  have hln := crushLn_le hu
  rw [toS64_of_range (by omega) (by omega)]
  omega

/-- Truncated division of a non-positive number by a larger positive one gives no less. -/
private theorem tdiv_mono {a v w : ℤ} (ha : a ≤ 0) (hv : 0 < v) (hvw : v ≤ w) :
    Int.tdiv a v ≤ Int.tdiv a w := by
  obtain ⟨n, rfl⟩ : ∃ n : ℕ, a = -n := ⟨a.natAbs, by omega⟩
  obtain ⟨k, rfl⟩ : ∃ k : ℕ, v = k := ⟨v.natAbs, by omega⟩
  obtain ⟨l, rfl⟩ : ∃ l : ℕ, w = l := ⟨w.natAbs, by omega⟩
  rw [Int.neg_tdiv, Int.neg_tdiv, Int.natCast_tdiv_eq_ediv, Int.natCast_tdiv_eq_ediv]
  have h : n / l ≤ n / k := Nat.div_le_div_left (by omega) (by omega)
  omega

/-- As long as the weights are positive `int`s, the heavier item does not draw the
    shorter straw. -/
theorem draw_mono (type : ℕ) (x y z : ℤ) {v w : ℤ} (hv : 0 < v) (hvw : v ≤ w) :
    generateExponentialDistribution H type x y z v
      ≤ generateExponentialDistribution H type x y z w :=
  tdiv_mono (strawLn_range H type x y z).2 hv hvw

/-- A straw is longer than the `S64_MIN` of an item of weight 0, whatever the weight and
    its sign. -/
theorem s64Min_lt_draw (type : ℕ) (x y z weight : ℤ) :
    s64Min < generateExponentialDistribution H type x y z weight := by
  obtain ⟨h1, h2⟩ := strawLn_range H type x y z
  unfold generateExponentialDistribution s64Min
  have habs := Int.natAbs_tdiv (strawLn H type x y z) weight
  have hle : (strawLn H type x y z).natAbs.div weight.natAbs ≤ (strawLn H type x y z).natAbs :=
    Nat.div_le_self _ _
  omega

end MyCeph.Crush
