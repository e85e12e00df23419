import MyCeph.Crush.Straw2

namespace MyCeph.Crush

/-!
# Straws over the whole range of weights

Bucket weights are `__u32` and admitted up to `CRUSH_MAX_BUCKET_WEIGHT`, but
`generate_exponential_distribution` takes its weight as an `int`.  Below `2^31` the straw of an item
is the non-positive logarithm divided by the weight (`itemDraw_light`); from `2^31` on the weight is
negative there, and the straw is not (`itemDraw_heavy`).  A heavier item never draws a
shorter straw all the same (`itemDraw_mono`), but the straws leave the range `[-2^48, 0]`
(`drawsOrdered_iff`).
-/

variable (H : CrushHash)

/-- `CRUSH_MAX_BUCKET_WEIGHT`. -/
def crushMaxBucketWeight : UInt32 := 65535 * 0x10000

/-- The draw of an item with id `id` and weight `w`. -/
def itemDraw (hash : ℕ) (x id r : ℤ) (w : UInt32) : ℤ := straw2Draw H hash [id] [w] x r 0

/-- The draws of `bucket_straw2_choose` are those of its items. -/
theorem straw2Draw_eq_itemDraw (hash : ℕ) (ids : List ℤ) (weights : List UInt32) (x r : ℤ) (i : ℕ) :
    straw2Draw H hash ids weights x r i
      = itemDraw H hash x (ids.getD i 0) r (weights.getD i 0) := rfl

/-- The logarithm of the hash bits, without its sign. -/
def strawLength (hash : ℕ) (x id r : ℤ) : ℕ := (strawLn H hash x id r).natAbs

variable {hash : ℕ} {x id r : ℤ} {w w' : UInt32}

/-- The straw is never positive, so that its length says it all. -/
theorem strawLn_eq : strawLn H hash x id r = -(strawLength H hash x id r : ℤ) := by
  have hle := (strawLn_range H hash x id r).2
  unfold strawLength
  omega

/-- The longest straw is that of hash bits 0. -/
theorem strawLength_le : strawLength H hash x id r ≤ 2 ^ 48 := by
  have hlo := (strawLn_range H hash x id r).1
  have hhi := (strawLn_range H hash x id r).2
  unfold strawLength
  omega

theorem toS32_of_ge (h : 2 ^ 31 ≤ w.toNat) : toS32 w.toNat = w.toNat - 2 ^ 32 := by
  have hlt := w.toNat_lt
  unfold toS32
  rw [Int.bmod_def]
  omega

/-- Below `2^31` the straw is not positive. -/
theorem itemDraw_light (hpos : 0 < w.toNat) (hlt : w.toNat < 2 ^ 31) :
    itemDraw H hash x id r w = -((strawLength H hash x id r / w.toNat : ℕ) : ℤ) := by
  have hne : w ≠ 0 := by
    rintro rfl
    exact absurd hpos (Nat.lt_irrefl 0)
  unfold itemDraw straw2Draw generateExponentialDistribution
  simp only [List.getD_cons_zero, ne_eq, hne, not_false_eq_true, if_true, toS32_of_lt hlt]
  rw [strawLn_eq, Int.neg_tdiv, Int.natCast_tdiv_eq_ediv]
  rfl

/-- From `2^31` on it is not negative. -/
theorem itemDraw_heavy (hge : 2 ^ 31 ≤ w.toNat) :
    itemDraw H hash x id r w = ((strawLength H hash x id r / (2 ^ 32 - w.toNat) : ℕ) : ℤ) := by
  have hne : w ≠ 0 := by
    rintro rfl
    exact absurd hge (by decide)
  have hlt := w.toNat_lt
  have hneg : (w.toNat : ℤ) - 2 ^ 32 = -((2 ^ 32 - w.toNat : ℕ) : ℤ) := by omega
  unfold itemDraw straw2Draw generateExponentialDistribution
  simp only [List.getD_cons_zero, ne_eq, hne, not_false_eq_true, if_true, toS32_of_ge hge]
  rw [strawLn_eq, hneg, Int.neg_tdiv, Int.tdiv_neg, neg_neg, Int.natCast_tdiv_eq_ediv]
  rfl

/-- **A heavier item never draws a shorter straw**, whatever its weight. -/
theorem itemDraw_mono (hle : w.toNat ≤ w'.toNat) :
    itemDraw H hash x id r w ≤ itemDraw H hash x id r w' := by
  have hlt := w'.toNat_lt
  rcases Nat.eq_zero_or_pos w.toNat with hzero | hpos
  · -- The straw of weight 0 is the `S64_MIN`.
    obtain rfl : w = 0 := UInt32.toNat_inj.mp hzero
    unfold itemDraw straw2Draw
    simp only [List.getD_cons_zero, ne_eq, not_true_eq_false, if_false]
    split
    · exact le_of_lt (s64Min_lt_draw H hash x _ r _)
    · exact le_refl _
  rcases Nat.lt_or_ge w'.toNat (2 ^ 31) with hlight' | hheavy'
  · exact straw2Draw_mono H hash [id] x r hle hpos hlight'
  rcases Nat.lt_or_ge w.toNat (2 ^ 31) with hlight | hheavy
  · -- The heavier weight is negative as an `int`, and so is the logarithm.
    rw [itemDraw_light H hpos hlight, itemDraw_heavy H hheavy']
    exact le_trans (neg_nonpos.mpr (Int.natCast_nonneg _)) (Int.natCast_nonneg _)
  · rw [itemDraw_heavy H hheavy, itemDraw_heavy H hheavy']
    have hdiv : strawLength H hash x id r / (2 ^ 32 - w.toNat)
        ≤ strawLength H hash x id r / (2 ^ 32 - w'.toNat) :=
      Nat.div_le_div_left (by omega) (by omega)
    exact Int.ofNat_le.mpr hdiv

/-- No straw is shorter than `-2^48`. -/
theorem le_itemDraw (hpos : 0 < w.toNat) : -2 ^ 48 ≤ itemDraw H hash x id r w := by
  rcases Nat.lt_or_ge w.toNat (2 ^ 31) with hlight | hheavy
  · rw [itemDraw_light H hpos hlight]
    have hdiv : strawLength H hash x id r / w.toNat ≤ 2 ^ 48 :=
      le_trans (Nat.div_le_self _ _) (strawLength_le H)
    exact neg_le_neg (Int.ofNat_le.mpr hdiv)
  · rw [itemDraw_heavy H hheavy]
    exact le_trans (by decide) (Int.natCast_nonneg _)

/-- A straw is positive if the weight is negative as an `int` and not larger, without its sign,
    than the logarithm. -/
theorem itemDraw_nonpos_iff (hpos : 0 < w.toNat) :
    itemDraw H hash x id r w ≤ 0 ↔
      w.toNat < 2 ^ 31 ∨ strawLength H hash x id r < 2 ^ 32 - w.toNat := by
  have hlt := w.toNat_lt
  rcases Nat.lt_or_ge w.toNat (2 ^ 31) with hlight | hheavy
  · rw [itemDraw_light H hpos hlight]
    exact iff_of_true (neg_nonpos.mpr (Int.natCast_nonneg _)) (Or.inl hlight)
  · rw [itemDraw_heavy H hheavy, Int.natCast_nonpos_iff, Nat.div_eq_zero_iff]
    constructor
    · rintro (h0 | hlength)
      · omega
      · exact Or.inr hlength
    · rintro (hlight | hlength)
      · omega
      · exact Or.inr hlength

/-- What is asked of the draws of one item under two weights. -/
def DrawsOrdered (hash : ℕ) (x id r : ℤ) (w w' : UInt32) : Prop :=
  -2 ^ 48 ≤ itemDraw H hash x id r w ∧ itemDraw H hash x id r w ≤ itemDraw H hash x id r w' ∧
    itemDraw H hash x id r w' ≤ 0

/-- The 16 hash bits a straw is drawn from. -/
def strawBits (hash : ℕ) (x id r : ℤ) : ℕ :=
  (H.crushHash32_3 hash (UInt32.ofInt x) (UInt32.ofInt id) (UInt32.ofInt r)).toNat &&& 0xffff

/-- The length is how far `crush_ln` is below 2^48. -/
theorem strawLength_eq :
    strawLength H hash x id r = 2 ^ 48 - crushLn (strawBits H hash x id r) := by
  have hle : crushLn (strawBits H hash x id r) ≤ 2 ^ 48 := crushLn_le Nat.and_le_right
  unfold strawLength
  show (toS64 (crushLn (strawBits H hash x id r) - 0x1000000000000)).natAbs = _
  rw [toS64_of_range (by omega) (by omega)]
  omega

/-- **When straws are in range and in order.**  For one item the draws are as asked if the larger
    weight is below `2^31`, or if the hash bits are so large that its draw is 0; over all
    items and objects they are if and only if the larger weight is below `2^31`. -/
theorem drawsOrdered_iff (w w' : UInt32) (hpos : 1 ≤ w.toNat) (hle : w.toNat ≤ w'.toNat) :
    (∀ (H : CrushHash) (hash : ℕ) (x id r : ℤ), DrawsOrdered H hash x id r w w' ↔
      w'.toNat < 2 ^ 31 ∨ 2 ^ 48 - crushLn (strawBits H hash x id r) < 2 ^ 32 - w'.toNat) ∧
    ((∀ x id r, DrawsOrdered rjenkins crushHashRjenkins1 x id r w w') ↔ w'.toNat < 2 ^ 31) := by
  have hone : ∀ (H : CrushHash) (hash : ℕ) (x id r : ℤ), DrawsOrdered H hash x id r w w' ↔
      w'.toNat < 2 ^ 31 ∨ 2 ^ 48 - crushLn (strawBits H hash x id r) < 2 ^ 32 - w'.toNat := by
    intro H hash x id r
    rw [← strawLength_eq, ← itemDraw_nonpos_iff H (by omega)]
    exact ⟨fun h => h.2.2, fun h => ⟨le_itemDraw H hpos, itemDraw_mono H hle, h⟩⟩
  refine ⟨hone, fun hall => ?_, fun hlight x id r => (hone rjenkins _ x id r).mpr (Or.inl hlight)⟩
  rcases (hone rjenkins _ 0 0 0).mp (hall 0 0 0) with hlight | hlength
  · exact hlight
  · -- The item 0 draws a straw longer than `2^31` for object 0.
    have hlong : 2 ^ 31 ≤ 2 ^ 48 - crushLn (strawBits rjenkins crushHashRjenkins1 0 0 0) := by
      decide +kernel
    omega

/-- The draws of an item of weight 1.0 and of one of weight 2.0. -/
theorem drawsOrdered_iff_light : DrawsOrdered rjenkins crushHashRjenkins1 222 3 0 0x10000 0x20000 :=
  ((drawsOrdered_iff 0x10000 0x20000 (by decide) (by decide)).1 rjenkins _ 222 3 0).mpr
    (Or.inl (by decide))

/-- **A positive straw.**  Of two admitted weights the heavier one draws a straw above 0. -/
theorem heavy_draws_positive :
    (0x80000000 : UInt32) ≤ crushMaxBucketWeight ∧
      0 < itemDraw rjenkins crushHashRjenkins1 0 0 0 0x80000000 ∧
      ¬ DrawsOrdered rjenkins crushHashRjenkins1 0 0 0 0x10000 0x80000000 := by
  have hpositive : 0 < itemDraw rjenkins crushHashRjenkins1 0 0 0 0x80000000 := by decide +kernel
  exact ⟨by decide, hpositive, fun h => absurd h.2.2 (not_le.mpr hpositive)⟩

end MyCeph.Crush
