import MyCeph.Crush.DrawOrder
import MyCeph.Lib.Log2

namespace MyCeph.Crush

open Lib

/-!
# What the logarithm computes

`crush_ln` is to be `2^44 * log2(u + 1)`, from two tables.  The index into the second one comes
out exactly (`crushLnMantissa_eq`), so that the two tables decide about all 16-bit values.

* `crushLn_lt_iff` — a larger hash has the larger logarithm or the same, but for the two largest
  ones, which have changed places;
* `straw2High_rank` — an item with at least the weight and the hash of the chosen one has drawn the
  same straw;
* `straw_accurate` — straws are those of the exact logarithm, up to one part in `2^14` of the
  binary logarithm and the rounding of the division.
-/

/-! ### The two tables -/

/-- `LH`, for `k + 128` in the upper bits of the normalized `x`. -/
def lnHigh (k : ℕ) : ℕ := rhLhTbl.getD (2 * k + 1) 0

/-- `LL`. -/
def lnLow (i : ℕ) : ℕ := llTbl.getD i 0

/-- The first table, `RH` by `RH` and `LH` by `LH`. -/
private theorem rhLh_rows : rhLhTbl.length = 258 ∧ ∀ p ∈ rhLhTbl.zipIdx,
    (p.2 % 2 = 0 →
      2 ^ 55 ≤ (p.2 / 2 + 128) * p.1 ∧ (p.2 / 2 + 128) * p.1 < 2 ^ 55 + (p.2 / 2 + 128)) ∧
    (p.2 % 2 = 1 → p.2 < 256 →
      p.1 ≤ 2 ^ 48 ∧ 2 ^ (7 * 2 ^ 17 + p.1 / 2 ^ 31) ≤ (p.2 / 2 + 128) ^ 2 ^ 17 ∧
        (p.2 / 2 + 128) ^ 2 ^ 17 ≤ 2 ^ (7 * 2 ^ 17 + p.1 / 2 ^ 31 + 1)) := by
  decide +kernel

/-- The second table. -/
private theorem ll_rows : llTbl.length = 256 ∧ llTbl.IsChain (· ≤ ·) ∧ ∀ p ∈ llTbl.zipIdx,
    p.1 ≤ 2 ^ 42 ∧
    2 ^ (15 * 2 ^ 15 + (p.1 + 2 ^ 33 - 14 * 2 ^ 30) / 2 ^ 33) ≤ (2 ^ 15 + p.2) ^ 2 ^ 15 ∧
    (2 ^ 15 + p.2 + 1) ^ 2 ^ 17 ≤ 2 ^ (15 * 2 ^ 17 + (p.1 + 14 * 2 ^ 30 - 16) / 2 ^ 31) := by
  decide +kernel

/-- Two rows, one after the other; all that the first of them ends with is in the upper half of the
    second table. -/
private theorem rhLh_succ : ∀ p ∈ (rhLhTbl.zip (rhLhTbl.drop 2)).zipIdx, p.2 % 2 = 1 → p.2 < 254 →
    p.1.1 + (llTbl.drop 128).getD (255 * 128 / (p.2 / 2 + 128) - 128) 0
      ≤ p.1.2 + llTbl.getD 0 0 := by
  decide +kernel

/-- A check of every entry with its index passes through the table once. -/
private theorem getD_of_zipIdx {l : List ℕ} {P : ℕ × ℕ → Prop} (h : ∀ p ∈ l.zipIdx, P p) {i : ℕ}
    (hi : i < l.length) : P (l.getD i 0, i) := by
  apply h
  rw [List.getD_eq_getElem _ _ hi, List.mk_mem_zipIdx_iff_getElem?]
  exact List.getElem?_eq_getElem hi

/-- `RH` is `2^55 / (k + 128)`, rounded up. -/
theorem rh_near {k : ℕ} (hk : k < 128) : 2 ^ 55 ≤ (k + 128) * rhLhTbl.getD (2 * k) 0 ∧
    (k + 128) * rhLhTbl.getD (2 * k) 0 < 2 ^ 55 + (k + 128) := by
  have hrow := (getD_of_zipIdx rhLh_rows.2 (i := 2 * k) (by rw [rhLh_rows.1]; omega)).1
    (Nat.mul_mod_right 2 k)
  rwa [Nat.mul_div_cancel_left k (by decide)] at hrow

/-- What is checked of `LH`. -/
theorem lnHigh_row {k : ℕ} (hk : k < 128) : lnHigh k ≤ 2 ^ 48 ∧
    2 ^ (7 * 2 ^ 17 + lnHigh k / 2 ^ 31) ≤ (k + 128) ^ 2 ^ 17 ∧
      (k + 128) ^ 2 ^ 17 ≤ 2 ^ (7 * 2 ^ 17 + lnHigh k / 2 ^ 31 + 1) := by
  have hrow := (getD_of_zipIdx rhLh_rows.2 (i := 2 * k + 1) (by rw [rhLh_rows.1]; omega)).2
    (by dsimp only; omega) (by dsimp only; omega)
  dsimp only at hrow
  rwa [show (2 * k + 1) / 2 = k by omega] at hrow

/-- What is checked of `LL`. -/
theorem lnLow_row {i : ℕ} (hi : i < 256) : lnLow i ≤ 2 ^ 42 ∧
    2 ^ (15 * 2 ^ 15 + (lnLow i + 2 ^ 33 - 14 * 2 ^ 30) / 2 ^ 33) ≤ (2 ^ 15 + i) ^ 2 ^ 15 ∧
    (2 ^ 15 + i + 1) ^ 2 ^ 17 ≤ 2 ^ (15 * 2 ^ 17 + (lnLow i + 14 * 2 ^ 30 - 16) / 2 ^ 31) :=
  getD_of_zipIdx ll_rows.2.2 (by rwa [ll_rows.1])

theorem lnLow_mono {i j : ℕ} (hij : i ≤ j) (hj : j ≤ 255) : lnLow i ≤ lnLow j := by
  have hlen := ll_rows.1
  unfold lnLow
  rw [List.getD_eq_getElem _ _ (by omega), List.getD_eq_getElem _ _ (by omega)]
  exact ll_rows.2.1.sortedLE.getElem_le_getElem_of_le hij

/-- From the last value of a row to the first one of the next. -/
theorem row_succ {k : ℕ} (hk : k < 127) :
    lnHigh k + lnLow (255 * 128 / (k + 128)) ≤ lnHigh (k + 1) + lnLow 0 := by
  have hfst : 2 * k + 1 < rhLhTbl.length := by rw [rhLh_rows.1]; omega
  have hsnd : 2 + (2 * k + 1) < rhLhTbl.length := by rw [rhLh_rows.1]; omega
  -- Rows `k` and `k + 1` of `LH` are two entries apart in the table.
  have hmem : ((lnHigh k, lnHigh (k + 1)), 2 * k + 1)
      ∈ (rhLhTbl.zip (rhLhTbl.drop 2)).zipIdx := by
    rw [List.mk_mem_zipIdx_iff_getElem?, List.getElem?_zip_eq_some, List.getElem?_drop]
    unfold lnHigh
    rw [show 2 * (k + 1) + 1 = 2 + (2 * k + 1) by ring, List.getD_eq_getElem _ _ hfst,
      List.getD_eq_getElem _ _ hsnd]
    exact ⟨List.getElem?_eq_getElem hfst, List.getElem?_eq_getElem hsnd⟩
  -- The comparison of neighbours is checked over the whole table.
  have hrow := rhLh_succ _ hmem (by dsimp only; omega) (by dsimp only; omega)
  have hupper : 128 ≤ 255 * 128 / (k + 128) := (Nat.le_div_iff_mul_le (by omega)).mpr (by omega)
  dsimp only at hrow
  rw [show (2 * k + 1) / 2 = k by omega] at hrow
  unfold lnLow
  rwa [List.getD_eq_getElem?_getD, List.getElem?_drop, Nat.add_sub_cancel' hupper,
    ← List.getD_eq_getElem?_getD] at hrow

/-- The index into the second table is a byte. -/
theorem index2_le {k j : ℕ} (hj : j < 256) : j * 128 / (k + 128) ≤ 255 := by
  apply Nat.le_of_lt_succ
  rw [Nat.div_lt_iff_lt_mul (by omega)]
  omega

/-- The fraction in `RH * x` is the exact one, rounded down: the error of `RH` is too small to
    reach the next index. -/
theorem index2_exact {k j rh : ℕ} (hk : k < 128) (hj : j < 256) (hlo : 2 ^ 55 ≤ (k + 128) * rh)
    (hhi : (k + 128) * rh < 2 ^ 55 + (k + 128)) :
    ((k + 128) * 256 + j) * rh / 2 ^ 48 = 2 ^ 15 + j * 128 / (k + 128) := by
  obtain ⟨e, he⟩ := Nat.exists_eq_add_of_le hlo
  have hmod := Nat.div_add_mod (j * 128) (k + 128)
  have hlt := Nat.mod_lt (j * 128) (show k + 128 > 0 by omega)
  generalize j * 128 / (k + 128) = q at *
  generalize j * 128 % (k + 128) = r at *
  -- Everything times `k + 128`.
  have hmul : (k + 128) * (((k + 128) * 256 + j) * rh)
      = 2 ^ 48 * ((k + 128) * (2 ^ 15 + q) + r) + ((k + 128) * 256 + j) * e := by
    calc (k + 128) * (((k + 128) * 256 + j) * rh)
        = ((k + 128) * 256 + j) * ((k + 128) * rh) := by ring
      _ = ((k + 128) * 256 + j) * (2 ^ 55 + e) := by rw [he]
      _ = 2 ^ 48 * ((k + 128) * 2 ^ 15 + j * 128) + ((k + 128) * 256 + j) * e := by ring
      _ = 2 ^ 48 * ((k + 128) * (2 ^ 15 + q) + r) + ((k + 128) * 256 + j) * e := by
          rw [← hmod]; ring
  have herr : ((k + 128) * 256 + j) * e < 2 ^ 48 := by
    calc ((k + 128) * 256 + j) * e ≤ (2 ^ 16) * 2 ^ 8 := Nat.mul_le_mul (by omega) (by omega)
      _ < 2 ^ 48 := by decide
  rw [Nat.div_eq_iff (by decide)]
  constructor
  · apply Nat.le_of_mul_le_mul_left _ (show 0 < k + 128 by omega)
    rw [hmul]
    nlinarith
  · have hlast : (k + 128) * (((k + 128) * 256 + j) * rh)
        < (k + 128) * ((2 ^ 15 + q + 1) * 2 ^ 48) := by
      rw [hmul]
      nlinarith
    have := Nat.lt_of_mul_lt_mul_left hlast
    omega

/-- **The mantissa**, from the two tables. -/
theorem crushLnMantissa_eq {k j : ℕ} (hk : k < 128) (hj : j < 256) :
    crushLnMantissa ((k + 128) * 256 + j) = (lnHigh k + lnLow (j * 128 / (k + 128))) / 16 := by
  obtain ⟨hlo, hhi⟩ := rh_near hk
  have hidx := index2_exact hk hj hlo hhi
  have hq := index2_le (k := k) hj
  -- The two parts of `x`: the row of the first table, and the index into the second.
  have hrow : (((k + 128) * 256 + j) >>> 8) <<< 1 = 2 * k + 256 := by
    rw [Nat.shiftLeft_eq, Nat.shiftRight_eq_div_pow]
    omega
  have hhigh := (lnHigh_row hk).1
  have hlow := (lnLow_row (Nat.lt_succ_of_le hq)).1
  unfold crushLnMantissa
  simp only [hrow, Nat.add_sub_cancel, show 2 * k + 256 + 1 - 256 = 2 * k + 1 by omega]
  generalize ((k + 128) * 256 + j) * rhLhTbl.getD (2 * k) 0 = p at hidx
  -- The product with `RH` stays below `2 ^ 64`, and its top byte is the second index.
  have hsmall : (p % 2 ^ 64) >>> 48 &&& 0xff = j * 128 / (k + 128) := by
    rw [Nat.shiftRight_eq_div_pow, show (0xff : ℕ) = 2 ^ 8 - 1 by norm_num,
      Nat.and_two_pow_sub_one_eq_mod]
    generalize j * 128 / (k + 128) = q at hidx hq
    rw [Nat.mod_eq_of_lt (show p < 2 ^ 64 by omega), hidx]
    omega
  rw [hsmall, Nat.shiftRight_eq_div_pow]
  change (lnHigh k + lnLow _) % 2 ^ 64 / 2 ^ (48 - 12 - 32) = _
  rw [Nat.mod_eq_of_lt (by omega)]

/-! ### Order -/

/-- One step up, within a row of the first table or into the next. -/
theorem crushLnMantissa_succ {x : ℕ} (hlo : 2 ^ 15 ≤ x) (hhi : x + 1 < 2 ^ 16) :
    crushLnMantissa x ≤ crushLnMantissa (x + 1) := by
  obtain ⟨k, j, hk, hj, rfl⟩ : ∃ k j, k < 128 ∧ j < 256 ∧ x = (k + 128) * 256 + j :=
    ⟨x / 256 - 128, x % 256, by omega, by omega, by omega⟩
  rw [crushLnMantissa_eq hk hj]
  by_cases hlast : j = 255
  · subst hlast
    rw [show (k + 128) * 256 + 255 + 1 = (k + 1 + 128) * 256 + 0 by ring,
      crushLnMantissa_eq (by omega) (by omega), Nat.zero_mul, Nat.zero_div]
    exact Nat.div_le_div_right (row_succ (by omega))
  · rw [Nat.add_assoc, crushLnMantissa_eq hk (by omega)]
    apply Nat.div_le_div_right
    apply Nat.add_le_add_left
    exact lnLow_mono (Nat.div_le_div_right (by omega)) (index2_le (by omega))

/-- Larger mantissas have larger logarithms. -/
theorem crushLnMantissa_mono {x y : ℕ} (hx : 2 ^ 15 ≤ x) (hxy : x ≤ y) (hy : y < 2 ^ 16) :
    crushLnMantissa x ≤ crushLnMantissa y := by
  induction y, hxy using Nat.le_induction with
  | base => exact le_refl _
  | succ y hxy ih => exact le_trans (ih (by omega)) (crushLnMantissa_succ (by omega) hy)

/-- The shift moves the leading bit to bit 15. -/
theorem crushLnNormalize_eq {x : ℕ} (h0 : 0 < x) (hx : x < 2 ^ 16) :
    crushLnNormalize x = (x * 2 ^ (15 - Nat.log2 x), Nat.log2 x) := by
  have hspec := crushLnNormalize_spec h0 hx
  have hlog : Nat.log2 x < 16 := (Nat.log2_lt (by omega)).mpr hx
  unfold crushLnNormalize at hspec ⊢
  split
  · have hmask : x &&& 0x1FFFF = x := by
      rw [show (0x1FFFF : ℕ) = 2 ^ 17 - 1 by norm_num, Nat.and_two_pow_sub_one_eq_mod]
      omega
    -- Below `2 ^ 15` the leading one is brought up by a shift.
    have hbits : builtinClz x - 16 = 15 - Nat.log2 x := by
      unfold builtinClz
      omega
    have hlt : x * 2 ^ (15 - Nat.log2 x) < 2 ^ 16 := by
      calc x * 2 ^ (15 - Nat.log2 x)
          < 2 ^ (Nat.log2 x + 1) * 2 ^ (15 - Nat.log2 x) :=
            Nat.mul_lt_mul_of_pos_right Nat.lt_log2_self (Nat.two_pow_pos _)
        _ = 2 ^ 16 := by rw [← pow_add]; congr 1; omega
    have hword : x * 2 ^ (15 - Nat.log2 x) % 2 ^ 32 = x * 2 ^ (15 - Nat.log2 x) :=
      Nat.mod_eq_of_lt (lt_trans hlt (by decide))
    have hexp : 15 - (15 - Nat.log2 x) = Nat.log2 x := by omega
    simp only [hmask, hbits, Nat.shiftLeft_eq, hword, hexp]
  · rename_i hmask
    rw [if_neg hmask] at hspec
    -- From `2 ^ 15` on the number is normalized already.
    have hge : 15 ≤ Nat.log2 x := (Nat.le_log2 (by omega)).mpr hspec.1
    have heq : Nat.log2 x = 15 := by omega
    rw [heq, Nat.sub_self, pow_zero, Nat.mul_one]

/-- `crush_ln`: the exponent, and the mantissa behind it. -/
theorem crushLn_eq {x : ℕ} (h0 : 0 < x) (hx : x < 2 ^ 16) :
    crushLn (x - 1) = Nat.log2 x * 2 ^ 44 + crushLnMantissa (x * 2 ^ (15 - Nat.log2 x)) := by
  have hnorm := crushLnNormalize_eq h0 hx
  obtain ⟨hlo, hhi, hexp⟩ := crushLnNormalize_spec h0 hx
  rw [hnorm] at hlo hhi hexp
  have hmant := crushLnMantissa_le hlo hhi
  unfold crushLn
  rw [Nat.sub_add_cancel h0, Nat.mod_eq_of_lt (lt_trans hx (by decide)), hnorm]
  dsimp only at *
  rw [Nat.shiftLeft_eq, Nat.mod_eq_of_lt (by omega)]

/-- `crush_ln` goes up on all arguments but the last. -/
theorem crushLn_mono {u v : ℕ} (huv : u ≤ v) (hv : v < 0xffff) : crushLn u ≤ crushLn v := by
  have hu := crushLn_eq (x := u + 1) (by omega) (by omega)
  have hv' := crushLn_eq (x := v + 1) (by omega) (by omega)
  rw [Nat.add_sub_cancel] at hu hv'
  obtain ⟨hulo, huhi, -⟩ := crushLnNormalize_spec (x := u + 1) (by omega) (by omega)
  obtain ⟨hvlo, hvhi, -⟩ := crushLnNormalize_spec (x := v + 1) (by omega) (by omega)
  rw [crushLnNormalize_eq (by omega) (by omega)] at hulo huhi hvlo hvhi
  have hlog : Nat.log2 (u + 1) ≤ Nat.log2 (v + 1) :=
    (Nat.le_log2 (by omega)).mpr (le_trans (Nat.log2_self_le (by omega)) (by omega))
  rw [hu, hv']
  rcases Nat.lt_or_eq_of_le hlog with hlt | heq
  · -- The next exponent is more than any mantissa.
    have hmant := crushLnMantissa_le hulo huhi
    dsimp only at hmant
    omega
  · rw [heq] at hulo huhi ⊢
    apply Nat.add_le_add_left
    exact crushLnMantissa_mono hulo (Nat.mul_le_mul_right _ (by omega)) hvhi

/-- The last value falls below the one before it, as the last entry of the table is short. -/
theorem crushLn_top : crushLn 0xfffd < crushLn 0xffff ∧ crushLn 0xffff < crushLn 0xfffe ∧
    crushLn 0xffff = 2 ^ 48 - 2 ^ 28 := by
  decide +kernel

/-- **The order of the logarithms** is that of the hashes, but for the two largest ones. -/
theorem crushLn_lt_iff {u v : ℕ} (huv : u ≤ v) (hv : v ≤ 0xffff) :
    crushLn v < crushLn u ↔ u = 0xfffe ∧ v = 0xffff := by
  constructor
  · intro hlt
    by_contra hnot
    -- Below the last entry the table is monotone, so `v` is the last one.
    rcases Nat.lt_or_ge v 0xffff with hlow | hhigh
    · exact absurd (crushLn_mono huv hlow) (not_le.mpr hlt)
    · obtain rfl : v = 0xffff := by omega
      by_cases hu : u = 0xffff
      · rw [hu] at hlt
        exact lt_irrefl _ hlt
      · have hle := crushLn_mono (u := u) (v := 0xfffd) (by omega) (by decide)
        exact absurd (lt_trans (lt_of_le_of_lt hle crushLn_top.1) hlt) (lt_irrefl _)
  · rintro ⟨rfl, rfl⟩
    exact crushLn_top.2.1

/-- The place of a hash in the order of the logarithms. -/
def hashRank (u : ℕ) : ℕ := if u = 0xffff then 0xfffe else if u = 0xfffe then 0xffff else u

/-- Of two hashes the larger one has the larger rank, unless they are the two largest. -/
theorem eq_of_hashRank_le {u v : ℕ} (hu : u ≤ 0xffff) (hvu : v ≤ u)
    (h : hashRank u ≤ hashRank v) : u = v ∨ u = 0xffff ∧ v = 0xfffe := by
  unfold hashRank at h
  split_ifs at h <;> omega

/-- `crush_ln` follows the rank, in which the last two arguments are exchanged. -/
theorem crushLn_le_of_rank {u v : ℕ} (hu : u ≤ 0xffff) (hv : v ≤ 0xffff)
    (h : hashRank u ≤ hashRank v) : crushLn u ≤ crushLn v := by
  rcases Nat.le_total u v with huv | hvu
  · by_contra hlt
    obtain ⟨rfl, rfl⟩ := (crushLn_lt_iff huv hv).mp (not_le.mp hlt)
    exact absurd h (by decide)
  · obtain rfl | ⟨rfl, rfl⟩ := eq_of_hashRank_le hu hvu h
    · exact le_refl _
    · exact le_of_lt crushLn_top.2.1

/-! ### Straws -/

variable (H : CrushHash) {hash : ℕ} {x id id' r : ℤ} {w w' : UInt32}

/-- At least the weight and the hash: no shorter straw. -/
theorem itemDraw_rank (hpos : 0 < w.toNat) (hle : w.toNat ≤ w'.toNat) (hlight : w'.toNat < 2 ^ 31)
    (hrank : hashRank (strawBits H hash x id r) ≤ hashRank (strawBits H hash x id' r)) :
    itemDraw H hash x id r w ≤ itemDraw H hash x id' r w' := by
  have hln := crushLn_le_of_rank Nat.and_le_right Nat.and_le_right hrank
  rw [itemDraw_light H hpos (lt_of_le_of_lt hle hlight),
    itemDraw_light H (lt_of_lt_of_le hpos hle) hlight]
  apply neg_le_neg
  apply Int.ofNat_le.mpr
  rw [strawLength_eq, strawLength_eq]
  exact Nat.div_le_div (Nat.sub_le_sub_left hln _) hle (by omega)

/-- **Straws are ordered as the hashes are.**  On 16-bit hashes the logarithm is monotone, but for
    `0xffff`, which comes before `0xfffe`.  Therefore an item with at least the weight of the
    chosen one and at least its rank has drawn the same straw, and stands behind it. -/
theorem straw2High_rank :
    (∀ u v, u ≤ v → v ≤ 0xffff → (crushLn v < crushLn u ↔ u = 0xfffe ∧ v = 0xffff)) ∧
      ∀ (b : CrushBucket) (x r : ℤ) (arg : Option CrushChooseArg) (position j : ℕ),
        let ids := getChooseArgIds b arg
        let weights := getChooseArgWeights b arg position
        let high := straw2High H b x r arg position
        j < b.size.toNat → 0 < (weights.getD high 0).toNat →
        (weights.getD high 0).toNat ≤ (weights.getD j 0).toNat →
        (weights.getD j 0).toNat < 2 ^ 31 →
        hashRank (strawBits H b.hash x (ids.getD high 0) r)
          ≤ hashRank (strawBits H b.hash x (ids.getD j 0) r) →
        high ≤ j ∧ straw2Draw H b.hash ids weights x r j
          = straw2Draw H b.hash ids weights x r high := by
  refine ⟨fun u v huv hv => crushLn_lt_iff huv hv, ?_⟩
  intro b x r arg position j ids weights high hj hpos hle hlight hrank
  have hsize : b.size ≠ 0 := by
    rintro hzero
    simp [hzero] at hj
  have hmax := straw2High_isFirstMax H b x r arg position hsize
  -- A heavier straw with a better hash rank does not draw worse.
  have hdraw : straw2Draw H b.hash ids weights x r high
      ≤ straw2Draw H b.hash ids weights x r j := by
    rw [straw2Draw_eq_itemDraw, straw2Draw_eq_itemDraw]
    exact itemDraw_rank H hpos hle hlight hrank
  refine ⟨?_, le_antisymm (hmax.le j hj) hdraw⟩
  by_contra hlt
  exact absurd (hmax.first j (not_le.mp hlt)) (not_lt.mpr hdraw)

/-- Two items of one weight, of which the second one has the larger hash, by 1, and the same
    logarithm. -/
theorem straw2High_rank_tie :
    straw2High rjenkins (smallHost (-2) 0) 807276 0 none 0 ≤ 1 ∧
      straw2Draw rjenkins 0 [0, 1] [0x10000, 0x10000] 807276 0 1
        = straw2Draw rjenkins 0 [0, 1] [0x10000, 0x10000] 807276 0
          (straw2High rjenkins (smallHost (-2) 0) 807276 0 none 0) :=
  (straw2High_rank rjenkins).2 (smallHost (-2) 0) 807276 0 none 0 1 (by decide)
    (by decide +kernel) (by decide +kernel) (by decide) (by decide +kernel)

/-! ### Accuracy -/

/-- The first table, up to `2^31`. -/
theorem lnHigh_near {k : ℕ} (hk : k < 128) :
    (lnHigh k : ℝ) ≤ 2 ^ 48 * (Real.logb 2 (k + 128 : ℕ) - 7) + 2 ^ 31 ∧
      2 ^ 48 * (Real.logb 2 (k + 128 : ℕ) - 7) - 2 ^ 31 ≤ (lnHigh k : ℝ) := by
  obtain ⟨-, hlo, hhi⟩ := lnHigh_row hk
  have hlo' := le_mul_logb hlo
  have hhi' := mul_logb_le (by omega) hhi
  obtain ⟨hdlo, hdhi⟩ := cast_div_bounds (lnHigh k) (d := 2 ^ 31) (by decide)
  generalize lnHigh k / 2 ^ 31 = n at *
  push_cast at *
  constructor
  · linarith
  · linarith

/-- The second table, against the logarithms at the ends of the step. -/
theorem lnLow_near {i : ℕ} (hi : i < 256) :
    (lnLow i : ℝ) ≤ 2 ^ 48 * (Real.logb 2 (2 ^ 15 + i : ℕ) - 15) + 14 * 2 ^ 30 ∧
      2 ^ 48 * (Real.logb 2 (2 ^ 15 + i + 1 : ℕ) - 15) - 14 * 2 ^ 30 + 16 ≤ (lnLow i : ℝ) := by
  obtain ⟨-, hlo, hhi⟩ := lnLow_row hi
  have hlo' := le_mul_logb hlo
  have hhi' := mul_logb_le (by omega) hhi
  -- What the two divisions lose.
  have hdlo : ((lnLow i + 2 ^ 33 : ℕ) : ℝ)
      < (2 ^ 33 * ((lnLow i + 2 ^ 33 - 14 * 2 ^ 30) / 2 ^ 33 + 1) + 14 * 2 ^ 30 : ℕ) := by
    exact_mod_cast (by omega)
  have hdhi : ((2 ^ 31 * ((lnLow i + 14 * 2 ^ 30 - 16) / 2 ^ 31) + 16 : ℕ) : ℝ)
      ≤ (lnLow i + 14 * 2 ^ 30 : ℕ) := by
    exact_mod_cast (by omega)
  generalize (lnLow i + 2 ^ 33 - 14 * 2 ^ 30) / 2 ^ 33 = n at *
  generalize (lnLow i + 14 * 2 ^ 30 - 16) / 2 ^ 31 = n' at *
  push_cast at *
  constructor
  · linarith
  · linarith

/-- The logarithm of a mantissa is exact up to 2^30 units. -/
theorem crushLnMantissa_near {x : ℕ} (hlo : 2 ^ 15 ≤ x) (hhi : x < 2 ^ 16) :
    |(crushLnMantissa x : ℝ) - 2 ^ 44 * (Real.logb 2 x - 15)| ≤ 2 ^ 30 := by
  obtain ⟨k, j, hk, hj, rfl⟩ : ∃ k j, k < 128 ∧ j < 256 ∧ x = (k + 128) * 256 + j :=
    ⟨x / 256 - 128, x % 256, by omega, by omega, by omega⟩
  rw [crushLnMantissa_eq hk hj]
  have hq := index2_le (k := k) hj
  have hstep := Nat.div_add_mod (j * 128) (k + 128)
  have hmod := Nat.mod_lt (j * 128) (show k + 128 > 0 by omega)
  generalize j * 128 / (k + 128) = q at *
  generalize j * 128 % (k + 128) = rest at *
  have hx : ((k + 128) * 256 + j) * 2 ^ 7 = (2 ^ 15 + q) * (k + 128) + rest := by
    calc ((k + 128) * 256 + j) * 2 ^ 7 = (k + 128) * 2 ^ 15 + j * 128 := by ring
      _ = (2 ^ 15 + q) * (k + 128) + rest := by rw [← hstep]; ring
  obtain ⟨hhigh, hhigh'⟩ := lnHigh_near hk
  obtain ⟨hlow, hlow'⟩ := lnLow_near (i := q) (by omega)
  -- `x` lies between the row and step below it and the step above.
  have hbelow := logb_add_le (a := 2 ^ 15 + q) (b := k + 128) (c := (k + 128) * 256 + j) (n := 7)
    (by omega) (by omega) (by omega) (by omega)
  have habove := le_logb_add (a := 2 ^ 15 + q + 1) (b := k + 128) (c := (k + 128) * 256 + j)
    (n := 7) (by omega) (by omega) (by omega) (by rw [hx, Nat.succ_mul]; omega)
  obtain ⟨hdlo, hdhi⟩ := cast_div_bounds (lnHigh k + lnLow q) (d := 16) (by decide)
  generalize (lnHigh k + lnLow q) / 16 = m at *
  generalize Real.logb 2 ((k + 128) * 256 + j : ℕ) = l at *
  push_cast at *
  rw [abs_le]
  constructor
  · linarith
  · linarith

/-- So is `crush_ln`. -/
theorem crushLn_near {u : ℕ} (hu : u ≤ 0xffff) :
    |(crushLn u : ℝ) - 2 ^ 44 * Real.logb 2 (u + 1)| ≤ 2 ^ 30 := by
  rcases Nat.lt_or_ge u 0xffff with hlt | hge
  · have heq := crushLn_eq (x := u + 1) (by omega) (by omega)
    obtain ⟨hlo, hhi, hexp⟩ := crushLnNormalize_spec (x := u + 1) (by omega) (by omega)
    rw [crushLnNormalize_eq (by omega) (by omega)] at hlo hhi hexp
    have hnear := crushLnMantissa_near hlo hhi
    rw [Nat.add_sub_cancel] at heq
    rw [heq]
    dsimp only at hexp hnear
    generalize Nat.log2 (u + 1) = e at *
    -- The shift adds to the logarithm what the exponent lacks.
    have hshift : Real.logb 2 ((u + 1) * 2 ^ (15 - e) : ℕ) = Real.logb 2 (u + 1) + (15 - e) := by
      push_cast
      rw [Real.logb_mul (by positivity) (by positivity), Real.logb_pow,
        Real.logb_self_eq_one (by norm_num), mul_one, Nat.cast_sub hexp]
      norm_num
    rw [hshift] at hnear
    push_cast
    rw [abs_le] at hnear ⊢
    constructor
    · linarith
    · linarith
  · obtain rfl : u = 0xffff := by omega
    have hlog : Real.logb 2 ((0xffff : ℕ) + 1) = 16 := by
      rw [show (((0xffff : ℕ) : ℝ) + 1) = 2 ^ 16 by norm_num, Real.logb_pow,
        Real.logb_self_eq_one (by norm_num)]
      norm_num
    rw [crushLn_top.2.2, hlog, abs_le]
    norm_num

/-- **Straws are those of the exact logarithm**, `2^44 * log2 ((hash + 1) / 2^16) / weight`, up to
    `2^30 / weight` and the rounding of the division. -/
theorem straw_accurate (type : ℕ) (x y z : ℤ) {w : ℤ} (hw : 0 < w) :
    |(generateExponentialDistribution H type x y z w : ℝ)
        - 2 ^ 44 * Real.logb 2 ((strawBits H type x y z + 1) / 2 ^ 16) / w|
      ≤ 2 ^ 30 / (w : ℝ) + 1 := by
  have hpos : (0 : ℝ) < w := by exact_mod_cast hw
  have hle : strawBits H type x y z ≤ 0xffff := Nat.and_le_right
  have hnear := crushLn_near hle
  -- Nothing wraps in the subtraction of `2 ^ 48`.
  have hln : (strawLn H type x y z : ℝ) = crushLn (strawBits H type x y z) - 2 ^ 48 := by
    have hmax := crushLn_le hle
    have hint : strawLn H type x y z = crushLn (strawBits H type x y z) - 2 ^ 48 := by
      show toS64 (crushLn (strawBits H type x y z) - 0x1000000000000) = _
      rw [toS64_of_range (by omega) (by omega)]
      norm_num
    rw [hint]
    push_cast
    norm_num
  -- The scale of the hash bits is 16 in the logarithm.
  have hlog : Real.logb 2 ((strawBits H type x y z + 1) / 2 ^ 16)
      = Real.logb 2 (strawBits H type x y z + 1) - 16 := by
    rw [Real.logb_div (by positivity) (by positivity), Real.logb_pow,
      Real.logb_self_eq_one (by norm_num), mul_one]
    norm_num
  have hdiv := tdiv_near (strawLn H type x y z) hw
  unfold generateExponentialDistribution
  generalize (Int.tdiv (strawLn H type x y z) w : ℝ) = d at *
  rw [hln] at hdiv
  rw [hlog]
  generalize (crushLn (strawBits H type x y z) : ℝ) = l at *
  generalize Real.logb 2 (strawBits H type x y z + 1) = e at *
  -- The table's error, over the weight.
  have hln' : |(l - 2 ^ 48) / w - 2 ^ 44 * (e - 16) / w| ≤ 2 ^ 30 / (w : ℝ) := by
    rw [← sub_div, abs_div, abs_of_pos hpos,
      show l - 2 ^ 48 - 2 ^ 44 * (e - 16) = l - 2 ^ 44 * e by ring]
    exact div_le_div_of_nonneg_right hnear (le_of_lt hpos)
  -- The error of the table, and that of the truncated division.
  calc |d - 2 ^ 44 * (e - 16) / w|
      = |((l - 2 ^ 48) / w - 2 ^ 44 * (e - 16) / w) + (d - (l - 2 ^ 48) / w)| := by
        congr 1
        ring
    _ ≤ |(l - 2 ^ 48) / w - 2 ^ 44 * (e - 16) / w| + |d - (l - 2 ^ 48) / w| := abs_add_le _ _
    _ ≤ 2 ^ 30 / (w : ℝ) + 1 := add_le_add hln' hdiv

/-- The straw of an item of weight 2.0. -/
theorem straw_accurate_two :
    |(generateExponentialDistribution rjenkins 0 222 3 0 0x20000 : ℝ)
        - 2 ^ 44 * Real.logb 2 ((strawBits rjenkins 0 222 3 0 + 1) / 2 ^ 16) / (0x20000 : ℤ)|
      ≤ 2 ^ 30 / ((0x20000 : ℤ) : ℝ) + 1 :=
  straw_accurate rjenkins 0 222 3 0 (by decide)

end MyCeph.Crush
