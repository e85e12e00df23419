import MyCeph.Crush.Ln
import MyCeph.Crush.Map
import MyCeph.Lib.FirstMax

namespace MyCeph.Crush

open Lib

/-!
# Drawing one item from a straw2 bucket

`bucket_straw2_choose`: every item of the bucket draws a straw, and the first item with
the longest straw is chosen.

* `straw2Scan_fst` — the loop over the items finds the first index of a maximal draw
  (`Lib.firstMax`);
* `bucketStraw2Choose_getElem?` — on a well-formed bucket the result is one of its items;
* `straw2High_weight` — it has non-zero weight as soon as some item has;
* `straw2High_raise` — raising one item's weight keeps the choice or moves it to
  that item.
-/

variable (H : CrushHash)

/-- `get_choose_arg_ids`. -/
def getChooseArgIds (bucket : CrushBucket) (arg : Option CrushChooseArg) : List ℤ :=
  match arg with
  | none => bucket.items
  | some a => a.ids.getD bucket.items

/-- `get_choose_arg_weights`.  A position past the last weight set uses the last one. -/
def getChooseArgWeights (bucket : CrushBucket) (arg : Option CrushChooseArg) (position : ℕ) :
    List UInt32 :=
  match arg with
  | none => bucket.itemWeights
  | some a =>
    match a.weightSet with
    | none => bucket.itemWeights
    | some ws => ws.getD (if position ≥ a.weightSetPositions then a.weightSetPositions - 1
        else position) []

/-- The `draw` of item `i` in the loop of `bucket_straw2_choose`. -/
def straw2Draw (hash : ℕ) (ids : List ℤ) (weights : List UInt32) (x r : ℤ) (i : ℕ) : ℤ :=
  if weights.getD i 0 ≠ 0 then
    generateExponentialDistribution H hash x (ids.getD i 0) r (toS32 (weights.getD i 0).toNat)
  else s64Min

/-- The loop of `bucket_straw2_choose` over the items below `n`: `(high, high_draw)`. -/
def straw2Scan (draw : ℕ → ℤ) : ℕ → ℕ × ℤ
  | 0 => (0, 0)
  | i + 1 =>
    let (high, highDraw) := straw2Scan draw i
    -- The test of `i = 0` makes the start value of `high_draw` irrelevant.
    if i = 0 ∨ draw i > highDraw then (i, draw i) else (high, highDraw)

/-- The index `bucket_straw2_choose` ends with. -/
def straw2High (bucket : CrushBucket) (x r : ℤ) (arg : Option CrushChooseArg) (position : ℕ) : ℕ :=
  let weights := getChooseArgWeights bucket arg position
  let ids := getChooseArgIds bucket arg
  (straw2Scan (straw2Draw H bucket.hash ids weights x r) bucket.size.toNat).1

/-- `bucket_straw2_choose`. -/
def bucketStraw2Choose (bucket : CrushBucket) (x r : ℤ) (arg : Option CrushChooseArg)
    (position : ℕ) : ℤ :=
  bucket.items.getD (straw2High H bucket x r arg position) 0

/-- `crush_bucket_choose`: every bucket is treated as a straw2 bucket. -/
def crushBucketChoose (bucket : CrushBucket) (x r : ℤ) (arg : Option CrushChooseArg)
    (position : ℕ) : ℤ :=
  bucketStraw2Choose H bucket x r arg position

/-! ### The loop finds the first maximum -/

/-- The scan keeps the first highest draw and its position. -/
theorem straw2Scan_eq (draw : ℕ → ℤ) (n : ℕ) :
    straw2Scan draw (n + 1) = (firstMax draw (n + 1), draw (firstMax draw (n + 1))) := by
  induction n with
  | zero => simp [straw2Scan, firstMax]
  | succ n ih =>
    rw [straw2Scan, ih, firstMax_succ draw (n + 1)]
    by_cases h : draw (firstMax draw (n + 1)) < draw (n + 1)
    · simp only [gt_iff_lt, h, or_true, if_true]
    · simp only [gt_iff_lt, h, or_false, if_false, Nat.succ_ne_zero]

theorem straw2Scan_fst (draw : ℕ → ℤ) (n : ℕ) : (straw2Scan draw n).1 = firstMax draw n := by
  cases n with
  | zero => rfl
  | succ n => rw [straw2Scan_eq]

/-- **The position drawn** is the first with the highest draw. -/
theorem straw2High_isFirstMax (bucket : CrushBucket) (x r : ℤ) (arg : Option CrushChooseArg)
    (position : ℕ) (hsize : bucket.size ≠ 0) :
    IsFirstMax (straw2Draw H bucket.hash (getChooseArgIds bucket arg)
        (getChooseArgWeights bucket arg position) x r)
      bucket.size.toNat (straw2High H bucket x r arg position) := by
  have hpos : 0 < bucket.size.toNat := by
    rw [Nat.pos_iff_ne_zero]
    exact fun h => hsize (UInt32.toNat_inj.mp h)
  unfold straw2High
  rw [straw2Scan_fst]
  exact firstMax_isFirstMax _ hpos

theorem straw2High_lt (bucket : CrushBucket) (x r : ℤ) (arg : Option CrushChooseArg)
    (position : ℕ) (hsize : bucket.size ≠ 0) :
    straw2High H bucket x r arg position < bucket.size.toNat :=
  (straw2High_isFirstMax H bucket x r arg position hsize).lt

/-- On a bucket whose `items` array has `size` entries the choice is one of them. -/
theorem bucketStraw2Choose_getElem? {bucket : CrushBucket} (x r : ℤ)
    (arg : Option CrushChooseArg) (position : ℕ) (hsize : bucket.size ≠ 0)
    (hlen : bucket.items.length = bucket.size.toNat) :
    bucket.items[straw2High H bucket x r arg position]?
      = some (bucketStraw2Choose H bucket x r arg position) := by
  have hlt := straw2High_lt H bucket x r arg position hsize
  unfold bucketStraw2Choose
  rw [List.getD_eq_getElem?_getD, List.getElem?_eq_getElem (by omega)]
  rfl

/-- What is drawn is an item of the bucket. -/
theorem bucketStraw2Choose_mem {bucket : CrushBucket} (x r : ℤ) (arg : Option CrushChooseArg)
    (position : ℕ) (hsize : bucket.size ≠ 0) (hlen : bucket.items.length = bucket.size.toNat) :
    bucketStraw2Choose H bucket x r arg position ∈ bucket.items :=
  List.mem_of_getElem? (bucketStraw2Choose_getElem? H x r arg position hsize hlen)

/-! ### Weights -/

/-- The winner has non-zero weight if any item has: its straw is longer than the
    `S64_MIN` of the items of weight 0, also for weights that are negative as `int`. -/
theorem straw2High_weight (bucket : CrushBucket) (x r : ℤ) (position : ℕ) {j : ℕ}
    (hj : j < bucket.size.toNat) (hw : bucket.itemWeights.getD j 0 ≠ 0) :
    bucket.itemWeights.getD (straw2High H bucket x r none position) 0 ≠ 0 := by
  have hsize : bucket.size ≠ 0 := by rintro h; simp [h] at hj
  have hmax := straw2High_isFirstMax H bucket x r none position hsize
  simp only [getChooseArgIds, getChooseArgWeights] at hmax
  intro hzero
  have hle := hmax.le j hj
  simp only [straw2Draw, hw, hzero, ne_eq, not_true_eq_false, not_false_eq_true, if_true,
    if_false] at hle
  have hlt := s64Min_lt_draw H bucket.hash x (bucket.items.getD j 0) r
    (toS32 (bucket.itemWeights.getD j 0).toNat)
  omega

theorem toS32_of_lt {w : UInt32} (h : w.toNat < 2 ^ 31) : toS32 w.toNat = w.toNat := by
  unfold toS32
  exact Int.bmod_eq_of_le (by omega) (by omega)

/-- A straw does not get shorter when the weight grows below `2^31`. -/
theorem straw2Draw_mono (hash : ℕ) (ids : List ℤ) {ws ws' : List UInt32} (x r : ℤ) {i : ℕ}
    (hle : (ws.getD i 0).toNat ≤ (ws'.getD i 0).toNat) (hpos : 0 < (ws.getD i 0).toNat)
    (hlt : (ws'.getD i 0).toNat < 2 ^ 31) :
    straw2Draw H hash ids ws x r i ≤ straw2Draw H hash ids ws' x r i := by
  have hne : ∀ {w : UInt32}, 0 < w.toNat → w ≠ 0 := by rintro w hw rfl; simp at hw
  have h1 : ws.getD i 0 ≠ 0 := hne hpos
  have h2 : ws'.getD i 0 ≠ 0 := hne (by omega)
  simp only [straw2Draw, h1, h2, ne_eq, not_false_eq_true, if_true]
  rw [toS32_of_lt (by omega), toS32_of_lt hlt]
  exact draw_mono H hash x (ids.getD i 0) r (by omega) (by omega)

/-- **Raising a weight.**  Two buckets with the same items whose weights differ at index
    `c` only, where the second draws no shorter a straw: the second chooses the same item, or
    item `c`. -/
theorem straw2High_raise {b b' : CrushBucket} (x r : ℤ) (position : ℕ) {c : ℕ}
    (hhash : b'.hash = b.hash) (hsz : b'.size = b.size) (hitems : b'.items = b.items)
    (hsize : b.size ≠ 0)
    (hsame : ∀ j, j < b.size.toNat → j ≠ c → b'.itemWeights.getD j 0 = b.itemWeights.getD j 0)
    (hraise : straw2Draw H b.hash b.items b.itemWeights x r c
      ≤ straw2Draw H b.hash b.items b'.itemWeights x r c) :
    straw2High H b' x r none position = straw2High H b x r none position ∨
      straw2High H b' x r none position = c := by
  have hn : 0 < b.size.toNat := by
    have := straw2High_lt H b x r none position hsize
    omega
  unfold straw2High
  simp only [straw2Scan_fst, getChooseArgIds, getChooseArgWeights, hhash, hsz, hitems]
  refine firstMax_raise hn ?_ hraise
  intro j hj hjc
  simp only [straw2Draw, hsame j hj hjc]

end MyCeph.Crush
