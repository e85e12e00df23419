import MyCeph.Crush.DrawOrder

namespace MyCeph.Crush

open Lib

/-!
# Changing one item of a bucket

Two runs of `bucket_straw2_choose`, with NULL `choose_args`, on a bucket before and after a change
of one item: another weight, one item more, one item less (`CrushBucket.setWeight`, `insertItem`,
`removeItem`).  The draws of the other items are the same in both, so the choice moves to or from
the changed item or not at all.
-/

namespace CrushBucket

/-- Item `c` has weight `w`. -/
def setWeight (b : CrushBucket) (c : ℕ) (w : UInt32) : CrushBucket :=
  { b with
    weight := b.weight - b.itemWeights.getD c 0 + w
    itemWeights := b.itemWeights.set c w }

/-- A new item at index `c`, before the one that stood there. -/
def insertItem (b : CrushBucket) (c : ℕ) (item : ℤ) (w : UInt32) : CrushBucket :=
  { b with
    weight := b.weight + w
    size := b.size + 1
    items := b.items.insertIdx c item
    itemWeights := b.itemWeights.insertIdx c w }

/-- Item `c` is taken out. -/
def removeItem (b : CrushBucket) (c : ℕ) : CrushBucket :=
  { b with
    weight := b.weight - b.itemWeights.getD c 0
    size := b.size - 1
    items := b.items.eraseIdx c
    itemWeights := b.itemWeights.eraseIdx c }

/-- The bucket is not empty, and its arrays have `size` entries. -/
structure Sized (b : CrushBucket) : Prop where
  size_ne : b.size ≠ 0
  items_length : b.items.length = b.size.toNat
  weights_length : b.itemWeights.length = b.size.toNat

end CrushBucket

variable {b : CrushBucket} {c : ℕ}

/-! ### The arrays after a change -/

/-- Without the entry at `c`, the later ones move up by one. -/
theorem getD_eraseIdx {α : Type*} (l : List α) (c j : ℕ) (a : α) :
    (l.eraseIdx c).getD j a = l.getD (skipAt c j) a := by
  rw [List.getD_eq_getElem?_getD, List.getD_eq_getElem?_getD, List.getElem?_eraseIdx, skipAt]
  split <;> rfl

theorem getD_set_self {α : Type*} {l : List α} {c : ℕ} (hc : c < l.length) (a d : α) :
    (l.set c a).getD c d = a := by
  rw [List.getD_eq_getElem?_getD, List.getElem?_set_self hc]
  rfl

theorem getD_set_of_ne {α : Type*} (l : List α) {c j : ℕ} (hjc : j ≠ c) (a d : α) :
    (l.set c a).getD j d = l.getD j d := by
  rw [List.getD_eq_getElem?_getD, List.getElem?_set_ne hjc.symm, List.getD_eq_getElem?_getD]

theorem getD_insertIdx_self {α : Type*} {l : List α} {c : ℕ} (hc : c ≤ l.length) (a d : α) :
    (l.insertIdx c a).getD c d = a := by
  rw [List.getD_eq_getElem?_getD, List.getElem?_insertIdx_self, if_pos hc]
  rfl

namespace CrushBucket

/-- Another weight keeps the arrays as long as they are. -/
theorem Sized.setWeight (hb : b.Sized) (c : ℕ) (w : UInt32) : (b.setWeight c w).Sized :=
  ⟨hb.size_ne, hb.items_length, (List.length_set ..).trans hb.weights_length⟩

theorem size_insertItem (hroom : b.size.toNat + 1 < 2 ^ 32) (item : ℤ) (w : UInt32) :
    (b.insertItem c item w).size.toNat = b.size.toNat + 1 := by
  simp only [insertItem, UInt32.toNat_add, UInt32.reduceToNat]
  omega

theorem Sized.insertItem (hb : b.Sized) (hc : c ≤ b.size.toNat)
    (hroom : b.size.toNat + 1 < 2 ^ 32) (item : ℤ) (w : UInt32) :
    (b.insertItem c item w).Sized := by
  have hsize := size_insertItem (c := c) hroom item w
  refine ⟨fun h => ?_, ?_, ?_⟩
  · rw [h] at hsize
    simp at hsize
  · rw [hsize, ← hb.items_length]
    exact List.length_insertIdx_of_le_length (hb.items_length ▸ hc) _
  · rw [hsize, ← hb.weights_length]
    exact List.length_insertIdx_of_le_length (hb.weights_length ▸ hc) _

/-- Taking the new item out again gives the bucket back. -/
theorem removeItem_insertItem (hb : b.Sized) (hc : c ≤ b.size.toNat) (item : ℤ) (w : UInt32) :
    (b.insertItem c item w).removeItem c = b := by
  have hweight : (b.itemWeights.insertIdx c w).getD c 0 = w :=
    getD_insertIdx_self (hb.weights_length ▸ hc) w 0
  unfold CrushBucket.removeItem CrushBucket.insertItem
  simp only [hweight, List.eraseIdx_insertIdx_self, UInt32.add_sub_cancel]

/-- A bucket from which an item can be taken has one. -/
theorem size_removeItem (hb : b.Sized) :
    (b.removeItem c).size.toNat + 1 = b.size.toNat := by
  have hpos : 0 < b.size.toNat := by
    rw [Nat.pos_iff_ne_zero]
    exact fun h => hb.size_ne (UInt32.toNat_inj.mp h)
  have hle : (1 : UInt32) ≤ b.size := UInt32.le_iff_toNat_le.mpr hpos
  unfold CrushBucket.removeItem
  rw [UInt32.toNat_sub_of_le _ _ hle]
  exact Nat.sub_add_cancel hpos

end CrushBucket

/-! ### The choice after a change -/

variable (H : CrushHash) (x r : ℤ) (position : ℕ)

/-- A heavier item draws at least as high. -/
theorem straw2Draw_le (hash : ℕ) (ids : List ℤ) {ws ws' : List UInt32} {i : ℕ}
    (hle : (ws.getD i 0).toNat ≤ (ws'.getD i 0).toNat) :
    straw2Draw H hash ids ws x r i ≤ straw2Draw H hash ids ws' x r i := by
  rw [straw2Draw_eq_itemDraw, straw2Draw_eq_itemDraw]
  exact itemDraw_mono H hle

/-- A larger weight keeps the choice, or moves it to the item. -/
theorem straw2High_setWeight_of_le (hb : b.Sized) (hc : c < b.size.toNat) {w : UInt32}
    (hle : (b.itemWeights.getD c 0).toNat ≤ w.toNat) :
    straw2High H (b.setWeight c w) x r none position = straw2High H b x r none position ∨
      straw2High H (b.setWeight c w) x r none position = c := by
  have hw : (b.itemWeights.set c w).getD c 0 = w := getD_set_self (hb.weights_length ▸ hc) w 0
  refine straw2High_raise H x r position rfl rfl rfl hb.size_ne (fun j _ hjc => ?_) ?_
  · exact getD_set_of_ne b.itemWeights hjc w 0
  · exact straw2Draw_le H x r b.hash b.items (le_of_le_of_eq hle (congrArg _ hw.symm))

/-- A smaller weight keeps the choice, unless it was the item. -/
theorem straw2High_setWeight_of_ge (hb : b.Sized) (hc : c < b.size.toNat) {w : UInt32}
    (hge : w.toNat ≤ (b.itemWeights.getD c 0).toNat) :
    straw2High H b x r none position = straw2High H (b.setWeight c w) x r none position ∨
      straw2High H b x r none position = c := by
  have hw : (b.itemWeights.set c w).getD c 0 = w := getD_set_self (hb.weights_length ▸ hc) w 0
  have hsized := hb.setWeight c w
  -- Read the other way round, the weight is raised.
  refine straw2High_raise H x r position (b := b.setWeight c w) rfl rfl rfl hsized.size_ne
    (fun j _ hjc => ?_) ?_
  · exact (getD_set_of_ne b.itemWeights hjc w 0).symm
  · exact straw2Draw_le H x r b.hash b.items (le_of_eq_of_le (congrArg _ hw) hge)

/-- Without item `c` the choice is the same, unless it was item `c`. -/
theorem straw2High_removeItem (hb : b.Sized) (hc : c < b.size.toNat)
    (hne : straw2High H b x r none position ≠ c) :
    straw2High H b x r none position
      = skipAt c (straw2High H (b.removeItem c) x r none position) := by
  have hsize := CrushBucket.size_removeItem (c := c) hb
  have hlt := straw2High_lt H b x r none position hb.size_ne
  have hdraw : ∀ j, straw2Draw H b.hash (b.items.eraseIdx c) (b.itemWeights.eraseIdx c) x r j
      = straw2Draw H b.hash b.items b.itemWeights x r (skipAt c j) := by
    intro j
    simp only [straw2Draw, getD_eraseIdx]
  -- With two places below `size`, some item is left.
  have hinsert := firstMax_insert (straw2Draw H b.hash b.items b.itemWeights x r)
    (n := (b.removeItem c).size.toNat) (c := c) (by omega) (by omega)
  simp only [← hdraw] at hinsert
  unfold straw2High at hne ⊢
  simp only [straw2Scan_fst, getChooseArgIds, getChooseArgWeights, ← hsize] at hne ⊢
  exact hinsert.resolve_left hne

/-- **Straw2 moves as little as possible.**  Changing the weight of an item, inserting one or
    removing one moves the choice to that item, away from it, or not at all. -/
theorem bucketStraw2Choose_optimal (H : CrushHash) (b : CrushBucket) (x r : ℤ) (position : ℕ)
    (hb : b.Sized) :
    (∀ c < b.size.toNat, ∀ w, b.itemWeights.getD c 0 ≤ w →
      bucketStraw2Choose H (b.setWeight c w) x r none position
          = bucketStraw2Choose H b x r none position ∨
        bucketStraw2Choose H (b.setWeight c w) x r none position = b.items.getD c 0) ∧
    (∀ c < b.size.toNat, ∀ w, w ≤ b.itemWeights.getD c 0 →
      bucketStraw2Choose H b x r none position ≠ b.items.getD c 0 →
        bucketStraw2Choose H (b.setWeight c w) x r none position
          = bucketStraw2Choose H b x r none position) ∧
    (∀ c ≤ b.size.toNat, ∀ item w, b.size.toNat + 1 < 2 ^ 32 →
      bucketStraw2Choose H (b.insertItem c item w) x r none position
          = bucketStraw2Choose H b x r none position ∨
        bucketStraw2Choose H (b.insertItem c item w) x r none position = item) ∧
    (∀ c < b.size.toNat, bucketStraw2Choose H b x r none position ≠ b.items.getD c 0 →
      bucketStraw2Choose H (b.removeItem c) x r none position
        = bucketStraw2Choose H b x r none position) := by
  -- The item chosen is the one at the index the loop ends with.
  have hchosen : ∀ {b : CrushBucket} {k : ℕ}, straw2High H b x r none position = k →
      bucketStraw2Choose H b x r none position = b.items.getD k 0 := fun h => h ▸ rfl
  have hother : ∀ {c : ℕ}, bucketStraw2Choose H b x r none position ≠ b.items.getD c 0 →
      straw2High H b x r none position ≠ c := fun hne h => hne (hchosen h)
  have hremove : ∀ {b : CrushBucket} {c : ℕ}, b.Sized → c < b.size.toNat →
      straw2High H b x r none position ≠ c →
        bucketStraw2Choose H (b.removeItem c) x r none position
          = bucketStraw2Choose H b x r none position := by
    intro b c hb hc hne
    rw [hchosen (straw2High_removeItem H x r position hb hc hne), ← getD_eraseIdx]
    rfl
  refine ⟨fun c hc w hle => ?_, fun c hc w hge hne => ?_, fun c hc item w hroom => ?_,
    fun c hc hne => hremove hb hc (hother hne)⟩
  · rcases straw2High_setWeight_of_le H x r position hb hc (UInt32.le_iff_toNat_le.mp hle) with
      hsame | hitem
    · exact Or.inl (hchosen hsame)
    · exact Or.inr (hchosen hitem)
  · rcases straw2High_setWeight_of_ge H x r position hb hc (UInt32.le_iff_toNat_le.mp hge) with
      hsame | hitem
    · exact (hchosen hsame).symm
    · exact absurd hitem (hother hne)
  · -- Taking the new item out again gives `b`.
    have hsize := CrushBucket.size_insertItem (c := c) hroom item w
    by_cases hnew : straw2High H (b.insertItem c item w) x r none position = c
    · right
      rw [hchosen hnew]
      exact getD_insertIdx_self (hb.items_length ▸ hc) item 0
    · left
      rw [← hremove (hb.insertItem hc hroom item w) (by omega) hnew,
        CrushBucket.removeItem_insertItem hb hc]

/-- The small root draws the same host for object 222, or the second one, when that weighs 3.0. -/
theorem bucketStraw2Choose_optimal_smallRoot :
    bucketStraw2Choose rjenkins (smallRoot.setWeight 1 0x30000) 222 0 none 0
        = bucketStraw2Choose rjenkins smallRoot 222 0 none 0 ∨
      bucketStraw2Choose rjenkins (smallRoot.setWeight 1 0x30000) 222 0 none 0 = -3 :=
  (bucketStraw2Choose_optimal rjenkins smallRoot 222 0 0 ⟨by decide, rfl, rfl⟩).1 1 (by decide)
    0x30000 (by decide)

end MyCeph.Crush
