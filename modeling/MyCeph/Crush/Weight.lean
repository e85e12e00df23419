import Mathlib.Algebra.BigOperators.Group.List.Basic
import MyCeph.Crush.Eligible

namespace MyCeph.Crush

open Lib

/-!
# Devices of weight zero get no data

On a map whose weights add up (`WeightsAddUp`), a bucket of non-zero weight has an item of
non-zero weight, so straw2 draws an item of non-zero weight from it
(`straw2High_weight`).  Descending keeps this (`Visits.weight_ne_zero`), over all the
buckets a search can visit.
-/

variable {H : CrushHash} {m : CrushMap} {x : ℤ}

/-- The conditions of `WeightsAddUp` on the bucket at an index. -/
def weightsOk (m : CrushMap) (k : ℕ) : Bool :=
  match m.bucket? k with
  | none => true
  | some b =>
    b.weight.toNat == (b.itemWeights.map UInt32.toNat).sum &&
      (List.range b.items.length).all fun j =>
        match m.bucket? (-1 - b.items.getD j 0) with
        | none => true
        | some c => b.itemWeights.getD j 0 == c.weight

/-- The weights add up if every index passes the check. -/
theorem weightsAddUp_of_weightsOk (h : ∀ k < m.buckets.length, weightsOk m k = true) :
    WeightsAddUp m := by
  have hok : ∀ {b}, m.Has b → b.weight.toNat = (b.itemWeights.map UInt32.toNat).sum ∧
      ∀ {c} {j : ℕ} {item : ℤ}, b.items[j]? = some item → m.bucket? (-1 - item) = some c →
        b.itemWeights.getD j 0 = c.weight := by
    rintro b ⟨i, hb⟩
    obtain ⟨k, hk, rfl, -, -⟩ := CrushMap.bucket?_eq_some_iff.mp hb
    have hk' := h k hk
    simp only [weightsOk, hb, Bool.and_eq_true, beq_iff_eq, List.all_eq_true, List.mem_range]
      at hk'
    refine ⟨hk'.1, fun {c j item} hj hc => ?_⟩
    obtain ⟨hlt, -⟩ := List.getElem?_eq_some_iff.mp hj
    have hchild := hk'.2 j hlt
    rw [List.getD_eq_getElem?_getD, hj, Option.getD_some, hc] at hchild
    exact beq_iff_eq.mp hchild
  exact ⟨fun hb => (hok hb).1, fun hb hj hc => (hok hb).2 hj hc⟩

/-- The item weight of `v` is not zero, wherever in the map `v` stands. -/
def Weighted (m : CrushMap) (v : ℤ) : Prop :=
  (∃ b, m.Has b ∧ v ∈ b.items) ∧
    ∀ {b} {j : ℕ}, m.Has b → b.items[j]? = some v → b.itemWeights.getD j 0 ≠ 0

/-- A bucket of non-zero weight has an item of non-zero weight. -/
theorem WeightsAddUp.exists_weight (hwf : m.WellFormed) (hw : WeightsAddUp m) {b : CrushBucket}
    (hb : m.Has b) (hne : b.weight ≠ 0) :
    ∃ j, j < b.size.toNat ∧ b.itemWeights.getD j 0 ≠ 0 := by
  obtain ⟨i, hi⟩ := hb
  have hsum : (b.itemWeights.map UInt32.toNat).sum ≠ 0 := by
    rw [← hw.sum ⟨i, hi⟩]
    exact fun h0 => hne (UInt32.toNat_inj.mp h0)
  -- A sum that is not zero has a summand that is not.
  obtain ⟨n, hn, hn0⟩ := List.exists_mem_ne_zero_of_sum_ne_zero hsum
  obtain ⟨w, hmem, rfl⟩ := List.mem_map.mp hn
  obtain ⟨j, hj, rfl⟩ := List.mem_iff_getElem.mp hmem
  refine ⟨j, hwf.weights_length hi ▸ hj, fun h0 => hn0 ?_⟩
  rw [List.getD_eq_getElem _ _ hj] at h0
  rw [h0]; rfl

/-- A bucket with weight has items. -/
theorem WeightsAddUp.size_ne_zero (hwf : m.WellFormed) (hw : WeightsAddUp m) {b : CrushBucket}
    (hb : m.Has b) (hne : b.weight ≠ 0) : b.size ≠ 0 := by
  obtain ⟨j, hj, -⟩ := hw.exists_weight hwf hb hne
  rintro h0
  simp [h0] at hj

/-- The item drawn from a bucket of non-zero weight has non-zero weight there. -/
theorem chooseItem_weight (hwf : m.WellFormed) (hw : WeightsAddUp m) {b : CrushBucket}
    (hb : m.Has b) (hne : b.weight ≠ 0) (r : ℤ) (position : ℕ) :
    ∃ j, b.items[j]? = some (chooseItem H x none b r position) ∧ b.itemWeights.getD j 0 ≠ 0 := by
  obtain ⟨k, hk, hwk⟩ := hw.exists_weight hwf hb hne
  have hsize := hw.size_ne_zero hwf hb hne
  refine ⟨straw2High H b x r none position, ?_, straw2High_weight H b x r position hk hwk⟩
  obtain ⟨i, hi⟩ := hb
  exact bucketStraw2Choose_getElem? H x r none position hsize (hwf.items_length hi)

/-- Every bucket that can be visited from a bucket of non-zero weight has non-zero weight. -/
theorem Visits.weight_ne_zero (hwf : m.WellFormed) (hw : WeightsAddUp m) {start b : CrushBucket}
    (hstart : m.Has start) (hne : start.weight ≠ 0) (h : Visits H m x none start b) :
    b.weight ≠ 0 := by
  induction h with
  | start => exact hne
  | child r position hb hsize hneg hc ih =>
    obtain ⟨j, hj, hwj⟩ := chooseItem_weight (x := x) (H := H) hwf hw (hb.has hwf hstart).1 ih r
      position
    -- The item weight drawn is the weight of the child bucket.
    rw [hw.child (hb.has hwf hstart).1 hj hc] at hwj
    exact hwj

/-- Every item that can be drawn below a bucket of non-zero weight has non-zero weight. -/
theorem Drawn.weighted (hwf : m.WellFormed) (htree : m.TreeShaped) (hw : WeightsAddUp m)
    {start : CrushBucket} (hstart : m.Has start) (hne : start.weight ≠ 0) {item : ℤ}
    (h : Drawn H m x none start item) : Weighted m item := by
  obtain ⟨b, r, position, hb, hsize, rfl⟩ := h
  have hhas := (hb.has hwf hstart).1
  obtain ⟨j, hj, hwj⟩ := chooseItem_weight (x := x) (H := H) hwf hw hhas
    (hb.weight_ne_zero hwf hw hstart hne) r position
  refine ⟨⟨b, hhas, List.mem_of_getElem? hj⟩, fun {b' j'} hb' hj' => ?_⟩
  -- The item stands in one place of the map only.
  obtain ⟨i, hi⟩ := hhas
  obtain ⟨i', hi'⟩ := hb'
  obtain ⟨rfl, rfl⟩ := htree.one_place hi hi' hj hj'
  obtain rfl : b = b' := by rw [hi] at hi'; exact Option.some.inj hi'
  exact hwj

/-! ### Runs -/

/-- Visited buckets are neither empty nor of weight zero, stored items have weight. -/
def WeightedEvent (m : CrushMap) : Event → Prop
  | .visit b => b.weight ≠ 0 ∧ b.size ≠ 0
  | .write _ _ v => Weighted m v

/-- The leaves are drawn below the start bucket as well. -/
theorem Placed.drawn_out2 {f : FirstnInfo} {μ : Store} {i : ℕ} (h : Placed H f μ i)
    (hrec : f.recurseToLeaf = true) :
    Drawn H f.map f.x f.chooseArgs f.bucket (μ.cells f.out2 i) := by
  have hitem := h.chosen.drawn
  by_cases hne : f.out2 = f.out
  · rw [hne]; exact hitem
  · rcases lt_or_ge (μ.cells f.out i) 0 with hneg | hnn
    · obtain ⟨c, count, hc, hleaf⟩ := (h.leaf hne).bucket hrec hneg
      exact hitem.of_child hneg hc hleaf.drawn
    · rw [(h.leaf hne).device hrec hnn]; exact hitem

/-- **Data never goes to a device of weight zero.**  Whatever a run has done when it
    returns or stops short, the buckets it has visited have weight and items, and the
    items it has stored have weight; and so have the items and leaves of its result. -/
theorem crushChooseFirstn_weight (H : CrushHash) (fuel : ℕ) (f : FirstnInfo) (parentR : ℤ)
    (μ : Store) (hwf : f.map.WellFormed) (htree : f.map.TreeShaped) (hw : WeightsAddUp f.map)
    (hstart : f.map.Has f.bucket) (hne : f.bucket.weight ≠ 0) (hargs : f.chooseArgs = none) :
    (∀ e ∈ (storeLeft (crushChooseFirstn H fuel f parentR μ)).log,
        e ∈ μ.log ∨ WeightedEvent f.map e) ∧
      ∀ p μ', crushChooseFirstn H fuel f parentR μ = .ok (p, μ') →
        ∀ i, f.outpos ≤ i → i < p → Weighted f.map (μ'.cells f.out i) ∧
          (f.recurseToLeaf = true → Weighted f.map (μ'.cells f.out2 i)) := by
  have hspec := crushChooseFirstn_spec H fuel
  -- Without arguments an item that is drawn below a bucket of some weight has weight itself.
  have hdrawn : ∀ {item}, Drawn H f.map f.x f.chooseArgs f.bucket item → Weighted f.map item :=
    fun h => (hargs ▸ h).weighted hwf htree hw hstart hne
  constructor
  · obtain ⟨new, hlog, hnew, -⟩ := hspec.ext f parentR μ
    rw [hlog]
    intro e he
    rcases List.mem_append.mp he with hmem | hold
    · right
      cases e with
      | visit b =>
        have hv : Visits H f.map f.x none f.bucket b := hargs ▸ hnew _ hmem
        have hwb := hv.weight_ne_zero hwf hw hstart hne
        exact ⟨hwb, hw.size_ne_zero hwf (hv.has hwf hstart).1 hwb⟩
      | write a i v => exact hdrawn (hnew _ hmem).2.2.2
    · exact Or.inl hold
  · intro p μ' hrun i hlo hhi
    have hpl := (hspec.placement hrun).placed i hlo hhi
    exact ⟨hdrawn hpl.chosen.drawn, fun hrec => hdrawn (hpl.drawn_out2 hrec)⟩

/-- The host `-2` of the small map with OSD 1 at weight 0. -/
def lightHost : CrushBucket :=
  { smallHost (-2) 0 with weight := 0x10000, itemWeights := [0x10000, 0] }

/-- The small map with OSD 1 at weight 0, in its host and up to the root. -/
def lightRoot : CrushBucket :=
  { smallRoot with weight := 0x30000, itemWeights := [0x10000, 0x20000] }

def lightMap : CrushMap :=
  { smallMap with buckets := [some lightRoot, some lightHost, some (smallHost (-3) 2)] }

/-- OSD 0 weighs nothing, and all three replicas go elsewhere. -/
theorem crushChooseFirstn_weight_lightMap :
    ∃ μ', crushChooseFirstn rjenkins 60
        { smallInfo with map := lightMap, bucket := lightRoot } 0 zeroStore = .ok (3, μ') ∧
      Weighted lightMap (μ'.cells 1 2) := by
  obtain ⟨⟨p, μ'⟩, hrun, rfl⟩ := ok_of_toOption_map (g := Prod.fst) (y := 3)
    (x := crushChooseFirstn rjenkins 60
      { smallInfo with map := lightMap, bucket := lightRoot } 0 zeroStore) (by decide +kernel)
  have hwf : lightMap.WellFormed := CrushMap.wellFormed_of_bucketOk (by decide)
  have h := (crushChooseFirstn_weight rjenkins 60 _ 0 zeroStore hwf
    (CrushMap.treeShaped_of_placesOk (CrushMap.acyclic_of_rankOk smallRank (by decide))
      (by decide)) (weightsAddUp_of_weightsOk (by decide)) ⟨0, rfl⟩ (by decide) rfl).2 3 μ' hrun
  exact ⟨μ', hrun, (h 2 (by decide) (by decide)).1⟩

end MyCeph.Crush
