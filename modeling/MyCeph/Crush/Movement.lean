import MyCeph.Crush.Eligible

namespace MyCeph.Crush

open Lib Relation

/-!
# Data movement after a weight increase

Two maps of the same structure, where device `d` and the buckets above it weigh more in the
second (`Heavier`).  With every device in, the search for one device is a plain descent
along straw2 draws (`Descends`, `OneDevice.run`).  In one bucket the second draw equals the
first or goes to the item above `d` (`straw2High_heavier`), so the two descents stay together
until the second turns into a branch above `d` that the first does not enter (`Descends.related`).
-/

variable {H : CrushHash} {m m' : CrushMap} {x r d : ℤ}

/-! ### Plain descents -/

/-- The first draws from `b` downwards lead to device `e`. -/
inductive Descends (H : CrushHash) (m : CrushMap) (x r : ℤ) : CrushBucket → ℤ → Prop where
  | device {b : CrushBucket} (hnn : 0 ≤ chooseItem H x none b r 0) :
      Descends H m x r b (chooseItem H x none b r 0)
  | bucket {b c : CrushBucket} {e : ℤ} (hneg : chooseItem H x none b r 0 < 0)
      (hc : m.bucket? (-1 - chooseItem H x none b r 0) = some c) (h : Descends H m x r c e) :
      Descends H m x r b e

/-- On an acyclic map without empty buckets every descent ends at a device. -/
theorem exists_descends (H : CrushHash) (x r : ℤ) (hwf : m.WellFormed) (hacyclic : m.Acyclic)
    (hfull : ∀ {b}, m.Has b → b.size ≠ 0) {b : CrushBucket} (hb : m.Has b) :
    ∃ e, Descends H m x r b e := by
  -- Well-founded induction on the id of the bucket.
  generalize hp : b.id = p
  induction p using hacyclic.wellFounded.induction generalizing b with
  | _ p ih =>
    subst hp
    have hmem := chooseItem_mem H x none hwf hb (hfull hb) r 0
    rcases lt_or_ge (chooseItem H x none b r 0) 0 with hneg | hnn
    · obtain ⟨i, hi⟩ := hb
      obtain ⟨c, hc⟩ := hwf.child hi _ hmem hneg
      have hid : c.id = chooseItem H x none b r 0 := hwf.id_of_bucket hc
      have hlink : m.Link b.id c.id := hid ▸ hwf.link_of_mem ⟨i, hi⟩ hmem
      obtain ⟨e, he⟩ := ih c.id ⟨hlink, hid ▸ hneg, by rw [hid, hc]; rfl⟩ ⟨_, hc⟩ rfl
      exact ⟨e, .bucket hneg hc he⟩
    · exact ⟨_, .device hnn⟩

/-- A descent ends at a device at or below the item it draws first. -/
theorem Descends.atOrBelow (hwf : m.WellFormed) (hfull : ∀ {b}, m.Has b → b.size ≠ 0)
    {b : CrushBucket} {e : ℤ} (hb : m.Has b) (h : Descends H m x r b e) :
    0 ≤ e ∧ m.AtOrBelow (chooseItem H x none b r 0) e ∧ ∃ b', m.Has b' ∧ e ∈ b'.items := by
  induction h with
  | @device b hnn =>
    exact ⟨hnn, ReflTransGen.refl, b, hb, chooseItem_mem H x none hwf hb (hfull hb) r 0⟩
  | @bucket b c e hneg hc h ih =>
    obtain ⟨he, hbelow, hin⟩ := ih ⟨_, hc⟩
    have hlink := hwf.link_of_mem ⟨_, hc⟩
      (chooseItem_mem H x none hwf ⟨_, hc⟩ (hfull ⟨_, hc⟩) r 0)
    rw [hwf.id_of_bucket hc] at hlink
    exact ⟨he, ReflTransGen.head hlink hbelow, hin⟩

/-! ### Two maps -/

/-- The bucket without its weights. -/
def CrushBucket.shape (b : CrushBucket) : CrushBucket := { b with weight := 0, itemWeights := [] }

/-- `m'` is `m` with a larger weight at `d` and above it. -/
structure Heavier (m m' : CrushMap) (d : ℤ) : Prop where
  shape : ∀ i, (m'.bucket? i).map CrushBucket.shape = (m.bucket? i).map CrushBucket.shape
  raised : ∀ {i b b'} {j : ℕ} {c : ℤ}, m.bucket? i = some b → m'.bucket? i = some b' →
    b.items[j]? = some c → m.AtOrBelow c d →
    (b.itemWeights.getD j 0).toNat ≤ (b'.itemWeights.getD j 0).toNat
  same : ∀ {i b b'} {j : ℕ} {c : ℤ}, m.bucket? i = some b → m'.bucket? i = some b' →
    b.items[j]? = some c → ¬ m.AtOrBelow c d →
    b'.itemWeights.getD j 0 = b.itemWeights.getD j 0

/-- Item weights are not zero and below `2^31`. -/
def PositiveWeights (m : CrushMap) : Prop :=
  ∀ {b} {j : ℕ}, m.Has b → j < b.size.toNat →
    0 < (b.itemWeights.getD j 0).toNat ∧ (b.itemWeights.getD j 0).toNat < 2 ^ 31

/-- The two buckets at an index differ in weights only. -/
theorem Heavier.shape_eq (h : Heavier m m' d) {i : ℤ} {b b' : CrushBucket}
    (hb : m.bucket? i = some b) (hb' : m'.bucket? i = some b') : b'.shape = b.shape := by
  have := h.shape i
  rw [hb, hb'] at this
  exact Option.some.inj this

/-- The draws of two buckets of the same shape differ in the weights only. -/
theorem Heavier.fields_eq (h : Heavier m m' d) {i : ℤ} {b b' : CrushBucket}
    (hb : m.bucket? i = some b) (hb' : m'.bucket? i = some b') :
    b'.hash = b.hash ∧ b'.size = b.size ∧ b'.items = b.items := by
  have hshape := h.shape_eq hb hb'
  simp only [CrushBucket.shape, CrushBucket.mk.injEq] at hshape
  obtain ⟨-, -, hhash, -, hsize, hitems, -⟩ := hshape
  exact ⟨hhash, hsize, hitems⟩

/-- The same position drawn gives the same item. -/
theorem Heavier.chooseItem_eq (h : Heavier m m' d) {i : ℤ} {b b' : CrushBucket}
    (hb : m.bucket? i = some b) (hb' : m'.bucket? i = some b')
    (hhigh : straw2High H b' x r none 0 = straw2High H b x r none 0) :
    chooseItem H x none b' r 0 = chooseItem H x none b r 0 := by
  change b'.items.getD (straw2High H b' x r none 0) 0 = b.items.getD (straw2High H b x r none 0) 0
  rw [(h.fields_eq hb hb').2.2, hhigh]

/-- The two maps have the same links. -/
theorem Heavier.atOrBelow (h : Heavier m m' d) {p c : ℤ} (hpc : m'.AtOrBelow p c) :
    m.AtOrBelow p c := by
  refine ReflTransGen.mono (r := m'.Link) (p := m.Link) (fun q e hlink => ?_) _ _ hpc
  obtain ⟨b', hb', he⟩ := hlink
  have hshape := h.shape (-1 - q)
  rw [hb', Option.map_some] at hshape
  obtain ⟨b, hb, -⟩ := Option.map_eq_some_iff.mp hshape.symm
  exact ⟨b, hb, (h.fields_eq hb hb').2.2 ▸ he⟩

/-- **One draw.**  The second map draws the same item, or another one, which is above `d`. -/
theorem straw2High_heavier (H : CrushHash) (x r : ℤ) (hwf : m.WellFormed) (htree : m.TreeShaped)
    (hheavy : Heavier m m' d) (hpos : PositiveWeights m) (hpos' : PositiveWeights m') {p : ℤ}
    {b b' : CrushBucket} (hb : m.bucket? (-1 - p) = some b) (hb' : m'.bucket? (-1 - p) = some b')
    (hsize : b.size ≠ 0) :
    straw2High H b' x r none 0 = straw2High H b x r none 0 ∨
      ∃ c, b.items[straw2High H b' x r none 0]? = some c ∧ m.AtOrBelow c d := by
  obtain ⟨hhash, hsz, hitems⟩ := hheavy.fields_eq hb hb'
  have hget : ∀ {j : ℕ}, j < b.size.toNat → ∃ c, b.items[j]? = some c := fun hj =>
    ⟨_, List.getElem?_eq_getElem (hwf.items_length hb ▸ hj)⟩
  by_cases hpath : ∃ (k : ℕ) (c : ℤ), b.items[k]? = some c ∧ m.AtOrBelow c d
  · -- One item of `b` is above `d`, and only its weight has changed.
    obtain ⟨k, c, hc, hcd⟩ := hpath
    obtain ⟨hlt, -⟩ := List.getElem?_eq_some_iff.mp hc
    have hk : k < b.size.toNat := hwf.items_length hb ▸ hlt
    have hsame : ∀ j, j < b.size.toNat → j ≠ k →
        b'.itemWeights.getD j 0 = b.itemWeights.getD j 0 := by
      intro j hj hjk
      obtain ⟨e, he⟩ := hget hj
      exact hheavy.same hb hb' he fun hed => hjk (htree.subtrees_disjoint hb he hc hed hcd)
    have hdraw := straw2Draw_mono H b.hash b.items x r (hheavy.raised hb hb' hc hcd)
      (hpos ⟨_, hb⟩ hk).1 (hpos' ⟨_, hb'⟩ (hsz.symm ▸ hk)).2
    rcases straw2High_raise H x r 0 hhash hsz hitems hsize hsame hdraw with heq | heq
    · exact Or.inl heq
    · exact Or.inr ⟨c, heq ▸ hc, hcd⟩
  · -- Nothing has changed in `b`.
    left
    have hsame : ∀ j, j < b.size.toNat → b'.itemWeights.getD j 0 = b.itemWeights.getD j 0 := by
      intro j hj
      obtain ⟨e, he⟩ := hget hj
      exact hheavy.same hb hb' he fun hed => hpath ⟨j, e, he, hed⟩
    have hhigh := straw2High_lt H b x r none 0 hsize
    have hdraw := straw2Draw_mono H b.hash b.items x r (le_of_eq (by rw [hsame _ hhigh]))
      (hpos ⟨_, hb⟩ hhigh).1 (by rw [hsame _ hhigh]; exact (hpos ⟨_, hb⟩ hhigh).2)
    rcases straw2High_raise H x r 0 hhash hsz hitems hsize (fun j hj _ => hsame j hj) hdraw with
      heq | heq
    · exact heq
    · exact heq

section TwoDescents

variable (hwf : m.WellFormed) (hwf' : m'.WellFormed) (htree : m.TreeShaped)
  (hfull : ∀ {b}, m.Has b → b.size ≠ 0) (hfull' : ∀ {b}, m'.Has b → b.size ≠ 0)
  (hheavy : Heavier m m' d) (hpos : PositiveWeights m) (hpos' : PositiveWeights m')

include hwf hwf' htree hfull hfull' hheavy hpos hpos'

/-- When the first draws differ, the second descent has turned into a branch above `d`
    that does not hold the device of the first. -/
theorem Descends.diverge {p : ℤ} {b b' : CrushBucket} {e e' : ℤ}
    (hb : m.bucket? (-1 - p) = some b) (hb' : m'.bucket? (-1 - p) = some b')
    (h : Descends H m x r b e) (h' : Descends H m' x r b' e')
    (hne : straw2High H b' x r none 0 ≠ straw2High H b x r none 0) :
    ∃ c, m.AtOrBelow c d ∧ m.AtOrBelow c e' ∧ ¬ m.AtOrBelow c e := by
  have hsize := hfull ⟨_, hb⟩
  obtain ⟨-, hsz, hitems⟩ := hheavy.fields_eq hb hb'
  rcases straw2High_heavier H x r hwf htree hheavy hpos hpos' hb hb' hsize with
    heq | ⟨c, hc, hcd⟩
  · exact absurd heq hne
  -- `c` is the item drawn second, so `e'` is below it, and `e` is below its sibling.
  have hdraw' := bucketStraw2Choose_getElem? H x r none 0 (hsz ▸ hsize)
    (hwf'.items_length hb')
  rw [hitems, hc] at hdraw'
  have hbelow := (h.atOrBelow hwf hfull ⟨_, hb⟩).2.1
  have hbelow' := hheavy.atOrBelow (h'.atOrBelow hwf' hfull' ⟨_, hb'⟩).2.1
  have hce' : m.AtOrBelow c e' := by
    rw [Option.some.inj hdraw']
    exact hbelow'
  have hdraw := bucketStraw2Choose_getElem? H x r none 0 hsize (hwf.items_length hb)
  exact ⟨c, hcd, hce', fun hce => hne (htree.subtrees_disjoint hb hc hdraw hce hbelow)⟩

/-- **Two descents** end at the same device, or the second one turns into a branch above
    `d` that does not hold the device of the first. -/
theorem Descends.related {p : ℤ} {b b' : CrushBucket} {e e' : ℤ}
    (hb : m.bucket? (-1 - p) = some b) (hb' : m'.bucket? (-1 - p) = some b')
    (h : Descends H m x r b e) (h' : Descends H m' x r b' e') :
    e' = e ∨ ∃ c, m.AtOrBelow c d ∧ m.AtOrBelow c e' ∧ ¬ m.AtOrBelow c e := by
  induction h generalizing p b' with
  | @device b hnn =>
    by_cases hhigh : straw2High H b' x r none 0 = straw2High H b x r none 0
    · have hitem := hheavy.chooseItem_eq hb hb' hhigh
      cases h' with
      | device hnn' => exact Or.inl hitem
      | bucket hneg' hc' h'' => omega
    · -- The first draws differ: this is where the descents part.
      exact Or.inr ((Descends.device hnn).diverge hwf hwf' htree hfull hfull' hheavy hpos hpos'
        hb hb' h' hhigh)
  | @bucket b c e hneg hc h ih =>
    by_cases hhigh : straw2High H b' x r none 0 = straw2High H b x r none 0
    · have hitem := hheavy.chooseItem_eq hb hb' hhigh
      -- Both descents enter the same child, where the induction hypothesis takes over.
      cases h' with
      | device hnn' => omega
      | bucket hneg' hc' h'' => exact ih hc (hitem ▸ hc') h''
    · exact Or.inr ((Descends.bucket hneg hc h).diverge hwf hwf' htree hfull hfull' hheavy hpos
        hpos' hb hb' h' hhigh)

end TwoDescents

/-! ### Calls for one device -/

/-- A call that places one device of a tree with no empty bucket and all devices in. -/
structure OneDevice (f : FirstnInfo) : Prop where
  wellFormed : f.map.WellFormed
  tree : f.map.TreeShaped
  start : f.map.bucket? (-1 - f.bucket.id) = some f.bucket
  no_empty : ∀ {b}, f.map.Has b → b.size ≠ 0
  in_range : ∀ {b e}, f.map.Has b → e ∈ b.items → 0 ≤ e →
    e < f.map.maxDevices ∧ e < f.weightMax
  full : ∀ e, 0x10000 ≤ f.weight e
  numrep : f.numrep = 1
  outSize : f.outSize = 1
  type : f.type = 0
  outpos : f.outpos = 0
  chooseArgs : f.chooseArgs = none

variable {f : FirstnInfo}

/-- A device that is drawn is a candidate. -/
theorem OneDevice.drawItem_device (hf : OneDevice f) {b : CrushBucket} {r : ℤ}
    (hb : f.map.Has b) (hnn : 0 ≤ chooseItem H f.x none b r 0) :
    drawItem H f b r 0 = .ok (.candidate (chooseItem H f.x none b r 0)) := by
  have hmem := chooseItem_mem H f.x none hf.wellFormed hb
    (hf.no_empty hb) r 0
  have hmax := (hf.in_range hb hmem hnn).1
  simp only [drawItem, hf.no_empty hb, hf.chooseArgs, not_le.mpr hmax, itemType, hf.type,
    not_lt.mpr hnn, if_false, ge_iff_le, Nat.cast_zero, ne_eq, not_true_eq_false]

/-- A bucket that is drawn is entered. -/
theorem OneDevice.drawItem_bucket (hf : OneDevice f) {b c : CrushBucket} {r : ℤ}
    (hb : f.map.Has b) (hmax : 0 < f.map.maxDevices) (hneg : chooseItem H f.x none b r 0 < 0)
    (hc : f.map.bucket? (-1 - chooseItem H f.x none b r 0) = some c) :
    drawItem H f b r 0 = .ok (.descend (chooseItem H f.x none b r 0) c) := by
  have hread := f.map.readBucket_ok.mpr hc
  have htype : ((c.type : ℤ) ≠ 0) := by
    have := hf.wellFormed.type_pos hc
    omega
  have hindex : -1 - chooseItem H f.x none b r 0 < f.map.maxBuckets := by
    obtain ⟨k, -, -, hk, -⟩ := CrushMap.bucket?_eq_some_iff.mp hc
    exact hk
  simp only [drawItem, hf.no_empty hb, hf.chooseArgs, itemType, hf.type, hneg, hread, htype,
    if_false, if_true, ge_iff_le, ne_eq, not_false_eq_true,
    show ¬ f.map.maxDevices ≤ chooseItem H f.x none b r 0 by omega,
    show ¬ (0 ≤ chooseItem H f.x none b r 0 ∨
      f.map.maxBuckets ≤ -1 - chooseItem H f.x none b r 0) by omega]

variable {self : Firstn} {parentR rep count : ℤ}

/-- A device drawn is accepted at once. -/
theorem OneDevice.attempt_device (hf : OneDevice f) (self : Firstn) (count : ℤ)
    {b : CrushBucket} (μ : Store) (hb : f.map.Has b)
    (hnn : 0 ≤ chooseItem H f.x none b (randomFactor rep parentR 0) 0) :
    ∃ μ', attempt H f self parentR rep 0 count (⟨b, 0, 0⟩, μ)
      = .ok (.exit (.accept (chooseItem H f.x none b (randomFactor rep parentR 0) 0), μ')) := by
  have hmem := chooseItem_mem H f.x none hf.wellFormed hb
    (hf.no_empty hb) (randomFactor rep parentR 0) 0
  -- All weights are full, so the device is not out.
  have hin : isOut H f.weight f.weightMax
      (chooseItem H f.x none b (randomFactor rep parentR 0) 0) f.x = false := by
    simp only [isOut, not_le.mpr (hf.in_range hb hmem hnn).2, ge_iff_le, hf.full, if_false,
      if_true]
  -- A device needs no leaf search.
  have hleaf : ∃ μ', findLeaf f self (randomFactor rep parentR 0) 0 count
      (chooseItem H f.x none b (randomFactor rep parentR 0) 0) (μ.visit b) = .ok (false, μ') := by
    unfold findLeaf
    split
    · exact ⟨_, if_neg (not_lt.mpr hnn)⟩
    · exact ⟨_, rfl⟩
  obtain ⟨μ', hleaf⟩ := hleaf
  refine ⟨μ', ?_⟩
  simp only [attempt, hf.drawItem_device hb hnn, collides, List.range_zero, List.any_nil, hleaf,
    hin, Bool.false_eq_true, if_false, Bool.and_false, Bool.or_false]

/-- A bucket drawn is entered. -/
theorem OneDevice.attempt_bucket (hf : OneDevice f) {b c : CrushBucket} (μ : Store)
    (hb : f.map.Has b) (hmax : 0 < f.map.maxDevices)
    (hneg : chooseItem H f.x none b (randomFactor rep parentR 0) 0 < 0)
    (hc : f.map.bucket? (-1 - chooseItem H f.x none b (randomFactor rep parentR 0) 0) = some c) :
    attempt H f self parentR rep 0 count (⟨b, 0, 0⟩, μ)
      = .ok (.again (⟨c, 0, 0⟩, μ.visit b)) := by
  simp only [attempt, hf.drawItem_bucket hb hmax hneg hc]

/-- **One search** is a descent from its current bucket. -/
theorem OneDevice.search (hf : OneDevice f) (count : ℤ) {b : CrushBucket} {e : ℤ}
    (hb : f.map.Has b)
    (h : Descends H f.map f.x (randomFactor rep parentR 0) b e) :
    ∃ n, ∀ self k μ, n ≤ k → ∃ μ',
      loop attemptTimeout (attempt H f self parentR rep 0 count) k (⟨b, 0, 0⟩, μ)
        = .ok (.accept e, μ') := by
  have hmax : 0 < f.map.maxDevices := by
    obtain ⟨hnn, -, b', hb', hmem⟩ := h.atOrBelow hf.wellFormed hf.no_empty hb
    have := (hf.in_range hb' hmem hnn).1
    omega
  -- One pass of the search for each bucket on the way down.
  induction h with
  | @device b hnn =>
    refine ⟨1, fun self k μ hk => ?_⟩
    obtain ⟨k, rfl⟩ := Nat.exists_eq_add_of_le' hk
    obtain ⟨μ', hpass⟩ := hf.attempt_device self count μ hb hnn
    exact ⟨μ', loop_exit hpass⟩
  | @bucket b c e hneg hc h ih =>
    obtain ⟨n, hn⟩ := ih ⟨_, hc⟩
    refine ⟨n + 1, fun self k μ hk => ?_⟩
    obtain ⟨k, rfl⟩ := Nat.exists_eq_add_of_le' (le_trans (Nat.le_add_left 1 n) hk)
    obtain ⟨μ', hloop⟩ := hn self k (μ.visit b) (by omega)
    exact ⟨μ', (loop_again (hf.attempt_bucket μ hb hmax hneg hc)).trans hloop⟩

/-- The random factor of the only search of a call. -/
def firstFactor (parentR : ℤ) : ℤ := randomFactor 0 parentR 0

/-- **One call** places the device its descent ends at. -/
theorem OneDevice.run (hf : OneDevice f) {e : ℤ}
    (h : Descends H f.map f.x (firstFactor parentR) f.bucket e) :
    ∃ n, ∀ fuel μ, n ≤ fuel → ∃ μ', crushChooseFirstn H fuel f parentR μ = .ok (1, μ') ∧
      μ'.cells f.out 0 = e := by
  have hrep : firstRep f = 0 := by simp [firstRep, hf.outpos]
  obtain ⟨n, hn⟩ := hf.search 1 ⟨_, hf.start⟩ h
  refine ⟨n + 3, fun fuel μ hfuel => ?_⟩
  obtain ⟨k, rfl⟩ : ∃ k, fuel = k + 2 + 1 := ⟨fuel - 3, by omega⟩
  obtain ⟨μ', hloop⟩ := hn (crushChooseFirstn H (k + 2)) (k + 2) μ (by omega)
  refine ⟨μ'.write f.out 0 e, ?_, Store.write_cells_self _ _ _ _⟩
  have hstart : Replicas.start f μ = ⟨0, 0, 1, μ⟩ := by
    simp only [Replicas.start, hrep, hf.outpos, hf.outSize]
  -- The first pass of the loop places `e`, the second one finds `count` used up.
  have hfirst : placeReplica H f (crushChooseFirstn H (k + 2)) (k + 2) parentR ⟨0, 0, 1, μ⟩
      = .ok (.again ⟨1, 1, 0, μ'.write f.out 0 e⟩) := by
    have hsearch : loop attemptTimeout (attempt H f (crushChooseFirstn H (k + 2)) parentR 0 0 1)
        (k + 2) (Search.start f, μ) = .ok (.accept e, μ') := hloop
    simp [placeReplica, hf.numrep, hsearch]
  have hlast : placeReplica H f (crushChooseFirstn H (k + 2)) (k + 2) parentR
      ⟨1, 1, 0, μ'.write f.out 0 e⟩ = .ok (.exit (1, μ'.write f.out 0 e)) := by
    simp [placeReplica]
  rw [crushChooseFirstn_succ, hstart, loop_again hfirst, loop_exit hlast]

/-- **Data movement is confined to the reweighted branch.** -/
theorem crushChooseFirstn_movement (H : CrushHash) (f : FirstnInfo) (m' : CrushMap)
    (root' : CrushBucket) (parentR d : ℤ) (hf : OneDevice f)
    (hf' : OneDevice { f with map := m', bucket := root' }) (hroot : root'.id = f.bucket.id)
    (hheavy : Heavier f.map m' d) (hpos : PositiveWeights f.map) (hpos' : PositiveWeights m') :
    ∃ e e' n,
      (∀ fuel μ, n ≤ fuel → ∃ μ', crushChooseFirstn H fuel f parentR μ = .ok (1, μ') ∧
        μ'.cells f.out 0 = e) ∧
      (∀ fuel μ, n ≤ fuel → ∃ μ', crushChooseFirstn H fuel
        { f with map := m', bucket := root' } parentR μ = .ok (1, μ') ∧ μ'.cells f.out 0 = e') ∧
      (e' = e ∨ ∃ c, f.map.AtOrBelow c d ∧ f.map.AtOrBelow c e' ∧ ¬ f.map.AtOrBelow c e) := by
  obtain ⟨e, he⟩ := exists_descends H f.x (firstFactor parentR) hf.wellFormed hf.tree.acyclic
    hf.no_empty ⟨_, hf.start⟩
  obtain ⟨e', he'⟩ := exists_descends H f.x (firstFactor parentR) hf'.wellFormed
    hf'.tree.acyclic hf'.no_empty ⟨_, hf'.start⟩
  obtain ⟨n, hn⟩ := hf.run he
  obtain ⟨n', hn'⟩ := hf'.run he'
  refine ⟨e, e', max n n', ?_, ?_, ?_⟩
  · intro fuel μ hfuel
    exact hn fuel μ (le_trans (le_max_left _ _) hfuel)
  · intro fuel μ hfuel
    exact hn' fuel μ (le_trans (le_max_right _ _) hfuel)
  apply Descends.related hf.wellFormed hf'.wellFormed hf.tree hf.no_empty hf'.no_empty hheavy hpos
    hpos' hf.start (hroot ▸ hf'.start) he he'

/-- The call for one device of the small map. -/
def smallOneInfo : FirstnInfo := { smallInfo with numrep := 1, outSize := 1 }

/-- The host `-3` with OSD 3 at weight 3.0. -/
def heavyHost : CrushBucket :=
  { smallHost (-3) 2 with weight := 0x40000, itemWeights := [0x10000, 0x30000] }

/-- The small map's root above `heavyHost`. -/
def heavyRoot : CrushBucket :=
  { smallRoot with weight := 0x60000, itemWeights := [0x20000, 0x40000] }

/-- The small map with OSD 3 at weight 3.0, in its host and up to the root. -/
def heavyMap : CrushMap :=
  { smallMap with buckets := [some heavyRoot, some (smallHost (-2) 0), some heavyHost] }

theorem heavyMap_bucket {i : ℤ} {b : CrushBucket} (h : heavyMap.bucket? i = some b) :
    i = 0 ∧ b = heavyRoot ∨ i = 1 ∧ b = smallHost (-2) 0 ∨ i = 2 ∧ b = heavyHost := by
  obtain ⟨k, hk, rfl, -, hb⟩ := CrushMap.bucket?_eq_some_iff.mp h
  have hk3 : k < 3 := hk
  obtain rfl | rfl | rfl : k = 0 ∨ k = 1 ∨ k = 2 := by omega
  all_goals
    cases hb
    simp

/-- OSD 3 is heavier, and so is all that holds it. -/
theorem heavier_heavyMap : Heavier smallMap heavyMap 3 := by
  have hhost : smallMap.AtOrBelow (-3) 3 := ReflTransGen.single ⟨smallHost (-3) 2, rfl, by decide⟩
  -- A weight is the same in both maps, or stands above OSD 3 and has grown.
  have hweight : ∀ {i b b'} {j : ℕ} {c : ℤ}, smallMap.bucket? i = some b →
      heavyMap.bucket? i = some b' → b.items[j]? = some c →
      b'.itemWeights.getD j 0 = b.itemWeights.getD j 0 ∨ smallMap.AtOrBelow c 3 ∧
        (b.itemWeights.getD j 0).toNat ≤ (b'.itemWeights.getD j 0).toNat := by
    intro i b b' j c hb hb' hc
    rcases smallMap_bucket hb with ⟨rfl, rfl⟩ | ⟨rfl, rfl⟩ | ⟨rfl, rfl⟩
    all_goals
      cases hb'
      rcases j with _ | _ | j
    · exact Or.inl rfl
    · cases hc; exact Or.inr ⟨hhost, by decide⟩
    · cases hc
    · exact Or.inl rfl
    · exact Or.inl rfl
    · cases hc
    · exact Or.inl rfl
    · cases hc; exact Or.inr ⟨ReflTransGen.refl, by decide⟩
    · cases hc
  constructor
  · intro i
    by_cases hi : 0 ≤ i ∧ i < 3
    · obtain rfl | rfl | rfl : i = 0 ∨ i = 1 ∨ i = 2 := by omega
      all_goals rfl
    · have hnone : smallMap.bucket? i = none := if_neg hi
      have hnone' : heavyMap.bucket? i = none := if_neg hi
      rw [hnone, hnone']
  · intro i b b' j c hb hb' hc _
    rcases hweight hb hb' hc with heq | ⟨-, hle⟩
    · exact le_of_eq (by rw [heq])
    · exact hle
  · intro i b b' j c hb hb' hc hnot
    rcases hweight hb hb' hc with heq | ⟨habove, -⟩
    · exact heq
    · exact absurd habove hnot

/-- The object goes to the same OSD as before, or to OSD 3. -/
theorem crushChooseFirstn_movement_heavyMap :
    ∃ e e' n,
      (∀ fuel μ, n ≤ fuel → ∃ μ', crushChooseFirstn rjenkins fuel smallOneInfo 0 μ = .ok (1, μ') ∧
        μ'.cells 1 0 = e) ∧
      (∀ fuel μ, n ≤ fuel → ∃ μ', crushChooseFirstn rjenkins fuel
        { smallOneInfo with map := heavyMap, bucket := heavyRoot } 0 μ = .ok (1, μ') ∧
          μ'.cells 1 0 = e') ∧
      (e' = e ∨ ∃ c, smallMap.AtOrBelow c 3 ∧ smallMap.AtOrBelow c e' ∧
        ¬ smallMap.AtOrBelow c e) := by
  refine crushChooseFirstn_movement rjenkins smallOneInfo heavyMap heavyRoot 0 3 ?_ ?_ rfl
    heavier_heavyMap ?_ ?_
  · refine ⟨smallMap_wellFormed, smallMap_treeShaped, rfl, ?_, ?_, fun _ => ?_, rfl, rfl, rfl, rfl,
      rfl⟩
    · rintro b ⟨i, hb⟩
      rcases smallMap_bucket hb with ⟨-, rfl⟩ | ⟨-, rfl⟩ | ⟨-, rfl⟩ <;> decide
    · rintro b e ⟨i, hb⟩ he -
      rcases smallMap_bucket hb with ⟨-, rfl⟩ | ⟨-, rfl⟩ | ⟨-, rfl⟩ <;> revert e <;> decide
    · exact UInt32.le_refl _
  · refine ⟨CrushMap.wellFormed_of_bucketOk (by decide), CrushMap.treeShaped_of_placesOk
      (CrushMap.acyclic_of_rankOk smallRank (by decide)) (by decide), rfl, ?_, ?_, fun _ => ?_,
      rfl, rfl, rfl, rfl, rfl⟩
    · rintro b ⟨i, hb⟩
      rcases heavyMap_bucket hb with ⟨-, rfl⟩ | ⟨-, rfl⟩ | ⟨-, rfl⟩ <;> decide
    · rintro b e ⟨i, hb⟩ he -
      rcases heavyMap_bucket hb with ⟨-, rfl⟩ | ⟨-, rfl⟩ | ⟨-, rfl⟩ <;> revert e <;> decide
    · exact UInt32.le_refl _
  · rintro b j ⟨i, hb⟩ hj
    rcases smallMap_bucket hb with ⟨-, rfl⟩ | ⟨-, rfl⟩ | ⟨-, rfl⟩ <;> revert j <;> decide
  · rintro b j ⟨i, hb⟩ hj
    rcases heavyMap_bucket hb with ⟨-, rfl⟩ | ⟨-, rfl⟩ | ⟨-, rfl⟩ <;> revert j <;> decide

end MyCeph.Crush
