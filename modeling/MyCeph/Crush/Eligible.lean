import MyCeph.Crush.FirstnSpec

namespace MyCeph.Crush

open Lib Relation

/-!
# Only eligible items are placed

On a well-formed map the buckets a search visits hang together by items links, so what
it draws is found below the start bucket (`Drawn.reaches`).  Together with the
acceptance facts of `Placed` this says of every position a run fills that the item
there is reachable, of the requested type, a known device, and in service; and the same
of its leaf.
-/

/-- The device is in service for `x`: it has an entry in the reweight table, that entry is
    not 0, and either full or above the 16 hash bits of the overload test. -/
structure InService (H : CrushHash) (weight : ℤ → UInt32) (weightMax item x : ℤ) : Prop where
  lt_weightMax : item < weightMax
  weight_ne_zero : weight item ≠ 0
  passes : 0x10000 ≤ weight item ∨
    H.crushHash32_2 crushHashRjenkins1 (UInt32.ofInt x) (UInt32.ofInt item) &&& 0xffff
      < weight item

/-- `is_out` is the test that an OSD is in service. -/
theorem isOut_eq_false_iff (H : CrushHash) (weight : ℤ → UInt32) (weightMax item x : ℤ) :
    isOut H weight weightMax item x = false ↔ InService H weight weightMax item x := by
  unfold isOut
  constructor
  · intro h
    split at h
    · simp at h
    -- Behind the bound: full weight, no weight, and the test with the hash.
    rename_i hmax
    split at h
    · rename_i hfull
      refine ⟨by omega, ?_, Or.inl hfull⟩
      intro h0
      rw [h0] at hfull
      revert hfull; decide
    split at h
    · simp at h
    rename_i hne
    split at h
    · rename_i hlt
      exact ⟨by omega, hne, Or.inr hlt⟩
    · simp at h
  · rintro ⟨hmax, hne, hpass⟩
    rw [if_neg (by omega)]
    rcases hpass with hfull | hlt
    · rw [if_pos hfull]
    · rw [if_neg hne, if_pos hlt, ite_self]

/-! ### What is drawn is reachable -/

variable {H : CrushHash} {m : CrushMap} {x : ℤ} {args : Option (ℤ → CrushChooseArg)}

/-- The item drawn from a bucket of a well-formed map is one of its items. -/
theorem chooseItem_mem (H : CrushHash) (x : ℤ) (args : Option (ℤ → CrushChooseArg))
    (hwf : m.WellFormed) {b : CrushBucket} (hb : m.Has b) (hsize : b.size ≠ 0) (r : ℤ)
    (position : ℕ) : chooseItem H x args b r position ∈ b.items := by
  obtain ⟨i, hi⟩ := hb
  exact bucketStraw2Choose_mem H x r _ position hsize (hwf.items_length hi)

/-- A descent stays among the buckets of the map, below its start. -/
theorem Visits.has (hwf : m.WellFormed) {start b : CrushBucket} (hstart : m.Has start)
    (h : Visits H m x args start b) : m.Has b ∧ m.AtOrBelow start.id b.id := by
  induction h with
  | start => exact ⟨hstart, ReflTransGen.refl⟩
  | child r position _ hsize hneg hc ih =>
    refine ⟨⟨_, hc⟩, ih.2.tail ?_⟩
    rw [hwf.id_of_bucket hc]
    exact hwf.link_of_mem ih.1 (chooseItem_mem H x args hwf ih.1 hsize r position)

/-- What is drawn on the way is found below the start. -/
theorem Drawn.reaches (hwf : m.WellFormed) {start : CrushBucket} {item : ℤ}
    (hstart : m.Has start) (h : Drawn H m x args start item) : m.Reaches start.id item := by
  obtain ⟨b, r, position, hb, hsize, rfl⟩ := h
  obtain ⟨hhas, hbelow⟩ := hb.has hwf hstart
  exact TransGen.tail' hbelow
    (hwf.link_of_mem hhas (chooseItem_mem H x args hwf hhas hsize r position))

/-! ### The result -/

/-- What holds of position `i` of a run's result. -/
structure Eligible (H : CrushHash) (f : FirstnInfo) (μ : Store) (i : ℕ) : Prop where
  reaches : f.map.Reaches f.bucket.id (μ.cells f.out i)
  ofType : OfType f.map (μ.cells f.out i) f.type
  lt_maxDevices : μ.cells f.out i < f.map.maxDevices
  in_service : f.type = 0 → isOut H f.weight f.weightMax (μ.cells f.out i) f.x = false ∧
    InService H f.weight f.weightMax (μ.cells f.out i) f.x
  leaf : 0 < f.type → f.recurseToLeaf = true → f.out2 ≠ f.out →
    0 ≤ μ.cells f.out2 i ∧ f.map.Reaches (μ.cells f.out i) (μ.cells f.out2 i) ∧
      isOut H f.weight f.weightMax (μ.cells f.out2 i) f.x = false ∧
      InService H f.weight f.weightMax (μ.cells f.out2 i) f.x

/-- What the run has placed is eligible. -/
theorem Placed.eligible {f : FirstnInfo} {μ : Store} {i : ℕ} (hwf : f.map.WellFormed)
    (hstart : f.map.Has f.bucket) (h : Placed H f μ i) : Eligible H f μ i := by
  refine ⟨h.chosen.drawn.reaches hwf hstart, h.chosen.ofType, h.chosen.lt_maxDevices,
    fun htype => ⟨h.chosen.not_isOut htype, (isOut_eq_false_iff ..).mp (h.chosen.not_isOut htype)⟩,
    fun htype hrec hne => ?_⟩
  have hneg : μ.cells f.out i < 0 := h.chosen.ofType.neg (by omega)
  obtain ⟨c, count, hc, hleaf⟩ := (h.leaf hne).bucket hrec hneg
  have hin := hleaf.not_isOut rfl
  have hreach := hleaf.drawn.reaches hwf ⟨_, hc⟩
  have hdev : 0 ≤ μ.cells f.out2 i := OfType.device hwf hleaf.ofType
  refine ⟨hdev, ?_, hin, (isOut_eq_false_iff ..).mp hin⟩
  have hid : c.id = μ.cells f.out i := hwf.id_of_bucket hc
  exact hid ▸ hreach

/-- **Only eligible items are placed.** -/
theorem crushChooseFirstn_eligible (H : CrushHash) (fuel : ℕ) (f : FirstnInfo) (parentR : ℤ)
    (μ μ' : Store) (p : ℕ) (hwf : f.map.WellFormed) (hstart : f.map.Has f.bucket)
    (hrun : crushChooseFirstn H fuel f parentR μ = .ok (p, μ')) :
    ∀ i, f.outpos ≤ i → i < p → Eligible H f μ' i := fun i hlo hhi =>
  (((crushChooseFirstn_spec H fuel).placement hrun).placed i hlo hhi).eligible hwf hstart

/-- Two hosts of the small map with a leaf each, OSD 3 being out. -/
theorem crushChooseFirstn_eligible_smallHosts :
    ∃ μ', crushChooseFirstn rjenkins 60
        { smallInfo with
          type := 1, numrep := 2, outSize := 2, out2 := 2
          weight := fun d => if d = 3 then 0 else 0x10000 } 0 zeroStore = .ok (2, μ') ∧
      smallMap.Reaches (-1) (μ'.cells 1 1) ∧ smallMap.Reaches (μ'.cells 1 1) (μ'.cells 2 1) := by
  obtain ⟨⟨p, μ'⟩, hrun, rfl⟩ := ok_of_toOption_map (g := Prod.fst) (y := 2)
    (x := crushChooseFirstn rjenkins 60
      { smallInfo with
        type := 1, numrep := 2, outSize := 2, out2 := 2
        weight := fun d => if d = 3 then 0 else 0x10000 } 0 zeroStore) (by decide +kernel)
  have h := crushChooseFirstn_eligible rjenkins 60 _ 0 zeroStore μ' 2 smallMap_wellFormed
    ⟨0, rfl⟩ hrun 1 (Nat.zero_le 1) (by decide)
  exact ⟨μ', hrun, h.reaches, (h.leaf (by decide) rfl (by decide)).2.1⟩

end MyCeph.Crush
