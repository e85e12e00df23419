import MyCeph.Crush.Termination

namespace MyCeph.Crush

open Lib

/-!
# The window of a run

The positions a run can fill are those from `outpos` on, at most `out_size` of them and
one for each replica number.  `RunEvent` says so of everything a run writes, whether it
returns or not, and `leaf_event` that a leaf search writes to the one cell
`out2[outpos]`; this module states both for the memory (`WritesOnly`).

That the run returns at all needs the bound on the counters: when `local_retries` is the largest
unsigned integer, a collision is retried for ever (`window_fails_for_wrapping_counters`).
-/

variable {H : CrushHash} {f : FirstnInfo} {μ μ' : Store}

/-- From `μ` to `μ'` only cells are written of which `P` holds, and the others are
    unchanged. -/
def WritesOnly (P : ℕ → ℕ → Prop) (μ μ' : Store) : Prop :=
  (∃ new, μ'.log = new ++ μ.log ∧ ∀ a i v, Event.write a i v ∈ new → P a i) ∧
    ∀ a i, ¬ P a i → μ'.cells a i = μ.cells a i

/-- The writes of a run, from its events. -/
theorem Store.Ext.writesOnly {E : Event → Prop} {P : ℕ → ℕ → Prop} (h : Store.Ext E μ μ')
    (hE : ∀ a i v, E (.write a i v) → P a i) : WritesOnly P μ μ' := by
  refine ⟨?_, fun a i hnot => h.cells_eq fun v hv => hnot (hE a i v hv)⟩
  obtain ⟨new, hlog, hnew, -⟩ := h
  exact ⟨new, hlog, fun a i v hmem => hE a i v (hnew _ hmem)⟩

/-- The cells of `out` and `out2` at the positions of the window. -/
def InWindow (f : FirstnInfo) (a i : ℕ) : Prop :=
  (a = f.out ∨ a = f.out2) ∧ f.outpos ≤ i ∧ (i : ℤ) < f.outpos + f.outSize

/-- **A run writes inside its window**, whether it returns or stops short. -/
theorem crushChooseFirstn_writes (H : CrushHash) (fuel : ℕ) (f : FirstnInfo) (parentR : ℤ)
    (μ : Store) :
    WritesOnly (InWindow f) μ (storeLeft (crushChooseFirstn H fuel f parentR μ)) := by
  refine ((crushChooseFirstn_spec H fuel).ext f parentR μ).writesOnly ?_
  rintro a i v ⟨harr, hlo, hhi, -⟩
  refine ⟨?_, hlo, by omega⟩
  rcases harr with hout | ⟨-, hout2⟩
  · exact Or.inl hout
  · exact Or.inr hout2

/-- **A leaf search writes to one cell**, that of the caller's position. -/
theorem leafSearch_writes (H : CrushHash) (fuel : ℕ) (f : FirstnInfo) (b : CrushBucket)
    (outpos : ℕ) (count r : ℤ) (μ : Store) :
    WritesOnly (fun a i => a = f.out2 ∧ i = outpos) μ
      (storeLeft (crushChooseFirstn H fuel (leafInfo f b outpos count) r μ)) := by
  refine ((crushChooseFirstn_spec H fuel).ext (leafInfo f b outpos count) r μ).writesOnly ?_
  rintro a i v ⟨harr, hlo, hhi, -⟩
  rw [leafInfo_window] at hhi
  have hlo' : outpos ≤ i := hlo
  have hhi' : (i : ℤ) < outpos + min count 1 := hhi
  refine ⟨?_, by omega⟩
  -- The leaf search gets `out2` as its `out`, and looks for no leaves itself.
  rcases harr with hout | ⟨hrec, -⟩
  · exact hout
  · cases hrec

/-- **Output stays inside its window.**  A run that returns `p` has filled at most the window,
    nothing is written outside it at any time, and a leaf search adds at most one leaf, at the
    position it was called for.  The run does return unless the counters wrap. -/
theorem crushChooseFirstn_window (H : CrushHash) (f : FirstnInfo) (parentR : ℤ) (μ : Store)
    (hwf : f.map.WellFormed) (hacyclic : f.map.Acyclic) (hstart : f.map.Has f.bucket) :
    (CountersFit f → Returns H f parentR μ) ∧
    ∀ fuel,
      (∀ p μ', crushChooseFirstn H fuel f parentR μ = .ok (p, μ') →
        f.outpos ≤ p ∧
        (p : ℤ) ≤ f.outpos
          + max 0 (min f.outSize (f.numrep - if f.stable then 0 else (f.outpos : ℤ))) ∧
        ∀ j < f.outpos, μ'.cells f.out j = μ.cells f.out j ∧
          μ'.cells f.out2 j = μ.cells f.out2 j) ∧
      WritesOnly (InWindow f) μ (storeLeft (crushChooseFirstn H fuel f parentR μ)) ∧
      ∀ b outpos count r μ₁,
        (∀ p μ', crushChooseFirstn H fuel (leafInfo f b outpos count) r μ₁ = .ok (p, μ') →
          outpos ≤ p ∧ p ≤ outpos + 1) ∧
        WritesOnly (fun a i => a = f.out2 ∧ i = outpos) μ₁
          (storeLeft (crushChooseFirstn H fuel (leafInfo f b outpos count) r μ₁)) := by
  refine ⟨fun hfit => returns_of_fits hwf hacyclic hstart hfit parentR μ, fun fuel =>
    ⟨fun p μ' hrun => ?_, crushChooseFirstn_writes H fuel f parentR μ, fun b outpos count r μ₁ =>
      ⟨fun p μ' hrun => ?_, leafSearch_writes H fuel f b outpos count r μ₁⟩⟩⟩
  · have hspec := (crushChooseFirstn_spec H fuel).placement hrun
    exact ⟨hspec.le, hspec.le_window, fun j hj =>
      ⟨hspec.cells_eq f.out hj, hspec.cells_eq f.out2 hj⟩⟩
  · have hspec := (crushChooseFirstn_spec H fuel).placement hrun
    exact ⟨hspec.le, leaf_le hspec⟩

/-- `test` and `do_work4` on the small map: the three OSDs go to the three cells of `out`. -/
theorem crushChooseFirstn_window_smallInfo :
    ∃ μ', crushChooseFirstn rjenkins 60 smallInfo 0 zeroStore = .ok (3, μ') ∧
      WritesOnly (fun a i => a = 1 ∧ i < 3) zeroStore μ' := by
  obtain ⟨⟨p, μ'⟩, hrun, rfl⟩ := ok_of_toOption_map (g := Prod.fst) (y := 3)
    (x := crushChooseFirstn rjenkins 60 smallInfo 0 zeroStore) (by decide +kernel)
  obtain ⟨-, ⟨⟨new, hlog, hnew⟩, hcells⟩, -⟩ :=
    (crushChooseFirstn_window rjenkins smallInfo 0 zeroStore smallMap_wellFormed smallMap_acyclic
      ⟨0, rfl⟩).2 60
  rw [hrun] at hlog hcells
  have hwindow : ∀ a i, InWindow smallInfo a i ↔ a = 1 ∧ i < 3 := by
    intro a i
    show (a = 1 ∨ a = 1) ∧ 0 ≤ i ∧ (i : ℤ) < 0 + 3 ↔ _
    omega
  refine ⟨μ', hrun, ⟨new, hlog, fun a i v hmem => (hwindow a i).mp (hnew a i v hmem)⟩, ?_⟩
  exact fun a i hnot => hcells a i fun h => hnot ((hwindow a i).mp h)

/-! ### Counters that wrap -/

/-- A root over the one device 0. -/
def oneDeviceRoot : CrushBucket where
  id := -1
  type := 1
  hash := 0
  weight := 0x10000
  size := 1
  items := [0]
  itemWeights := [0x10000]

/-- The map of one device, with as many local retries as an unsigned integer can say. -/
def oneDeviceMap : CrushMap where
  buckets := [some oneDeviceRoot]
  maxBuckets := 1
  maxDevices := 1
  chooseLocalTries := 0xffffffff
  chooseLocalFallbackTries := 0
  chooseTotalTries := 50
  chooseleafVaryR := 1
  chooseleafStable := 1

/-- The parameters of `test` on this map: three OSDs, of which there is one. -/
def oneDeviceInfo : FirstnInfo := testInfo oneDeviceMap oneDeviceRoot (fun _ => 0x10000) 1 222 1

theorem oneDeviceMap_wellFormed : oneDeviceMap.WellFormed :=
  CrushMap.wellFormed_of_bucketOk (by decide)

theorem oneDeviceMap_acyclic : oneDeviceMap.Acyclic :=
  CrushMap.acyclic_of_rankOk (fun i => if i < 0 then 1 else 0) (by decide)

/-- Every draw gives the one device. -/
theorem oneDevice_drawItem (H : CrushHash) (r : ℤ) (position : ℕ) :
    drawItem H oneDeviceInfo oneDeviceRoot r position = .ok (.candidate 0) := by
  have hmem := chooseItem_mem H oneDeviceInfo.x oneDeviceInfo.chooseArgs oneDeviceMap_wellFormed
    (b := oneDeviceRoot) ⟨0, rfl⟩ (by decide) r position
  have hitem : chooseItem H oneDeviceInfo.x oneDeviceInfo.chooseArgs oneDeviceRoot r position = 0 :=
    List.mem_singleton.mp hmem
  unfold drawItem
  rw [if_neg (by decide)]
  dsimp only
  rw [hitem]
  rfl

/-- A search for a second replica: device 0 is placed already. -/
structure Colliding (outpos : ℕ) (st : Search × Store) : Prop where
  cur : st.1.cur = oneDeviceRoot
  placed : st.2.cells 1 0 = 0
  pos : 0 < outpos

/-- **Step lemma.**  The draw collides, and whatever `flocal` is, it is not above
    `local_retries`. -/
theorem Colliding.step (H : CrushHash) (self : Firstn) (parentR rep count : ℤ) {outpos : ℕ}
    (st : Search × Store) (h : Colliding outpos st) :
    ∃ st', attempt H oneDeviceInfo self parentR rep outpos count st = .ok (.again st') ∧
      Colliding outpos st' := by
  obtain ⟨hcur, hplaced, hpos⟩ := h
  have hcollides : collides (st.2.visit oneDeviceRoot) oneDeviceInfo.out outpos 0 = true :=
    List.any_eq_true.mpr ⟨0, List.mem_range.mpr hpos, beq_iff_eq.mpr hplaced⟩
  have hretry : st.1.rejected oneDeviceInfo true
      = some ⟨oneDeviceRoot, st.1.ftotal + 1, st.1.flocal + 1⟩ := by
    have hle : st.1.flocal + 1 ≤ oneDeviceInfo.localRetries := by
      rw [UInt32.le_iff_toNat_le]
      show _ ≤ 0xffffffff
      have := (st.1.flocal + 1).toNat_lt
      omega
    unfold Search.rejected retryKind
    dsimp only
    rw [if_pos ⟨rfl, hle⟩, hcur]
  refine ⟨(⟨oneDeviceRoot, st.1.ftotal + 1, st.1.flocal + 1⟩, st.2.visit oneDeviceRoot), ?_, rfl,
    hplaced, hpos⟩
  unfold attempt
  dsimp only
  rw [hcur, oneDevice_drawItem]
  simp only [hcollides, if_true, reject, hretry]

/-- The first replica goes to device 0. -/
theorem oneDevice_first (H : CrushHash) (self : Firstn) (parentR rep count : ℤ) (n : ℕ)
    (μ : Store) :
    loop attemptTimeout (attempt H oneDeviceInfo self parentR rep 0 count) (n + 1)
      (Search.start oneDeviceInfo, μ)
      = .ok (.accept 0, (μ.visit oneDeviceRoot).write 1 0 0) := by
  apply loop_exit
  unfold attempt
  dsimp only
  rw [show (Search.start oneDeviceInfo).cur = oneDeviceRoot from rfl, oneDevice_drawItem]
  rfl

/-- The search for the second replica uses up its fuel. -/
theorem oneDevice_second (H : CrushHash) (self : Firstn) (parentR rep count : ℤ) (n : ℕ) {μ : Store}
    (hplaced : μ.cells 1 0 = 0) :
    ∃ μ', loop attemptTimeout (attempt H oneDeviceInfo self parentR rep 1 count) n
      (Search.start oneDeviceInfo, μ) = .error ⟨.timeout, μ'⟩ := by
  obtain ⟨st, -, hsearch⟩ := loop_diverges (t := attemptTimeout) (Colliding 1)
    (Colliding.step H self parentR rep count) n (s := (Search.start oneDeviceInfo, μ))
    ⟨rfl, hplaced, Nat.one_pos⟩
  exact ⟨st.2, hsearch⟩

/-- **The call need not return.**  On the well-formed acyclic map of one device, with
    `local_retries` at its largest, the second replica of `test` is searched for ever: the run
    uses up every amount of fuel. -/
theorem window_fails_for_wrapping_counters :
    oneDeviceInfo.map.WellFormed ∧ oneDeviceInfo.map.Acyclic ∧
      oneDeviceInfo.map.Has oneDeviceInfo.bucket ∧
      ∀ fuel, ∃ μ', crushChooseFirstn rjenkins fuel oneDeviceInfo 0 zeroStore
        = .error ⟨.timeout, μ'⟩ := by
  refine ⟨oneDeviceMap_wellFormed, oneDeviceMap_acyclic, ⟨0, rfl⟩, fun fuel => ?_⟩
  match fuel with
  | 0 => exact ⟨_, rfl⟩
  | 1 => exact ⟨_, rfl⟩
  | n + 2 =>
    rw [crushChooseFirstn_succ]
    -- The pass for the first replica, and then the one for the second, which does not end.
    have hfirst : placeReplica rjenkins oneDeviceInfo (crushChooseFirstn rjenkins (n + 1)) (n + 1) 0
        (Replicas.start oneDeviceInfo zeroStore)
        = .ok (.again ⟨1, 1, 2, ((zeroStore.visit oneDeviceRoot).write 1 0 0).write 1 0 0⟩) := by
      unfold placeReplica
      rw [if_pos (by decide), show (Replicas.start oneDeviceInfo zeroStore).outpos = 0 from rfl,
        show (Replicas.start oneDeviceInfo zeroStore).μ = zeroStore from rfl, oneDevice_first]
      rfl
    obtain ⟨μ', hsecond⟩ := oneDevice_second rjenkins (crushChooseFirstn rjenkins (n + 1)) 0 1 2
      (n + 1) (μ := ((zeroStore.visit oneDeviceRoot).write 1 0 0).write 1 0 0) rfl
    rw [loop_again hfirst]
    cases n with
    | zero => exact ⟨_, rfl⟩
    | succ n =>
      refine ⟨μ', ?_⟩
      unfold loop placeReplica
      rw [if_pos (by decide)]
      dsimp only
      rw [hsecond]

end MyCeph.Crush
