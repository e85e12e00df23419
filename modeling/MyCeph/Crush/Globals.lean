import MyCeph.Crush.InOrder
import MyCeph.Crush.Separation

namespace MyCeph.Crush

open Lib

/-!
# What the workers read from the globals

The overload test of a worker reads the global `weight_max` next to `firstn->weight`, and
its leaf search reads the global `weight` and `weight_max`.  All that a test can see of a
table and its bound is the `effective` reweight of the device (`isOut_eq`).

So the workers give the same result under two contents of the globals if these show each
test the same effective reweights (`callWorks_globals`).  If they differ in one that a test
can see, there is a map and a hash function that tell them apart (`splitInfo` for
devices, `hostInfo` for leaves): `callWorks_globals_iff`.
-/

/-! ### Effective reweights -/

/-- The reweight of a device as the overload test sees it. -/
def effective (weight : ℤ → UInt32) (weightMax item : ℤ) : UInt32 :=
  if item ≥ weightMax then 0
  else if weight item ≥ 0x10000 then 0x10000
  else weight item

/-- Reweights above 1.0 count as 1.0. -/
theorem effective_le (weight : ℤ → UInt32) (weightMax item : ℤ) :
    effective weight weightMax item ≤ 0x10000 := by
  unfold effective
  split
  · decide
  split
  · exact UInt32.le_refl _
  · rename_i hlt
    exact UInt32.le_of_lt (UInt32.not_le.mp hlt)

/-- The 16 hash bits that the overload test compares. -/
def overloadBits (H : CrushHash) (item x : ℤ) : UInt32 :=
  H.crushHash32_2 crushHashRjenkins1 (UInt32.ofInt x) (UInt32.ofInt item) &&& 0xffff

/-- The test compares 16 bits of the hash. -/
theorem overloadBits_lt (H : CrushHash) (item x : ℤ) : overloadBits H item x < 0x10000 := by
  unfold overloadBits
  rw [UInt32.lt_iff_toNat_lt, UInt32.toNat_and]
  exact lt_of_le_of_lt Nat.and_le_right (by decide)

/-- **The overload test** compares 16 hash bits with the effective reweight. -/
theorem isOut_eq (H : CrushHash) (weight : ℤ → UInt32) (weightMax item x : ℤ) :
    isOut H weight weightMax item x
      = !decide (overloadBits H item x < effective weight weightMax item) := by
  unfold isOut effective
  -- The tests of `is_out` in its order: no such device, full weight, no weight, the hash.
  by_cases hmax : item ≥ weightMax
  · rw [if_pos hmax, if_pos hmax]
    simp
  rw [if_neg hmax, if_neg hmax]
  by_cases hfull : weight item ≥ 0x10000
  · rw [if_pos hfull, if_pos hfull, decide_eq_true (overloadBits_lt H item x)]
    rfl
  rw [if_neg hfull, if_neg hfull]
  by_cases hzero : weight item = 0
  · rw [if_pos hzero, hzero]
    simp
  rw [if_neg hzero]
  show (if overloadBits H item x < weight item then false else true) = _
  split
  · rename_i hlt
    rw [decide_eq_true hlt]
    rfl
  · rename_i hge
    rw [decide_eq_false hge]
    rfl

/-- `is_out` sees the effective reweight only. -/
theorem isOut_congr {weight weight' : ℤ → UInt32} {weightMax weightMax' item : ℤ}
    (h : effective weight weightMax item = effective weight' weightMax' item) (H : CrushHash)
    (x : ℤ) : isOut H weight weightMax item x = isOut H weight' weightMax' item x := by
  rw [isOut_eq, isOut_eq, h]

/-- The globals `g` and `g'` show the same reweights to the tests of a call that places items of
    type `type` with the table `weight`: the workers' own tests when devices are placed, those of
    the leaf search when leaves are looked for. -/
structure SameReweights (weight : ℤ → UInt32) (type : ℤ) (recurseToLeaf : Bool) (g g' : Globals) :
    Prop where
  device : type = 0 → ∀ d, 0 ≤ d → effective weight g.weightMax d = effective weight g'.weightMax d
  leaf : 0 < type → recurseToLeaf = true → ∀ d, 0 ≤ d →
    effective g.weight g.weightMax d = effective g'.weight g'.weightMax d

/-! ### Two runs -/

/-- The leaf search as it reads the globals `g`. -/
def Pc.under (g : Globals) : Pc → Pc
  | .leaf c => .leaf { c with info := { c.info with weight := g.weight, weightMax := g.weightMax } }
  | pc => pc

/-- The worker as it reads the globals `g`. -/
def Worker.under (g : Globals) (w : Worker) : Worker := { w with pc := w.pc.under g }

/-- A call of the leaf search with the parameters a worker hands on. -/
structure LeafOf (f : FirstnInfo) (g : Globals) (c : LeafCall) : Prop where
  map : c.info.map = f.map
  type : c.info.type = 0
  recurseToLeaf : c.info.recurseToLeaf = false
  weight : c.info.weight = g.weight
  weightMax : c.info.weightMax = g.weightMax

/-- What a worker under the globals `g` knows when its steps read them. -/
def Told (g : Globals) (f : FirstnInfo) (w : Worker) : Prop :=
  match w.pc with
  | .scan | .writeOut2 | .test => OfType f.map w.item f.type
  | .callLeaf | .leafReturn _ => OfType f.map w.item f.type ∧ 0 < f.type ∧ f.recurseToLeaf = true
  | .leaf c => (OfType f.map w.item f.type ∧ 0 < f.type ∧ f.recurseToLeaf = true) ∧ LeafOf f g c
  | _ => True

variable {H : CrushHash} {f : FirstnInfo} {g g' : Globals} {sh sh' : Shared} {w w' : Worker}

/-- The code at `reject:` does not look at the globals. -/
theorem Worker.under_reject (w : Worker) (collide : Bool) :
    (w.under g).reject f collide = (w.reject f collide).under g := by
  unfold Worker.reject
  rw [show (w.under g).search = w.search from rfl]
  cases w.search.rejected f collide <;> rfl

/-- Behind `reject:` no leaf search is running. -/
theorem told_reject (w : Worker) (collide : Bool) : Told g f (w.reject f collide) := by
  unfold Worker.reject
  cases w.search.rejected f collide <;> trivial

/-- A search for a leaf that is a device only sees effective reweights. -/
theorem attempt_effective {f : FirstnInfo} (hwf : f.map.WellFormed) (htype : f.type = 0)
    (hrec : f.recurseToLeaf = false) {weight' : ℤ → UInt32} {weightMax' : ℤ}
    (heff : ∀ d, 0 ≤ d → effective f.weight f.weightMax d = effective weight' weightMax' d)
    {self : Firstn} {parentR rep : ℤ} {outpos : ℕ} {count : ℤ} (st : Search × Store) :
    attempt H { f with weight := weight', weightMax := weightMax' } self parentR rep outpos count st
      = attempt H f self parentR rep outpos count st := by
  -- The draw does not read the weights.
  have hunder : drawItem H { f with weight := weight', weightMax := weightMax' } st.1.cur
      (randomFactor rep parentR st.1.ftotal) outpos
      = drawItem H f st.1.cur (randomFactor rep parentR st.1.ftotal) outpos := rfl
  unfold attempt
  dsimp only
  rw [hunder]
  cases hdraw : drawItem H f st.1.cur (randomFactor rep parentR st.1.ftotal) outpos with
  | error e => rfl
  | ok d =>
    cases d with
    | empty => rfl
    | skip item => rfl
    | descend item b => rfl
    | candidate item =>
      -- Only a device is tested for overload, and there the effective weights agree.
      have hdev : 0 ≤ item := OfType.device hwf (htype ▸ (drawItem_candidate hdraw).2.2.2)
      have hout := isOut_congr (heff item hdev) H f.x
      simp only [findLeaf, hrec, Bool.false_eq_true, if_false, hout]
      rfl

/-- A step of the leaf search is the same under globals that show the same reweights. -/
theorem leafStep_under (hwf : f.map.WellFormed) {c : LeafCall} (hc : LeafOf f g c)
    (heff : ∀ d, 0 ≤ d → effective g.weight g.weightMax d = effective g'.weight g'.weightMax d)
    (μ : Store) :
    leafStep H { c with info := { c.info with weight := g'.weight, weightMax := g'.weightMax } } μ
      = (leafStep H c μ).map fun nx => nx.map
          (fun st => ({ st.1 with
            info := { st.1.info with weight := g'.weight, weightMax := g'.weightMax } }, st.2))
          id := by
  -- A leaf search selects devices, so its tests are those of the lemma before.
  have hattempt : ∀ s,
      attempt H { c.info with weight := g'.weight, weightMax := g'.weightMax } noLeaf c.parentR
        c.rep c.outpos c.count (s, μ)
      = attempt H c.info noLeaf c.parentR c.rep c.outpos c.count (s, μ) := by
    intro s
    refine attempt_effective (hc.map ▸ hwf) hc.type hc.recurseToLeaf (fun d hd => ?_) (s, μ)
    rw [hc.weight, hc.weightMax]
    exact heff d hd
  unfold leafStep
  cases c.search with
  | none =>
    dsimp only
    split <;> rfl
  | some s =>
    dsimp only
    rw [hattempt]
    rcases attempt H c.info noLeaf c.parentR c.rep c.outpos c.count (s, μ) with
      e | ⟨⟨s', μ'⟩ | ⟨_ | item, μ'⟩⟩ <;> rfl

/-- A step of the leaf search leaves its parameters alone. -/
theorem leafStep_info {c c' : LeafCall} {μ μ' : Store}
    (h : leafStep H c μ = .ok (.again (c', μ'))) : c'.info = c.info := by
  unfold leafStep at h
  split at h
  · split at h
    · cases h; rfl
    · simp at h
  · split at h
    · simp at h
    all_goals
      cases h
      rfl

/-- **One step under two contents of the globals.** -/
theorem doWork_under (hwf : f.map.WellFormed)
    (hsame : SameReweights f.weight f.type f.recurseToLeaf g g') {parentR : ℤ} {outpos : ℕ}
    (h : Told g f w) :
    doWork H g' f parentR outpos sh (w.under g')
      = (doWork H g f parentR outpos sh w).map fun st => (st.1, st.2.under g') := by
  obtain ⟨pc, rep, search, item, skipRep⟩ := w
  unfold Told at h
  cases pc with
  | start | done | fault | publish | writeOut2 => rfl
  | draw =>
    have hrej := (Worker.under_reject (f := f) (g := g') ⟨.draw, rep, search, item, skipRep⟩ false)
    simp only [doWork, Worker.under, Pc.under] at hrej ⊢
    rcases drawItem H f search.cur (randomFactor rep parentR search.ftotal) sh.outpos with
      e | ⟨_ | item | ⟨item, b⟩ | item⟩
    · rfl
    · exact congrArg (fun w => some (sh.visit search.cur, w)) hrej
    · rfl
    · rfl
    · rfl
  | scan =>
    have hrej := (Worker.under_reject (f := f) (g := g') ⟨.scan, rep, search, item, skipRep⟩ true)
    by_cases hcol : collides sh.μ f.out outpos item = true
    · simp only [doWork, Worker.under, Pc.under, hcol, if_true] at hrej ⊢
      exact congrArg (fun w => some (sh, w)) hrej
    · simp only [doWork, Worker.under, Pc.under, hcol, if_false, Bool.false_eq_true]
      by_cases hrec : f.recurseToLeaf = true
      · by_cases hneg : item < 0
        · simp only [hrec, hneg, if_true]
          rfl
        · simp only [hrec, hneg, if_true, if_false]
          rfl
      · simp only [hrec, if_false, Bool.false_eq_true]
        rfl
  | callLeaf =>
    simp only [doWork, Worker.under, Pc.under]
    cases f.map.readBucket (-1 - item) <;> rfl
  | leaf c =>
    obtain ⟨⟨-, hpos, hrec⟩, hc⟩ := h
    simp only [doWork, Worker.under, Pc.under, leafStep_under hwf hc (hsame.leaf hpos hrec)]
    rcases leafStep H c sh.μ with e | ⟨⟨c', μ'⟩ | ⟨p, μ'⟩⟩ <;> rfl
  | leafReturn p =>
    have hrej := (Worker.under_reject (f := f) (g := g') ⟨.leafReturn p, rep, search, item, skipRep⟩
      false)
    by_cases hp : p ≤ sh.outpos
    · simp only [doWork, Worker.under, Pc.under, hp, if_true] at hrej ⊢
      exact congrArg (fun w => some (sh, w)) hrej
    · simp only [doWork, Worker.under, Pc.under, hp, if_false]
      rfl
  | test =>
    have hrej := (Worker.under_reject (f := f) (g := g') ⟨.test, rep, search, item, skipRep⟩ false)
    -- When devices are placed the item is one, and both bounds give the same verdict.
    have htest : (f.type == 0 && isOut H f.weight g'.weightMax item f.x)
        = (f.type == 0 && isOut H f.weight g.weightMax item f.x) := by
      by_cases htype : f.type = 0
      · have hdev : 0 ≤ item := OfType.device hwf (htype ▸ h)
        rw [isOut_congr (hsame.device htype item hdev)]
      · rw [beq_false_of_ne htype, Bool.false_and, Bool.false_and]
    by_cases hout : (f.type == 0 && isOut H f.weight g.weightMax item f.x) = true
    · simp only [doWork, Worker.under, Pc.under, htest, hout, if_true] at hrej ⊢
      exact congrArg (fun w => some (sh, w)) hrej
    · simp only [doWork, Worker.under, Pc.under, htest, hout, if_false, Bool.false_eq_true]
      rfl

/-- **What a worker knows it knows after a step.** -/
theorem Told.step {parentR : ℤ} {outpos : ℕ} (hwf : f.map.WellFormed) (h : Told g f w)
    (hstep : doWork H g f parentR outpos sh w = some (sh', w')) : Told g f w' := by
  obtain ⟨pc, rep, search, item, skipRep⟩ := w
  unfold Told at h
  cases pc with
  | start => cases hstep; trivial
  | done | fault => simp [doWork] at hstep
  | publish => cases hstep; trivial
  | writeOut2 => cases hstep; exact h
  | draw =>
    simp only [doWork] at hstep
    cases hdraw : drawItem H f search.cur (randomFactor rep parentR search.ftotal) sh.outpos with
    | error e => rw [hdraw] at hstep; cases hstep; trivial
    | ok d =>
      rw [hdraw] at hstep
      cases d with
      | empty => cases hstep; exact told_reject _ _
      | skip item => cases hstep; trivial
      | descend item b => cases hstep; trivial
      | candidate item => cases hstep; exact (drawItem_candidate hdraw).2.2.2
  | scan =>
    simp only [doWork] at hstep
    split at hstep
    · cases hstep; exact told_reject _ _
    split at hstep
    · rename_i hrec
      split at hstep
      · -- An item below 0 is of a type above 0.
        rename_i hneg
        cases hstep
        exact ⟨h, OfType.pos hwf h hneg, hrec⟩
      · cases hstep; exact h
    · cases hstep; exact h
  | callLeaf =>
    simp only [doWork] at hstep
    split at hstep
    · cases hstep; trivial
    · cases hstep
      exact ⟨h, rfl, rfl, rfl, rfl, rfl⟩
  | leaf c =>
    simp only [doWork] at hstep
    split at hstep
    · cases hstep; trivial
    · rename_i c' μ hleaf
      cases hstep
      have hinfo := leafStep_info hleaf
      obtain ⟨hitem, hc⟩ := h
      exact ⟨hitem, hinfo ▸ hc.map, hinfo ▸ hc.type, hinfo ▸ hc.recurseToLeaf, hinfo ▸ hc.weight,
        hinfo ▸ hc.weightMax⟩
    · cases hstep
      exact h.1
  | leafReturn p =>
    simp only [doWork] at hstep
    split at hstep
    · cases hstep; exact told_reject _ _
    · cases hstep; exact h.1
  | test =>
    simp only [doWork] at hstep
    split at hstep
    · cases hstep; exact told_reject _ _
    · cases hstep; trivial

/-- A worker's call under two contents of the globals. -/
theorem callWork_under (hwf : f.map.WellFormed)
    (hsame : SameReweights f.weight f.type f.recurseToLeaf g g') {k : Fin 3} (n : ℕ)
    (h : Told g f w) : callWork H g' f k n sh (w.under g') = callWork H g f k n sh w := by
  induction n generalizing sh w with
  | zero => rfl
  | succ n ih =>
    unfold callWork
    rw [work_eq, work_eq, doWork_under hwf hsame h]
    cases hstep : doWork H g f k k sh w with
    | some st => exact ih (h.step hwf hstep)
    | none =>
      obtain ⟨pc, rep, search, item, skipRep⟩ := w
      cases pc <;> rfl

/-- **The globals do not show** in the result of the workers, if they show every test the same
    effective reweights. -/
theorem callWorks_globals (hwf : f.map.WellFormed)
    (hsame : SameReweights f.weight f.type f.recurseToLeaf g g') (fuel : ℕ) (sh : Shared) :
    callWorks H g' f fuel sh = callWorks H g f fuel sh := by
  have hcall : ∀ (k : Fin 3) sh, callWork H g' f k fuel sh (Worker.init f)
      = callWork H g f k fuel sh (Worker.init f) := fun k sh =>
    callWork_under (w := Worker.init f) hwf hsame fuel trivial
  unfold callWorks
  simp only [hcall]

/-! ### What the workers leave -/

/-- The workers called one after the other return, and leave this `outpos`, `out` and `out2`. -/
def Leaves (H : CrushHash) (g : Globals) (f : FirstnInfo) (sh : Shared)
    (r : ℕ × (ℕ → ℤ) × (ℕ → ℤ)) : Prop :=
  ∃ n sh', (∀ fuel, n ≤ fuel → callWorks H g f fuel sh = .ok sh') ∧
    r = (sh'.outpos, sh'.μ.cells f.out, sh'.μ.cells f.out2)

/-- The workers in turn leave one result. -/
theorem Leaves.unique {r r' : ℕ × (ℕ → ℤ) × (ℕ → ℤ)} (h : Leaves H g f sh r)
    (h' : Leaves H g f sh r') : r = r' := by
  obtain ⟨n, sh₁, hn, rfl⟩ := h
  obtain ⟨n', sh₂, hn', rfl⟩ := h'
  have hsame := (hn (max n n') (le_max_left _ _)).symm.trans (hn' (max n n') (le_max_right _ _))
  cases hsame
  rfl

/-- A draw at or above `max_devices` is skipped. -/
theorem drawItem_beyond {cur : CrushBucket} {r : ℤ} {position : ℕ} {item : ℤ} (hsize : cur.size ≠ 0)
    (hitem : chooseItem H f.x f.chooseArgs cur r position = item) (hmax : f.map.maxDevices ≤ item) :
    drawItem H f cur r position = .ok (.skip item) := by
  unfold drawItem
  rw [if_neg hsize, hitem]
  exact if_pos hmax

/-- A draw of the wanted type is a candidate. -/
theorem drawItem_ofType {cur : CrushBucket} {r : ℤ} {position : ℕ} {item : ℤ} {t : ℕ}
    (hsize : cur.size ≠ 0) (hitem : chooseItem H f.x f.chooseArgs cur r position = item)
    (hmax : item < f.map.maxDevices) (ht : itemType f item = .ok t) (htype : (t : ℤ) = f.type) :
    drawItem H f cur r position = .ok (.candidate item) := by
  unfold drawItem
  rw [if_neg hsize, hitem]
  dsimp only
  rw [if_neg (not_le.mpr hmax), ht]
  exact if_neg (not_not.mpr htype)

/-- A worker that has drawn an item it skips publishes it. -/
theorem arrives_skip {k : Fin 3} {s : Search} {item : ℤ} (h : AtDraw k s sh w)
    (hdraw : drawItem H f s.cur (randomFactor 0 k s.ftotal) k = .ok (.skip item)) :
    Arrives H g f k sh w (.exit (.accept item)) := by
  obtain ⟨hpc, hrep, rfl, hout⟩ := h
  have hskip : doWork H g f k k sh w = some (sh.visit w.search.cur,
      { w with pc := .publish, item := item, skipRep := true }) := by
    simp only [doWork, hpc, hrep, hout, hdraw]
  have hpublish : doWork H g f k k (sh.visit w.search.cur)
      { w with pc := .publish, item := item, skipRep := true }
      = some (⟨sh.outpos + 1, (sh.visit w.search.cur).μ.write f.out k item⟩,
        { w with pc := .done, item := item, skipRep := true }) := rfl
  exact ⟨_, _, .head hskip (.head hpublish (.refl _ _)), rfl, by rw [hout],
    Store.write_cells_self _ _ _ _, fun a j hj => Store.write_cells_of_ne _ _ fun h => hj h.2⟩

/-- A worker of a stable search comes to its first draw. -/
theorem arrives_start {k : Fin 3} (hstable : f.stable = true) (hout : sh.outpos = k)
    {nx : Next Search Verdict}
    (h : ∀ w, AtDraw k (Search.start f) sh w → Arrives H g f k sh w nx) :
    Arrives H g f k sh (Worker.init f) nx := by
  have hstart : doWork H g f k k sh (Worker.init f) = some (sh,
      { Worker.init f with pc := .draw, rep := 0, search := Search.start f }) := by
    simp only [doWork, Worker.init, hstable, if_true]
  exact Arrives.head hstart (fun _ _ _ => rfl) (h _ ⟨rfl, rfl, rfl, hout⟩)

/-! ### A map that tells two verdicts on a device apart -/

/-- A hash that gives the overload test the bits `h`, and that draws the second of two items
    unless `r` is 0. -/
def splitHash (h : UInt32) : CrushHash where
  crushHash32_2 _ _ _ := h
  crushHash32_3 _ _ id r := if id = 1 ∧ r ≠ 0 then 0xffff else 0

/-- A bucket over `d` and `d + 1`, where `d + 1` is not below `max_devices`.  A worker that draws
    `d + 1` gives up and publishes it. -/
def splitInfo (weight : ℤ → UInt32) (recurseToLeaf : Bool) (d : ℤ) : FirstnInfo :=
  { testInfo { smallMap with
      buckets := [some (smallHost (-1) d)], maxBuckets := 1, maxDevices := d + 1 }
      (smallHost (-1) d) weight 0 0 1 with
    tries := 2
    recurseToLeaf := recurseToLeaf
    out2 := 2
    chooseArgs := some fun _ => ⟨some [0, 1], none, 0⟩ }

variable (weight : ℤ → UInt32) (recurseToLeaf : Bool) (type : ℤ) {d : ℤ}

/-- The map with the two devices is well formed. -/
theorem splitInfo_wellFormed (hd : 0 ≤ d) : (splitInfo weight recurseToLeaf d).map.WellFormed := by
  refine CrushMap.wellFormed_of_bucketOk fun k hk => ?_
  obtain rfl : k = 0 := Nat.lt_one_iff.mp hk
  have hitems : [d, d + 1].all (fun c => decide (0 ≤ c) ||
      ((splitInfo weight recurseToLeaf d).map.bucket? (-1 - c)).isSome) = true := by
    simp [hd, show 0 ≤ d + 1 by omega]
  exact hitems

/-- The first draw gives device `d`, and all later ones the other. -/
theorem splitInfo_item (h : UInt32) {r : ℤ} (hr : r = 0 ∨ r = 1 ∨ r = 2) (position : ℕ) :
    chooseItem (splitHash h) (splitInfo weight recurseToLeaf d).x
      (splitInfo weight recurseToLeaf d).chooseArgs (smallHost (-1) d) r position
      = if r = 0 then d else d + 1 := by
  -- The two straws depend on neither `h` nor `d`.
  have hhigh : chooseItem (splitHash h) (splitInfo weight recurseToLeaf d).x
      (splitInfo weight recurseToLeaf d).chooseArgs (smallHost (-1) d) r position
      = [d, d + 1].getD (straw2High (splitHash 0) (smallHost (-1) 0) 0 r
        (some ⟨some [0, 1], none, 0⟩) 0) 0 := rfl
  rw [hhigh]
  obtain rfl | rfl | rfl := hr
  · rw [show straw2High (splitHash 0) (smallHost (-1) 0) 0 0 (some ⟨some [0, 1], none, 0⟩) 0 = 0
      by decide +kernel]
    rfl
  · rw [show straw2High (splitHash 0) (smallHost (-1) 0) 0 1 (some ⟨some [0, 1], none, 0⟩) 0 = 1
      by decide +kernel]
    rfl
  · rw [show straw2High (splitHash 0) (smallHost (-1) 0) 0 2 (some ⟨some [0, 1], none, 0⟩) 0 = 1
      by decide +kernel]
    rfl

theorem smallHost_size (id d : ℤ) : (smallHost id d).size ≠ 0 := by
  change (2 : UInt32) ≠ 0
  decide

/-- The item the first worker publishes is `d` if `d` passes its test, and `d + 1` if not. -/
theorem splitInfo_arrives (h : UInt32) (hd : 0 ≤ d) (hout : sh.outpos = 0) :
    Arrives (splitHash h) g (splitInfo weight recurseToLeaf d) 0 sh
      (Worker.init (splitInfo weight recurseToLeaf d))
      (.exit (.accept (if isOut (splitHash h) weight g.weightMax d 0 then d + 1 else d))) := by
  refine arrives_start rfl hout fun w hat => ?_
  have hwf := splitInfo_wellFormed weight recurseToLeaf hd
  have hdraw : drawItem (splitHash h) ((splitInfo weight recurseToLeaf d).under g)
      (smallHost (-1) d) (randomFactor 0 0 0) 0 = .ok (.candidate d) :=
    drawItem_ofType (t := 0) (smallHost_size _ _)
      ((splitInfo_item weight recurseToLeaf h (Or.inl (by decide)) 0).trans (if_pos (by decide)))
      (Int.lt_succ d) (if_neg (not_lt.mpr hd)) rfl
  have hpass : devicePass (splitHash h) ((splitInfo weight recurseToLeaf d).under g)
      (collides sh.μ (splitInfo weight recurseToLeaf d).out 0) 0 0 0
      (Search.start (splitInfo weight recurseToLeaf d))
      = .ok (if isOut (splitHash h) weight g.weightMax d 0
        then .again ⟨smallHost (-1) d, 1, 0⟩ else .exit (.accept d)) := by
    have hcol : collides sh.μ (splitInfo weight recurseToLeaf d).out 0 d = false := rfl
    unfold devicePass
    rw [show (Search.start (splitInfo weight recurseToLeaf d)).cur = smallHost (-1) d from rfl,
      show (Search.start (splitInfo weight recurseToLeaf d)).ftotal = 0 from rfl, hdraw]
    dsimp only
    rw [hcol, apply_ite Except.ok]
    rfl
  have harrives := pass_worker hwf rfl hat hpass
  split
  · rename_i hisout
    rw [if_pos hisout] at harrives
    obtain ⟨sh', w', hgets, hat', hcells⟩ := harrives
    -- The device is out: the next draw is skipped.
    have hr : randomFactor 0 0 1 = 1 := by decide
    have hitem := splitInfo_item (d := d) weight recurseToLeaf h (Or.inr (Or.inl hr)) 0
    rw [if_neg (by rw [hr]; decide)] at hitem
    exact (arrives_skip hat' (drawItem_beyond (smallHost_size _ _) hitem (le_refl (d + 1)))).trans
      hgets hcells
  · rename_i hin
    rwa [if_neg hin] at harrives

/-- The other workers publish `d + 1`. -/
theorem splitInfo_skip (h : UInt32) {k : Fin 3} (hk : k ≠ 0) (hout : sh.outpos = k) :
    Arrives (splitHash h) g (splitInfo weight recurseToLeaf d) k sh
      (Worker.init (splitInfo weight recurseToLeaf d)) (.exit (.accept (d + 1))) := by
  refine arrives_start rfl hout fun w hat => arrives_skip hat ?_
  have hr : randomFactor 0 k 0 = 1 ∨ randomFactor 0 k 0 = 2 := by
    obtain rfl | rfl : k = 1 ∨ k = 2 := by omega
    · exact Or.inl (by decide)
    · exact Or.inr (by decide)
  have hne : randomFactor 0 k 0 ≠ 0 := by omega
  have hitem := splitInfo_item (d := d) weight recurseToLeaf h (Or.inr hr) k
  rw [if_neg hne] at hitem
  exact drawItem_beyond (smallHost_size _ _) hitem (le_refl (d + 1))

/-- What the workers leave in `out[0]` shows the verdict on the device. -/
theorem splitInfo_leaves (h : UInt32) (hd : 0 ≤ d) :
    ∃ r, Leaves (splitHash h) g (splitInfo weight recurseToLeaf d) ⟨0, zeroStore⟩ r ∧
      r.2.1 0 = if isOut (splitHash h) weight g.weightMax d 0 then d + 1 else d := by
  -- The first worker decides; the other two find only the device and skip their places.
  obtain ⟨sh₁, w₁, hgets₁, hdone₁, hout₁, hitem₁, -⟩ :=
    splitInfo_arrives (g := g) weight recurseToLeaf h hd
      (rfl : (⟨0, zeroStore⟩ : Shared).outpos = 0)
  obtain ⟨sh₂, w₂, hgets₂, hdone₂, hout₂, -, hcells₂⟩ :=
    splitInfo_skip (g := g) (d := d) (k := 1) weight recurseToLeaf h (by decide) hout₁
  obtain ⟨sh₃, w₃, hgets₃, hdone₃, -, -, hcells₃⟩ :=
    splitInfo_skip (g := g) (d := d) (k := 2) weight recurseToLeaf h (by decide) hout₂
  obtain ⟨n, hn⟩ := callWorks_ok (hgets₁.returns hdone₁) (hgets₂.returns hdone₂)
    (hgets₃.returns hdone₃)
  refine ⟨_, ⟨n, sh₃, hn, rfl⟩, ?_⟩
  dsimp only
  rw [hcells₃ _ 0 (by decide), hcells₂ _ 0 (by decide)]
  exact hitem₁

/-! ### A map that tells two verdicts on a leaf apart -/

/-- A bucket with one item. -/
def single (id : ℤ) (type : ℕ) (item : ℤ) : CrushBucket where
  id := id
  type := type
  hash := 0
  weight := 0x10000
  size := 1
  items := [item]
  itemWeights := [0x10000]

theorem single_size (id : ℤ) (type : ℕ) (item : ℤ) : (single id type item).size ≠ 0 := by
  change (1 : UInt32) ≠ 0
  decide

/-- A bucket with one item has no choice. -/
theorem chooseItem_one (x : ℤ) (args : Option (ℤ → CrushChooseArg)) (id : ℤ) (type : ℕ)
    (item r : ℤ) (position : ℕ) : chooseItem H x args (single id type item) r position = item := by
  have hmem := bucketStraw2Choose_mem H x r (args.map fun args => args (-1 - id)) position
    (single_size id type item) rfl
  exact List.mem_singleton.mp hmem

/-- A root over one host over the device `d`, with leaves in an array of their own. -/
def hostInfo (d : ℤ) : FirstnInfo :=
  { testInfo { smallMap with
      buckets := [some (single (-1) (type.toNat + 1) (-2)), some (single (-2) type.toNat d)]
      maxBuckets := 2
      maxDevices := d + 1 }
      (single (-1) (type.toNat + 1) (-2)) weight 0 0 1 with
    type := type
    tries := 1
    out2 := 2 }

/-- No array holds a device yet. -/
def blankStore : Store := ⟨fun _ _ => -1, []⟩

section HostInfo

variable {type} (htype : 0 < type) (hd : 0 ≤ d)

include htype hd in
/-- The map with the one host is well formed. -/
theorem hostInfo_wellFormed : (hostInfo weight type d).map.WellFormed := by
  refine CrushMap.wellFormed_of_bucketOk fun k hk => ?_
  have hk2 : k < 2 := hk
  obtain rfl | rfl : k = 0 ∨ k = 1 := by omega
  · change (true && decide (0 < type.toNat + 1) && true && true && true) = true
    rw [decide_eq_true (Nat.succ_pos _)]
    rfl
  · change (true && decide (0 < type.toNat) && true && true
      && ((decide (0 ≤ d) || ((hostInfo weight type d).map.bucket? (-1 - d)).isSome) && true))
      = true
    rw [decide_eq_true (show 0 < type.toNat by omega), decide_eq_true hd]
    rfl

include htype hd in
/-- The workers draw the host. -/
theorem hostInfo_draw (r : ℤ) (position : ℕ) :
    drawItem H (hostInfo weight type d) (single (-1) (type.toNat + 1) (-2)) r position
      = .ok (.candidate (-2)) := by
  refine drawItem_ofType (t := type.toNat) (single_size _ _ _) (chooseItem_one _ _ _ _ _ _ _)
    ?_ rfl (Int.toNat_of_nonneg htype.le)
  change -2 < d + 1
  omega

/-- The call of the leaf search. -/
def hostLeaf (g : Globals) (weight : ℤ → UInt32) (type d : ℤ) : LeafCall :=
  LeafCall.init g (hostInfo weight type d) (single (-2) type.toNat d) 0 (randomFactor 0 0 0)

variable (type) in
include hd in
/-- The leaf search draws the device, and the globals decide whether it takes it. -/
theorem hostLeaf_attempt (μ : Store) :
    attempt H (hostLeaf g weight type d).info noLeaf (hostLeaf g weight type d).parentR 0 0 3
      (Search.start (hostLeaf g weight type d).info, μ)
      = .ok (.exit (if isOut H g.weight g.weightMax d 0 then .skip else .accept d,
          μ.visit (single (-2) type.toNat d))) := by
  -- The host holds nothing but the device.
  have hdraw : ∀ r, drawItem H (hostLeaf g weight type d).info (single (-2) type.toNat d) r 0
      = .ok (.candidate d) := fun r =>
    drawItem_ofType (t := 0) (single_size _ _ _) (chooseItem_one _ _ _ _ _ _ _) (Int.lt_succ d)
      (if_neg (not_lt.mpr hd)) rfl
  have hverdict : attempt H (hostLeaf g weight type d).info noLeaf
      (hostLeaf g weight type d).parentR 0 0 3 (Search.start (hostLeaf g weight type d).info, μ)
      = if isOut H g.weight g.weightMax d 0 then
          .ok (reject (hostLeaf g weight type d).info false
            (Search.start (hostLeaf g weight type d).info) (μ.visit (single (-2) type.toNat d)))
        else .ok (.exit (.accept d, μ.visit (single (-2) type.toNat d))) := by
    unfold attempt
    dsimp only
    rw [show (Search.start (hostLeaf g weight type d).info).cur = single (-2) type.toNat d from rfl,
      hdraw]
    rfl
  rw [hverdict]
  split <;> rfl

/-- Worker 1 stands at `pc` with the host drawn. -/
def hostWorker (weight : ℤ → UInt32) (type d : ℤ) (pc : Pc) : Worker :=
  ⟨pc, 0, Search.start (hostInfo weight type d), -2, false⟩

variable (type) in
include hd in
/-- The leaf search of the first worker. -/
theorem hostLeaf_gets (μ : Store) :
    ∃ p μ', Gets H g (hostInfo weight type d) 0 ⟨0, μ⟩
        (hostWorker weight type d (.leaf (hostLeaf g weight type d))) ⟨0, μ'⟩
        (hostWorker weight type d (.leafReturn p)) ∧
      μ'.cells 2 0 = if isOut H g.weight g.weightMax d 0 then μ.cells 2 0 else d := by
  -- Into the loop, and through its only pass.
  have hhead : doWork H g (hostInfo weight type d) 0 0 ⟨0, μ⟩
      (hostWorker weight type d (.leaf (hostLeaf g weight type d)))
      = some (⟨0, μ⟩, hostWorker weight type d (.leaf { hostLeaf g weight type d with
          search := some (Search.start (hostLeaf g weight type d).info) })) := rfl
  have hleaf : leafStep H { hostLeaf g weight type d with
      search := some (Search.start (hostLeaf g weight type d).info) } μ
      = .ok (.again (if isOut H g.weight g.weightMax d 0
        then ({ hostLeaf g weight type d with rep := 1 }, μ.visit (single (-2) type.toNat d))
        else ({ hostLeaf g weight type d with rep := 1, outpos := 1, count := 2 },
          (μ.visit (single (-2) type.toNat d)).write 2 0 d))) := by
    have hattempt := hostLeaf_attempt (H := H) (g := g) weight type hd μ
    unfold leafStep
    dsimp only
    rw [show (hostLeaf g weight type d).rep = 0 from rfl,
      show (hostLeaf g weight type d).outpos = 0 from rfl,
      show (hostLeaf g weight type d).count = 3 from rfl, hattempt]
    cases isOut H g.weight g.weightMax d 0 <;> rfl
  have hpass : doWork H g (hostInfo weight type d) 0 0 ⟨0, μ⟩
      (hostWorker weight type d (.leaf { hostLeaf g weight type d with
        search := some (Search.start (hostLeaf g weight type d).info) }))
      = some (if isOut H g.weight g.weightMax d 0
        then (⟨0, μ.visit (single (-2) type.toNat d)⟩,
          hostWorker weight type d (.leaf { hostLeaf g weight type d with rep := 1 }))
        else (⟨0, (μ.visit (single (-2) type.toNat d)).write 2 0 d⟩,
          hostWorker weight type d
            (.leaf { hostLeaf g weight type d with rep := 1, outpos := 1, count := 2 }))) := by
    unfold doWork hostWorker
    dsimp only
    rw [hleaf]
    cases isOut H g.weight g.weightMax d 0 <;> rfl
  -- Behind it there is no other replica.
  by_cases hisout : isOut H g.weight g.weightMax d 0 = true
  · rw [if_pos hisout] at hpass ⊢
    exact ⟨0, _, .head hhead (.head hpass (.head rfl (.refl _ _))), rfl⟩
  · rw [if_neg hisout] at hpass ⊢
    exact ⟨1, _, .head hhead (.head hpass (.head rfl (.refl _ _))),
      Store.write_cells_self _ _ _ _⟩

include htype hd in
/-- The first worker ends with the host in `out[0]` and its leaf, if any, in `out2[0]`. -/
theorem hostInfo_first (g : Globals) (μ : Store) :
    ∃ sh' w', Gets H g (hostInfo weight type d) 0 ⟨0, μ⟩ (Worker.init (hostInfo weight type d))
        sh' w' ∧
      w'.pc = .done ∧ sh'.outpos = 1 ∧ sh'.μ.cells 1 0 = -2 ∧
      sh'.μ.cells 2 0 = if isOut H g.weight g.weightMax d 0 then μ.cells 2 0 else d := by
  have hstart : doWork H g (hostInfo weight type d) 0 0 ⟨0, μ⟩
      (Worker.init (hostInfo weight type d))
      = some (⟨0, μ⟩, { hostWorker weight type d .draw with item := 0 }) := rfl
  have hdraw : doWork H g (hostInfo weight type d) 0 0 ⟨0, μ⟩
      { hostWorker weight type d .draw with item := 0 }
      = some (⟨0, μ.visit (single (-1) (type.toNat + 1) (-2))⟩,
        hostWorker weight type d .scan) := by
    unfold doWork hostWorker
    dsimp only
    rw [show (Search.start (hostInfo weight type d)).cur = single (-1) (type.toNat + 1) (-2)
      from rfl, hostInfo_draw weight htype hd]
    rfl
  obtain ⟨p, μ', hleaf, hcell⟩ := hostLeaf_gets (H := H) (g := g) weight type hd
    (μ.visit (single (-1) (type.toNat + 1) (-2)))
  have hgets : Gets H g (hostInfo weight type d) 0 ⟨0, μ⟩ (Worker.init (hostInfo weight type d))
      ⟨0, μ'⟩ (hostWorker weight type d (.leafReturn p)) :=
    .head hstart (.head hdraw (.head rfl (.head rfl hleaf)))
  have htest : doWork H g (hostInfo weight type d) 0 0 ⟨0, μ'⟩ (hostWorker weight type d .test)
      = some (⟨0, μ'⟩, hostWorker weight type d .publish) := by
    have hne : ((hostInfo weight type d).type == 0) = false := beq_false_of_ne htype.ne'
    unfold doWork hostWorker
    dsimp only
    rw [hne, Bool.false_and]
    rfl
  have hreturn : doWork H g (hostInfo weight type d) 0 0 ⟨0, μ'⟩
      (hostWorker weight type d (.leafReturn p))
      = if p ≤ 0 then some (⟨0, μ'⟩, { hostWorker weight type d .publish with skipRep := true })
        else some (⟨0, μ'⟩, hostWorker weight type d .test) := rfl
  -- With a leaf the worker goes on to its test, without one it gives up; it publishes either way.
  have hwrite : (μ'.write 1 0 (-2)).cells 2 0 = μ'.cells 2 0 :=
    Store.write_cells_of_ne _ _ (by decide)
  by_cases hp : p ≤ 0
  · rw [if_pos hp] at hreturn
    exact ⟨⟨1, μ'.write 1 0 (-2)⟩, _, hgets.trans (.head hreturn (.head rfl (.refl _ _))), rfl, rfl,
      Store.write_cells_self _ _ _ _, hwrite.trans hcell⟩
  · rw [if_neg hp] at hreturn
    exact ⟨⟨1, μ'.write 1 0 (-2)⟩, _,
      hgets.trans (.head hreturn (.head htest (.head rfl (.refl _ _)))), rfl, rfl,
      Store.write_cells_self _ _ _ _, hwrite.trans hcell⟩

include htype hd in
/-- The other workers find the host taken and give up. -/
theorem hostInfo_taken {k : Fin 3} (hk : k ≠ 0) (hout : sh.outpos = k)
    (hcell : sh.μ.cells 1 0 = -2) :
    Arrives H g (hostInfo weight type d) k sh (Worker.init (hostInfo weight type d))
      (.exit (.accept (-2))) := by
  refine arrives_start rfl hout fun w hat => ?_
  obtain ⟨pc, rep, search, item, skipRep⟩ := w
  obtain ⟨rfl, rfl, rfl, hout⟩ := hat
  -- Draw the host, find it in the first place, give up and publish.
  let host := single (-1) (type.toNat + 1) (-2)
  have hdraw : doWork H g (hostInfo weight type d) k k sh
      ⟨.draw, 0, Search.start (hostInfo weight type d), item, skipRep⟩
      = some (sh.visit host, ⟨.scan, 0, Search.start (hostInfo weight type d), -2, skipRep⟩) := by
    unfold doWork
    dsimp only
    rw [show (Search.start (hostInfo weight type d)).cur = single (-1) (type.toNat + 1) (-2)
      from rfl, hostInfo_draw weight htype hd]
  have hcol : collides (sh.visit host).μ (hostInfo weight type d).out k (-2) = true := by
    refine List.any_eq_true.mpr ⟨0, List.mem_range.mpr (by omega), ?_⟩
    exact beq_iff_eq.mpr hcell
  have hscan : doWork H g (hostInfo weight type d) k k (sh.visit host)
      ⟨.scan, 0, Search.start (hostInfo weight type d), -2, skipRep⟩
      = some (sh.visit host, ⟨.publish, 0, Search.start (hostInfo weight type d), -2, true⟩) := by
    unfold doWork
    dsimp only
    rw [if_pos hcol]
    rfl
  exact ⟨_, _, .head hdraw (.head hscan (.head rfl (.refl _ _))), rfl, by rw [← hout]; rfl,
    Store.write_cells_self _ _ _ _, fun a j hj => Store.write_cells_of_ne _ _ fun h => hj h.2⟩

include htype hd in
/-- What the workers leave in `out2[0]` shows the verdict on the leaf. -/
theorem hostInfo_leaves (g : Globals) :
    ∃ r, Leaves H g (hostInfo weight type d) ⟨0, blankStore⟩ r ∧
      r.2.2 0 = if isOut H g.weight g.weightMax d 0 then -1 else d := by
  obtain ⟨sh₁, w₁, hgets₁, hdone₁, hout₁, hitem₁, hleaf⟩ :=
    hostInfo_first (H := H) weight htype hd g blankStore
  obtain ⟨sh₂, w₂, hgets₂, hdone₂, hout₂, -, hcells₂⟩ :=
    hostInfo_taken (H := H) (g := g) (k := 1) weight htype hd (by decide) hout₁ hitem₁
  have hitem₂ : sh₂.μ.cells 1 0 = -2 := by rw [hcells₂ _ 0 (by decide), hitem₁]
  obtain ⟨sh₃, w₃, hgets₃, hdone₃, -, -, hcells₃⟩ :=
    hostInfo_taken (H := H) (g := g) (k := 2) weight htype hd (by decide) hout₂ hitem₂
  obtain ⟨n, hn⟩ := callWorks_ok (hgets₁.returns hdone₁) (hgets₂.returns hdone₂)
    (hgets₃.returns hdone₃)
  refine ⟨_, ⟨n, sh₃, hn, rfl⟩, ?_⟩
  change sh₃.μ.cells 2 0 = _
  rw [hcells₃ _ 0 (by decide), hcells₂ _ 0 (by decide)]
  exact hleaf

end HostInfo

/-! ### When the globals do not show -/

/-- Hash bits that tell two effective reweights apart. -/
theorem exists_bits {e e' : UInt32} (he : e ≤ 0x10000) (he' : e' ≤ 0x10000) (hne : e ≠ e') :
    ∃ h : UInt32, h &&& 0xffff = h ∧ (!decide (h < e)) ≠ !decide (h < e') := by
  -- Bits below a weight of at most `0x10000` are low bits.
  have hlow : ∀ {a b : UInt32}, a < b → b ≤ 0x10000 → a &&& 0xffff = a := by
    intro a b hab hb
    have hlt : a.toNat < 2 ^ 16 := UInt32.lt_iff_toNat_lt.mp (UInt32.lt_of_lt_of_le hab hb)
    rw [← UInt32.toNat_inj, UInt32.toNat_and]
    exact Nat.and_two_pow_sub_one_of_lt_two_pow hlt
  have hirrefl : ∀ a : UInt32, ¬ a < a := fun a => UInt32.lt_irrefl a
  rcases Nat.lt_or_gt_of_ne (fun h => hne (UInt32.toNat_inj.mp h)) with hlt | hlt
  · -- The smaller of the two weights tells them apart, as hash bits.
    have hlt' : e < e' := UInt32.lt_iff_toNat_lt.mpr hlt
    refine ⟨e, hlow hlt' he', ?_⟩
    rw [decide_eq_false (hirrefl e), decide_eq_true hlt']
    decide
  · have hlt' : e' < e := UInt32.lt_iff_toNat_lt.mpr hlt
    refine ⟨e', hlow hlt' he, ?_⟩
    rw [decide_eq_false (hirrefl e'), decide_eq_true hlt']
    decide

/-- Tables that show different effective reweights of `d` get different verdicts under some
    hash. -/
theorem exists_verdicts {weight weight' : ℤ → UInt32} {weightMax weightMax' d : ℤ}
    (hne : effective weight weightMax d ≠ effective weight' weightMax' d) :
    ∃ h, isOut (splitHash h) weight weightMax d 0 ≠ isOut (splitHash h) weight' weightMax' d 0 := by
  obtain ⟨h, hbits, hdiff⟩ := exists_bits (effective_le _ _ _) (effective_le _ _ _) hne
  have hoverload : overloadBits (splitHash h) d 0 = h := hbits
  exact ⟨h, by rwa [isOut_eq, isOut_eq, hoverload]⟩

/-- Different answers lead to different items. -/
theorem ite_ne {b b' : Bool} {i j : ℤ} (hb : b ≠ b') (hij : i ≠ j) :
    (if b then i else j) ≠ if b' then i else j := by
  cases b <;> cases b' <;> simp_all [Ne.symm]

/-- **The globals do not show** in what the workers leave, whatever the map, the tunables and the
    hash functions, if and only if they show the tests the same effective reweights. -/
theorem callWorks_globals_iff (weight : ℤ → UInt32) (type : ℤ) (recurseToLeaf : Bool)
    (g g' : Globals) :
    (∀ (H : CrushHash) (f : FirstnInfo), f.map.WellFormed → f.weight = weight → f.type = type →
      f.recurseToLeaf = recurseToLeaf → ∀ sh r, Leaves H g f sh r ↔ Leaves H g' f sh r) ↔
    SameReweights weight type recurseToLeaf g g' := by
  constructor
  · intro hall
    constructor
    · rintro rfl d hd
      by_contra hne
      -- The two verdicts on `d` leave different items in `out[0]`.
      obtain ⟨h, hdiff⟩ := exists_verdicts hne
      obtain ⟨r, hleaves, hitem⟩ := splitInfo_leaves (g := g) weight recurseToLeaf h hd
      obtain ⟨r', hleaves', hitem'⟩ := splitInfo_leaves (g := g') weight recurseToLeaf h hd
      have hboth :=
        (hall _ _ (splitInfo_wellFormed weight recurseToLeaf hd) rfl rfl rfl _ r).mp hleaves
      rw [hboth.unique hleaves', hitem'] at hitem
      exact ite_ne hdiff (by omega) hitem.symm
    · rintro htype rfl d hd
      by_contra hne
      -- The two verdicts on `d` leave different leaves in `out2[0]`.
      obtain ⟨h, hdiff⟩ := exists_verdicts hne
      obtain ⟨r, hleaves, hleaf⟩ := hostInfo_leaves (H := splitHash h) weight htype hd g
      obtain ⟨r', hleaves', hleaf'⟩ := hostInfo_leaves (H := splitHash h) weight htype hd g'
      have hboth := (hall _ _ (hostInfo_wellFormed weight htype hd) rfl rfl rfl _ r).mp hleaves
      rw [hboth.unique hleaves', hleaf'] at hleaf
      exact ite_ne hdiff (by omega) hleaf.symm
  · rintro hsame H f hwf rfl rfl rfl sh r
    unfold Leaves
    simp only [callWorks_globals hwf hsame]

/-- The globals after `init2`: every OSD has weight 176. -/
def initGlobals : Globals := ⟨fun _ => 176, 4⟩

/-- The search for hosts of the small map, with three tries. -/
def fewTriesInfo : FirstnInfo := { smallHostsInfo with tries := 3 }

/-- The hosts of the small map get leaves when the global `weight` is 1.0, and none under the
    weights of `init2`. -/
theorem globals_show :
    ¬ ∀ r, Leaves rjenkins smallGlobals fewTriesInfo ⟨0, blankStore⟩ r ↔
      Leaves rjenkins initGlobals fewTriesInfo ⟨0, blankStore⟩ r := by
  intro hsame
  obtain ⟨sh, hrun, hleaf⟩ := ok_of_toOption_map (g := fun sh : Shared => sh.μ.cells 2 0) (y := 3)
    (x := callWorks rjenkins smallGlobals fewTriesInfo 100 ⟨0, blankStore⟩) (by decide +kernel)
  obtain ⟨sh', hrun', hleaf'⟩ := ok_of_toOption_map (g := fun sh : Shared => sh.μ.cells 2 0)
    (y := -1) (x := callWorks rjenkins initGlobals fewTriesInfo 100 ⟨0, blankStore⟩)
    (by decide +kernel)
  have hleaves : Leaves rjenkins smallGlobals fewTriesInfo ⟨0, blankStore⟩ _ :=
    ⟨100, sh, fun fuel hfuel => callWorks_mono hfuel hrun, rfl⟩
  have hleaves' : Leaves rjenkins initGlobals fewTriesInfo ⟨0, blankStore⟩ _ :=
    ⟨100, sh', fun fuel hfuel => callWorks_mono hfuel hrun', rfl⟩
  have hcells := congrArg (fun r => r.2.2 0) (((hsame _).mp hleaves).unique hleaves')
  have hcells' : sh.μ.cells 2 0 = sh'.μ.cells 2 0 := hcells
  rw [hleaf, hleaf'] at hcells'
  cases hcells'

end MyCeph.Crush
