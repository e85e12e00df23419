import MyCeph.Crush.Termination

namespace MyCeph.Crush

open Lib Relation

/-!
# Dangling ids

The inner loop compares a drawn id with `max_buckets` before it descends, but it has
read `map->buckets[-1-item]->type` by then (`itemType` in `drawItem`).  A map in which no search
can draw a dangling id (`NoneDangles`) is therefore safe, whatever the other arguments
(`NoneDangles.rejects`): the buckets a search can get to are `Closed`.  In any other map some
choice of `choose_args` leads the search along the links down to the dangling id
(`descends_to_fault`), whatever the hash function.
-/

variable {H : CrushHash} {m : CrushMap}

/-- The buckets below `max_buckets` are there, with the ids of their places, and their arrays have
    `size` entries. -/
structure Filled (m : CrushMap) : Prop where
  present : ∀ i, 0 ≤ i → i < m.maxBuckets → ∃ b, m.bucket? i = some b
  id_eq : ∀ i b, m.bucket? i = some b → b.id = -1 - i
  items_length : ∀ i b, m.bucket? i = some b → b.items.length = b.size.toNat

/-- `c` is a bucket id outside the map. -/
def Dangles (m : CrushMap) (c : ℤ) : Prop := c < 0 ∧ m.maxBuckets ≤ -1 - c

/-- `c` is an item of the bucket with id `p` and passes the test against `max_devices`. -/
def Enters (m : CrushMap) (p c : ℤ) : Prop := m.Link p c ∧ c < m.maxDevices

/-- No id that a search from `start` can look up dangles. -/
def NoneDangles (m : CrushMap) (start : CrushBucket) : Prop :=
  ∀ p c, ReflTransGen (Enters m) start.id p → Enters m p c → ¬ Dangles m c

/-- The buckets that a search from `start` can get to. -/
def Within (m : CrushMap) (start b : CrushBucket) : Prop :=
  m.bucket? (-1 - b.id) = some b ∧ ReflTransGen (Enters m) start.id b.id

/-- The calls of a run: `f` itself and its leaf searches. -/
def CallOf (f g : FirstnInfo) : Prop := g = f ∨ ∃ b outpos count, g = leafInfo f b outpos count

/-- What is asked of a call.  It reads `map->buckets` inside the array only, and returns unless
    the counters wrap.  A draw that is no bucket of the map and no known device, in the
    search itself or in a leaf search, ends the search for the replica, and the next replica is
    searched with everything placed before in its place. -/
structure Rejects (H : CrushHash) (f : FirstnInfo) (parentR : ℤ) : Prop where
  in_range : ∀ fuel μ e, crushChooseFirstn H fuel f parentR μ = .error e → e.stop = .timeout
  returns : CountersFit f → ∀ μ, Returns H f parentR μ
  skips : ∀ g, CallOf f g → ∀ self parentR rep outpos count s μ,
    Within f.map f.bucket s.cur → s.cur.size ≠ 0 →
    Dangles f.map (chooseItem H f.x f.chooseArgs s.cur (randomFactor rep parentR s.ftotal) outpos) ∨
      f.map.maxDevices
        ≤ chooseItem H f.x f.chooseArgs s.cur (randomFactor rep parentR s.ftotal) outpos →
    attempt H g self parentR rep outpos count (s, μ) = .ok (.exit (.skip, μ.visit s.cur))
  intact : ∀ fuel st μ', st.rep < f.numrep → 0 < st.count →
    loop attemptTimeout (attempt H f (crushChooseFirstn H fuel) parentR st.rep st.outpos st.count)
      fuel (Search.start f, st.μ) = .ok (.skip, μ') →
    placeReplica H f (crushChooseFirstn H fuel) fuel parentR st
        = .ok (.again { st with rep := st.rep + 1, μ := μ' }) ∧
      ∀ a, ∀ j < st.outpos, μ'.cells a j = st.μ.cells a j

/-! ### Searches that stay inside the map -/

section Inside

variable {f : FirstnInfo} {S : CrushBucket → Prop} {parentR rep : ℤ} {outpos : ℕ} {count : ℤ}

/-- A pass stays in a closed set of buckets. -/
theorem Closed.pass (hS : Closed f.map S) (hstart : S f.bucket) {self : Firstn} {s s' : Search}
    {μ μ' : Store} (hcur : S s.cur)
    (hpass : Pass H f self parentR rep outpos count s μ (.again (s', μ'))) : S s'.cur := by
  rcases hpass.again with ⟨collide, hs'⟩ | ⟨item, b, hdraw, rfl⟩
  · rcases rejected_cur hs' with h | h
    · rw [h]
      exact hcur
    · rw [h]
      exact hstart
  · exact (hS.descend hcur hdraw).1

/-- A pass in a closed set of buckets fails only through its leaf search. -/
theorem Closed.attempt_error (hS : Closed f.map S) {self : Firstn} {s : Search} {μ : Store}
    {e : Fault} (hcur : S s.cur)
    (h : attempt H f self parentR rep outpos count (s, μ) = .error e) :
    ∃ b r μ₁, S b ∧ self (leafInfo f b outpos count) r μ₁ = .error e := by
  obtain ⟨d, hd⟩ :=
    hS.drawItem_returns (H := H) hcur (randomFactor rep parentR s.ftotal) outpos
  unfold attempt at h
  dsimp only at h
  rw [hd] at h
  cases d with
  | empty => cases h
  | skip item => cases h
  | descend item b => cases h
  -- The draw itself reads no bucket outside of the map, so the leaf search has failed.
  | candidate item =>
    dsimp only at h
    split at h
    · cases h
    split at h
    · rename_i hleaf
      cases h
      unfold findLeaf at hleaf
      split at hleaf
      · split at hleaf
        · rename_i hneg
          obtain ⟨b, hb, hSb⟩ := hS.read_candidate hcur hd hneg
          rw [hb] at hleaf
          dsimp only at hleaf
          split at hleaf
          · rename_i hrun
            cases hleaf
            exact ⟨b, _, _, hSb, hrun⟩
          · cases hleaf
        · cases hleaf
      · cases hleaf
    · split at h <;> cases h

/-- A run in a closed set of buckets stops short only for want of fuel. -/
theorem Closed.stop_eq (hS : Closed f.map S) (hstart : S f.bucket) {fuel : ℕ} {parentR : ℤ}
    {μ : Store} {e : Fault} (h : crushChooseFirstn H fuel f parentR μ = .error e) :
    e.stop = .timeout := by
  induction fuel generalizing f parentR μ e with
  | zero =>
    cases h
    rfl
  | succ fuel ih =>
    -- A leaf search has less fuel, and the same map.
    have hattempt : ∀ {rep : ℤ} {outpos : ℕ} {count : ℤ} (st : Search × Store) (e : Fault),
        S st.1.cur → attempt H f (crushChooseFirstn H fuel) parentR rep outpos count st = .error e →
        e.stop = .timeout := by
      rintro rep outpos count ⟨s, μ₁⟩ e hcur h
      obtain ⟨b, r, μ₂, hSb, hrun⟩ := hS.attempt_error hcur h
      exact ih (f := leafInfo f b outpos count) hS hSb hrun
    rw [crushChooseFirstn_succ] at h
    refine loop_rule_error (fun _ => True) (fun e => e.stop = .timeout) (fun _ _ _ _ => trivial) ?_
      (fun _ _ => rfl) trivial h
    intro st e _ hb
    exact loop_rule_error (fun st : Search × Store => S st.1.cur) (fun e => e.stop = .timeout)
      (fun st st' hcur hb => hS.pass hstart hcur (attempt_pass hb)) hattempt (fun _ _ => rfl)
      hstart (placeReplica_fails hb).2

end Inside

/-! ### Maps without dangling ids -/

theorem Filled.bucket_of_has (hm : Filled m) {b : CrushBucket} (hb : m.Has b) :
    m.bucket? (-1 - b.id) = some b := by
  obtain ⟨i, hi⟩ := hb
  rw [hm.id_eq i b hi, show -1 - (-1 - i) = i by omega]
  exact hi

/-- Without dangling ids no descent leaves the buckets within reach. -/
theorem NoneDangles.closed {start : CrushBucket} (hm : Filled m) (hnone : NoneDangles m start) :
    Closed m (Within m start) where
  items_length := fun b hb => hm.items_length _ b hb.1
  bucket := fun b hb => hb.1
  child := by
    rintro b ⟨hb, hreach⟩ c hc hneg hmax
    have henters : Enters m b.id c := ⟨⟨b, hb, hc⟩, hmax⟩
    -- The id does not dangle, so it is one of the indices, which are all filled.
    have hlt : -1 - c < m.maxBuckets := by
      by_contra hnot
      exact hnone b.id c hreach henters ⟨hneg, by omega⟩
    obtain ⟨d, hd⟩ := hm.present (-1 - c) (by omega) hlt
    have hid : d.id = c := by
      rw [hm.id_eq _ d hd]
      omega
    refine ⟨d, hd, hid, ?_, ?_⟩
    · rw [hid]
      exact hd
    · rw [hid]
      exact hreach.tail henters

/-- A draw at or above `max_devices` gives up the replica. -/
theorem attempt_beyond {f : FirstnInfo} {self : Firstn} {parentR rep count : ℤ} {outpos : ℕ}
    {s : Search} (μ : Store) (hsize : s.cur.size ≠ 0)
    (hmax : f.map.maxDevices
      ≤ chooseItem H f.x f.chooseArgs s.cur (randomFactor rep parentR s.ftotal) outpos) :
    attempt H f self parentR rep outpos count (s, μ) = .ok (.exit (.skip, μ.visit s.cur)) := by
  unfold attempt drawItem
  dsimp only
  rw [if_neg hsize, if_pos hmax]

/-- **Without dangling ids** a call behaves as asked. -/
theorem NoneDangles.rejects {f : FirstnInfo} (hm : Filled f.map) (hacyclic : f.map.Acyclic)
    (hstart : f.map.Has f.bucket) (hnone : NoneDangles f.map f.bucket) (parentR : ℤ) :
    Rejects H f parentR := by
  have hclosed := hnone.closed hm
  have hwithin : Within f.map f.bucket f.bucket := ⟨hm.bucket_of_has hstart, ReflTransGen.refl⟩
  refine ⟨fun fuel μ e h => hclosed.stop_eq hwithin h,
    fun hfit μ => returns_of_closed hclosed hacyclic hwithin hfit parentR μ, ?_, ?_⟩
  · intro g hg self r rep outpos count s μ hcur hsize hbad
    have hmem := hclosed.chooseItem_mem (H := H) hcur hsize (randomFactor rep r s.ftotal) outpos
    have hmax : f.map.maxDevices
        ≤ chooseItem H f.x f.chooseArgs s.cur (randomFactor rep r s.ftotal) outpos := by
      rcases hbad with hdangles | hmax
      · -- The id can be drawn, so it has not passed the test.
        by_contra hlt
        exact hnone _ _ hcur.2 ⟨⟨s.cur, hcur.1, hmem⟩, not_le.mp hlt⟩ hdangles
      · exact hmax
    rcases hg with rfl | ⟨b, outpos', count', rfl⟩
    · exact attempt_beyond μ hsize hmax
    · exact attempt_beyond (f := leafInfo f b outpos' count') μ hsize hmax
  · intro fuel st μ' hrep hcount hsearch
    refine ⟨?_, fun a j hj =>
      search_cells (search_spec (crushChooseFirstn_spec H fuel) hsearch).1 a hj⟩
    unfold placeReplica
    rw [if_pos ⟨hrep, hcount⟩, hsearch]

/-! ### Maps with a dangling id -/

/-- Weights of which only that of index `j` is not 0. -/
def oneWeight (n j : ℕ) : List UInt32 := (List.range n).map fun k => if k = j then 1 else 0

/-- All the weight is on item `j`. -/
theorem oneWeight_getD {n j k : ℕ} (hj : j < n) :
    (oneWeight n j).getD k 0 = if k = j then 1 else 0 := by
  unfold oneWeight
  rw [List.getD_eq_getElem?_getD, List.getElem?_map]
  by_cases hk : k < n
  · rw [List.getElem?_range hk]
    rfl
  · have hne : k ≠ j := by omega
    rw [List.getElem?_eq_none (by simpa using hk), if_neg hne]
    rfl

/-- The `choose_args` that make item `j` of a bucket with `n` items win. -/
def pickArg (n j : ℕ) : CrushChooseArg where
  ids := none
  weightSet := some [oneWeight n j]
  weightSetPositions := 1

/-- An item that alone has weight wins every draw. -/
theorem chooseItem_pickArg {args : ℤ → CrushChooseArg} {b : CrushBucket} {j : ℕ} {c : ℤ}
    (hlen : b.items.length = b.size.toNat) (hc : b.items[j]? = some c)
    (hargs : args (-1 - b.id) = pickArg b.size.toNat j) (x r : ℤ) (position : ℕ) :
    b.size ≠ 0 ∧ chooseItem H x (some args) b r position = c := by
  obtain ⟨hj, -⟩ := List.getElem?_eq_some_iff.mp hc
  have hjn : j < b.size.toNat := hlen ▸ hj
  have hsize : b.size ≠ 0 := by
    rintro h0
    rw [h0] at hjn
    exact Nat.not_lt_zero j hjn
  have hweights : getChooseArgWeights b (some (args (-1 - b.id))) position
      = oneWeight b.size.toNat j := by
    rw [hargs]
    show List.getD _ (if position ≥ 1 then 1 - 1 else position) [] = _
    split
    · rfl
    · rename_i hpos
      obtain rfl : position = 0 := by omega
      rfl
  have hmax := straw2High_isFirstMax H b x r (some (args (-1 - b.id))) position hsize
  rw [hweights] at hmax
  refine ⟨hsize, ?_⟩
  have hwins : straw2High H b x r (some (args (-1 - b.id))) position = j := by
    by_contra hne
    -- The straw of `j` is longer than the `S64_MIN` of the others.
    have hle := hmax.le j hjn
    have hlt := s64Min_lt_draw H b.hash x
      ((getChooseArgIds b (some (args (-1 - b.id)))).getD j 0) r (toS32 (1 : UInt32).toNat)
    have hone : (1 : UInt32) ≠ 0 := by decide
    simp only [straw2Draw, oneWeight_getD hjn, if_true, hne, if_false, ne_eq, not_true_eq_false,
      hone, not_false_eq_true] at hle
    omega
  show b.items.getD (straw2High H b x r (some (args (-1 - b.id))) position) 0 = c
  rw [hwins, List.getD_eq_getElem?_getD, hc]
  rfl

/-- A dangling id can be looked up below `p`. -/
def Doomed (m : CrushMap) (p : ℤ) : Prop :=
  ∃ q c, ReflTransGen (Enters m) p q ∧ Enters m q c ∧ Dangles m c

/-- A bucket with a dangling id below it has an item that dangles or is such a bucket. -/
theorem Doomed.item (hm : Filled m) {p : ℤ} (h : Doomed m p) :
    ∃ (b : CrushBucket) (j : ℕ) (c : ℤ), m.bucket? (-1 - p) = some b ∧ b.id = p ∧
      b.items[j]? = some c ∧ c < m.maxDevices ∧ (Dangles m c ∨ Doomed m c) := by
  obtain ⟨q, c, hreach, henters, hdangles⟩ := h
  have hitem : ∃ c, Enters m p c ∧ (Dangles m c ∨ Doomed m c) := by
    rcases ReflTransGen.cases_head hreach with rfl | ⟨e, he, hreach'⟩
    · exact ⟨c, henters, Or.inl hdangles⟩
    · exact ⟨e, he, Or.inr ⟨q, c, hreach', henters, hdangles⟩⟩
  obtain ⟨e, ⟨⟨b, hb, hmem⟩, hmax⟩, he⟩ := hitem
  obtain ⟨j, hj⟩ := List.mem_iff_getElem?.mp hmem
  have hid := hm.id_eq _ b hb
  exact ⟨b, j, e, hb, by omega, hj, hmax, he⟩

/-- `choose_args` that lead every search below a doomed bucket to a dangling id. -/
def LeadsDown (m : CrushMap) (args : ℤ → CrushChooseArg) : Prop :=
  ∀ p, Doomed m p → ∃ (b : CrushBucket) (j : ℕ) (c : ℤ), m.bucket? (-1 - p) = some b ∧ b.id = p ∧
    b.items[j]? = some c ∧ c < m.maxDevices ∧ (Dangles m c ∨ Doomed m c) ∧
    args (-1 - p) = pickArg b.size.toNat j

/-- There are `choose_args` that lead the draw down any path. -/
theorem exists_leadsDown (hm : Filled m) : ∃ args, LeadsDown m args := by
  classical
  -- For every doomed bucket, an argument that puts all weight on an item on the way.
  have hpick : ∀ i : ℤ, ∃ arg, Doomed m (-1 - i) → ∃ (b : CrushBucket) (j : ℕ) (c : ℤ),
      m.bucket? i = some b ∧ b.id = -1 - i ∧ b.items[j]? = some c ∧ c < m.maxDevices ∧
      (Dangles m c ∨ Doomed m c) ∧ arg = pickArg b.size.toNat j := by
    intro i
    by_cases hdoomed : Doomed m (-1 - i)
    · obtain ⟨b, j, c, hb, hid, hj, hmax, hc⟩ := hdoomed.item hm
      rw [show -1 - (-1 - i) = i by omega] at hb
      exact ⟨pickArg b.size.toNat j, fun _ => ⟨b, j, c, hb, hid, hj, hmax, hc, rfl⟩⟩
    · exact ⟨pickArg 0 0, fun h => absurd h hdoomed⟩
  choose args hargs using hpick
  refine ⟨args, fun p hp => ?_⟩
  have h := hargs (-1 - p)
  rw [show -1 - (-1 - p) = p by omega] at h
  exact h hp

/-- The call that follows `args` down: no bucket has the type it wants. -/
def probeInfo (m : CrushMap) (start : CrushBucket) (x : ℤ) (args : ℤ → CrushChooseArg) :
    FirstnInfo where
  map := m
  bucket := start
  weight := fun _ => 0x10000
  weightMax := m.maxDevices
  x := x
  numrep := 1
  type := -1
  out := 1
  outpos := 0
  outSize := 1
  tries := 1
  recurseTries := 1
  localRetries := 0
  localFallbackRetries := 0
  recurseToLeaf := false
  varyR := 1
  stable := true
  out2 := 2
  chooseArgs := some args

/-- **The search falls off the map.** -/
theorem descends_to_fault (hm : Filled m) (hacyclic : m.Acyclic) {args : ℤ → CrushChooseArg}
    (hargs : LeadsDown m args) (start : CrushBucket) (x parentR rep count : ℤ) (outpos : ℕ) (p : ℤ)
    (hp : Doomed m p) : ∃ n i, m.maxBuckets ≤ i ∧
      ∀ (self : Firstn) (s : Search) μ, m.bucket? (-1 - p) = some s.cur → ∃ μ',
        loop attemptTimeout (attempt H (probeInfo m start x args) self parentR rep outpos count) n
          (s, μ) = .error ⟨.badBucket i, μ'⟩ := by
  induction p using hacyclic.wellFounded.induction with
  | _ p ih =>
    obtain ⟨b, j, c, hb, rfl, hj, hmax, hc, harg⟩ := hargs p hp
    have hchoose := fun ftotal : UInt32 => chooseItem_pickArg (H := H) (hm.items_length _ _ hb) hj
      harg x (randomFactor rep parentR ftotal) outpos
    have hnot : ¬ c ≥ m.maxDevices := not_le.mpr hmax
    rcases hc with ⟨hneg, hout⟩ | hdoomed
    · -- The type of the dangling id is looked up.
      have hread : m.readBucket (-1 - c) = .error (.badBucket (-1 - c)) := by
        unfold CrushMap.readBucket CrushMap.bucket?
        rw [if_neg (by omega)]
      refine ⟨1, -1 - c, hout, fun self s μ hs => ⟨μ.visit s.cur, ?_⟩⟩
      obtain rfl : s.cur = b := Option.some.inj (hs.symm.trans hb)
      have hattempt : attempt H (probeInfo m start x args) self parentR rep outpos count (s, μ)
          = .error ⟨.badBucket (-1 - c), μ.visit s.cur⟩ := by
        unfold attempt drawItem itemType
        simp only [probeInfo, (hchoose s.ftotal).1, if_false, (hchoose s.ftotal).2, hnot, hneg,
          if_true, hread]
      simp only [loop, hattempt]
    · -- The item is a bucket of a type that is not wanted.
      obtain ⟨d, -, -, hd, -⟩ := hargs c hdoomed
      obtain ⟨k, -, hk, hkmax, -⟩ := CrushMap.bucket?_eq_some_iff.mp hd
      have hneg : c < 0 := by omega
      have hread : m.readBucket (-1 - c) = .ok d := m.readBucket_ok.mpr hd
      have htype : (d.type : ℤ) ≠ -1 := by omega
      have hin : ¬ (c ≥ 0 ∨ -1 - c ≥ m.maxBuckets) := by omega
      obtain ⟨n, i, hi, hfault⟩ := ih c
        ⟨⟨b, hb, List.mem_of_getElem? hj⟩, hneg, Option.isSome_iff_exists.mpr ⟨d, hd⟩⟩ hdoomed
      refine ⟨n + 1, i, hi, fun self s μ hs => ?_⟩
      obtain rfl : s.cur = b := Option.some.inj (hs.symm.trans hb)
      have hattempt : attempt H (probeInfo m start x args) self parentR rep outpos count (s, μ)
          = .ok (.again ({ s with cur := d }, μ.visit s.cur)) := by
        unfold attempt drawItem itemType
        simp only [probeInfo, (hchoose s.ftotal).1, if_false, (hchoose s.ftotal).2, hnot, hneg,
          if_true, hread, htype, ne_eq, not_false_eq_true, hin]
      obtain ⟨μ', hloop⟩ := hfault self { s with cur := d } (μ.visit s.cur) hd
      exact ⟨μ', (loop_again hattempt).trans hloop⟩

/-- With a dangling id in reach some call reads `map->buckets` outside the array. -/
theorem exists_fault (H : CrushHash) (x : ℤ) {start : CrushBucket} (hm : Filled m)
    (hacyclic : m.Acyclic) (hstart : m.Has start) (hdoomed : Doomed m start.id) (μ : Store) :
    ∃ args fuel i μ', m.maxBuckets ≤ i ∧
      crushChooseFirstn H fuel (probeInfo m start x args) 0 μ = .error ⟨.badBucket i, μ'⟩ := by
  obtain ⟨args, hargs⟩ := exists_leadsDown hm
  -- Led down by the arguments, the first search runs into the dangling id.
  obtain ⟨n, i, hi, hfault⟩ := descends_to_fault (H := H) hm hacyclic hargs start x 0 0 1 0 start.id
    hdoomed
  obtain ⟨μ', hsearch⟩ := hfault (crushChooseFirstn H n) (Search.start (probeInfo m start x args)) μ
    (hm.bucket_of_has hstart)
  have hpos : n ≠ 0 := by
    rintro rfl
    cases hsearch
  obtain ⟨k, rfl⟩ := Nat.exists_eq_succ_of_ne_zero hpos
  refine ⟨args, k + 2, i, μ', hi, ?_⟩
  have hpass : placeReplica H (probeInfo m start x args) (crushChooseFirstn H (k + 1)) (k + 1) 0
      ⟨0, 0, 1, μ⟩ = .error ⟨.badBucket i, μ'⟩ := by
    have hguard : 0 < (probeInfo m start x args).numrep ∧ (1 : ℤ) > 0 := ⟨Int.one_pos, Int.one_pos⟩
    unfold placeReplica
    dsimp only
    rw [if_pos hguard, hsearch]
  have hstart' : Replicas.start (probeInfo m start x args) μ = ⟨0, 0, 1, μ⟩ := rfl
  rw [crushChooseFirstn_succ, hstart']
  simp only [loop, hpass]

/-- **When dangling ids are rejected.**  On a map whose buckets are in place, every call from
    `start` reads `map->buckets` inside the array and gives up the replicas for which it draws an
    unknown id, if and only if no search from `start` can look up a dangling id. -/
theorem crushChooseFirstn_dangling_iff (H : CrushHash) (x : ℤ) (m : CrushMap) (start : CrushBucket)
    (hm : Filled m) (hacyclic : m.Acyclic) (hstart : m.Has start) :
    (∀ f parentR, f.map = m → f.bucket = start → f.x = x → Rejects H f parentR) ↔
      NoneDangles m start := by
  constructor
  · intro hall p c hreach henters hdangles
    obtain ⟨args, fuel, i, μ', -, hrun⟩ :=
      exists_fault H x hm hacyclic hstart ⟨p, c, hreach, henters, hdangles⟩ zeroStore
    have hstop := (hall (probeInfo m start x args) 0 rfl rfl rfl).in_range fuel zeroStore _ hrun
    cases hstop
  · rintro hnone f parentR rfl rfl -
    exact hnone.rejects hm hacyclic hstart parentR

theorem smallMap_filled : Filled smallMap where
  present := by
    intro i hlo hhi
    have hhi' : i < 3 := hhi
    obtain rfl | rfl | rfl : i = 0 ∨ i = 1 ∨ i = 2 := by omega
    all_goals exact ⟨_, rfl⟩
  id_eq := fun _ _ hb => smallMap_wellFormed.id_eq hb
  items_length := fun _ _ hb => smallMap_wellFormed.items_length hb

theorem smallMap_noneDangles : NoneDangles smallMap smallRoot := by
  rintro p c - ⟨⟨b, hb, hc⟩, -⟩ ⟨hneg, hout⟩
  have hout' : (3 : ℤ) ≤ -1 - c := hout
  obtain ⟨-, rfl⟩ | ⟨-, rfl⟩ | ⟨-, rfl⟩ := smallMap_bucket hb
  · obtain rfl | rfl : c = -2 ∨ c = -3 := by simpa [smallRoot] using hc
    all_goals omega
  · obtain rfl | rfl : c = 0 ∨ c = 0 + 1 := by simpa [smallHost] using hc
    all_goals omega
  · obtain rfl | rfl : c = 2 ∨ c = 2 + 1 := by simpa [smallHost] using hc
    all_goals omega

/-- The calls on the small map do not read outside of it. -/
theorem crushChooseFirstn_dangling_iff_smallHosts : Rejects rjenkins smallHostsInfo 0 :=
  (crushChooseFirstn_dangling_iff rjenkins 222 smallMap smallRoot smallMap_filled smallMap_acyclic
    ⟨0, rfl⟩).mpr smallMap_noneDangles smallHostsInfo 0 rfl rfl rfl

/-- The small map with the id `-9` in place of its second host. -/
def danglingRoot : CrushBucket := { smallRoot with items := [-2, -9] }

def danglingMap : CrushMap :=
  { smallMap with buckets := [some danglingRoot, some (smallHost (-2) 0)], maxBuckets := 2 }

theorem danglingMap_bucket {i : ℤ} {b : CrushBucket} (h : danglingMap.bucket? i = some b) :
    i = 0 ∧ b = danglingRoot ∨ i = 1 ∧ b = smallHost (-2) 0 := by
  obtain ⟨k, hk, rfl, -, hb⟩ := CrushMap.bucket?_eq_some_iff.mp h
  have hk2 : k < 2 := hk
  obtain rfl | rfl : k = 0 ∨ k = 1 := by omega
  all_goals
    cases hb
    simp

theorem danglingMap_filled : Filled danglingMap where
  present := by
    intro i hlo hhi
    have hhi' : i < 2 := hhi
    obtain rfl | rfl : i = 0 ∨ i = 1 := by omega
    all_goals exact ⟨_, rfl⟩
  id_eq := by
    intro i b hb
    obtain ⟨rfl, rfl⟩ | ⟨rfl, rfl⟩ := danglingMap_bucket hb
    all_goals rfl
  items_length := by
    intro i b hb
    obtain ⟨rfl, rfl⟩ | ⟨rfl, rfl⟩ := danglingMap_bucket hb
    all_goals rfl

/-- **A dangling id is followed.**  The call of `test` for object 222 draws `-9` and reads
    `map->buckets[8]` of a map with two buckets. -/
theorem dangling_followed :
    Filled danglingMap ∧ danglingMap.Acyclic ∧ danglingMap.Has danglingRoot ∧
      (∃ μ', crushChooseFirstn rjenkins 60
        (testInfo danglingMap danglingRoot (fun _ => 0x10000) 4 222 1) 0 zeroStore
          = .error ⟨.badBucket 8, μ'⟩) ∧
      ¬ Rejects rjenkins (testInfo danglingMap danglingRoot (fun _ => 0x10000) 4 222 1) 0 := by
  have hstop : (errorOf (crushChooseFirstn rjenkins 60
      (testInfo danglingMap danglingRoot (fun _ => 0x10000) 4 222 1) 0 zeroStore)).map Fault.stop
        = some (.badBucket 8) := by decide +kernel
  have hfault : ∃ μ', crushChooseFirstn rjenkins 60
      (testInfo danglingMap danglingRoot (fun _ => 0x10000) 4 222 1) 0 zeroStore
        = .error ⟨.badBucket 8, μ'⟩ := by
    obtain ⟨⟨stop, μ'⟩, hrun, rfl⟩ := error_of_errorOf_map hstop
    exact ⟨μ', hrun⟩
  refine ⟨danglingMap_filled, CrushMap.acyclic_of_rankOk smallRank (by decide), ⟨0, rfl⟩, hfault,
    fun hrejects => ?_⟩
  obtain ⟨μ', hrun⟩ := hfault
  cases hrejects.in_range _ _ _ hrun

end MyCeph.Crush
