import MyCeph.Crush.Dangling
import MyCeph.Crush.Layout

namespace MyCeph.Crush

open Lib

/-!
# Building the map of ten hosts

`init`, which numbers the devices with a running counter and puts `max_devices` one below the
number of devices.  The map is well built otherwise (`init_layout`), but its last device fails the
test `item >= map->max_devices` whenever it is drawn.
-/

/-- `BUCKETS`. -/
def maxInitBuckets : ℕ := 11

/-- The `items` of the root. -/
def initRootItems : List ℤ := [-2, -3, -4, -5, -6, -7, -8, -9, -10, -11]

/-- One pass of the loop over the hosts, for the host at index `i`, with the running number of the
    next device. -/
def initHostPass (weight : List UInt32) (nums i : ℕ) :
    ℕ × List (Option CrushBucket) → Except BuildFault (ℕ × List (Option CrushBucket))
  | (osd, buckets) =>
    let host := newBucket (-1 - i) 1 (nums / 10)
    match forLoop (fun _ => hostPass weight) host.size.toNat (host, osd) with
    | .error e => .error e
    | .ok (host, osd) =>
      match storeBucket buckets i host with
      | .error e => .error e
      | .ok buckets => .ok (osd, buckets)

/-- One pass of the loop over the items of the root. -/
def initRootPass (buckets : List (Option CrushBucket)) (j : ℕ) (root : CrushBucket) :
    Except BuildFault CrushBucket :=
  let item := initRootItems.getD j 0
  match buckets[(-1 - item).toNat]?.join with
  | none => .error (.buckets (-1 - item).toNat)
  | some child => .ok (root.addItem item child.weight)

/-- The assignments to the fields of the map in `init`. -/
def initFields (osd : ℕ) (buckets : List (Option CrushBucket)) : CrushMap where
  buckets := buckets
  maxBuckets := 11
  maxDevices := osd - 1
  chooseLocalTries := 0
  chooseLocalFallbackTries := 0
  chooseTotalTries := 50
  chooseleafVaryR := 1
  chooseleafStable := 1

/-- `init`. -/
def init (buckets : List (Option CrushBucket)) (weight : List UInt32) (nums : ℕ) :
    Except BuildFault CrushMap :=
  match forLoop (fun i buckets => storeBucket buckets i (newBucket 0 0 0)) maxInitBuckets
      buckets with
  | .error e => .error e
  | .ok buckets =>
    match forLoop (fun j => initHostPass weight nums (j + 1)) (maxInitBuckets - 1) (0, buckets) with
    | .error e => .error e
    | .ok (osd, buckets) =>
      let root := newBucket (-1) 11 10
      match forLoop (initRootPass buckets) root.size.toNat root with
      | .error e => .error e
      | .ok root =>
        match storeBucket buckets 0 root with
        | .error e => .error e
        | .ok buckets => .ok (initFields osd buckets)

/-! ### What `init` builds -/

variable {weight : List UInt32}

/-- The bucket at index `i`: the root, then the hosts. -/
def initBucketAt (weight : List UInt32) (n i : ℕ) : CrushBucket :=
  if i = 0 then parentOver weight (-1) 11 10 (fun j => j + 1) n 0
  else hostOver weight (-(i : ℤ) - 1) n (n * (i - 1))

theorem initBucketAt_host (n j : ℕ) :
    initBucketAt weight n (j + 1) = hostOver weight (-((j + 1 : ℕ) : ℤ) - 1) n (n * j) := by
  rw [initBucketAt, if_neg (Nat.succ_ne_zero j), Nat.add_sub_cancel]

/-- The devices of host `j` are among the first `10 * n`. -/
theorem initDevice_le {n j : ℕ} (hj : j < 10) : n * j + n ≤ 10 * n := by
  rw [← Nat.mul_succ, Nat.mul_comm 10 n]
  exact Nat.mul_le_mul_left n hj

/-- **The loop over the hosts** fills in the indices behind the root. -/
theorem initHostLoop {nums : ℕ} {bs : List (Option CrushBucket)} (hnums : nums / 10 < 2 ^ 32)
    (hlen : 10 * (nums / 10) ≤ weight.length) (hroom : 11 ≤ bs.length) :
    ∃ bs', forLoop (fun j => initHostPass weight nums (j + 1)) 10 (0, bs)
        = .ok (nums / 10 * 10, bs') ∧
      Fills (initBucketAt weight (nums / 10)) bs bs' 1 11 := by
  generalize hn : nums / 10 = n at *
  -- After `j` hosts the devices are used up to `n * j` and the indices up to `j`.
  let I (j : ℕ) (s : ℕ × List (Option CrushBucket)) : Prop :=
    s.1 = n * j ∧ Fills (initBucketAt weight n) bs s.2 1 (j + 1)
  have hpass : ∀ j < 10, ∀ s, I j s → ∃ s', initHostPass weight nums (j + 1) s = .ok s' ∧
      I (j + 1) s' := by
    rintro j hj ⟨osd, bs₁⟩ ⟨hosd, hfills⟩
    obtain rfl : osd = n * j := hosd
    have hid : -1 - ((j + 1 : ℕ) : ℤ) = -((j + 1 : ℕ) : ℤ) - 1 := by omega
    have hsize : (newBucket (-((j + 1 : ℕ) : ℤ) - 1) 1 n).size.toNat = n :=
      UInt32.toNat_ofNat_of_lt' hnums
    have hdevices : n * j + n ≤ weight.length := le_trans (initDevice_le hj) hlen
    have hlen₁ : bs₁.length = bs.length := hfills.length
    have hnone : Fills (initBucketAt weight n) bs₁ bs₁ (j + 1 + 1) (j + 1 + 1) := Fills.none _ _
    obtain ⟨bs₂, hstore, hfills₂⟩ := hnone.store (by omega) (by omega)
    rw [initBucketAt_host] at hstore
    refine ⟨(n * j + n, bs₂), ?_, (Nat.mul_succ n j).symm,
      hfills.trans hfills₂ (by omega) (by omega)⟩
    simp only [initHostPass, hn, hid, hsize, hostLoop _ hdevices, hstore]
  obtain ⟨⟨osd, bs'⟩, hloop, hosd, hfills⟩ := forLoop_rule I hpass (s := (0, bs))
    ⟨rfl, Fills.none bs 1⟩
  obtain rfl : osd = n * 10 := hosd
  exact ⟨bs', hloop, hfills⟩

/-- **The loop over the items of the root.** -/
theorem initRootLoop {n : ℕ} {bs : List (Option CrushBucket)}
    (hget : ∀ j < 10, bs[j + 1]? = some (some (initBucketAt weight n (j + 1)))) :
    forLoop (initRootPass bs) 10 (newBucket (-1) 11 10) = .ok (initBucketAt weight n 0) := by
  -- After `j` passes the root is one over `j` hosts.
  let I (j : ℕ) (root : CrushBucket) : Prop :=
    root = { parentOver weight (-1) 11 j (fun j => j + 1) n 0 with size := UInt32.ofNat 10 }
  have hitem : ∀ j < 10, initRootItems.getD j 0 = -((j + 1 : ℕ) : ℤ) - 1 := by decide
  have hpass : ∀ j < 10, ∀ root, I j root → ∃ root', initRootPass bs j root = .ok root' ∧
      I (j + 1) root' := by
    intro j hj root hroot
    have hindex : (-1 - (-((j + 1 : ℕ) : ℤ) - 1)).toNat = j + 1 := by omega
    refine ⟨root.addItem (-((j + 1 : ℕ) : ℤ) - 1) (initBucketAt weight n (j + 1)).weight,
      by simp only [initRootPass, hitem j hj, hindex, hget j hj, Option.join_some], ?_⟩
    have hweight : (initBucketAt weight n (j + 1)).weight
        = UInt32.ofNat (rangeWeight weight (0 + n * j) n) := by
      rw [initBucketAt_host, Nat.zero_add]
      rfl
    subst hroot
    rw [hweight]
    exact parentOver_addItem (-1) 11 j (fun j => j + 1) n 0 (UInt32.ofNat 10)
  obtain ⟨root', hloop, hroot⟩ := forLoop_rule I hpass (s := newBucket (-1) 11 10)
    (newBucket_eq_parentOver (-1) 11 10 _ n 0)
  cases hroot
  exact hloop

/-- **What `init` hands out.** -/
theorem init_run {nums : ℕ} {buckets : List (Option CrushBucket)} (hnums : nums / 10 < 2 ^ 32)
    (hlen : 10 * (nums / 10) ≤ weight.length) (hroom : 11 ≤ buckets.length) :
    ∃ m, init buckets weight nums = .ok m ∧ m.maxBuckets = 11 ∧
      m.maxDevices = (10 * (nums / 10) : ℕ) - 1 ∧
      ∀ i < 11, m.bucket? (i : ℕ) = some (initBucketAt weight (nums / 10) i) := by
  -- The buckets are allocated first, which leaves the array as long as it was.
  have hstore : ∀ i < maxInitBuckets, ∀ bs : List (Option CrushBucket),
      bs.length = buckets.length → ∃ bs', storeBucket bs i (newBucket 0 0 0) = .ok bs' ∧
        bs'.length = buckets.length := by
    intro i hi bs hbs
    have hi11 : i < 11 := hi
    exact ⟨_, if_pos (by omega), (List.length_set ..).trans hbs⟩
  obtain ⟨bs, hnew, hlength⟩ := forLoop_rule (fun _ bs => bs.length = buckets.length) hstore
    (s := buckets) rfl
  have hroom' : 11 ≤ bs.length := hlength.symm ▸ hroom
  obtain ⟨bs', hhosts, hfills⟩ := initHostLoop hnums hlen hroom'
  have hroot := initRootLoop fun j hj => by
    rw [hfills.get, if_pos ⟨by omega, by omega⟩]
  obtain ⟨bs'', hstore, hfills'⟩ := hfills.store (by omega) (by omega)
  refine ⟨initFields (nums / 10 * 10) bs'', ?_, rfl, ?_, fun i hi => ?_⟩
  · unfold init
    simp only [hnew, show maxInitBuckets - 1 = 10 from rfl, hhosts,
      show (newBucket (-1) 11 10).size.toNat = 10 from rfl, hroot, hstore]
  · show ((nums / 10 * 10 : ℕ) : ℤ) - 1 = _
    rw [Nat.mul_comm]
  · have hmax : (i : ℤ) < (initFields (nums / 10 * 10) bs'').maxBuckets := Int.ofNat_lt.mpr hi
    rw [CrushMap.bucket?, if_pos ⟨Int.natCast_nonneg i, hmax⟩, Int.toNat_natCast]
    show bs''[i]?.join = _
    rw [hfills'.get, if_pos ⟨by omega, hi⟩]
    rfl

/-- Where an item stands in the map of `init`. -/
def initPlaceAt (n : ℕ) (c : ℤ) : ℕ × ℕ :=
  if 0 ≤ c then (c.toNat / n + 1, c.toNat % n) else (0, (-1 - c).toNat - 1)

theorem initPlaceAt_host (n j : ℕ) : initPlaceAt n (-((j + 1 : ℕ) : ℤ) - 1) = (0, j) := by
  rw [initPlaceAt, if_neg (by omega)]
  congr 1
  omega

/-- A device stands in the host that its number says. -/
theorem initPlaceAt_device {n k j : ℕ} (hj : j < n) :
    initPlaceAt n ((n * k + j : ℕ) : ℤ) = (k + 1, j) := by
  have hdiv : (n * k + j) / n = k := by
    rw [Nat.mul_add_div (by omega), Nat.div_eq_of_lt hj, Nat.add_zero]
  have hmod : (n * k + j) % n = j := by
    rw [Nat.mul_add_mod, Nat.mod_eq_of_lt hj]
  rw [initPlaceAt, if_pos (Int.natCast_nonneg _), Int.toNat_natCast, hdiv, hmod]

/-- **The layout of ten hosts.** -/
theorem init_layout {m : CrushMap} {n : ℕ} (hn : n < 2 ^ 32) (hmax : m.maxBuckets = 11)
    (hget : ∀ i < 11, m.bucket? (i : ℕ) = some (initBucketAt weight n i)) :
    Layout m weight (initBucketAt weight n) (initPlaceAt n) 11 (10 * n) := by
  refine ⟨hmax, hget, fun i hi => ?_, fun e he => ?_, fun i hpos hi => ?_, by omega, ?_⟩
  · cases i with
    | zero =>
      refine .parent rfl (by omega) (by omega) (by omega) (fun j hj => by omega) (fun j hj => ?_)
        fun j hj => initPlaceAt_host n j
      rw [initBucketAt_host, Nat.zero_add]
      rfl
    | succ j =>
      exact .host (initBucketAt_host n j) hn (initDevice_le (by omega)) fun l hl =>
        initPlaceAt_device hl
  · -- The device number says the host and the place in it.
    have hn : 0 < n := by omega
    have hhost : e / n < 10 := Nat.div_lt_of_lt_mul (by rwa [Nat.mul_comm])
    have hlt : e % n < n := Nat.mod_lt e hn
    rw [← Nat.div_add_mod e n, initPlaceAt_device hlt, initBucketAt_host]
    exact ⟨by omega, hostOver_item.mpr ⟨hlt, rfl⟩⟩
  · obtain ⟨j, rfl⟩ : ∃ j, i = j + 1 := ⟨i - 1, by omega⟩
    rw [show -1 - ((j + 1 : ℕ) : ℤ) = -((j + 1 : ℕ) : ℤ) - 1 by omega, initPlaceAt_host]
    exact ⟨hpos, parentOver_item.mpr ⟨by omega, rfl⟩⟩
  · rw [Nat.mul_comm]
    rfl

/-! ### The last device -/

/-- No device of the map fails the test `item >= map->max_devices` when it is drawn. -/
def NeverDiscards (m : CrushMap) : Prop :=
  ∀ (H : CrushHash) (f : FirstnInfo) (b : CrushBucket) (r : ℤ) (position : ℕ) (item : ℤ),
    f.map = m → m.Has b → drawItem H f b r position = .ok (.skip item) → 0 ≤ item →
      m.Stores item → item < m.maxDevices

/-- What is asked of the map of `init`: it is well built, `max_devices` is right, and no replica is
    lost on its devices. -/
structure UsableInFull (m : CrushMap) (weight : List UInt32) (devices : ℕ) : Prop where
  wellBuilt : WellBuilt m weight devices
  maxDevicesOk : m.MaxDevicesOk
  neverDiscards : NeverDiscards m

/-- The call loses its replica: it draws a device of its map, which fails the test, and places
    nothing. -/
def LosesReplica (H : CrushHash) (f : FirstnInfo) : Prop :=
  (∃ b r d, f.map.Has b ∧ drawItem H f b r f.outpos = .ok (.skip d) ∧ 0 ≤ d ∧ f.map.Stores d ∧
    f.map.maxDevices ≤ d) ∧
  ∀ fuel parentR μ, 3 ≤ fuel → ∃ μ', crushChooseFirstn H fuel f parentR μ = .ok (f.outpos, μ')

/-- `choose_args` that lead from the root to the last device of the last host. -/
def lastArgs (n : ℕ) (i : ℤ) : CrushChooseArg :=
  if i = 0 then pickArg 10 9 else pickArg n (n - 1)

/-- The call of `test`, for one device and with these `choose_args`. -/
def lastInfo (m : CrushMap) (n : ℕ) (root : CrushBucket) (x : ℤ) : FirstnInfo :=
  { testInfo m root (fun _ => 0x10000) (m.maxDevices + 1) x 1 with
    numrep := 1
    outSize := 1
    chooseArgs := some (lastArgs n) }

/-- A call for one device whose first draw leads to a bucket where every draw is skipped. -/
theorem places_nothing {H : CrushHash} {f : FirstnInfo} {b : CrushBucket} {item d : ℤ}
    (hnumrep : f.numrep = 1) (hsize : f.outSize = 1) (houtpos : f.outpos = 0)
    (hdescend : ∀ r, drawItem H f f.bucket r 0 = .ok (.descend item b))
    (hskip : ∀ r, drawItem H f b r 0 = .ok (.skip d)) {fuel : ℕ} (hfuel : 3 ≤ fuel) (parentR : ℤ)
    (μ : Store) : ∃ μ', crushChooseFirstn H fuel f parentR μ = .ok (0, μ') := by
  obtain ⟨k, rfl⟩ : ∃ k, fuel = k + 2 + 1 := ⟨fuel - 3, by omega⟩
  have hstart : Replicas.start f μ = ⟨0, 0, 1, μ⟩ := by
    simp [Replicas.start, firstRep, hsize, houtpos]
  -- Every search enters `b`, draws an item too large there and gives up at once.
  have hsearch : ∀ self, loop attemptTimeout (attempt H f self parentR 0 0 1) (k + 2)
      (Search.start f, μ) = .ok (.skip, (μ.visit f.bucket).visit b) := by
    intro self
    have hfirst : attempt H f self parentR 0 0 1 (Search.start f, μ)
        = .ok (.again (⟨b, 0, 0⟩, μ.visit f.bucket)) := by
      unfold attempt
      simp only [Search.start, hdescend]
    have hsecond : attempt H f self parentR 0 0 1 (⟨b, 0, 0⟩, μ.visit f.bucket)
        = .ok (.exit (.skip, (μ.visit f.bucket).visit b)) := by
      unfold attempt
      simp only [hskip]
    rw [loop_again hfirst, loop_exit hsecond]
  have hplace : ∀ self, placeReplica H f self (k + 2) parentR ⟨0, 0, 1, μ⟩
      = .ok (.again ⟨1, 0, 1, (μ.visit f.bucket).visit b⟩) := by
    intro self
    unfold placeReplica
    simp only [hnumrep, hsearch]
    rfl
  have hend : ∀ self μ, placeReplica H f self (k + 2) parentR ⟨1, 0, 1, μ⟩
      = .ok (.exit (0, μ)) := by
    intro self μ
    unfold placeReplica
    simp only [hnumrep]
    rfl
  refine ⟨(μ.visit f.bucket).visit b, ?_⟩
  rw [crushChooseFirstn_succ, hstart, loop_again (hplace _), loop_exit (hend _ _)]

section Last

variable {m : CrushMap} {n : ℕ} (hn : n < 2 ^ 32) (hpos : 1 ≤ n) (hmax : m.maxBuckets = 11)
  (hdevices : m.maxDevices = (10 * n : ℕ) - 1)
  (hget : ∀ i < 11, m.bucket? (i : ℕ) = some (initBucketAt weight n i))

include hn hmax hdevices hget

/-- The root draws the last host. -/
theorem lastInfo_descend (H : CrushHash) (x r : ℤ) :
    drawItem H (lastInfo m n (initBucketAt weight n 0) x) (initBucketAt weight n 0) r 0
      = .ok (.descend (-11) (initBucketAt weight n 10)) := by
  have hroot : (initBucketAt weight n 0).items[9]? = some (-11) := rfl
  have hargs : lastArgs n (-1 - (initBucketAt weight n 0).id)
      = pickArg (initBucketAt weight n 0).size.toNat 9 := rfl
  obtain ⟨hne, hchoose⟩ := chooseItem_pickArg (H := H)
    ((init_layout hn hmax hget).laidOut 0 (by omega)).lengths.1 hroot hargs x r 0
  have hhost : m.readBucket 10 = .ok (initBucketAt weight n 10) :=
    m.readBucket_ok.mpr (hget 10 (by omega))
  -- The id of a bucket passes the test against `max_devices`.
  have hnot : ¬ (-11 : ℤ) ≥ m.maxDevices := by omega
  have htype : ((initBucketAt weight n 10).type : ℤ) ≠ 0 := by
    rw [initBucketAt_host n 9]
    exact Int.one_ne_zero
  have hin : ¬ ((-11 : ℤ) ≥ 0 ∨ 10 ≥ m.maxBuckets) := by omega
  unfold drawItem itemType
  simp only [lastInfo, testInfo, hne, if_false, hchoose, hnot, hin, if_true, ne_eq, htype,
    not_false_eq_true, show (-11 : ℤ) < 0 by decide, show (-1 : ℤ) - -11 = 10 by decide, hhost]

include hpos

/-- The last host draws its last device, which fails the test. -/
theorem lastInfo_skip (H : CrushHash) (x r : ℤ) :
    drawItem H (lastInfo m n (initBucketAt weight n 0) x) (initBucketAt weight n 10) r 0
      = .ok (.skip m.maxDevices) := by
  have hlast : (initBucketAt weight n 10).items[n - 1]? = some m.maxDevices := by
    rw [initBucketAt_host n 9]
    exact hostOver_item.mpr ⟨by omega, by omega⟩
  have hsize : (initBucketAt weight n 10).size.toNat = n := by
    rw [initBucketAt_host n 9]
    exact UInt32.toNat_ofNat_of_lt' hn
  have hargs : lastArgs n (-1 - (initBucketAt weight n 10).id)
      = pickArg (initBucketAt weight n 10).size.toNat (n - 1) := by
    rw [hsize]
    rfl
  obtain ⟨hne, hchoose⟩ := chooseItem_pickArg (H := H)
    ((init_layout hn hmax hget).laidOut 10 (by omega)).lengths.1 hlast hargs x r 0
  unfold drawItem
  simp only [lastInfo, testInfo, hne, if_false, hchoose, ge_iff_le, le_refl, if_true]

/-- **The last device is lost.** -/
theorem lastInfo_loses (H : CrushHash) (x : ℤ) :
    LosesReplica H (lastInfo m n (initBucketAt weight n 0) x) := by
  have hdescend := lastInfo_descend hn hmax hdevices hget H x
  have hskip := lastInfo_skip hn hpos hmax hdevices hget H x
  have hstored : m.Stores m.maxDevices :=
    ((init_layout hn hmax hget).stores_iff (by omega)).mpr (by omega)
  refine ⟨⟨_, 0, _, ⟨10, hget 10 (by omega)⟩, hskip 0, by omega, hstored, le_refl _⟩, ?_⟩
  intro fuel parentR μ hfuel
  exact places_nothing rfl rfl rfl hdescend hskip hfuel parentR μ

end Last

/-- **`init`'s map cannot be used in full**, for any number of devices and any weight table: it is
    well built but for `max_devices`, which is the highest device itself, and for every hash and
    every object some call loses its replica on that device. -/
theorem init_not_usable (buckets : List (Option CrushBucket)) (weight : List UInt32) (nums : ℕ)
    (hnums : 10 ≤ nums) (hint : nums < 2 ^ 31) (hlen : nums ≤ weight.length)
    (hroom : 11 ≤ buckets.length) (htotal : (weight.map UInt32.toNat).sum < 2 ^ 32) :
    ∃ m, init buckets weight nums = .ok m ∧ WellBuilt m weight (10 * (nums / 10)) ∧
      m.maxDevices = (10 * (nums / 10) : ℕ) - 1 ∧
      (∀ H x, ∃ f : FirstnInfo, f.map = m ∧ f.x = x ∧ f.numrep = 1 ∧ LosesReplica H f) ∧
      ¬ m.MaxDevicesOk ∧ ¬ NeverDiscards m ∧ ¬ UsableInFull m weight (10 * (nums / 10)) := by
  have hn : nums / 10 < 2 ^ 32 := by omega
  have hdevices : 10 * (nums / 10) ≤ weight.length := by omega
  obtain ⟨m, hrun, hmax, hmaxdev, hget⟩ := init_run hn hdevices hroom
  have htake : ((weight.take (10 * (nums / 10))).map UInt32.toNat).sum < 2 ^ 32 := by
    refine lt_of_le_of_lt ?_ htotal
    rw [← rangeWeight_take, ← weight.take_length, ← rangeWeight_take, weight.take_length]
    exact rangeWeight_le (by omega)
  have hbuilt := (init_layout hn hmax hget).wellBuilt hdevices htake
  have hloses : ∀ H x, ∃ f : FirstnInfo, f.map = m ∧ f.x = x ∧ f.numrep = 1 ∧ LosesReplica H f :=
    fun H x => ⟨_, rfl, rfl, rfl, lastInfo_loses hn (by omega) hmax hmaxdev hget H x⟩
  -- `max_devices` is the highest device, not one more.
  have hbad : ¬ m.MaxDevicesOk := by
    rw [hbuilt.maxDevicesOk_iff (by omega)]
    omega
  have hdiscards : ¬ NeverDiscards m := by
    intro hnever
    obtain ⟨f, rfl, -, -, ⟨b, r, d, hb, hdraw, hd, hstored, hge⟩, -⟩ := hloses rjenkins 0
    have := hnever rjenkins f b r f.outpos d rfl hb hdraw hd hstored
    omega
  exact ⟨m, hrun, hbuilt, hmaxdev, hloses, hbad, hdiscards, fun h => hbad h.maxDevicesOk⟩

/-- Ten devices of weight 1.0, one in each host. -/
theorem init_not_usable_ten :
    ∃ m, init (List.replicate 11 none) (List.replicate 10 0x10000) 10 = .ok m ∧
      WellBuilt m (List.replicate 10 0x10000) 10 ∧ m.maxDevices = 9 := by
  obtain ⟨m, hrun, hbuilt, hmaxdev, -⟩ := init_not_usable (List.replicate 11 none)
    (List.replicate 10 0x10000) 10 (by omega) (by omega) (by decide) (by decide) (by decide)
  exact ⟨m, hrun, hbuilt, hmaxdev⟩

/-- The host at index `i` of the map of `init` for ten devices of weight 1.0. -/
def tenHost (i : ℕ) : CrushBucket where
  id := -1 - i
  type := 1
  hash := 0
  weight := 0x10000
  size := 1
  items := [(i : ℤ) - 1]
  itemWeights := [0x10000]

/-- The root of that map. -/
def tenRoot : CrushBucket where
  id := -1
  type := 11
  hash := 0
  weight := 0xa0000
  size := 10
  items := initRootItems
  itemWeights := List.replicate 10 0x10000

/-- The map of `init` for ten devices of weight 1.0. -/
def tenMap : CrushMap :=
  initFields 10 (some tenRoot :: (List.range 10).map fun j => some (tenHost (j + 1)))

/-- **A lost replica.**  Of ten devices object 0 gets two instead of three, because `max_devices`
    is 9 and device 9 is stored in the map; with `max_devices` 10 it gets three. -/
theorem init_loses_replica :
    init (List.replicate 11 none) (List.replicate 10 0x10000) 10 = .ok tenMap ∧
      tenMap.Stores 9 ∧ tenMap.maxDevices = 9 ∧
      (∃ μ, crushChooseFirstn rjenkins 8 (testInfo tenMap tenRoot (fun _ => 0x10000) 10 0 1) 0
        zeroStore = .ok (2, μ)) ∧
      (∃ μ, crushChooseFirstn rjenkins 8 (testInfo { tenMap with maxDevices := 10 } tenRoot
        (fun _ => 0x10000) 10 0 1) 0 zeroStore = .ok (3, μ)) ∧
      ¬ UsableInFull tenMap (List.replicate 10 0x10000) 10 := by
  have hstored : tenMap.Stores 9 := ⟨tenHost 10, ⟨10, rfl⟩, by decide⟩
  have htwo : (crushChooseFirstn rjenkins 8 (testInfo tenMap tenRoot (fun _ => 0x10000) 10 0 1) 0
      zeroStore).toOption.map Prod.fst = some 2 := by decide +kernel
  have hthree : (crushChooseFirstn rjenkins 8 (testInfo { tenMap with maxDevices := 10 } tenRoot
      (fun _ => 0x10000) 10 0 1) 0 zeroStore).toOption.map Prod.fst = some 3 := by decide +kernel
  refine ⟨rfl, hstored, rfl, ?_, ?_, fun h => ?_⟩
  · obtain ⟨⟨p, μ⟩, hrun, rfl⟩ := ok_of_toOption_map htwo
    exact ⟨μ, hrun⟩
  · obtain ⟨⟨p, μ⟩, hrun, rfl⟩ := ok_of_toOption_map hthree
    exact ⟨μ, hrun⟩
  · -- The highest item is at least 9.
    obtain ⟨d, -, hle, hmax⟩ := h.maxDevicesOk
    have h9 := hle 9 hstored
    have hmax' : (9 : ℤ) = d + 1 := hmax
    omega

end MyCeph.Crush
