import Mathlib.Algebra.BigOperators.Group.Finset.Basic
import Mathlib.Algebra.BigOperators.Intervals
import MyCeph.Crush.Map
import MyCeph.Lib.Loop

namespace MyCeph.Crush

open Lib

/-!
# Building the map of racks and hosts

`construct_host`, `construct_rack` and `construct_root`, which number devices and buckets with the
global counters `global_osd_id` and `global_bucket_id`, and the map `init2` makes of the result.
A read outside the weight table or a write outside the bucket array stops the construction.

* `hostLoop` — the loop over the devices of a host;
* `childLoop` — the loop over the children of a rack or of the root, for any constructor that
  numbers what it builds in depth-first order (`ConstructsAt`);
* `constructRoot_run` — the array that `construct_root` leaves behind is `bucketAt`.
-/

/-- A read outside the weight table, or an access outside the bucket array. -/
inductive BuildFault where
  | weight (i : ℕ)
  | buckets (i : ℕ)
deriving DecidableEq

/-- `global_osd_id`, `global_bucket_id` and the bucket array. -/
structure Building where
  globalOsdId : ℕ
  globalBucketId : ℕ
  buckets : List (Option CrushBucket)

/-- `buckets[i] = bucket`. -/
def storeBucket (buckets : List (Option CrushBucket)) (i : ℕ) (bucket : CrushBucket) :
    Except BuildFault (List (Option CrushBucket)) :=
  if i < buckets.length then .ok (buckets.set i (some bucket)) else .error (.buckets i)

/-- A bucket before its items are filled in. -/
def newBucket (id : ℤ) (type size : ℕ) : CrushBucket where
  id := id
  type := type
  hash := 0
  weight := 0
  size := UInt32.ofNat size
  items := []
  itemWeights := []

/-- The next item of a bucket. -/
def CrushBucket.addItem (b : CrushBucket) (item : ℤ) (w : UInt32) : CrushBucket :=
  { b with
    weight := b.weight + w
    items := b.items ++ [item]
    itemWeights := b.itemWeights ++ [w] }

/-- One pass of the loop over the devices of a host, with the number of the next device. -/
def hostPass (weight : List UInt32) : CrushBucket × ℕ → Except BuildFault (CrushBucket × ℕ)
  | (host, osd) =>
    match weight[osd]? with
    | none => .error (.weight osd)
    | some w => .ok (host.addItem osd w, osd + 1)

/-- `construct_host`. -/
def constructHost (weight : List UInt32) (hostOsdNums : ℕ) (id : ℤ) (st : Building) :
    Except BuildFault (CrushBucket × Building) :=
  let host := newBucket id 1 hostOsdNums
  match forLoop (fun _ => hostPass weight) host.size.toNat (host, st.globalOsdId) with
  | .error e => .error e
  | .ok (host, osd) => .ok (host, { st with globalOsdId := osd })

/-- One pass of the loops of `construct_rack` and `construct_root` over their children. -/
def childPass (construct : ℤ → Building → Except BuildFault (CrushBucket × Building)) :
    CrushBucket × Building → Except BuildFault (CrushBucket × Building)
  | (parent, st) =>
    let itemId := st.globalBucketId
    match construct (-itemId - 1) { st with globalBucketId := itemId + 1 } with
    | .error e => .error e
    | .ok (child, st) =>
      match storeBucket st.buckets itemId child with
      | .error e => .error e
      | .ok buckets =>
        .ok (parent.addItem (-itemId - 1) child.weight, { st with buckets := buckets })

/-- `construct_rack`. -/
def constructRack (weight : List UInt32) (hostOsdNums : ℕ) (id : ℤ) (st : Building) :
    Except BuildFault (CrushBucket × Building) :=
  let rack := newBucket id 3 10
  forLoop (fun _ => childPass (constructHost weight hostOsdNums)) rack.size.toNat (rack, st)

/-- `construct_root`.  The root is stored first and filled in through its pointer, which the
    array shows when the loop is through. -/
def constructRoot (weight : List UInt32) (hostOsdNums : ℕ) (st : Building) :
    Except BuildFault (CrushBucket × Building) :=
  let rootId := st.globalBucketId
  let root := newBucket (-1) 10 5
  match storeBucket st.buckets rootId root with
  | .error e => .error e
  | .ok buckets =>
    let st := { st with globalBucketId := rootId + 1, buckets := buckets }
    match forLoop (fun _ => childPass (constructRack weight hostOsdNums)) root.size.toNat
        (root, st) with
    | .error e => .error e
    | .ok (root, st) =>
      match storeBucket st.buckets rootId root with
      | .error e => .error e
      | .ok buckets => .ok (root, { st with buckets := buckets })

/-- The assignments to the fields of the map in `init2`. -/
def Building.toMap (st : Building) : CrushMap where
  buckets := st.buckets
  maxBuckets := st.globalBucketId
  maxDevices := st.globalOsdId
  chooseLocalTries := 0
  chooseLocalFallbackTries := 0
  chooseTotalTries := 50
  chooseleafVaryR := 1
  chooseleafStable := 1

/-- `construct_root` with the two counters at 0, and the map `init2` makes of it. -/
def constructMap (weight : List UInt32) (hostOsdNums : ℕ) (buckets : List (Option CrushBucket)) :
    Except BuildFault CrushMap :=
  match constructRoot weight hostOsdNums ⟨0, 0, buckets⟩ with
  | .error e => .error e
  | .ok (_, st) => .ok st.toMap

/-- `init2`, with the bucket array it is given. -/
def init2 (osdSum hostOsdNums : ℕ) (buckets : List (Option CrushBucket)) :
    Except BuildFault CrushMap :=
  constructMap (List.replicate osdSum 176) hostOsdNums buckets

/-! ### Buckets over consecutive devices -/

variable (weight : List UInt32)

/-- The weight of the `n` devices from `d` on, without wrapping around. -/
def rangeWeight (d n : ℕ) : ℕ := ∑ j ∈ Finset.range n, (weight.getD (d + j) 0).toNat

/-- The weight of two runs of devices behind each other. -/
theorem rangeWeight_add (d n k : ℕ) :
    rangeWeight weight d (n + k) = rangeWeight weight d n + rangeWeight weight (d + n) k := by
  unfold rangeWeight
  rw [Finset.sum_range_add]
  simp only [Nat.add_assoc]

theorem rangeWeight_succ (d n : ℕ) :
    rangeWeight weight d (n + 1) = rangeWeight weight d n + (weight.getD (d + n) 0).toNat := by
  rw [rangeWeight_add]
  simp [rangeWeight]

/-- A host over the devices `d` to `d + n - 1`. -/
def hostOver (id : ℤ) (n d : ℕ) : CrushBucket where
  id := id
  type := 1
  hash := 0
  weight := UInt32.ofNat (rangeWeight weight d n)
  size := UInt32.ofNat n
  items := (List.range n).map fun j => ((d + j : ℕ) : ℤ)
  itemWeights := (List.range n).map fun j => weight.getD (d + j) 0

/-- A bucket with `size` children, the `j`-th of them at index `child j` above the `n` devices
    from `d + n * j` on. -/
def parentOver (id : ℤ) (type size : ℕ) (child : ℕ → ℕ) (n d : ℕ) : CrushBucket where
  id := id
  type := type
  hash := 0
  weight := UInt32.ofNat (rangeWeight weight d (n * size))
  size := UInt32.ofNat size
  items := (List.range size).map fun j => -(child j : ℤ) - 1
  itemWeights := (List.range size).map fun j => UInt32.ofNat (rangeWeight weight (d + n * j) n)

variable {weight}

/-- The next device of a host. -/
theorem hostOver_addItem (id : ℤ) (n d : ℕ) (size : UInt32) :
    { hostOver weight id n d with size := size }.addItem (d + n : ℕ) (weight.getD (d + n) 0)
      = { hostOver weight id (n + 1) d with size := size } := by
  simp only [CrushBucket.addItem, hostOver, List.range_succ, List.map_append, List.map_cons,
    List.map_nil, rangeWeight_succ, UInt32.ofNat_add, UInt32.ofNat_toNat]

/-- The next child of a parent. -/
theorem parentOver_addItem (id : ℤ) (type k : ℕ) (child : ℕ → ℕ) (n d : ℕ) (size : UInt32) :
    { parentOver weight id type k child n d with size := size }.addItem (-(child k : ℤ) - 1)
        (UInt32.ofNat (rangeWeight weight (d + n * k) n))
      = { parentOver weight id type (k + 1) child n d with size := size } := by
  simp only [CrushBucket.addItem, parentOver, List.range_succ, List.map_append, List.map_cons,
    List.map_nil, Nat.mul_succ, rangeWeight_add, UInt32.ofNat_add]

/-- A new bucket is a host over no device, with its final size. -/
theorem newBucket_eq_hostOver (id : ℤ) (size d : ℕ) :
    newBucket id 1 size = { hostOver weight id 0 d with size := UInt32.ofNat size } := by
  simp [hostOver, newBucket, rangeWeight]

/-- A new bucket is a parent over no child, with its final size. -/
theorem newBucket_eq_parentOver (id : ℤ) (type size : ℕ) (child : ℕ → ℕ) (n d : ℕ) :
    newBucket id type size
      = { parentOver weight id type 0 child n d with size := UInt32.ofNat size } := by
  simp [parentOver, newBucket, rangeWeight]

/-- A read in range does not depend on the default. -/
theorem getElem?_eq_getD {α : Type*} {l : List α} {i : ℕ} (h : i < l.length) (d : α) :
    l[i]? = some (l.getD i d) := by
  rw [List.getD_eq_getElem?_getD, List.getElem?_eq_getElem h]
  rfl

/-- **The loop over the devices of a host.** -/
theorem hostLoop (id : ℤ) {n d : ℕ} (hlen : d + n ≤ weight.length) :
    forLoop (fun _ => hostPass weight) n (newBucket id 1 n, d)
      = .ok (hostOver weight id n d, d + n) := by
  -- After `j` passes the host has the items of a host over `j` devices.
  have hpass : ∀ j < n, ∀ s, s = ({ hostOver weight id j d with size := UInt32.ofNat n }, d + j) →
      ∃ s', hostPass weight s = .ok s' ∧
        s' = ({ hostOver weight id (j + 1) d with size := UInt32.ofNat n }, d + (j + 1)) := by
    rintro j hj s rfl
    have hw : weight[d + j]? = some (weight.getD (d + j) 0) := getElem?_eq_getD (by omega) 0
    refine ⟨_, by rw [hostPass, hw], ?_⟩
    rw [hostOver_addItem, Nat.add_assoc]
  obtain ⟨s', hloop, rfl⟩ := forLoop_rule
    (fun j s => s = ({ hostOver weight id j d with size := UInt32.ofNat n }, d + j)) hpass
    (s := (newBucket id 1 n, d)) (by rw [newBucket_eq_hostOver, Nat.add_zero])
  exact hloop

/-! ### Filling the bucket array -/

/-- The indices from `a` up to `b` have been filled in from `made`, and no others. -/
structure Fills (made : ℕ → CrushBucket) (bs bs' : List (Option CrushBucket)) (a b : ℕ) : Prop where
  length : bs'.length = bs.length
  get : ∀ i, bs'[i]? = if a ≤ i ∧ i < b then some (some (made i)) else bs[i]?

variable {made : ℕ → CrushBucket}

theorem Fills.none (bs : List (Option CrushBucket)) (a : ℕ) : Fills made bs bs a a :=
  ⟨rfl, fun i => (if_neg (by omega)).symm⟩

/-- Two ranges filled one after the other. -/
theorem Fills.trans {bs bs' bs'' : List (Option CrushBucket)} {a b c : ℕ}
    (h : Fills made bs bs' a b) (h' : Fills made bs' bs'' b c) (hab : a ≤ b) (hbc : b ≤ c) :
    Fills made bs bs'' a c := by
  refine ⟨h'.length.trans h.length, fun i => ?_⟩
  rw [h'.get, h.get]
  by_cases hb : i < b
  · rw [if_neg (by omega)]
    by_cases ha : a ≤ i
    · rw [if_pos ⟨ha, hb⟩, if_pos ⟨ha, by omega⟩]
    · rw [if_neg (by omega), if_neg (by omega)]
  · by_cases hc : i < c
    · rw [if_pos ⟨by omega, hc⟩, if_pos ⟨by omega, hc⟩]
    · rw [if_neg (by omega), if_neg (by omega), if_neg (by omega)]

/-- The bucket at `a` is stored after the ones behind it. -/
theorem Fills.store {bs bs' : List (Option CrushBucket)} {a b : ℕ}
    (h : Fills made bs bs' (a + 1) b) (hab : a < b) (hroom : a < bs.length) :
    ∃ bs'', storeBucket bs' a (made a) = .ok bs'' ∧ Fills made bs bs'' a b := by
  have hroom' : a < bs'.length := h.length.symm ▸ hroom
  refine ⟨bs'.set a (some (made a)), if_pos hroom', ⟨?_, fun i => ?_⟩⟩
  · rw [List.length_set, h.length]
  by_cases hi : i = a
  · subst hi
    rw [List.getElem?_set_self hroom', if_pos ⟨le_refl _, hab⟩]
  · rw [List.getElem?_set_ne (Ne.symm hi), h.get]
    by_cases hb : a < i ∧ i < b
    · rw [if_pos ⟨hb.1, hb.2⟩, if_pos ⟨by omega, hb.2⟩]
    · rw [if_neg (by omega), if_neg (by omega)]

/-- What stood at an index that is filled in does not matter. -/
theorem Fills.of_set {bs bs' : List (Option CrushBucket)} {a b : ℕ} {x : Option CrushBucket}
    (h : Fills made (bs.set a x) bs' a b) (hab : a < b) : Fills made bs bs' a b := by
  refine ⟨h.length.trans (List.length_set ..), fun i => ?_⟩
  rw [h.get]
  by_cases hi : a ≤ i ∧ i < b
  · rw [if_pos hi, if_pos hi]
  · rw [if_neg hi, if_neg hi, List.getElem?_set_ne (by omega)]

/-- **Depth-first numbering.**  Called for the bucket at index `c`, the constructor builds
    `made c`, fills in the `w - 1` indices behind `c` and uses the next `n` devices. -/
def ConstructsAt (made : ℕ → CrushBucket) (room : ℕ)
    (construct : ℤ → Building → Except BuildFault (CrushBucket × Building)) (w n c d : ℕ) : Prop :=
  ∀ st : Building, st.globalBucketId = c + 1 → st.globalOsdId = d → room ≤ st.buckets.length →
    ∃ st', construct (-(c : ℤ) - 1) st = .ok (made c, st') ∧ st'.globalBucketId = c + w ∧
      st'.globalOsdId = d + n ∧ Fills made st.buckets st'.buckets (c + 1) (c + w)

/-- A host takes one index. -/
theorem constructHost_at {room n c d : ℕ} (hmade : made c = hostOver weight (-(c : ℤ) - 1) n d)
    (hn : n < 2 ^ 32) (hlen : d + n ≤ weight.length) :
    ConstructsAt made room (constructHost weight n) 1 n c d := by
  intro st hbucket hosd _
  have hsize : (newBucket (-(c : ℤ) - 1) 1 n).size.toNat = n := UInt32.toNat_ofNat_of_lt' hn
  refine ⟨{ st with globalOsdId := d + n }, ?_, hbucket, rfl, Fills.none _ _⟩
  unfold constructHost
  simp only [hsize, hosd, hostLoop (-(c : ℤ) - 1) hlen, hmade]

/-- **The loop over the children**, each of which takes `w` indices and `n` devices. -/
theorem childLoop {room w n s d m : ℕ}
    {construct : ℤ → Building → Except BuildFault (CrushBucket × Building)} (id : ℤ) (type : ℕ)
    (hconstruct : ∀ j < m, ConstructsAt made room construct w n (s + w * j) (d + n * j))
    (hweight : ∀ j < m,
      (made (s + w * j)).weight = UInt32.ofNat (rangeWeight weight (d + n * j) n))
    (hw : 0 < w) (hroom : s + w * m ≤ room) (st : Building) (hbucket : st.globalBucketId = s)
    (hosd : st.globalOsdId = d) (hlen : room ≤ st.buckets.length) :
    ∃ st', forLoop (fun _ => childPass construct) m (newBucket id type m, st)
        = .ok (parentOver weight id type m (fun j => s + w * j) n d, st') ∧
      st'.globalBucketId = s + w * m ∧ st'.globalOsdId = d + n * m ∧
      Fills made st.buckets st'.buckets s (s + w * m) := by
  -- After `j` passes the parent has `j` children, which have taken their indices and devices.
  let I (j : ℕ) (p : CrushBucket × Building) : Prop :=
    p.1 = { parentOver weight id type j (fun j => s + w * j) n d with size := UInt32.ofNat m } ∧
      p.2.globalBucketId = s + w * j ∧ p.2.globalOsdId = d + n * j ∧
      Fills made st.buckets p.2.buckets s (s + w * j)
  have hpass : ∀ j < m, ∀ p, I j p → ∃ p', childPass construct p = .ok p' ∧ I (j + 1) p' := by
    rintro j hj ⟨parent, st₁⟩ ⟨hparent, hbucket₁, hosd₁, hfills₁⟩
    have hid : st₁.globalBucketId = s + w * j := hbucket₁
    have hnext : s + w * (j + 1) = s + w * j + w := by rw [Nat.mul_succ, Nat.add_assoc]
    have hlast : s + w * (j + 1) ≤ s + w * m :=
      Nat.add_le_add_left (Nat.mul_le_mul_left w (by omega)) s
    have hlen₁ : room ≤ st₁.buckets.length := hfills₁.length.symm ▸ hlen
    obtain ⟨st₂, hrun, hbucket₂, hosd₂, hfills₂⟩ := hconstruct j hj
      { st₁ with globalBucketId := s + w * j + 1 } rfl hosd₁ hlen₁
    obtain ⟨bs, hstore, hfills⟩ := hfills₂.store (by omega) (by dsimp only; omega)
    refine ⟨(parent.addItem (-((s + w * j : ℕ) : ℤ) - 1) (made (s + w * j)).weight,
      { st₂ with buckets := bs }), by simp only [childPass, hid, hrun, hstore], ?_, ?_, ?_, ?_⟩
    · subst hparent
      rw [hweight j hj]
      exact parentOver_addItem id type j (fun j => s + w * j) n d (UInt32.ofNat m)
    · rw [hnext]
      exact hbucket₂
    · rw [Nat.mul_succ, ← Nat.add_assoc]
      exact hosd₂
    · rw [hnext]
      exact hfills₁.trans hfills (by omega) (by omega)
  obtain ⟨⟨parent, st'⟩, hloop, hparent, hbucket', hosd', hfills'⟩ := forLoop_rule I hpass
    (s := (newBucket id type m, st))
    ⟨newBucket_eq_parentOver id type m _ n d, hbucket, hosd, Fills.none _ _⟩
  cases hparent
  exact ⟨st', hloop, hbucket', hosd', hfills'⟩

/-! ### What the constructors build -/

/-- The bucket at index `i` of the map: the root, then each rack followed by its hosts. -/
def bucketAt (weight : List UInt32) (n i : ℕ) : CrushBucket :=
  if i = 0 then parentOver weight (-1) 10 5 (fun j => 1 + 11 * j) (n * 10) 0
  else if (i - 1) % 11 = 0 then
    parentOver weight (-(i : ℤ) - 1) 3 10 (fun j => i + 1 + j) n (n * 10 * ((i - 1) / 11))
  else hostOver weight (-(i : ℤ) - 1) n (n * 10 * ((i - 1) / 11) + n * ((i - 1) % 11 - 1))

theorem bucketAt_root (n : ℕ) :
    bucketAt weight n 0 = parentOver weight (-1) 10 5 (fun j => 1 + 11 * j) (n * 10) 0 := rfl

/-- Every eleventh index from 1 on is a rack. -/
theorem bucketAt_rack (n k : ℕ) :
    bucketAt weight n (1 + 11 * k) = parentOver weight (-((1 + 11 * k : ℕ) : ℤ) - 1) 3 10
      (fun j => 1 + 11 * k + 1 + j) n (n * 10 * k) := by
  have hdiv : (1 + 11 * k - 1) / 11 = k := by omega
  rw [bucketAt, if_neg (by omega), if_pos (by omega), hdiv]

/-- The ten indices behind a rack are its hosts. -/
theorem bucketAt_host (n k : ℕ) {l : ℕ} (hl : l < 10) :
    bucketAt weight n (1 + 11 * k + 1 + l) = hostOver weight
      (-((1 + 11 * k + 1 + l : ℕ) : ℤ) - 1) n (n * 10 * k + n * l) := by
  have hdiv : (1 + 11 * k + 1 + l - 1) / 11 = k := by omega
  have hmod : (1 + 11 * k + 1 + l - 1) % 11 - 1 = l := by omega
  rw [bucketAt, if_neg (by omega), if_neg (by omega), hdiv, hmod]

/-- The devices below rack `k` and its first `l` hosts are among the first `50 * n`. -/
theorem device_le {n k l : ℕ} (hk : k < 5) (hl : l ≤ 10) : n * 10 * k + n * l ≤ 50 * n := by
  calc n * 10 * k + n * l = n * (10 * k + l) := by rw [Nat.mul_assoc, ← Nat.mul_add]
    _ ≤ n * 50 := Nat.mul_le_mul_left n (by omega)
    _ = 50 * n := Nat.mul_comm _ _

/-- A rack takes eleven indices. -/
theorem constructRack_at {room n k : ℕ} (hk : k < 5) (hn : n < 2 ^ 32)
    (hlen : 50 * n ≤ weight.length) (hroom : 56 ≤ room) :
    ConstructsAt (bucketAt weight n) room (constructRack weight n) 11 (n * 10) (1 + 11 * k)
      (n * 10 * k) := by
  intro st hbucket hosd hst
  have hhost : ∀ l < 10, bucketAt weight n (1 + 11 * k + 1 + 1 * l) = hostOver weight
      (-((1 + 11 * k + 1 + 1 * l : ℕ) : ℤ) - 1) n (n * 10 * k + n * l) := by
    intro l hl
    rw [Nat.one_mul]
    exact bucketAt_host n k hl
  have hconstruct : ∀ l < 10, ConstructsAt (bucketAt weight n) room (constructHost weight n) 1 n
      (1 + 11 * k + 1 + 1 * l) (n * 10 * k + n * l) := by
    intro l hl
    refine constructHost_at (hhost l hl) hn (le_trans ?_ hlen)
    rw [Nat.add_assoc, ← Nat.mul_succ]
    exact device_le hk hl
  -- The loop over the hosts, each of which adds `n` devices.
  obtain ⟨st', hloop, hbucket', hosd', hfills⟩ := childLoop (-((1 + 11 * k : ℕ) : ℤ) - 1) 3
    hconstruct (fun l hl => by rw [hhost l hl]; rfl) Nat.one_pos (by omega) st hbucket hosd hst
  refine ⟨st', ?_, by omega, hosd', hfills⟩
  rw [bucketAt_rack]
  simp only [Nat.one_mul] at hloop
  exact hloop

/-- **What `construct_root` leaves behind**, called with the two counters at 0. -/
theorem constructRoot_run {n : ℕ} {buckets : List (Option CrushBucket)} (hn : n < 2 ^ 32)
    (hlen : 50 * n ≤ weight.length) (hroom : 56 ≤ buckets.length) :
    ∃ st', constructRoot weight n ⟨0, 0, buckets⟩ = .ok (bucketAt weight n 0, st') ∧
      st'.globalBucketId = 56 ∧ st'.globalOsdId = 50 * n ∧
      Fills (bucketAt weight n) buckets st'.buckets 0 56 := by
  have hconstruct : ∀ k < 5, ConstructsAt (bucketAt weight n) buckets.length
      (constructRack weight n) 11 (n * 10) (1 + 11 * k) (0 + n * 10 * k) := by
    intro k hk
    rw [Nat.zero_add]
    exact constructRack_at hk hn hlen hroom
  have hweight : ∀ k < 5, (bucketAt weight n (1 + 11 * k)).weight
      = UInt32.ofNat (rangeWeight weight (0 + n * 10 * k) (n * 10)) := by
    intro k hk
    rw [bucketAt_rack, Nat.zero_add]
    rfl
  -- The root is stored twice: empty, and with its items.
  have hfirst : storeBucket buckets 0 (newBucket (-1) 10 5)
      = .ok (buckets.set 0 (some (newBucket (-1) 10 5))) := if_pos (by omega)
  obtain ⟨st', hloop, hbucket', hosd', hfills⟩ := childLoop (-1) 10 hconstruct hweight
    (by omega) (by omega) ⟨0, 1, buckets.set 0 (some (newBucket (-1) 10 5))⟩ rfl rfl
    (le_of_eq (List.length_set ..).symm)
  obtain ⟨bs, hstore, hfills'⟩ := hfills.store (by omega)
    (by rw [List.length_set]; omega)
  refine ⟨{ st' with buckets := bs }, ?_, hbucket', ?_, hfills'.of_set (by omega)⟩
  · unfold constructRoot
    rw [bucketAt_root] at hstore ⊢
    simp only [hfirst]
    simp only [show (newBucket (-1) 10 5).size.toNat = 5 from rfl, Nat.zero_add, hloop, hstore]
  · show st'.globalOsdId = 50 * n
    omega

/-- The map that `init2` hands out. -/
theorem constructMap_run {n : ℕ} {buckets : List (Option CrushBucket)} (hn : n < 2 ^ 32)
    (hlen : 50 * n ≤ weight.length) (hroom : 56 ≤ buckets.length) :
    ∃ m, constructMap weight n buckets = .ok m ∧ m.maxBuckets = 56 ∧
      m.maxDevices = (50 * n : ℕ) ∧ ∀ i < 56, m.bucket? (i : ℕ) = some (bucketAt weight n i) := by
  obtain ⟨st', hrun, hbucket, hosd, hfills⟩ := constructRoot_run hn hlen hroom
  refine ⟨st'.toMap, by rw [constructMap, hrun], ?_, ?_, fun i hi => ?_⟩
  · exact congrArg Int.ofNat hbucket
  · exact congrArg Int.ofNat hosd
  · have hmax : (st'.toMap).maxBuckets = 56 := congrArg Int.ofNat hbucket
    rw [CrushMap.bucket?, if_pos ⟨by omega, by omega⟩, Int.toNat_natCast]
    show st'.buckets[i]?.join = _
    rw [hfills.get, if_pos ⟨by omega, hi⟩]
    rfl

end MyCeph.Crush
