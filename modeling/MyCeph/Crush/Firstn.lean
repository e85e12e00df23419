import MyCeph.Crush.Straw2
import MyCeph.Lib.Loop

namespace MyCeph.Crush

open Lib

/-!
# `crush_choose_firstn`

The placement loop of `main.cpp`.  Memory is a `Store` of integer arrays named by
numbers, so that the caller may pass one array as `out` and `out2`; it keeps a log of
the buckets visited and the cells written, which the program does not read.  A run
that stops short of a result leaves its store in a `Fault`.

One pass through the inner loop (`attempt`) is cut into the pieces the parallel
workers repeat: `drawItem` down to the type test, `collides`, the leaf search, the
overload test `isOut`, and the `reject:` label with its three kinds of retry
(`Search.rejected`).  The two `do`-loops are one `Lib.loop` over `attempt`: a local
retry and a descent go round with the same counters, a new descent starts again at the
top with `flocal = 0`.  The `for` over replicas is a second `Lib.loop`, and the leaf
search calls the whole function again.
-/

/-! ### Memory -/

/-- What a run touches: a bucket it draws from, or a cell it writes. -/
inductive Event where
  | visit (b : CrushBucket)
  | write (arr i : ℕ) (v : ℤ)

/-- The integer arrays in memory, and the log of the run so far (newest first). -/
structure Store where
  cells : ℕ → ℕ → ℤ
  log : List Event

/-- `arr[i] = v`. -/
def Store.write (μ : Store) (arr i : ℕ) (v : ℤ) : Store where
  cells a j := if a = arr ∧ j = i then v else μ.cells a j
  log := .write arr i v :: μ.log

/-- Note that the run draws from `b`. -/
def Store.visit (μ : Store) (b : CrushBucket) : Store :=
  { μ with log := .visit b :: μ.log }

@[simp] theorem Store.write_cells_self (μ : Store) (arr i : ℕ) (v : ℤ) :
    (μ.write arr i v).cells arr i = v := by
  simp [Store.write]

theorem Store.write_cells_of_ne (μ : Store) {arr i a j : ℕ} (v : ℤ) (h : ¬ (a = arr ∧ j = i)) :
    (μ.write arr i v).cells a j = μ.cells a j := by
  simp only [Store.write, h, if_false]

@[simp] theorem Store.visit_cells (μ : Store) (b : CrushBucket) :
    (μ.visit b).cells = μ.cells := rfl

/-- A run that stops short: why, and the store it leaves. -/
structure Fault where
  stop : Stop
  μ : Store

/-! ### Parameters -/

/-- `struct firstn_info`: the parameters of `crush_choose_firstn` but for `parent_r`.
    `weight` is the reweight table, `out` and `out2` are arrays of the store. -/
structure FirstnInfo where
  map : CrushMap
  bucket : CrushBucket
  weight : ℤ → UInt32
  weightMax : ℤ
  x : ℤ
  numrep : ℤ
  type : ℤ
  out : ℕ
  outpos : ℕ
  outSize : ℤ
  tries : UInt32
  recurseTries : UInt32
  localRetries : UInt32
  localFallbackRetries : UInt32
  recurseToLeaf : Bool
  varyR : UInt32
  stable : Bool
  out2 : ℕ
  chooseArgs : Option (ℤ → CrushChooseArg)

/-- The NULL that the leaf search gets as its `out2`; nothing is stored there. -/
def nullArr : ℕ := 0

variable (H : CrushHash) (f : FirstnInfo)

/-! ### The pieces of one attempt -/

/-- `is_out`. -/
def isOut (weight : ℤ → UInt32) (weightMax item x : ℤ) : Bool :=
  if item ≥ weightMax then true
  else if weight item ≥ 0x10000 then false
  else if weight item = 0 then true
  else if H.crushHash32_2 crushHashRjenkins1 (UInt32.ofInt x) (UInt32.ofInt item) &&& 0xffff
      < weight item then false
  else true

/-- The item `crush_bucket_choose` draws from `cur`. -/
def chooseItem (x : ℤ) (chooseArgs : Option (ℤ → CrushChooseArg)) (cur : CrushBucket) (r : ℤ)
    (position : ℕ) : ℤ :=
  crushBucketChoose H cur x r (chooseArgs.map fun args => args (-1 - cur.id)) position

/-- Where the draw at the top of the inner loop leads. -/
inductive Draw where
  /-- `in->size == 0`: `goto reject`. -/
  | empty
  /-- `skip_rep = 1; break`. -/
  | skip (item : ℤ)
  /-- `in = map->buckets[-1-item]; retry_bucket = 1; continue`. -/
  | descend (item : ℤ) (b : CrushBucket)
  /-- An item of the wanted type. -/
  | candidate (item : ℤ)

/-- `itemtype`: the type of the bucket with id `item`, 0 for a device. -/
def itemType (item : ℤ) : Except Stop ℕ :=
  if item < 0 then
    match f.map.readBucket (-1 - item) with
    | .error e => .error e
    | .ok b => .ok b.type
  else .ok 0

/-- From the head of the inner loop to the type test. -/
def drawItem (cur : CrushBucket) (r : ℤ) (position : ℕ) : Except Stop Draw :=
  if cur.size = 0 then .ok .empty
  else
    let item := chooseItem H f.x f.chooseArgs cur r position
    if item ≥ f.map.maxDevices then .ok (.skip item)
    else
      -- The type is read before the index is compared with `max_buckets`.
      match itemType f item with
      | .error e => .error e
      | .ok itemtype =>
        if (itemtype : ℤ) ≠ f.type then
          if item ≥ 0 ∨ -1 - item ≥ f.map.maxBuckets then .ok (.skip item)
          else
            match f.map.readBucket (-1 - item) with
            | .error e => .error e
            | .ok b => .ok (.descend item b)
        else .ok (.candidate item)

/-- The collision scan of `out[0..outpos)`. -/
def collides (μ : Store) (out outpos : ℕ) (item : ℤ) : Bool :=
  (List.range outpos).any fun i => μ.cells out i == item

/-- The retry that the code at `reject:` asks for. -/
inductive Retry where
  | bucket
  | descent
  | giveUp

/-- The three-way choice at `reject:`, on the counters already incremented. -/
def retryKind (collide : Bool) (size ftotal flocal : UInt32) : Retry :=
  if collide ∧ flocal ≤ f.localRetries then .bucket
  -- The sum `in->size + local_fallback_retries` may wrap.
  else if f.localFallbackRetries > 0 ∧ flocal ≤ size + f.localFallbackRetries then .bucket
  else if ftotal < f.tries then .descent
  else .giveUp

/-- The local variables of the search for one replica. -/
structure Search where
  cur : CrushBucket
  ftotal : UInt32
  flocal : UInt32

/-- Before the first draw. -/
def Search.start : Search := ⟨f.bucket, 0, 0⟩

/-- The code at `reject:`: the next state, or `none` to give up. -/
def Search.rejected (s : Search) (collide : Bool) : Option Search :=
  let ftotal := s.ftotal + 1
  let flocal := s.flocal + 1
  match retryKind f collide s.cur.size ftotal flocal with
  | .bucket => some ⟨s.cur, ftotal, flocal⟩
  | .descent => some ⟨f.bucket, ftotal, 0⟩
  | .giveUp => none

/-- The random factor `r = rep + parent_r; r += ftotal`. -/
def randomFactor (rep parentR : ℤ) (ftotal : UInt32) : ℤ :=
  toS32 (toS32 (rep + parentR) + ftotal.toNat)

/-- `sub_r`, the `parent_r` of the leaf search.  The shift count is cut to five bits. -/
def subR (r : ℤ) : ℤ :=
  if f.varyR ≠ 0 then r >>> ((f.varyR - 1).toNat % 32) else 0

/-- The parameters of the leaf search from bucket `b`. -/
def leafInfo (b : CrushBucket) (outpos : ℕ) (count : ℤ) : FirstnInfo :=
  { f with
    bucket := b
    -- With the numbering of `firstRep` this is one replica, in either case.
    numrep := if f.stable then 1 else outpos + 1
    type := 0
    out := f.out2
    outpos := outpos
    outSize := count
    tries := f.recurseTries
    recurseTries := 0
    recurseToLeaf := false
    out2 := nullArr }

/-! ### The function -/

/-- How the search for one replica ends. -/
inductive Verdict where
  | accept (item : ℤ)
  | skip

/-- The type of `crush_choose_firstn`: it returns the new `outpos`. -/
abbrev Firstn := FirstnInfo → ℤ → Store → Except Fault (ℕ × Store)

/-- The pass that ends at `reject:`. -/
def reject (collide : Bool) (s : Search) (μ : Store) : Next (Search × Store) (Verdict × Store) :=
  match s.rejected f collide with
  | some s' => .again (s', μ)
  | none => .exit (.skip, μ)

/-- The part of a pass under `if (!collide && recurse_to_leaf)`: whether to reject, and
    the store with the leaf in `out2[outpos]`. -/
def findLeaf (self : Firstn) (r : ℤ) (outpos : ℕ) (count item : ℤ) (μ : Store) :
    Except Fault (Bool × Store) :=
  if f.recurseToLeaf then
    if item < 0 then
      match f.map.readBucket (-1 - item) with
      | .error e => .error ⟨e, μ⟩
      | .ok b =>
        match self (leafInfo f b outpos count) (subR f r) μ with
        | .error e => .error e
        | .ok (p, μ') => .ok (decide (p ≤ outpos), μ')
    else .ok (false, μ.write f.out2 outpos item)
  else .ok (false, μ)

/-- One pass through the inner loop, for replica number `rep` at `outpos`. -/
def attempt (self : Firstn) (parentR rep : ℤ) (outpos : ℕ) (count : ℤ) (st : Search × Store) :
    Except Fault (Next (Search × Store) (Verdict × Store)) :=
  let s := st.1
  let μ := st.2.visit s.cur
  let r := randomFactor rep parentR s.ftotal
  match drawItem H f s.cur r outpos with
  | .error e => .error ⟨e, μ⟩
  | .ok .empty => .ok (reject f false s μ)
  | .ok (.skip _) => .ok (.exit (.skip, μ))
  | .ok (.descend _ b) => .ok (.again ({ s with cur := b }, μ))
  | .ok (.candidate item) =>
    if collides μ f.out outpos item then .ok (reject f true s μ)
    else
      match findLeaf f self r outpos count item μ with
      | .error e => .error e
      | .ok (rejected, μ') =>
        -- The item has type `type`, so `itemtype == 0` asks whether devices are placed.
        if rejected || (f.type == 0 && isOut H f.weight f.weightMax item f.x) then
          .ok (reject f false s μ')
        else .ok (.exit (.accept item, μ'))

/-- A search that has used up its fuel. -/
def attemptTimeout (st : Search × Store) : Fault := ⟨.timeout, st.2⟩

/-- The state of the loop over replicas. -/
structure Replicas where
  rep : ℤ
  outpos : ℕ
  count : ℤ
  μ : Store

/-- One pass of the loop over replicas. -/
def placeReplica (self : Firstn) (fuel : ℕ) (parentR : ℤ) (st : Replicas) :
    Except Fault (Next Replicas (ℕ × Store)) :=
  if st.rep < f.numrep ∧ st.count > 0 then
    match loop attemptTimeout (attempt H f self parentR st.rep st.outpos st.count) fuel
        (Search.start f, st.μ) with
    | .error e => .error e
    | .ok (.skip, μ) => .ok (.again { st with rep := st.rep + 1, μ := μ })
    | .ok (.accept item, μ) =>
      .ok (.again ⟨st.rep + 1, st.outpos + 1, st.count - 1, μ.write f.out st.outpos item⟩)
  else .ok (.exit (st.outpos, st.μ))

/-- The number of the first replica. -/
def firstRep : ℤ := if f.stable then 0 else f.outpos

/-- Before the first replica. -/
def Replicas.start (μ : Store) : Replicas where
  rep := firstRep f
  outpos := f.outpos
  count := f.outSize
  μ := μ

/-- A loop over replicas that has used up its fuel. -/
def replicasTimeout (st : Replicas) : Fault := ⟨.timeout, st.μ⟩

/-- `crush_choose_firstn`. -/
def crushChooseFirstn : ℕ → Firstn
  | 0, _, _, μ => .error ⟨.timeout, μ⟩
  | fuel + 1, f, parentR, μ =>
    loop replicasTimeout (placeReplica H f (crushChooseFirstn fuel) fuel parentR) fuel
      (Replicas.start f μ)

/-- With fuel, a call is its loop over replicas, and the leaf search has less fuel. -/
theorem crushChooseFirstn_succ (fuel : ℕ) (parentR : ℤ) (μ : Store) :
    crushChooseFirstn H (fuel + 1) f parentR μ
      = loop replicasTimeout (placeReplica H f (crushChooseFirstn H fuel) fuel parentR) fuel
          (Replicas.start f μ) := rfl

/-! ### The callers -/

/-- The parameters `test` and `do_work4` pass for object `x`: three OSDs below `root`, into
    the one array `out`. -/
def testInfo (m : CrushMap) (root : CrushBucket) (reweight : ℤ → UInt32) (weightMax x : ℤ)
    (out : ℕ) : FirstnInfo where
  map := m
  bucket := root
  weight := reweight
  weightMax := weightMax
  x := x
  numrep := 3
  type := 0
  out := out
  outpos := 0
  outSize := 3
  tries := m.chooseTotalTries + 1
  recurseTries := 1
  localRetries := m.chooseLocalTries
  localFallbackRetries := m.chooseLocalFallbackTries
  recurseToLeaf := true
  varyR := m.chooseleafVaryR.toUInt32
  stable := m.chooseleafStable != 0
  out2 := out
  chooseArgs := none

/-- The parameters of `test` on the small map, all devices in. -/
def smallInfo : FirstnInfo := testInfo smallMap smallRoot (fun _ => 0x10000) 4 222 1

/-- A store of zeros. -/
def zeroStore : Store := ⟨fun _ _ => 0, []⟩

end MyCeph.Crush
