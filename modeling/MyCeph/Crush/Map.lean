import Mathlib.Algebra.Ring.Nat
import Mathlib.Data.Fintype.EquivFin
import Mathlib.Logic.Relation
import Mathlib.Order.WellFounded
import Mathlib.Tactic.Common

namespace MyCeph.Crush

open Relation

/-!
# The CRUSH map

The part of `crush.h` that placement reads: buckets (all of them straw2 here),
replacement weights, and the map with its array of bucket pointers.  Reads of that
array go through `readBucket`, which stops with the offending index where the C++
program would leave `[0, max_buckets)` or follow a NULL pointer.

On top of the data stand the notions the placement results are stated with: `Has`
(a bucket of the map), `Link` (an item of a bucket), `Reaches`, and the shape
conditions `WellFormed`, `Acyclic`, `TreeShaped` and `WeightsAddUp`.
-/

/-- Why a computation stops without a result: the model's fuel is used up, or the
    program reads `map->buckets` where no bucket is. -/
inductive Stop where
  | timeout
  | badBucket (i : ℤ)
deriving DecidableEq

/-- `struct crush_bucket_straw2`, with the header `h` flattened. -/
structure CrushBucket where
  id : ℤ
  type : ℕ
  hash : ℕ
  weight : UInt32
  size : UInt32
  items : List ℤ
  itemWeights : List UInt32

/-- `struct crush_choose_arg`: ids and weights that replace a bucket's own, `none`
    standing for a NULL pointer. -/
structure CrushChooseArg where
  ids : Option (List ℤ)
  weightSet : Option (List (List UInt32))
  weightSetPositions : ℕ

/-- `struct crush_map`, without the rules, which nothing here reads. -/
structure CrushMap where
  buckets : List (Option CrushBucket)
  maxBuckets : ℤ
  maxDevices : ℤ
  chooseLocalTries : UInt32
  chooseLocalFallbackTries : UInt32
  chooseTotalTries : UInt32
  chooseleafVaryR : UInt8
  chooseleafStable : UInt8

namespace CrushMap

variable (m : CrushMap)

/-- The bucket at an index of `map->buckets`, if the index is in range and the pointer
    there is not NULL. -/
def bucket? (i : ℤ) : Option CrushBucket :=
  if 0 ≤ i ∧ i < m.maxBuckets then (m.buckets[i.toNat]?).join else none

/-- The read `map->buckets[i]`. -/
def readBucket (i : ℤ) : Except Stop CrushBucket :=
  match m.bucket? i with
  | some b => .ok b
  | none => .error (.badBucket i)

/-- A read succeeds exactly if the bucket is there. -/
theorem readBucket_ok {i : ℤ} {b : CrushBucket} :
    m.readBucket i = .ok b ↔ m.bucket? i = some b := by
  unfold readBucket
  cases m.bucket? i <;> simp

/-- `b` is one of the map's buckets. -/
def Has (b : CrushBucket) : Prop := ∃ i, m.bucket? i = some b

/-- `c` is an item of the bucket with id `p`. -/
def Link (p c : ℤ) : Prop := ∃ b, m.bucket? (-1 - p) = some b ∧ c ∈ b.items

/-- `c` is found below `p` along one or more items links. -/
def Reaches (p c : ℤ) : Prop := TransGen m.Link p c

/-- `c` is `p` itself or found below it. -/
def AtOrBelow (p c : ℤ) : Prop := ReflTransGen m.Link p c

/-- What `crush.h` asks of the buckets of a map: `buckets[i]` has id `-1-i` and a type
    above 0, its arrays have `size` entries, and its negative items are ids of
    buckets that are there. -/
structure WellFormed : Prop where
  id_eq : ∀ {i b}, m.bucket? i = some b → b.id = -1 - i
  type_pos : ∀ {i b}, m.bucket? i = some b → 0 < b.type
  items_length : ∀ {i b}, m.bucket? i = some b → b.items.length = b.size.toNat
  weights_length : ∀ {i b}, m.bucket? i = some b → b.itemWeights.length = b.size.toNat
  child : ∀ {i b}, m.bucket? i = some b → ∀ c ∈ b.items, c < 0 → ∃ d, m.bucket? (-1 - c) = some d

/-- No item is found below itself. -/
def Acyclic : Prop := ∀ p, ¬ m.Reaches p p

/-- Every item (bucket or device) stands in one place of one bucket, and there are no
    cycles. -/
structure TreeShaped : Prop where
  acyclic : m.Acyclic
  one_place : ∀ {i i' b b'} {j j' : ℕ} {c : ℤ}, m.bucket? i = some b → m.bucket? i' = some b' →
    b.items[j]? = some c → b'.items[j']? = some c → i = i' ∧ j = j'

variable {m}

/-- The id of a bucket says where it stands. -/
theorem WellFormed.bucket_of_has (h : m.WellFormed) {b : CrushBucket} (hb : m.Has b) :
    m.bucket? (-1 - b.id) = some b := by
  obtain ⟨i, hi⟩ := hb
  rw [h.id_eq hi, show -1 - (-1 - i) = i by omega]
  exact hi

theorem WellFormed.link_of_mem (h : m.WellFormed) {b : CrushBucket} (hb : m.Has b) {c : ℤ}
    (hc : c ∈ b.items) : m.Link b.id c :=
  ⟨b, h.bucket_of_has hb, hc⟩

/-- The bucket found for an id has that id. -/
theorem WellFormed.id_of_bucket (h : m.WellFormed) {c : ℤ} {d : CrushBucket}
    (hd : m.bucket? (-1 - c) = some d) : d.id = c := by
  rw [h.id_eq hd]; omega

/-! ### Subtrees of a tree -/

/-- Two ids above a common one lie on one path. -/
theorem TreeShaped.comparable (h : m.TreeShaped) {a b e : ℤ} (ha : m.AtOrBelow a e)
    (hb : m.AtOrBelow b e) : m.AtOrBelow b a ∨ m.AtOrBelow a b := by
  have hparent : Relator.RightUnique (Function.swap m.Link) := by
    rintro c p p' ⟨b, hb, hc⟩ ⟨b', hb', hc'⟩
    obtain ⟨j, hj⟩ := List.mem_iff_getElem?.mp hc
    obtain ⟨j', hj'⟩ := List.mem_iff_getElem?.mp hc'
    have := (h.one_place hb hb' hj hj').1
    omega
  rcases ReflTransGen.total_of_right_unique hparent (reflTransGen_swap.mpr ha)
    (reflTransGen_swap.mpr hb) with hab | hba
  · exact Or.inl (reflTransGen_swap.mp hab)
  · exact Or.inr (reflTransGen_swap.mp hba)

/-- An item below another item of the same bucket is that item. -/
theorem TreeShaped.sibling_eq (h : m.TreeShaped) {p : ℤ} {b : CrushBucket}
    (hb : m.bucket? (-1 - p) = some b) {j j' : ℕ} {c c' : ℤ} (hc : b.items[j]? = some c)
    (hc' : b.items[j']? = some c') (hbelow : m.AtOrBelow c c') : j = j' := by
  rcases ReflTransGen.cases_tail hbelow with rfl | ⟨q, hcq, b', hb', hq⟩
  · exact (h.one_place hb hb hc hc').2
  · -- The parent of `c'` is `p`, so `p` would be found below its own item `c`.
    obtain ⟨k, hk⟩ := List.mem_iff_getElem?.mp hq
    have hpq := (h.one_place hb hb' hc' hk).1
    obtain rfl : p = q := by omega
    exact absurd (TransGen.head' ⟨b, hb, List.mem_of_getElem? hc⟩ hcq) (h.acyclic p)

/-- The subtrees of two items of one bucket are disjoint. -/
theorem TreeShaped.subtrees_disjoint (h : m.TreeShaped) {p : ℤ} {b : CrushBucket}
    (hb : m.bucket? (-1 - p) = some b) {j j' : ℕ} {c c' e : ℤ} (hc : b.items[j]? = some c)
    (hc' : b.items[j']? = some c') (he : m.AtOrBelow c e) (he' : m.AtOrBelow c' e) : j = j' := by
  rcases h.comparable he he' with hcc | hcc
  · exact (h.sibling_eq hb hc' hc hcc).symm
  · exact h.sibling_eq hb hc hc' hcc

/-! ### Descent is well founded on an acyclic map -/

/-- The index of a bucket is one of the array. -/
theorem bucket?_index_lt {i : ℤ} {b : CrushBucket} (h : m.bucket? i = some b) :
    0 ≤ i ∧ i.toNat < m.buckets.length := by
  unfold bucket? at h
  split at h
  · rename_i hi
    refine ⟨hi.1, ?_⟩
    by_contra hlen
    rw [List.getElem?_eq_none (by omega)] at h
    simp at h
  · simp at h

/-- On an acyclic map there is no endless descent: the finitely many buckets leave room
    only for finite paths. -/
theorem Acyclic.wellFounded (h : m.Acyclic) :
    WellFounded (fun c p : ℤ => m.Link p c ∧ c < 0 ∧ (m.bucket? (-1 - c)).isSome) := by
  classical
  -- The relation lives on the ids of existing buckets, a finite type.
  let T := {c : ℤ // (m.bucket? (-1 - c)).isSome}
  have hlt (c : T) : (-1 - c.1).toNat < m.buckets.length := by
    obtain ⟨b, hb⟩ := Option.isSome_iff_exists.mp c.2
    exact (bucket?_index_lt hb).2
  have hfin : Finite T := by
    refine Finite.of_injective (fun c : T => (⟨(-1 - c.1).toNat, hlt c⟩ : Fin m.buckets.length)) ?_
    · rintro ⟨c, hc⟩ ⟨d, hd⟩ hcd
      obtain ⟨b, hb⟩ := Option.isSome_iff_exists.mp hc
      obtain ⟨b', hb'⟩ := Option.isSome_iff_exists.mp hd
      have h1 := (bucket?_index_lt hb).1
      have h2 := (bucket?_index_lt hb').1
      simp only [Fin.mk.injEq] at hcd
      exact Subtype.ext (by change c = d; omega)
  let R : T → T → Prop := fun c p => m.Reaches p.1 c.1
  have : IsTrans T R := ⟨fun a b c hab hbc => TransGen.trans hbc hab⟩
  have : Std.Irrefl R := ⟨fun a ha => h a.1 ha⟩
  have hR : WellFounded R := Finite.wellFounded_of_trans_of_irrefl R
  refine ⟨fun p => ?_⟩
  -- Every id is accessible: its children are existing buckets, accessible by `hR`.
  have hT : ∀ c : T, Acc (fun c p : ℤ => m.Link p c ∧ c < 0 ∧ (m.bucket? (-1 - c)).isSome) c.1 := by
    intro c
    induction c using hR.induction with
    | _ c ih =>
      refine ⟨_, fun d hd => ?_⟩
      exact ih ⟨d, hd.2.2⟩ (TransGen.single hd.1)
  exact ⟨_, fun d hd => hT ⟨d, hd.2.2⟩⟩

/-! ### Deciding the shape conditions -/

/-- The indices at which there is a bucket, as natural numbers. -/
theorem bucket?_eq_some_iff {i : ℤ} {b : CrushBucket} :
    m.bucket? i = some b ↔
      ∃ k : ℕ, k < m.buckets.length ∧ i = k ∧ i < m.maxBuckets ∧ m.buckets[k]?.join = some b := by
  constructor
  · intro h
    obtain ⟨hnn, hlt⟩ := bucket?_index_lt h
    unfold bucket? at h
    split at h
    · rename_i hi
      exact ⟨i.toNat, hlt, by omega, hi.2, h⟩
    · simp at h
  · rintro ⟨k, -, rfl, hmax, h⟩
    simp only [bucket?, Int.natCast_nonneg, hmax, and_self, if_true, Int.toNat_natCast, h]

/-- The bucket conditions of `WellFormed`, for one index. -/
def bucketOk (m : CrushMap) (k : ℕ) : Bool :=
  match m.bucket? k with
  | none => true
  | some b =>
    b.id == -1 - k && decide (0 < b.type) && b.items.length == b.size.toNat &&
      b.itemWeights.length == b.size.toNat &&
      b.items.all fun c => decide (0 ≤ c) || (m.bucket? (-1 - c)).isSome

/-- A map is well formed if every index passes the check. -/
theorem wellFormed_of_bucketOk (h : ∀ k < m.buckets.length, m.bucketOk k = true) :
    m.WellFormed := by
  have hok : ∀ {i : ℤ} {b : CrushBucket}, m.bucket? i = some b → b.id = -1 - i ∧ 0 < b.type ∧
      b.items.length = b.size.toNat ∧ b.itemWeights.length = b.size.toNat ∧
      ∀ c ∈ b.items, 0 ≤ c ∨ (m.bucket? (-1 - c)).isSome := by
    intro i b hb
    obtain ⟨k, hk, rfl, -, -⟩ := bucket?_eq_some_iff.mp hb
    have hk' := h k hk
    simp only [bucketOk, hb, Bool.and_eq_true, beq_iff_eq, decide_eq_true_eq, List.all_eq_true,
      Bool.or_eq_true] at hk'
    obtain ⟨⟨⟨⟨h1, h2⟩, h3⟩, h4⟩, h5⟩ := hk'
    exact ⟨h1, h2, h3, h4, h5⟩
  refine ⟨fun hb => (hok hb).1, fun hb => (hok hb).2.1, fun hb => (hok hb).2.2.1,
    fun hb => (hok hb).2.2.2.1, fun hb c hc hneg => ?_⟩
  rcases (hok hb).2.2.2.2 c hc with hnn | hsome
  · omega
  · exact Option.isSome_iff_exists.mp hsome

/-- `rank` drops from the bucket at an index to its items. -/
def rankOk (m : CrushMap) (rank : ℤ → ℕ) (k : ℕ) : Bool :=
  match m.bucket? k with
  | none => true
  | some b => b.items.all fun c => decide (rank c < rank (-1 - k))

/-- A rank that drops along every link rules out cycles. -/
theorem acyclic_of_rank (rank : ℤ → ℕ) (hlink : ∀ {p c}, m.Link p c → rank c < rank p) :
    m.Acyclic := by
  have hreach : ∀ {p c}, m.Reaches p c → rank c < rank p := by
    intro p c hpc
    induction hpc with
    | single hl => exact hlink hl
    | tail _ hl ih => exact lt_trans (hlink hl) ih
  exact fun p hp => lt_irrefl _ (hreach hp)

/-- A rank that drops at every index rules out cycles. -/
theorem acyclic_of_rankOk (rank : ℤ → ℕ) (h : ∀ k < m.buckets.length, m.rankOk rank k = true) :
    m.Acyclic := by
  refine acyclic_of_rank rank ?_
  rintro p c ⟨b, hb, hc⟩
  obtain ⟨k, hk, hkp, -, -⟩ := bucket?_eq_some_iff.mp hb
  have hrank := h k hk
  simp only [rankOk, hkp ▸ hb, List.all_eq_true, decide_eq_true_eq] at hrank
  have := hrank c hc
  rwa [show (-1 - (k : ℤ)) = p by omega] at this

/-- The place condition of `TreeShaped`, for the items of two indices. -/
def placesOk (m : CrushMap) (k k' : ℕ) : Bool :=
  match m.bucket? k, m.bucket? k' with
  | some b, some b' =>
    (List.range b.items.length).all fun j => (List.range b'.items.length).all fun j' =>
      b.items[j]? != b'.items[j']? || (k == k' && j == j')
  | _, _ => true

/-- A map is a tree if every two indices pass the check. -/
theorem treeShaped_of_placesOk (hacyclic : m.Acyclic)
    (h : ∀ k < m.buckets.length, ∀ k' < m.buckets.length, m.placesOk k k' = true) :
    m.TreeShaped := by
  refine ⟨hacyclic, fun {i i' b b' j j' c} hb hb' hj hj' => ?_⟩
  obtain ⟨k, hk, rfl, -, -⟩ := bucket?_eq_some_iff.mp hb
  obtain ⟨k', hk', rfl, -, -⟩ := bucket?_eq_some_iff.mp hb'
  have hkk := h k hk k' hk'
  simp only [placesOk, hb, hb', List.all_eq_true, List.mem_range, Bool.or_eq_true, bne_iff_ne,
    ne_eq, Bool.and_eq_true, beq_iff_eq] at hkk
  obtain ⟨hjlt, -⟩ := List.getElem?_eq_some_iff.mp hj
  obtain ⟨hjlt', -⟩ := List.getElem?_eq_some_iff.mp hj'
  rcases hkk j hjlt j' hjlt' with hne | ⟨rfl, rfl⟩
  · exact absurd (hj.trans hj'.symm) hne
  · exact ⟨rfl, rfl⟩

end CrushMap

/-- Each bucket's weight is the sum of its item weights, without wrap, and a child bucket
    weighs in its parent what it weighs itself. -/
structure WeightsAddUp (m : CrushMap) : Prop where
  sum : ∀ {b}, m.Has b → b.weight.toNat = (b.itemWeights.map UInt32.toNat).sum
  child : ∀ {b c} {j : ℕ} {item : ℤ}, m.Has b → b.items[j]? = some item →
    m.bucket? (-1 - item) = some c → b.itemWeights.getD j 0 = c.weight

/-! ### A small map

A root over two hosts of two devices each, all of weight 1.0: the smallest map on
which collisions, leaf searches and retries all happen. -/

def smallRoot : CrushBucket where
  id := -1
  type := 2
  hash := 0
  weight := 0x40000
  size := 2
  items := [-2, -3]
  itemWeights := [0x20000, 0x20000]

/-- The host with id `id` over the devices `d` and `d + 1`. -/
def smallHost (id d : ℤ) : CrushBucket where
  id := id
  type := 1
  hash := 0
  weight := 0x20000
  size := 2
  items := [d, d + 1]
  itemWeights := [0x10000, 0x10000]

def smallMap : CrushMap where
  buckets := [some smallRoot, some (smallHost (-2) 0), some (smallHost (-3) 2)]
  maxBuckets := 3
  maxDevices := 4
  chooseLocalTries := 0
  chooseLocalFallbackTries := 0
  chooseTotalTries := 50
  chooseleafVaryR := 1
  chooseleafStable := 1

theorem smallMap_bucket {i : ℤ} {b : CrushBucket} (h : smallMap.bucket? i = some b) :
    i = 0 ∧ b = smallRoot ∨ i = 1 ∧ b = smallHost (-2) 0 ∨ i = 2 ∧ b = smallHost (-3) 2 := by
  obtain ⟨k, hk, rfl, -, hb⟩ := CrushMap.bucket?_eq_some_iff.mp h
  have hk3 : k < 3 := hk
  obtain rfl | rfl | rfl : k = 0 ∨ k = 1 ∨ k = 2 := by omega
  all_goals
    cases hb
    simp

theorem smallMap_wellFormed : smallMap.WellFormed :=
  CrushMap.wellFormed_of_bucketOk (by decide)

/-- The height of an id in the small map. -/
def smallRank (i : ℤ) : ℕ := if i = -1 then 2 else if i < 0 then 1 else 0

theorem smallMap_acyclic : smallMap.Acyclic :=
  CrushMap.acyclic_of_rankOk smallRank (by decide)

theorem smallMap_treeShaped : smallMap.TreeShaped :=
  CrushMap.treeShaped_of_placesOk smallMap_acyclic (by decide)

end MyCeph.Crush
