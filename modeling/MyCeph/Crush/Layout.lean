import Mathlib.Tactic.Ring
import MyCeph.Crush.Construct

namespace MyCeph.Crush

open Lib Relation

/-!
# Maps laid out over consecutive devices

What `crush.h` says of a map, as a predicate on the result of the constructors (`WellBuilt`,
`MaxDevicesOk`), and a way to establish it: every bucket stands over consecutive devices, is a
host or has its children at larger indices, and the place of every item can be computed
(`Layout`).  The map of `constructMap` is laid out so (`constructMap_layout`).
-/

namespace CrushMap

/-- `c` is an item of some bucket of the map. -/
def Stores (m : CrushMap) (c : ℤ) : Prop := ∃ b, m.Has b ∧ c ∈ b.items

/-- `max_devices` as `crush.h` has it: "the value of the highest item stored in the crush_map
    + 1". -/
def MaxDevicesOk (m : CrushMap) : Prop :=
  ∃ d, m.Stores d ∧ (∀ c, m.Stores c → c ≤ d) ∧ m.maxDevices = d + 1

end CrushMap

/-- A tree of buckets over the devices `0` to `devices - 1`, each of them in one host, where
    weights add up. -/
structure WellBuilt (m : CrushMap) (weight : List UInt32) (devices : ℕ) : Prop where
  bucket_set : ∀ i, 0 ≤ i → i < m.maxBuckets → ∃ b, m.bucket? i = some b ∧ b.id = -1 - i
  wellFormed : m.WellFormed
  tree : m.TreeShaped
  one_parent : ∀ i, 0 < i → i < m.maxBuckets → ∃! k, ∃ b, m.bucket? k = some b ∧ (-1 - i) ∈ b.items
  root_top : ¬ m.Stores (-1)
  rooted : ∀ i, 0 ≤ i → i < m.maxBuckets → m.AtOrBelow (-1) (-1 - i)
  device_iff : ∀ d, 0 ≤ d → (m.Stores d ↔ d < devices)
  one_host : ∀ d : ℤ, 0 ≤ d → d < devices → ∃! k, ∃ b, m.bucket? k = some b ∧ d ∈ b.items
  host_type : ∀ b d, m.Has b → 0 ≤ d → d ∈ b.items → b.type = 1
  weightsAddUp : WeightsAddUp m
  device_weight : ∀ b (j : ℕ) (d : ℕ), m.Has b → b.items[j]? = some (d : ℤ) →
    b.itemWeights[j]? = weight[d]?
  root_weight : ∃ root, m.bucket? 0 = some root ∧
    root.weight.toNat = ((weight.take devices).map UInt32.toNat).sum

variable {weight : List UInt32}

/-- With the devices numbered from 0 on, `max_devices` is right if it is their number. -/
theorem WellBuilt.maxDevicesOk_iff {m : CrushMap} {devices : ℕ} (h : WellBuilt m weight devices)
    (hpos : 0 < devices) : m.MaxDevicesOk ↔ m.maxDevices = devices := by
  -- The highest device stored is `devices - 1`.
  have hlast : m.Stores ((devices : ℤ) - 1) := (h.device_iff _ (by omega)).mpr (by omega)
  have hle : ∀ c, m.Stores c → c ≤ (devices : ℤ) - 1 := by
    intro c hc
    rcases lt_or_ge c 0 with hneg | hnn
    · omega
    · have := (h.device_iff c hnn).mp hc
      omega
  constructor
  · rintro ⟨d, hd, hmax, heq⟩
    have h1 := hmax _ hlast
    have h2 := hle d hd
    omega
  · exact fun heq => ⟨(devices : ℤ) - 1, hlast, hle, by omega⟩

/-! ### Buckets over consecutive devices -/

theorem getElem?_map_range {α : Type*} (f : ℕ → α) {n j : ℕ} {a : α} :
    ((List.range n).map f)[j]? = some a ↔ j < n ∧ a = f j := by
  rw [List.getElem?_map, Option.map_eq_some_iff]
  constructor
  · rintro ⟨i, hi, rfl⟩
    obtain ⟨hj, rfl⟩ := List.getElem?_eq_some_iff.mp hi
    exact ⟨by simpa using hj, by rw [List.getElem_range]⟩
  · rintro ⟨hj, rfl⟩
    exact ⟨j, List.getElem?_range hj, rfl⟩

/-- The items of a host are devices in a row. -/
theorem hostOver_item {id : ℤ} {n d j : ℕ} {c : ℤ} :
    (hostOver weight id n d).items[j]? = some c ↔ j < n ∧ c = (d + j : ℕ) :=
  getElem?_map_range fun j => ((d + j : ℕ) : ℤ)

/-- The items of a parent are the ids of its children. -/
theorem parentOver_item {id : ℤ} {type size n d j : ℕ} {child : ℕ → ℕ} {c : ℤ} :
    (parentOver weight id type size child n d).items[j]? = some c
      ↔ j < size ∧ c = -(child j : ℤ) - 1 :=
  getElem?_map_range fun j => -(child j : ℤ) - 1

theorem sum_map_range (f : ℕ → ℕ) (n : ℕ) :
    ((List.range n).map f).sum = ∑ j ∈ Finset.range n, f j := by
  induction n with
  | zero => rfl
  | succ n ih => simp [List.range_succ, Finset.sum_range_succ, ih]

/-- The weight of the first devices. -/
theorem rangeWeight_take (n : ℕ) :
    rangeWeight weight 0 n = ((weight.take n).map UInt32.toNat).sum := by
  induction n with
  | zero => simp [rangeWeight]
  | succ n ih =>
    rw [rangeWeight_succ, ih, Nat.zero_add, List.take_add_one, List.map_append, List.sum_append,
      List.getD_eq_getElem?_getD]
    cases weight[n]? <;> simp

/-- A part weighs no more than the whole. -/
theorem rangeWeight_le {d n D : ℕ} (h : d + n ≤ D) :
    rangeWeight weight d n ≤ rangeWeight weight 0 D := by
  obtain ⟨k, rfl⟩ := Nat.exists_eq_add_of_le h
  rw [rangeWeight_add, rangeWeight_add, Nat.zero_add]
  omega

/-- The weights of consecutive stretches of `n` devices add up. -/
theorem sum_rangeWeight (d n size : ℕ) :
    ∑ j ∈ Finset.range size, rangeWeight weight (d + n * j) n
      = rangeWeight weight d (n * size) := by
  induction size with
  | zero => simp [rangeWeight]
  | succ size ih => rw [Finset.sum_range_succ, ih, Nat.mul_succ, rangeWeight_add]

/-! ### Laid-out maps -/

/-- What stands at index `i`: a host, or a bucket with its children further on.  The devices of
    both follow each other and end at `D`, and `place` knows where their items stand. -/
inductive LaidOut (weight : List UInt32) (made : ℕ → CrushBucket) (place : ℤ → ℕ × ℕ) (N D i : ℕ) :
    Prop where
  | host {n d : ℕ} (hmade : made i = hostOver weight (-(i : ℤ) - 1) n d) (hn : n < 2 ^ 32)
      (hD : d + n ≤ D) (hplace : ∀ j < n, place (d + j : ℕ) = (i, j))
  | parent {type size n d : ℕ} {child : ℕ → ℕ}
      (hmade : made i = parentOver weight (-(i : ℤ) - 1) type size child n d) (htype : 0 < type)
      (hsize : size < 2 ^ 32) (hD : d + n * size ≤ D)
      (hchild : ∀ j < size, i < child j ∧ child j < N)
      (hweight : ∀ j < size,
        (made (child j)).weight = UInt32.ofNat (rangeWeight weight (d + n * j) n))
      (hplace : ∀ j < size, place (-(child j : ℤ) - 1) = (i, j))

/-- The buckets of `m` are those of `made`, laid out over the devices below `D`. -/
structure Layout (m : CrushMap) (weight : List UInt32) (made : ℕ → CrushBucket)
    (place : ℤ → ℕ × ℕ) (N D : ℕ) : Prop where
  maxBuckets : m.maxBuckets = N
  get : ∀ i < N, m.bucket? (i : ℕ) = some (made i)
  laidOut : ∀ i < N, LaidOut weight made place N D i
  above_device : ∀ d < D, (place (d : ℕ)).1 < N ∧
    (made (place (d : ℕ)).1).items[(place (d : ℕ)).2]? = some (d : ℤ)
  above_bucket : ∀ i, 0 < i → i < N → (place (-1 - (i : ℤ))).1 < i ∧
    (made (place (-1 - (i : ℤ))).1).items[(place (-1 - (i : ℤ))).2]? = some (-1 - (i : ℤ))
  root : 0 < N ∧ (made 0).weight = UInt32.ofNat (rangeWeight weight 0 D)

section LaidOut

variable {made : ℕ → CrushBucket} {place : ℤ → ℕ × ℕ} {N D i : ℕ}

theorem LaidOut.id_eq (h : LaidOut weight made place N D i) : (made i).id = -1 - i := by
  have hid : -(i : ℤ) - 1 = -1 - i := by omega
  cases h with
  | host hmade => rw [hmade]; exact hid
  | parent hmade => rw [hmade]; exact hid

theorem LaidOut.type_pos (h : LaidOut weight made place N D i) : 0 < (made i).type := by
  cases h with
  | host hmade => rw [hmade]; exact Nat.one_pos
  | parent hmade htype => rw [hmade]; exact htype

theorem LaidOut.lengths (h : LaidOut weight made place N D i) :
    (made i).items.length = (made i).size.toNat ∧
      (made i).itemWeights.length = (made i).size.toNat := by
  cases h with
  | host hmade hn =>
    rw [hmade]
    simp only [hostOver, List.length_map, List.length_range, UInt32.toNat_ofNat_of_lt' hn, and_self]
  | parent hmade htype hsize =>
    rw [hmade]
    simp only [parentOver, List.length_map, List.length_range, UInt32.toNat_ofNat_of_lt' hsize,
      and_self]

/-- Every item stands where `place` says. -/
theorem LaidOut.place_eq (h : LaidOut weight made place N D i) {j : ℕ} {c : ℤ}
    (hc : (made i).items[j]? = some c) : place c = (i, j) := by
  cases h with
  | host hmade hn hD hplace =>
    rw [hmade, hostOver_item] at hc
    rw [hc.2, hplace j hc.1]
  | parent hmade htype hsize hD hchild hweight hplace =>
    rw [hmade, parentOver_item] at hc
    rw [hc.2, hplace j hc.1]

/-- Negative items are buckets further on, with their weights. -/
theorem LaidOut.child (h : LaidOut weight made place N D i) {j : ℕ} {c : ℤ}
    (hc : (made i).items[j]? = some c) (hneg : c < 0) :
    ∃ k : ℕ, -1 - c = k ∧ i < k ∧ k < N ∧ (made i).itemWeights[j]? = some (made k).weight := by
  cases h with
  | host hmade =>
    rw [hmade, hostOver_item] at hc
    omega
  | @parent type size n d child hmade htype hsize hD hchild hweight =>
    rw [hmade, parentOver_item] at hc
    obtain ⟨hj, rfl⟩ := hc
    refine ⟨child j, by omega, (hchild j hj).1, (hchild j hj).2, ?_⟩
    rw [hmade, hweight j hj]
    exact (getElem?_map_range fun j => UInt32.ofNat (rangeWeight weight (d + n * j) n)).mpr
      ⟨hj, rfl⟩

/-- The other items are devices below `D` of a host, with their weights. -/
theorem LaidOut.device (h : LaidOut weight made place N D i) {j e : ℕ}
    (he : (made i).items[j]? = some (e : ℤ)) :
    e < D ∧ (made i).type = 1 ∧ (made i).itemWeights[j]? = some (weight.getD e 0) := by
  cases h with
  | @host n d hmade hn hD =>
    rw [hmade, hostOver_item] at he
    obtain rfl : e = d + j := by omega
    rw [hmade]
    exact ⟨by omega, rfl, (getElem?_map_range fun j => weight.getD (d + j) 0).mpr ⟨he.1, rfl⟩⟩
  | parent hmade =>
    rw [hmade, parentOver_item] at he
    omega

/-- The weight of a bucket is the sum of its item weights, as long as the weight of all devices
    does not wrap around. -/
theorem LaidOut.weight_sum (h : LaidOut weight made place N D i)
    (htotal : rangeWeight weight 0 D < 2 ^ 32) :
    (made i).weight.toNat = ((made i).itemWeights.map UInt32.toNat).sum := by
  -- No weight wraps, as all devices together do not.
  have hfits : ∀ {d n}, d + n ≤ D →
      (UInt32.ofNat (rangeWeight weight d n)).toNat = rangeWeight weight d n := fun hle =>
    UInt32.toNat_ofNat_of_lt' (lt_of_le_of_lt (rangeWeight_le hle) htotal)
  cases h with
  | @host n d hmade hn hD =>
    rw [hmade]
    simp only [hostOver, List.map_map, hfits hD]
    rw [sum_map_range]
    rfl
  | @parent type size n d child hmade htype hsize hD =>
    have hchild : ∀ j ∈ List.range size,
        (UInt32.toNat ∘ fun j => UInt32.ofNat (rangeWeight weight (d + n * j) n)) j
          = rangeWeight weight (d + n * j) n := by
      intro j hj
      have hle : n * (j + 1) ≤ n * size :=
        Nat.mul_le_mul_left n (Nat.succ_le_of_lt (List.mem_range.mp hj))
      exact hfits (by rw [Nat.mul_succ] at hle; omega)
    rw [hmade]
    simp only [parentOver, List.map_map, hfits hD]
    rw [List.map_congr_left hchild, sum_map_range, sum_rangeWeight]

end LaidOut

namespace Layout

variable {m : CrushMap} {made : ℕ → CrushBucket} {place : ℤ → ℕ × ℕ} {N D : ℕ}

/-- The buckets of the map are those of the layout. -/
theorem bucket (h : Layout m weight made place N D) {k : ℤ} {b : CrushBucket}
    (hb : m.bucket? k = some b) : ∃ i : ℕ, i < N ∧ k = i ∧ b = made i := by
  obtain ⟨i, -, rfl, hmax, -⟩ := CrushMap.bucket?_eq_some_iff.mp hb
  have hi : i < N := by
    rw [h.maxBuckets] at hmax
    exact Int.ofNat_lt.mp hmax
  rw [h.get i hi] at hb
  exact ⟨i, hi, rfl, (Option.some.inj hb).symm⟩

/-- The items of the map are those of the layout. -/
theorem item (h : Layout m weight made place N D) {b : CrushBucket} {c : ℤ} (hb : m.Has b)
    (hc : c ∈ b.items) : ∃ i j : ℕ, i < N ∧ b = made i ∧ (made i).items[j]? = some c := by
  obtain ⟨k, hk⟩ := hb
  obtain ⟨i, hi, -, rfl⟩ := h.bucket hk
  obtain ⟨j, hj⟩ := List.mem_iff_getElem?.mp hc
  exact ⟨i, j, hi, rfl, hj⟩

/-- A map that is laid out so is well formed. -/
theorem wellFormed (h : Layout m weight made place N D) : m.WellFormed := by
  refine ⟨fun hb => ?_, fun hb => ?_, fun hb => ?_, fun hb => ?_, fun hb c hc hneg => ?_⟩
  all_goals obtain ⟨i, hi, rfl, rfl⟩ := h.bucket hb
  · exact (h.laidOut i hi).id_eq
  · exact (h.laidOut i hi).type_pos
  · exact (h.laidOut i hi).lengths.1
  · exact (h.laidOut i hi).lengths.2
  · obtain ⟨j, hj⟩ := List.mem_iff_getElem?.mp hc
    obtain ⟨k, hk, -, hkN, -⟩ := (h.laidOut i hi).child hj hneg
    exact ⟨made k, hk ▸ h.get k hkN⟩

/-- It is a tree: every item is where `place` says, and nowhere else. -/
theorem treeShaped (h : Layout m weight made place N D) : m.TreeShaped := by
  constructor
  · -- Children stand at larger indices, and devices below all buckets.
    refine CrushMap.acyclic_of_rank (fun c => if c < 0 then N - (-1 - c).toNat else 0) ?_
    rintro p c ⟨b, hb, hc⟩
    obtain ⟨i, hi, hp, rfl⟩ := h.bucket hb
    obtain rfl : p = -1 - i := by omega
    obtain ⟨j, hj⟩ := List.mem_iff_getElem?.mp hc
    have hp : -1 - (i : ℤ) < 0 := by omega
    rw [if_pos hp, show (-1 - (-1 - (i : ℤ))).toNat = i by omega]
    split
    · rename_i hneg
      obtain ⟨k, hk, hik, hkN, -⟩ := (h.laidOut i hi).child hj hneg
      omega
    · omega
  · intro k k' b b' j j' c hb hb' hc hc'
    obtain ⟨i, hi, rfl, rfl⟩ := h.bucket hb
    obtain ⟨i', hi', rfl, rfl⟩ := h.bucket hb'
    have hplace := (h.laidOut i hi).place_eq hc
    rw [(h.laidOut i' hi').place_eq hc'] at hplace
    cases hplace
    exact ⟨rfl, rfl⟩

/-- An item stands in the bucket that `place` says, and in no other. -/
theorem one_place (h : Layout m weight made place N D) {c : ℤ} (hlt : (place c).1 < N)
    (hc : (made (place c).1).items[(place c).2]? = some c) :
    ∃! k, ∃ b, m.bucket? k = some b ∧ c ∈ b.items := by
  refine ⟨(place c).1, ⟨_, h.get _ hlt, List.mem_of_getElem? hc⟩, ?_⟩
  rintro k ⟨b, hb, hmem⟩
  obtain ⟨i, hi, rfl, rfl⟩ := h.bucket hb
  obtain ⟨j, hj⟩ := List.mem_iff_getElem?.mp hmem
  rw [(h.laidOut i hi).place_eq hj]

/-- Every bucket is found below the root. -/
theorem rooted (h : Layout m weight made place N D) (i : ℕ) (hi : i < N) :
    m.AtOrBelow (-1) (-1 - (i : ℤ)) := by
  induction i using Nat.strong_induction_on with
  | _ i ih =>
    rcases Nat.eq_zero_or_pos i with rfl | hpos
    · exact ReflTransGen.refl
    · obtain ⟨hlt, hc⟩ := h.above_bucket i hpos hi
      have hparent : m.bucket? (-1 - (-1 - ((place (-1 - (i : ℤ))).1 : ℤ)))
          = some (made (place (-1 - (i : ℤ))).1) := by
        rw [show ∀ a : ℤ, -1 - (-1 - a) = a by intro a; omega]
        exact h.get _ (by omega)
      exact (ih _ hlt (by omega)).tail ⟨_, hparent, List.mem_of_getElem? hc⟩

/-- The devices it stores are those below `D`. -/
theorem stores_iff (h : Layout m weight made place N D) {d : ℤ} (hd : 0 ≤ d) :
    m.Stores d ↔ d < D := by
  obtain ⟨e, rfl⟩ := Int.eq_ofNat_of_zero_le hd
  constructor
  · rintro ⟨b, hb, hmem⟩
    obtain ⟨i, j, hi, rfl, hj⟩ := h.item hb hmem
    exact Int.ofNat_lt.mpr ((h.laidOut i hi).device hj).1
  · intro he
    obtain ⟨hlt, hc⟩ := h.above_device e (Int.ofNat_lt.mp he)
    exact ⟨_, ⟨_, h.get _ hlt⟩, List.mem_of_getElem? hc⟩

/-- Its weights add up, if all of them together fit into 32 bits. -/
theorem weightsAddUp (h : Layout m weight made place N D)
    (htotal : rangeWeight weight 0 D < 2 ^ 32) : WeightsAddUp m := by
  constructor
  · rintro b ⟨k, hb⟩
    obtain ⟨i, hi, -, rfl⟩ := h.bucket hb
    exact (h.laidOut i hi).weight_sum htotal
  · rintro b c j item ⟨k, hb⟩ hitem hc
    obtain ⟨i, hi, -, rfl⟩ := h.bucket hb
    obtain ⟨l, hl, hindex, rfl⟩ := h.bucket hc
    obtain ⟨l', hl', -, -, hw⟩ := (h.laidOut i hi).child hitem (by omega)
    obtain rfl : l = l' := by omega
    rw [List.getD_eq_getElem?_getD, hw, Option.getD_some]

/-- **A laid-out map is well built**, if the weight of all devices does not wrap around. -/
theorem wellBuilt (h : Layout m weight made place N D) (hlen : D ≤ weight.length)
    (htotal : ((weight.take D).map UInt32.toNat).sum < 2 ^ 32) : WellBuilt m weight D := by
  rw [← rangeWeight_take] at htotal
  -- Indices of buckets are those below `N`.
  have hindex : ∀ i : ℤ, 0 ≤ i → i < m.maxBuckets → ∃ k : ℕ, i = k ∧ k < N := by
    intro i hi hmax
    obtain ⟨k, rfl⟩ := Int.eq_ofNat_of_zero_le hi
    rw [h.maxBuckets] at hmax
    exact ⟨k, rfl, Int.ofNat_lt.mp hmax⟩
  refine ⟨fun i hi hmax => ?_, h.wellFormed, h.treeShaped, fun i hi hmax => ?_, ?_,
    fun i hi hmax => ?_, fun d hd => h.stores_iff hd, fun d hd hD => ?_, ?_,
    h.weightsAddUp htotal, ?_, ?_⟩
  · obtain ⟨k, rfl, hk⟩ := hindex i hi hmax
    exact ⟨_, h.get k hk, (h.laidOut k hk).id_eq⟩
  · obtain ⟨k, rfl, hk⟩ := hindex i (le_of_lt hi) hmax
    obtain ⟨hlt, hc⟩ := h.above_bucket k (by omega) hk
    exact h.one_place (by omega) hc
  · rintro ⟨b, hb, hmem⟩
    obtain ⟨i, j, hi, rfl, hj⟩ := h.item hb hmem
    obtain ⟨k, hk, hik, -⟩ := (h.laidOut i hi).child hj (by decide)
    omega
  · obtain ⟨k, rfl, hk⟩ := hindex i hi hmax
    exact h.rooted k hk
  · obtain ⟨e, rfl⟩ := Int.eq_ofNat_of_zero_le hd
    obtain ⟨hlt, hc⟩ := h.above_device e (Int.ofNat_lt.mp hD)
    exact h.one_place hlt hc
  · intro b d hb hd hmem
    obtain ⟨e, rfl⟩ := Int.eq_ofNat_of_zero_le hd
    obtain ⟨i, j, hi, rfl, hj⟩ := h.item hb hmem
    exact ((h.laidOut i hi).device hj).2.1
  · rintro b j d ⟨k, hb⟩ hd
    obtain ⟨i, hi, -, rfl⟩ := h.bucket hb
    obtain ⟨hdD, -, hw⟩ := (h.laidOut i hi).device hd
    rw [hw, getElem?_eq_getD (by omega)]
  · refine ⟨made 0, h.get 0 h.root.1, ?_⟩
    rw [h.root.2, ← rangeWeight_take]
    exact UInt32.toNat_ofNat_of_lt' htotal

end Layout

/-! ### The map of racks and hosts -/

/-- Where an item stands in the map of `constructMap`: the index of its bucket, and its place
    there. -/
def placeAt (n : ℕ) (c : ℤ) : ℕ × ℕ :=
  if 0 ≤ c then (1 + 11 * (c.toNat / n / 10) + 1 + c.toNat / n % 10, c.toNat % n)
  else if ((-1 - c).toNat - 1) % 11 = 0 then (0, ((-1 - c).toNat - 1) / 11)
  else (1 + 11 * (((-1 - c).toNat - 1) / 11), ((-1 - c).toNat - 1) % 11 - 1)

theorem placeAt_rack (n k : ℕ) : placeAt n (-((1 + 11 * k : ℕ) : ℤ) - 1) = (0, k) := by
  have hindex : (-1 - (-((1 + 11 * k : ℕ) : ℤ) - 1)).toNat - 1 = 11 * k := by omega
  rw [placeAt, if_neg (by omega), hindex, if_pos (by omega), Nat.mul_div_cancel_left k (by omega)]

theorem placeAt_host (n k : ℕ) {l : ℕ} (hl : l < 10) :
    placeAt n (-((1 + 11 * k + 1 + l : ℕ) : ℤ) - 1) = (1 + 11 * k, l) := by
  have hindex : (-1 - (-((1 + 11 * k + 1 + l : ℕ) : ℤ) - 1)).toNat - 1 = 11 * k + (1 + l) := by
    omega
  have hdiv : (11 * k + (1 + l)) / 11 = k := by omega
  have hmod : (11 * k + (1 + l)) % 11 = 1 + l := by omega
  rw [placeAt, if_neg (by omega), hindex, hdiv, hmod, if_neg (by omega), Nat.add_sub_cancel_left]

/-- A device stands in the host that its number says. -/
theorem placeAt_device {n k l j : ℕ} (hl : l < 10) (hj : j < n) :
    placeAt n ((n * 10 * k + n * l + j : ℕ) : ℤ) = (1 + 11 * k + 1 + l, j) := by
  have hhost : n * 10 * k + n * l + j = j + n * (10 * k + l) := by ring
  have hdiv : (n * 10 * k + n * l + j) / n = 10 * k + l := by
    rw [hhost, Nat.add_mul_div_left _ _ (by omega), Nat.div_eq_of_lt hj, Nat.zero_add]
  have hmod : (n * 10 * k + n * l + j) % n = j := by
    rw [hhost, Nat.add_mul_mod_self_left, Nat.mod_eq_of_lt hj]
  have hrack : (10 * k + l) / 10 = k := by omega
  have hplace : (10 * k + l) % 10 = l := by omega
  rw [placeAt, if_pos (Int.natCast_nonneg _), Int.toNat_natCast, hdiv, hmod, hrack, hplace]

/-- An index is that of the root, of a rack, or of a host. -/
theorem index_cases {i : ℕ} (hi : i < 56) : i = 0 ∨ (∃ k < 5, i = 1 + 11 * k) ∨
    ∃ k < 5, ∃ l < 10, i = 1 + 11 * k + 1 + l := by
  by_cases h0 : i = 0
  · exact Or.inl h0
  right
  by_cases hrack : (i - 1) % 11 = 0
  · exact Or.inl ⟨(i - 1) / 11, by omega, by omega⟩
  · exact Or.inr ⟨(i - 1) / 11, by omega, (i - 1) % 11 - 1, by omega, by omega⟩

/-- A device stands in a host. -/
theorem device_cases {n e : ℕ} (he : e < 50 * n) : ∃ k < 5, ∃ l < 10, ∃ j < n,
    e = n * 10 * k + n * l + j := by
  have hn : 0 < n := by omega
  have hhost : e / n < 50 := Nat.div_lt_of_lt_mul (by rwa [Nat.mul_comm])
  refine ⟨e / n / 10, by omega, e / n % 10, Nat.mod_lt _ (by omega), e % n, Nat.mod_lt _ hn, ?_⟩
  calc e = n * (e / n) + e % n := (Nat.div_add_mod e n).symm
    _ = n * (10 * (e / n / 10) + e / n % 10) + e % n := by rw [Nat.div_add_mod (e / n) 10]
    _ = n * 10 * (e / n / 10) + n * (e / n % 10) + e % n := by ring

/-- **The layout of racks and hosts.** -/
theorem constructMap_layout {m : CrushMap} {n : ℕ} (hn : n < 2 ^ 32) (hmax : m.maxBuckets = 56)
    (hget : ∀ i < 56, m.bucket? (i : ℕ) = some (bucketAt weight n i)) :
    Layout m weight (bucketAt weight n) (placeAt n) 56 (50 * n) := by
  refine ⟨hmax, hget, fun i hi => ?_, fun e he => ?_, fun i hpos hi => ?_, by omega, ?_⟩
  · -- The root, a rack or a host.
    rcases index_cases hi with rfl | ⟨k, hk, rfl⟩ | ⟨k, hk, l, hl, rfl⟩
    · refine .parent (bucketAt_root n) (by omega) (by omega) (by omega) (fun k hk => ?_)
        (fun k hk => ?_) fun k hk => placeAt_rack n k
      · omega
      · rw [bucketAt_rack, Nat.zero_add]
        rfl
    · refine .parent (bucketAt_rack n k) (by omega) (by omega) (device_le hk (le_refl 10))
        (fun l hl => ?_) (fun l hl => ?_) fun l hl => placeAt_host n k hl
      · omega
      · rw [bucketAt_host n k hl]
        rfl
    · refine .host (bucketAt_host n k hl) hn ?_ fun j hj => placeAt_device hl hj
      rw [Nat.add_assoc, ← Nat.mul_succ]
      exact device_le hk hl
  · obtain ⟨k, hk, l, hl, j, hj, rfl⟩ := device_cases he
    rw [placeAt_device hl hj, bucketAt_host n k hl]
    exact ⟨by omega, hostOver_item.mpr ⟨hj, rfl⟩⟩
  · rw [show -1 - (i : ℤ) = -(i : ℤ) - 1 by omega]
    rcases index_cases hi with rfl | ⟨k, hk, rfl⟩ | ⟨k, hk, l, hl, rfl⟩
    · omega
    · rw [placeAt_rack, bucketAt_root]
      exact ⟨by omega, parentOver_item.mpr ⟨hk, rfl⟩⟩
    · rw [placeAt_host n k hl, bucketAt_rack]
      exact ⟨by omega, parentOver_item.mpr ⟨hl, rfl⟩⟩
  · rw [bucketAt_root]
    simp only [parentOver]
    congr 2
    omega

/-- **`init2`'s map is well built**, for every number of devices in a host and every weight table.
    The length of the table, `osd_sum`, is an `int`. -/
theorem constructMap_wellBuilt (weight : List UInt32) (n : ℕ) (buckets : List (Option CrushBucket))
    (hn : 1 ≤ n) (hlen : 50 * n ≤ weight.length) (hint : weight.length < 2 ^ 31)
    (hroom : 56 ≤ buckets.length)
    (htotal : ((weight.take (50 * n)).map UInt32.toNat).sum < 2 ^ 32) :
    ∃ m, constructMap weight n buckets = .ok m ∧ m.maxDevices = (50 * n : ℕ) ∧
      WellBuilt m weight (50 * n) ∧ m.MaxDevicesOk := by
  have hn32 : n < 2 ^ 32 := by omega
  obtain ⟨m, hrun, hmax, hdevices, hget⟩ := constructMap_run hn32 hlen hroom
  have hbuilt := (constructMap_layout hn32 hmax hget).wellBuilt hlen htotal
  exact ⟨m, hrun, hdevices, hbuilt, (hbuilt.maxDevicesOk_iff (by omega)).mpr hdevices⟩

/-- `init2` as the program calls it: 15 devices of weight 176 in each host. -/
theorem constructMap_wellBuilt_init2 :
    ∃ m, init2 10000 15 (List.replicate 1000 none) = .ok m ∧ m.maxDevices = (750 : ℕ) ∧
      WellBuilt m (List.replicate 10000 176) 750 ∧ m.MaxDevicesOk := by
  refine constructMap_wellBuilt (List.replicate 10000 176) 15 (List.replicate 1000 none) (by omega)
    ?_ ?_ ?_ ?_
  · rw [List.length_replicate]
    omega
  · rw [List.length_replicate]
    omega
  · rw [List.length_replicate]
    omega
  · rw [List.take_replicate, List.map_replicate, List.sum_replicate]
    decide

end MyCeph.Crush
