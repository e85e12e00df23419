import Mathlib.Tactic.Common

namespace MyCeph.Lib

/-!
# Ring buffers

A ring buffer of capacity `cap` keeps `n` entries in the slots `front`, `front + 1`, …,
taken modulo `cap`, of an array `buf`.  `ringList` reads them off as a list, which is what
the buffer stands for:

* `ringList_push` — a store behind the last entry of a buffer that is not full appends;
* `ringList_pop` — moving `front` by one drops the first entry;
* `ringSlot_inj` — slots less than one round apart are different.
-/

variable {α : Type*}

/-- The slot of entry number `i`. -/
def ringSlot (cap front : Int) (i : Nat) : Int := (front + i) % cap

/-- The `n` entries from `front` on. -/
def ringList (buf : Int → α) (cap front : Int) (n : Nat) : List α :=
  (List.range n).map fun i => buf (ringSlot cap front i)

/-- The array with `v` stored at slot `k`. -/
def ringStore (buf : Int → α) (k : Int) (v : α) : Int → α := fun j => if j = k then v else buf j

theorem ringSlot_zero {cap front : Int} (hlo : 0 ≤ front) (hhi : front < cap) :
    ringSlot cap front 0 = front := by
  show (front + 0) % cap = front
  rw [Int.add_zero]
  exact Int.emod_eq_of_lt hlo hhi

/-- Counting from the next slot. -/
theorem ringSlot_succ (cap front : Int) (i : Nat) :
    ringSlot cap ((front + 1) % cap) i = ringSlot cap front (i + 1) := by
  show ((front + 1) % cap + i) % cap = (front + (i + 1 : Nat)) % cap
  rw [Int.emod_add_emod, show front + 1 + (i : Int) = front + (i + 1 : Nat) by omega]

/-- Slots less than one round apart are different. -/
theorem ringSlot_inj {cap front : Int} {i j : Nat} (hi : (i : Int) < cap) (hj : (j : Int) < cap)
    (h : ringSlot cap front i = ringSlot cap front j) : i = j := by
  have hmod : ((front + i) - (front + j)) % cap = 0 :=
    Int.emod_eq_emod_iff_emod_sub_eq_zero.mp h
  have hdvd : cap ∣ (front + i) - (front + j) := Int.dvd_of_emod_eq_zero hmod
  -- The difference is a multiple of `cap` and smaller than `cap`.
  have hzero := Int.eq_zero_of_dvd_of_natAbs_lt_natAbs hdvd (by omega)
  omega

@[simp] theorem ringList_length (buf : Int → α) (cap front : Int) (n : Nat) :
    (ringList buf cap front n).length = n := by
  simp [ringList]

/-- A store into a slot that is not in use changes no entry. -/
theorem ringList_store {cap front : Int} {n : Nat} (buf : Int → α) (k : Int) (v : α)
    (hk : ∀ i < n, ringSlot cap front i ≠ k) :
    ringList (ringStore buf k v) cap front n = ringList buf cap front n := by
  apply List.map_congr_left
  intro i hi
  exact if_neg (hk i (List.mem_range.mp hi))

/-- **Append.**  A store into the slot behind the last entry of a buffer that is not full. -/
theorem ringList_push {cap front : Int} {n : Nat} (buf : Int → α) (v : α) (hn : (n : Int) < cap) :
    ringList (ringStore buf (ringSlot cap front n) v) cap front (n + 1)
      = ringList buf cap front n ++ [v] := by
  have hfree : ∀ i < n, ringSlot cap front i ≠ ringSlot cap front n := by
    intro i hi heq
    have := ringSlot_inj (by omega) hn heq
    omega
  have hlast : ringStore buf (ringSlot cap front n) v (ringSlot cap front n) = v := if_pos rfl
  rw [← ringList_store buf _ v hfree]
  simp only [ringList, List.range_succ, List.map_append, List.map_cons, List.map_nil, hlast]

/-- **Drop.**  The first entry, and the entries from the next slot on. -/
theorem ringList_pop {cap front : Int} (buf : Int → α) (n : Nat) (hlo : 0 ≤ front)
    (hhi : front < cap) :
    ringList buf cap front (n + 1) = buf front :: ringList buf cap ((front + 1) % cap) n := by
  simp only [ringList, List.range_succ_eq_map, List.map_cons, List.map_map]
  rw [ringSlot_zero hlo hhi]
  congr 1
  apply List.map_congr_left
  intro i _
  show buf (ringSlot cap front (i + 1)) = buf (ringSlot cap ((front + 1) % cap) i)
  rw [ringSlot_succ]

end MyCeph.Lib
