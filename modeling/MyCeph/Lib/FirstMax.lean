import Mathlib.Order.Lattice
import Mathlib.Tactic.Common

namespace MyCeph.Lib

/-!
# The first index of a maximum

`firstMax f n` is the smallest index below `n` at which `f` takes its largest value
on `[0, n)`: what a left-to-right search for a strictly larger value finds.

* `IsFirstMax` — the specification, and `firstMax_isFirstMax` that it is met;
* `IsFirstMax.unique` — it determines the index;
* `firstMax_raise` — raising `f` at one index keeps the first maximum, or moves it to
  that index;
* `firstMax_insert` — so does inserting an index, the ones after it moving up by one
  (`skipAt`).
-/

variable {α : Type*} [LinearOrder α]

/-- The search: a later index replaces the current one only on a strictly larger value. -/
def firstMax (f : ℕ → α) : ℕ → ℕ
  | 0 => 0
  | n + 1 => if f (firstMax f n) < f n then n else firstMax f n

theorem firstMax_succ (f : ℕ → α) (n : ℕ) :
    firstMax f (n + 1) = if f (firstMax f n) < f n then n else firstMax f n := rfl

/-- `k` is the first index below `n` where `f` is maximal. -/
structure IsFirstMax (f : ℕ → α) (n k : ℕ) : Prop where
  lt : k < n
  le : ∀ j, j < n → f j ≤ f k
  first : ∀ j, j < k → f j < f k

/-- The scan finds the first maximum. -/
theorem firstMax_isFirstMax (f : ℕ → α) {n : ℕ} (hn : 0 < n) :
    IsFirstMax f n (firstMax f n) := by
  induction n with
  | zero => omega
  | succ n ih =>
    rcases Nat.eq_zero_or_pos n with rfl | hpos
    · have h0 : firstMax f 1 = 0 := by simp [firstMax]
      rw [h0]
      refine ⟨by omega, fun j hj => ?_, fun j hj => by omega⟩
      obtain rfl : j = 0 := by omega
      exact le_refl _
    · have hk := ih hpos
      unfold firstMax
      split
      · -- The last value exceeds the maximum so far, and is the first one to do so.
        rename_i hlt
        refine ⟨by omega, fun j hj => ?_, fun j hj => lt_of_le_of_lt (hk.le j hj) hlt⟩
        rcases Nat.lt_succ_iff_lt_or_eq.mp hj with h | rfl
        · exact le_of_lt (lt_of_le_of_lt (hk.le j h) hlt)
        · exact le_refl _
      · -- A tie leaves the earlier index.
        rename_i hnlt
        refine ⟨Nat.lt_succ_of_lt hk.lt, fun j hj => ?_, hk.first⟩
        rcases Nat.lt_succ_iff_lt_or_eq.mp hj with h | rfl
        · exact hk.le j h
        · exact not_lt.mp hnlt

theorem IsFirstMax.unique {f : ℕ → α} {n k l : ℕ} (hk : IsFirstMax f n k)
    (hl : IsFirstMax f n l) : k = l := by
  rcases Nat.lt_trichotomy k l with h | h | h
  · exact absurd (hl.first k h) (not_lt.mpr (hk.le l hl.lt))
  · exact h
  · exact absurd (hk.first l h) (not_lt.mpr (hl.le k hk.lt))

/-- Raising one value keeps the first maximum where it was, or moves it there. -/
theorem firstMax_raise {f g : ℕ → α} {n c : ℕ} (hn : 0 < n)
    (hsame : ∀ j, j < n → j ≠ c → g j = f j) (hraise : f c ≤ g c) :
    firstMax g n = firstMax f n ∨ firstMax g n = c := by
  by_cases hgc : firstMax g n = c
  · exact Or.inr hgc
  left
  have hf := firstMax_isFirstMax f hn
  have hg := firstMax_isFirstMax g hn
  generalize hk : firstMax g n = k at hg hgc
  -- `g k = f k`, and `f ≤ g` everywhere below `n`.
  have hgk : g k = f k := hsame k hg.lt hgc
  have hfg : ∀ j, j < n → f j ≤ g j := by
    intro j hj
    by_cases hjc : j = c
    · rw [hjc]; exact hraise
    · rw [hsame j hj hjc]
  refine IsFirstMax.unique ⟨hg.lt, fun j hj => ?_, fun j hj => ?_⟩ hf
  · exact le_trans (hfg j hj) (hgk ▸ hg.le j hj)
  · have hjn : j < n := Nat.lt_trans hj hg.lt
    exact lt_of_le_of_lt (hfg j hjn) (hgk ▸ hg.first j hj)

/-- The indices other than `c`, in order. -/
def skipAt (c j : ℕ) : ℕ := if j < c then j else j + 1

theorem skipAt_lt {c i j : ℕ} (h : i < j) : skipAt c i < skipAt c j := by
  unfold skipAt
  split <;> split <;> omega

/-- Every other index below `n + 1` is one of them. -/
theorem exists_skipAt {c k n : ℕ} (hc : c ≤ n) (hk : k < n + 1) (hne : k ≠ c) :
    ∃ j, j < n ∧ skipAt c j = k := by
  rcases Nat.lt_or_gt_of_ne hne with h | h
  · exact ⟨k, by omega, if_pos h⟩
  · refine ⟨k - 1, by omega, ?_⟩
    rw [skipAt, if_neg (by omega)]
    omega

/-- Inserting a value at index `c` keeps the first maximum, or moves it there. -/
theorem firstMax_insert (f : ℕ → α) {n c : ℕ} (hn : 0 < n) (hc : c ≤ n) :
    firstMax f (n + 1) = c ∨
      firstMax f (n + 1) = skipAt c (firstMax (fun j => f (skipAt c j)) n) := by
  have hf := firstMax_isFirstMax f (Nat.succ_pos n)
  generalize firstMax f (n + 1) = k at hf
  by_cases hkc : k = c
  · exact Or.inl hkc
  right
  -- Among the indices other than `c`, `k` stands first of the largest values.
  obtain ⟨l, hl, rfl⟩ := exists_skipAt hc hf.lt hkc
  have hskip : ∀ j, j < n → skipAt c j < n + 1 := by
    intro j hj
    unfold skipAt
    split <;> omega
  have hg : IsFirstMax (fun j => f (skipAt c j)) n l :=
    ⟨hl, fun j hj => hf.le _ (hskip j hj), fun j hj => hf.first _ (skipAt_lt hj)⟩
  rw [hg.unique (firstMax_isFirstMax _ hn)]

end MyCeph.Lib
