import Mathlib.Data.BitVec
import Mathlib.Data.Fintype.EquivFin
import Mathlib.Tactic.Ring

namespace MyCeph.Lib

/-!
# Operations on words that lose nothing

Mixing functions are put together from a few operations on words, each of which can be undone.

* `xorShift_injective` — `x ^ (x >> k)`;
* `rotate_injective` — the two shifts of a rotation;
* `mul_injective` — the product with a word that has an inverse;
* `append_inj` — two words one behind the other;
* `existsUnique_of_injective` — such an operation takes every value once;
* `foldl_one_changed` — one of the words mixed into a state cannot be exchanged for another one.
-/

variable {w : ℕ}

/-- What two equal sums differ by on one side, they differ by on the other. -/
theorem xor_eq_xor_of_eq {x y a b : BitVec w} (h : x ^^^ a = y ^^^ b) : x ^^^ y = a ^^^ b := by
  apply BitVec.eq_of_getLsbD_eq
  intro i _
  have hbit := congrArg (fun z => z.getLsbD i) h
  simp only [BitVec.getLsbD_xor] at hbit ⊢
  revert hbit
  cases x.getLsbD i <;> cases y.getLsbD i <;> cases a.getLsbD i <;> simp

/-- A word that is equal to its own right shift is 0. -/
theorem eq_zero_of_ushiftRight {k : ℕ} (hk : 0 < k) {z : BitVec w} (h : z = z >>> k) : z = 0 := by
  have hnat : z.toNat = z.toNat / 2 ^ k := by
    conv_lhs => rw [h, BitVec.toNat_ushiftRight, Nat.shiftRight_eq_div_pow]
  have hzero : z.toNat = 0 := by
    by_contra hpos
    exact absurd hnat (ne_of_gt (Nat.div_lt_self (by omega) (Nat.one_lt_two_pow (by omega))))
  apply BitVec.eq_of_toNat_eq
  simpa using hzero

/-- A shift mixed in can be undone from the top bits on. -/
theorem xorShift_injective {k : ℕ} (hk : 0 < k) :
    Function.Injective fun x : BitVec w => x ^^^ (x >>> k) := by
  intro x y h
  apply BitVec.xor_eq_zero_iff.mp
  apply eq_zero_of_ushiftRight hk
  rw [BitVec.ushiftRight_xor_distrib]
  exact xor_eq_xor_of_eq h

theorem rotate_injective {k : ℕ} (hk : k ≤ w) :
    Function.Injective fun x : BitVec w => (x >>> k) ||| (x <<< (w - k)) := by
  intro x y h
  apply BitVec.eq_of_getLsbD_eq
  intro i hi
  -- The bit `i` of the argument is found `k` places further down, around the end.
  rcases Nat.lt_or_ge i k with hlow | hhigh
  · have hbit := congrArg (fun z => z.getLsbD (i + (w - k))) h
    have hout : w ≤ k + (i + (w - k)) := by omega
    simpa [BitVec.getLsbD_of_ge _ _ hout, show i + (w - k) < w by omega, hi] using hbit
  · have hbit := congrArg (fun z => z.getLsbD (i - k)) h
    simpa [show i - k < w - k by omega, Nat.add_sub_cancel' hhigh, hi] using hbit

/-- Multiplication by an odd number can be undone by its inverse. -/
theorem mul_injective {k : BitVec w} (k' : BitVec w) (h : k * k' = 1) :
    Function.Injective fun x : BitVec w => x * k := by
  intro x y hxy
  have hmul := congrArg (fun z => z * k') hxy
  simpa only [mul_assoc, h, mul_one] using hmul

theorem append_inj {w' : ℕ} {a a' : BitVec w} {b b' : BitVec w'} :
    a ++ b = a' ++ b' ↔ a = a' ∧ b = b' := by
  constructor
  · intro h
    have hleft := congrArg (fun c => BitVec.extractLsb' w' w c) h
    have hright := congrArg (fun c => BitVec.extractLsb' 0 w' c) h
    simp only [BitVec.extractLsb'_append_eq_left, BitVec.extractLsb'_append_eq_right]
      at hleft hright
    exact ⟨hleft, hright⟩
  · rintro ⟨rfl, rfl⟩
    rfl

instance instFiniteBitVec : Finite (BitVec w) :=
  Finite.of_injective BitVec.toFin BitVec.toFin_injective

/-- On a finite type an injective function takes every value once. -/
theorem existsUnique_of_injective {α : Type*} [Finite α] {f : α → α} (h : Function.Injective f)
    (b : α) : ∃! a, f a = b := by
  obtain ⟨a, ha⟩ := (Finite.injective_iff_surjective.mp h) b
  exact ⟨a, ha, fun a' ha' => h (ha'.trans ha.symm)⟩

/-! ### Mixing a list of words into a state -/

section Fold

variable {α β : Type*} {f : β → α → β}

/-- A fold of injective steps is injective in its start. -/
theorem foldl_injective (hf : ∀ a, Function.Injective fun b => f b a) (l : List α) :
    Function.Injective fun b => l.foldl f b := by
  induction l with
  | nil => exact Function.injective_id
  | cons a l ih => exact ih.comp (hf a)

/-- Two lists that differ at one place at most, and are mixed into the same state. -/
theorem foldl_one_changed (hf : ∀ a, Function.Injective fun b => f b a)
    (hf' : ∀ b, Function.Injective (f b)) {l l' : List α} {j : ℕ} {b : β}
    (hlen : l.length = l'.length) (hj : ∀ i, i ≠ j → l[i]? = l'[i]?)
    (h : l.foldl f b = l'.foldl f b) : l = l' := by
  induction l generalizing l' j b with
  | nil => exact (List.eq_nil_of_length_eq_zero hlen.symm).symm
  | cons a l ih =>
    cases l' with
    | nil => cases hlen
    | cons a' l' =>
      cases j with
      | zero =>
        -- The changed entry is the first one: the rest is equal, and folding it is injective.
        have htail : l = l' := by
          apply List.ext_getElem?
          intro i
          simpa using hj (i + 1) (by omega)
        subst htail
        rw [hf' b (foldl_injective hf l h)]
      | succ j =>
        -- It comes later, so the first entries are equal.
        obtain rfl : a = a' := by simpa using hj 0 (by omega)
        congr 1
        apply ih (by simpa using hlen) (j := j) _ h
        intro i hi
        simpa using hj (i + 1) (by omega)

end Fold

end MyCeph.Lib
