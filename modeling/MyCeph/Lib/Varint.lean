import Mathlib.Algebra.Order.Group.Nat
import Mathlib.Data.Nat.Notation
import Mathlib.Tactic.Common

namespace MyCeph.Lib

/-!
# Numbers to the base 128

A number in bytes of seven bits, the lowest first; all bytes but the last have the high bit set.

* `decode_encode` — what was encoded is read back, and the bytes behind it are left;
* `decode_lt` — reading takes at least one byte;
* `encode_length_le` — the number of bytes is that of the septets.
-/

namespace Varint

/-- The bytes of a number. -/
def encode (n : ℕ) : List UInt8 :=
  if n < 128 then [UInt8.ofNat n] else UInt8.ofNat (n % 128 + 128) :: encode (n / 128)
termination_by n
decreasing_by omega

/-- The number at the front, in at most `width` bytes, and what is behind it. -/
def decode : ℕ → List UInt8 → Option (ℕ × List UInt8)
  | 0, _ | _, [] => none
  | width + 1, b :: rest =>
    if b.toNat < 128 then some (b.toNat, rest)
    else
      match decode width rest with
      | none => none
      | some (n, rest) => some (b.toNat - 128 + 128 * n, rest)

theorem toNat_ofNat {n : ℕ} (h : n < 256) : (UInt8.ofNat n).toNat = n := by
  rw [UInt8.toNat_ofNat']
  exact Nat.mod_eq_of_lt h

theorem encode_ne_nil (n : ℕ) : encode n ≠ [] := by
  unfold encode
  split <;> simp

/-- **Round trip.** -/
theorem decode_encode {width n : ℕ} (h : (encode n).length ≤ width) (rest : List UInt8) :
    decode width (encode n ++ rest) = some (n, rest) := by
  -- A number of more than seven bits goes on with `n / 128`.
  induction n using Nat.strongRecOn generalizing width with
  | ind n ih =>
    obtain ⟨width, rfl⟩ : ∃ k, width = k + 1 := by
      have hpos := List.length_pos_iff.mpr (encode_ne_nil n)
      exact ⟨width - 1, by omega⟩
    unfold encode at h ⊢
    by_cases hsmall : n < 128
    · rw [if_pos hsmall]
      simp only [List.cons_append, List.nil_append, decode]
      rw [toNat_ofNat (by omega), if_pos hsmall]
    · rw [if_neg hsmall] at h ⊢
      have hbyte : (UInt8.ofNat (n % 128 + 128)).toNat = n % 128 + 128 := toNat_ofNat (by omega)
      have hrest := ih (n / 128) (by omega)
        (by simpa only [List.length_cons, Nat.add_le_add_iff_right] using h)
      simp only [List.cons_append, decode, hbyte, hrest]
      rw [if_neg (by omega)]
      simp only [Option.some.injEq, Prod.mk.injEq, and_true]
      omega

/-- Reading takes at least one byte. -/
theorem decode_lt {width n : ℕ} {bytes rest : List UInt8}
    (h : decode width bytes = some (n, rest)) : rest.length < bytes.length := by
  induction width generalizing bytes n rest with
  | zero => cases h
  | succ width ih =>
    cases bytes with
    | nil => cases h
    | cons b bytes =>
      unfold decode at h
      split at h
      · cases h
        exact Nat.lt_succ_self _
      split at h
      · cases h
      · rename_i n' rest' hd
        cases h
        exact Nat.lt_succ_of_lt (ih hd)

/-- A byte for every seven bits. -/
theorem encode_length_le {n k : ℕ} (h : n < 128 ^ (k + 1)) : (encode n).length ≤ k + 1 := by
  induction k generalizing n with
  | zero =>
    unfold encode
    rw [if_pos (by simpa using h)]
    simp
  | succ k ih =>
    unfold encode
    split
    · simp
    · have hdiv : n / 128 < 128 ^ (k + 1) := by
        rw [Nat.div_lt_iff_lt_mul (by decide), ← Nat.pow_succ]
        exact h
      simpa only [List.length_cons, Nat.add_le_add_iff_right] using ih hdiv

end Varint

end MyCeph.Lib
