import MyCeph.City.Hash
import Mathlib.Data.Nat.Bitwise
import Mathlib.Tactic.IntervalCases

namespace MyCeph.City

open Lib

/-!
# What the hashes read

Many loads of `city_hash.c` are counted from the end of the string, or lie before the pointer that
has moved on.

* `cityhash_reads` — the three hashes end on every byte string, and read each of its bytes and
  nothing else.
-/

variable {n : ℕ} {s : ℤ} {len : ℕ}

/-! ### Loads -/

/-- An unaligned load reads its `k` bytes one after the other. -/
theorem uload_touches (k : ℕ) {p : ℤ} (h0 : 0 ≤ p) (hn : p + k ≤ n) :
    Touches n (uload k p) (Finset.Ico p (p + k)) fun _ => True := by
  induction k generalizing p with
  | zero =>
    apply Touches.congr (Touches.pure trivial)
    simp
  | succ k ih =>
    refine Touches.congr (Touches.bind (readAt_touches h0 (by omega)) fun b _ =>
      Touches.bind (ih (by omega) (by omega)) fun rest _ => Touches.pure trivial) fun i => ?_
    simp only [Finset.mem_union, Finset.mem_singleton, Finset.mem_Ico, Finset.notMem_empty,
      or_false]
    omega

section Bind

variable {α : Type} {p : ℤ} {T : Finset ℤ} {R : α → Prop}

/-- A computation that goes on with four bytes. -/
theorem fetch32_bind {f : Word32 → Access Byte α} (h0 : 0 ≤ p) (hn : p + 4 ≤ n)
    (hf : ∀ a, Touches n (f a) T R) :
    Touches n (fetch32 p >>= f) (Finset.Ico p (p + 4) ∪ T) R :=
  Touches.bind (uload_touches 4 h0 hn) fun a _ => hf a

theorem fetch64_bind {f : Word64 → Access Byte α} (h0 : 0 ≤ p) (hn : p + 8 ≤ n)
    (hf : ∀ a, Touches n (f a) T R) :
    Touches n (fetch64 p >>= f) (Finset.Ico p (p + 8) ∪ T) R :=
  Touches.bind (uload_touches 8 h0 hn) fun a _ => hf a

end Bind

/-! ### 32 bits -/

/-- The six words overlap, and cover the string from 13 bytes on. -/
theorem hash32_13To24_touches (h0 : 0 ≤ s) (hn : s + len ≤ n) (hlo : 13 ≤ len) (hhi : len ≤ 24) :
    Touches n (hash32_13To24 s len) (Finset.Ico s (s + len)) fun _ => True := by
  refine Touches.congr
    (fetch32_bind (by omega) (by omega) fun a => fetch32_bind (by omega) (by omega) fun b =>
      fetch32_bind (by omega) (by omega) fun c => fetch32_bind (by omega) (by omega) fun d =>
      fetch32_bind (by omega) (by omega) fun e => fetch32_bind (by omega) (by omega) fun f =>
      Touches.pure trivial) fun i => ?_
  simp only [Finset.mem_union, Finset.mem_Ico, Finset.notMem_empty, or_false]
  omega

/-- One pass of the loop over single bytes. -/
theorem bytePass_touches {st : Bytes} (h0 : 0 ≤ s) (hn : s + st.i < n) :
    Touches n (bytePass s st) {s + (st.i : ℤ)} fun st' => st'.i = st.i + 1 := by
  refine Touches.mono (Touches.bind (readAt_touches (by omega) hn) fun b _ => Touches.pure rfl)
    (Finset.union_empty _) fun _ h => h

theorem hash32_0To4_touches (h0 : 0 ≤ s) (hn : s + len ≤ n) :
    Touches n (hash32_0To4 s len) (Finset.Ico s (s + len)) fun _ => True := by
  have hloop : Touches n
      (whileDo (bytePass s) (fun st => st.i < len) len { i := 0, b := 0, c := 9 })
      (Finset.Ico (s + len - len) (s + len)) fun _ => True := by
    -- With `k` bytes to come, `len - k` have been read.
    refine (whileDo_touches (fun k (st : Bytes) => st.i + k = len) (fun k => {s + len - k})
      (fun k => Finset.Ico (s + len - k) (s + len)) ?_ (by simp) ?_ (by simp) (le_refl len)
      (by simp)).mono rfl fun _ _ => trivial
    · intro k
      ext i
      simp only [Finset.mem_union, Finset.mem_singleton, Finset.mem_Ico]
      omega
    · intro k st hI
      refine (bytePass_touches h0 (by omega)).mono ?_ ?_
      · rw [show s + (st.i : ℤ) = s + len - (k + 1 : ℕ) by omega]
      · intro st' hst'
        refine ⟨by omega, ?_⟩
        rw [decide_eq_true_eq]
        omega
  apply Touches.congr (Touches.bind hloop fun st _ => Touches.pure trivial)
  simp

/-- The third word of a short string begins at 0 or at 4. -/
theorem third_window {len : ℕ} (hlo : 5 ≤ len) (hhi : len ≤ 12) :
    (len >>> 1) &&& 4 = len / 8 * 4 := by
  interval_cases len <;> decide

/-- The three words overlap: the middle one starts where the length says. -/
theorem hash32_5To12_touches (h0 : 0 ≤ s) (hn : s + len ≤ n) (hlo : 5 ≤ len) (hhi : len ≤ 12) :
    Touches n (hash32_5To12 s len) (Finset.Ico s (s + len)) fun _ => True := by
  unfold hash32_5To12
  rw [third_window hlo hhi]
  refine Touches.congr
    (fetch32_bind (by omega) (by omega) fun a => fetch32_bind (by omega) (by omega) fun b =>
      fetch32_bind (by omega) (by omega) fun c => Touches.pure trivial) fun i => ?_
  simp only [Finset.mem_union, Finset.mem_Ico, Finset.notMem_empty, or_false]
  omega

/-- One pass reads the next twenty bytes. -/
theorem pass32_touches {st : State32} (h0 : 0 ≤ st.s) (hn : st.s + 20 ≤ n) :
    Touches n (pass32 st) (Finset.Ico st.s (st.s + 20)) fun st' =>
      st'.s = st.s + 20 ∧ st'.iters = st.iters - 1 := by
  refine Touches.congr
    (fetch32_bind (by omega) (by omega) fun a0 => fetch32_bind (by omega) (by omega) fun a1 =>
      fetch32_bind (by omega) (by omega) fun a2 => fetch32_bind (by omega) (by omega) fun a3 =>
      fetch32_bind (by omega) (by omega) fun a4 => Touches.pure ⟨rfl, rfl⟩) fun i => ?_
  simp only [Finset.mem_union, Finset.mem_Ico, Finset.notMem_empty, or_false]
  omega

/-- The passes go through the string in steps of twenty bytes. -/
theorem passes32_touches {st : State32} {fuel : ℕ} (h0 : 0 ≤ st.s) (hpos : 0 < st.iters)
    (hfuel : st.iters ≤ fuel) (hn : st.s + 20 * st.iters ≤ n) :
    Touches n (doWhile pass32 (fun st => st.iters ≠ 0) fuel st)
      (Finset.Ico st.s (st.s + 20 * st.iters)) fun _ => True := by
  refine (doWhile_chunks (fun k (st : State32) => 0 ≤ st.s ∧ st.iters = k ∧ st.s + 20 * k ≤ n)
    State32.s 20 ?_ hpos hfuel ⟨h0, rfl, hn⟩).mono rfl fun _ _ => trivial
  rintro k st ⟨hs, hiters, hend⟩
  push_cast at hend
  refine (pass32_touches hs (by omega)).mono rfl ?_
  rintro st' ⟨hs', hiters'⟩
  refine ⟨hs', ⟨by omega, by omega, by omega⟩, ?_⟩
  rw [decide_eq_true_eq]
  omega

/-- `cityhash32`, which for long strings begins with the last twenty bytes. -/
theorem cityhash32_touches (h0 : 0 ≤ s) (hn : s + len ≤ n) :
    Touches n (cityhash32 s len) (Finset.Ico s (s + len)) fun _ => True := by
  unfold cityhash32
  split_ifs with h24 h12 h4
  · exact hash32_0To4_touches h0 hn
  · exact hash32_5To12_touches h0 hn (by omega) h12
  · exact hash32_13To24_touches h0 hn (by omega) h24
  · -- The last twenty bytes, and then `(len - 1) / 20` passes from the front.
    have hloop : ∀ h g f, Touches n
        (doWhile pass32 (fun st => st.iters ≠ 0) len { h, g, f, s, iters := (len - 1) / 20 })
        (Finset.Ico s (s + 20 * ((len - 1) / 20 : ℕ))) fun _ => True :=
      fun h g f => passes32_touches h0 (by dsimp only; omega) (by dsimp only; omega)
        (by dsimp only; omega)
    refine Touches.congr
      (fetch32_bind (by omega) (by omega) fun a0 => fetch32_bind (by omega) (by omega) fun a1 =>
        fetch32_bind (by omega) (by omega) fun a2 => fetch32_bind (by omega) (by omega) fun a3 =>
        fetch32_bind (by omega) (by omega) fun a4 =>
        Touches.bind (hloop _ _ _) fun st _ => Touches.pure trivial) fun i => ?_
    simp only [Finset.mem_union, Finset.mem_Ico, Finset.notMem_empty, or_false]
    omega

/-! ### 64 bits -/

/-- Words from both ends, or for the shortest strings three single bytes. -/
theorem hash0To16_touches (h0 : 0 ≤ s) (hn : s + len ≤ n) (hhi : len ≤ 16) :
    Touches n (hash0To16 s len) (Finset.Ico s (s + len)) fun _ => True := by
  unfold hash0To16
  split_ifs with h8 h4 hpos
  · refine Touches.congr (fetch64_bind (by omega) (by omega) fun a =>
      fetch64_bind (by omega) (by omega) fun b => Touches.pure trivial) fun i => ?_
    simp only [Finset.mem_union, Finset.mem_Ico, Finset.notMem_empty, or_false]
    omega
  · refine Touches.congr (fetch32_bind (by omega) (by omega) fun a =>
      fetch32_bind (by omega) (by omega) fun b => Touches.pure trivial) fun i => ?_
    simp only [Finset.mem_union, Finset.mem_Ico, Finset.notMem_empty, or_false]
    omega
  · -- The first byte, the middle one and the last one.
    refine Touches.congr (Touches.bind (readAt_touches (by omega) (by omega)) fun a _ =>
      Touches.bind (readAt_touches (by omega) (by omega)) fun b _ =>
      Touches.bind (readAt_touches (by omega) (by omega)) fun c _ => Touches.pure trivial)
      fun i => ?_
    simp only [Finset.mem_union, Finset.mem_Ico, Finset.mem_singleton, Finset.notMem_empty,
      or_false]
    omega
  · refine Touches.congr (Touches.pure trivial) fun i => ?_
    simp only [Finset.mem_Ico, Finset.notMem_empty, false_iff]
    omega

/-- Two words from each end. -/
theorem hash17To32_touches (h0 : 0 ≤ s) (hn : s + len ≤ n) (hlo : 17 ≤ len) (hhi : len ≤ 32) :
    Touches n (hash17To32 s len) (Finset.Ico s (s + len)) fun _ => True := by
  refine Touches.congr
    (fetch64_bind (by omega) (by omega) fun a => fetch64_bind (by omega) (by omega) fun b =>
      fetch64_bind (by omega) (by omega) fun c => fetch64_bind (by omega) (by omega) fun d =>
      Touches.pure trivial) fun i => ?_
  simp only [Finset.mem_union, Finset.mem_Ico, Finset.notMem_empty, or_false]
  omega

/-- Four words from each end. -/
theorem hash33To64_touches (h0 : 0 ≤ s) (hn : s + len ≤ n) (hlo : 33 ≤ len) (hhi : len ≤ 64) :
    Touches n (hash33To64 s len) (Finset.Ico s (s + len)) fun _ => True := by
  refine Touches.congr
    (fetch64_bind (by omega) (by omega) fun a => fetch64_bind (by omega) (by omega) fun b =>
      fetch64_bind (by omega) (by omega) fun c => fetch64_bind (by omega) (by omega) fun d =>
      fetch64_bind (by omega) (by omega) fun e => fetch64_bind (by omega) (by omega) fun f =>
      fetch64_bind (by omega) (by omega) fun g => fetch64_bind (by omega) (by omega) fun h =>
      Touches.pure trivial) fun i => ?_
  simp only [Finset.mem_union, Finset.mem_Ico, Finset.notMem_empty, or_false]
  omega

/-- Four words in a row. -/
theorem weakHash32WithSeedsRaw_touches {a b : Word64} (h0 : 0 ≤ s) (hn : s + 32 ≤ n) :
    Touches n (weakHash32WithSeedsRaw s a b) (Finset.Ico s (s + 32)) fun _ => True := by
  refine Touches.congr
    (fetch64_bind (by omega) (by omega) fun w => fetch64_bind (by omega) (by omega) fun x =>
      fetch64_bind (by omega) (by omega) fun y => fetch64_bind (by omega) (by omega) fun z =>
      Touches.pure trivial) fun i => ?_
  simp only [Finset.mem_union, Finset.mem_Ico, Finset.notMem_empty, or_false]
  omega

theorem weakHash32WithSeedsRaw_bind {α : Type} {T : Finset ℤ} {R : α → Prop} {a b : Word64}
    {f : Uint128 → Access Byte α} (h0 : 0 ≤ s) (hn : s + 32 ≤ n) (hf : ∀ v, Touches n (f v) T R) :
    Touches n (weakHash32WithSeedsRaw s a b >>= f) (Finset.Ico s (s + 32) ∪ T) R :=
  Touches.bind (weakHash32WithSeedsRaw_touches h0 hn) fun v _ => hf v

/-- The part of a pass that the long hashes share reads 64 bytes. -/
theorem chunk_touches {st : State64} (h0 : 0 ≤ st.s) (hn : st.s + 64 ≤ n) :
    Touches n (chunk st) (Finset.Ico st.s (st.s + 64)) fun st' =>
      st'.s = st.s + 64 ∧ st'.len = st.len := by
  refine Touches.congr
    (fetch64_bind (by omega) (by omega) fun a => fetch64_bind (by omega) (by omega) fun b =>
      fetch64_bind (by omega) (by omega) fun c =>
      weakHash32WithSeedsRaw_bind (by omega) (by omega) fun v =>
      fetch64_bind (by omega) (by omega) fun d =>
      weakHash32WithSeedsRaw_bind (by omega) (by omega) fun w =>
      Touches.pure ⟨rfl, rfl⟩) fun i => ?_
  simp only [Finset.mem_union, Finset.mem_Ico, Finset.notMem_empty, or_false]
  omega

/-- `(len - 1) & ~63`, without the bits. -/
theorem roundDown_eq (hlen : len < 2 ^ 64) : roundDown len = (len - 1) / 64 * 64 := by
  have hmask : BitVec.ofNat 64 (len - 1) &&& ~~~63#64
      = (BitVec.ofNat 64 (len - 1) >>> 6) <<< 6 := by
    -- Bit by bit: both sides clear the six lowest ones.
    apply BitVec.eq_of_getLsbD_eq
    intro i hi
    have h63 : (63#64).getLsbD i = decide (i < 6) := by
      rw [BitVec.getLsbD_ofNat, show (63 : ℕ) = 2 ^ 6 - 1 by norm_num, Nat.testBit_two_pow_sub_one]
      simp [hi]
    rw [BitVec.getLsbD_and, BitVec.getLsbD_not, h63, BitVec.getLsbD_shiftLeft,
      BitVec.getLsbD_ushiftRight]
    by_cases hlow : i < 6
    · simp [hlow]
    · simp [hlow, hi, Nat.add_sub_cancel' (Nat.le_of_not_lt hlow)]
  unfold roundDown
  rw [hmask, BitVec.toNat_shiftLeft, BitVec.toNat_ushiftRight, BitVec.toNat_ofNat,
    Nat.shiftLeft_eq, Nat.shiftRight_eq_div_pow]
  omega

/-- The passes go through the string in steps of 64 bytes. -/
theorem passes64_touches {st : State64} {k fuel : ℕ} (h0 : 0 ≤ st.s) (hk : 0 < k)
    (hlen : st.len = k * 64) (hfuel : k ≤ fuel) (hn : st.s + st.len ≤ n) :
    Touches n (doWhile pass64 (fun st => st.len ≠ 0) fuel st)
      (Finset.Ico st.s (st.s + st.len)) fun _ => True := by
  -- `k` chunks are to come, and they are all that is left.
  refine (doWhile_chunks (fun k (st : State64) => 0 ≤ st.s ∧ st.len = k * 64 ∧ st.s + st.len ≤ n)
    State64.s 64 ?_ hk hfuel ⟨h0, hlen, hn⟩).mono ?_ fun _ _ => trivial
  · rintro k st ⟨hs, hk, hend⟩
    refine Touches.mono (Touches.bind (chunk_touches hs (by omega)) fun st' hst' =>
      Touches.pure ?_) (Finset.union_empty _) fun _ h => h
    obtain ⟨hs', hlen'⟩ := hst'
    refine ⟨hs', ⟨by dsimp only; omega, by dsimp only; omega, by dsimp only; omega⟩, ?_⟩
    rw [decide_eq_true_eq]
    dsimp only
    omega
  · rw [hlen]
    push_cast
    rw [mul_comm]

/-- `cityhash64`, which for long strings begins with the last 64 bytes. -/
theorem cityhash64_touches (h0 : 0 ≤ s) (hn : s + len ≤ n) (hlen : len < 2 ^ 64) :
    Touches n (cityhash64 s len) (Finset.Ico s (s + len)) fun _ => True := by
  unfold cityhash64
  split_ifs with h32 h16 h64
  · exact hash0To16_touches h0 hn h16
  · exact hash17To32_touches h0 hn (by omega) h32
  · exact hash33To64_touches h0 hn (by omega) h64
  · -- The passes stop short of the last bytes, which have been read before them.
    have hround := roundDown_eq hlen
    have hloop : ∀ x y z v w, Touches n
        (doWhile pass64 (fun st => st.len ≠ 0) len { x, y, z, v, w, s, len := roundDown len })
        (Finset.Ico s (s + roundDown len)) fun _ => True :=
      fun x y z v w => passes64_touches h0 (by omega) hround (by omega) (by dsimp only; omega)
    refine Touches.congr
      (fetch64_bind (by omega) (by omega) fun a => fetch64_bind (by omega) (by omega) fun b =>
        fetch64_bind (by omega) (by omega) fun c => fetch64_bind (by omega) (by omega) fun d =>
        fetch64_bind (by omega) (by omega) fun e =>
        weakHash32WithSeedsRaw_bind (by omega) (by omega) fun v =>
        weakHash32WithSeedsRaw_bind (by omega) (by omega) fun w =>
        fetch64_bind (by omega) (by omega) fun f =>
        Touches.bind (hloop _ _ _ _ _) fun st _ => Touches.pure trivial) fun i => ?_
    simp only [Finset.mem_union, Finset.mem_Ico, Finset.notMem_empty, or_false]
    omega

/-! ### 128 bits -/

/-- One pass reads two words. -/
theorem murmurPass_touches {st : Murmur} (h0 : 0 ≤ st.s) (hn : st.s + 16 ≤ n) :
    Touches n (murmurPass st) (Finset.Ico st.s (st.s + 16)) fun st' =>
      st'.s = st.s + 16 ∧ st'.l = st.l - 16 := by
  refine Touches.congr (fetch64_bind (by omega) (by omega) fun a =>
    fetch64_bind (by omega) (by omega) fun b => Touches.pure ⟨rfl, rfl⟩) fun i => ?_
  simp only [Finset.mem_union, Finset.mem_Ico, Finset.notMem_empty, or_false]
  omega

/-- The passes go through the string in steps of 16 bytes; `l` may end below zero. -/
theorem murmurPasses_touches {st : Murmur} {k fuel : ℕ} (h0 : 0 ≤ st.s) (hk : 0 < k)
    (hlo : 16 * (k : ℤ) < st.l + 16) (hhi : st.l ≤ 16 * k) (hfuel : k ≤ fuel)
    (hn : st.s + 16 * k ≤ n) :
    Touches n (doWhile murmurPass (fun st => 0 < st.l) fuel st)
      (Finset.Ico st.s (st.s + 16 * k)) fun _ => True := by
  refine (doWhile_chunks (fun k (st : Murmur) => 0 ≤ st.s ∧ st.s + 16 * (k : ℤ) ≤ n ∧
    16 * (k : ℤ) < st.l + 16 ∧ st.l ≤ 16 * k) Murmur.s 16 ?_ hk hfuel
    ⟨h0, hn, hlo, hhi⟩).mono rfl fun _ _ => trivial
  rintro k st ⟨hs, hend, hlo, hhi⟩
  push_cast at hend hlo hhi
  refine (murmurPass_touches hs (by omega)).mono rfl ?_
  rintro st' ⟨hs', hl'⟩
  refine ⟨hs', ⟨by omega, by omega, by omega, by omega⟩, ?_⟩
  rw [decide_eq_true_eq]
  omega

/-- `city_murmur`: of a long string the last 16 bytes are left to the passes as well. -/
theorem cityMurmur_touches {seed : Uint128} (h0 : 0 ≤ s) (hn : s + len ≤ n) (hlen : len < 2 ^ 63) :
    Touches n (cityMurmur s len seed) (Finset.Ico s (s + len)) fun _ => True := by
  -- `l` is signed, and the subtraction does not wrap.
  have hl : Int.bmod ((len : ℤ) - 16) (2 ^ 64) = len - 16 :=
    Int.bmod_eq_of_le (by omega) (by omega)
  unfold cityMurmur
  dsimp only
  rw [hl]
  split_ifs with h16 h8
  · refine Touches.congr (Touches.bind (hash0To16_touches h0 hn (by omega)) fun c _ =>
      fetch64_bind (by omega) (by omega) fun a => Touches.pure trivial) fun i => ?_
    simp only [Finset.mem_union, Finset.mem_Ico, Finset.notMem_empty, or_false]
    omega
  · refine Touches.mono (Touches.bind (hash0To16_touches h0 hn (by omega)) fun c _ =>
      Touches.pure trivial) (Finset.union_empty _) fun _ h => h
  · -- Two words from the end, and passes of 16 bytes from the front.
    have hloop : ∀ a b c d, Touches n
        (doWhile murmurPass (fun st => 0 < st.l) len { a, b, c, d, s, l := (len : ℤ) - 16 })
        (Finset.Ico s (s + 16 * ((len - 1) / 16 : ℕ))) fun _ => True :=
      fun a b c d => murmurPasses_touches h0 (by omega) (by dsimp only; omega)
        (by dsimp only; omega) (by omega) (by dsimp only; omega)
    refine Touches.congr
      (fetch64_bind (by omega) (by omega) fun a => fetch64_bind (by omega) (by omega) fun b =>
        Touches.bind (hloop _ _ _ _) fun st _ => Touches.pure trivial) fun i => ?_
    simp only [Finset.mem_union, Finset.mem_Ico, Finset.notMem_empty, or_false]
    omega

/-- One pass is the shared part twice. -/
theorem pass128_touches {st : State64} (h0 : 0 ≤ st.s) (hn : st.s + 128 ≤ n) :
    Touches n (pass128 st) (Finset.Ico st.s (st.s + 128)) fun st' =>
      st'.s = st.s + 128 ∧ st'.len = st.len - 128 := by
  -- The second half starts where the first one has stopped.
  have hsecond : ∀ st' : State64, st'.s = st.s + 64 ∧ st'.len = st.len →
      Touches n (chunk st') (Finset.Ico (st.s + 64) (st.s + 128)) fun st'' =>
        st''.s = st.s + 128 ∧ st''.len = st.len := by
    rintro st' ⟨hs', hlen'⟩
    refine (chunk_touches (by omega) (by omega)).mono ?_ ?_
    · congr 1
      omega
    · rintro st'' ⟨hs'', hlen''⟩
      exact ⟨by omega, by omega⟩
  unfold pass128
  refine Touches.mono (Touches.bind (chunk_touches h0 (by omega)) fun st' hst' =>
    Touches.bind (hsecond st' hst') fun st'' hst'' => Touches.pure ⟨hst''.1, ?_⟩) ?_ fun _ h => h
  · ext i
    simp only [Finset.mem_union, Finset.mem_Ico, Finset.notMem_empty, or_false]
    omega
  · dsimp only
    rw [hst''.2]

/-- The pairs of chunks; `r` bytes are left over. -/
theorem passes128_touches {st : State64} {k r fuel : ℕ} (h0 : 0 ≤ st.s) (hk : 0 < k)
    (hlen : st.len = k * 128 + r) (hr : r < 128) (hfuel : k ≤ fuel) (hn : st.s + st.len ≤ n) :
    Touches n (doWhile pass128 (fun st => 128 ≤ st.len) fuel st)
      (Finset.Ico st.s (st.s + 128 * k)) fun st' => st'.s = st.s + 128 * k ∧ st'.len = r := by
  refine (doWhile_chunks (fun k (st : State64) => 0 ≤ st.s ∧ st.len = k * 128 + r ∧
    st.s + st.len ≤ n) State64.s 128 ?_ hk hfuel ⟨h0, hlen, hn⟩).mono rfl ?_
  · rintro k st ⟨hs, hlen, hend⟩
    refine (pass128_touches hs (by omega)).mono rfl ?_
    rintro st' ⟨hs', hlen'⟩
    refine ⟨hs', ⟨by omega, by omega, by omega⟩, ?_⟩
    rw [decide_eq_true_eq]
    omega
  · rintro st' ⟨hs', -, hlen', -⟩
    exact ⟨hs', by omega⟩

/-- Stated for all words, which the kernel would otherwise compare with those before the pass. -/
theorem tail_fields (x y z : Word64) (v w : Uint128) (s : ℤ) (len tailDone : ℕ) :
    (Tail.mk { x, y, z, v, w, s, len } tailDone).s = s ∧
      (Tail.mk { x, y, z, v, w, s, len } tailDone).len = len ∧
      (Tail.mk { x, y, z, v, w, s, len } tailDone).tailDone = tailDone :=
  ⟨rfl, rfl, rfl⟩

/-- One pass hashes 32 bytes, counted from the end. -/
theorem tailPass_touches {st : Tail} {p : ℤ} (h0 : 0 ≤ p) (hn : p + 32 ≤ n)
    (hp : st.s + st.len = p + st.tailDone + 32) :
    Touches n (tailPass st) (Finset.Ico p (p + 32)) fun st' =>
      st'.s = st.s ∧ st'.len = st.len ∧ st'.tailDone = st.tailDone + 32 := by
  refine Touches.congr
    (fetch64_bind (by omega) (by omega) fun a => fetch64_bind (by omega) (by omega) fun b =>
      weakHash32WithSeedsRaw_bind (by omega) (by omega) fun v =>
      Touches.pure (tail_fields _ _ _ _ _ _ _ _)) fun i => ?_
  simp only [Finset.mem_union, Finset.mem_Ico, Finset.notMem_empty, or_false]
  omega

/-- The chunks at the end are taken backwards from it, the last one of them from before the
    pointer. -/
theorem tailPasses_touches {st : Tail} {k fuel : ℕ} {p : ℤ} (h0 : 0 ≤ p) (hk : st.len ≤ 32 * k)
    (hk' : 32 * k < st.len + 32) (hdone : st.tailDone = 0) (hp : st.s + st.len = p + 32 * k)
    (hfuel : k ≤ fuel) (hn : st.s + st.len ≤ n) :
    Touches n (whileDo tailPass (fun st => st.tailDone < st.len) fuel st)
      (Finset.Ico p (p + 32 * k)) fun _ => True := by
  -- The passes go backwards: with `k` of them to come, the first `32 * k` bytes are left.
  refine (whileDo_touches (fun k (st : Tail) => st.s + st.len = p + 32 * k + st.tailDone ∧
      st.len ≤ 32 * k + st.tailDone ∧ 32 * k + st.tailDone < st.len + 32 ∧ st.s + st.len ≤ n)
    (fun k => Finset.Ico (p + 32 * k - 32) (p + 32 * k)) (fun k => Finset.Ico p (p + 32 * k))
    ?_ (by simp) ?_ ?_ hfuel ⟨by omega, by omega, by omega, hn⟩).mono rfl fun _ _ => trivial
  · intro k
    ext i
    simp only [Finset.mem_union, Finset.mem_Ico]
    omega
  · rintro k st ⟨hp, hlo, hhi, hend⟩
    push_cast at hp
    refine (tailPass_touches (p := p + 32 * k) (by omega) (by omega) (by omega)).mono ?_ ?_
    · congr 1
      · push_cast
        omega
      · push_cast
        omega
    · rintro st' ⟨hs', hlen', hdone'⟩
      refine ⟨⟨by omega, by omega, by omega, by omega⟩, ?_⟩
      rw [decide_eq_true_eq]
      omega
  · rw [decide_eq_true_eq]
    omega

/-- `cityhash128_with_seed`: the passes from the front, then the tail from the back. -/
theorem cityhash128WithSeed_touches {seed : Uint128} (h0 : 0 ≤ s) (hn : s + len ≤ n) :
    Touches n (cityhash128WithSeed s len seed) (Finset.Ico s (s + len)) fun _ => True := by
  unfold cityhash128WithSeed
  split_ifs with h128
  · exact cityMurmur_touches h0 hn (by omega)
  · have hloop : ∀ x y z v w, Touches n
        (doWhile pass128 (fun st => 128 ≤ st.len) len { x, y, z, v, w, s, len })
        (Finset.Ico s (s + 128 * (len / 128 : ℕ)))
        fun st' => st'.s = s + 128 * (len / 128 : ℕ) ∧ st'.len = len % 128 :=
      fun x y z v w => passes128_touches h0 (by omega) (by dsimp only; omega) (by omega) (by omega)
        hn
    -- The chunks at the end, of which the last may begin before the 128 bytes read last.
    have htail : ∀ x y z v w (st : State64),
        st.s = s + 128 * (len / 128 : ℕ) ∧ st.len = len % 128 → Touches n
          (whileDo tailPass (fun st => st.tailDone < st.len) len
            { x, y, z, v, w, s := st.s, len := st.len, tailDone := 0 })
          (Finset.Ico (s + len - 32 * ((len % 128 + 31) / 32 : ℕ))
            (s + len - 32 * ((len % 128 + 31) / 32 : ℕ) + 32 * ((len % 128 + 31) / 32 : ℕ)))
          fun _ => True := by
      rintro x y z v w st ⟨hs, hlen⟩
      exact tailPasses_touches (by omega) (by dsimp only; omega) (by dsimp only; omega) rfl
        (by dsimp only; omega) (by omega) (by dsimp only; omega)
    refine Touches.congr
      (fetch64_bind (by omega) (by omega) fun a => fetch64_bind (by omega) (by omega) fun b =>
        fetch64_bind (by omega) (by omega) fun c =>
        Touches.bind (hloop _ _ _ _ _) fun st hst =>
        Touches.bind (htail _ _ _ _ _ st hst) fun st' _ => Touches.pure trivial) fun i => ?_
    simp only [Finset.mem_union, Finset.mem_Ico, Finset.notMem_empty, or_false]
    omega

/-- `cityhash128`, which takes its seed from the first 16 bytes. -/
theorem cityhash128_touches (h0 : 0 ≤ s) (hn : s + len ≤ n) :
    Touches n (cityhash128 s len) (Finset.Ico s (s + len)) fun _ => True := by
  unfold cityhash128
  split_ifs with h16
  · refine Touches.congr
      (fetch64_bind (by omega) (by omega) fun a => fetch64_bind (by omega) (by omega) fun b =>
        cityhash128WithSeed_touches (by omega) (by omega)) fun i => ?_
    simp only [Finset.mem_union, Finset.mem_Ico]
    omega
  · exact cityhash128WithSeed_touches h0 hn

/-! ### All of the string, and nothing else -/

/-- **The hashes read the string.**  On every byte string that has a `size_t` for a length, each
    hash ends, and the bytes it has read are those of the string: none is left out, and none outside
    of it is touched. -/
theorem cityhash_reads (string : List Byte) (hlen : string.length < 2 ^ 64) :
    (∃ hash, cityhash32 0 string.length string = some (hash, Finset.Ico 0 (string.length : ℤ))) ∧
    (∃ hash, cityhash64 0 string.length string = some (hash, Finset.Ico 0 (string.length : ℤ))) ∧
    (∃ hash, cityhash128 0 string.length string
      = some (hash, Finset.Ico 0 (string.length : ℤ))) ∧
    ∀ seed, ∃ hash, cityhash128WithSeed 0 string.length seed string
      = some (hash, Finset.Ico 0 (string.length : ℤ)) := by
  have hreads : ∀ {α : Type} {m : Access Byte α},
      Touches string.length m (Finset.Ico 0 (0 + (string.length : ℤ))) (fun _ => True) →
        ∃ hash, m string = some (hash, Finset.Ico 0 (string.length : ℤ)) := by
    intro α m htouches
    obtain ⟨hash, heq, -⟩ := htouches string rfl
    rw [zero_add] at heq
    exact ⟨hash, heq⟩
  exact ⟨hreads (cityhash32_touches (le_refl 0) (by omega)),
    hreads (cityhash64_touches (le_refl 0) (by omega) hlen),
    hreads (cityhash128_touches (le_refl 0) (by omega)),
    fun seed => hreads (cityhash128WithSeed_touches (le_refl 0) (by omega))⟩

/-- Three hundred equal bytes, which all the main loops go over more than once. -/
theorem cityhash_reads_long :
    let string : List Byte := List.replicate 300 7
    (∃ hash, cityhash32 0 string.length string = some (hash, Finset.Ico 0 (string.length : ℤ))) ∧
    (∃ hash, cityhash64 0 string.length string = some (hash, Finset.Ico 0 (string.length : ℤ))) ∧
    (∃ hash, cityhash128 0 string.length string
      = some (hash, Finset.Ico 0 (string.length : ℤ))) ∧
    ∀ seed, ∃ hash, cityhash128WithSeed 0 string.length seed string
      = some (hash, Finset.Ico 0 (string.length : ℤ)) :=
  cityhash_reads (List.replicate 300 7) (by rw [List.length_replicate]; decide)

end MyCeph.City
