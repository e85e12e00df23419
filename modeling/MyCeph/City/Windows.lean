import MyCeph.City.Collisions

namespace MyCeph.City

open Lib

/-!
# The words of short strings

The 32-bit hash of a string of 5 to 24 bytes mixes a few words into its length, which overlap when
the string is shorter than they are together.

* `word32_inj`, `windows_cover` — the words read tell apart the strings;
* `cityhash32_one_window` — two strings that differ in one of the words do not collide.
-/

/-- The same four bytes from `p` on. -/
def SameAt (x y : List Byte) (p : ℤ) : Prop := ∀ i : ℕ, p ≤ i → (i : ℤ) < p + 4 → x[i]? = y[i]?

/-- Where the words begin that the hash of a string of 5 to 24 bytes is made of, in the order in
    which they are mixed in. -/
def windows (len : ℕ) : List ℤ :=
  if len ≤ 12 then [0, 0 + len - 4, 0 + ↑((len >>> 1) &&& 4)]
  else [0 - 4 + ↑(len >>> 1), 0 + 4, 0 + len - 8, 0 + ↑(len >>> 1), 0, 0 + len - 4]

/-- The words there. -/
def word32 (string : List Byte) (p : ℤ) : Word32 := ((fetch32 p).result string).getD 0

/-- A load tells apart what it has read. -/
theorem uload_result_inj (k : ℕ) {x y : List Byte} {p : ℤ} (h0 : 0 ≤ p)
    (hx : p + k ≤ x.length) (hy : p + k ≤ y.length) :
    (uload k p).result x = (uload k p).result y ↔
      ∀ i : ℕ, p ≤ i → (i : ℤ) < p + k → x[i]? = y[i]? := by
  induction k generalizing p with
  | zero =>
    constructor
    · intro _ i hi hi'
      omega
    · intro _
      rfl
  | succ k ih =>
    -- The first byte is the low one, and the others are loaded from the next place on.
    have hrest := ih (p := p + 1) (by omega) (by omega) (by omega)
    obtain ⟨r, hr, -⟩ := (uload_touches k (p := p + 1) (by omega) (by omega)).exists_result
      (n := x.length) rfl
    obtain ⟨r', hr', -⟩ := (uload_touches k (p := p + 1) (by omega) (by omega)).exists_result
      (n := y.length) rfl
    have hxb : x[p.toNat]? = some x[p.toNat] := List.getElem?_eq_getElem (by omega)
    have hyb : y[p.toNat]? = some y[p.toNat] := List.getElem?_eq_getElem (by omega)
    unfold uload
    simp only [Access.result_bind, Access.result_pure, readAt_result h0, hxb, hyb, hr, hr',
      Option.bind_some, Option.some.injEq] at hrest ⊢
    refine append_inj.trans ?_
    rw [hrest]
    constructor
    · rintro ⟨hrest, hbyte⟩ i hi hi'
      by_cases hp : p = i
      · rw [show i = p.toNat by omega, hxb, hyb, hbyte]
      · exact hrest i (by omega) (by push_cast at hi'; omega)
    · intro hsame
      refine ⟨fun i hi hi' => hsame i (by omega) (by push_cast; omega), ?_⟩
      have := hsame p.toNat (by omega) (by omega)
      rwa [hxb, hyb, Option.some.injEq] at this

/-- A load inside the string gives the word that stands there. -/
theorem fetch32_result {string : List Byte} {p : ℤ} (h0 : 0 ≤ p) (hn : p + 4 ≤ string.length) :
    (fetch32 p).result string = some (word32 string p) := by
  obtain ⟨a, ha, -⟩ := (uload_touches 4 h0 hn).exists_result (n := string.length) rfl
  change (fetch32 p).result string = some a at ha
  unfold word32
  rw [ha, Option.getD_some]

/-- A word determines its four bytes. -/
theorem word32_inj {x y : List Byte} {p : ℤ} (h0 : 0 ≤ p) (hx : p + 4 ≤ x.length)
    (hy : p + 4 ≤ y.length) : word32 x p = word32 y p ↔ SameAt x y p := by
  have hload : (fetch32 p).result x = (fetch32 p).result y ↔ SameAt x y p :=
    uload_result_inj 4 h0 hx hy
  rwa [fetch32_result h0 hx, fetch32_result h0 hy, Option.some.injEq] at hload

/-- The hash mixes the words of the windows, one after the other, into the length. -/
theorem hash32_13To24_result {string : List Byte} {len : ℕ} (hlen : string.length = len)
    (hlo : 13 ≤ len) :
    (hash32_13To24 0 len).result string
      = some (fmix (((windows len).map (word32 string)).foldl (fun h a => mur a h)
        (BitVec.ofNat 32 len))) := by
  unfold hash32_13To24 windows
  rw [if_neg (by omega)]
  simp only [Access.result_bind]
  rw [fetch32_result (by omega) (by omega), Option.bind_some,
    fetch32_result (by omega) (by omega), Option.bind_some,
    fetch32_result (by omega) (by omega), Option.bind_some,
    fetch32_result (by omega) (by omega), Option.bind_some,
    fetch32_result (by omega) (by omega), Option.bind_some,
    fetch32_result (by omega) (by omega), Option.bind_some]
  rfl

/-- The same of the three windows, each with its own constant added. -/
theorem hash32_5To12_result {string : List Byte} {len : ℕ} (hlen : string.length = len)
    (hlo : 5 ≤ len) (hhi : len ≤ 12) :
    (hash32_5To12 0 len).result string
      = some (fmix ((List.zipWith (· + ·) [BitVec.ofNat 32 len, BitVec.ofNat 32 (len * 5), 9]
        ((windows len).map (word32 string))).foldl (fun h a => mur a h)
        (BitVec.ofNat 32 (len * 5)))) := by
  have hthird := third_window hlo hhi
  unfold hash32_5To12 windows
  rw [if_pos hhi]
  simp only [Access.result_bind]
  rw [fetch32_result (by omega) (by omega), Option.bind_some,
    fetch32_result (by omega) (by omega), Option.bind_some,
    fetch32_result (by omega) (by omega), Option.bind_some]
  rfl

/-- No window goes beyond the string. -/
theorem windows_inside {len : ℕ} (hlo : 5 ≤ len) (hhi : len ≤ 24) {p : ℤ} (hp : p ∈ windows len) :
    0 ≤ p ∧ p + 4 ≤ len := by
  unfold windows at hp
  split_ifs at hp with h12
  · have hthird := third_window hlo h12
    simp only [List.mem_cons, List.not_mem_nil, or_false] at hp
    omega
  · have hhalf : len >>> 1 = len / 2 := Nat.shiftRight_eq_div_pow len 1
    simp only [List.mem_cons, List.not_mem_nil, or_false] at hp
    omega

/-- Every byte is in one of them. -/
theorem windows_cover {len : ℕ} (hlo : 5 ≤ len) (hhi : len ≤ 24) {i : ℕ} (hi : i < len) :
    ∃ p ∈ windows len, p ≤ i ∧ (i : ℤ) < p + 4 := by
  unfold windows
  split_ifs with h12
  · have hthird := third_window hlo h12
    simp only [List.mem_cons, List.not_mem_nil, or_false, exists_eq_or_imp, exists_eq_left]
    omega
  · have hhalf : len >>> 1 = len / 2 := Nat.shiftRight_eq_div_pow len 1
    simp only [List.mem_cons, List.not_mem_nil, or_false, exists_eq_or_imp, exists_eq_left]
    omega

section OneWindow

variable {x y : List Byte} {len j : ℕ} (hx : x.length = len) (hy : y.length = len) (hlo : 5 ≤ len)
  (hhi : len ≤ 24)
include hx hy hlo hhi

/-- The windows cover the string: their words determine it. -/
theorem eq_of_words_eq (h : (windows len).map (word32 x) = (windows len).map (word32 y)) :
    x = y := by
  apply List.ext_getElem?
  intro i
  rcases Nat.lt_or_ge i len with hi | hi
  · obtain ⟨p, hp, hpi, hip⟩ := windows_cover hlo hhi hi
    obtain ⟨h0, hn⟩ := windows_inside hlo hhi hp
    exact (word32_inj h0 (by omega) (by omega)).mp (List.map_inj_left.mp h p hp) i hpi hip
  · rw [List.getElem?_eq_none (by omega), List.getElem?_eq_none (by omega)]

/-- A window in which two strings agree has the same word in both. -/
theorem words_getElem? {i : ℕ} (h : ∀ p ∈ (windows len)[i]?, SameAt x y p) :
    ((windows len).map (word32 x))[i]? = ((windows len).map (word32 y))[i]? := by
  rw [List.getElem?_map, List.getElem?_map]
  cases hp : (windows len)[i]? with
  | none => rfl
  | some p =>
    obtain ⟨h0, hn⟩ := windows_inside hlo hhi (List.mem_of_getElem? hp)
    rw [Option.map_some, Option.map_some,
      (word32_inj h0 (by omega) (by omega)).mpr (h p (Option.mem_def.mpr hp))]

end OneWindow

/-- **One word cannot be exchanged.**  Two strings of one length from 5 to 24 that differ in one of
    the words at most that the hash is made of have the same 32-bit hash only if they are equal. -/
theorem cityhash32_one_window {x y : List Byte} {len j : ℕ} (hx : x.length = len)
    (hy : y.length = len) (hlo : 5 ≤ len) (hhi : len ≤ 24)
    (hj : ∀ i, i ≠ j → ∀ p ∈ (windows len)[i]?, SameAt x y p) :
    (cityhash32 0 len).result x = (cityhash32 0 len).result y ↔ x = y := by
  -- But for window `j` the words are the same, so one step of the fold differs.
  have hwords : ∀ i, i ≠ j →
      ((windows len).map (word32 x))[i]? = ((windows len).map (word32 y))[i]? :=
    fun i hi => words_getElem? hx hy hlo hhi (hj i hi)
  constructor
  · intro hhash
    apply eq_of_words_eq hx hy hlo hhi
    unfold cityhash32 at hhash
    rw [if_pos hhi] at hhash
    split_ifs at hhash with h12 h4
    · omega
    · rw [hash32_5To12_result hx hlo h12, hash32_5To12_result hy hlo h12] at hhash
      have hlist := foldl_one_changed (j := j) mur_injective (fun h => mur_injective' h)
        (by simp) ?_ (fmix_injective (Option.some.inj hhash))
      · simpa [windows, h12] using hlist
      · intro i hi
        rw [List.getElem?_zipWith, List.getElem?_zipWith, hwords i hi]
    · rw [hash32_13To24_result hx (by omega), hash32_13To24_result hy (by omega)] at hhash
      exact foldl_one_changed mur_injective (fun h => mur_injective' h) (by simp) hwords
        (fmix_injective (Option.some.inj hhash))
  · rintro rfl
    rfl

/-- Two strings of five bytes, of which the last one is in the second word only. -/
theorem cityhash32_one_window_last :
    ¬ (cityhash32 0 5).result [0x68, 0x65, 0x6c, 0x6c, 0x6f]
      = (cityhash32 0 5).result [0x68, 0x65, 0x6c, 0x6c, 0x70] := by
  have hsame : SameAt [0x68, 0x65, 0x6c, 0x6c, 0x6f] [0x68, 0x65, 0x6c, 0x6c, 0x70] 0 := by
    intro i _ hi
    have hlt : i < 4 := by omega
    interval_cases i <;> rfl
  intro hhash
  have hothers : ∀ i, i ≠ 1 → ∀ p ∈ (windows 5)[i]?,
      SameAt [0x68, 0x65, 0x6c, 0x6c, 0x6f] [0x68, 0x65, 0x6c, 0x6c, 0x70] p := by
    intro i hi p hp
    match i with
    | 0 => cases hp; exact hsame
    | 1 => exact absurd rfl hi
    | 2 => cases hp; exact hsame
    | i + 3 => cases hp
  have hlen : ([0x68, 0x65, 0x6c, 0x6c, 0x6f] : List Byte).length = 5 := rfl
  have hlen' : ([0x68, 0x65, 0x6c, 0x6c, 0x70] : List Byte).length = 5 := rfl
  have heq := (cityhash32_one_window hlen hlen' (by decide) (by decide) hothers).mp hhash
  exact absurd heq (by decide)

end MyCeph.City
