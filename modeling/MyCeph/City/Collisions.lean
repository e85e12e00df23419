import MyCeph.City.Reads
import MyCeph.Lib.Words

namespace MyCeph.City

open Lib

/-!
# Which strings collide

* `cityhash64_seeds` — seeds do not change which strings collide, and the first one of them can be
  chosen to give any hash.
-/

/-! ### The mixing functions -/

theorem rotate32_injective {shift : ℕ} (h : shift ≤ 32) :
    Function.Injective fun val => rotate32 val shift :=
  rotate_injective h

/-- `fmix` loses nothing: it shifts and multiplies by odd numbers. -/
theorem fmix_injective : Function.Injective fmix :=
  (xorShift_injective (by decide)).comp
    ((mul_injective 0x7ed1b41d (by decide)).comp
      ((xorShift_injective (by decide)).comp
        ((mul_injective 0xa5cb9243 (by decide)).comp (xorShift_injective (by decide)))))

theorem mur_last_injective : Function.Injective fun h : Word32 => h * 5 + 0xe6546b64 :=
  (add_left_injective _).comp (mul_injective 0xcccccccd (by decide))

/-- `mur`, of the state. -/
theorem mur_injective (a : Word32) : Function.Injective fun h => mur a h := by
  have hxor : Function.Injective fun h : Word32 => h ^^^ (rotate32 (a * c1) 17 * c2) :=
    fun _ _ => (BitVec.xor_left_inj _).mp
  exact mur_last_injective.comp ((rotate32_injective (by decide)).comp hxor)

/-- `mur`, of the word mixed in. -/
theorem mur_injective' (h : Word32) : Function.Injective fun a => mur a h := by
  have hfirst : Function.Injective fun a : Word32 => a * c1 :=
    mul_injective 0xdee13bb1 (by decide)
  have hsecond : Function.Injective fun a : Word32 => a * c2 :=
    mul_injective 0x56ed309b (by decide)
  have hxor : Function.Injective fun a : Word32 => h ^^^ a := fun _ _ => (BitVec.xor_right_inj h).mp
  have hrotate : ∀ shift ≤ 32, Function.Injective fun val => rotate32 val shift :=
    fun _ => rotate32_injective
  exact mur_last_injective.comp ((hrotate 19 (by decide)).comp
    (hxor.comp (hsecond.comp ((hrotate 17 (by decide)).comp hfirst))))

/-- `hash_16`, of its first argument. -/
theorem hash16_injective (v : Word64) : Function.Injective fun u => hash16 u v := by
  have hmul : Function.Injective fun x : Word64 => x * 0x9ddfea08eb382d69 :=
    mul_injective 0xdc56e6f5090b32d9 (by decide)
  have hshift : Function.Injective fun x : Word64 => x ^^^ (x >>> 47) :=
    xorShift_injective (by decide)
  have hleft : Function.Injective fun u : Word64 => u ^^^ v := fun _ _ => (BitVec.xor_left_inj v).mp
  have hright : Function.Injective fun a : Word64 => v ^^^ a :=
    fun _ _ => (BitVec.xor_right_inj v).mp
  exact hmul.comp (hshift.comp (hmul.comp (hright.comp (hshift.comp (hmul.comp hleft)))))

/-! ### Seeds -/

/-- With seeds the hash is mixed once more, and the string is not read again. -/
theorem cityhash64WithSeeds_result (s : ℤ) (len : ℕ) (seed0 seed1 : Word64) (string : List Byte) :
    (cityhash64WithSeeds s len seed0 seed1).result string
      = ((cityhash64 s len).result string).map fun hash => hash16 (hash - seed0) seed1 := by
  unfold cityhash64WithSeeds
  rw [Access.result_bind]
  cases (cityhash64 s len).result string <;> rfl

/-- **Seeds do not change which strings collide**: those hashes are equal that are without a seed.
    For every string and every second seed, each hash is that of exactly one first seed. -/
theorem cityhash64_seeds :
    (∀ (x y : List Byte) (seed0 seed1 : Word64),
      (cityhash64WithSeeds 0 x.length seed0 seed1).result x
          = (cityhash64WithSeeds 0 y.length seed0 seed1).result y ↔
        (cityhash64 0 x.length).result x = (cityhash64 0 y.length).result y) ∧
    (∀ (x y : List Byte) (seed : Word64),
      (cityhash64WithSeed 0 x.length seed).result x
          = (cityhash64WithSeed 0 y.length seed).result y ↔
        (cityhash64 0 x.length).result x = (cityhash64 0 y.length).result y) ∧
    ∀ (x : List Byte) (seed1 hash : Word64), x.length < 2 ^ 64 →
      ∃! seed0, (cityhash64WithSeeds 0 x.length seed0 seed1).result x = some hash := by
  have hcollide : ∀ (x y : List Byte) (seed0 seed1 : Word64),
      (cityhash64WithSeeds 0 x.length seed0 seed1).result x
          = (cityhash64WithSeeds 0 y.length seed0 seed1).result y ↔
        (cityhash64 0 x.length).result x = (cityhash64 0 y.length).result y := by
    intro x y seed0 seed1
    rw [cityhash64WithSeeds_result, cityhash64WithSeeds_result]
    -- Mixing the seeds in loses nothing of the hash without them.
    have hinj : Function.Injective fun hash => hash16 (hash - seed0) seed1 :=
      (hash16_injective seed1).comp (sub_left_injective)
    exact (Option.map_injective hinj).eq_iff
  refine ⟨hcollide, fun x y seed => hcollide x y k2 seed, ?_⟩
  intro x seed1 hash hlen
  -- The hash without seeds is there, and the first seed is subtracted from it.
  obtain ⟨own, hown, -⟩ :=
    (cityhash64_touches (le_refl 0) (by omega) hlen).exists_result (n := x.length) rfl
  have hinj : Function.Injective fun seed0 => hash16 (own - seed0) seed1 :=
    (hash16_injective seed1).comp (sub_right_injective)
  simp only [cityhash64WithSeeds_result, hown, Option.map_some, Option.some.injEq]
  exact existsUnique_of_injective hinj hash

/-- One first seed gives a string of five bytes the hash 0. -/
theorem cityhash64_seeds_five :
    let string : List Byte := [0x68, 0x65, 0x6c, 0x6c, 0x6f]
    ∃! seed0, (cityhash64WithSeeds 0 string.length seed0 7).result string = some 0 :=
  cityhash64_seeds.2.2 [0x68, 0x65, 0x6c, 0x6c, 0x6f] 7 0 (by decide)

end MyCeph.City
