import Mathlib.Data.Nat.Notation

namespace MyCeph.Crush

/-!
# The hash functions

Placement draws its randomness from `crush_hash32_2` and `crush_hash32_3`.  The
results about placement hold for every pair of such functions, a `CrushHash`;
`rjenkins` is the pair of `crush_hash.c`.
-/

/-- The two hash functions that placement calls, each with the hash type as its first
    argument. -/
structure CrushHash where
  crushHash32_2 : ℕ → UInt32 → UInt32 → UInt32
  crushHash32_3 : ℕ → UInt32 → UInt32 → UInt32 → UInt32

/-- `CRUSH_HASH_RJENKINS1`. -/
def crushHashRjenkins1 : ℕ := 0

/-- The `crush_hashmix` macro. -/
def crushHashmix (a b c : UInt32) : UInt32 × UInt32 × UInt32 :=
  let a := (a - b - c) ^^^ (c >>> 13)
  let b := (b - c - a) ^^^ (a <<< 8)
  let c := (c - a - b) ^^^ (b >>> 13)
  let a := (a - b - c) ^^^ (c >>> 12)
  let b := (b - c - a) ^^^ (a <<< 16)
  let c := (c - a - b) ^^^ (b >>> 5)
  let a := (a - b - c) ^^^ (c >>> 3)
  let b := (b - c - a) ^^^ (a <<< 10)
  let c := (c - a - b) ^^^ (b >>> 15)
  (a, b, c)

/-- `crush_hash_seed`. -/
def crushHashSeed : UInt32 := 1315423911

def crushHash32Rjenkins1_2 (a b : UInt32) : UInt32 :=
  let hash := crushHashSeed ^^^ a ^^^ b
  let (x, y) := ((231232 : UInt32), (1232 : UInt32))
  let (a, b, hash) := crushHashmix a b hash
  let (_, _, hash) := crushHashmix x a hash
  let (_, _, hash) := crushHashmix b y hash
  hash

def crushHash32Rjenkins1_3 (a b c : UInt32) : UInt32 :=
  let hash := crushHashSeed ^^^ a ^^^ b ^^^ c
  let (x, y) := ((231232 : UInt32), (1232 : UInt32))
  let (a, b, hash) := crushHashmix a b hash
  let (c, x, hash) := crushHashmix c x hash
  let (y, _, hash) := crushHashmix y a hash
  let (_, _, hash) := crushHashmix b x hash
  let (_, _, hash) := crushHashmix y c hash
  hash

/-- `crush_hash32_2` and `crush_hash32_3` of `crush_hash.c`: an unknown hash type
    gives 0. -/
def rjenkins : CrushHash where
  crushHash32_2 type a b := if type = crushHashRjenkins1 then crushHash32Rjenkins1_2 a b else 0
  crushHash32_3 type a b c :=
    if type = crushHashRjenkins1 then crushHash32Rjenkins1_3 a b c else 0

end MyCeph.Crush
