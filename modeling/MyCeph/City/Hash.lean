import MyCeph.Lib.Memory
import Mathlib.Data.BitVec

namespace MyCeph.City

open Lib

/-!
# City hash

`city_hash.c`: 32, 64 and 128 bits of hash of a byte string, as compiled for a little-endian machine
with `LITTLE_ENDIAN`.  Words are bit vectors.  A pointer is the offset from the start of the string,
and every load goes through `readAt`, which stops when it is outside of the string.  `size_t` values
are natural numbers, where no subtraction goes below 0.
-/

abbrev Byte := BitVec 8

/-- `uint32_t`. -/
abbrev Word32 := BitVec 32

/-- `uint64_t`. -/
abbrev Word64 := BitVec 64

/-- `uint128_t`. -/
structure Uint128 where
  a : Word64
  b : Word64
deriving DecidableEq

def k0 : Word64 := 0xc3a5c85c97cb3127
def k1 : Word64 := 0xb492b66fbe98f273
def k2 : Word64 := 0x9ae16a3b2f90404f

def c1 : Word32 := 0xcc9e2d51
def c2 : Word32 := 0x1b873593

/-! ### Loads and words -/

/-- `k` bytes from `p` on, the lowest one first. -/
def uload : (k : ℕ) → ℤ → Access Byte (BitVec (8 * k))
  | 0, _ => pure 0#0
  | k + 1, p => do
    let b ← readAt p
    let rest ← uload k (p + 1)
    pure (rest ++ b)

def fetch64 (p : ℤ) : Access Byte Word64 := uload 8 p

def fetch32 (p : ℤ) : Access Byte Word32 := uload 4 p

/-- `bswap32` and `bswap64`: pass `i` changes byte `i` with the one opposite. -/
def bswap (k : ℕ) (x : BitVec (8 * k)) : BitVec (8 * k) :=
  (List.range (k >>> 1)).foldl (fun y i =>
    let d := k - i - 1
    let mh := BitVec.ofNat (8 * k) 0xff <<< (d <<< 3)
    let ml := BitVec.ofNat (8 * k) 0xff <<< (i <<< 3)
    let h := x &&& mh
    let l := x &&& ml
    let t := (l <<< ((d - i) <<< 3)) ||| (h >>> ((d - i) <<< 3))
    t ||| (y &&& ~~~(mh ||| ml))) x

def bswap32 (x : Word32) : Word32 := bswap 4 x

def bswap64 (x : Word64) : Word64 := bswap 8 x

/-- `rotate32` and `rotate64`. -/
def rotate {w : ℕ} (val : BitVec w) (shift : ℕ) : BitVec w :=
  (val >>> shift) ||| (val <<< (w - shift))

def rotate32 (val : Word32) (shift : ℕ) : Word32 := rotate val shift

def rotate64 (val : Word64) (shift : ℕ) : Word64 := rotate val shift

/-! ### 32 bits -/

def fmix (h : Word32) : Word32 :=
  let h := h ^^^ (h >>> 16)
  let h := h * 0x85ebca6b
  let h := h ^^^ (h >>> 13)
  let h := h * 0xc2b2ae35
  h ^^^ (h >>> 16)

def mur (a h : Word32) : Word32 :=
  let a := a * c1
  let a := rotate32 a 17
  let a := a * c2
  let h := h ^^^ a
  let h := rotate32 h 19
  h * 5 + 0xe6546b64

def hash32_13To24 (s : ℤ) (len : ℕ) : Access Byte Word32 := do
  let a ← fetch32 (s - 4 + ↑(len >>> 1))
  let b ← fetch32 (s + 4)
  let c ← fetch32 (s + len - 8)
  let d ← fetch32 (s + ↑(len >>> 1))
  let e ← fetch32 s
  let f ← fetch32 (s + len - 4)
  let h := BitVec.ofNat 32 len
  pure (fmix (mur f (mur e (mur d (mur c (mur b (mur a h)))))))

/-- The loop of `hash32_0_to_4`: the next index, `b` and `c`. -/
structure Bytes where
  i : ℕ
  b : Word32
  c : Word32

def bytePass (s : ℤ) (st : Bytes) : Access Byte Bytes := do
  let v := (← readAt (s + st.i)).signExtend 32
  let b := st.b * c1 + v
  pure { i := st.i + 1, b, c := st.c ^^^ b }

def hash32_0To4 (s : ℤ) (len : ℕ) : Access Byte Word32 := do
  let st ← whileDo (bytePass s) (fun st => st.i < len) len { i := 0, b := 0, c := 9 }
  pure (fmix (mur st.b (mur (BitVec.ofNat 32 len) st.c)))

def hash32_5To12 (s : ℤ) (len : ℕ) : Access Byte Word32 := do
  let a := BitVec.ofNat 32 len
  let b := BitVec.ofNat 32 (len * 5)
  let c := 9
  let d := b
  let a := a + (← fetch32 s)
  let b := b + (← fetch32 (s + len - 4))
  let c := c + (← fetch32 (s + ↑((len >>> 1) &&& 4)))
  pure (fmix (mur c (mur b (mur a d))))

/-- What `cityhash32` keeps in its loop. -/
structure State32 where
  h : Word32
  g : Word32
  f : Word32
  s : ℤ
  iters : ℕ

/-- One pass of the loop of `cityhash32`. -/
def pass32 (st : State32) : Access Byte State32 := do
  let a0 := rotate32 ((← fetch32 st.s) * c1) 17 * c2
  let a1 ← fetch32 (st.s + 4)
  let a2 := rotate32 ((← fetch32 (st.s + 8)) * c1) 17 * c2
  let a3 := rotate32 ((← fetch32 (st.s + 12)) * c1) 17 * c2
  let a4 ← fetch32 (st.s + 16)
  let h := rotate32 (st.h ^^^ a0) 18
  let h := h * 5 + 0xe6546b64
  let f := rotate32 (st.f + a1) 19
  let f := f * c1
  let g := rotate32 (st.g + a2) 18
  let g := g * 5 + 0xe6546b64
  let h := rotate32 (h ^^^ (a3 + a1)) 19
  let h := h * 5 + 0xe6546b64
  let g := bswap32 (g ^^^ a4) * 5
  let h := bswap32 (h + a4 * 5)
  let f := f + a0
  -- `PERMUTE3_32(&f, &h, &g)`.
  pure { f := g, h := f, g := h, s := st.s + 20, iters := st.iters - 1 }

def cityhash32 (s : ℤ) (len : ℕ) : Access Byte Word32 :=
  if len ≤ 24 then
    if len ≤ 12 then
      if len ≤ 4 then hash32_0To4 s len else hash32_5To12 s len
    else hash32_13To24 s len
  else do
    let h := BitVec.ofNat 32 len
    let g := c1 * BitVec.ofNat 32 len
    let f := g
    let a0 := rotate32 ((← fetch32 (s + len - 4)) * c1) 17 * c2
    let a1 := rotate32 ((← fetch32 (s + len - 8)) * c1) 17 * c2
    let a2 := rotate32 ((← fetch32 (s + len - 16)) * c1) 17 * c2
    let a3 := rotate32 ((← fetch32 (s + len - 12)) * c1) 17 * c2
    let a4 := rotate32 ((← fetch32 (s + len - 20)) * c1) 17 * c2
    let h := rotate32 (h ^^^ a0) 19
    let h := h * 5 + 0xe6546b64
    let h := rotate32 (h ^^^ a2) 19
    let h := h * 5 + 0xe6546b64
    let g := rotate32 (g ^^^ a1) 19
    let g := g * 5 + 0xe6546b64
    let g := rotate32 (g ^^^ a3) 19
    let g := g * 5 + 0xe6546b64
    let f := rotate32 (f + a4) 19
    let f := f * 5 + 0xe6546b64
    let st ← doWhile pass32 (fun st => st.iters ≠ 0) len { h, g, f, s, iters := (len - 1) / 20 }
    let g := rotate32 st.g 11 * c1
    let g := rotate32 g 17 * c1
    let f := rotate32 st.f 11 * c1
    let f := rotate32 f 17 * c1
    let h := rotate32 (st.h + g) 19
    let h := h * 5 + 0xe6546b64
    let h := rotate32 h 17 * c1
    let h := rotate32 (h + f) 19
    let h := h * 5 + 0xe6546b64
    let h := rotate32 h 17 * c1
    pure h

/-! ### 64 bits -/

def smix (val : Word64) : Word64 := val ^^^ (val >>> 47)

def hash128To64 (x : Uint128) : Word64 :=
  let kmul := 0x9ddfea08eb382d69
  let a := (x.a ^^^ x.b) * kmul
  let a := a ^^^ (a >>> 47)
  let b := (x.b ^^^ a) * kmul
  let b := b ^^^ (b >>> 47)
  b * kmul

def hash16 (u v : Word64) : Word64 := hash128To64 { a := u, b := v }

def hashMur16 (u v mul : Word64) : Word64 :=
  let a := (u ^^^ v) * mul
  let a := a ^^^ (a >>> 47)
  let b := (v ^^^ a) * mul
  let b := b ^^^ (b >>> 47)
  b * mul

def hash0To16 (s : ℤ) (len : ℕ) : Access Byte Word64 :=
  if 8 ≤ len then do
    let mul := k2 + BitVec.ofNat 64 len * 2
    let a := (← fetch64 s) + k2
    let b ← fetch64 (s + len - 8)
    let c := rotate64 b 37 * mul + a
    let d := (rotate64 a 25 + b) * mul
    pure (hashMur16 c d mul)
  else if 4 ≤ len then do
    let mul := k2 + BitVec.ofNat 64 len * 2
    let a := (← fetch32 s).setWidth 64
    let last ← fetch32 (s + len - 4)
    pure (hashMur16 (BitVec.ofNat 64 len + (a <<< 3)) (last.setWidth 64) mul)
  else if 0 < len then do
    let a ← readAt s
    let b ← readAt (s + ↑(len >>> 1))
    let c ← readAt (s + len - 1)
    let y := a.setWidth 32 + (b.setWidth 32 <<< 8)
    let z := BitVec.ofNat 32 len + (c.setWidth 32 <<< 2)
    pure (smix ((y.setWidth 64 * k2) ^^^ (z.setWidth 64 * k0)) * k2)
  else pure k2

def hash17To32 (s : ℤ) (len : ℕ) : Access Byte Word64 := do
  let mul := k2 + BitVec.ofNat 64 len * 2
  let a := (← fetch64 s) * k1
  let b ← fetch64 (s + 8)
  let c := (← fetch64 (s + len - 8)) * mul
  let d := (← fetch64 (s + len - 16)) * k2
  pure (hashMur16 (rotate64 (a + b) 43 + rotate64 c 30 + d) (a + rotate64 (b + k2) 18 + c) mul)

def weakHash32WithSeeds (w x y z a b : Word64) : Uint128 :=
  let a := a + w
  let b := rotate64 (b + a + z) 21
  let c := a
  let a := a + x
  let a := a + y
  let b := b + rotate64 a 44
  { a := a + z, b := b + c }

def weakHash32WithSeedsRaw (s : ℤ) (a b : Word64) : Access Byte Uint128 := do
  let w ← fetch64 s
  let x ← fetch64 (s + 8)
  let y ← fetch64 (s + 16)
  let z ← fetch64 (s + 24)
  pure (weakHash32WithSeeds w x y z a b)

def hash33To64 (s : ℤ) (len : ℕ) : Access Byte Word64 := do
  let mul := k2 + BitVec.ofNat 64 len * 2
  let a := (← fetch64 s) * k2
  let b ← fetch64 (s + 8)
  let c ← fetch64 (s + len - 24)
  let d ← fetch64 (s + len - 32)
  let e := (← fetch64 (s + 16)) * k2
  let f := (← fetch64 (s + 24)) * 9
  let g ← fetch64 (s + len - 8)
  let h := (← fetch64 (s + len - 16)) * mul
  let u := rotate64 (a + g) 43 + (rotate64 b 30 + c) * 9
  let v := ((a + g) ^^^ d) + f + 1
  let w := bswap64 ((u + v) * mul) + h
  let x := rotate64 (e + f) 42 + c
  let y := (bswap64 ((v + w) * mul) + g) * mul
  let z := e + f + c
  let a := bswap64 ((x + z) * mul + y) + b
  let b := smix ((z + a) * mul + d + h) * mul
  pure (b + x)

/-- The 56 bytes of state, the pointer and the bytes left. -/
structure State64 where
  x : Word64
  y : Word64
  z : Word64
  v : Uint128
  w : Uint128
  s : ℤ
  len : ℕ

/-- The inner loop of `cityhash64`, for one chunk of 64 bytes.  `swap64(&z, &x)` comes last. -/
def chunk (st : State64) : Access Byte State64 := do
  let x := rotate64 (st.x + st.y + st.v.a + (← fetch64 (st.s + 8))) 37 * k1
  let y := rotate64 (st.y + st.v.b + (← fetch64 (st.s + 48))) 42 * k1
  let x := x ^^^ st.w.b
  let y := y + (st.v.a + (← fetch64 (st.s + 40)))
  let z := rotate64 (st.z + st.w.a) 33 * k1
  let v ← weakHash32WithSeedsRaw st.s (st.v.b * k1) (x + st.w.a)
  let w ← weakHash32WithSeedsRaw (st.s + 32) (z + st.w.b) (y + (← fetch64 (st.s + 16)))
  pure { st with x := z, y, z := x, v, w, s := st.s + 64 }

def pass64 (st : State64) : Access Byte State64 := do
  let st ← chunk st
  pure { st with len := st.len - 64 }

/-- `(len - 1) & ~((size_t)63)`. -/
def roundDown (len : ℕ) : ℕ := (BitVec.ofNat 64 (len - 1) &&& ~~~63#64).toNat

def cityhash64 (s : ℤ) (len : ℕ) : Access Byte Word64 :=
  if len ≤ 32 then
    if len ≤ 16 then hash0To16 s len else hash17To32 s len
  else if len ≤ 64 then hash33To64 s len
  else do
    let x ← fetch64 (s + len - 40)
    let y := (← fetch64 (s + len - 16)) + (← fetch64 (s + len - 56))
    let z := hash16 ((← fetch64 (s + len - 48)) + BitVec.ofNat 64 len) (← fetch64 (s + len - 24))
    let v ← weakHash32WithSeedsRaw (s + len - 64) (BitVec.ofNat 64 len) z
    let w ← weakHash32WithSeedsRaw (s + len - 32) (y + k1) x
    let x := x * k1 + (← fetch64 s)
    let st ← doWhile pass64 (fun st => st.len ≠ 0) len { x, y, z, v, w, s, len := roundDown len }
    pure (hash16 (hash16 st.v.a st.w.a + smix st.y * k1 + st.z) (hash16 st.v.b st.w.b + st.x))

def cityhash64WithSeeds (s : ℤ) (len : ℕ) (seed0 seed1 : Word64) : Access Byte Word64 := do
  let hash ← cityhash64 s len
  pure (hash16 (hash - seed0) seed1)

def cityhash64WithSeed (s : ℤ) (len : ℕ) (seed : Word64) : Access Byte Word64 :=
  cityhash64WithSeeds s len k2 seed

/-! ### 128 bits -/

/-- What `city_murmur` keeps in its loop; `l` is a `signed long`. -/
structure Murmur where
  a : Word64
  b : Word64
  c : Word64
  d : Word64
  s : ℤ
  l : ℤ

def murmurPass (st : Murmur) : Access Byte Murmur := do
  let a := st.a ^^^ (smix ((← fetch64 st.s) * k1) * k1)
  let a := a * k1
  let b := st.b ^^^ a
  let c := st.c ^^^ (smix ((← fetch64 (st.s + 8)) * k1) * k1)
  let c := c * k1
  let d := st.d ^^^ c
  pure { a, b, c, d, s := st.s + 16, l := st.l - 16 }

/-- The last lines of `city_murmur`. -/
def murmurResult (a b c d : Word64) : Uint128 :=
  let a := hash16 a c
  let b := hash16 d b
  { a := a ^^^ b, b := hash16 b a }

def cityMurmur (s : ℤ) (len : ℕ) (seed : Uint128) : Access Byte Uint128 :=
  let a := seed.a
  let b := seed.b
  let l := Int.bmod ((len : ℤ) - 16) (2 ^ 64)
  if l ≤ 0 then do
    let a := smix (a * k1) * k1
    let c := b * k1 + (← hash0To16 s len)
    let first ← if 8 ≤ len then fetch64 s else pure c
    let d := smix (a + first)
    pure (murmurResult a b c d)
  else do
    let c := hash16 ((← fetch64 (s + len - 8)) + k1) a
    let d := hash16 (b + BitVec.ofNat 64 len) (c + (← fetch64 (s + len - 16)))
    let a := a + d
    let st ← doWhile murmurPass (fun st => 0 < st.l) len { a, b, c, d, s, l }
    pure (murmurResult st.a st.b st.c st.d)

/-- The inner loop of `cityhash64`, manually unrolled. -/
def pass128 (st : State64) : Access Byte State64 := do
  let st ← chunk st
  let st ← chunk st
  pure { st with len := st.len - 128 }

/-- The loop over the chunks at the end, of 32 bytes each. -/
structure Tail extends State64 where
  tailDone : ℕ

def tailPass (st : Tail) : Access Byte Tail := do
  let tailDone := st.tailDone + 32
  let y := rotate64 (st.x + st.y) 42 * k0 + st.v.b
  let wa := st.w.a + (← fetch64 (st.s + st.len - tailDone + 16))
  let x := st.x * k0 + wa
  let z := st.z + (st.w.b + (← fetch64 (st.s + st.len - tailDone)))
  let wb := st.w.b + st.v.a
  let v ← weakHash32WithSeedsRaw (st.s + st.len - tailDone) (st.v.a + z) st.v.b
  pure { st with x, y, z, v := { v with a := v.a * k0 }, w := { a := wa, b := wb }, tailDone }

def cityhash128WithSeed (s : ℤ) (len : ℕ) (seed : Uint128) : Access Byte Uint128 :=
  if len < 128 then cityMurmur s len seed
  else do
    let x := seed.a
    let y := seed.b
    let z := BitVec.ofNat 64 len * k1
    let va := rotate64 (y ^^^ k1) 49 * k1 + (← fetch64 s)
    let vb := rotate64 va 42 * k1 + (← fetch64 (s + 8))
    let wa := rotate64 (y + z) 35 * k1 + x
    let wb := rotate64 (x + (← fetch64 (s + 88))) 53 * k1
    let st ← doWhile pass128 (fun st => 128 ≤ st.len) len
      { x, y, z, v := { a := va, b := vb }, w := { a := wa, b := wb }, s, len }
    let x := st.x + rotate64 (st.v.a + st.z) 49 * k0
    let y := st.y * k0 + rotate64 st.w.b 37
    let z := st.z * k0 + rotate64 st.w.a 27
    let w := { st.w with a := st.w.a * 9 }
    let v := { st.v with a := st.v.a * k0 }
    let st ← whileDo tailPass (fun st => st.tailDone < st.len) len
      { x, y, z, v, w, s := st.s, len := st.len, tailDone := 0 }
    let x := hash16 st.x st.v.a
    let y := hash16 (st.y + st.z) st.w.a
    pure { a := hash16 (x + st.v.b) st.w.b + y, b := hash16 (x + st.w.b) (y + st.v.b) }

def cityhash128 (s : ℤ) (len : ℕ) : Access Byte Uint128 :=
  if 16 ≤ len then do
    let seed := { a := ← fetch64 s, b := (← fetch64 (s + 8)) + k0 }
    cityhash128WithSeed (s + 16) (len - 16) seed
  else cityhash128WithSeed s len { a := k0, b := k1 }

end MyCeph.City
