/-
SHA-1 and HMAC-SHA1 as `kern_sha1_*` and `kern_hmac_sha1` compute them.

The 80 unrolled macro calls of `kern_sha1_transform` rename the five
working registers from call to call, (a,b,c,d,e) then (e,a,b,c,d) and so
on; `sha1Round` performs one macro call and the renaming together, so 80
of them in order are the unrolled text. The message schedule is the
in-place 16-word ring of the source (`blk0` for the first sixteen
rounds, `blk` from then on).

The context keeps the source's split bit counter `count[2]`.
-/
import Rtw88.Lib.Bytes

namespace Rtw88

-- ============================================================ transform

/-- `rol`. -/
def rol (value bits : UInt32) : UInt32 :=
  (value <<< bits) ||| (value >>> (32 - bits))

/-- The sixteen words `block->l`. -/
abbrev ShaBlock := Vector UInt32 16

/-- `block->l[i & 15]`. -/
def ShaBlock.at (l : ShaBlock) (i : Nat) : UInt32 :=
  l.get ⟨i % 16, Nat.mod_lt _ (by decide)⟩

/-- Overwrite `block->l[i & 15]`. -/
def ShaBlock.put (l : ShaBlock) (i : Nat) (x : UInt32) : ShaBlock :=
  l.set (i % 16) x (Nat.mod_lt _ (by decide))

/-- `blk0(i)`: byte-swap the word the little-endian `memcpy` loaded. -/
def blk0 (l : ShaBlock) (i : Nat) : ShaBlock :=
  l.put i ((rol (l.at i) 24 &&& 0xFF00FF00)
    ||| (rol (l.at i) 8 &&& 0x00FF00FF))

/-- `blk(i)`: the next schedule word, over the oldest one. -/
def blk (l : ShaBlock) (i : Nat) : ShaBlock :=
  l.put i (rol (l.at (i + 13) ^^^ l.at (i + 8) ^^^ l.at (i + 2)
    ^^^ l.at i) 1)

/-- The working registers of the transform and its schedule ring. -/
structure ShaRegs where
  v : UInt32
  w : UInt32
  x : UInt32
  y : UInt32
  z : UInt32
  l : ShaBlock

/-- The mixing function and constant of round `i`: `r0`/`r1` below 20,
`r2` below 40, `r3` below 60, `r4` after. -/
def shaMix (i : Nat) (w x y : UInt32) : UInt32 :=
  if i < 20 then ((w &&& (x ^^^ y)) ^^^ y) + 0x5A827999
  else if i < 40 then (w ^^^ x ^^^ y) + 0x6ED9EBA1
  else if i < 60 then (((w ||| x) &&& y) ||| (w &&& x)) + 0x8F1BBCDC
  else (w ^^^ x ^^^ y) + 0xCA62C1D6

/-- One macro call, registers renamed for the next one. -/
def sha1Round (r : ShaRegs) (i : Nat) : ShaRegs :=
  let l := if i < 16 then blk0 r.l i else blk r.l i
  { v := r.z + shaMix i r.w r.x r.y + l.at i + rol r.v 5
    w := r.v
    x := rol r.w 30
    y := r.x
    z := r.y
    l := l }

/-- `state[5]`. -/
structure ShaState where
  h0 : UInt32
  h1 : UInt32
  h2 : UInt32
  h3 : UInt32
  h4 : UInt32
  deriving DecidableEq, Repr

/-- `kern_sha1_transform`. -/
def kernSha1Transform (s : ShaState) (buffer : List UInt8) : ShaState :=
  let block : ShaBlock := Vector.ofFn fun i => le32At buffer (4 * i.val)
  let r := (List.range 80).foldl sha1Round
    { v := s.h0, w := s.h1, x := s.h2, y := s.h3, z := s.h4, l := block }
  { h0 := s.h0 + r.v
    h1 := s.h1 + r.w
    h2 := s.h2 + r.x
    h3 := s.h3 + r.y
    h4 := s.h4 + r.z }

/-- The bytes of a word, high byte first. -/
def be32 (x : UInt32) : List UInt8 :=
  [(x >>> 24).toUInt8, (x >>> 16).toUInt8, (x >>> 8).toUInt8, x.toUInt8]

/-- `digest[i] = state[i >> 2] >> ((3 - (i & 3)) * 8)`. -/
def ShaState.digest (s : ShaState) : Bytes 20 :=
  ⟨be32 s.h0 ++ be32 s.h1 ++ be32 s.h2 ++ be32 s.h3 ++ be32 s.h4, rfl⟩

-- ============================================================== context

/-- `KERN_SHA1_CTX`. -/
structure KernSha1Ctx where
  state : ShaState
  count0 : UInt32
  count1 : UInt32
  buffer : List UInt8

/-- `kern_sha1_init`. The buffer is uninitialised in the source; it is
written before it is read. -/
def kernSha1Init : KernSha1Ctx :=
  { state := ⟨0x67452301, 0xEFCDAB89, 0x98BADCFE, 0x10325476, 0xC3D2E1F0⟩
    count0 := 0
    count1 := 0
    buffer := List.replicate 64 0 }

/-- The loop `for (; i + 63 < len; i += 64)` over what is left of the
data: whole blocks are hashed, the rest is returned. -/
def sha1Blocks : Nat → ShaState → List UInt8 → ShaState × List UInt8
  | 0, s, d => (s, d)
  | k + 1, s, d =>
      if 63 < d.length then
        sha1Blocks k (kernSha1Transform s (d.take 64)) (d.drop 64)
      else (s, d)

/-- `kern_sha1_update`. -/
def kernSha1Update (c : KernSha1Ctx) (data : List UInt8) : KernSha1Ctx :=
  let len := UInt32.ofNat data.length
  let count0 := c.count0 + (len <<< 3)
  let carry : UInt32 := if count0 < c.count0 then 1 else 0
  let count1 := c.count1 + carry + (len >>> 29)
  let j := (c.count0 >>> 3) &&& 63
  if 63 < j + len then
    let i := 64 - j.toNat
    let buffer := splice c.buffer j.toNat (data.take i)
    let state := kernSha1Transform c.state buffer
    let (state, rest) := sha1Blocks data.length state (data.drop i)
    { state := state, count0 := count0, count1 := count1
      buffer := splice buffer 0 rest }
  else
    { c with
      count0 := count0, count1 := count1
      buffer := splice c.buffer j.toNat data }

/-- The padding loop `while ((count[0] & 504) != 448)`: one zero byte a
turn, at most a block of them. -/
def sha1Pad : Nat → KernSha1Ctx → KernSha1Ctx
  | 0, c => c
  | k + 1, c =>
      if c.count0 &&& 504 ≠ 448 then sha1Pad k (kernSha1Update c [0])
      else c

/-- `kern_sha1_final`. -/
def kernSha1Final (c : KernSha1Ctx) : Bytes 20 :=
  let finalcount := be32 c.count1 ++ be32 c.count0
  let c := kernSha1Update (sha1Pad 64 (kernSha1Update c [0x80])) finalcount
  c.state.digest

-- ================================================================= HMAC

/-- `k_ipad`/`k_opad`: the key in a zeroed 64-byte block, xored with a
constant. -/
def hmacPad (key : List UInt8) (c : UInt8) : List UInt8 :=
  (splice (List.replicate 64 0) 0 key).map (· ^^^ c)

/-- `kern_hmac_sha1`. -/
def kernHmacSha1 (key data : List UInt8) : Bytes 20 :=
  let key := if 64 < key.length
    then (kernSha1Final (kernSha1Update kernSha1Init key)).toList else key
  let inner := kernSha1Final
    (kernSha1Update (kernSha1Update kernSha1Init (hmacPad key 0x36)) data)
  kernSha1Final (kernSha1Update
    (kernSha1Update kernSha1Init (hmacPad key 0x5c)) inner.toList)

end Rtw88
