/-
`kern_sha1_transform` and `kern_sha1_update` in the letter of the source.

- The transform call by call: the macros `r0`..`r4` over the five named
  registers, and the 80 calls in their order, each with the registers it
  names. (`Crypto/Sha1` folds one renaming round instead.)
- The update with its 32-bit index: the loop `for (; i + 63 < len; i +=
  64)` and the final copy read `data` at `i`. The loop takes a bound on
  its turns and answers `none` when that runs out, as it would where
  `i + 63` wraps.

`Proofs/Crypto` shows that both compute what `Crypto/Sha1` says.
-/
import Rtw88.Crypto.Sha1

namespace Rtw88

-- ============================================================== transform

/-- The registers of the transform. -/
inductive ShaReg where
  | a | b | c | d | e
  deriving DecidableEq, Repr

/-- Their values, and the block. -/
structure ShaVars where
  a : UInt32
  b : UInt32
  c : UInt32
  d : UInt32
  e : UInt32
  l : ShaBlock

/-- A register's value. -/
def ShaVars.get (s : ShaVars) : ShaReg → UInt32
  | .a => s.a
  | .b => s.b
  | .c => s.c
  | .d => s.d
  | .e => s.e

/-- An assignment. -/
def ShaVars.put (s : ShaVars) (r : ShaReg) (x : UInt32) : ShaVars :=
  match r with
  | .a => { s with a := x }
  | .b => { s with b := x }
  | .c => { s with c := x }
  | .d => { s with d := x }
  | .e => { s with e := x }

/-- The body the five macros share: `z += f(w, x, y) + load(i) + k +
rol(v, 5); w = rol(w, 30);`. -/
def shaMacro (f : UInt32 → UInt32 → UInt32 → UInt32)
    (load : ShaBlock → Nat → ShaBlock) (k : UInt32)
    (v w x y z : ShaReg) (i : Nat) (s : ShaVars) : ShaVars :=
  let l := load s.l i
  let s := { s with l := l }
  let s := s.put z
    (s.get z + (f (s.get w) (s.get x) (s.get y) + l.at i + k
      + rol (s.get v) 5))
  s.put w (rol (s.get w) 30)

def r0 := shaMacro (fun w x y => (w &&& (x ^^^ y)) ^^^ y) blk0 0x5A827999

def r1 := shaMacro (fun w x y => (w &&& (x ^^^ y)) ^^^ y) blk 0x5A827999

def r2 := shaMacro (fun w x y => w ^^^ x ^^^ y) blk 0x6ED9EBA1

def r3 :=
  shaMacro (fun w x y => ((w ||| x) &&& y) ||| (w &&& x)) blk 0x8F1BBCDC

def r4 := shaMacro (fun w x y => w ^^^ x ^^^ y) blk 0xCA62C1D6

/-- The text of the rounds. -/
def kernSha1Calls : List (ShaVars → ShaVars) :=
   [r0 .a .b .c .d .e 0, r0 .e .a .b .c .d 1, r0 .d .e .a .b .c 2,
    r0 .c .d .e .a .b 3, r0 .b .c .d .e .a 4, r0 .a .b .c .d .e 5,
    r0 .e .a .b .c .d 6, r0 .d .e .a .b .c 7, r0 .c .d .e .a .b 8,
    r0 .b .c .d .e .a 9, r0 .a .b .c .d .e 10, r0 .e .a .b .c .d 11,
    r0 .d .e .a .b .c 12, r0 .c .d .e .a .b 13, r0 .b .c .d .e .a 14,
    r0 .a .b .c .d .e 15, r1 .e .a .b .c .d 16, r1 .d .e .a .b .c 17,
    r1 .c .d .e .a .b 18, r1 .b .c .d .e .a 19, r2 .a .b .c .d .e 20,
    r2 .e .a .b .c .d 21, r2 .d .e .a .b .c 22, r2 .c .d .e .a .b 23,
    r2 .b .c .d .e .a 24, r2 .a .b .c .d .e 25, r2 .e .a .b .c .d 26,
    r2 .d .e .a .b .c 27, r2 .c .d .e .a .b 28, r2 .b .c .d .e .a 29,
    r2 .a .b .c .d .e 30, r2 .e .a .b .c .d 31, r2 .d .e .a .b .c 32,
    r2 .c .d .e .a .b 33, r2 .b .c .d .e .a 34, r2 .a .b .c .d .e 35,
    r2 .e .a .b .c .d 36, r2 .d .e .a .b .c 37, r2 .c .d .e .a .b 38,
    r2 .b .c .d .e .a 39, r3 .a .b .c .d .e 40, r3 .e .a .b .c .d 41,
    r3 .d .e .a .b .c 42, r3 .c .d .e .a .b 43, r3 .b .c .d .e .a 44,
    r3 .a .b .c .d .e 45, r3 .e .a .b .c .d 46, r3 .d .e .a .b .c 47,
    r3 .c .d .e .a .b 48, r3 .b .c .d .e .a 49, r3 .a .b .c .d .e 50,
    r3 .e .a .b .c .d 51, r3 .d .e .a .b .c 52, r3 .c .d .e .a .b 53,
    r3 .b .c .d .e .a 54, r3 .a .b .c .d .e 55, r3 .e .a .b .c .d 56,
    r3 .d .e .a .b .c 57, r3 .c .d .e .a .b 58, r3 .b .c .d .e .a 59,
    r4 .a .b .c .d .e 60, r4 .e .a .b .c .d 61, r4 .d .e .a .b .c 62,
    r4 .c .d .e .a .b 63, r4 .b .c .d .e .a 64, r4 .a .b .c .d .e 65,
    r4 .e .a .b .c .d 66, r4 .d .e .a .b .c 67, r4 .c .d .e .a .b 68,
    r4 .b .c .d .e .a 69, r4 .a .b .c .d .e 70, r4 .e .a .b .c .d 71,
    r4 .d .e .a .b .c 72, r4 .c .d .e .a .b 73, r4 .b .c .d .e .a 74,
    r4 .a .b .c .d .e 75, r4 .e .a .b .c .d 76, r4 .d .e .a .b .c 77,
    r4 .c .d .e .a .b 78, r4 .b .c .d .e .a 79]

/-- `kern_sha1_transform`, as written. -/
def kernSha1TransformCalls (s : ShaState) (buffer : List UInt8) :
    ShaState :=
  let block : ShaBlock := Vector.ofFn fun i => le32At buffer (4 * i.val)
  let r := kernSha1Calls.foldl (fun s call => call s)
    { a := s.h0, b := s.h1, c := s.h2, d := s.h3, e := s.h4, l := block }
  { h0 := s.h0 + r.a
    h1 := s.h1 + r.b
    h2 := s.h2 + r.c
    h3 := s.h3 + r.d
    h4 := s.h4 + r.e }

-- ================================================================= update

/-- The loop over the whole blocks behind `data[i]`. -/
def updateLoop (data : List UInt8) (len : UInt32) :
    Nat → UInt32 → ShaState → Option (UInt32 × ShaState)
  | 0, _, _ => none
  | turns + 1, i, s =>
      if i + 63 < len then
        updateLoop data len turns (i + 64)
          (kernSha1TransformCalls s ((data.drop i.toNat).take 64))
      else some (i, s)

/-- `kern_sha1_update(context, data, len)`. -/
def kernSha1UpdateAt (c : KernSha1Ctx) (data : List UInt8) (len : UInt32) :
    Option KernSha1Ctx := do
  let j := c.count0
  let count0 := c.count0 + (len <<< 3)
  let count1 := if count0 < j then c.count1 + 1 else c.count1
  let count1 := count1 + (len >>> 29)
  let j := (j >>> 3) &&& 63
  -- the last copy, of what no block took
  let store := fun (state : ShaState) (buffer : List UInt8)
      (i j : UInt32) =>
    { state := state
      count0 := count0
      count1 := count1
      buffer := splice buffer j.toNat
        ((data.drop i.toNat).take (len - i).toNat) : KernSha1Ctx }
  if j + len > 63 then
    let i := 64 - j
    let buffer := splice c.buffer j.toNat (data.take i.toNat)
    let state := kernSha1TransformCalls c.state buffer
    let r ← updateLoop data len len.toNat i state
    some (store r.2 buffer r.1 0)
  else some (store c.state c.buffer 0 j)

end Rtw88
