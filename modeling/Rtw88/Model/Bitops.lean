/-
The bitmaps of compat/linux/bitops.h: the four searches, with a record of
the words they read.

A search and its twin for clear bits differ only in that the twin takes
the complement of a word, `pick` below.
-/
import Mathlib.Logic.Function.Basic
import Rtw88.Lib.Touch
import Rtw88.Lib.ULong

namespace Rtw88

/-- `BITS_PER_LONG`. -/
def bitsPerLong : ULong := 64

/-- `__ffs`. -/
def ffs (x : ULong) : ULong := x.ctz

/-- The words from an address on. -/
abbrev Bitmap := Nat → ULong

-- ================================================================== searches

/-- `addr[i]`. -/
def Bitmap.word (addr : Bitmap) (i : ULong) : Touched Unit ULong := do
  Touched.access (.read () (8 * i.toNat) 8)
  return addr i.toNat

/-- The number of words, `size` rounded up. -/
def bitmapWords (size : ULong) : ULong :=
  (size + bitsPerLong - 1) / bitsPerLong

/-- What a search returns on the word `v` at `i`, which is not zero. -/
def bitHit (size i v : ULong) : ULong :=
  let bit := i * bitsPerLong + ffs v
  if bit < size then bit else size

section
variable (pick : ULong → ULong) (addr : Bitmap) (size : ULong)

/-- The loop over the words from `i` on, for `n` turns. -/
def scanWords : Nat → ULong → Touched Unit ULong
  | 0, _ => return size
  | n + 1, i => do
      let v := pick (← addr.word i)
      if v ≠ 0 then return bitHit size i v
      else scanWords n (i + 1)

def findFirst : Touched Unit ULong :=
  scanWords pick addr size (bitmapWords size).toNat 0

def findNext (offset : ULong) : Touched Unit ULong :=
  if offset ≥ size then return size
  else do
    let idx := offset / bitsPerLong
    let start := offset % bitsPerLong
    let mask := pick (← addr.word idx) &&& (~~~(0 : ULong) <<< start.toNat)
    if mask ≠ 0 then return bitHit size idx mask
    else
      scanWords pick addr size ((bitmapWords size).toNat - (idx + 1).toNat)
        (idx + 1)

/-- `find_first_bit`. -/
def findFirstBit : Touched Unit ULong := findFirst id addr size

/-- `find_first_zero_bit`. -/
def findFirstZeroBit : Touched Unit ULong := findFirst (~~~·) addr size

/-- `find_next_bit`. -/
def findNextBit (offset : ULong) : Touched Unit ULong :=
  findNext id addr size offset

/-- `find_next_zero_bit`. -/
def findNextZeroBit (offset : ULong) : Touched Unit ULong :=
  findNext (~~~·) addr size offset

end

end Rtw88
