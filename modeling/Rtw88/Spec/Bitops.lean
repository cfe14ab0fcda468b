/-
What the searches of a bitmap should return, whatever the bitmap.
-/
import Rtw88.Lib.Next
import Rtw88.Model.Bitops

namespace Rtw88

/-- The bit at position `p`. -/
def Bitmap.bit (addr : Bitmap) (p : Nat) : Bool :=
  (addr (p / 64)).getLsbD (p % 64)

/-- The positions at which
`for (p = find_first_bit(..); p < size; p = find_next_bit(.., p + 1))`
runs its body, for `n` turns at most. -/
def setBitsVisited (addr : Bitmap) (size : ULong) : Nat → ULong → List Nat
  | 0, _ => []
  | n + 1, p =>
      if p < size then
        p.toNat :: setBitsVisited addr size n
          (findNextBit addr size (p + 1)).val
      else []

/-- The bytes of the words up to the one that holds bit `size - 1`. -/
def bitmapBytes (size : ULong) : Unit → Nat :=
  fun _ => 8 * ((size.toNat + 63) / 64)

/-- The four searches of the bits below `size` meet their
specification. -/
structure SearchesRight (addr : Bitmap) (size : ULong) : Prop where
  next : ∀ offset, IsNext (addr.bit · = true) offset.toNat size.toNat
    (findNextBit addr size offset).val.toNat
  nextZero : ∀ offset, IsNext (addr.bit · = false) offset.toNat size.toNat
    (findNextZeroBit addr size offset).val.toNat
  first : (findFirstBit addr size).val = (findNextBit addr size 0).val
  firstZero : (findFirstZeroBit addr size).val
    = (findNextZeroBit addr size 0).val
  /-- Another bitmap with the same bits below `size` is searched alike. -/
  below : ∀ addr' : Bitmap,
    (∀ p < size.toNat, addr'.bit p = addr.bit p) → ∀ offset,
      (findNextBit addr' size offset).val
          = (findNextBit addr size offset).val
        ∧ (findNextZeroBit addr' size offset).val
          = (findNextZeroBit addr size offset).val
        ∧ (findFirstBit addr' size).val = (findFirstBit addr size).val
        ∧ (findFirstZeroBit addr' size).val
          = (findFirstZeroBit addr size).val
  /-- No other words are read. -/
  reads : ∀ offset,
    (findNextBit addr size offset).Within (bitmapBytes size)
      ∧ (findNextZeroBit addr size offset).Within (bitmapBytes size)
      ∧ (findFirstBit addr size).Within (bitmapBytes size)
      ∧ (findFirstZeroBit addr size).Within (bitmapBytes size)
  visits : ∀ n, size.toNat ≤ n →
    setBitsVisited addr size n (findFirstBit addr size).val
      = (List.range size.toNat).filter addr.bit

end Rtw88
