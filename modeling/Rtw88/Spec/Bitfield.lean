/-
The laws of bit-field accessors, at any width and for any field.
-/
import Rtw88.Lib.BitField
import Rtw88.Model.Bitfield

namespace Rtw88

/-- The accessors of one width; not every width has one that replaces. -/
structure Accessors (n : Nat) where
  encode : BitVec n → BitVec n → BitVec n
  get : BitVec n → BitVec n → BitVec n
  replace : Option (BitVec n → BitVec n → BitVec n → BitVec n)

/-- The types that have accessors. -/
inductive FieldType
  | u8
  | u16
  | u32
  | le16
  | le32
  | le64
  deriving DecidableEq, Repr

namespace FieldType

def width : FieldType → Nat
  | u8 => 8
  | u16 | le16 => 16
  | u32 | le32 => 32
  | le64 => 64

/-- With 64 bits `u64_encode_bits` encodes and `le64_get_bits` gets; there
are no others. -/
def accessors : (t : FieldType) → Accessors t.width
  | u8 => ⟨u8EncodeBits, u8GetBits, some u8pReplaceBits⟩
  | u16 => ⟨u16EncodeBits, u16GetBits, none⟩
  | u32 => ⟨u32EncodeBits, u32GetBits, some u32pReplaceBits⟩
  | le16 => ⟨u16EncodeBits, le16GetBits, none⟩
  | le32 => ⟨le32EncodeBits, le32GetBits, some le32pReplaceBits⟩
  | le64 => ⟨u64EncodeBits, le64GetBits, none⟩

end FieldType

/-- The accessors are right on the field `F`, for a value `v` of its width
and for a word. -/
structure Accessors.Lawful {n : Nat} (A : Accessors n) (F : BitField n)
    (v : BitVec F.len) (word : BitVec n) : Prop where
  roundTrip : A.get (A.encode (v.setWidth n) F.mask) F.mask = v.setWidth n
  reads : A.get word F.mask = F.read word
  replaced : ∀ r ∈ A.replace,
    A.get (r word (v.setWidth n) F.mask) F.mask = v.setWidth n
  others : ∀ r ∈ A.replace, ∀ x i, F.mask.getLsbD i = false →
    (r word x F.mask).getLsbD i = word.getLsbD i
  commutes : ∀ r ∈ A.replace, ∀ (G : BitField n) (x y : BitVec n),
    F.mask &&& G.mask = 0 →
      r (r word x F.mask) y G.mask = r (r word y G.mask) x F.mask

/-- The signed number `x`, stored in a field by `u32_encode_bits`, got by
`u32_get_bits` and extended from the index of the field's sign bit. -/
def BitField.signedBack (F : BitField 32) (x : Int) : Int :=
  (signExtend32
    ((u32GetBits (u32EncodeBits (BitVec.ofInt 32 x) F.mask) F.mask).setWidth
      64) (BitVec.ofNat 32 (F.len - 1))).toInt

end Rtw88
