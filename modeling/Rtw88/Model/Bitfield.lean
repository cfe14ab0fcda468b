/-
The bit-field accessors of compat/linux/bitfield.h, and `sign_extend32` of
rtw88_compat.c.

`FIELD_PREP` and `FIELD_GET` work on 64 bits; an accessor casts to that
and back to its own width. The `__le` types are plain integers, and the
target is little-endian, so their accessors cast only.
-/
import Rtw88.Model.Bitops

namespace Rtw88

/-- `FIELD_PREP`. -/
def fieldPrep (mask val : BitVec 64) : BitVec 64 :=
  (val <<< (ffs mask).toNat) &&& mask

/-- `FIELD_GET`. -/
def fieldGet (mask val : BitVec 64) : BitVec 64 :=
  (val &&& mask) >>> (ffs mask).toNat

-- ================================================================= any width

section
variable {n : Nat}

def encodeBits (v mask : BitVec n) : BitVec n :=
  (fieldPrep (mask.setWidth 64) (v.setWidth 64)).setWidth n

def getBits (v mask : BitVec n) : BitVec n :=
  (fieldGet (mask.setWidth 64) (v.setWidth 64)).setWidth n

/-- What is stored in `*p`. -/
def replaceBits (p val mask : BitVec n) : BitVec n :=
  (p &&& ~~~mask) ||| encodeBits val mask

end

-- ============================================================= the accessors

/-- `u8_encode_bits`. -/
def u8EncodeBits (v mask : BitVec 8) : BitVec 8 := encodeBits v mask

/-- `u8_get_bits`. -/
def u8GetBits (v mask : BitVec 8) : BitVec 8 := getBits v mask

/-- `u8p_replace_bits`. -/
def u8pReplaceBits (p val mask : BitVec 8) : BitVec 8 :=
  replaceBits p val mask

/-- `u16_encode_bits`. -/
def u16EncodeBits (v mask : BitVec 16) : BitVec 16 := encodeBits v mask

/-- `u16_get_bits`. -/
def u16GetBits (v mask : BitVec 16) : BitVec 16 := getBits v mask

/-- `u32_encode_bits`. -/
def u32EncodeBits (v mask : BitVec 32) : BitVec 32 := encodeBits v mask

/-- `u32_get_bits`. -/
def u32GetBits (v mask : BitVec 32) : BitVec 32 := getBits v mask

/-- `u32p_replace_bits`. -/
def u32pReplaceBits (p val mask : BitVec 32) : BitVec 32 :=
  replaceBits p val mask

/-- `u64_encode_bits`. -/
def u64EncodeBits (v mask : BitVec 64) : BitVec 64 := encodeBits v mask

/-- `le16_get_bits`. -/
def le16GetBits (v mask : BitVec 16) : BitVec 16 := u16GetBits v mask

/-- `le32_get_bits`. -/
def le32GetBits (v mask : BitVec 32) : BitVec 32 := u32GetBits v mask

/-- `le32_encode_bits`. -/
def le32EncodeBits (v mask : BitVec 32) : BitVec 32 := u32EncodeBits v mask

/-- `le32p_replace_bits`. -/
def le32pReplaceBits (p val mask : BitVec 32) : BitVec 32 :=
  u32pReplaceBits p val mask

/-- `le64_get_bits`: it ends in the accessor that encodes. -/
def le64GetBits (v mask : BitVec 64) : BitVec 64 :=
  u64EncodeBits (v &&& mask) mask

-- ========================================================== rtw88_compat.c

/-- `sign_extend32`, from `long` to `long`. The shift to the left drops
what it moves out, as the compilers do it. -/
def signExtend32 (value : BitVec 64) (bit : BitVec 32) : BitVec 64 :=
  if bit = 0 ∨ bit ≥ 32 then value
  else
    let v : BitVec 32 := value.setWidth 32
    let shift := 32 - bit.toNat
    ((v <<< shift).sshiftRight shift).signExtend 64

end Rtw88
