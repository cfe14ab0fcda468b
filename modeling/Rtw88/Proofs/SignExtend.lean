/-
Signed numbers in 32-bit fields: `signed_field_iff`.

`sign_extend32` takes its second argument for the number of bits, where
the drivers pass the index of the sign bit, one less. So it extends from
the bit below the sign bit (`signExtend32_low`), and a field of one bit
not at all.

The field is put and read by the bit-field functions, so what is left is
the number itself, in its low bits (`field_low`). It comes back if it
would have fitted a field one bit narrower, and otherwise with the wrong
sign or a wrong size. Index 0 is a case of its own: the function has
nothing to extend then and returns the word as it is
(`signExtend32_zero`).
-/
import Rtw88.Proofs.Bitfield

namespace Rtw88

variable {F : BitField 32} {x : Int}

/-- What the field holds: the low bits of the number. -/
theorem field_low (F : BitField 32) (x : Int) :
    ((u32GetBits (u32EncodeBits (BitVec.ofInt 32 x) F.mask) F.mask).toNat
      : Int) = x % (2 ^ F.len : Nat) := by
  have hfits := F.fits
  have hdvd : 2 ^ F.len ∣ 2 ^ 32 := Nat.pow_dvd_pow 2 (by omega)
  have hlow : x % (2 ^ 32 : Nat) % (2 ^ F.len : Nat)
      = x % (2 ^ F.len : Nat) :=
    Int.emod_emod_of_dvd x (Int.natCast_dvd_natCast.2 hdvd)
  have hpos : 0 ≤ x % (2 ^ 32 : Nat) := Int.emod_nonneg x (by decide)
  rw [u32GetBits, u32EncodeBits, encodeBits_mask (by omega),
    getBits_mask (by omega), F.read_put,
    BitVec.toNat_setWidth_of_le (by omega), BitVec.toNat_setWidth,
    BitVec.toNat_ofInt, Int.natCast_emod, Int.toNat_of_nonneg hpos, hlow]

/-- With `k` from 1 to 31 the low `k` bits are extended. -/
theorem signExtend32_low {k : Nat} (hk : 0 < k) (hlt : k < 32)
    (v : BitVec 32) :
    (signExtend32 (v.setWidth 64) (BitVec.ofNat 32 k)).toInt
      = (v.toNat : Int).bmod (2 ^ k) := by
  have hval : (BitVec.ofNat 32 k).toNat = k := by
    rw [BitVec.toNat_ofNat]
    omega
  have hno : ¬ (BitVec.ofNat 32 k = 0 ∨ BitVec.ofNat 32 k ≥ 32) := by
    rintro (hzero | hge)
    · rw [hzero] at hval
      have hz : (0 : BitVec 32).toNat = 0 := rfl
      omega
    · have hge : (32 : BitVec 32).toNat ≤ (BitVec.ofNat 32 k).toNat :=
        BitVec.le_def.1 hge
      have h32 : (32 : BitVec 32).toNat = 32 := rfl
      omega
  unfold signExtend32
  rw [if_neg hno, hval]
  simp only
  rw [BitVec.setWidth_setWidth_of_le _ (by omega), BitVec.setWidth_eq,
    BitVec.toInt_signExtend_of_le (by omega),
    toInt_sshiftRight_shiftLeft (by omega) hk]

/-- With index 0 nothing is. -/
theorem signExtend32_zero (v : BitVec 32) :
    (signExtend32 (v.setWidth 64) (BitVec.ofNat 32 0)).toInt = v.toNat := by
  have hlt := v.isLt
  have hval : (v.setWidth 64).toNat = v.toNat :=
    BitVec.toNat_setWidth_of_le (by omega)
  unfold signExtend32
  rw [if_pos (.inl rfl), BitVec.toInt_eq_toNat_of_lt (by omega), hval]

/-- In every field of a 32-bit word, a signed number of the field's width
comes back exactly if it would fit one bit less. -/
theorem signed_field_iff (F : BitField 32) (x : Int)
    (hx : FitsSigned F.len x) :
    F.signedBack x = x ↔ FitsSigned (F.len - 1) x := by
  have hpos := F.pos
  have hfits := F.fits
  have hlow := field_low F x
  unfold BitField.signedBack
  rcases Nat.lt_or_ge 1 F.len with hlen | hlen
  · have hdvd : ((2 ^ (F.len - 1) : Nat) : Int) ∣ (2 ^ F.len : Nat) :=
      Int.natCast_dvd_natCast.2 (Nat.pow_dvd_pow 2 (Nat.sub_le _ _))
    rw [signExtend32_low (by omega) (by omega), hlow, fitsSigned_iff,
      ← Int.emod_bmod, Int.emod_emod_of_dvd x hdvd, Int.emod_bmod]
  · have hone : F.len = 1 := by omega
    rw [hone] at hx hlow
    have hzero : F.len - 1 = 0 := by omega
    rw [hzero, signExtend32_zero, hlow]
    unfold FitsSigned at hx ⊢
    omega

/-- Four bits, from bit 4 on. -/
def gainField : BitField 32 := ⟨4, 4, by decide, by decide⟩

theorem small_gain_back : gainField.signedBack (-4) = -4 :=
  (signed_field_iff gainField (-4) (by decide)).2 (by decide)

/-- The least number of four bits is read as zero, and the greatest as
less than that. -/
theorem sign_bit_lost :
    gainField.signedBack (-8) = 0 ∧ gainField.signedBack 7 = -1
      ∧ ¬ ∀ (F : BitField 32) (x : Int),
          FitsSigned F.len x → F.signedBack x = x := by
  have hleast : gainField.signedBack (-8) = 0 := by decide +kernel
  refine ⟨hleast, by decide +kernel, fun h => ?_⟩
  have hsame := h gainField (-8) (by decide)
  rw [hleast] at hsame
  exact absurd hsame (by decide)

end Rtw88
