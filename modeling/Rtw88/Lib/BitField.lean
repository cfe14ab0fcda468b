/-
Fields of a word: some bits in a row.

A field's `mask` has its bits set and no others, `read` takes it out of a
word and `put` makes a word of it. A word is compared with another bit by
bit, so everything here is said of single bits: `getLsbD_mask`,
`getLsbD_read`, `getLsbD_put`.
-/
import Mathlib.Algebra.Ring.Nat

namespace Rtw88

/-- The lowest set bit is the one with none below it. -/
theorem ctz_eq {w k : Nat} {x : BitVec w} (hk : x.getLsbD k = true)
    (hlow : ∀ i < k, x.getLsbD i = false) : x.ctz.toNat = k := by
  have hne : x ≠ 0#w := by
    rintro rfl
    rw [BitVec.getLsbD_zero] at hk
    cases hk
  have hset := BitVec.getLsbD_true_ctz_of_ne_zero hne
  rcases Nat.lt_trichotomy x.ctz.toNat k with hlt | heq | hgt
  · rw [hlow _ hlt] at hset
    cases hset
  · exact heq
  · rw [BitVec.getLsbD_false_of_lt_ctz hgt] at hk
    cases hk

/-- `len` bits of an `n`-bit word, from bit `lo` on. -/
structure BitField (n : Nat) where
  lo : Nat
  len : Nat
  pos : 0 < len
  fits : lo + len ≤ n

namespace BitField

variable {n : Nat} (F : BitField n)

/-- Bit `i` of a word is in the field. -/
def Has (i : Nat) : Prop := F.lo ≤ i ∧ i < F.lo + F.len

instance (i : Nat) : Decidable (F.Has i) := inferInstanceAs (Decidable (_ ∧ _))

/-- The bits of the field, and no others. -/
def mask : BitVec n := (BitVec.allOnes F.len).setWidth n <<< F.lo

/-- The field of a word, moved down to bit 0. -/
def read (x : BitVec n) : BitVec n := (x.extractLsb' F.lo F.len).setWidth n

/-- The low bits of a word, moved up to the field. -/
def put (x : BitVec n) : BitVec n := (x <<< F.lo) &&& F.mask

theorem Has.lt {F : BitField n} {i : Nat} (h : F.Has i) : i < n :=
  Nat.lt_of_lt_of_le h.2 F.fits

@[simp] theorem getLsbD_mask (i : Nat) :
    F.mask.getLsbD i = decide (F.Has i) := by
  have hfits := F.fits
  rw [mask, BitVec.getLsbD_shiftLeft, BitVec.getLsbD_setWidth,
    BitVec.getLsbD_allOnes, Bool.eq_iff_iff, decide_eq_true_eq]
  simp only [Bool.and_eq_true, Bool.not_eq_true', decide_eq_true_eq,
    decide_eq_false_iff_not]
  unfold Has
  omega

@[simp] theorem getLsbD_read (x : BitVec n) (i : Nat) :
    (F.read x).getLsbD i = (decide (i < F.len) && x.getLsbD (F.lo + i)) := by
  have hfits := F.fits
  rw [read, BitVec.getLsbD_setWidth, BitVec.getLsbD_extractLsb']
  by_cases hi : i < F.len
  · have hin : i < n := by omega
    rw [decide_eq_true hin, Bool.true_and]
  · rw [decide_eq_false hi, Bool.false_and, Bool.and_false]

@[simp] theorem getLsbD_put (x : BitVec n) (i : Nat) :
    (F.put x).getLsbD i = (decide (F.Has i) && x.getLsbD (i - F.lo)) := by
  rw [put, BitVec.getLsbD_and, BitVec.getLsbD_shiftLeft, getLsbD_mask]
  by_cases hi : F.Has i
  · have hin := hi.lt
    have hlo : ¬ i < F.lo := Nat.not_lt.2 hi.1
    simp [hi, hin, hlo]
  · simp [hi]

/-- Its lowest bit, also in a wider word. -/
theorem ctz_mask {m : Nat} (h : n ≤ m) :
    (F.mask.setWidth m).ctz.toNat = F.lo := by
  have hpos := F.pos
  have hfits := F.fits
  apply ctz_eq
  · have hlo : F.Has F.lo := ⟨Nat.le_refl _, by omega⟩
    have hin : F.lo < m := by omega
    simp [hlo, hin]
  · intro i hi
    have hnot : ¬ F.Has i := fun hhas => by
      have hge := hhas.1
      omega
    simp [hnot]

/-- What was put in comes out, as far as it fits. -/
theorem read_put (x : BitVec n) :
    F.read (F.put x) = (x.setWidth F.len).setWidth n := by
  have hfits := F.fits
  apply BitVec.eq_of_getLsbD_eq
  intro i hi
  rw [getLsbD_read, getLsbD_put, BitVec.getLsbD_setWidth,
    BitVec.getLsbD_setWidth, decide_eq_true hi, Bool.true_and]
  by_cases hlen : i < F.len
  · have hhas : F.Has (F.lo + i) := ⟨by omega, by omega⟩
    simp [hlen, hhas]
  · simp [hlen]

/-- A word of the field's width fits. -/
theorem read_put_fits (v : BitVec F.len) :
    F.read (F.put (v.setWidth n)) = v.setWidth n := by
  have hlen : F.len ≤ n := by
    have hfits := F.fits
    omega
  rw [read_put, BitVec.setWidth_setWidth_of_le _ hlen, BitVec.setWidth_eq]

end BitField

-- ============================================================ signed numbers

/-- `x` is a signed number of `w` bits; of none, zero is. -/
def FitsSigned (w : Nat) (x : Int) : Prop :=
  -(2 ^ w : Nat) ≤ x * 2 ∧ x * 2 < (2 ^ w : Nat)

instance (w : Nat) (x : Int) : Decidable (FitsSigned w x) :=
  inferInstanceAs (Decidable (_ ∧ _))

/-- Then it is what its low bits say. -/
theorem fitsSigned_iff {w : Nat} {x : Int} :
    FitsSigned w x ↔ x.bmod (2 ^ w) = x := by
  have hpos := Nat.two_pow_pos w
  constructor
  · rintro ⟨hle, hlt⟩
    exact Int.bmod_eq_of_le_mul_two hle hlt
  · intro h
    have hle := Int.le_bmod (x := x) hpos
    have hlt := Int.bmod_lt (x := x) hpos
    rw [h] at hle hlt
    unfold FitsSigned
    omega

/-- Moved up to the top of the word and back down, the low `k` bits are
a signed number. -/
theorem toInt_sshiftRight_shiftLeft {n k s : Nat} (h : k + s = n)
    (hk : 0 < k) (x : BitVec n) :
    ((x <<< s).sshiftRight s).toInt = (x.toNat : Int).bmod (2 ^ k) := by
  have hup : ((x.toNat <<< s : Nat) : Int)
      = (2 ^ s : Nat) * (x.toNat : Int) := by
    rw [Nat.shiftLeft_eq, Nat.mul_comm, Int.natCast_mul]
  have hwidth : 2 ^ n = 2 ^ s * 2 ^ k := by
    rw [← Nat.pow_add, Nat.add_comm, h]
  have heven : 2 ^ 1 ∣ 2 ^ k := Nat.pow_dvd_pow 2 hk
  have hpos := Nat.two_pow_pos s
  rw [BitVec.toInt_sshiftRight, BitVec.toInt_shiftLeft, hup, hwidth,
    Int.mod_bmod_mul_of_pos _ _ hpos heven, Int.shiftRight_eq_div_pow,
    Int.mul_ediv_cancel_left _ (by omega)]

end Rtw88
