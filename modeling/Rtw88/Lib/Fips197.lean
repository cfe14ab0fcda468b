/-
The AES cipher and its inverse as FIPS 197 specifies them, over any
S-box, any number of rounds and any round keys: a state is four rows of
four columns, the input column by column.

`invCipher_cipher` and `cipher_invCipher`: with an inverse S-box the two
are inverse to each other. Each layer has its inverse; in a round the
layers meet in the middle, so the induction is over the state between
ShiftRows and MixColumns.
-/
import Rtw88.Lib.Bytes
import Rtw88.Lib.Gf256

namespace Rtw88

/-- Row, then column. -/
abbrev AesState := Fin 4 → Fin 4 → UInt8

namespace Fips197

-- ================================================================== layers

/-- SubBytes. -/
def subBytes (sbox : UInt8 → UInt8) (s : AesState) : AesState :=
  fun r c => sbox (s r c)

/-- ShiftRows: row `r` moves left by `r`. -/
def shiftRows (s : AesState) : AesState := fun r c => s r (c + r)

/-- InvShiftRows: row `r` moves right by `r`. -/
def invShiftRows (s : AesState) : AesState := fun r c => s r (c - r)

/-- MixColumns: every column times 03 x³ + 01 x² + 01 x + 02. -/
def mixColumns (s : AesState) : AesState := fun r c =>
  gfMul 0x02 (s r c) ^^^ gfMul 0x03 (s (r + 1) c) ^^^ gfMul 0x01 (s (r + 2) c)
    ^^^ gfMul 0x01 (s (r + 3) c)

/-- InvMixColumns: every column times 0b x³ + 0d x² + 09 x + 0e. -/
def invMixColumns (s : AesState) : AesState := fun r c =>
  gfMul 0x0e (s r c) ^^^ gfMul 0x0b (s (r + 1) c) ^^^ gfMul 0x0d (s (r + 2) c)
    ^^^ gfMul 0x09 (s (r + 3) c)

/-- AddRoundKey. -/
def addRoundKey (k s : AesState) : AesState := fun r c => s r c ^^^ k r c

-- ================================================================== cipher

/-- Rounds 1 to `n` of the cipher. -/
def rounds (sbox : UInt8 → UInt8) (w : Nat → AesState) :
    Nat → AesState → AesState
  | 0, s => s
  | n + 1, s =>
      addRoundKey (w (n + 1))
        (mixColumns (shiftRows (subBytes sbox (rounds sbox w n s))))

/-- The cipher with `n + 1` rounds: the last one has no MixColumns. -/
def cipher (sbox : UInt8 → UInt8) (w : Nat → AesState) (n : Nat)
    (s : AesState) : AesState :=
  addRoundKey (w (n + 1))
    (shiftRows (subBytes sbox (rounds sbox w n (addRoundKey (w 0) s))))

/-- Rounds `n` to 1 of the inverse cipher. -/
def invRounds (rsbox : UInt8 → UInt8) (w : Nat → AesState) :
    Nat → AesState → AesState
  | 0, s => s
  | n + 1, s =>
      invRounds rsbox w n
        (invMixColumns (addRoundKey (w (n + 1))
          (subBytes rsbox (invShiftRows s))))

/-- The inverse cipher. -/
def invCipher (rsbox : UInt8 → UInt8) (w : Nat → AesState) (n : Nat)
    (s : AesState) : AesState :=
  addRoundKey (w 0)
    (subBytes rsbox (invShiftRows
      (invRounds rsbox w n (addRoundKey (w (n + 1)) s))))

-- ================================================================ inverses

variable {sbox rsbox : UInt8 → UInt8}

/-- A round key drops out when it is added twice. -/
@[simp] theorem addRoundKey_self (k s : AesState) :
    addRoundKey k (addRoundKey k s) = s := by
  funext r c
  unfold addRoundKey
  rw [UInt8.xor_assoc, UInt8.xor_self, UInt8.xor_zero]

@[simp] theorem invShiftRows_shiftRows (s : AesState) :
    invShiftRows (shiftRows s) = s := by
  funext r c
  show s r (c - r + r) = s r c
  rw [sub_add_cancel]

@[simp] theorem shiftRows_invShiftRows (s : AesState) :
    shiftRows (invShiftRows s) = s := by
  funext r c
  show s r (c + r - r) = s r c
  rw [add_sub_cancel_right]

/-- Inverse tables undo each other. -/
theorem subBytes_subBytes (h : ∀ x, rsbox (sbox x) = x) (s : AesState) :
    subBytes rsbox (subBytes sbox s) = s := by
  funext r c
  exact h _

/-- The rows below a row, counted round. -/
private theorem row_add (r : Fin 4) :
    (r + 1 + 1 = r + 2 ∧ r + 1 + 2 = r + 3 ∧ r + 1 + 3 = r)
      ∧ (r + 2 + 1 = r + 3 ∧ r + 2 + 2 = r ∧ r + 2 + 3 = r + 1)
      ∧ (r + 3 + 1 = r ∧ r + 3 + 2 = r + 1 ∧ r + 3 + 3 = r + 2) := by
  revert r
  decide

/-- The product of the two column polynomials, coefficient by
coefficient, is 1. -/
private theorem columns_inverse :
    gfVal 0x0e * gfVal 0x02 + gfVal 0x0b * gfVal 0x01
        + gfVal 0x0d * gfVal 0x01 + gfVal 0x09 * gfVal 0x03 = gfVal 1
      ∧ gfVal 0x0e * gfVal 0x03 + gfVal 0x0b * gfVal 0x02
        + gfVal 0x0d * gfVal 0x01 + gfVal 0x09 * gfVal 0x01 = 0
      ∧ gfVal 0x0e * gfVal 0x01 + gfVal 0x0b * gfVal 0x03
        + gfVal 0x0d * gfVal 0x02 + gfVal 0x09 * gfVal 0x01 = 0
      ∧ gfVal 0x0e * gfVal 0x01 + gfVal 0x0b * gfVal 0x01
        + gfVal 0x0d * gfVal 0x03 + gfVal 0x09 * gfVal 0x02 = 0 := by
  simp only [← gfVal_mul, ← gfVal_xor, ← gfVal_zero]
  refine ⟨congrArg gfVal ?_, congrArg gfVal ?_, congrArg gfVal ?_,
    congrArg gfVal ?_⟩ <;> decide +kernel

/-- The byte one is the field's. -/
private theorem gfVal_one_mul (x : UInt8) : gfVal 1 * gfVal x = gfVal x := by
  rw [← gfVal_mul, one_gfMul]

@[simp] theorem invMixColumns_mixColumns (s : AesState) :
    invMixColumns (mixColumns s) = s := by
  funext r c
  obtain ⟨h0, h1, h2, h3⟩ := columns_inverse
  obtain ⟨⟨e11, e12, e13⟩, ⟨e21, e22, e23⟩, e31, e32, e33⟩ := row_add r
  apply gfVal_inj
  rw [← gfVal_one_mul (s r c)]
  simp only [invMixColumns, mixColumns, gfVal_xor, gfVal_mul, e11, e12, e13,
    e21, e22, e23, e31, e32, e33]
  linear_combination gfVal (s r c) * h0 + gfVal (s (r + 1) c) * h1
    + gfVal (s (r + 2) c) * h2 + gfVal (s (r + 3) c) * h3

@[simp] theorem mixColumns_invMixColumns (s : AesState) :
    mixColumns (invMixColumns s) = s := by
  funext r c
  obtain ⟨h0, h1, h2, h3⟩ := columns_inverse
  obtain ⟨⟨e11, e12, e13⟩, ⟨e21, e22, e23⟩, e31, e32, e33⟩ := row_add r
  apply gfVal_inj
  rw [← gfVal_one_mul (s r c)]
  simp only [invMixColumns, mixColumns, gfVal_xor, gfVal_mul, e11, e12, e13,
    e21, e22, e23, e31, e32, e33]
  linear_combination gfVal (s r c) * h0 + gfVal (s (r + 1) c) * h1
    + gfVal (s (r + 2) c) * h2 + gfVal (s (r + 3) c) * h3

-- ================================================================== rounds

/-- Behind SubBytes and ShiftRows of a state `n` rounds on, the inverse
rounds lead back to that of the first state. -/
theorem invRounds_rounds (h : ∀ x, rsbox (sbox x) = x) (w : Nat → AesState)
    (n : Nat) (s : AesState) :
    invRounds rsbox w n (shiftRows (subBytes sbox (rounds sbox w n s)))
      = shiftRows (subBytes sbox s) := by
  induction n with
  | zero => rfl
  | succ n ih =>
      rw [invRounds, invShiftRows_shiftRows, subBytes_subBytes h, rounds,
        addRoundKey_self, invMixColumns_mixColumns]
      exact ih

/-- And the rounds undo the inverse rounds. -/
theorem rounds_invRounds (h : ∀ x, sbox (rsbox x) = x) (w : Nat → AesState)
    (n : Nat) (s : AesState) :
    rounds sbox w n (subBytes rsbox (invShiftRows (invRounds rsbox w n s)))
      = subBytes rsbox (invShiftRows s) := by
  induction n generalizing s with
  | zero => rfl
  | succ n ih =>
      rw [rounds, invRounds, ih, subBytes_subBytes h, shiftRows_invShiftRows,
        mixColumns_invMixColumns, addRoundKey_self]

/-- The inverse cipher undoes the cipher, over inverse tables. -/
theorem invCipher_cipher (h : ∀ x, rsbox (sbox x) = x) (w : Nat → AesState)
    (n : Nat) (s : AesState) :
    invCipher rsbox w n (cipher sbox w n s) = s := by
  rw [invCipher, cipher, addRoundKey_self, invRounds_rounds h,
    invShiftRows_shiftRows, subBytes_subBytes h, addRoundKey_self]

/-- The cipher undoes the inverse cipher. -/
theorem cipher_invCipher (h : ∀ x, sbox (rsbox x) = x) (w : Nat → AesState)
    (n : Nat) (s : AesState) :
    cipher sbox w n (invCipher rsbox w n s) = s := by
  rw [invCipher, cipher, addRoundKey_self, rounds_invRounds h,
    subBytes_subBytes h, shiftRows_invShiftRows, addRoundKey_self]

-- =================================================================== bytes

/-- The input, column by column. -/
def ofBytes (d : List UInt8) : AesState := fun r c => peek d (r + 4 * c)

/-- The output, column by column. -/
def toBytes (s : AesState) : Bytes 16 :=
  ⟨[s 0 0, s 1 0, s 2 0, s 3 0, s 0 1, s 1 1, s 2 1, s 3 1,
    s 0 2, s 1 2, s 2 2, s 3 2, s 0 3, s 1 3, s 2 3, s 3 3], rfl⟩

/-- A state is read back from its bytes. -/
theorem ofBytes_toBytes (s : AesState) : ofBytes (toBytes s).toList = s := by
  funext r c
  fin_cases r <;> fin_cases c <;> rfl

end Fips197

end Rtw88
