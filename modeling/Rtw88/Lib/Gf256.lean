/-
Bytes as the polynomials over GF(2) of degree below 8, and their product
modulo `x^8 + x^4 + x^3 + x + 1`.

`bytePoly` reads a byte as its polynomial, bit `i` being the coefficient
of `x^i`, and `bytePoly_inj` says that no two bytes are the same one.
`gfMul` is the product as a sum of doublings. `bytePoly_mul` says that
it is the product of the polynomials modulo `gfModulus`; `gfVal`, the
class of the polynomial, carries it into a commutative ring
(`gfVal_mul`).
-/
import Mathlib.Algebra.CharP.Two
import Mathlib.Algebra.Field.ZMod
import Mathlib.RingTheory.AdjoinRoot
import Mathlib.Tactic.LinearCombination

namespace Rtw88

open Polynomial

-- ============================================================= the product

/-- The product with `x`. -/
def gfDouble (x : UInt8) : UInt8 :=
  (x <<< 1) ^^^ (if x.toNat < 128 then 0 else 0x1b)

/-- The sum of the multiples of `x` by the powers of `x` that `y` has. -/
def gfMul (x y : UInt8) : UInt8 :=
  (List.range 8).foldl
    (fun r i => if y.toNat.testBit i then r ^^^ gfDouble^[i] x else r) 0

-- ============================================================= polynomials

/-- Bit `i`, as a coefficient. -/
def byteBit (x : UInt8) (i : Nat) : ZMod 2 :=
  if x.toNat.testBit i then 1 else 0

/-- The polynomial of a byte. -/
noncomputable def bytePoly (x : UInt8) : (ZMod 2)[X] :=
  ∑ i ∈ Finset.range 8, C (byteBit x i) * X ^ i

/-- `x^8 + x^4 + x^3 + x + 1`. -/
noncomputable def gfModulus : (ZMod 2)[X] := X ^ 8 + X ^ 4 + X ^ 3 + X + 1

/-- The class of a byte's polynomial modulo `gfModulus`. -/
noncomputable def gfVal (x : UInt8) : AdjoinRoot gfModulus :=
  AdjoinRoot.mk gfModulus (bytePoly x)

/-- The modulus has degree eight. -/
theorem gfModulus_natDegree : gfModulus.natDegree = 8 := by
  unfold gfModulus
  compute_degree!

/-- Its leading coefficient is one. -/
theorem gfModulus_monic : gfModulus.Monic := by
  unfold gfModulus
  monicity!

/-- What holds of every number below 256 holds of every byte. -/
theorem forall_byte {P : UInt8 → Prop}
    (h : ∀ i : Fin 256, P (UInt8.ofNat i)) (x : UInt8) : P x := by
  have hx := h ⟨x.toNat, x.toNat_lt⟩
  rwa [show UInt8.ofNat x.toNat = x from UInt8.ofNat_toNat] at hx

/-- Exclusive or adds bit by bit. -/
theorem byteBit_xor (x y : UInt8) (i : Nat) :
    byteBit (x ^^^ y) i = byteBit x i + byteBit y i := by
  unfold byteBit
  rw [UInt8.toNat_xor, Nat.testBit_xor]
  cases x.toNat.testBit i <;> cases y.toNat.testBit i <;> decide

/-- The bits of a double: those of the byte, one place on, and those of
the modulus where the top one fell out. -/
theorem byteBit_double (x : UInt8) : ∀ i : Fin 8,
    byteBit (gfDouble x) i = (if i = 0 then 0 else byteBit x (i - 1))
      + byteBit x 7 * (if i ∈ [0, 1, 3, 4] then 1 else 0) := by
  apply forall_byte (P := fun x => ∀ i : Fin 8, byteBit (gfDouble x) i
    = (if i = 0 then 0 else byteBit x (i - 1))
      + byteBit x 7 * (if i ∈ [0, 1, 3, 4] then 1 else 0))
  decide +kernel

/-- The bits of a byte shifted right. -/
theorem byteBit_shift (y : UInt8) : ∀ i : Fin 8,
    byteBit (y >>> 1) i = if i = 7 then 0 else byteBit y (i + 1) := by
  apply forall_byte (P := fun y => ∀ i : Fin 8,
    byteBit (y >>> 1) i = if i = 7 then 0 else byteBit y (i + 1))
  decide +kernel

-- ================================================================ additive

/-- Exclusive or adds the polynomials. -/
theorem bytePoly_xor (x y : UInt8) :
    bytePoly (x ^^^ y) = bytePoly x + bytePoly y := by
  unfold bytePoly
  rw [← Finset.sum_add_distrib]
  apply Finset.sum_congr rfl
  intro i _
  rw [byteBit_xor, C_add, add_mul]

/-- The byte zero is the zero polynomial. -/
theorem bytePoly_zero : bytePoly 0 = 0 := by
  unfold bytePoly
  apply Finset.sum_eq_zero
  intro i _
  have hbit : byteBit 0 i = 0 := by
    unfold byteBit
    rw [if_neg]
    simp
  rw [hbit, C_0, zero_mul]

/-- A byte's bits are the coefficients. -/
theorem bytePoly_coeff (x : UInt8) {i : Nat} (hi : i < 8) :
    (bytePoly x).coeff i = byteBit x i := by
  unfold bytePoly
  rw [finsetSum_coeff, Finset.sum_eq_single i]
  · simp
  · intro j _ hj
    rw [coeff_C_mul, coeff_X_pow, if_neg (Ne.symm hj), mul_zero]
  · intro hnot
    exact absurd (Finset.mem_range.2 hi) hnot

theorem bytePoly_degree (x : UInt8) :
    (bytePoly x).degree < gfModulus.degree := by
  have hmod : gfModulus.degree = (8 : Nat) := by
    rw [degree_eq_natDegree gfModulus_monic.ne_zero, gfModulus_natDegree]
  rw [hmod, degree_lt_iff_coeff_zero]
  intro i hi
  unfold bytePoly
  rw [finsetSum_coeff]
  apply Finset.sum_eq_zero
  intro j hj
  have hne : i ≠ j := by
    have hlt := Finset.mem_range.1 hj
    omega
  rw [coeff_C_mul, coeff_X_pow, if_neg hne, mul_zero]

/-- A byte is its polynomial. -/
theorem bytePoly_inj {x y : UInt8} (h : bytePoly x = bytePoly y) : x = y := by
  apply UInt8.toNat_inj.1
  apply Nat.eq_of_testBit_eq
  intro i
  by_cases hi : i < 8
  · have hbit : byteBit x i = byteBit y i := by
      rw [← bytePoly_coeff x hi, ← bytePoly_coeff y hi, h]
    unfold byteBit at hbit
    cases hx : x.toNat.testBit i <;> cases hy : y.toNat.testBit i
    · rfl
    · rw [hx, hy] at hbit
      exact absurd hbit (by decide)
    · rw [hx, hy] at hbit
      exact absurd hbit (by decide)
    · rfl
  · have hpow : 2 ^ 8 ≤ 2 ^ i := Nat.pow_le_pow_right (by omega) (by omega)
    rw [Nat.testBit_lt_two_pow (Nat.lt_of_lt_of_le x.toNat_lt hpow),
      Nat.testBit_lt_two_pow (Nat.lt_of_lt_of_le y.toNat_lt hpow)]

-- ========================================================== multiplicative

/-- The eight terms of a byte's polynomial. -/
theorem bytePoly_eq (x : UInt8) :
    bytePoly x = C (byteBit x 0) + C (byteBit x 1) * X
      + C (byteBit x 2) * X ^ 2 + C (byteBit x 3) * X ^ 3
      + C (byteBit x 4) * X ^ 4 + C (byteBit x 5) * X ^ 5
      + C (byteBit x 6) * X ^ 6 + C (byteBit x 7) * X ^ 7 := by
  unfold bytePoly
  simp only [Finset.sum_range_succ, Finset.sum_range_zero, pow_zero, pow_one,
    mul_one, zero_add]

/-- Doubling is the product with `x`, less the modulus if it grew. -/
theorem bytePoly_double (x : UInt8) :
    bytePoly (gfDouble x)
      = X * bytePoly x + C (byteBit x 7) * gfModulus := by
  have h := byteBit_double x
  have h0 : byteBit (gfDouble x) 0 = byteBit x 7 := by simpa using h 0
  have h1 : byteBit (gfDouble x) 1 = byteBit x 0 + byteBit x 7 := by
    simpa using h 1
  have h2 : byteBit (gfDouble x) 2 = byteBit x 1 := by simpa using h 2
  have h3 : byteBit (gfDouble x) 3 = byteBit x 2 + byteBit x 7 := by
    simpa using h 3
  have h4 : byteBit (gfDouble x) 4 = byteBit x 3 + byteBit x 7 := by
    simpa using h 4
  have h5 : byteBit (gfDouble x) 5 = byteBit x 4 := by simpa using h 5
  have h6 : byteBit (gfDouble x) 6 = byteBit x 5 := by simpa using h 6
  have h7 : byteBit (gfDouble x) 7 = byteBit x 6 := by simpa using h 7
  rw [bytePoly_eq, bytePoly_eq, h0, h1, h2, h3, h4, h5, h6, h7, gfModulus]
  simp only [C_add]
  -- the top bit's `x ^ 8` comes twice
  have htwo : (2 : (ZMod 2)[X]) = 0 := CharTwo.two_eq_zero
  linear_combination (-(C (byteBit x 7) * X ^ 8)) * htwo

/-- A byte is its lowest bit and `x` times the rest. -/
theorem bytePoly_shift (y : UInt8) :
    bytePoly y = C (byteBit y 0) + X * bytePoly (y >>> 1) := by
  have h := byteBit_shift y
  have h0 : byteBit (y >>> 1) 0 = byteBit y 1 := by simpa using h 0
  have h1 : byteBit (y >>> 1) 1 = byteBit y 2 := by simpa using h 1
  have h2 : byteBit (y >>> 1) 2 = byteBit y 3 := by simpa using h 2
  have h3 : byteBit (y >>> 1) 3 = byteBit y 4 := by simpa using h 3
  have h4 : byteBit (y >>> 1) 4 = byteBit y 5 := by simpa using h 4
  have h5 : byteBit (y >>> 1) 5 = byteBit y 6 := by simpa using h 5
  have h6 : byteBit (y >>> 1) 6 = byteBit y 7 := by simpa using h 6
  have h7 : byteBit (y >>> 1) 7 = 0 := by simpa using h 7
  rw [bytePoly_eq y, bytePoly_eq (y >>> 1), h0, h1, h2, h3, h4, h5, h6, h7]
  simp only [C_0]
  ring

-- ================================================================== classes

/-- Exclusive or is the field's addition. -/
theorem gfVal_xor (x y : UInt8) : gfVal (x ^^^ y) = gfVal x + gfVal y := by
  unfold gfVal
  rw [bytePoly_xor, map_add]

theorem gfVal_zero : gfVal 0 = 0 := by
  unfold gfVal
  rw [bytePoly_zero, map_zero]

/-- Doubling is multiplication by the root. -/
theorem gfVal_double (x : UInt8) :
    gfVal (gfDouble x) = AdjoinRoot.root gfModulus * gfVal x := by
  unfold gfVal
  rw [bytePoly_double, map_add, map_mul, map_mul, AdjoinRoot.mk_X,
    AdjoinRoot.mk_self, mul_zero, add_zero]

/-- A byte is its lowest bit, and the root times what is above. -/
theorem gfVal_shift (y : UInt8) :
    gfVal y = AdjoinRoot.of gfModulus (byteBit y 0)
      + AdjoinRoot.root gfModulus * gfVal (y >>> 1) := by
  unfold gfVal
  rw [bytePoly_shift, map_add, map_mul, AdjoinRoot.mk_X, AdjoinRoot.mk_C]

/-- A byte is its class. -/
theorem gfVal_inj {x y : UInt8} (h : gfVal x = gfVal y) : x = y := by
  apply bytePoly_inj
  have hdvd : gfModulus ∣ bytePoly x - bytePoly y := AdjoinRoot.mk_eq_mk.1 h
  have hdeg : (bytePoly x - bytePoly y).degree < gfModulus.degree :=
    (degree_sub_le _ _).trans_lt
      (max_lt (bytePoly_degree x) (bytePoly_degree y))
  have hzero : bytePoly x - bytePoly y = 0 :=
    eq_zero_of_dvd_of_degree_lt hdvd hdeg
  exact sub_eq_zero.1 hzero

/-- Doubling `i` times is multiplication by the root's power. -/
theorem gfVal_iterate (x : UInt8) (i : Nat) :
    gfVal (gfDouble^[i] x) = AdjoinRoot.root gfModulus ^ i * gfVal x := by
  induction i with
  | zero => rw [Function.iterate_zero_apply, pow_zero, one_mul]
  | succ i ih => rw [Function.iterate_succ_apply', gfVal_double, ih, pow_succ',
      mul_assoc]

/-- The product of the classes. -/
theorem gfVal_mul (x y : UInt8) : gfVal (gfMul x y) = gfVal x * gfVal y := by
  have hsum : ∀ n, gfVal ((List.range n).foldl
      (fun r i => if y.toNat.testBit i then r ^^^ gfDouble^[i] x else r) 0)
      = gfVal x * ∑ i ∈ Finset.range n,
        AdjoinRoot.of gfModulus (byteBit y i)
          * AdjoinRoot.root gfModulus ^ i := by
    intro n
    induction n with
    | zero => simp [gfVal_zero]
    | succ n ih =>
        rw [List.range_succ, List.foldl_append, Finset.sum_range_succ, mul_add,
          ← ih, List.foldl_cons, List.foldl_nil]
        unfold byteBit
        cases y.toNat.testBit n with
        | true =>
            simp only [if_true, gfVal_xor, gfVal_iterate, map_one, one_mul]
            rw [mul_comm (gfVal x)]
        | false => simp
  have hval : gfVal y = ∑ i ∈ Finset.range 8,
      AdjoinRoot.of gfModulus (byteBit y i)
        * AdjoinRoot.root gfModulus ^ i := by
    unfold gfVal bytePoly
    simp only [map_sum, map_mul, map_pow, AdjoinRoot.mk_X, AdjoinRoot.mk_C]
  rw [gfMul, hsum 8, ← hval]

/-- The product of the polynomials modulo `gfModulus`. -/
theorem bytePoly_mul (x y : UInt8) :
    bytePoly (gfMul x y) = (bytePoly x * bytePoly y) %ₘ gfModulus := by
  have hdvd : gfModulus ∣ bytePoly (gfMul x y) - bytePoly x * bytePoly y := by
    refine AdjoinRoot.mk_eq_mk.1 ?_
    rw [map_mul]
    exact gfVal_mul x y
  have hmod := (modByMonic_eq_self_iff gfModulus_monic).2
    (bytePoly_degree (gfMul x y))
  rw [← hmod]
  exact modByMonic_eq_of_dvd_sub gfModulus_monic hdvd

-- ===================================================================== laws

@[simp] theorem one_gfMul (x : UInt8) : gfMul 1 x = x := by
  revert x
  apply forall_byte
  decide +kernel

end Rtw88
