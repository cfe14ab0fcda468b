/-
`unsigned long` with 64 bits, and its shifts.

C defines a shift only by less than the width, so `shl` and `shr` are
partial; `shl_eq` and `shr_eq` say in numbers what they give.
-/
import Mathlib.Algebra.Ring.Nat

namespace Rtw88

/-- `unsigned long`. -/
abbrev ULong := BitVec 64

namespace ULong

/-- `x << n`. -/
def shl (x n : ULong) : Option ULong :=
  if n.toNat < 64 then some (x <<< n.toNat) else none

/-- `x >> n`. -/
def shr (x n : ULong) : Option ULong :=
  if n.toNat < 64 then some (x >>> n.toNat) else none

variable {x n y : ULong}

/-- Counting up, before the last number. -/
theorem toNat_succ (h : x.toNat + 1 < 2 ^ 64) :
    (x + 1).toNat = x.toNat + 1 := by
  have hone : (1 : ULong).toNat = 1 := rfl
  rw [BitVec.toNat_add, hone, Nat.mod_eq_of_lt h]

/-- No bit lost, a shift to the left multiplies. -/
theorem shl_eq (hn : n.toNat < 64) (hx : x.toNat * 2 ^ n.toNat < 2 ^ 64) :
    ∃ y, shl x n = some y ∧ y.toNat = x.toNat * 2 ^ n.toNat := by
  refine ⟨x <<< n.toNat, if_pos hn, ?_⟩
  rw [BitVec.toNat_shiftLeft, Nat.shiftLeft_eq, Nat.mod_eq_of_lt hx]

/-- A shift to the right divides. -/
theorem shr_eq (hn : n.toNat < 64) :
    ∃ y, shr x n = some y ∧ y.toNat = x.toNat / 2 ^ n.toNat := by
  refine ⟨x >>> n.toNat, if_pos hn, ?_⟩
  rw [BitVec.toNat_ushiftRight, Nat.shiftRight_eq_div_pow]

theorem shl_none (hn : 64 ≤ n.toNat) : shl x n = none :=
  if_neg (Nat.not_lt.2 hn)

end ULong

end Rtw88
