/-
What a moving average should be after each sample, and the sample
sequences on which `DECLARE_EWMA` makes it so.

`weight_rcp` is the reciprocal of the weight that a new sample has in the
average. A sample is small if moving it up by the precision loses no bit.
-/
import Rtw88.Model.Average

namespace Rtw88

/-- `q` is the quotient of `n` by `d`, rounded up or down. -/
def Rounds (q n d : Nat) : Prop := d * q < n + d ∧ n < d * q + d

namespace DeclareEwma

variable (d : DeclareEwma)

/-- No sample is too large for the precision. -/
def Small (samples : List ULong) : Prop :=
  ∀ v ∈ samples, v.toNat * 2 ^ d.precision.toNat < 2 ^ 64

/-- Adding `v` behind the samples `us` goes right: every shift is defined,
the new sample comes in with its weight, and the value read is between any
bounds of the samples, up to one unit, and theirs when they are all the
same. -/
structure AddsRight (us : List ULong) (v : ULong) (old new value : ULong) :
    Prop where
  before : d.addAll us = some old
  added : d.add old v = some new
  read : d.read new = some value
  average : old ≠ 0 →
    Rounds new.toNat ((d.weightRcp.toNat - 1) * old.toNat
      + v.toNat * 2 ^ d.precision.toNat) d.weightRcp.toNat
  between : ∀ lo hi : Nat,
    (∀ u ∈ us ++ [v], lo ≤ u.toNat ∧ u.toNat ≤ hi) →
      lo ≤ value.toNat + 1 ∧ value.toNat ≤ hi + 1
  constant : ∀ c, (∀ u ∈ us ++ [v], u = c) → value = c

/-- Every sample of the sequence is added right. -/
def Averages (samples : List ULong) : Prop :=
  ∀ us v, us ++ [v] <+: samples →
    ∃ old new value, d.AddsRight us v old new value

/-- Behind the zeros that lead, the sequence stays at one sample, which
comes once only if the weight's reciprocal is above the precision. -/
def Steady : List ULong → Prop
  | [] => True
  | v :: vs =>
      if v = 0 then Steady vs
      else ∀ u ∈ vs, d.weightRcp ≤ d.precision ∧ u = v

instance decidableSteady : DecidablePred d.Steady
  | [] => inferInstanceAs (Decidable True)
  | v :: vs =>
      have := decidableSteady vs
      have := List.decidableBAll
        (fun u => d.weightRcp ≤ d.precision ∧ u = v) vs
      inferInstanceAs (Decidable (if v = 0 then d.Steady vs else _))

end DeclareEwma

end Rtw88
