/-
The averages of compat/linux/average.h: what `DECLARE_EWMA` expands to
for one name.

A shift by 64 or more is not defined in C; there a function has no
result.
-/
import Rtw88.Lib.ULong

namespace Rtw88

/-- The macro's arguments: a precision below 30 and a power of two. -/
structure DeclareEwma where
  precision : ULong
  weightRcp : ULong
  precision_lt : precision.toNat < 30
  weightRcp_pow : ∃ k, weightRcp.toNat = 2 ^ k

namespace DeclareEwma

variable (d : DeclareEwma)

/-- `ewma_*_init`. -/
def init : ULong := 0

/-- `ewma_*_read`. -/
def read (internal : ULong) : Option ULong := ULong.shr internal d.precision

/-- `ewma_*_add`: what it stores. -/
def add (internal val : ULong) : Option ULong :=
  if internal = 0 then ULong.shl val d.precision
  else do
    let old ← ULong.shr internal d.weightRcp
    let new ← ULong.shl val (d.precision - d.weightRcp)
    return internal - old + new

/-- The average after some samples, from `init` on. -/
def addAll (samples : List ULong) : Option ULong :=
  samples.foldlM d.add init

end DeclareEwma

end Rtw88
