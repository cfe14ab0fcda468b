/-
`sConnect` and `cmdConnect` on the caller's memory.

`RTW88ConnectArgs` is `char ssid[33]` and `char password[64]`; what lies
behind it in memory is not the caller's. `cmdConnect` gets two pointers
into it and treats both as C strings. The routines are `Traced`, over the
block and what lies behind; what they compute is what Model/Connect.lean
says (`connectTo`).
-/
import Rtw88.Lib.Access
import Rtw88.Model.Connect

namespace Rtw88

open Traced

/-- `sizeof(RTW88ConnectArgs)`, and where `password` starts in it. -/
def connectArgsSize : Nat := 97
def passwordOff : Nat := 33

/-- `strlen` from offset `i`, looking at no more than `k` bytes. -/
def strlenFrom (d : List UInt8) : Nat → Nat → Traced Nat
  | 0, _ => pure 0
  | k + 1, i => do
      let c ← readByte 0 d i
      if c = 0 then pure 0
      else do
        let n ← strlenFrom d k (i + 1)
        pure (n + 1)

/-- `strlen(d + i)`. -/
def strlenAt (d : List UInt8) (i : Nat) : Traced Nat :=
  strlenFrom d (d.length + 1 - i) i

/-- `strlcpy(dst, d + i, size)`: the string it leaves in `dst`. It asks
for the length of the source whatever fits. -/
def strlcpyAt (d : List UInt8) (i size : Nat) : Traced (List UInt8) := do
  let n ← strlenAt d i
  let bytes ← copy 0 d i (min n (size - 1))
  pure bytes.toList

/-- The search of `cmdConnect`. -/
def findBssAt (d : List UInt8) :
    List RTW88BSS → Traced (Option RTW88BSS)
  | [] => pure none
  | b :: bs => do
      let n ← strlenAt d 0
      if (cStr b.ssid.toList).length = n then do
        let bytes ← copy 0 d 0 n
        if b.ssid.toList.take n = bytes.toList then pure (some b)
        else findBssAt d bs
      else findBssAt d bs

/-- `cmdConnect` once no scan is in its way, on the memory `d`. -/
def cmdConnectAt (d : List UInt8) (s : Mlme) :
    Traced (IOReturn × Bool × Mlme) :=
  if s.state ≠ .idle then pure (.busy, false, s)
  else do
    let s := releaseSta (clearKeys s)
    match ← findBssAt d s.bssList with
    | none => pure (.notFound, false, s)
    | some target => do
        let password ← strlcpyAt d passwordOff 64
        pure (.success, true,
          (setTarget target password s).emit (.connecting target password))

/-- `sConnect` with the object attached: `structureInput` and what lies
behind it. -/
def sConnect (structureInput : Option (List UInt8)) (behind : List UInt8)
    (s : Mlme) : Traced (IOReturn × Bool × Mlme) :=
  match structureInput with
  | none => pure (.badArgument, false, s)
  | some args =>
      if args.length < connectArgsSize then pure (.badArgument, false, s)
      else cmdConnectAt (args ++ behind) s

end Rtw88
