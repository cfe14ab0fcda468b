/-
`rtw88RsnSelectCcmpPsk` with its output parameters.

Model/Wire.lean answers with the two suites; here they are stored where
the caller wants them, and each `return` hands back what the caller's
variables hold then.
-/
import Rtw88.Model.Wire

namespace Rtw88

/-- `*pairwise_cipher` and `*group_cipher`; `none` for a null pointer. -/
structure RsnOut where
  pairwiseCipher : Option UInt32
  groupCipher : Option UInt32
  deriving DecidableEq, Repr

/-- Store through the pointers that are not null. -/
def RsnOut.store (out : RsnOut) (pairwise group : UInt32) : RsnOut :=
  { pairwiseCipher := out.pairwiseCipher.map fun _ => pairwise
    groupCipher := out.groupCipher.map fun _ => group }

/-- `rtw88RsnSelectCcmpPsk`. -/
def rtw88RsnSelectCcmpPskOut (rsn : List UInt8) (out : RsnOut) :
    Bool × RsnOut :=
  let len := rsn.length
  if len < 8 then (false, out)
  else
    let group := rtw88ReadSuite rsn 2
    let pairwiseCount := (le16At rsn 6).toNat
    let akms := 8 + pairwiseCount * 4
    if len < akms then (false, out)
    else
      let hasCcmp := (List.range pairwiseCount).any fun i =>
        rtw88ReadSuite rsn (8 + i * 4) == cipherCcmp
      if len < akms + 2 then (false, out)
      else
        let akmCount := (le16At rsn akms).toNat
        if len < akms + 2 + akmCount * 4 then (false, out)
        else
          let hasPsk := (List.range akmCount).any fun i =>
            rtw88ReadSuite rsn (akms + 2 + i * 4) == akmPsk
          if !hasCcmp || !hasPsk then (false, out)
          else
            let group := if group ≠ cipherCcmp ∧ group ≠ cipherTkip
              then cipherCcmp else group
            (true, out.store cipherCcmp group)

end Rtw88
