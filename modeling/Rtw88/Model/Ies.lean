/-
The element walk of `setConnectedChandef` as the loop is written: an
index into the cache of a scan entry, 16 bits wide like `ies_len`.
Model/Scan.lean walks the same elements with `elems`.
-/
import Rtw88.Model.Scan

namespace Rtw88

/-- From index `i`, at most `k` turns: the elements looked at, and the
index the loop ends with. The bodies are `d = ies + i + 2`, `len` long. -/
def iesWalkFrom (ies : List UInt8) (ielen : UInt16) :
    Nat → UInt16 → List Elem × UInt16
  | 0, i => ([], i)
  | k + 1, i =>
      if i.toNat + 2 ≤ ielen.toNat then
        let id := peek ies i.toNat
        let len := peek ies (i.toNat + 1)
        if ielen.toNat < i.toNat + 2 + len.toNat then ([], i)
        else
          let d := (ies.drop (i.toNat + 2)).take len.toNat
          let r := iesWalkFrom ies ielen k (i + (2 + len.toUInt16))
          ({ id := id, body := d } :: r.1, r.2)
      else ([], i)

/-- The loop over a cache; each turn takes at least two bytes. -/
def iesWalk (ies : List UInt8) (ielen : UInt16) : List Elem × UInt16 :=
  iesWalkFrom ies ielen (ielen.toNat + 1) 0

end Rtw88
