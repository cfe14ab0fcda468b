/-
A-MSDUs as IEEE 802.11 puts them together.

A subframe is destination, source, the length of the MSDU with the high
byte first, and the MSDU. Each but the last is padded to a multiple of
four bytes. Nothing is said about what the padding holds, so every MSDU
comes with three bytes of which the padding takes what it needs.
-/
import Rtw88.Model.Rx

namespace Rtw88

/-- An MSDU that fits a subframe: room for LLC/SNAP, and a length of 16
bits (an MSDU has 2304 bytes at most). -/
structure Msdu where
  da : Bytes 6
  sa : Bytes 6
  body : List UInt8
  long : 8 ≤ body.length
  fits : body.length < 2 ^ 16

/-- The body starts with an LLC/SNAP header. -/
def Msdu.IsLlcSnap (m : Msdu) : Prop := [0xAA, 0xAA, 0x03] <+: m.body

instance (m : Msdu) : Decidable m.IsLlcSnap :=
  inferInstanceAs (Decidable (_ <+: _))

/-- What is to reach the network stack of it. -/
def Msdu.frame (m : Msdu) : EthFrame :=
  { da := m.da, sa := m.sa, ethertype := be16At m.body 6
    payload := m.body.drop 8 }

/-- The subframe, without padding. -/
def Msdu.subframe (m : Msdu) : List UInt8 :=
  m.da.toList ++ (m.sa.toList
    ++ (be16 (UInt16.ofNat m.body.length) ++ m.body))

/-- What `n` bytes lack to a multiple of four. -/
def padLen (n : Nat) : Nat := (4 - n % 4) % 4

/-- The A-MSDU of a list of MSDUs. -/
def amsdu : List (Msdu × Bytes 3) → List UInt8
  | [] => []
  | [(m, _)] => m.subframe
  | (m, fill) :: ms =>
      m.subframe ++ fill.toList.take (padLen m.subframe.length) ++ amsdu ms

end Rtw88
