/-
What the scan list is in the bytes between the driver and rtw88ctl: the
bytes of an entry, the part of the list that a buffer has room for, and
the line an entry is shown as.
-/
import Rtw88.Model.BssIpc

namespace Rtw88

/-- The bytes of an entry. -/
def bssBytes (b : RTW88BSS) : List UInt8 :=
  [b.ssidLen] ++ ((grab b.ssid.toList 0 b.ssidLen.toNat).toList
    ++ (b.bssid.toList ++ (be16 b.rssi.toUInt16
      ++ ([b.channel] ++ le32 b.cipher))))

/-- The bytes of a list, without the total in front. -/
def listBytes (l : List RTW88BSS) : List UInt8 := l.flatMap bssBytes

/-- The list has room in `max` bytes, the total included. An empty list
needs none: a buffer too small for the total comes back empty. -/
def HasRoom (max : Nat) (l : List RTW88BSS) : Prop :=
  l = [] ∨ 4 + (listBytes l).length ≤ max

/-- The longest prefix of `l` that has room. -/
structure LongestPrefix (max : Nat) (l pre : List RTW88BSS) : Prop where
  isPrefix : pre <+: l
  room : HasRoom max pre
  longest : ∀ pre', pre' <+: l → HasRoom max pre' → pre' <+: pre

/-- The line shows the entry: its SSID and then zeros, and its other
fields. -/
structure Shows (b : RTW88BSS) (r : BssRow) : Prop where
  ssid_len : r.ssidLen = b.ssidLen
  ssid : r.ssid.toList = b.ssid.toList.take b.ssidLen.toNat
    ++ List.replicate (33 - b.ssidLen.toNat) 0
  bssid : r.bssid = b.bssid
  rssi : r.rssi = b.rssi
  channel : r.ch = b.channel
  cipher : r.cipher = b.cipher
  sec : r.sec = security b.cipher

end Rtw88
