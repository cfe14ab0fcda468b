/-
The body of an RSN element, by its fields.
-/
import Rtw88.Model.Scan

namespace Rtw88

/-- Version, group suite, counted pairwise and AKM suites, and whatever
follows. -/
structure RsnBody where
  version : Bytes 2
  group : UInt32
  pairwise : List UInt32
  akms : List UInt32
  rest : List UInt8
  pairwise_count : pairwise.length < 2 ^ 16
  akms_count : akms.length < 2 ^ 16

/-- Its bytes. -/
def RsnBody.bytes (r : RsnBody) : List UInt8 :=
  r.version.toList ++ (rtw88WriteSuite r.group
    ++ (le16 (UInt16.ofNat r.pairwise.length)
    ++ (r.pairwise.flatMap rtw88WriteSuite
    ++ (le16 (UInt16.ofNat r.akms.length)
    ++ (r.akms.flatMap rtw88WriteSuite ++ r.rest)))))

/-- The element with this body. -/
def RsnBody.element (r : RsnBody) : List UInt8 :=
  eidRsn :: UInt8.ofNat r.bytes.length :: r.bytes

/-- CCMP with PSK is among what it offers. -/
structure RsnBody.OffersCcmpPsk (r : RsnBody) : Prop where
  ccmp : cipherCcmp ∈ r.pairwise
  psk : akmPsk ∈ r.akms

/-- `elem` is an RSN element that asks the AP whose element has this body
for what it offers: its group suite, and pairwise and AKM suites of its
lists, at least one of each. -/
def Negotiated (rsn elem : List UInt8) : Prop :=
  ∃ ap own : RsnBody, rsn = ap.bytes ∧ elem = own.element
    ∧ own.group = ap.group
    ∧ own.pairwise ≠ [] ∧ own.pairwise ⊆ ap.pairwise
    ∧ own.akms ≠ [] ∧ own.akms ⊆ ap.akms

end Rtw88
