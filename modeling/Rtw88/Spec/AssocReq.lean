/-
An association request as the AP reads it, and when it says what the
driver is told of the same link.
-/
import Rtw88.Model.Rx

namespace Rtw88

/-- The elements behind the header, the capabilities and the listen
interval. -/
def requestElems (frame : List UInt8) : List Elem := elems (frame.drop 28)

/-- The capability field. -/
def requestCap (frame : List UInt8) : UInt16 := le16At frame 24

/-- The Privacy bit of a capability field. -/
def capPrivacy : UInt16 := 0x0010

/-- There is an element with this id. -/
def HasElem (frame : List UInt8) (id : UInt8) : Prop :=
  ∃ e ∈ requestElems frame, e.id = id

/-- The request, and the station registered for a link of `width` MHz. -/
structure CapsAgree (frame : List UInt8) (width : UInt8) (sta : Sta) :
    Prop where
  ht_info : ∀ e ∈ requestElems frame, e.id = eidHtCapability →
    le16At e.body 0 = sta.htCap.cap
  width40 : (∃ e ∈ requestElems frame, e.id = eidHtCapability
    ∧ le16At e.body 0 &&& htCapSupWidth2040 ≠ 0) ↔ 40 ≤ width
  vht : HasElem frame eidVhtCapability ↔ sta.vhtCap.vhtSupported = true
  privacy : requestCap frame &&& capPrivacy ≠ 0 ↔ HasElem frame eidRsn

/-- The chip advertises what a link of 40 MHz or more is operated with. -/
structure WideCaps (sb : SupportedBand) : Prop where
  supported : sb.htCap.htSupported = true
  width40 : sb.htCap.cap &&& htCapSupWidth2040 ≠ 0
  sgi40 : sb.htCap.cap &&& htCapSgi40 ≠ 0

end Rtw88
