/-
The channel definition of a link, and when it contains the AP's primary
channel.
-/
import Rtw88.Model.Scan

namespace Rtw88

/-- The definition programmed agrees with `_connChanWidth`, and the
primary channel lies in the block on the channel raster. -/
def PrimaryInside (chan : Channel) (s : Mlme) : Prop :=
  let primary := chan.centerFreq.toUInt32
  let center := s.chandef.centerFreq1
  s.chandef.chan = some chan
    ∧ (s.connChanWidth = 20 ∧ s.chandef.width = .w20NoHt
        ∧ center = primary
      ∨ s.connChanWidth = 40 ∧ s.chandef.width = .w40
        ∧ (center = primary + 10 ∨ center = primary - 10)
      ∨ s.connChanWidth = 80 ∧ s.chandef.width = .w80
        ∧ (center = primary - 30 ∨ center = primary - 10
          ∨ center = primary + 10 ∨ center = primary + 30))

/-- A VHT Operation element that is long enough to be read. -/
def Elem.isVhtOperation (e : Elem) : Bool :=
  e.id == eidVhtOperation && decide (3 ≤ e.body.length)

/-- The last one of an element block, which is the one that counts. -/
def lastVhtOperation (ies : List UInt8) : Option Elem :=
  (elems ies).reverse.find? Elem.isVhtOperation

/-- The link may use 80 MHz: HT is allowed, and the chip has it on the
target's band. -/
def Allows80 (hw : Hw) (s : Mlme) : Prop :=
  htAllowed s = true ∧ targetBand s = .ghz5
    ∧ ∃ sb, hw.bands (targetBand s) = some sb
      ∧ sb.htCap.cap &&& htCapSupWidth2040 ≠ 0
      ∧ sb.vhtCap.vhtSupported = true

/-- The element announces a block of 80 MHz with this centre channel. -/
def Announces80 (op : Elem) (seg0 : UInt8) : Prop :=
  peek op.body 0 = 1 ∧ peek op.body 1 = seg0 ∧ seg0 ≠ 0

/-- The four places of a primary channel in a block of 80 MHz around
channel `seg0`. -/
def OnRaster80 (chan : Channel) (seg0 : UInt8) : Prop :=
  let primary := chan.centerFreq.toUInt32
  let center : UInt32 := 5000 + 5 * seg0.toUInt32
  center = primary - 30 ∨ center = primary - 10
    ∨ center = primary + 10 ∨ center = primary + 30

end Rtw88
