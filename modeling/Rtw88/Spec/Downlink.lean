/-
Data frames as the AP sends them down to a station.

The frame control says what is in a header: QoS control in the QoS
subtypes, and behind it HT Control when the Order bit is set in one of
these; a CCMP header when the frame is protected. The A-MSDU bit of the
QoS control says what the body is.
-/
import Rtw88.Spec.Amsdu
import Rtw88.Model.Tx

namespace Rtw88

/-- `IEEE80211_FCTL_ORDER`. -/
def fctlOrder : UInt16 := 0x8000

/-- The header of a data frame from the DS with three addresses, with
what stands in the fields that a frame may not have. -/
structure DownHdr where
  fc : UInt16
  duration : UInt16
  addr1 : Bytes 6
  addr2 : Bytes 6
  addr3 : Bytes 6
  seq : UInt16
  qosCtl : Bytes 2
  htc : Bytes 4
  pn : Bytes 6
  keyidx : UInt8
  data : isData fc = true
  fromDs : fc &&& (fctlToDs ||| fctlFromDs) = fctlFromDs

namespace DownHdr

/-- A QoS subtype: QoS control is there. -/
def hasQos (h : DownHdr) : Bool := h.fc &&& stypeQosData != 0

/-- HT Control is there. -/
def hasHtc (h : DownHdr) : Bool := h.hasQos && h.fc &&& fctlOrder != 0

/-- The body is an A-MSDU. -/
def aggregates (h : DownHdr) : Bool :=
  h.hasQos && peek h.qosCtl.toList 0 &&& 0x80 != 0

/-- The header up to HT Control. -/
def bytes (h : DownHdr) : List UInt8 :=
  le16 h.fc ++ (le16 h.duration ++ (h.addr1.toList ++ (h.addr2.toList
    ++ (h.addr3.toList ++ (le16 h.seq
    ++ ((if h.hasQos then h.qosCtl.toList else [])
    ++ (if h.hasHtc then h.htc.toList else [])))))))

/-- The CCMP header of a protected frame, unless the driver took it
out. -/
def ccmp (h : DownHdr) (left : Bool) : List UInt8 :=
  if hasProtected h.fc && left then ccmpHdr h.pn h.keyidx else []

/-- The frame as the driver hands it up. -/
def frame (h : DownHdr) (left : Bool) (body : List UInt8) : List UInt8 :=
  h.bytes ++ (h.ccmp left ++ body)

/-- The four bytes in front of the body of a frame with HT Control:
these, or the end of the CCMP header. -/
def lead (h : DownHdr) : List UInt8 :=
  if hasProtected h.fc then (ccmpHdr h.pn h.keyidx).drop 4 else h.htc.toList

end DownHdr

-- ================================================================== bodies

/-- The body of a data frame, an A-MSDU or not. -/
inductive DownBody : Bool → Type
  /-- One LLC/SNAP MSDU. -/
  | msdu (body : List UInt8) (long : 8 ≤ body.length)
      (snap : [0xAA, 0xAA, 0x03] <+: body) : DownBody false
  /-- Subframes with LLC/SNAP MSDUs. -/
  | amsdu (ms : List (Msdu × Bytes 3)) (snap : ∀ m ∈ ms, m.1.IsLlcSnap) :
      DownBody true

/-- Its bytes. -/
def DownBody.bytes {agg : Bool} : DownBody agg → List UInt8
  | msdu body _ _ => body
  | amsdu ms _ => Rtw88.amsdu ms

/-- The MSDUs of a frame with this header and body. -/
def DownBody.frames {agg : Bool} (h : DownHdr) : DownBody agg → List EthFrame
  | msdu body _ _ =>
      [{ da := h.addr1, sa := h.addr3, ethertype := be16At body 6
         payload := body.drop 8 }]
  | amsdu ms _ => ms.map fun m => m.1.frame

/-- The ranges that matter of the subframes from `pos` on: addresses,
length and the start of LLC/SNAP; ethertype and payload. -/
def checkedRanges : Nat → List (Msdu × Bytes 3) → List (Nat × Nat)
  | _, [] => []
  | pos, (m, _) :: ms =>
      (pos, 17) :: (pos + 20, m.body.length - 6)
        :: checkedRanges (pos + (14 + m.body.length + 3) / 4 * 4) ms

/-- The body is an A-MSDU that repeats itself: with `lead` in front, four
bytes late, it shows the same addresses, lengths, ethertypes and
payloads in the same places. -/
def DownBody.Echoes {agg : Bool} (lead : List UInt8) : DownBody agg → Prop
  | msdu _ _ _ => False
  | amsdu ms _ => ∀ r ∈ checkedRanges 0 ms,
      ((lead ++ Rtw88.amsdu ms).drop r.1).take r.2
        = ((Rtw88.amsdu ms).drop r.1).take r.2

-- ============================================================ the same MSDU

/-- Two headers for one MSDU, its own and that of an A-MSDU: QoS data
without HT Control, both protected or neither. -/
structure DownHdr.Carry (h h' : DownHdr) (m : Msdu) : Prop where
  qos : h.hasQos = true
  qos' : h'.hasQos = true
  noHtc : h.hasHtc = false
  noHtc' : h'.hasHtc = false
  single : h.aggregates = false
  aggregates : h'.aggregates = true
  prot : hasProtected h.fc = hasProtected h'.fc
  da : h.addr1 = m.da
  sa : h.addr3 = m.sa

/-- The first eight bytes of the subframe look like what precedes another
subframe in it: the body starts with the source again and the length of
what follows it, an LLC/SNAP MSDU; and the destination is what stands in
front of that source. -/
structure Msdu.Nests (m : Msdu) : Prop where
  noSnap : ¬ m.IsLlcSnap
  inner : 16 ≤ m.body.length
  snap : [0xAA, 0xAA, 0x03] <+: m.body.drop 8
  length : (be16At m.body 6).toNat = m.body.length - 8
  da : m.da.toList = m.sa.toList.drop 2 ++ be16 (UInt16.ofNat m.body.length)
  sa : m.sa.toList = m.body.take 6

end Rtw88
