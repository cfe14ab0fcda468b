/-
`buildAssocReq` as it is written: store by store, through the pointer
`body`, into the buffer of its caller. Nothing checks the end of the
buffer; `doAssociate` provides 256 bytes of zeros.

Model/Tx.lean has the bytes that come of it.
-/
import Rtw88.Lib.Out
import Rtw88.Model.Tx

namespace Rtw88

variable (hw : Hw)

/-- `uint8_t assoc[256]` of `doAssociate`. -/
def assocSize : Nat := 256

/-- The header, in the members of `struct ieee80211_hdr_3addr`. -/
def putAssocHdr (s : Mlme) (o : Out) : Out :=
  let o := o.set 0 (le16 (ftypeMgmt ||| stypeAssocReq))
  let o := o.set 2 (le16 0)
  let o := o.set 4 s.targetBSS.bssid.toList
  let o := o.set 10 hw.macAddr.toList
  let o := o.set 16 s.targetBSS.bssid.toList
  let o := o.set 22 (le16 (seqField s.txSeq))
  o.advance 24

/-- Capability information and listen interval. -/
def putAssocFixed (s : Mlme) (o : Out) : Out :=
  let cap : UInt16 := if s.wpa2 then 0x0431 ||| 0x0010 else 0x0431
  let o := o.set 0 [(cap &&& 0xff).toUInt8]
  let o := o.set 1 [(cap >>> 8).toUInt8]
  let o := o.set 2 [10]
  let o := o.set 3 [0]
  o.advance 4

/-- An element copied as a whole:
`body[0] = id; body[1] = len; memcpy(body + 2, data, n); body += 2 + n`. -/
def putElem (id len : UInt8) (data : List UInt8) (n : Nat) (o : Out) : Out :=
  let o := o.set 0 [id]
  let o := o.set 1 [len]
  let o := o.set 2 data
  o.advance (2 + n)

/-- The HT Capabilities element. -/
def putHtCap (ht : HtCap) (width : UInt8) (o : Out) : Out :=
  let o := o.set 0 [eidHtCapability]
  let o := o.set 1 [26]
  let htcap := if width < 40 then narrowHtCap ht.cap else ht.cap
  let o := o.set (2 + 0) [(htcap &&& 0xff).toUInt8]
  let o := o.set (2 + 1) [(htcap >>> 8).toUInt8]
  let o := o.set (2 + 2) [(ht.ampduFactor &&& (0x3 : UInt8))
    ||| ((ht.ampduDensity &&& (0x7 : UInt8)) <<< (2 : UInt8))]
  let o := o.set (2 + 3) ht.rxMask.toList
  let o := o.set (2 + 13) [(ht.rxHighest &&& 0xff).toUInt8]
  let o := o.set (2 + 14) [((ht.rxHighest >>> 8) &&& 0xff).toUInt8]
  let o := o.set (2 + 15) [(ht.txParams &&& 0xff).toUInt8]
  let o := o.set (2 + 16) (List.replicate 10 0)
  o.advance (2 + 26)

/-- The VHT Capabilities element. -/
def putVhtCap (vht : VhtCap) (o : Out) : Out :=
  let o := o.set 0 [eidVhtCapability]
  let o := o.set 1 [12]
  let o := o.set (2 + 0) [(vht.cap &&& 0xff).toUInt8]
  let o := o.set (2 + 1) [((vht.cap >>> 8) &&& 0xff).toUInt8]
  let o := o.set (2 + 2) [((vht.cap >>> 16) &&& 0xff).toUInt8]
  let o := o.set (2 + 3) [((vht.cap >>> 24) &&& 0xff).toUInt8]
  let rxmap := vht.rxMcsMap.toUInt16
  let txmap := vht.txMcsMap.toUInt16
  let o := o.set (2 + 4) [(rxmap &&& 0xff).toUInt8]
  let o := o.set (2 + 5) [(rxmap >>> 8).toUInt8]
  let o := o.set (2 + 6) [(vht.rxHighest &&& 0xff).toUInt8]
  let o := o.set (2 + 7) [(vht.rxHighest >>> 8).toUInt8]
  let o := o.set (2 + 8) [(txmap &&& 0xff).toUInt8]
  let o := o.set (2 + 9) [(txmap >>> 8).toUInt8]
  let o := o.set (2 + 10) [(vht.txHighest &&& 0xff).toUInt8]
  let o := o.set (2 + 11) [(vht.txHighest >>> 8).toUInt8]
  o.advance (2 + 12)

/-- `buildAssocReq` into the buffer at `buf`: the memory after it, `*len`,
and the state with `_txSeq` advanced. -/
def buildAssocReqMem (s : Mlme) (m : Memory) (buf : Nat) :
    Memory × Nat × Mlme :=
  let is5g : Bool := 14 < s.targetBSS.channel
  let o := putAssocHdr hw s { mem := m, p := buf }
  let o := putAssocFixed s o
  let o := putElem eidSsid s.targetBSS.ssidLen
    (s.targetBSS.ssid.toList.take s.targetBSS.ssidLen.toNat)
    s.targetBSS.ssidLen.toNat o
  let rates := if is5g then rates5g else rates2g
  let o := putElem eidSuppRates (UInt8.ofNat rates.length) rates
    rates.length o
  let o := if is5g then o
    else putElem eidExtSuppRates (UInt8.ofNat extRates2g.length) extRates2g
      extRates2g.length o
  let o := match hw.bands (targetBand s) with
    | some sband =>
        if htAllowed s && sband.htCap.htSupported
        then putHtCap sband.htCap s.connChanWidth o else o
    | none => o
  let o := match hw.bands (targetBand s) with
    | some sband =>
        if htAllowed s && targetBand s == Band.ghz5 && sband.vhtCap.vhtSupported
        then putVhtCap sband.vhtCap o else o
    | none => o
  let o := (o.set 0 wmeInfo).advance wmeInfo.length
  let o := if s.wpa2
    then
      let rsn := rtw88BuildSelectedRsnIe s.targetBSS.groupCipher
      (o.set 0 rsn).advance rsn.length
    else o
  (o.mem, o.p - buf, { s with txSeq := s.txSeq + 1 })

end Rtw88
