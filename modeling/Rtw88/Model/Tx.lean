/-
Frame transmission: the management frames the object builds itself, the
Ethernet-to-802.11 path `outputPacket`/`txDataFrame`, and the EAPOL-Key
frames of the handshake, which take the same path.

A builder returns the frame and the state with its counters advanced. A
frame reaches the driver as `Obs.tx`.
-/
import Rtw88.Model.Keys

namespace Rtw88

variable (hw : Hw) (env : Env)

-- ====================================================== management frames

/-- `txMgmtFrame`. -/
def txMgmtFrame (frame : List UInt8) (s : Mlme) : Mlme :=
  if !s.up || !env.mgmtSkb then s
  else
    s.emit (.tx
      { data := frame, flags := txCtlFirstFragment ||| txCtlNoAck
        sta := none, hwKey := none, protocol := none })

/-- `htAllowed`: HT, VHT and A-MPDU are off when TKIP is the pairwise
cipher. -/
def htAllowed (s : Mlme) : Bool := s.targetBSS.cipher != cipherTkip

/-- A management header to the target AP. -/
def mgmtHdr (stype seq : UInt16) (s : Mlme) : List UInt8 :=
  hdr3addr (ftypeMgmt ||| stype) s.targetBSS.bssid hw.macAddr
    s.targetBSS.bssid (seqField seq)

/-- `buildAuthReq`: open system, transaction 1. -/
def buildAuthReq (s : Mlme) : List UInt8 × Mlme :=
  (mgmtHdr hw stypeAuth s.txSeq s ++ [0, 0, 1, 0, 0, 0],
    { s with txSeq := s.txSeq + 1 })

/-- `rates_2g`, `rates_5g` and `ext_rates_2g`. -/
def rates2g : List UInt8 := [0x82, 0x84, 0x8b, 0x96, 0x0c, 0x12, 0x18, 0x24]
def rates5g : List UInt8 := [0x8c, 0x12, 0x98, 0x24, 0x30, 0x48, 0x60, 0x6c]
def extRates2g : List UInt8 := [0x30, 0x48, 0x60, 0x6c]

/-- The band the target is on. -/
def targetBand (s : Mlme) : Band :=
  if 14 < s.targetBSS.channel then .ghz5 else .ghz2

/-- `IEEE80211_HT_CAP_SUP_WIDTH_20_40`, `_SGI_40`, `_DSSSCCK40`. -/
def htCapSupWidth2040 : UInt16 := 0x0002
def htCapSgi40 : UInt16 := 0x0040
def htCapDssscck40 : UInt16 := 0x1000

/-- An HT capability word with the 40 MHz bits cleared. -/
def narrowHtCap (cap : UInt16) : UInt16 :=
  cap &&& ~~~ (htCapSupWidth2040 ||| htCapSgi40 ||| htCapDssscck40)

/-- The HT Capabilities element of an association request. -/
def htCapElem (ht : HtCap) (width : UInt8) : List UInt8 :=
  let cap := if width < 40 then narrowHtCap ht.cap else ht.cap
  [eidHtCapability, 26] ++ le16 cap
    ++ [(ht.ampduFactor &&& (0x3 : UInt8))
        ||| ((ht.ampduDensity &&& (0x7 : UInt8)) <<< (2 : UInt8))]
    ++ ht.rxMask.toList ++ le16 ht.rxHighest ++ [ht.txParams.toUInt8]
    ++ List.replicate 10 0

/-- The VHT Capabilities element of an association request. -/
def vhtCapElem (vht : VhtCap) : List UInt8 :=
  [eidVhtCapability, 12]
    ++ [vht.cap.toUInt8, (vht.cap >>> 8).toUInt8, (vht.cap >>> 16).toUInt8,
        (vht.cap >>> 24).toUInt8]
    ++ le16 vht.rxMcsMap.toUInt16 ++ le16 vht.rxHighest
    ++ le16 vht.txMcsMap.toUInt16 ++ le16 vht.txHighest

/-- `wme_info`. -/
def wmeInfo : List UInt8 :=
  [0xdd, 0x07, 0x00, 0x50, 0xf2, 0x02, 0x00, 0x01, 0x00]

/-- `buildAssocReq`. -/
def buildAssocReq (s : Mlme) : List UInt8 × Mlme :=
  let is5g : Bool := 14 < s.targetBSS.channel
  -- ESS, short preamble; privacy for encrypted APs
  let cap : UInt16 := if s.wpa2 then 0x0431 ||| 0x0010 else 0x0431
  let rates := if is5g then rates5g else rates2g
  let ht := match hw.bands (targetBand s) with
    | some sband =>
        if htAllowed s && sband.htCap.htSupported
        then htCapElem sband.htCap s.connChanWidth else []
    | none => []
  let vht := match hw.bands (targetBand s) with
    | some sband =>
        if htAllowed s && targetBand s == .ghz5 && sband.vhtCap.vhtSupported
        then vhtCapElem sband.vhtCap else []
    | none => []
  let frame := mgmtHdr hw stypeAssocReq s.txSeq s ++ le16 cap ++ [10, 0]
    ++ [eidSsid, s.targetBSS.ssidLen]
    ++ s.targetBSS.ssid.toList.take s.targetBSS.ssidLen.toNat
    ++ [eidSuppRates, UInt8.ofNat rates.length] ++ rates
    ++ (if is5g then [] else
        [eidExtSuppRates, UInt8.ofNat extRates2g.length] ++ extRates2g)
    ++ ht ++ vht ++ wmeInfo
    ++ (if s.wpa2 then rtw88BuildSelectedRsnIe s.targetBSS.groupCipher
        else [])
  (frame, { s with txSeq := s.txSeq + 1 })

/-- The deauthentication frame of `doDisconnect`. -/
def deauthFrame (s : Mlme) : List UInt8 :=
  hdr3addr (ftypeMgmt ||| stypeDeauth) s.targetBSS.bssid hw.macAddr
    s.targetBSS.bssid 0 ++ [reasonDeauthLeaving, 0]

-- =============================================================== BlockAck

/-- The Block Ack parameter set the object sends: an A-MSDU bit,
immediate policy, the TID, `_baBufSize`. -/
def baParam (amsdu : UInt16) (tid : UInt8) : UInt16 :=
  amsdu ||| ((1 : UInt16) <<< (1 : UInt16))
    ||| ((tid.toUInt16 &&& (0xf : UInt16)) <<< (2 : UInt16))
    ||| ((baBufSize &&& (0x3ff : UInt16)) <<< (6 : UInt16))

/-- `sendAddbaRequest`. -/
def sendAddbaRequest (tid : UInt8) (s : Mlme) : Mlme :=
  let hdr := mgmtHdr hw stypeAction s.txSeq s
  let dialog := if s.baDialog + 1 = 0 then 1 else s.baDialog + 1
  let s := { s with txSeq := s.txSeq + 1, baDialog := dialog }
  txMgmtFrame env
    (hdr ++ [categoryBack, actionAddbaReq, dialog] ++ le16 (baParam 0 tid)
      ++ [0, 0] ++ le16 (seqField s.dataSeq)) s

/-- The frame `sendAddbaResponse` sends: status success, the requester's
A-MSDU bit, our buffer size. -/
def addbaResponse (tid dialog : UInt8) (reqParam baTimeout : UInt16)
    (s : Mlme) : List UInt8 :=
  mgmtHdr hw stypeAction s.txSeq s
    ++ [categoryBack, actionAddbaResp, dialog, 0, 0]
    ++ le16 (baParam (reqParam &&& 1) tid) ++ le16 baTimeout

/-- `sendAddbaResponse`. -/
def sendAddbaResponse (tid dialog : UInt8) (reqParam baTimeout : UInt16)
    (s : Mlme) : Mlme :=
  txMgmtFrame env (addbaResponse hw tid dialog reqParam baTimeout s)
    { s with txSeq := s.txSeq + 1 }

/-- `startTxAggregation`. -/
def startTxAggregation (s : Mlme) : Mlme :=
  if s.txBaActive then s
  else if !htAllowed s then s
  else match s.sta with
    | none => s
    | some sta =>
        if !sta.htCap.htSupported then s
        else sendAddbaRequest hw env baTid s

-- ============================================================ data frames

/-- One more on the 6-byte packet number. -/
def nextPn (pn : Bytes 6) : Bytes 6 := ⟨ripple pn.toList, by simp⟩

/-- The CCMP header of packet number `pn`. -/
def ccmpHdr (pn : Bytes 6) (keyidx : UInt8) : List UInt8 :=
  [peek pn.toList 0, peek pn.toList 1, 0,
   (0x20 : UInt8) ||| ((keyidx &&& (0x3 : UInt8)) <<< (6 : UInt8)),
   peek pn.toList 2, peek pn.toList 3, peek pn.toList 4, peek pn.toList 5]

/-- The RFC 1042 header of an ethertype. -/
def snapHdr (ethertype : UInt16) : List UInt8 :=
  [0xAA, 0xAA, 0x03, 0, 0, 0] ++ be16 ethertype

/-- The key a frame of this ethertype is protected with, if any:
`protected_frame` is that there is one. -/
def txKey (ethertype : UInt16) (s : Mlme) : Option KeyConf :=
  if s.wpa2 && ethertype != ethPPae then s.ptkConf else none

/-- The 802.11 frame for the Ethernet frame `m`, with sequence number
`seq` and the packet number `pn` if it is protected. -/
def dataFrame (m : List UInt8) (seq : UInt16) (key : Option KeyConf)
    (pn : Bytes 6) (s : Mlme) : List UInt8 :=
  let fc := ftypeData ||| fctlToDs
    ||| (if htAllowed s then stypeQosData else 0)
    ||| (if key.isSome then fctlProtected else 0)
  hdr3addr fc s.targetBSS.bssid hw.macAddr (grab m 0 6) (seqField seq)
    ++ (if htAllowed s then [baTid &&& 0x0f, 0] else [])
    ++ (match key with
        | some k => ccmpHdr pn k.keyidx
        | none => [])
    ++ snapHdr (be16At m 12) ++ m.drop 14

/-- `qos ? _dataSeq++ : _txSeq++`. -/
def takeSeq (s : Mlme) : Mlme :=
  if htAllowed s then { s with dataSeq := s.dataSeq + 1 }
  else { s with txSeq := s.txSeq + 1 }

/-- The increment of `_ccmpTxPn`. -/
def takePn (s : Mlme) : Mlme := { s with ccmpTxPn := nextPn s.ccmpTxPn }

/-- The counters `txDataFrame` uses up for one frame: a sequence number,
and a packet number if the frame is protected. -/
def txCounters (key : Option KeyConf) (s : Mlme) : Mlme :=
  if key.isSome then takePn (takeSeq s) else takeSeq s

/-- `txDataFrame`; `m` is the Ethernet frame. Both counters are used up
before the payload is copied. -/
def txDataFrame (m : List UInt8) (s : Mlme) : Bool × Mlme :=
  match s.sta with
  | none => (false, s)
  | some sta =>
      if !s.up || m.length < 14 || 2048 < m.length || !env.headCopy
          || !env.dataSkb then (false, s)
      else
        let ethertype := be16At m 12
        let key := txKey ethertype s
        let seq := if htAllowed s then s.dataSeq else s.txSeq
        let s := txCounters key s
        if 14 < m.length && !env.payloadCopy then (false, s)
        else
          let flags := if htAllowed s && s.txBaActive
            then txCtlFirstFragment ||| txCtlAmpdu else txCtlFirstFragment
          (true, s.emit (.tx
            { data := dataFrame hw m seq key s.ccmpTxPn s, flags := flags
              sta := some sta.addr, hwKey := key
              protocol := some ethertype }))

/-- `outputPacket`. -/
def outputPacket (m : List UInt8) (s : Mlme) : Bool × Mlme :=
  let connected := s.state == .connected
    || (s.state == .scanning && s.scanReturnState == .connected
        && (s.manualScanChannelCount == 0 || s.manualScanOnHomeChannel))
  if !connected || !s.up || s.sta.isNone then (false, s)
  else txDataFrame hw env m s

/-- `txNullFunc`. -/
def txNullFunc (powerSave : Bool) (s : Mlme) : Mlme :=
  match s.sta with
  | none => s
  | some sta =>
      if !s.up || !env.mgmtSkb then s
      else
        let fc := ftypeData ||| stypeNullfunc ||| fctlToDs
          ||| (if powerSave then fctlPm else 0)
        let frame := hdr3addr fc s.targetBSS.bssid hw.macAddr
          s.targetBSS.bssid (seqField s.txSeq)
        { s with txSeq := s.txSeq + 1 }.emit (.tx
          { data := frame, flags := txCtlFirstFragment
            sta := some sta.addr, hwKey := none, protocol := none })

/-- `txProbeRequest`. -/
def txProbeRequest (s : Mlme) : Mlme :=
  if !s.up then s
  else
    let is5g : Bool := match s.chandef.chan with
      | some c => c.band == .ghz5
      | none => false
    let rates := if is5g then rates5g else rates2g
    txMgmtFrame env
      (hdr3addr (ftypeMgmt ||| stypeProbeReq) broadcast hw.macAddr broadcast
          (seqField s.txSeq)
        ++ [eidSsid, 0, eidSuppRates, UInt8.ofNat rates.length] ++ rates)
      { s with txSeq := s.txSeq + 1 }

-- ============================================================= EAPOL-Key

/-- The key information of `sendEAPOLKey`. -/
def keyInfoOf (step : Nat) (install ack mic : Bool) : UInt16 :=
  0x000A ||| (if mic then 0x0100 else 0) ||| (if install then 0x0040 else 0)
    ||| (if ack then 0x0080 else 0) ||| (if step = 4 then 0x0200 else 0)

/-- The EAPOL-Key frame, with `mic` in the MIC field. -/
def eapolKeyFrame (keyInfo : UInt16) (replay : Bytes 8) (snonce : Bytes 32)
    (mic : Bytes 16) (keyData : List UInt8) : List UInt8 :=
  [2, 3] ++ be16 (UInt16.ofNat (95 + keyData.length)) ++ [2] ++ be16 keyInfo
    ++ [0, 16] ++ replay.toList ++ snonce.toList ++ List.replicate 32 0
    ++ mic.toList ++ be16 (UInt16.ofNat keyData.length) ++ keyData

/-- `sendEAPOLKey`. -/
def sendEAPOLKey (step : Nat) (replay : Bytes 8) (install ack mic : Bool)
    (s : Mlme) : Mlme :=
  let keyData := if step = 2
    then rtw88BuildSelectedRsnIe s.targetBSS.groupCipher else []
  let frame := eapolKeyFrame (keyInfoOf step install ack mic) replay s.snonce
  let micBytes := if mic
    then grab (hw.prims.hmacSha1 (kckOf s.ptk).toList
      (frame (zeros 16) keyData)).toList 0 16
    else zeros 16
  if !env.packetMbuf then s
  else
    (txDataFrame hw env (s.targetBSS.bssid.toList ++ hw.macAddr.toList
      ++ be16 ethPPae ++ frame micBytes keyData) s).2

end Rtw88
