/-
The receive path: `rxFrame`, management frames, data frames through the
reorder buffer to `deliverDataFrame`.

Header fields are read from the frame and the memory behind it
(`SkBuff.mem`): the source reads them before it looks at the length.

A call that releases frames from the reorder buffer returns them as a
`Pending` delivery. The source delivers them one by one with the lock
dropped, so other threads may run in between.
-/
import Rtw88.Model.Eapol
import Rtw88.Model.Scan

namespace Rtw88

variable (hw : Hw) (env : Env)

/-- The frame and the memory behind it. -/
def SkBuff.mem (skb : SkBuff) : List UInt8 := skb.data ++ skb.past

/-- `skb->len - sizeof(struct ieee80211_hdr_3addr)` in 32 bits. -/
def bodyLen (skb : SkBuff) : Nat := (skb.data.length + 2 ^ 32 - 24) % 2 ^ 32

-- ============================================================= association

/-- `doAssociate`. -/
def doAssociate (s : Mlme) : Mlme :=
  if !s.up then s
  else
    let frame := buildAssocReq hw s
    ((txMgmtFrame env frame.1 frame.2).setState .associating).armTimer 3000

/-- The station entry of the AP: the chip's own HT and VHT capabilities,
narrowed to the width in use. -/
def newSta (aid : UInt16) (s : Mlme) : Sta :=
  let caps := match hw.bands (targetBand s) with
    | some sband =>
        if htAllowed s then
          let ht := { sband.htCap with
            cap := if s.connChanWidth < 40 then narrowHtCap sband.htCap.cap
              else sband.htCap.cap ||| htCapSgi40 }
          (ht, if targetBand s = Band.ghz5 then sband.vhtCap else {})
        else ({}, {})
    | none => ({}, {})
  { addr := s.nextAddr, mac := s.targetBSS.bssid, aid := aid
    bandwidth := if s.connChanWidth = 80 then staRxBw80
      else if s.connChanWidth = 40 then staRxBw40 else staRxBw20
    htCap := caps.1, vhtCap := caps.2 }

/-- Allocate the station and register it, unless there is one. -/
def addSta (aid : UInt16) (s : Mlme) : Mlme :=
  if s.sta.isSome || !env.staAlloc then s
  else
    let sta := newSta hw aid s
    { s with sta := some sta, nextAddr := s.nextAddr + 1 }.emit
      (.staAdd sta.addr)

/-- Tell the driver of the association. -/
def notifyAssoc (aid : UInt16) (s : Mlme) : Mlme :=
  { s with
    vif :=
      { bssAssoc := true, bssAid := aid, bssQos := true
        bssid := s.targetBSS.bssid, cfgAssoc := true, cfgAid := aid } }.emit
    (.bssInfoChanged true)

/-- `derivePMK` into `_pmk`. -/
def setPmk (s : Mlme) : Mlme :=
  { s with
    pmk := derivePMK hw.prims s.password s.targetBSS.ssid.toList
      s.targetBSS.ssidLen.toNat }

/-- The end of `processAssocResponse`: wait for the handshake, or the
link is up. -/
def enterLink (s : Mlme) : Mlme :=
  let s := s.emit .associated
  if s.wpa2 then
    (setPmk hw (s.setState .handshaking)).armTimer 8000
  else
    let s := (s.setState .connected).emit (.setLinkStatus true)
    (startTxAggregation hw env s).cancelTimer

/-- `_assocAID = aid`. -/
def setAid (aid : UInt16) (s : Mlme) : Mlme := { s with assocAID := aid }

/-- `processAssocResponse`. The body is read after the frame was freed. -/
def processAssocResponse (skb : SkBuff) (s : Mlme) : Mlme :=
  if addr3 skb.mem ≠ s.targetBSS.bssid then kfreeSkb skb s
  else
    let s := kfreeSkb skb s
    let mem := env.freed.getD skb.mem
    if bodyLen skb < 6 then s.setState .idle
    else if le16At mem 26 ≠ 0 then s.setState .idle
    else
      let aid := le16At mem 28 &&& 0x3FFF
      let s := setAid aid s
      enterLink hw env (notifyAssoc aid (addSta hw env aid s))

-- =============================================================== BlockAck

/-- `_txBaActive = b`. -/
def setTxBa (b : Bool) (s : Mlme) : Mlme := { s with txBaActive := b }

/-- `rxBaSetup` on the object's buffers; the frames of an old window are
freed. -/
def Mlme.rxBaSetup (tid ssn bufsize : Nat) (s : Mlme) : Mlme :=
  let o := Rtw88.rxBaSetup env.baAlloc tid ssn bufsize s.rxBa
  kfreeAll o.freed { s with rxBa := o.rxBa }

/-- `handleBackAction`; `b` starts at the category byte. -/
def handleBackAction (b : List UInt8) (s : Mlme) : Mlme :=
  if b.length < 2 then s
  else if peek b 1 = actionAddbaReq then
    if b.length < 9 then s
    else
      let reqParam := le16At b 3
      let tid := ((reqParam >>> 2) &&& 0xf).toUInt8
      let bufsz := (reqParam >>> 6) &&& 0x3ff
      let ssn := le16At b 7 >>> 4
      sendAddbaResponse hw env tid (peek b 2) reqParam (le16At b 5)
        (s.rxBaSetup env tid.toNat ssn.toNat bufsz.toNat)
  else if peek b 1 = actionAddbaResp then
    if b.length < 9 then s
    else
      let tid := ((le16At b 5 >>> 2) &&& 0xf).toUInt8
      if le16At b 3 = 0 ∧ tid = baTid then setTxBa true s else s
  else if peek b 1 = actionDelba then
    if b.length < 6 then s
    else
      let delParam := le16At b 2
      let tid := ((delParam >>> 12) &&& 0xf).toUInt8
      let initiator := delParam &&& 0x0800 != 0
      let s := if !initiator && tid == baTid then setTxBa false s else s
      if initiator then s.rxBaTeardown tid.toNat else s
  else s

-- ======================================================= management frames

/-- The deauthentication branch, once the frame is known to be from the
target and for us. -/
def leaveOnDeauth (s : Mlme) : Mlme :=
  let s := rxBaTeardownAll (setTxBa false (clearKeys s))
  s.setIdle.emit (.setLinkStatus false)

/-- `processRxMgmt`. -/
def processRxMgmt (skb : SkBuff) (s : Mlme) : Mlme :=
  let m := skb.mem
  let stype := frameControl m &&& 0x00f0
  if stype = 0x0080 ∨ stype = 0x0050 then
    if s.state = .scanning then processScanResult env skb s
    else kfreeSkb skb s
  else if stype = 0x00B0 then
    if s.state ≠ .authenticating then kfreeSkb skb s
    else if addr3 m ≠ s.targetBSS.bssid then kfreeSkb skb s
    else if bodyLen skb < 6 then
      -- assume success
      kfreeSkb skb (doAssociate hw env s)
    else if le16At m 28 = 0 then kfreeSkb skb (doAssociate hw env s)
    else kfreeSkb skb (s.setState .idle)
  else if stype = 0x0010 ∨ stype = 0x0030 then
    if s.state = .associating then processAssocResponse hw env skb s
    else kfreeSkb skb s
  else if stype = 0x00A0 ∨ stype = 0x00C0 then
    if s.state = .connected ∨ s.state = .handshaking
        ∨ (s.state = .scanning ∧ s.scanReturnState = .connected) then
      let fromTarget := addr3 m == s.targetBSS.bssid
        || addr2 m == s.targetBSS.bssid
      let addressedToUs := addr1 m == hw.macAddr || addr1 m == broadcast
      if !fromTarget || !addressedToUs then kfreeSkb skb s
      else kfreeSkb skb (leaveOnDeauth s)
    else kfreeSkb skb s
  else if stype = 0x00D0 then
    if s.state = .connected ∧ 26 ≤ skb.data.length
        ∧ peek m 24 = categoryBack ∧ addr3 m = s.targetBSS.bssid then
      kfreeSkb skb (handleBackAction hw env (skb.data.drop 24) s)
    else kfreeSkb skb s
  else kfreeSkb skb s

-- ============================================================= data frames

/-- `llc[0..2] == AA AA 03` at an offset. -/
def isSnap (d : List UInt8) (off : Nat) : Bool :=
  peek d off == 0xAA && peek d (off + 1) == 0xAA && peek d (off + 2) == 0x03

/-- The subframes of an A-MSDU that `deAmsdu` delivers, each with its
offset; a subframe takes at least 14 bytes, so the length is fuel
enough. -/
def deAmsdu (d : List UInt8) : Nat → Nat → List (Nat × EthFrame)
  | 0, _ => []
  | fuel + 1, pos =>
      if d.length < pos + 14 then []
      else
        let sublen := (be16At d (pos + 12)).toNat
        if sublen < 8 ∨ d.length < pos + 14 + sublen then []
        else
          let next := pos + (14 + sublen + 3) / 4 * 4
          let rest := deAmsdu d fuel next
          if isSnap d (pos + 14) then
            (pos,
              { da := grab d pos 6, sa := grab d (pos + 6) 6
                ethertype := be16At d (pos + 20)
                payload := (d.drop (pos + 22)).take (sublen - 8) }) :: rest
          else rest

/-- The same loop in the 32 bits of `pos` and `len`, where sums wrap
around: for lengths that leave room it is `deAmsdu` (`deAmsdu32_eq`). -/
def deAmsdu32 (d : List UInt8) : Nat → UInt32 → List (Nat × EthFrame)
  | 0, _ => []
  | fuel + 1, pos =>
      let len := UInt32.ofNat d.length
      if len < pos + 14 then []
      else
        let sublen := (be16At d (pos.toNat + 12)).toUInt32
        if sublen < 8 ∨ len < pos + 14 + sublen then []
        else
          let next := pos + ((14 + sublen + 3) &&& ~~~3)
          let rest := deAmsdu32 d fuel next
          if isSnap d (pos.toNat + 14) then
            (pos.toNat,
              { da := grab d pos.toNat 6, sa := grab d (pos.toNat + 6) 6
                ethertype := be16At d (pos.toNat + 20)
                payload := (d.drop (pos.toNat + 22)).take
                  (sublen - 8).toNat }) :: rest
          else rest

/-- What is in a data frame: nothing usable, an A-MSDU, or one MSDU. -/
inductive Decap
  | drop
  | amsdu (msdus : List (Nat × EthFrame))
  | single (msdu : EthFrame)
  deriving DecidableEq

/-- Strip the 802.11 header, the CCMP header that the hardware may have
left, and LLC/SNAP. -/
def decap (skb : SkBuff) : Decap :=
  let d := skb.data
  let fc := frameControl skb.mem
  let hlen := hdrlen fc
  if d.length < hlen then .drop
  else if isDataQos fc && peek d (hlen - 2) &&& 0x80 != 0 then
    if hasProtected fc then
      if d.length < hlen + 8 then .drop
      else .amsdu (deAmsdu (d.drop (hlen + 8)) d.length 0)
    else .amsdu (deAmsdu (d.drop hlen) d.length 0)
  else if d.length < hlen + 8 then .drop
  else
    let off := if !isSnap d hlen && hasProtected fc
        && decide (hlen + 16 ≤ d.length) && isSnap d (hlen + 8)
      then hlen + 8 else hlen
    .single
      { da := addr1 d, sa := addr3 d
        ethertype := if isSnap d off then be16At d (off + 6) else 0
        payload := d.drop (off + 8) }

/-- `deliverEthernet`. -/
def deliverEthernet (pos : Nat) (f : EthFrame) (s : Mlme) : Mlme :=
  if env.inputPacket pos then s.emit (.injectRxFrame f) else s

/-- `deliverDataFrame`. -/
def deliverDataFrame (skb : SkBuff) (s : Mlme) : Mlme :=
  match decap skb with
  | .drop => kfreeSkb skb s
  | .amsdu msdus =>
      kfreeSkb skb
        (msdus.foldl (fun s m => deliverEthernet env m.1 m.2 s) s)
  | .single msdu =>
      if msdu.ethertype = ethPPae ∧ s.state = .handshaking then
        kfreeSkb skb (handleEAPOL hw env msdu.payload s)
      else kfreeSkb skb (deliverEthernet env 0 msdu s)

/-- Frames taken out of the reorder buffer and not delivered yet, and
whether the timer is to be armed afterwards. -/
structure Pending where
  out : List SkBuff
  needTimer : Bool

/-- The state in which data frames are accepted. -/
def rxConnected (s : Mlme) : Bool :=
  s.state == .connected || s.state == .handshaking
    || (s.state == .scanning && s.scanReturnState == .connected)

/-- The TID whose reorder buffer a data frame goes to, if any. -/
def reorderTid (skb : SkBuff) (s : Mlme) : Option (Fin 8) :=
  let fc := frameControl skb.mem
  if !isDataQos fc || skb.data.length < hdrlen fc then none
  else
    let tid := (peek skb.mem (hdrlen fc - 2) &&& 0x0f).toNat
    if h : tid < 8 then
      match s.rxBa ⟨tid, h⟩ with
      | some r => if r.active then some ⟨tid, h⟩ else none
      | none => none
    else none

/-- `processRxData`. -/
def processRxData (skb : SkBuff) (s : Mlme) : Mlme × Option Pending :=
  if !rxConnected s then (kfreeSkb skb s, none)
  else match reorderTid skb s with
    | some tid =>
        let sn := ((seqCtrl skb.mem &&& 0xFFF0) >>> 4).toNat
        let o := rxReorderInput tid skb sn s.rxBa
        (kfreeAll o.freed { s with rxBa := o.rxBa },
          some { out := o.out, needTimer := o.needTimer })
    | none => (deliverDataFrame hw env skb s, none)

/-- `rxFrame`. -/
def rxFrame (skb : SkBuff) (s : Mlme) : Mlme × Option Pending :=
  let fc := frameControl skb.mem
  if isMgmt fc then (processRxMgmt hw env skb s, none)
  else if isData fc then processRxData hw env skb s
  else (kfreeSkb skb s, none)

end Rtw88
