/-
The receive path again, with every access to the frame.

Each function here is its counterpart of Model/Rx.lean and
Model/Scan.lean written as a `Traced` routine, in the order in which the
source evaluates: header fields before any length test, `&&` and `||`
from the left, `skb->len - n` where it is computed. A pointer into the
frame is an offset and the bytes from there on.

- `memcmp` and `memcpy` read the whole range they are given, and so do
  `handleEAPOL` and `deliverEthernet` their payload.
- Reads that only feed a log message are kept where they are the only
  ones (the reason code).

`rxFrameT_val` (Proofs/RxAccess.lean) says that the values are those of
the model, so the accesses are those of the code the model describes.
-/
import Rtw88.Lib.Access
import Rtw88.Model.Rx

namespace Rtw88

open Traced

variable (hw : Hw) (env : Env)

/-- `kfree_skb`. -/
def kfreeSkbT (skb : SkBuff) (s : Mlme) : Traced Mlme :=
  ⟨kfreeSkb skb s, [.release]⟩

/-- `skb->len - sizeof(struct ieee80211_hdr_3addr)`. -/
def bodyLenT (skb : SkBuff) : Traced Nat :=
  ⟨bodyLen skb, [.sub skb.data.length 24]⟩

-- ================================================================= beacons

/-- `rtw88ReadSuite`. -/
def suiteT (base : Nat) (p : List UInt8) (i : Nat) : Traced UInt32 :=
  ⟨rtw88ReadSuite p i, [.read (base + i) 4]⟩

/-- The loops over the suites of a list: whether `suite` is among the
`n` from offset `i`. Every one is read. -/
def anySuiteT (base : Nat) (p : List UInt8) (i : Nat) (suite : UInt32) :
    Nat → Traced Bool
  | 0 => pure false
  | n + 1 => do
      let found ← anySuiteT base p i suite n
      let x ← suiteT base p (i + n * 4)
      pure (found || x == suite)

/-- `rtw88RsnSelectCcmpPsk`. -/
def rtw88RsnSelectCcmpPskT (base : Nat) (rsn : List UInt8) :
    Traced (Option (UInt32 × UInt32)) :=
  let len := rsn.length
  if len < 8 then pure none
  else do
    let group ← suiteT base rsn 2
    let count ← readLe16 base rsn 6
    let akms := 8 + count.toNat * 4
    if len < akms then pure none
    else do
      let hasCcmp ← anySuiteT base rsn 8 cipherCcmp count.toNat
      if len < akms + 2 then pure none
      else do
        let akmCount ← readLe16 base rsn akms
        if len < akms + 2 + akmCount.toNat * 4 then pure none
        else do
          let hasPsk ← anySuiteT base rsn (akms + 2) akmPsk akmCount.toNat
          pure (if !hasCcmp || !hasPsk then none
            else if group ≠ cipherCcmp ∧ group ≠ cipherTkip then
              some (cipherCcmp, cipherCcmp)
            else some (cipherCcmp, group))

/-- The fields one element sets; its body is at `base`. -/
def scanFieldT (base : Nat) (bss : RTW88BSS) (e : Elem) : Traced RTW88BSS :=
  let len := e.body.length
  if e.id = eidSsid ∧ 0 < len ∧ len ≤ 32 then
    ⟨{ bss with
        ssid := grab (splice bss.ssid.toList 0 e.body) 0 33
        ssidLen := UInt8.ofNat len }, [.read base len]⟩
  else if e.id = eidDsParams ∧ 1 ≤ len then do
    let c ← readByte base e.body 0
    pure { bss with channel := c }
  else if e.id = eidHtOperation ∧ 1 ≤ len ∧ bss.channel = 0 then do
    let c ← readByte base e.body 0
    pure { bss with channel := c }
  else if e.id = eidRsn then do
    let suites ← rtw88RsnSelectCcmpPskT base e.body
    pure (match suites with
      | some (pairwise, group) =>
          { bss with
            cipher := pairwise, groupCipher := group, akm := akmPsk }
      | none => bss)
  else if e.id = eidVendorSpecific ∧ 8 ≤ len then do
    let wpa ← startsWith base e.body 0 [0x00, 0x50, 0xf2, 0x01]
    pure (if wpa = true ∧ bss.cipher = 0 then
      { bss with
        cipher := cipherTkip, groupCipher := cipherTkip, akm := akmPsk }
      else bss)
  else pure bss

/-- One element; its id is at `base`. -/
def scanElemT (base : Nat) (bss : RTW88BSS) (e : Elem) : Traced RTW88BSS := do
  let bss ← scanFieldT (base + 2) bss e
  if bss.ies.length + (2 + e.body.length) < 512 then do
    access (.read base (2 + e.body.length))
    pure { bss with ies := bss.ies ++ e.bytes }
  else pure bss

/-- The walk over the elements, at most `fuel` of them. -/
def scanElemsT : Nat → Nat → List UInt8 → RTW88BSS → Traced RTW88BSS
  | 0, _, _, bss => pure bss
  | fuel + 1, base, id :: len :: rest, bss => do
      access (.read base 2)
      if len.toNat ≤ rest.length then do
        let bss ← scanElemT base bss { id := id, body := rest.take len.toNat }
        scanElemsT fuel (base + 2 + len.toNat) (rest.drop len.toNat) bss
      else pure bss
  | _ + 1, _, _, bss => pure bss

/-- The scan entry of a beacon or probe response. -/
def scanEntryT (skb : SkBuff) (generation : UInt32) : Traced RTW88BSS := do
  let bssid ← copy 0 skb.data 16 6
  let bss ← scanElemsT (skb.data.drop 36).length 36 (skb.data.drop 36)
    { RTW88BSS.zero with bssid := bssid }
  let bss := { bss with
    rssi := skb.signal.toInt16, freq := skb.freq
    lastSeenScan := generation }
  pure (if bss.channel = 0 ∧ bss.freq ≠ 0
    then { bss with channel := channelOfFreq bss.freq } else bss)

/-- `processScanResult`. -/
def processScanResultT (skb : SkBuff) (s : Mlme) : Traced Mlme :=
  if skb.data.length < 30 + 12 || !env.bssAlloc then kfreeSkbT skb s
  else do
    let bss ← scanEntryT skb s.scanGeneration
    match updateBss bss s.bssList with
    | some l => kfreeSkbT skb { s with bssList := l }
    | none =>
        kfreeSkbT skb
          { s with bssList := bss :: s.bssList, bssCount := s.bssCount + 1 }

-- ======================================================== management frames

/-- `processAssocResponse`. -/
def processAssocResponseT (skb : SkBuff) (s : Mlme) : Traced Mlme := do
  let bssid ← copy 0 skb.mem 16 6
  if bssid ≠ s.targetBSS.bssid then kfreeSkbT skb s
  else do
    let bodylen ← bodyLenT skb
    let s ← kfreeSkbT skb s
    let mem := env.freed.getD skb.mem
    if bodylen < 6 then pure (s.setState .idle)
    else do
      let status ← readLe16 0 mem 26
      let aid ← readLe16 0 mem 28
      if status ≠ 0 then pure (s.setState .idle)
      else
        let aid := aid &&& 0x3FFF
        let s := setAid aid s
        pure (enterLink hw env (notifyAssoc aid (addSta hw env aid s)))

/-- `handleBackAction`; `b` starts at offset `base`. -/
def handleBackActionT (base : Nat) (b : List UInt8) (s : Mlme) :
    Traced Mlme :=
  if b.length < 2 then pure s
  else do
    let action ← readByte base b 1
    if action = actionAddbaReq then
      if b.length < 9 then pure s
      else do
        let dialog ← readByte base b 2
        let reqParam ← readLe16 base b 3
        let baTo ← readLe16 base b 5
        let ssc ← readLe16 base b 7
        let tid := ((reqParam >>> 2) &&& 0xf).toUInt8
        let bufsz := (reqParam >>> 6) &&& 0x3ff
        let ssn := ssc >>> 4
        pure (sendAddbaResponse hw env tid dialog reqParam baTo
          (s.rxBaSetup env tid.toNat ssn.toNat bufsz.toNat))
    else if action = actionAddbaResp then
      if b.length < 9 then pure s
      else do
        let status ← readLe16 base b 3
        let param ← readLe16 base b 5
        let tid := ((param >>> 2) &&& 0xf).toUInt8
        pure (if status = 0 ∧ tid = baTid then setTxBa true s else s)
    else if action = actionDelba then
      if b.length < 6 then pure s
      else do
        let delParam ← readLe16 base b 2
        let tid := ((delParam >>> 12) &&& 0xf).toUInt8
        let initiator := delParam &&& 0x0800 != 0
        let s := if !initiator && tid == baTid then setTxBa false s else s
        pure (if initiator then s.rxBaTeardown tid.toNat else s)
    else pure s

/-- The authentication branch in AUTHENTICATING. -/
def authRespT (skb : SkBuff) (s : Mlme) : Traced Mlme := do
  let bssid ← copy 0 skb.mem 16 6
  if bssid ≠ s.targetBSS.bssid then kfreeSkbT skb s
  else do
    let bodylen ← bodyLenT skb
    if bodylen < 6 then kfreeSkbT skb (doAssociate hw env s)
    else do
      let status ← readLe16 0 skb.mem 28
      if status = 0 then kfreeSkbT skb (doAssociate hw env s)
      else kfreeSkbT skb (s.setState .idle)

/-- `memcmp(h3->addr3, bssid) == 0 || memcmp(h3->addr2, bssid) == 0`. -/
def fromTargetT (skb : SkBuff) (s : Mlme) : Traced Bool := do
  let a3 ← copy 0 skb.mem 16 6
  if a3 = s.targetBSS.bssid then pure true
  else do
    let a2 ← copy 0 skb.mem 10 6
    pure (a2 == s.targetBSS.bssid)

/-- The deauthentication branch of a link. -/
def deauthT (skb : SkBuff) (s : Mlme) : Traced Mlme := do
  let fromTarget ← fromTargetT skb s
  let a1 ← copy 0 skb.mem 4 6
  if !fromTarget || !(a1 == hw.macAddr || a1 == broadcast) then
    kfreeSkbT skb s
  else do
    -- the reason code
    accessIf (26 ≤ skb.data.length) (.read 24 2)
    kfreeSkbT skb (leaveOnDeauth s)

/-- The action branch in CONNECTED. -/
def actionT (skb : SkBuff) (s : Mlme) : Traced Mlme := do
  accessIf (24 < skb.data.length) (.sub skb.data.length 24)
  if 26 ≤ skb.data.length then do
    let category ← readByte 0 skb.mem 24
    if category = categoryBack then do
      let a3 ← copy 0 skb.mem 16 6
      if a3 = s.targetBSS.bssid then do
        let s ← handleBackActionT hw env 24 (skb.data.drop 24) s
        kfreeSkbT skb s
      else kfreeSkbT skb s
    else kfreeSkbT skb s
  else kfreeSkbT skb s

/-- `processRxMgmt`. -/
def processRxMgmtT (skb : SkBuff) (s : Mlme) : Traced Mlme := do
  let fc ← readLe16 0 skb.mem 0
  let stype := fc &&& 0x00f0
  if stype = 0x0080 ∨ stype = 0x0050 then
    if s.state = .scanning then processScanResultT env skb s
    else kfreeSkbT skb s
  else if stype = 0x00B0 then
    if s.state ≠ .authenticating then kfreeSkbT skb s
    else authRespT hw env skb s
  else if stype = 0x0010 ∨ stype = 0x0030 then
    if s.state = .associating then processAssocResponseT hw env skb s
    else kfreeSkbT skb s
  else if stype = 0x00A0 ∨ stype = 0x00C0 then
    if s.state = .connected ∨ s.state = .handshaking
        ∨ (s.state = .scanning ∧ s.scanReturnState = .connected) then
      deauthT hw skb s
    else kfreeSkbT skb s
  else if stype = 0x00D0 then
    if s.state = .connected then actionT hw env skb s else kfreeSkbT skb s
  else kfreeSkbT skb s

-- ============================================================== data frames

/-- `llc[0] == 0xAA && llc[1] == 0xAA && llc[2] == 0x03`. -/
def isSnapT (base : Nat) (d : List UInt8) (off : Nat) : Traced Bool :=
  startsWith base d off [0xAA, 0xAA, 0x03]

/-- `deliverEthernet`: the addresses at offsets `da` and `sa`, the
payload in the range `[off, off + n)`. -/
def deliverEthernetT (da sa off n pos : Nat) (f : EthFrame) (s : Mlme) :
    Traced Mlme := do
  access (.read da 6)
  access (.read sa 6)
  access (.read off n)
  pure (deliverEthernet env pos f s)

/-- `deAmsdu` on the payload `d` at offset `base`, from `pos` on. -/
def deAmsduT (base : Nat) (d : List UInt8) :
    Nat → Nat → Mlme → Traced Mlme
  | 0, _, s => pure s
  | fuel + 1, pos, s =>
      if d.length < pos + 14 then pure s
      else do
        let sublen ← readBe16 base d (pos + 12)
        let sublen := sublen.toNat
        if sublen < 8 ∨ d.length < pos + 14 + sublen then pure s
        else do
          let next := pos + (14 + sublen + 3) / 4 * 4
          let snap ← isSnapT base d (pos + 14)
          if snap then do
            let ethertype ← readBe16 base d (pos + 20)
            access (.sub sublen 8)
            let s ← deliverEthernetT env (base + pos) (base + (pos + 6))
              (base + (pos + 22)) (sublen - 8) pos
              { da := grab d pos 6, sa := grab d (pos + 6) 6
                ethertype := ethertype
                payload := (d.drop (pos + 22)).take (sublen - 8) } s
            deAmsduT base d fuel next s
          else deAmsduT base d fuel next s

/-- The A-MSDU branch of `deliverDataFrame`, its payload at `off`. -/
def deliverAmsduT (skb : SkBuff) (off : Nat) (s : Mlme) : Traced Mlme := do
  access (.sub skb.data.length off)
  let s ← deAmsduT env off (skb.data.drop off) skb.data.length 0 s
  kfreeSkbT skb s

/-- Where LLC/SNAP starts behind a header of `hlen` bytes. -/
def payloadOffT (skb : SkBuff) (fc : UInt16) (hlen : Nat) : Traced Nat := do
  let snap ← isSnapT 0 skb.data hlen
  if !snap && hasProtected fc && decide (hlen + 16 ≤ skb.data.length) then do
    let snap ← isSnapT 0 skb.data (hlen + 8)
    pure (if snap then hlen + 8 else hlen)
  else pure hlen

/-- The single MSDU branch of `deliverDataFrame`. -/
def deliverSingleT (skb : SkBuff) (off : Nat) (s : Mlme) : Traced Mlme := do
  let d := skb.data
  let snap ← isSnapT 0 d off
  let ethertype ← (if snap then readBe16 0 d (off + 6) else pure 0)
  access (.sub d.length (off + 8))
  if ethertype = ethPPae ∧ s.state = .handshaking then do
    access (.read (off + 8) (d.length - (off + 8)))
    kfreeSkbT skb (handleEAPOL hw env (d.drop (off + 8)) s)
  else do
    let s ← deliverEthernetT env 4 16 (off + 8) (d.length - (off + 8)) 0
      { da := addr1 d, sa := addr3 d, ethertype := ethertype
        payload := d.drop (off + 8) } s
    kfreeSkbT skb s

/-- The A-MSDU bit of the QoS control field, if there is one. -/
def isAmsduT (skb : SkBuff) (fc : UInt16) : Traced Bool :=
  if isDataQos fc then do
    let qos ← readByte 0 skb.data (hdrlen fc - 2)
    pure (qos &&& 0x80 != 0)
  else pure false

/-- `deliverDataFrame`. -/
def deliverDataFrameT (skb : SkBuff) (s : Mlme) : Traced Mlme := do
  let fc ← readLe16 0 skb.mem 0
  let hlen := hdrlen fc
  if skb.data.length < hlen then kfreeSkbT skb s
  else do
    let amsdu ← isAmsduT skb fc
    if amsdu then
      if hasProtected fc then
        if skb.data.length < hlen + 8 then kfreeSkbT skb s
        else deliverAmsduT env skb (hlen + 8) s
      else deliverAmsduT env skb hlen s
    else if skb.data.length < hlen + 8 then kfreeSkbT skb s
    else do
      let off ← payloadOffT skb fc hlen
      deliverSingleT hw env skb off s

/-- The TID whose reorder buffer a data frame goes to, if any. -/
def reorderTidT (skb : SkBuff) (s : Mlme) : Traced (Option (Fin 8)) := do
  let fc ← readLe16 0 skb.mem 0
  if !isDataQos fc || skb.data.length < hdrlen fc then pure none
  else do
    let qos ← readByte 0 skb.mem (hdrlen fc - 2)
    let tid := (qos &&& 0x0f).toNat
    pure (if h : tid < 8 then
        match s.rxBa ⟨tid, h⟩ with
        | some r => if r.active then some ⟨tid, h⟩ else none
        | none => none
      else none)

/-- `rxReorderInput`: the frame is freed, or it is in its cell now. -/
def rxReorderInputT (tid : Fin 8) (skb : SkBuff) (sn : Nat) (s : Mlme) :
    Traced (Mlme × Option Pending) := do
  let o := rxReorderInput tid skb sn s.rxBa
  access (if o.freed.isEmpty then .keep else .release)
  pure (kfreeAll o.freed { s with rxBa := o.rxBa },
    some { out := o.out, needTimer := o.needTimer })

/-- `processRxData`. -/
def processRxDataT (skb : SkBuff) (s : Mlme) :
    Traced (Mlme × Option Pending) :=
  if !rxConnected s then do
    let s ← kfreeSkbT skb s
    pure (s, none)
  else do
    let tid ← reorderTidT skb s
    match tid with
    | some tid => do
        let sc ← readLe16 0 skb.mem 22
        rxReorderInputT tid skb ((sc &&& 0xFFF0) >>> 4).toNat s
    | none => do
        let s ← deliverDataFrameT hw env skb s
        pure (s, none)

/-- `rxFrame`. -/
def rxFrameT (skb : SkBuff) (s : Mlme) : Traced (Mlme × Option Pending) := do
  let fc ← readLe16 0 skb.mem 0
  if isMgmt fc then do
    let s ← processRxMgmtT hw env skb s
    pure (s, none)
  else if isData fc then processRxDataT hw env skb s
  else do
    let s ← kfreeSkbT skb s
    pure (s, none)

end Rtw88
