/-
Scanning: the channel definition of a link, beacon parsing into the BSS
list, `cmdScan`, `scanDone`, and the manual scan thread.

`runManualScan` sleeps between its steps, so it is a thread: `ScanPc` is
where it sleeps, with the locals it keeps, and `runManualScan` takes it
from one sleep to the next.
-/
import Rtw88.Model.Tx

namespace Rtw88

/-- `IOReturn`, the values used. -/
inductive IOReturn
  | success | busy | notReady | notFound | badArgument | error
  deriving DecidableEq, Repr

variable (hw : Hw) (env : Env)

-- ================================================================ channel

/-- The target's channel in the band table, with its band filled in from
the parent band. -/
def findChannel (s : Mlme) : Option Channel :=
  (Band.all.flatMap fun b =>
    match hw.bands b with
    | some band => band.channels.map fun c => { c with band := band.band }
    | none => []).find? fun c => c.hwValue == s.targetBSS.channel.toUInt16

/-- The width fields `setConnectedChandef` reads out of the cached
elements. -/
structure WidthInfo where
  sco : UInt8 := 0
  htStaWidth : Bool := false
  vhtWidth : UInt8 := 0
  vhtSeg0 : UInt8 := 0
  deriving DecidableEq, Repr

/-- One element of that walk; later elements win. -/
def WidthInfo.scan (w : WidthInfo) (e : Elem) : WidthInfo :=
  if e.id = eidHtOperation ∧ 2 ≤ e.body.length then
    { w with
      sco := peek e.body 1 &&& 0x03
      htStaWidth := peek e.body 1 &&& 0x04 != 0 }
  else if e.id = eidVhtOperation ∧ 3 ≤ e.body.length then
    { w with vhtWidth := peek e.body 0, vhtSeg0 := peek e.body 1 }
  else w

/-- The width and channel definition `setConnectedChandef` settles on. -/
def connectedChandef (chan : Channel) (s : Mlme) : UInt8 × Chandef :=
  let base : Chandef :=
    { chan := some chan, width := .w20NoHt
      centerFreq1 := chan.centerFreq.toUInt32 }
  if !htAllowed s then (20, base)
  else match hw.bands (targetBand s) with
    | none => (20, base)
    | some sb =>
        let bnd := targetBand s
        let cap40 := sb.htCap.cap &&& htCapSupWidth2040 != 0
        let chip80 := cap40 && bnd == .ghz5 && sb.vhtCap.vhtSupported
        let rtl8723d := bnd == .ghz2 && hw.pciDevice == 0xD723
        let chip40 := cap40 || rtl8723d
          || (bnd == .ghz2 && sb.htCap.htSupported)
        let w := (elems s.targetBSS.ies).foldl WidthInfo.scan {}
        if chip80 && w.vhtWidth == 1 && w.vhtSeg0 != 0 then
          (80, { base with
            width := .w80, centerFreq1 := 5000 + 5 * w.vhtSeg0.toUInt32 })
        else if chip40 && w.htStaWidth && (w.sco == 1 || w.sco == 3) then
          (40, { base with
            width := .w40
            centerFreq1 := if w.sco = 1
              then chan.centerFreq.toUInt32 + 10
              else chan.centerFreq.toUInt32 - 10 })
        else if chip40 && rtl8723d then
          (40, { base with
            width := .w40, centerFreq1 := chan.centerFreq.toUInt32 + 10 })
        else (20, base)

/-- `setConnectedChandef`. The 80 MHz test comes last in the source and
overrides what the 40 MHz test set; here it is asked first. -/
def setConnectedChandef (chan : Channel) (s : Mlme) : Mlme :=
  let r := connectedChandef hw chan s
  { s with connChanWidth := r.1, chandef := r.2 }

/-- `setConnectedChandef` on the target's channel, if it is in the band
table. -/
def setTargetChandef (s : Mlme) : Mlme :=
  match findChannel hw s with
  | some chan => setConnectedChandef hw chan s
  | none => s

/-- `restoreConnectedChannel`. -/
def restoreConnectedChannel (s : Mlme) : Mlme :=
  if s.scanReturnState ≠ .connected || !s.up then s
  else
    let s := setTargetChandef hw s
    let s := s.emit (.restoreConnectedHw s.targetBSS.bssid)
    { s with
      vif := { s.vif with
        bssid := s.targetBSS.bssid, bssAssoc := true
        bssAid := s.assocAID, cfgAssoc := true, cfgAid := s.assocAID } }

-- ================================================================ beacons

/-- The fields one element of a beacon sets. -/
def scanField (bss : RTW88BSS) (e : Elem) : RTW88BSS :=
  let len := e.body.length
  if e.id = eidSsid ∧ 0 < len ∧ len ≤ 32 then
    { bss with
      ssid := grab (splice bss.ssid.toList 0 e.body) 0 33
      ssidLen := UInt8.ofNat len }
  else if e.id = eidDsParams ∧ 1 ≤ len then
    { bss with channel := peek e.body 0 }
  else if e.id = eidHtOperation ∧ 1 ≤ len ∧ bss.channel = 0 then
    { bss with channel := peek e.body 0 }
  else if e.id = eidRsn then
    match rtw88RsnSelectCcmpPsk e.body with
    | some (pairwise, group) =>
        { bss with
          cipher := pairwise, groupCipher := group, akm := akmPsk }
    | none => bss
  else if e.id = eidVendorSpecific ∧ 8 ≤ len
      ∧ e.body.take 4 = [0x00, 0x50, 0xf2, 0x01] ∧ bss.cipher = 0 then
    -- legacy WPA
    { bss with
      cipher := cipherTkip, groupCipher := cipherTkip, akm := akmPsk }
  else bss

/-- One element of a beacon into the entry under construction: its
fields, and its bytes if they still fit the cache. -/
def scanElem (bss : RTW88BSS) (e : Elem) : RTW88BSS :=
  let bss := scanField bss e
  if bss.ies.length + (2 + e.body.length) < 512
  then { bss with ies := bss.ies ++ e.bytes } else bss

/-- The channel number of a centre frequency, for beacons without one. -/
def channelOfFreq (freq : UInt16) : UInt8 :=
  let f := freq.toNat
  if f = 2484 then 14
  else if 2412 ≤ f ∧ f ≤ 2472 then UInt8.ofNat ((f - 2407) / 5)
  else if 5000 ≤ f ∧ f ≤ 5900 then UInt8.ofNat ((f - 5000) / 5)
  else 0

/-- The scan entry of a beacon or probe response. -/
def scanEntry (skb : SkBuff) (generation : UInt32) : RTW88BSS :=
  let bss := (elems (skb.data.drop 36)).foldl scanElem
    { RTW88BSS.zero with bssid := addr3 skb.data }
  let bss := { bss with
    rssi := skb.signal.toInt16, freq := skb.freq
    lastSeenScan := generation }
  if bss.channel = 0 ∧ bss.freq ≠ 0
  then { bss with channel := channelOfFreq bss.freq } else bss

/-- Update the entry of this BSSID in place, or say there is none. -/
def updateBss (bss : RTW88BSS) : List RTW88BSS → Option (List RTW88BSS)
  | [] => none
  | e :: es =>
      if e.bssid = bss.bssid then some (bss :: es)
      else (updateBss bss es).map (e :: ·)

/-- `processScanResult`. -/
def processScanResult (skb : SkBuff) (s : Mlme) : Mlme :=
  if skb.data.length < 30 + 12 || !env.bssAlloc then kfreeSkb skb s
  else
    let bss := scanEntry skb s.scanGeneration
    match updateBss bss s.bssList with
    | some l => kfreeSkb skb { s with bssList := l }
    | none =>
        kfreeSkb skb
          { s with bssList := bss :: s.bssList, bssCount := s.bssCount + 1 }

-- ============================================================== end of scan

/-- Whether the ageing of `scanDone` keeps an entry: it is the target of
a link, or was seen within three scans. -/
def keepsBss (s : Mlme) (b : RTW88BSS) : Bool :=
  let effective := if s.state = .scanning then s.scanReturnState else s.state
  ((effective == .connected || effective == .handshaking)
      && b.bssid == s.targetBSS.bssid)
    || !(3 < s.scanGeneration - b.lastSeenScan)

/-- The ageing loop of `scanDone`. -/
def ageBssList (s : Mlme) : Mlme :=
  let kept := s.bssList.filter (keepsBss s)
  { s with
    bssList := kept
    bssCount := s.bssCount - (s.bssList.length - kept.length) }

/-- The fields a scan leaves behind when it ends in `returnState`. -/
def leaveScan (returnState : RTW88State) (s : Mlme) : Mlme :=
  { s with
    state := returnState, scanReturnState := .idle
    manualScanOnHomeChannel := false }

/-- `scanDone`. -/
def scanDone (aborted : Bool) (s : Mlme) : Mlme :=
  let s := if aborted then s else ageBssList s
  if s.state ≠ .scanning then s
  else
    leaveScan s.scanReturnState
      (if s.scanReturnState == .connected && s.manualScanChannelCount != 0
        then restoreConnectedChannel hw s else s)

/-- `_manualScanChannelCount = 0`. -/
def clearManualScanCount (s : Mlme) : Mlme :=
  { s with manualScanChannelCount := 0 }

/-- The start of `abortActiveScan` in SCANNING: ask the scan to stop. -/
def abortScanStart (s : Mlme) : Mlme :=
  if s.manualScanChannelCount ≠ 0 then { s with manualScanAbort := true }
  else if s.up then s.emit .cancelHwScan else s

/-- The end of `abortActiveScan(true)` after its wait; `returnState` was
read before the wait. -/
def abortScanFinish (returnState : RTW88State) (s : Mlme) : Bool × Mlme :=
  if s.state ≠ .scanning then (true, s)
  else if s.manualScanChannelCount ≠ 0 then (false, s)
  else
    let s := if returnState = .connected then restoreConnectedChannel hw s
      else s
    (returnState != .scanning,
      leaveScan returnState (clearManualScanCount s))

-- ================================================================ cmdScan

/-- The enabled channels of all bands, at most 256. -/
def enabledChannels : List Channel :=
  ((Band.all.flatMap fun b =>
    match hw.bands b with
    | some band =>
        (band.channels.filter fun c => !c.disabled).map fun c =>
          { c with band := band.band }
    | none => [])).take 256

/-- The next scan generation; a wrap to zero restarts at one and makes
every entry look just seen. -/
def nextGeneration (s : Mlme) : Mlme :=
  let g := s.scanGeneration + 1
  if g = 0 then
    { s with
      scanGeneration := 1
      bssList := s.bssList.map fun b => { b with lastSeenScan := 1 } }
  else { s with scanGeneration := g }

/-- The state when the scan could not start. -/
def leaveScanning (returnState : RTW88State) (s : Mlme) : Mlme :=
  { s with state := returnState, scanReturnState := .idle }

/-- Hand the channels to the manual scan thread. -/
def startManualScan (chans : List Channel) (s : Mlme) : Mlme :=
  { s with
    manualScanChannels := chans, manualScanChannelCount := chans.length
    manualScanAbort := false, manualScanOnHomeChannel := false }.armTimer
      (if s.scanReturnState = RTW88State.connected then 30000 else 12000)

/-- `cmdScan`: the return code, whether the manual scan thread was
entered, and the state after. -/
def cmdScan (s : Mlme) : IOReturn × Bool × Mlme :=
  if s.state ≠ .idle then (.busy, false, s)
  else if !s.up then (.notReady, false, s)
  else
    let returnState := s.state
    let s := nextGeneration s
    let s := { s with
      scanReturnState := if returnState = .connected then returnState
        else .idle
      state := .scanning }
    let chans := enabledChannels hw
    if chans.length = 0 then
      (.notReady, false, leaveScanning returnState s)
    else if !hw.hwScanSupported then (.success, true, startManualScan chans s)
    else
      let s := s.emit .hwScan
      if !env.hwScan then (.success, true, startManualScan chans s)
      else (.success, false, s.armTimer 10000)

-- ======================================================= manual scan thread

/-- Where the manual scan thread sleeps or is about to run: at its
entry, before channel `i`, off the home channel with `chan` still to
tune (connected scans only), and dwelling on channel `i`. -/
inductive ScanPc
  | entry
  | chan (i count : Nat) (connectedScan : Bool)
  | leave (chan : Channel) (i count : Nat)
  | dwell (i count : Nat) (connectedScan : Bool)
  deriving DecidableEq, Repr

/-- `hw->conf.chandef` for a channel that is scanned. -/
def setScanChandef (chan : Channel) (s : Mlme) : Mlme :=
  { s with
    chandef :=
      { chan := some chan, width := .w20NoHt
        centerFreq1 := chan.centerFreq.toUInt32 } }

/-- Tune to a channel and probe it, unless it is passive. -/
def tuneScanChannel (chan : Channel) (s : Mlme) : Mlme :=
  let s := (setScanChandef chan s).emit .swScanSwitchChannel
  if chan.noIr || chan.radar then s else txProbeRequest hw env s

/-- `_manualScanOnHomeChannel = b`. -/
def setOnHomeChannel (b : Bool) (s : Mlme) : Mlme :=
  { s with manualScanOnHomeChannel := b }

/-- The fields of the manual scan that its end resets. -/
def clearManualScan (s : Mlme) : Mlme :=
  { s with manualScanAbort := false, manualScanChannelCount := 0 }

/-- Back to the home channel, with a null frame for the AP. -/
def visitHome (powerSave : Bool) (s : Mlme) : Mlme :=
  txNullFunc hw env powerSave (restoreConnectedChannel hw s)

/-- The end of `runManualScan`. -/
def endManualScan (connectedScan : Bool) (s : Mlme) : Mlme :=
  let s := (setOnHomeChannel false s).emit .swScanComplete
  let s := if connectedScan then visitHome hw env false s else s
  clearManualScan (scanDone hw s.manualScanAbort s)

/-- `runManualScan` from one sleep to the next; `none` when it is done. -/
def runManualScan (pc : ScanPc) (s : Mlme) : Option ScanPc × Mlme :=
  match pc with
  | .entry =>
      if !s.up then
        (none, clearManualScanCount (scanDone hw true s))
      else
        (some (.chan 0 (min s.manualScanChannelCount 256)
            (s.scanReturnState == .connected)),
          s.emit .swScanStart)
  | .chan i count connectedScan =>
      if i < count && !s.manualScanAbort then
        match s.manualScanChannels[i]? with
        | none => (some (.chan (i + 1) count connectedScan), s)
        | some chan =>
            let s := setOnHomeChannel false s
            if connectedScan then
              (some (.leave chan i count), visitHome hw env true s)
            else (some (.dwell i count false), tuneScanChannel hw env chan s)
      else (none, endManualScan hw env connectedScan s)
  | .leave chan i count =>
      (some (.dwell i count true), tuneScanChannel hw env chan s)
  | .dwell i count connectedScan =>
      let s := if connectedScan && !s.manualScanAbort
        then setOnHomeChannel true (visitHome hw env false s) else s
      (some (.chan (i + 1) count connectedScan), s)

end Rtw88
