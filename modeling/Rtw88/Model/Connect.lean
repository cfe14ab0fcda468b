/-
Commands, timeouts and the connection attempt: `cmdConnect`,
`cmdDisconnect`, `cmdPowerOn`, `cmdPowerOff`, `doDisconnect`,
`doAuthenticate`, `onTimer` and `stop`.

`cmdConnect` and `cmdPowerOff` may wait for a scan to end first; what
they do after that wait is `connectTo` and `finishPowerOff`.

`doAuthenticate` sleeps, so it is a thread: `AuthPc` is where it stands.
-/
import Rtw88.Model.Rx

namespace Rtw88

variable (hw : Hw) (env : Env)

-- ============================================================== disconnect

/-- `bss_conf.assoc = false`. -/
def clearBssAssoc (s : Mlme) : Mlme :=
  { s with vif := { s.vif with bssAssoc := false } }

/-- `doDisconnect`. -/
def doDisconnect (s : Mlme) : Mlme :=
  if !s.up then s.setIdle
  else
    let s := clearKeys s
    let s := txMgmtFrame env (deauthFrame hw s) s
    let s := releaseSta ((clearBssAssoc s).emit (.bssInfoChanged false))
    s.setIdle.cancelTimer.emit (.setLinkStatus false)

/-- `cmdDisconnect`. -/
def cmdDisconnect (s : Mlme) : IOReturn × Mlme :=
  if s.state = .idle then (.success, s)
  else (.success, doDisconnect hw env s)

-- =================================================================== power

/-- `_powered = b`. -/
def setPowered (b : Bool) (s : Mlme) : Mlme := { s with powered := b }

/-- `powerOn`. -/
def powerOn (s : Mlme) : IOReturn × Mlme :=
  if s.powered then (.success, s)
  else if !s.up then (.notReady, s)
  else
    let s := s.emit (.hwStart env.hwStart)
    if !env.hwStart then (.error, s)
    else (.success, setPowered true s)

/-- `powerOff`. -/
def powerOff (s : Mlme) : Mlme :=
  if !s.powered then s
  else setPowered false (if s.up then s.emit .hwStop else s)

/-- `cmdPowerOn`. -/
def cmdPowerOn (s : Mlme) : IOReturn × Mlme :=
  let r := powerOn env s
  if r.1 = .success ∧ r.2.state = .disconnecting
  then (r.1, r.2.setState .idle) else r

/-- `cmdPowerOff` once no scan is in its way. -/
def finishPowerOff (s : Mlme) : Mlme :=
  let s := if s.state = .connected ∨ s.state = .authenticating
      ∨ s.state = .associating ∨ s.state = .handshaking
    then doDisconnect hw env s
    else releaseSta (clearKeys s)
  (powerOff s).setIdle.emit (.setLinkStatus false)

-- ================================================================= connect

/-- The bytes of a C string. -/
def cStr (d : List UInt8) : List UInt8 := d.takeWhile (· ≠ 0)

/-- The first scan entry with this SSID. -/
def findBss (ssid : List UInt8) (l : List RTW88BSS) : Option RTW88BSS :=
  l.find? fun b => cStr b.ssid.toList == cStr ssid

/-- The target, the password and the state of a new attempt. -/
def setTarget (target : RTW88BSS) (password : List UInt8) (s : Mlme) :
    Mlme :=
  { s with
    targetBSS := target, password := password
    wpa2 := target.cipher == cipherCcmp, state := .authenticating }

/-- `cmdConnect` once no scan is in its way: the return code, whether the
connect thread call was entered, and the state after. -/
def connectTo (ssid : Option (List UInt8)) (password : List UInt8)
    (s : Mlme) : IOReturn × Bool × Mlme :=
  if s.state ≠ .idle then (.busy, false, s)
  else match ssid with
    | none => (.badArgument, false, s)
    | some ssid =>
        let s := releaseSta (clearKeys s)
        match findBss ssid s.bssList with
        | none => (.notFound, false, s)
        | some target =>
            let password := (cStr password).take 63
            (.success, true,
              (setTarget target password s).emit
                (.connecting target password))

/-- Where `doAuthenticate` stands: at its entry, waiting for the scan flag
for the `i`-th time, in the settle sleep, before the transmission, before
the final write. -/
inductive AuthPc
  | entry
  | waitScan (i : Nat)
  | settle
  | transmit
  | finish
  deriving DecidableEq, Repr

/-- The channel switch and BSSID part of `doAuthenticate`. -/
def connectSetup (s : Mlme) : Mlme :=
  let s := setTargetChandef hw s
  let s := s.emit (.connectHwSetup s.targetBSS.bssid)
  { s with
    vif := { s.vif with
      bssid := s.targetBSS.bssid, bssAssoc := false, bssAid := 0 } }

/-- `doAuthenticate` from one point to the next; `none` when it is done.
`scanning` is what `rtw88_is_scanning` answers. With `_hw` gone in the
middle the source would fault; the thread ends. -/
def doAuthenticate (scanning : Bool) (pc : AuthPc) (s : Mlme) :
    Option AuthPc × Mlme :=
  match pc with
  | .entry => if !s.up then (none, s) else (some (.waitScan 0), s)
  | .waitScan i =>
      if i < 100 && scanning then (some (.waitScan (i + 1)), s)
      else (some .settle, s)
  | .settle =>
      if !s.up then (none, s) else (some .transmit, connectSetup hw s)
  | .transmit =>
      let frame := buildAuthReq hw s
      (some .finish, txMgmtFrame env frame.1 frame.2)
  | .finish => (none, (s.setState .authenticating).armTimer 3000)

-- ================================================================ timeouts

/-- `onTimer`, and whether it goes on into `doAuthenticate`. -/
def onTimer (s : Mlme) : Bool × Mlme :=
  match s.state with
  | .scanning =>
      if s.manualScanChannelCount ≠ 0 then
        (false, abortScanStart s)
      else
        let s := abortScanStart s
        (false, leaveScanning s.scanReturnState
          (if s.scanReturnState = .connected
            then restoreConnectedChannel hw s else s))
  | .authenticating => (true, s)
  | .associating => (false, s.setState .idle)
  | .handshaking => (false, doDisconnect hw env s)
  | _ => (false, s)

/-- `_vif = _hw = _rtwdev = nullptr`. -/
def setDown (s : Mlme) : Mlme := { s with up := false }

/-- `stop`. -/
def stop (s : Mlme) : Mlme :=
  let s := s.cancelTimer
  let s := if (s.state = .connected
        ∨ (s.state = .scanning ∧ s.scanReturnState = .connected)) ∧ s.powered
    then doDisconnect hw env s
    else releaseSta (clearKeys s)
  let s := if !s.up then s
    else
      (if s.powered then setPowered false (s.emit .hwStop) else s).emit
        .removeInterface
  setDown s.setIdle

end Rtw88
