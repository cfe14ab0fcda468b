/-
The control side of the object, abstractly: which phase it is in, what
deadline is pending, whether there is a station entry, whether uplink
aggregation is on, what was asked of the AP for it, and what the network
stack was last told about the link.

`Ctl` is that record and `ctl` reads it off the object. `Act` lists what
an event can do to it, one constructor for one outcome of the source's
own case distinctions, and `Act.run` is what each outcome does.
`Sys.act` says which one an event has, from the event and the state
before it. Everything is computable, and Proofs/Control/Step.lean shows
that the two sides agree: `ctl` of the state after an event is
`(s.act hw e).run` of `ctl` of the state before.
-/
import Rtw88.Spec.Steps
import Rtw88.Model.Teardown

namespace Rtw88

-- ============================================================ observations

/-- The dialog token of an ADDBA request for `_baTid`, if that is what
goes out. -/
def Obs.addbaToken : Obs → Option UInt8
  | .tx skb =>
      if peek skb.data 0 = 0xD0 ∧ peek skb.data 24 = categoryBack
          ∧ peek skb.data 25 = actionAddbaReq
          ∧ ((le16At skb.data 27 >>> 2) &&& 0xf).toUInt8 = baTid
      then some (peek skb.data 26) else none
  | _ => none

/-- The link status an observation reports. -/
def Obs.linkStatus : Obs → Option Bool
  | .setLinkStatus active => some active
  | _ => none

-- ============================================================== the record

/-- The control side of the object: `link` is the last status given to
`setLinkStatus`, `asked` are the dialog tokens of all requests sent,
newest first. -/
@[ext] structure Ctl where
  up : Bool
  powered : Bool
  state : RTW88State
  timer : Option Nat
  hasSta : Bool
  txBa : Bool
  dialog : UInt8
  link : Option Bool
  asked : List UInt8

/-- The control side, read off the object. -/
def ctl (s : Mlme) : Ctl :=
  { up := s.up, powered := s.powered, state := s.state, timer := s.timer
    hasSta := s.sta.isSome, txBa := s.txBaActive, dialog := s.baDialog
    link := s.log.findSome? Obs.linkStatus
    asked := s.log.filterMap Obs.addbaToken }

/-- `releaseSta`: nothing without a station. -/
def Ctl.release (c : Ctl) : Ctl :=
  if c.hasSta then { c with hasSta := false, txBa := false } else c

section Release

variable (c : Ctl)

/-- A release leaves the driver up, or down. -/
@[simp] theorem Ctl.release_up : c.release.up = c.up := by
  rw [Ctl.release]
  split <;> rfl

@[simp] theorem Ctl.release_powered : c.release.powered = c.powered := by
  rw [Ctl.release]
  split <;> rfl

@[simp] theorem Ctl.release_timer : c.release.timer = c.timer := by
  rw [Ctl.release]
  split <;> rfl

/-- A release reports no status. -/
@[simp] theorem Ctl.release_link : c.release.link = c.link := by
  rw [Ctl.release]
  split <;> rfl

/-- It leaves the requests made. -/
@[simp] theorem Ctl.release_asked : c.release.asked = c.asked := by
  rw [Ctl.release]
  split <;> rfl

/-- The flag survives where there is no station. -/
@[simp] theorem Ctl.release_txBa :
    c.release.txBa = (c.txBa && !c.hasSta) := by
  rw [Ctl.release]
  cases h : c.hasSta <;> simp

end Release

/-- `doDisconnect`. -/
def Ctl.disconnect (c : Ctl) : Ctl :=
  if !c.up then { c with state := .idle }
  else { c.release with state := .idle, timer := none, link := some false }

/-- A disconnect leaves the driver up. -/
@[simp] theorem Ctl.disconnect_up (c : Ctl) : c.disconnect.up = c.up := by
  rw [Ctl.disconnect]
  split
  · rfl
  · exact c.release_up

@[simp] theorem Ctl.disconnect_powered (c : Ctl) :
    c.disconnect.powered = c.powered := by
  rw [Ctl.disconnect]
  split
  · rfl
  · exact c.release_powered

/-- It ends in IDLE either way. -/
@[simp] theorem Ctl.disconnect_state (c : Ctl) :
    c.disconnect.state = .idle := by
  rw [Ctl.disconnect]
  split <;> rfl

/-- The dialog token after `d`; zero is skipped. -/
def nextDialog (d : UInt8) : UInt8 := if d + 1 = 0 then 1 else d + 1

/-- `startTxAggregation`: `none` when it asks for nothing, else whether
the request got out. The token is used up either way. -/
def Ctl.aggregate (ask : Option Bool) (c : Ctl) : Ctl :=
  match ask with
  | none => c
  | some sent =>
      { c with
        dialog := nextDialog c.dialog
        asked := if sent then nextDialog c.dialog :: c.asked else c.asked }

section Aggregate

variable (ask : Option Bool) (c : Ctl)

/-- Asking for aggregation leaves the driver up, or down. -/
@[simp] theorem Ctl.aggregate_up : (c.aggregate ask).up = c.up := by
  cases ask <;> rfl

@[simp] theorem Ctl.aggregate_state :
    (c.aggregate ask).state = c.state := by
  cases ask <;> rfl

@[simp] theorem Ctl.aggregate_timer :
    (c.aggregate ask).timer = c.timer := by
  cases ask <;> rfl

@[simp] theorem Ctl.aggregate_hasSta :
    (c.aggregate ask).hasSta = c.hasSta := by
  cases ask <;> rfl

/-- The answer is still to come. -/
@[simp] theorem Ctl.aggregate_txBa : (c.aggregate ask).txBa = c.txBa := by
  cases ask <;> rfl

/-- Asking for aggregation reports no status. -/
@[simp] theorem Ctl.aggregate_link : (c.aggregate ask).link = c.link := by
  cases ask <;> rfl

end Aggregate

-- ================================================================= actions

/-- What an event does to the control side. -/
inductive Act
  /-- Nothing. -/
  | quiet
  /-- `_powered` is written. -/
  | power (on : Bool)
  /-- `cmdPowerOn` succeeds. -/
  | ready
  /-- A scan starts, with this deadline. -/
  | scan (ms : Nat)
  /-- A scan ends; its deadline stays. -/
  | endScan
  /-- The deadline passes: without effect on the phase, with the end of a
  scan or an association attempt, with the end of a handshake. -/
  | expire
  | giveUp
  | dropHandshake
  /-- `doDisconnect` for a command. -/
  | disconnect
  /-- `cmdPowerOff`. -/
  | powerDown
  /-- `cmdConnect` clears the old link away, and does not find its
  target, or finds it. -/
  | release
  | connect
  /-- The final write of `doAuthenticate`. -/
  | authWrite
  /-- The authentication is accepted. -/
  | associate
  /-- The authentication or the association is refused. -/
  | refuse
  /-- The association is accepted: a handshake is to follow, or not.
  `alloc` is whether a station entry could be had. -/
  | handshake (alloc : Bool)
  | openLink (alloc : Bool) (ask : Option Bool)
  /-- An M1 is processed. -/
  | rekey
  /-- An M3 is accepted and its keys installed. -/
  | linkUp (ask : Option Bool)
  /-- A deauthentication or disassociation frame is obeyed. -/
  | deauth
  /-- An ADDBA response grants `_baTid`, under this dialog token. -/
  | agree (token : UInt8)
  /-- A DELBA ends our agreement for `_baTid`. -/
  | delba
  /-- `stop`. -/
  | stop
  deriving DecidableEq

/-- The phases `cmdPowerOff` leaves through `doDisconnect`. -/
def RTW88State.linked (st : RTW88State) : Bool :=
  st == .connected || st == .authenticating || st == .associating
    || st == .handshaking

/-- What each does. -/
def Act.run (a : Act) (c : Ctl) : Ctl :=
  match a with
  | .quiet => c
  | .power on => { c with powered := on }
  | .ready =>
      { c with
        powered := true
        state := if c.state = .disconnecting then .idle else c.state }
  | .scan ms => { c with state := .scanning, timer := some ms }
  | .endScan => { c with state := .idle }
  | .expire => { c with timer := none }
  | .giveUp => { c with timer := none, state := .idle }
  | .dropHandshake => { c with timer := none }.disconnect
  | .disconnect => c.disconnect
  | .powerDown =>
      { (if c.state.linked then c.disconnect else c.release) with
        powered := false, state := .idle, link := some false }
  | .release => { c.release with state := .idle }
  | .connect => { c.release with state := .authenticating }
  | .authWrite => { c with state := .authenticating, timer := some 3000 }
  | .associate => { c with state := .associating, timer := some 3000 }
  | .refuse => { c with state := .idle }
  | .handshake alloc =>
      { c with
        hasSta := c.hasSta || alloc, state := .handshaking
        timer := some 8000 }
  | .openLink alloc ask =>
      { c with
        hasSta := c.hasSta || alloc, state := .connected
        link := some true, timer := none }.aggregate ask
  | .rekey => { c with timer := some 5000 }
  | .linkUp ask =>
      { c with
        state := .connected, link := some true, timer := none }.aggregate ask
  | .deauth =>
      { c with txBa := false, state := .idle, link := some false }
  | .agree _ => { c with txBa := true }
  | .delba => { c with txBa := false }
  | .stop =>
      let c' := { c with timer := none }
      { (if c.state = RTW88State.connected && c.powered then c'.disconnect
          else c'.release) with
        powered := c.powered && !c.up, state := .idle, up := false }

/-- Whether it arms the timer. -/
def Act.arms : Act → Bool
  | .scan _ | .authWrite | .associate | .handshake _ | .rekey => true
  | _ => false

-- ================================================== which action an event is

variable (hw : Hw) (env : Env)

/-- `startTxAggregation` in this state: whether it asks, and whether the
request gets out. -/
def asks (s : Mlme) : Option Bool :=
  if s.txBaActive || !htAllowed s then none
  else match s.sta with
    | none => none
    | some sta =>
        if !sta.htCap.htSupported then none else some (s.up && env.mgmtSkb)

/-- `cmdConnect` where no scan is in its way. -/
def connectAct (ssid : Option (List UInt8)) (s : Mlme) : Act :=
  if s.state ≠ .idle then .quiet
  else match ssid with
    | none => .quiet
    | some ssid =>
        if (findBss ssid s.bssList).isSome then .connect else .release

/-- A waiting command that goes on. -/
def waiterAct (w : Waiter) (s : Mlme) : Act :=
  match w.cmd with
  | .powerOff => .powerDown
  | .connect ssid _ =>
      let r := abortScanFinish hw w.returnState s
      if !r.1 then .quiet
      else match connectAct ssid r.2 with
        | .quiet => if s.state = .scanning then .endScan else .quiet
        | a => a

/-- An authentication frame. -/
def authAct (skb : SkBuff) (s : Mlme) : Act :=
  if s.state ≠ .authenticating ∨ addr3 skb.mem ≠ s.targetBSS.bssid
  then .quiet
  else if bodyLen skb < 6 ∨ le16At skb.mem 28 = 0 then
    if s.up then .associate else .quiet
  else .refuse

/-- An association or reassociation response. -/
def assocAct (skb : SkBuff) (s : Mlme) : Act :=
  if s.state ≠ .associating ∨ addr3 skb.mem ≠ s.targetBSS.bssid then .quiet
  else if !assocOk env skb s then .refuse
  else if s.wpa2 then .handshake env.staAlloc
  else
    .openLink env.staAlloc (asks env
      (addSta hw env (le16At (env.freed.getD skb.mem) 28 &&& 0x3FFF) s))

/-- The body of a BlockAck action frame from the AP. -/
def backAct (b : List UInt8) : Act :=
  if b.length < 2 then .quiet
  else if peek b 1 = actionAddbaReq then .quiet
  else if peek b 1 = actionAddbaResp then
    if 9 ≤ b.length ∧ le16At b 3 = 0
        ∧ ((le16At b 5 >>> 2) &&& 0xf).toUInt8 = baTid
    then .agree (peek b 2) else .quiet
  else if peek b 1 = actionDelba then
    if 6 ≤ b.length ∧ le16At b 2 &&& 0x0800 = 0
        ∧ ((le16At b 2 >>> 12) &&& 0xf).toUInt8 = baTid
    then .delba else .quiet
  else .quiet

/-- A management frame. -/
def mgmtAct (skb : SkBuff) (s : Mlme) : Act :=
  let m := skb.mem
  let stype := frameControl m &&& 0x00f0
  if stype = 0x0080 ∨ stype = 0x0050 then .quiet
  else if stype = 0x00B0 then authAct skb s
  else if stype = 0x0010 ∨ stype = 0x0030 then assocAct hw env skb s
  else if stype = 0x00A0 ∨ stype = 0x00C0 then
    if deauthAccepted hw skb s then .deauth else .quiet
  else if stype = 0x00D0 then
    if s.state = .connected ∧ 26 ≤ skb.data.length
        ∧ peek m 24 = categoryBack ∧ addr3 m = s.targetBSS.bssid
    then backAct (skb.data.drop 24) else .quiet
  else .quiet

/-- Both keys of a verified M3 are installed. -/
def m3Installs (data keyData : List UInt8) (s : Mlme) : Bool :=
  let s := setReplayCtr (grab data 9 8) s
  let pairwise := installPairwise env.pairwiseAlloc env.pairwiseSet 0
    cipherCcmp (tkOf s.ptk).toList s
  pairwise.1 && match extractGtkFromKde keyData with
    | none => true
    | some (gtk, idx) =>
        gtk.length == 0
          || (installGroup env.groupAlloc env.groupSet idx
            (groupCipher pairwise.2) gtk pairwise.2).1

/-- An EAPOL body in HANDSHAKING. -/
def eapolAct (data : List UInt8) (s : Mlme) : Act :=
  match eapolLen data with
  | none => .quiet
  | some len =>
      if isM1 (be16At data 5) then .rekey
      else if isM3 (be16At data 5) then
        match m3Verified hw env s.ptk data len with
        | none => .quiet
        | some keyData =>
            if m3Installs env data keyData s then .linkUp (asks env s)
            else .quiet
      else .quiet

/-- The data frame that is delivered, if there is one: it acts through
the handshake only. -/
def dataAct (delivered : Option (Env × SkBuff)) (s : Mlme) : Act :=
  match delivered with
  | none => .quiet
  | some (env, skb) =>
      match decap skb with
      | .single msdu =>
          if msdu.ethertype = ethPPae ∧ s.state = .handshaking
          then eapolAct hw env msdu.payload s else .quiet
      | _ => .quiet

/-- The timer fires. -/
def timerAct (s : Mlme) : Act :=
  match s.state with
  | .scanning => if s.manualScanChannelCount ≠ 0 then .expire else .giveUp
  | .associating => .giveUp
  | .handshaking => .dropHandshake
  | _ => .expire

/-- A stretch of the manual scan thread. -/
def scanAct (pc : ScanPc) (s : Mlme) : Act :=
  let ends := match pc with
    | .entry => !s.up
    | .chan i count _ => !(i < count && !s.manualScanAbort)
    | _ => false
  if ends && s.state == .scanning then .endScan else .quiet

/-- The timer is armed, and its thread is free. -/
def Sys.timerDue (s : Sys) : Bool :=
  s.mlme.timer.isSome && !s.auths.any (·.onTimer)

/-- What an event does. -/
def Sys.act (s : Sys) (e : Event) : Act :=
  match e with
  | .cmdScan env =>
      if s.mlme.state = .idle ∧ s.mlme.up ∧ (enabledChannels hw).length ≠ 0
      then .scan (if hw.hwScanSupported && env.hwScan then 10000 else 12000)
      else .quiet
  | .cmdConnect ssid _ => connectAct ssid s.mlme
  | .cmdDisconnect _ =>
      if s.mlme.state = .idle then .quiet else .disconnect
  | .cmdPowerOn env =>
      if s.mlme.powered || (s.mlme.up && env.hwStart) then .ready else .quiet
  | .cmdPowerOff _ =>
      if s.mlme.state = .scanning then .quiet else .powerDown
  | .resume i _ =>
      match s.waiters[i]? with
      | none => .quiet
      | some w =>
          if w.turn < 40 ∧ s.mlme.state = .scanning then .quiet
          else waiterAct hw w s.mlme
  | .powerOn env =>
      if s.mlme.powered || (s.mlme.up && env.hwStart) then .power true
      else .quiet
  | .powerOff => .power false
  | .rx env skb =>
      match e.mgmt with
      | some (env, skb) => mgmtAct hw env skb s.mlme
      | none => dataAct hw (s.delivers (.rx env skb)) s.mlme
  | .deliver i env => dataAct hw (s.delivers (.deliver i env)) s.mlme
  | .scanDone _ => if s.mlme.state = .scanning then .endScan else .quiet
  | .timer _ => if s.timerDue then timerAct s.mlme else .quiet
  | .auth _ _ _ =>
      match s.finishing e with
      | some _ => .authWrite
      | none => .quiet
  | .scan i _ =>
      match s.scans[i]? with
      | none => .quiet
      | some pc => scanAct pc s.mlme
  | .stop _ => .stop
  | .reorderTimer | .output _ _ => .quiet

-- ================================================================== guards

/-- The event is an expiry of the timer. -/
def Event.isTimer : Event → Bool
  | .timer _ => true
  | _ => false

/-- What the source has checked when an event acts so. -/
def Act.Guard (s : Sys) (e : Event) : Act → Prop
  | .scan _ => s.mlme.state = .idle
  | .endScan => s.mlme.state = .scanning
  | .expire => e.isTimer = true ∧ s.timerDue = true
  | .giveUp =>
      e.isTimer = true ∧ s.timerDue = true
        ∧ (s.mlme.state = .scanning ∨ s.mlme.state = .associating)
  | .dropHandshake =>
      e.isTimer = true ∧ s.timerDue = true ∧ s.mlme.state = .handshaking
  | .release => s.mlme.state = .idle ∨ s.mlme.state = .scanning
  | .connect =>
      FindsTarget hw s e
        ∧ (s.mlme.state = .idle ∨ s.mlme.state = .scanning)
  | .authWrite => (s.finishing e).isSome
  | .refuse =>
      s.mlme.state = .authenticating ∨ s.mlme.state = .associating
  | .associate =>
      s.mlme.state = .authenticating ∧ s.mlme.up = true
  | .handshake _ => s.mlme.state = .associating
  | .openLink alloc ask =>
      s.mlme.state = .associating
        ∧ (ask.isSome = true → s.mlme.sta.isSome || alloc)
  | .rekey => s.mlme.state = .handshaking
  | .linkUp ask =>
      s.mlme.state = .handshaking ∧ (ask.isSome = true → s.mlme.sta.isSome)
  | .agree _ | .delba => s.mlme.state = .connected
  | .stop => e.isStop = true
  | _ => True

end Rtw88
