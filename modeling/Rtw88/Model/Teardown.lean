/-
The teardown of a link, one assignment or driver call at a time.

`doDisconnect`, the deauthentication branch of `processRxMgmt` and
`cmdPowerOff` hold no lock, so the transmit thread (and any other) may
run between any two of their statements. `TearOp` are the statements,
the `…Code` programs put them in the order of the source, and
`TearSys` interleaves any number of such activations with the events of
the whole system. Proofs/Teardown.lean shows that a program left alone is
the function in Model/Connect.lean or Model/Rx.lean.

Each statement reads the fields when it runs. A question (`if (_ptkConf)`
and the like) is a step of its own.
-/
import Rtw88.Lib.Prog
import Rtw88.Model.System

namespace Rtw88

variable (hw : Hw) (env : Env)

-- ============================================================== statements

/-- The statements of the teardown paths. -/
inductive TearOp
  /-- `ops->set_key(DISABLE_KEY, …, _ptkConf)`, and for `_gtkConf`. -/
  | disablePtk
  | disableGtk
  /-- `IOFree(_ptkConf)`; `_ptkConf = nullptr`; the same for `_gtkConf`. -/
  | freePtk
  | nullPtk
  | freeGtk
  | nullGtk
  /-- The `memset`s of `_ptk` and `_ccmpTxPn`. -/
  | zeroPtk
  | zeroPn
  /-- `txMgmtFrame(deauth)`. -/
  | txDeauth
  /-- `bss->assoc = false`; `ops->bss_info_changed`. -/
  | dropBssAssoc
  | notifyBss
  /-- `ops->sta_remove`; `IOFree(_sta)`; `_sta = nullptr`. -/
  | staRemove
  | freeSta
  | nullSta
  /-- `_txBaActive = false`; `_dataSeq = 0`; `rxBaTeardown(tid)`. -/
  | clearTxBa
  | clearDataSeq
  | baTeardown (tid : Nat)
  /-- `_state = IDLE`; `_scanReturnState = IDLE`. -/
  | stateIdle
  | returnIdle
  /-- `_timer->cancelTimeout()`; `_parent->setLinkStatus(…)`. -/
  | cancelTimer
  | linkDown
  /-- `ops->stop`; `_powered = false`. -/
  | hwStop
  | powerDown
  deriving DecidableEq, Repr

/-- What a statement does. `IOFree` leaves the pointer as it is. -/
def TearOp.run (op : TearOp) (s : Mlme) : Mlme :=
  match op with
  | .disablePtk => disableKey s.ptkConf s
  | .disableGtk => disableKey s.gtkConf s
  | .freePtk =>
      match s.ptkConf with
      | some k => s.emit (.freeKey k.addr)
      | none => s
  | .nullPtk => { s with ptkConf := none }
  | .freeGtk =>
      match s.gtkConf with
      | some k => s.emit (.freeKey k.addr)
      | none => s
  | .nullGtk => { s with gtkConf := none }
  | .zeroPtk => { s with ptk := zeros 64 }
  | .zeroPn => { s with ccmpTxPn := zeros 6 }
  | .txDeauth => txMgmtFrame env (deauthFrame hw s) s
  | .dropBssAssoc => clearBssAssoc s
  | .notifyBss => s.emit (.bssInfoChanged s.vif.bssAssoc)
  | .staRemove =>
      match s.sta with
      | some sta => s.emit (.staRemove sta.addr)
      | none => s
  | .freeSta =>
      match s.sta with
      | some sta => s.emit (.freeSta sta.addr)
      | none => s
  | .nullSta => { s with sta := none }
  | .clearTxBa => setTxBa false s
  | .clearDataSeq => { s with dataSeq := 0 }
  | .baTeardown tid => s.rxBaTeardown tid
  | .stateIdle => s.setState .idle
  | .returnIdle => { s with scanReturnState := .idle }
  | .cancelTimer => s.cancelTimer
  | .linkDown => s.emit (.setLinkStatus false)
  | .hwStop => s.emit .hwStop
  | .powerDown => setPowered false s

-- ================================================================ programs

/-- A piece of a teardown path. -/
abbrev TearCode := Prog TearOp Mlme

section Programs

open TearOp Prog

/-- `clearKeys`. -/
def clearKeysCode : TearCode :=
  (whenever (fun s => s.powered && s.up)
      ((whenever (·.ptkConf.isSome) (acts [disablePtk])).seq
        (whenever (·.gtkConf.isSome) (acts [disableGtk])))).seq
    ((whenever (·.ptkConf.isSome) (acts [freePtk, nullPtk])).seq
      ((whenever (·.gtkConf.isSome) (acts [freeGtk, nullGtk])).seq
        (acts [zeroPtk, zeroPn])))

/-- `rxBaTeardownAll`. -/
def rxBaTeardownAllCode : TearCode :=
  acts ((List.range kRxBaNumTid).map baTeardown)

/-- `releaseSta`. -/
def releaseStaCode : TearCode :=
  whenever (·.sta.isSome)
    ((whenever (·.up) (acts [staRemove])).seq
      ((acts [freeSta, nullSta, clearTxBa, clearDataSeq]).seq
        rxBaTeardownAllCode))

/-- `doDisconnect`. -/
def doDisconnectCode : TearCode :=
  .test (fun s => !s.up) (acts [stateIdle, returnIdle])
    (clearKeysCode.seq
      ((acts [txDeauth, dropBssAssoc, notifyBss]).seq
        (releaseStaCode.seq
          (acts [stateIdle, returnIdle, cancelTimer, linkDown]))))

/-- The deauthentication branch, once the frame is accepted. -/
def leaveOnDeauthCode : TearCode :=
  clearKeysCode.seq
    ((acts [clearTxBa]).seq
      (rxBaTeardownAllCode.seq (acts [stateIdle, returnIdle, linkDown])))

/-- `powerOff`. -/
def powerOffCode : TearCode :=
  whenever (·.powered)
    ((whenever (·.up) (acts [hwStop])).seq (acts [powerDown]))

/-- `cmdPowerOff` once no scan is in its way. -/
def finishPowerOffCode : TearCode :=
  (Prog.test (fun s => decide (s.state = .connected
        ∨ s.state = .authenticating ∨ s.state = .associating
        ∨ s.state = .handshaking))
      doDisconnectCode (clearKeysCode.seq releaseStaCode)).seq
    (powerOffCode.seq (acts [stateIdle, returnIdle, linkDown]))

end Programs

/-- The ways into a teardown: `cmdDisconnect`, the handshake timeout, a
deauthentication or disassociation frame, `cmdPowerOff`. -/
inductive TearPath
  | cmdDisconnect
  | timeout
  | deauth (skb : SkBuff)
  | cmdPowerOff

/-- The frame is one the deauthentication branch acts on. -/
def deauthAccepted (skb : SkBuff) (s : Mlme) : Bool :=
  (s.state == .connected || s.state == .handshaking
      || (s.state == .scanning && s.scanReturnState == .connected))
    && (addr3 skb.mem == s.targetBSS.bssid
      || addr2 skb.mem == s.targetBSS.bssid)
    && (addr1 skb.mem == hw.macAddr || addr1 skb.mem == broadcast)

/-- What each way does. -/
def TearPath.code : TearPath → TearCode
  | .cmdDisconnect => Prog.whenever (fun s => s.state != .idle)
      doDisconnectCode
  | .timeout => Prog.whenever (fun s => s.state == .handshaking)
      doDisconnectCode
  | .deauth skb => Prog.whenever (deauthAccepted hw skb) leaveOnDeauthCode
  | .cmdPowerOff => finishPowerOffCode

-- ============================================================== the system

/-- One activation of a teardown path: what is left to do, and whether it
stands between `IOFree(_ptkConf)` and the write that closes the transmit
gate, `_sta = nullptr` or `_state = IDLE`. -/
structure TearThread where
  env : Env
  code : TearCode
  inGap : Bool

/-- How a statement moves that mark. -/
def gapAfter (op : TearOp) (inGap : Bool) : Bool :=
  match op with
  | .freePtk => true
  | .nullSta | .stateIdle => false
  | _ => inGap

/-- The system and the teardowns in progress. -/
structure TearSys where
  sys : Sys
  tears : List TearThread

/-- Nothing is being torn down after `start`. -/
def TearSys.init (powered : Bool) : TearSys :=
  { sys := Sys.init powered, tears := [] }

/-- An event of the system, a teardown that begins, or the next step of
one. -/
inductive TearEvent
  | sys (e : Event)
  | begin (path : TearPath) (env : Env)
  | tear (i : Nat)

/-- The next step of an activation. -/
def TearThread.next (t : TearThread) (s : Mlme) : TearThread × Mlme :=
  let r := t.code.step (TearOp.run hw t.env) s
  ({ t with
      code := r.1
      inGap := match t.code with
        | .act op _ => gapAfter op t.inGap
        | _ => t.inGap }, r.2)

/-- One event. -/
def tearStep (t : TearSys) (e : TearEvent) : TearSys :=
  match e with
  | .sys e => { t with sys := sysStep hw t.sys e }
  | .begin path env =>
      { t with
        tears := t.tears
          ++ [{ env := env, code := path.code hw, inGap := false }] }
  | .tear i =>
      match t.tears[i]? with
      | none => t
      | some th =>
          let r := th.next hw t.sys.mlme
          { sys := { t.sys with mlme := r.2 }, tears := t.tears.set i r.1 }

/-- The run of a list of events. -/
def tearRun (powered : Bool) (es : List TearEvent) : TearSys :=
  runFrom (tearStep hw) (TearSys.init powered) es

end Rtw88
