/-
The object and the threads that run in it, as one step function.

# Threads

- `auths`: activations of `doAuthenticate`, from the connect thread call
  or from the timer. `thread_call_enter` on a call that has not started
  yet only keeps it pending, so at most one connect activation stands at
  its entry. The timer thread runs one `onTimer` at a time.
- `scans`: activations of `runManualScan`, entered the same way.
- `waiters`: `cmdConnect` and `cmdPowerOff` calls that sleep in
  `abortActiveScan` until the scan is over, at most 40 turns of 50 ms.
- `pending`: frames released from the reorder buffer, to be delivered.

Every other call runs in one event. All choices of the outside (which
event, what it carries, what every allocation and driver call answers)
are in the event, so a run is a list of events and every interleaving is
some list.

`attempt` counts the `cmdConnect` calls that found their target; an
activation carries the number of the attempt it works for.
-/
import Rtw88.Lib.Trace
import Rtw88.Model.Connect

namespace Rtw88

/-- One activation of `doAuthenticate`. -/
structure AuthThread where
  pc : AuthPc
  attempt : Nat
  onTimer : Bool
  deriving DecidableEq, Repr

/-- A command that waits in `abortActiveScan`. -/
inductive WaitCmd
  | connect (ssid : Option (List UInt8)) (password : List UInt8)
  | powerOff
  deriving DecidableEq, Repr

/-- A waiting command, the `returnState` it read, and its turn. -/
structure Waiter where
  cmd : WaitCmd
  returnState : RTW88State
  turn : Nat
  deriving DecidableEq, Repr

/-- The object and its threads. -/
structure Sys where
  mlme : Mlme
  auths : List AuthThread
  scans : List ScanPc
  waiters : List Waiter
  pending : List Pending
  attempt : Nat

/-- After `start`. -/
def Sys.init (powered : Bool) : Sys :=
  { mlme := Mlme.init powered, auths := [], scans := [], waiters := []
    pending := [], attempt := 0 }

/-- What happens next. `auth`, `scan`, `resume` and `deliver` name a
thread by its place. -/
inductive Event
  | cmdScan (env : Env)
  | cmdConnect (ssid : Option (List UInt8)) (password : List UInt8)
  | cmdDisconnect (env : Env)
  | cmdPowerOn (env : Env)
  | cmdPowerOff (env : Env)
  | resume (i : Nat) (env : Env)
  | powerOn (env : Env)
  | powerOff
  | rx (env : Env) (skb : SkBuff)
  | deliver (i : Nat) (env : Env)
  | scanDone (aborted : Bool)
  | timer (env : Env)
  | reorderTimer
  | output (env : Env) (m : List UInt8)
  | auth (i : Nat) (env : Env) (scanning : Bool)
  | scan (i : Nat) (env : Env)
  | stop (env : Env)

variable (hw : Hw)

-- ================================================================ threads

/-- `thread_call_enter(_connectTC)` for attempt `n`. -/
def enterConnect (n : Nat) (auths : List AuthThread) : List AuthThread :=
  if auths.any fun t => t.pc == .entry && !t.onTimer then
    auths.map fun t =>
      if t.pc == .entry && !t.onTimer then { t with attempt := n } else t
  else auths ++ [{ pc := .entry, attempt := n, onTimer := false }]

/-- `thread_call_enter(_manualScanTC)`. -/
def enterScan (scans : List ScanPc) : List ScanPc :=
  if scans.contains .entry then scans else scans ++ [.entry]

/-- Put a thread back at place `i`, or take it out when it is done. -/
def setThread {τ : Type} (l : List τ) (i : Nat) : Option τ → List τ
  | some t => l.set i t
  | none => l.eraseIdx i

-- =============================================================== commands

/-- `cmdConnect` from where no scan is in its way. -/
def runConnect (ssid : Option (List UInt8)) (password : List UInt8)
    (s : Sys) : Sys :=
  let r := connectTo ssid password s.mlme
  if r.2.1 then
    { s with
      mlme := r.2.2, attempt := s.attempt + 1
      auths := enterConnect (s.attempt + 1) s.auths }
  else { s with mlme := r.2.2 }

/-- A command goes on after `abortActiveScan`. A `cmdConnect` that could
not stop the scan is busy; `cmdPowerOff` does not look. -/
def runWaiter (env : Env) (cmd : WaitCmd) (aborted : Bool) (s : Sys) :
    Sys :=
  match cmd with
  | .connect ssid password =>
      if aborted then runConnect ssid password s else s
  | .powerOff => { s with mlme := finishPowerOff hw env s.mlme }

/-- A command in SCANNING: ask the scan to stop, then wait. -/
def startWait (cmd : WaitCmd) (s : Sys) : Sys :=
  { s with
    mlme := abortScanStart s.mlme
    waiters := s.waiters ++
      [{ cmd := cmd, returnState := s.mlme.scanReturnState, turn := 0 }] }

/-- One turn of the wait: sleep again, or go on. -/
def resumeWait (i : Nat) (env : Env) (s : Sys) : Sys :=
  match s.waiters[i]? with
  | none => s
  | some w =>
      if w.turn < 40 ∧ s.mlme.state = .scanning then
        { s with waiters := s.waiters.set i { w with turn := w.turn + 1 } }
      else
        let r := abortScanFinish hw w.returnState s.mlme
        runWaiter hw env w.cmd r.1
          { s with mlme := r.2, waiters := s.waiters.eraseIdx i }

-- ================================================================= frames

/-- File a delivery that is to happen. -/
def addPending (p : Option Pending) (s : Sys) : Sys :=
  match p with
  | some p => { s with pending := s.pending ++ [p] }
  | none => s

/-- Deliver the next frame of a released list; at its end, arm the flush
timer if asked to. -/
def deliverNext (i : Nat) (env : Env) (s : Sys) : Sys :=
  match s.pending[i]? with
  | none => s
  | some p =>
      match p.out with
      | [] =>
          { s with
            mlme := if p.needTimer then s.mlme.setReorderTimer true
              else s.mlme
            pending := s.pending.eraseIdx i }
      | skb :: rest =>
          { s with
            mlme := deliverDataFrame hw env skb s.mlme
            pending := s.pending.set i { p with out := rest } }

-- ============================================================= the system

/-- `timerFired`: only an armed timer fires, and not while the timer
thread is still in `doAuthenticate`. -/
def fireTimer (env : Env) (s : Sys) : Sys :=
  if s.mlme.timer.isNone || s.auths.any (·.onTimer) then s
  else
    let r := onTimer hw env s.mlme.cancelTimer
    if r.1 then
      { s with
        mlme := r.2
        auths := s.auths
          ++ [{ pc := .entry, attempt := s.attempt, onTimer := true }] }
    else { s with mlme := r.2 }

/-- `reorderTimerFired`. -/
def fireReorderTimer (s : Sys) : Sys :=
  if !s.mlme.reorderTimer then s
  else
    let o := rxReorderFlushStale s.mlme.rxBa
    { s with
      mlme := { s.mlme.setReorderTimer false with rxBa := o.rxBa }
      pending := s.pending ++ [{ out := o.out, needTimer := o.needTimer }] }

/-- The next stretch of a `doAuthenticate` activation. -/
def stepAuth (i : Nat) (env : Env) (scanning : Bool) (s : Sys) : Sys :=
  match s.auths[i]? with
  | none => s
  | some t =>
      let r := doAuthenticate hw env scanning t.pc s.mlme
      { s with
        mlme := r.2
        auths := setThread s.auths i (r.1.map fun pc => { t with pc := pc }) }

/-- The next stretch of a `runManualScan` activation. -/
def stepScan (i : Nat) (env : Env) (s : Sys) : Sys :=
  match s.scans[i]? with
  | none => s
  | some pc =>
      let r := runManualScan hw env pc s.mlme
      { s with mlme := r.2, scans := setThread s.scans i r.1 }

/-- One event. -/
def sysStep (s : Sys) (e : Event) : Sys :=
  match e with
  | .cmdScan env =>
      let r := cmdScan hw env s.mlme
      { s with
        mlme := r.2.2
        scans := if r.2.1 then enterScan s.scans else s.scans }
  | .cmdConnect ssid password =>
      if s.mlme.state = .scanning then startWait (.connect ssid password) s
      else runConnect ssid password s
  | .cmdDisconnect env => { s with mlme := (cmdDisconnect hw env s.mlme).2 }
  | .cmdPowerOn env => { s with mlme := (cmdPowerOn env s.mlme).2 }
  | .cmdPowerOff env =>
      if s.mlme.state = .scanning then startWait .powerOff s
      else { s with mlme := finishPowerOff hw env s.mlme }
  | .resume i env => resumeWait hw i env s
  | .powerOn env => { s with mlme := (powerOn env s.mlme).2 }
  | .powerOff => { s with mlme := powerOff s.mlme }
  | .rx env skb =>
      let r := rxFrame hw env skb s.mlme
      addPending r.2 { s with mlme := r.1 }
  | .deliver i env => deliverNext hw i env s
  | .scanDone aborted => { s with mlme := scanDone hw aborted s.mlme }
  | .timer env => fireTimer hw env s
  | .reorderTimer => fireReorderTimer s
  | .output env m => { s with mlme := (outputPacket hw env m s.mlme).2 }
  | .auth i env scanning => stepAuth hw i env scanning s
  | .scan i env => stepScan hw i env s
  | .stop env => { s with mlme := stop hw env s.mlme }

/-- The run of a list of events. -/
def sysRun (powered : Bool) (es : List Event) : Sys :=
  runFrom (sysStep hw) (Sys.init powered) es

end Rtw88
