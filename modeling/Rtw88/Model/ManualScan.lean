/-
The manual scan thread statement by statement.

Model/Scan.lean runs `runManualScan` from one sleep to the next; here
every statement is a step of its own (with all that the helper it calls
does), so that anything can come in between: after a test and before
what it guards, after the state went back to IDLE and before the fields
of the scan are reset.

- `passStep`: one statement of a pass. A pass left alone does what
  `runManualScan` does (`runManualScan_stretch`).
- `ScanSys`: the object with its other threads (`Sys`), which take no
  part in the passes, and the passes.

Of each pass, and of what becomes of the scans, a record is kept that no
code reads: which `cmdScan` a pass belongs to, the channels it visited,
whether it found the driver gone, and the scans that a command or the
timeout asked to stop.
-/
import Rtw88.Model.System

namespace Rtw88

variable (hw : Hw) (env : Env)

-- ================================================================= one pass

/-- The statement of `runManualScan` that is next. -/
inductive PassPc
  /-- `!_hw || !_vif` -/
  | entry
  /-- `scanDone(true)` without a driver, and `_manualScanChannelCount = 0`. -/
  | goneDone
  | goneCount
  /-- `count = _manualScanChannelCount` -/
  | readCount
  /-- `connectedScan = _scanReturnState == RTW88_STATE_CONNECTED` -/
  | readReturn (count : Nat)
  /-- `rtw88_sw_scan_start` -/
  | start (count : Nat) (connectedScan : Bool)
  /-- `i < count && !_manualScanAbort` -/
  | head (i count : Nat) (connectedScan : Bool)
  /-- `chan = _manualScanChannels[i]` -/
  | fetch (i count : Nat) (connectedScan : Bool)
  /-- `_manualScanOnHomeChannel = false` -/
  | offHome (chan : Channel) (i count : Nat) (connectedScan : Bool)
  /-- `if (connectedScan)`: home channel and null frame, then a sleep. -/
  | leave (chan : Channel) (i count : Nat) (connectedScan : Bool)
  /-- `_hw->conf.chandef = …` -/
  | tune (chan : Channel) (i count : Nat) (connectedScan : Bool)
  /-- `rtw88_sw_scan_switch_channel` -/
  | switch (chan : Channel) (i count : Nat) (connectedScan : Bool)
  /-- `if (!passiveOnly) txProbeRequest()`, then the dwell. -/
  | probe (chan : Channel) (i count : Nat) (connectedScan : Bool)
  /-- `if (connectedScan && !_manualScanAbort)`: home channel, null frame. -/
  | dwell (i count : Nat) (connectedScan : Bool)
  /-- `_manualScanOnHomeChannel = false` behind the loop -/
  | loopEnd (connectedScan : Bool)
  /-- `rtw88_sw_scan_complete` -/
  | complete (connectedScan : Bool)
  /-- `if (connectedScan)`: home channel and null frame. -/
  | back (connectedScan : Bool)
  /-- `scanDone(_manualScanAbort)` -/
  | done
  /-- `_manualScanAbort = false` -/
  | clearAbort
  /-- `_manualScanChannelCount = 0` -/
  | clearCount
  deriving DecidableEq, Repr

/-- `_manualScanAbort = b`. -/
def setManualScanAbort (b : Bool) (s : Mlme) : Mlme :=
  { s with manualScanAbort := b }

/-- One statement of a pass; `none` when it was the last. -/
def passStep (pc : PassPc) (s : Mlme) : Option PassPc × Mlme :=
  match pc with
  | .entry => (some (if s.up then .readCount else .goneDone), s)
  | .goneDone => (some .goneCount, scanDone hw true s)
  | .goneCount => (none, clearManualScanCount s)
  | .readCount => (some (.readReturn (min s.manualScanChannelCount 256)), s)
  | .readReturn count =>
      (some (.start count (s.scanReturnState == .connected)), s)
  | .start count connectedScan =>
      (some (.head 0 count connectedScan), s.emit .swScanStart)
  | .head i count connectedScan =>
      (some (if i < count && !s.manualScanAbort
        then .fetch i count connectedScan else .loopEnd connectedScan), s)
  | .fetch i count connectedScan =>
      (some (match s.manualScanChannels[i]? with
        | none => .head (i + 1) count connectedScan
        | some chan => .offHome chan i count connectedScan), s)
  | .offHome chan i count connectedScan =>
      (some (.leave chan i count connectedScan), setOnHomeChannel false s)
  | .leave chan i count connectedScan =>
      (some (.tune chan i count connectedScan),
        if connectedScan then visitHome hw env true s else s)
  | .tune chan i count connectedScan =>
      (some (.switch chan i count connectedScan), setScanChandef chan s)
  | .switch chan i count connectedScan =>
      (some (.probe chan i count connectedScan), s.emit .swScanSwitchChannel)
  | .probe chan i count connectedScan =>
      (some (.dwell i count connectedScan),
        if chan.noIr || chan.radar then s else txProbeRequest hw env s)
  | .dwell i count connectedScan =>
      (some (.head (i + 1) count connectedScan),
        if connectedScan && !s.manualScanAbort
        then setOnHomeChannel true (visitHome hw env false s) else s)
  | .loopEnd connectedScan =>
      (some (.complete connectedScan), setOnHomeChannel false s)
  | .complete connectedScan =>
      (some (.back connectedScan), s.emit .swScanComplete)
  | .back connectedScan =>
      (some .done, if connectedScan then visitHome hw env false s else s)
  | .done => (some .clearAbort, scanDone hw s.manualScanAbort s)
  | .clearAbort => (some .clearCount, setManualScanAbort false s)
  | .clearCount => (none, clearManualScanCount s)

-- =============================================================== the system

/-- A pass, and its record. -/
structure Pass where
  pc : PassPc
  scan : Nat
  visited : List Channel
  gone : Bool
  deriving DecidableEq, Repr

/-- A pass that `thread_call_enter` has queued for scan number `n`. -/
def Pass.queued (n : Nat) : Pass :=
  { pc := .entry, scan := n, visited := [], gone := false }

/-- What a statement adds to the record of its pass. -/
def Pass.record (p : Pass) (s : Mlme) : Pass :=
  match p.pc with
  | .entry => { p with gone := !s.up }
  | .switch chan _ _ _ => { p with visited := p.visited ++ [chan] }
  | _ => p

/-- The object, the passes, and the record of the scans; `offloaded` is
the number of hardware scans the driver accepted and has not ended. -/
structure ScanSys where
  sys : Sys
  passes : List Pass
  offloaded : Nat
  accepted : Nat
  asked : List Nat
  ended : List Pass

/-- After `start`. -/
def ScanSys.init (powered : Bool) : ScanSys :=
  { sys := Sys.init powered, passes := [], offloaded := 0, accepted := 0
    asked := [], ended := [] }

/-- What happens next: an event of the other threads, or a statement of
the pass at place `i`. -/
inductive ScanEvent
  | sys (e : Event)
  | pass (i : Nat) (env : Env)

/-- `thread_call_enter(_manualScanTC)` for scan number `n`: a call that
has not started yet only stays pending. -/
def enterPass (n : Nat) (passes : List Pass) : List Pass :=
  if passes.any fun p => p.pc == .entry then passes
  else passes ++ [Pass.queued n]

/-- The event is a `cmdScan` that enters the manual scan thread. -/
def startsPass (s : Mlme) : Event → Bool
  | .cmdScan env => (cmdScan hw env s).2.1
  | _ => false

/-- The event is a `cmdScan` whose scan the driver accepted. -/
def offloads (s : Mlme) : Event → Bool
  | .cmdScan env =>
      let r := cmdScan hw env s
      r.1 == .success && !r.2.1
  | _ => false

/-- The event calls `abortActiveScan` in SCANNING: a command that waits
for the scan, or the timeout. -/
def abortsScan (s : Sys) : Event → Bool
  | .cmdConnect _ _ | .cmdPowerOff _ => s.mlme.state == .scanning
  | .timer _ =>
      s.mlme.state == .scanning
        && !(s.mlme.timer.isNone || s.auths.any (·.onTimer))
  | _ => false

/-- The event asks a manual scan to stop. -/
def asksAbort (s : Sys) (e : Event) : Bool :=
  abortsScan s e && s.mlme.manualScanChannelCount != 0

/-- The event calls `cancel_hw_scan`. -/
def cancelsScan (s : Sys) (e : Event) : Bool :=
  abortsScan s e && s.mlme.manualScanChannelCount == 0 && s.mlme.up

/-- The hardware scans after an event: one more, none after a cancel, one
less when the driver reports an end. -/
def offloadedAfter (s : Sys) (e : Event) (n : Nat) : Nat :=
  if offloads hw s.mlme e then n + 1
  else if cancelsScan s e then 0
  else match e with
    | .scanDone _ => n - 1
    | _ => n

/-- One statement of the pass at place `i`. -/
def stepPass (i : Nat) (env : Env) (st : ScanSys) : ScanSys :=
  match st.passes[i]? with
  | none => st
  | some p =>
      let r := passStep hw env p.pc st.sys.mlme
      let p := p.record st.sys.mlme
      let sys := { st.sys with mlme := r.2 }
      match r.1 with
      | some pc =>
          { st with sys, passes := st.passes.set i { p with pc := pc } }
      | none =>
          { st with
            sys, passes := st.passes.eraseIdx i, ended := st.ended ++ [p] }

/-- An event of the other threads. The scans of `Sys` stay empty: the
passes are here. -/
def stepOther (e : Event) (st : ScanSys) : ScanSys :=
  let starts := startsPass hw st.sys.mlme e
  { sys := { sysStep hw st.sys e with scans := [] }
    passes := if starts then enterPass st.accepted st.passes else st.passes
    offloaded := offloadedAfter hw st.sys e st.offloaded
    accepted := if starts then st.accepted + 1 else st.accepted
    asked := if asksAbort st.sys e then (st.accepted - 1) :: st.asked
      else st.asked
    ended := st.ended }

/-- One event. -/
def scanStep (st : ScanSys) : ScanEvent → ScanSys
  | .sys e => stepOther hw e st
  | .pass i env => stepPass hw i env st

/-- The run of a list of events. -/
def scanRun (powered : Bool) (es : List ScanEvent) : ScanSys :=
  runFrom (scanStep hw) (ScanSys.init powered) es

end Rtw88
