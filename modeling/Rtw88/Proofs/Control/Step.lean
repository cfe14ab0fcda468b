/-
Every event does to the control side what its action says: `sysStep_ctl`.

One equation a function, in the order the source calls them, then one
case an event. The only premise is that no scan was started from a link
(`NoLinkScan`, an invariant): then a scan that ends, ends in IDLE.

# Which action

The equations have the shape `ctl (f s) = a.run (ctl s)`, and where `f`
has branches the action `a` is computed from the state before, by the
tests that the source makes itself (`Sys.act` for a whole event):

- `cmdConnect` connects, fails behind the release of the former link, or
  does nothing (`connectAct_cases`);
- an association response that is accepted leads to the handshake or to
  a link that is up, and asks for aggregation where there is a station
  and no aggregation yet (`accepted_asks`);
- the timer does what the state it finds says;
- a stretch of `doAuthenticate` acts in its last write only, a stretch of
  the manual scan only where it starts or ends.

# What is not seen

A scan list, a reorder window, a key, a packet number or a channel is no
part of the control side, so the functions that touch only these have
equations that say nothing moves; most of them stand in
Proofs/Control/View.lean, as simp lemmas.
-/
import Rtw88.Proofs.Control.View
import Rtw88.Proofs.Link.Step

namespace Rtw88

variable {hw : Hw} {env : Env}

/-- Writing what is there already. -/
theorem Ctl.state_self {c : Ctl} {st : RTW88State} (h : c.state = st) :
    { c with state := st } = c := by
  subst h
  rfl

/-- A field written with its own value. -/
theorem Ctl.powered_self {c : Ctl} {b : Bool} (h : c.powered = b) :
    { c with powered := b } = c := by
  subst h
  rfl

theorem Ctl.hasSta_self {c : Ctl} {b : Bool} (h : c.hasSta = b) :
    { c with hasSta := b } = c := by
  subst h
  rfl

-- ==================================================================== scan

@[simp] theorem ctl_setTargetChandef (s : Mlme) :
    ctl (setTargetChandef hw s) = ctl s := by
  rw [setTargetChandef]
  split <;> rfl

@[simp] theorem ctl_restoreConnectedChannel (s : Mlme) :
    ctl (restoreConnectedChannel hw s) = ctl s := by
  rw [restoreConnectedChannel]
  split
  · rfl
  · have hvif : ∀ (v : Vif) (t : Mlme), ctl { t with vif := v } = ctl t :=
      fun _ _ => rfl
    simp only [hvif]
    rw [ctl_emit_quiet _ rfl rfl, ctl_setTargetChandef]

/-- What a beacon adds to the list is not seen. -/
@[simp] theorem ctl_processScanResult (skb : SkBuff) (s : Mlme) :
    ctl (processScanResult env skb s) = ctl s := by
  rw [processScanResult]
  split
  · exact ctl_kfreeSkb skb s
  · simp only
    split <;> exact ctl_kfreeSkb skb _

/-- Asking a scan to stop moves nothing yet. -/
@[simp] theorem ctl_abortScanStart (s : Mlme) :
    ctl (abortScanStart s) = ctl s := by
  rw [abortScanStart]
  split
  · rfl
  · split
    · exact ctl_emit_quiet s rfl rfl
    · rfl

/-- Leaving a scan is a write of `_state`. -/
@[simp] theorem ctl_leaveScan (st : RTW88State) (s : Mlme) :
    ctl (leaveScan st s) = { ctl s with state := st } := rfl

/-- One that could not start is given up the same way. -/
@[simp] theorem ctl_leaveScanning (st : RTW88State) (s : Mlme) :
    ctl (leaveScanning st s) = { ctl s with state := st } := rfl

/-- The end of a scan that was not started from a link. -/
theorem ctl_scanDone {s : Mlme} (hret : s.scanReturnState = .idle)
    (aborted : Bool) :
    ctl (scanDone hw aborted s)
      = (if s.state = .scanning then Act.endScan else .quiet).run (ctl s) := by
  have hage : ∀ t : Mlme, ctl (ageBssList t) = ctl t := fun _ => rfl
  have hstate : ∀ t : Mlme, (if aborted then t else ageBssList t).state
      = t.state := by
    intro t
    cases aborted <;> rfl
  have hret' : ∀ t : Mlme,
      (if aborted then t else ageBssList t).scanReturnState
        = t.scanReturnState := by
    intro t
    cases aborted <;> rfl
  have hctl : ∀ t : Mlme, ctl (if aborted then t else ageBssList t)
      = ctl t := by
    intro t
    cases aborted
    · exact hage t
    · rfl
  simp only [scanDone, hstate, hret', hret]
  by_cases hscan : s.state = .scanning
  · rw [if_neg (not_not.2 hscan), if_pos hscan, ctl_leaveScan,
      if_neg (by simp), hctl]
    rfl
  · rw [if_pos hscan, if_neg hscan, hctl]
    rfl

/-- `cmdScan` starts a scan in IDLE with the driver up and a channel to scan,
and does nothing otherwise. -/
theorem ctl_cmdScan (s : Mlme) :
    ctl (cmdScan hw env s).2.2
      = (if s.state = .idle ∧ s.up ∧ (enabledChannels hw).length ≠ 0
          then Act.scan (if hw.hwScanSupported && env.hwScan then 10000
            else 12000)
          else .quiet).run (ctl s) := by
  have hnext : ctl (nextGeneration s) = ctl s := by
    simp only [nextGeneration]
    split <;> rfl
  have hstart : ∀ (chans : List Channel) (t : Mlme),
      ctl (startManualScan chans t) = { ctl t with
        timer := some (if t.scanReturnState = RTW88State.connected then 30000
          else 12000) } := fun _ _ => rfl
  by_cases h : s.state = .idle ∧ s.up ∧ (enabledChannels hw).length ≠ 0
  · obtain ⟨hidle, hup, hchans⟩ := h
    rw [if_pos ⟨hidle, hup, hchans⟩]
    unfold cmdScan
    simp only [hidle, hup, if_neg hchans,
      if_neg (show ¬ RTW88State.idle = .connected by decide)]
    -- what is left differs in the deadline only
    cases hw.hwScanSupported with
    | false =>
        simp only [Bool.not_false, Bool.not_true, ne_eq, not_true,
          Bool.false_eq_true, if_true, if_false, hstart, Bool.false_and]
        exact congrArg (fun c : Ctl =>
          { c with state := .scanning, timer := some 12000 }) hnext
    | true =>
        cases env.hwScan with
        | false =>
            simp only [Bool.not_false, Bool.not_true, ne_eq, not_true,
              Bool.false_eq_true, if_true, if_false, hstart, Bool.and_false]
            rw [ctl_emit_quiet _ rfl rfl]
            exact congrArg (fun c : Ctl =>
              { c with state := .scanning, timer := some 12000 }) hnext
        | true =>
            simp only [Bool.not_true, ne_eq, not_true, Bool.false_eq_true,
              if_true, if_false, ctl_armTimer, Bool.and_self]
            rw [ctl_emit_quiet _ rfl rfl]
            exact congrArg (fun c : Ctl =>
              { c with state := .scanning, timer := some 10000 }) hnext
  · rw [if_neg h]
    unfold cmdScan
    split
    · rfl
    next hidle =>
      split
      · rfl
      next hup =>
        have hidle : s.state = .idle := not_not.1 hidle
        have hup : s.up = true := by simpa using hup
        have hchans : (enabledChannels hw).length = 0 :=
          not_not.1 fun hne => h ⟨hidle, hup, hne⟩
        simp only [hidle, hchans, if_true, ctl_leaveScanning]
        show { ctl (nextGeneration s) with state := .idle } = ctl s
        rw [hnext]
        exact Ctl.state_self hidle

-- ======================================================= manual scan thread

/-- Which channel a connected scan is on is not seen. -/
@[simp] theorem ctl_setOnHomeChannel (b : Bool) (s : Mlme) :
    ctl (setOnHomeChannel b s) = ctl s := rfl

@[simp] theorem ctl_visitHome (powerSave : Bool) (s : Mlme) :
    ctl (visitHome hw env powerSave s) = ctl s := by
  rw [visitHome, ctl_txNullFunc, ctl_restoreConnectedChannel]

@[simp] theorem ctl_tuneScanChannel (chan : Channel) (s : Mlme) :
    ctl (tuneScanChannel hw env chan s) = ctl s := by
  have hset : ctl ((setScanChandef chan s).emit .swScanSwitchChannel)
      = ctl s := by
    rw [ctl_emit_quiet _ rfl rfl]
    rfl
  rw [tuneScanChannel]
  split
  · exact hset
  · rw [ctl_txProbeRequest, hset]

/-- A manual scan ends with a write of `_state`, if the state is still
SCANNING. -/
theorem ctl_endManualScan {s : Mlme} (hret : s.scanReturnState = .idle)
    (connectedScan : Bool) :
    ctl (endManualScan hw env connectedScan s)
      = (if s.state = .scanning then Act.endScan else .quiet).run (ctl s) := by
  have hclear : ∀ t : Mlme, ctl (clearManualScan t) = ctl t := fun _ => rfl
  have hoff : ctl ((setOnHomeChannel false s).emit .swScanComplete)
      = ctl s := by
    rw [ctl_emit_quiet _ rfl rfl, ctl_setOnHomeChannel]
  have hview : view ((setOnHomeChannel false s).emit .swScanComplete)
      = view s := by
    rw [view_emit_off _ _ (by simp [Obs.onTrail]), view_setOnHomeChannel]
  cases connectedScan with
  | false =>
      rw [endManualScan, hclear, ctl_scanDone]
      · exact congrArg _ hoff
      · exact hret
  | true =>
      have hhome := @view_visitHome hw env
        ((setOnHomeChannel false s).emit .swScanComplete) hret false
      have hstate : (visitHome hw env false
          ((setOnHomeChannel false s).emit .swScanComplete)).state
          = s.state := congrArg Link.state (hhome.trans hview)
      simp only [endManualScan, if_true, hclear]
      rw [ctl_scanDone, hstate, ctl_visitHome, hoff]
      exact congrArg Link.ret (hhome.trans hview) |>.trans hret

/-- So every activation of its thread is one of two actions. -/
theorem ctl_runManualScan {s : Mlme} (hret : s.scanReturnState = .idle)
    (pc : ScanPc) :
    ctl (runManualScan hw env pc s).2 = (scanAct pc s).run (ctl s) := by
  have hcount : ∀ t : Mlme, ctl (clearManualScanCount t) = ctl t :=
    fun _ => rfl
  cases pc with
  | entry =>
      simp only [runManualScan, scanAct]
      cases hup : s.up with
      | false =>
          rw [if_pos (by rfl), hcount, ctl_scanDone hret]
          by_cases hscan : s.state = .scanning <;> simp [hscan]
      | true => exact ctl_emit_quiet s rfl rfl
  | chan i count connectedScan =>
      by_cases hgo : (decide (i < count) && !s.manualScanAbort) = true
      · have hact : scanAct (.chan i count connectedScan) s = .quiet := by
          simp only [scanAct, hgo, Bool.not_true, Bool.false_and,
            Bool.false_eq_true, if_false]
        rw [hact]
        simp only [runManualScan, hgo, if_true]
        split
        · rfl
        · split
          · exact (ctl_visitHome _ _).trans (ctl_setOnHomeChannel _ _)
          · exact (ctl_tuneScanChannel _ _).trans (ctl_setOnHomeChannel _ _)
      · simp only [runManualScan, scanAct, Bool.eq_false_iff.2 hgo,
          Bool.false_eq_true, if_false, Bool.not_false, Bool.true_and,
          ctl_endManualScan hret, beq_iff_eq]
  | leave chan i count => exact ctl_tuneScanChannel chan s
  | dwell i count connectedScan =>
      simp only [runManualScan]
      split
      · rw [ctl_setOnHomeChannel, ctl_visitHome]
        rfl
      · rfl

-- ============================================================== disconnect

/-- The association's flag is not seen. -/
@[simp] theorem ctl_clearBssAssoc (s : Mlme) :
    ctl (clearBssAssoc s) = ctl s := rfl

/-- `doDisconnect` is the action of that name. -/
theorem ctl_doDisconnect (s : Mlme) :
    ctl (doDisconnect hw env s) = (ctl s).disconnect := by
  have hup : (ctl s).up = s.up := rfl
  rw [doDisconnect, Ctl.disconnect, hup]
  split
  · rfl
  · simp only [ctl_setLinkStatus, ctl_cancelTimer, ctl_setIdle,
      ctl_releaseSta]
    rw [ctl_emit_quiet _ rfl rfl, ctl_clearBssAssoc, ctl_sendDeauth,
      ctl_clearKeys]

/-- The hardware stopped: only the power moves. -/
theorem ctl_powerOff (s : Mlme) :
    ctl (powerOff s) = { ctl s with powered := false } := by
  rw [powerOff]
  split
  next h =>
    have hoff : s.powered = false := by simpa using h
    exact (Ctl.powered_self hoff).symm
  next h =>
    rw [ctl_setPowered]
    split
    · rw [ctl_emit_quiet _ rfl rfl]
    · rfl

/-- `powerOn` succeeds where the power is on or the hardware starts, and
moves only the power. -/
theorem ctl_powerOn (s : Mlme) :
    (powerOn env s).1 = .success ∧ (s.powered || (s.up && env.hwStart)) = true
        ∧ ctl (powerOn env s).2 = { ctl s with powered := true }
      ∨ (powerOn env s).1 ≠ .success
        ∧ (s.powered || (s.up && env.hwStart)) = false
        ∧ ctl (powerOn env s).2 = ctl s := by
  rw [powerOn]
  cases hp : s.powered with
  | true =>
      refine .inl ⟨rfl, rfl, ?_⟩
      exact (Ctl.powered_self (c := ctl s) hp).symm
  | false =>
      cases hup : s.up with
      | false => exact .inr ⟨by simp, rfl, rfl⟩
      | true =>
          cases env.hwStart with
          | false => exact .inr ⟨by simp, rfl, ctl_emit_quiet s rfl rfl⟩
          | true =>
              refine .inl ⟨rfl, rfl, ?_⟩
              have hquiet : ctl (s.emit (.hwStart true)) = ctl s :=
                ctl_emit_quiet s rfl rfl
              exact congrArg (fun c : Ctl => { c with powered := true }) hquiet

/-- The command adds the move to READY. -/
theorem ctl_cmdPowerOn (s : Mlme) :
    ctl (cmdPowerOn env s).2
      = (if s.powered || (s.up && env.hwStart) then Act.ready
          else .quiet).run (ctl s) := by
  rw [cmdPowerOn]
  rcases @ctl_powerOn env s with ⟨hok, hon, hctl⟩ | ⟨hfail, hoff, hctl⟩
  · have hstate : (powerOn env s).2.state = (ctl s).state :=
      congrArg Ctl.state hctl
    rw [hon]
    simp only [hok, hstate, true_and, if_true, Act.run]
    split
    · rw [ctl_setState, hctl]
    · exact hctl
  · rw [hoff, if_neg fun h => hfail h.1]
    exact hctl

/-- What follows the wait of `cmdPowerOff`. -/
theorem ctl_finishPowerOff (s : Mlme) :
    ctl (finishPowerOff hw env s) = Act.powerDown.run (ctl s) := by
  have hlinked : (s.state = .connected ∨ s.state = .authenticating
      ∨ s.state = .associating ∨ s.state = .handshaking)
        ↔ (ctl s).state.linked = true := by
    show _ ↔ s.state.linked = true
    cases s.state <;> decide
  simp only [finishPowerOff, ctl_setLinkStatus, ctl_setIdle, ctl_powerOff,
    hlinked, Act.run]
  split
  · rw [ctl_doDisconnect]
  · rw [ctl_releaseSta, ctl_clearKeys]

-- ================================================================= connect

/-- `connectTo` is the action its argument and the state before decide on. -/
theorem ctl_connectTo (ssid : Option (List UInt8)) (password : List UInt8)
    (s : Mlme) :
    ctl (connectTo ssid password s).2.2
      = (connectAct ssid s).run (ctl s) := by
  unfold connectTo connectAct
  split
  · rfl
  next hidle =>
    have hidle : s.state = .idle := not_not.1 hidle
    cases ssid with
    | none => rfl
    | some ssid =>
        have hstate : (ctl s).release.state = .idle := by
          rw [Ctl.release]
          split <;> exact hidle
        simp only [bssList_releaseSta_clearKeys]
        cases hfind : findBss ssid s.bssList with
        | none =>
            simp only [ctl_releaseSta, ctl_clearKeys, Option.isSome_none,
              Bool.false_eq_true, if_false, Act.run]
            exact (Ctl.state_self hstate).symm
        | some target =>
            have hset : ∀ t : Mlme,
                ctl (setTarget target ((cStr password).take 63) t)
                  = { ctl t with state := .authenticating } := fun _ => rfl
            simp only [Option.isSome_some, if_true]
            rw [ctl_emit_quiet _ rfl rfl, hset, ctl_releaseSta, ctl_clearKeys]
            rfl

/-- Of the stretches of `doAuthenticate` only the last writes what is seen.
-/
theorem ctl_doAuthenticate (scanning : Bool) (pc : AuthPc) (s : Mlme) :
    ctl (doAuthenticate hw env scanning pc s).2
      = (if pc = .finish then Act.authWrite else .quiet).run (ctl s) := by
  cases pc with
  | entry =>
      simp only [doAuthenticate]
      split <;> rfl
  | waitScan i =>
      simp only [doAuthenticate]
      split <;> rfl
  | settle =>
      simp only [doAuthenticate]
      split
      · rfl
      · have hvif : ∀ (v : Vif) (t : Mlme), ctl { t with vif := v } = ctl t :=
          fun _ _ => rfl
        simp only [connectSetup, hvif]
        rw [ctl_emit_quiet _ rfl rfl, ctl_setTargetChandef]
        rfl
  | transmit => exact ctl_sendAuthReq s
  | finish => rfl

/-- The timer going off is the action of the state it finds. -/
theorem ctl_onTimer {s : Mlme} (hret : s.scanReturnState = .idle) :
    ctl (onTimer hw env s.cancelTimer).2
      = (timerAct s).run (ctl s) := by
  have hret' : (abortScanStart s.cancelTimer).scanReturnState = .idle :=
    (congrArg Link.ret (view_abortScanStart s.cancelTimer)).trans hret
  rw [onTimer, timerAct]
  cases hstate : s.state with
  | scanning =>
      have hstate' : s.cancelTimer.state = .scanning := hstate
      have hcount : s.cancelTimer.manualScanChannelCount
          = s.manualScanChannelCount := rfl
      simp only [hstate', hcount]
      split
      · rw [ctl_abortScanStart]
        rfl
      · simp only [hret', if_neg (show ¬ RTW88State.idle = .connected by decide)]
        rw [ctl_leaveScanning, ctl_abortScanStart]
        rfl
  | authenticating =>
      have hstate' : s.cancelTimer.state = .authenticating := hstate
      simp only [hstate']
      rfl
  | associating =>
      have hstate' : s.cancelTimer.state = .associating := hstate
      simp only [hstate']
      rfl
  | handshaking =>
      have hstate' : s.cancelTimer.state = .handshaking := hstate
      simp only [hstate']
      exact ctl_doDisconnect s.cancelTimer
  | idle =>
      have hstate' : s.cancelTimer.state = .idle := hstate
      simp only [hstate']
      rfl
  | connected =>
      have hstate' : s.cancelTimer.state = .connected := hstate
      simp only [hstate']
      rfl
  | disconnecting =>
      have hstate' : s.cancelTimer.state = .disconnecting := hstate
      simp only [hstate']
      rfl

/-- `stop`, with no scan to return from. -/
theorem ctl_stop {s : Mlme} (hret : s.scanReturnState = .idle) :
    ctl (stop hw env s) = Act.stop.run (ctl s) := by
  have hcond : ((s.cancelTimer.state = .connected
      ∨ (s.cancelTimer.state = .scanning
        ∧ s.cancelTimer.scanReturnState = .connected))
      ∧ s.cancelTimer.powered = true)
        ↔ ((ctl s).state = .connected && (ctl s).powered) = true := by
    show ((s.state = .connected ∨ (s.state = .scanning
      ∧ s.scanReturnState = .connected)) ∧ s.powered = true)
        ↔ (s.state = .connected && s.powered) = true
    simp [hret]
  -- the tail, on whatever the link was left in
  have hdown : ∀ t : Mlme, ctl (setDown (if !t.up then t
      else (if t.powered then setPowered false (t.emit .hwStop)
        else t).emit .removeInterface).setIdle) = { ctl t with
          powered := (ctl t).powered && !(ctl t).up, state := .idle
          up := false } := by
    intro t
    rw [ctl_setDown, ctl_setIdle]
    show _ = { ctl t with
      powered := t.powered && !t.up, state := .idle, up := false }
    cases hup : t.up with
    | false =>
        simp only [Bool.not_false, if_true, Bool.and_true]
        exact congrArg (fun c : Ctl =>
          { c with state := RTW88State.idle, up := false })
          (Ctl.powered_self (c := ctl t) (b := t.powered) rfl).symm
    | true =>
        simp only [Bool.not_true, Bool.false_eq_true, if_false,
          Bool.and_false]
        rw [ctl_emit_quiet _ rfl rfl]
        cases hp : t.powered with
        | false =>
            exact congrArg (fun c : Ctl =>
              { c with state := RTW88State.idle, up := false })
              (Ctl.powered_self (c := ctl t) (b := false) hp).symm
        | true =>
            simp only [if_true]
            rw [ctl_setPowered, ctl_emit_quiet _ rfl rfl]
  unfold stop
  simp only [hcond]
  rw [hdown]
  simp only [Act.run]
  split
  · rw [ctl_doDisconnect, ctl_cancelTimer, Ctl.disconnect_up,
      Ctl.disconnect_powered]
  · rw [ctl_releaseSta, ctl_clearKeys, ctl_cancelTimer, Ctl.release_up,
      Ctl.release_powered]

-- ============================================================= association

/-- The association identifier is not seen. -/
@[simp] theorem ctl_setAid (aid : UInt16) (s : Mlme) :
    ctl (setAid aid s) = ctl s := rfl

/-- What the driver is told of the association is not seen. -/
@[simp] theorem ctl_notifyAssoc (aid : UInt16) (s : Mlme) :
    ctl (notifyAssoc aid s) = ctl s := ctl_emit_quiet _ rfl rfl

/-- A station is there afterwards if it was before or its object could be
allocated, whatever `sta_add` answers. -/
theorem ctl_addSta (aid : UInt16) (s : Mlme) :
    ctl (addSta hw env aid s)
      = { ctl s with hasSta := (ctl s).hasSta || env.staAlloc } := by
  have hhas : (ctl s).hasSta = s.sta.isSome := rfl
  rw [addSta]
  cases hsta : s.sta.isSome with
  | true =>
      simp only [hhas, hsta, Bool.true_or, if_true]
      exact (Ctl.hasSta_self (c := ctl s) hsta).symm
  | false =>
      cases env.staAlloc with
      | false =>
          simp only [hhas, hsta, Bool.false_or, Bool.not_false, if_true]
          exact (Ctl.hasSta_self (c := ctl s) hsta).symm
      | true =>
          simp only [hhas, hsta, Bool.false_or, Bool.not_true,
            Bool.false_eq_true, if_false]
          exact ctl_emit_quiet _ rfl rfl

/-- `asks` looks at the link only. -/
theorem asks_of_view {s t : Mlme} (hsta : s.sta = t.sta)
    (hba : s.txBaActive = t.txBaActive) (htarget : s.targetBSS = t.targetBSS)
    (hup : s.up = t.up) : asks env s = asks env t := by
  unfold asks htAllowed
  rw [hsta, hba, htarget, hup]

/-- Where keys are to come the handshake begins, else the link is up. -/
theorem ctl_enterLink (s : Mlme) :
    ctl (enterLink hw env s)
      = if s.wpa2
        then { ctl s with state := .handshaking, timer := some 8000 }
        else { ctl s with
          state := .connected, link := some true
          timer := none }.aggregate (asks env s) := by
  have hmark : ctl (s.emit .associated) = ctl s := ctl_emit_quiet s rfl rfl
  have hpmk : ∀ t : Mlme, ctl (setPmk hw t) = ctl t := fun _ => rfl
  simp only [enterLink]
  split
  next h =>
    have h : s.wpa2 = true := h
    rw [if_pos h, ctl_armTimer, hpmk, ctl_setState, hmark]
  next h =>
    have h : ¬ s.wpa2 = true := h
    have hask : asks env (((s.emit .associated).setState .connected).emit
        (.setLinkStatus true)) = asks env s := rfl
    rw [if_neg h, ctl_cancelTimer, ctl_startTxAggregation, hask,
      ctl_setLinkStatus, ctl_setState, hmark]
    cases asks env s <;> rfl

/-- What an accepted response asks for, by the state before it. -/
private theorem accepted_asks (aid : UInt16) (skb : SkBuff) (s : Mlme) :
    (notifyAssoc aid (addSta hw env aid (setAid aid (kfreeSkb skb s)))).wpa2
        = s.wpa2
      ∧ asks env (notifyAssoc aid (addSta hw env aid
          (setAid aid (kfreeSkb skb s))))
        = asks env (addSta hw env aid s) := by
  by_cases hadd : (s.sta.isSome || !env.staAlloc) = true
  · have hold : addSta hw env aid s = s := if_pos hadd
    have hold' : addSta hw env aid (setAid aid (kfreeSkb skb s))
        = setAid aid (kfreeSkb skb s) := if_pos hadd
    rw [hold, hold']
    exact ⟨rfl, asks_of_view rfl rfl rfl rfl⟩
  · have hnew : addSta hw env aid s = { s with
        sta := some (newSta hw aid s), nextAddr := s.nextAddr + 1 }.emit
          (.staAdd (newSta hw aid s).addr) := if_neg hadd
    have hnew' : addSta hw env aid (setAid aid (kfreeSkb skb s))
        = { setAid aid (kfreeSkb skb s) with
          sta := some (newSta hw aid s), nextAddr := s.nextAddr + 1 }.emit
            (.staAdd (newSta hw aid s).addr) := if_neg hadd
    rw [hnew, hnew']
    refine ⟨rfl, ?_⟩
    apply asks_of_view <;> simp only [notifyAssoc, Mlme.emit, setAid, kfreeSkb]

/-- An association response is the action of its fields. -/
theorem ctl_processAssocResponse {s : Mlme} (h : s.state = .associating)
    (skb : SkBuff) :
    ctl (processAssocResponse hw env skb s)
      = (assocAct hw env skb s).run (ctl s) := by
  rw [processAssocResponse, assocAct]
  by_cases haddr : addr3 skb.mem = s.targetBSS.bssid
  · have hgate : ¬ (s.state ≠ .associating
        ∨ addr3 skb.mem ≠ s.targetBSS.bssid) :=
      fun hor => hor.elim (fun hne => hne h) fun hne => hne haddr
    rw [if_neg (not_not.2 haddr), if_neg hgate]
    have hok : assocOk env skb s = (!decide (bodyLen skb < 6)
        && le16At (env.freed.getD skb.mem) 26 == 0) := by
      simp only [assocOk, haddr, beq_self_eq_true, Bool.true_and]
    by_cases hlen : bodyLen skb < 6
    · simp only [hlen, if_true, ctl_setState, ctl_kfreeSkb, hok,
        decide_true, Bool.not_true, Bool.false_and, Bool.not_false]
      rfl
    · by_cases hstatus : le16At (env.freed.getD skb.mem) 26 = 0
      · have hok' : assocOk env skb s = true := by
          rw [hok, hstatus]
          simp [hlen]
        simp only [if_neg hlen, hstatus, hok', ne_eq, not_true, if_false,
          Bool.not_true, Bool.false_eq_true]
        generalize le16At (env.freed.getD skb.mem) 28 &&& 0x3FFF = aid
        obtain ⟨hwpa, hask⟩ := @accepted_asks hw env aid skb s
        rw [ctl_enterLink, hwpa, hask, ctl_notifyAssoc, ctl_addSta,
          ctl_setAid, ctl_kfreeSkb]
        split <;> rfl
      · have hok' : assocOk env skb s = false := by
          rw [hok]
          simp [hstatus]
        simp only [if_neg hlen, hstatus, hok', ne_eq, not_false_eq_true,
          if_true, Bool.not_false, ctl_setState, ctl_kfreeSkb]
        rfl
  · rw [if_pos haddr, if_pos (.inr haddr)]
    exact ctl_kfreeSkb skb s

-- =============================================================== BlockAck

/-- A window of reordering is not seen. -/
@[simp] theorem ctl_rxBaSetup (tid ssn bufsize : Nat) (s : Mlme) :
    ctl (s.rxBaSetup env tid ssn bufsize) = ctl s := by
  rw [Mlme.rxBaSetup, ctl_kfreeAll]
  rfl

/-- A block-ack action frame moves `_txBaActive` at most. -/
theorem ctl_handleBackAction (b : List UInt8) (s : Mlme) :
    ctl (handleBackAction hw env b s) = (backAct b).run (ctl s) := by
  simp only [handleBackAction, backAct]
  by_cases hlen : b.length < 2
  · rw [if_pos hlen, if_pos hlen]
    rfl
  · rw [if_neg hlen, if_neg hlen]
    by_cases hreq : peek b 1 = actionAddbaReq
    · rw [if_pos hreq, if_pos hreq]
      split
      · rfl
      · rw [ctl_sendAddbaResponse, ctl_rxBaSetup]
        rfl
    · rw [if_neg hreq, if_neg hreq]
      by_cases hresp : peek b 1 = actionAddbaResp
      · rw [if_pos hresp, if_pos hresp]
        by_cases h9 : b.length < 9
        · rw [if_pos h9, if_neg fun hall => by omega]
          rfl
        · rw [if_neg h9]
          split
          next hok =>
            rw [if_pos ⟨by omega, hok⟩]
            rfl
          next hok =>
            rw [if_neg fun hall => hok hall.2]
            rfl
      · rw [if_neg hresp, if_neg hresp]
        split
        next hdel =>
          by_cases h6 : b.length < 6
          · rw [if_pos h6, if_neg fun hall => by omega]
            rfl
          · rw [if_neg h6]
            -- the receive window is closed in the other direction only
            have hclose : ∀ t : Mlme, ctl (if le16At b 2 &&& 0x0800 != 0
                then t.rxBaTeardown
                  ((le16At b 2 >>> 12) &&& 0xf).toUInt8.toNat
                else t) = ctl t := by
              intro t
              split
              · exact ctl_rxBaTeardown _ t
              · rfl
            rw [hclose]
            by_cases hours : le16At b 2 &&& 0x0800 = 0
                ∧ ((le16At b 2 >>> 12) &&& 0xf).toUInt8 = baTid
            · have hboth : (!(le16At b 2 &&& 0x0800 != 0)
                  && ((le16At b 2 >>> 12) &&& 0xf).toUInt8 == baTid)
                  = true := by
                rw [hours.1, hours.2]
                decide
              rw [if_pos hboth, if_pos ⟨by omega, hours⟩]
              rfl
            · have hnot : ¬ (!(le16At b 2 &&& 0x0800 != 0)
                  && ((le16At b 2 >>> 12) &&& 0xf).toUInt8 == baTid)
                  = true := by
                intro hboth
                rw [Bool.and_eq_true, Bool.not_eq_true', bne_eq_false_iff_eq,
                  beq_iff_eq] at hboth
                exact hours hboth
              rw [if_neg hnot, if_neg fun hall => hours hall.2]
              rfl
        next hdel => rfl

/-- The deauthentication branch. -/
theorem ctl_leaveOnDeauth (s : Mlme) :
    ctl (leaveOnDeauth s) = Act.deauth.run (ctl s) := by
  simp only [leaveOnDeauth, ctl_setLinkStatus, ctl_setIdle,
    ctl_rxBaTeardownAll, ctl_setTxBa, ctl_clearKeys]
  rfl

/-- The association request: ASSOCIATING, and its timer. -/
theorem ctl_doAssociate (s : Mlme) :
    ctl (doAssociate hw env s)
      = (if s.up then Act.associate else .quiet).run (ctl s) := by
  rw [doAssociate]
  cases s.up with
  | false => rfl
  | true =>
      simp only [Bool.not_true, Bool.false_eq_true, if_false, if_true]
      rw [ctl_armTimer, ctl_setState, ctl_sendAssocReq]
      rfl

-- ======================================================= management frames

/-- Every management frame is one action. -/
theorem ctl_processRxMgmt (skb : SkBuff) (s : Mlme) :
    ctl (processRxMgmt hw env skb s)
      = (mgmtAct hw env skb s).run (ctl s) := by
  have hfree := ctl_kfreeSkb skb s
  simp only [processRxMgmt, mgmtAct]
  by_cases hbeacon : frameControl skb.mem &&& 0x00f0 = 0x0080
      ∨ frameControl skb.mem &&& 0x00f0 = 0x0050
  · rw [if_pos hbeacon, if_pos hbeacon]
    split
    · exact ctl_processScanResult skb s
    · exact hfree
  rw [if_neg hbeacon, if_neg hbeacon]
  by_cases hauth : frameControl skb.mem &&& 0x00f0 = 0x00B0
  · rw [if_pos hauth, if_pos hauth, authAct]
    by_cases hstate : s.state = .authenticating
    · rw [if_neg (not_not.2 hstate)]
      by_cases haddr : addr3 skb.mem = s.targetBSS.bssid
      · have hgate : ¬ (s.state ≠ .authenticating
            ∨ addr3 skb.mem ≠ s.targetBSS.bssid) :=
          fun hor => hor.elim (fun hne => hne hstate) fun hne => hne haddr
        rw [if_neg (not_not.2 haddr), if_neg hgate]
        by_cases hlen : bodyLen skb < 6
        · rw [if_pos hlen, if_pos (Or.inl hlen), ctl_kfreeSkb]
          exact ctl_doAssociate s
        · rw [if_neg hlen]
          by_cases hstatus : le16At skb.mem 28 = 0
          · rw [if_pos hstatus, if_pos (Or.inr hstatus), ctl_kfreeSkb]
            exact ctl_doAssociate s
          · rw [if_neg hstatus, if_neg fun hor => hor.elim hlen hstatus,
              ctl_kfreeSkb]
            rfl
      · rw [if_pos haddr, if_pos (Or.inr haddr)]
        exact hfree
    · rw [if_pos hstate, if_pos (Or.inl hstate)]
      exact hfree
  rw [if_neg hauth, if_neg hauth]
  by_cases hassoc : frameControl skb.mem &&& 0x00f0 = 0x0010
      ∨ frameControl skb.mem &&& 0x00f0 = 0x0030
  · rw [if_pos hassoc, if_pos hassoc]
    by_cases hstate : s.state = .associating
    · rw [if_pos hstate]
      exact ctl_processAssocResponse hstate skb
    · rw [if_neg hstate, assocAct, if_pos (Or.inl hstate)]
      exact hfree
  rw [if_neg hassoc, if_neg hassoc]
  by_cases hdeauth : frameControl skb.mem &&& 0x00f0 = 0x00A0
      ∨ frameControl skb.mem &&& 0x00f0 = 0x00C0
  · rw [if_pos hdeauth, if_pos hdeauth]
    have hacc : deauthAccepted hw skb s = true
        ↔ (s.state = .connected ∨ s.state = .handshaking
          ∨ (s.state = .scanning ∧ s.scanReturnState = .connected))
        ∧ ¬ (!(addr3 skb.mem == s.targetBSS.bssid
            || addr2 skb.mem == s.targetBSS.bssid)
          || !(addr1 skb.mem == hw.macAddr || addr1 skb.mem == broadcast))
          = true := by
      simp only [deauthAccepted, Bool.and_eq_true, Bool.or_eq_true,
        beq_iff_eq, Bool.not_eq_true', Bool.or_eq_false_iff, not_or,
        beq_eq_false_iff_ne, ne_eq, not_and_or, not_not, or_assoc, and_assoc]
    by_cases hall : deauthAccepted hw skb s = true
    · rw [if_pos hall, if_pos (hacc.1 hall).1, if_neg (hacc.1 hall).2,
        ctl_kfreeSkb]
      exact ctl_leaveOnDeauth s
    · rw [if_neg hall]
      split
      next hstate =>
        rw [if_pos (not_not.1 fun hno => hall (hacc.2 ⟨hstate, hno⟩))]
        exact hfree
      next => exact hfree
  rw [if_neg hdeauth, if_neg hdeauth]
  by_cases hback : frameControl skb.mem &&& 0x00f0 = 0x00D0
  · rw [if_pos hback, if_pos hback]
    by_cases h : s.state = .connected ∧ 26 ≤ skb.data.length
        ∧ peek skb.mem 24 = categoryBack ∧ addr3 skb.mem = s.targetBSS.bssid
    · rw [if_pos h, if_pos h, ctl_kfreeSkb]
      exact ctl_handleBackAction _ s
    · rw [if_neg h, if_neg h]
      exact hfree
  · rw [if_neg hback, if_neg hback]
    exact hfree

-- =============================================================== handshake

/-- Message 1 arms the timer again, for message 3. -/
theorem ctl_handleM1 (data : List UInt8) (s : Mlme) :
    ctl (handleM1 hw env data s) = Act.rekey.run (ctl s) := by
  have htake : ctl (takeM1 hw env data s) = ctl s := rfl
  simp only [handleM1, ctl_armTimer, ctl_sendEAPOLKey]
  rw [ctl_emit_quiet _ rfl rfl, htake]
  rfl

/-- The end of message 3 brings the link up. -/
theorem ctl_finishM3 (s : Mlme) :
    ctl (finishM3 hw env s) = (Act.linkUp (asks env s)).run (ctl s) := by
  have hview := @view_sendEAPOLKey hw env 4 s.replayCtr false false true s
  have hask : ∀ t : Mlme, view t = view s →
      asks env (((t.setState .connected).emit (.m3 t.ptk)).cancelTimer.emit
        (.setLinkStatus true)) = asks env s := fun t ht =>
    asks_of_view (congrArg Link.sta ht) (congrArg Link.txBaActive ht)
      (congrArg Link.target ht) (congrArg Link.up ht)
  simp only [finishM3]
  rw [ctl_startTxAggregation, hask _ hview, ctl_setLinkStatus,
    ctl_cancelTimer, ctl_emit_quiet _ rfl rfl, ctl_setState,
    ctl_sendEAPOLKey]
  rfl

/-- Key installation leaves what `asks` looks at. -/
private theorem asks_emit (o : Obs) (s : Mlme) :
    asks env (s.emit o) = asks env s := rfl

/-- Whether aggregation will be asked for does not depend on a key disabled.
-/
private theorem asks_disableKey (k : Option KeyConf) (s : Mlme) :
    asks env (disableKey k s) = asks env s := by
  cases k <;> rfl

/-- It does not depend on the pairwise key installed. -/
private theorem asks_installPairwise (alloc set : Bool) (keyidx : UInt8)
    (cipher : UInt32) (tk : List UInt8) (s : Mlme) :
    asks env (installPairwise alloc set keyidx cipher tk s).2
      = asks env s := by
  have hdrop : ∀ t : Mlme, asks env (dropPtkConf t) = asks env t := by
    intro t
    rw [dropPtkConf]
    split <;> rfl
  have hbump : ∀ t : Mlme, asks env t.bumpAddr = asks env t := fun _ => rfl
  have hconf : ∀ (k : KeyConf) (t : Mlme),
      asks env (setPtkConf k t) = asks env t := fun _ _ => rfl
  rw [installPairwise]
  split
  · rfl
  · split
    · rw [hdrop, asks_disableKey]
    · simp only
      split
      · rw [asks_emit, asks_emit, hbump, hdrop, asks_disableKey]
      · rw [hconf, asks_emit, hbump, hdrop, asks_disableKey]

private theorem asks_installGroup (alloc set : Bool) (keyidx : UInt8)
    (cipher : UInt32) (tk : List UInt8) (s : Mlme) :
    asks env (installGroup alloc set keyidx cipher tk s).2 = asks env s := by
  have hdrop : ∀ t : Mlme, asks env (dropGtkConf t) = asks env t := by
    intro t
    rw [dropGtkConf]
    split <;> rfl
  have hbump : ∀ t : Mlme, asks env t.bumpAddr = asks env t := fun _ => rfl
  have hconf : ∀ (k : KeyConf) (t : Mlme),
      asks env (setGtkConf k t) = asks env t := fun _ _ => rfl
  rw [installGroup]
  split
  · rfl
  · split
    · rw [hdrop, asks_disableKey]
    · simp only
      split
      · rw [asks_emit, asks_emit, hbump, hdrop, asks_disableKey]
      · rw [hconf, asks_emit, hbump, hdrop, asks_disableKey]

/-- Message 3 brings the link up where its keys are installed. -/
theorem ctl_acceptM3 (data keyData : List UInt8) (s : Mlme) :
    ctl (acceptM3 hw env data keyData s)
      = (if m3Installs env data keyData s then Act.linkUp (asks env s)
          else .quiet).run (ctl s) := by
  have hctl := (ctl_installPairwise env.pairwiseAlloc env.pairwiseSet 0
    cipherCcmp (tkOf s.ptk).toList (setReplayCtr (grab data 9 8) s)).trans
      (ctl_setReplayCtr (grab data 9 8) s)
  have hask : asks env _ = asks env s :=
    @asks_installPairwise env env.pairwiseAlloc env.pairwiseSet 0
      cipherCcmp (tkOf s.ptk).toList (setReplayCtr (grab data 9 8) s)
  rw [acceptM3, m3Installs]
  simp only [show (setReplayCtr (grab data 9 8) s).ptk = s.ptk from rfl]
  generalize installPairwise env.pairwiseAlloc env.pairwiseSet 0 cipherCcmp
    (tkOf s.ptk).toList (setReplayCtr (grab data 9 8) s) = pair at hctl hask ⊢
  obtain ⟨ok, t⟩ := pair
  simp only at hctl hask ⊢
  cases ok with
  | false => exact hctl
  | true =>
      have hfinish : ctl (finishM3 hw env t)
          = (Act.linkUp (asks env s)).run (ctl s) := by
        rw [ctl_finishM3, hask, hctl]
      simp only [Bool.not_true, Bool.false_eq_true, if_false, Bool.true_and]
      rw [acceptGtk]
      cases extractGtkFromKde keyData with
      | none => exact hfinish
      | some kde =>
          obtain ⟨gtk, idx⟩ := kde
          by_cases hlen : gtk.length = 0
          · simp only [hlen, if_true, beq_self_eq_true, Bool.true_or]
            exact hfinish
          · have hgctl := ctl_installGroup env.groupAlloc env.groupSet idx
              (groupCipher t) gtk t
            have hgask := @asks_installGroup env env.groupAlloc env.groupSet
              idx (groupCipher t) gtk t
            simp only [hlen, if_false, beq_eq_false_iff_ne.2 hlen,
              Bool.false_or]
            generalize installGroup env.groupAlloc env.groupSet idx
              (groupCipher t) gtk t = group at hgctl hgask ⊢
            obtain ⟨gok, u⟩ := group
            simp only at hgctl hgask ⊢
            cases gok with
            | false => exact hgctl.trans hctl
            | true =>
                simp only [Bool.not_true, Bool.false_eq_true, if_false,
                  if_true]
                rw [ctl_finishM3, hgask, hask, hgctl, hctl]

/-- Every EAPOL frame is one action. -/
theorem ctl_handleEAPOL (data : List UInt8) (s : Mlme) :
    ctl (handleEAPOL hw env data s) = (eapolAct hw env data s).run (ctl s) := by
  rw [handleEAPOL, eapolAct]
  cases eapolLen data with
  | none => rfl
  | some len =>
      simp only
      split
      · exact ctl_handleM1 data s
      · split
        · cases m3Verified hw env s.ptk data len with
          | none => rfl
          | some keyData => exact ctl_acceptM3 data keyData s
        · rfl

-- ============================================================= data frames

/-- Every data frame is one action, and only EAPOL for the station counts. -/
theorem ctl_deliverDataFrame (skb : SkBuff) (s : Mlme) :
    ctl (deliverDataFrame hw env skb s)
      = (dataAct hw (some (env, skb)) s).run (ctl s) := by
  have heth : ∀ (pos : Nat) (f : EthFrame) (t : Mlme),
      ctl (deliverEthernet env pos f t) = ctl t := by
    intro pos f t
    rw [deliverEthernet]
    split
    · exact ctl_emit_quiet t rfl rfl
    · rfl
  rw [deliverDataFrame, dataAct]
  cases decap skb with
  | drop => exact ctl_kfreeSkb skb s
  | amsdu msdus =>
      have hall : ∀ (l : List (Nat × EthFrame)) (t : Mlme),
          ctl (l.foldl (fun t m => deliverEthernet env m.1 m.2 t) t)
            = ctl t := by
        intro l
        induction l with
        | nil => exact fun _ => rfl
        | cons m l ih => exact fun t => (ih _).trans (heth m.1 m.2 t)
      simp only [ctl_kfreeSkb, hall]
      rfl
  | single msdu =>
      simp only
      split
      · rw [ctl_kfreeSkb, ctl_handleEAPOL]
      · rw [ctl_kfreeSkb, heth]
        rfl

-- ============================================================== the system

/-- The command to connect is the action of `connectTo`. -/
theorem ctl_runConnect (ssid : Option (List UInt8)) (password : List UInt8)
    (s : Sys) :
    ctl (runConnect ssid password s).mlme
      = (connectAct ssid s.mlme).run (ctl s.mlme) := by
  simp only [runConnect]
  split <;> exact ctl_connectTo ssid password s.mlme

/-- The end of the wait in `abortActiveScan`, for a scan that was not
started from a link. -/
private theorem ctl_abortScanFinish (s : Mlme) :
    ctl (abortScanFinish hw .idle s).2
      = if s.state = .scanning ∧ (abortScanFinish hw .idle s).1 = true
        then { ctl s with state := .idle } else ctl s := by
  rw [abortScanFinish]
  split
  next hstate => rw [if_neg fun h => hstate h.1]
  next hstate =>
    split
    · exact (if_neg fun h => by cases h.2).symm
    · exact (if_pos ⟨not_not.1 hstate, rfl⟩).symm

/-- `cmdPowerOff` finds no link in a scan, ended or not. -/
private theorem powerDown_scan {c : Ctl} (h : c.state = .scanning) :
    Act.powerDown.run { c with state := .idle } = Act.powerDown.run c := by
  simp only [Act.run, h]
  rw [if_neg (by decide), if_neg (by decide), Ctl.release, Ctl.release]
  split <;> rfl

/-- Nor does `cmdConnect`, if it finds its target. -/
private theorem connect_scan (c : Ctl) (a : Act)
    (ha : a = .connect ∨ a = .release) :
    a.run { c with state := .idle } = a.run c := by
  rcases ha with rfl | rfl
  all_goals
    simp only [Act.run, Ctl.release]
    split <;> rfl

/-- That action is one of three. -/
theorem connectAct_cases (ssid : Option (List UInt8)) (s : Mlme) :
    connectAct ssid s = .quiet ∨ connectAct ssid s = .connect
      ∨ connectAct ssid s = .release := by
  unfold connectAct
  split
  · exact .inl rfl
  · split
    · exact .inl rfl
    · split
      · exact .inr (.inl rfl)
      · exact .inr (.inr rfl)

/-- A waiting command goes on from a scan that was not started from a
link. -/
theorem ctl_resumeWait {s : Sys} (h : NoLinkScan s) (i : Nat) (env : Env) :
    ctl (resumeWait hw i env s).mlme
      = ((s.act hw (.resume i env)).run (ctl s.mlme)) := by
  simp only [resumeWait, Sys.act]
  cases hi : s.waiters[i]? with
  | none => rfl
  | some w =>
      have hret : w.returnState = .idle :=
        h.waiters w (List.mem_of_getElem? hi)
      simp only
      by_cases hwait : w.turn < 40 ∧ s.mlme.state = .scanning
      · rw [if_pos hwait, if_pos hwait]
        rfl
      · rw [if_neg hwait, if_neg hwait]
        obtain ⟨cmd, ret, turn⟩ := w
        obtain rfl : ret = .idle := hret
        have habort := @ctl_abortScanFinish hw s.mlme
        cases cmd with
        | powerOff =>
            simp only [waiterAct, runWaiter, ctl_finishPowerOff, habort]
            split
            next hends => exact powerDown_scan hends.1
            next => rfl
        | connect ssid password =>
            simp only [waiterAct, runWaiter]
            cases hok : (abortScanFinish hw .idle s.mlme).1 with
            | false =>
                rw [hok, if_neg fun hall => by cases hall.2] at habort
                exact habort
            | true =>
                rw [hok] at habort
                simp only [if_true, ctl_runConnect, habort, and_true,
                  Bool.not_true, Bool.false_eq_true, if_false]
                rcases connectAct_cases ssid
                  (abortScanFinish hw .idle s.mlme).2 with hact | hact
                · rw [hact]
                  split <;> rfl
                · have hrun := connect_scan (ctl s.mlme) _ hact
                  rcases hact with hact | hact <;>
                    (rw [hact] at hrun ⊢
                     split
                     · exact hrun
                     · rfl)

/-- What one event does to the control side. -/
theorem sysStep_ctl {s : Sys} (h : NoLinkScan s) (e : Event) :
    ctl (sysStep hw s e).mlme = (s.act hw e).run (ctl s.mlme) := by
  cases e with
  | cmdScan env => exact ctl_cmdScan s.mlme
  | cmdConnect ssid password =>
      simp only [sysStep, Sys.act]
      split
      next hscan =>
        have hact : connectAct ssid s.mlme = .quiet := by
          simp only [connectAct, hscan]
          rfl
        rw [hact]
        exact ctl_abortScanStart s.mlme
      next => exact ctl_runConnect ssid password s
  | cmdDisconnect env =>
      simp only [sysStep, Sys.act, cmdDisconnect]
      split
      · rfl
      · exact ctl_doDisconnect s.mlme
  | cmdPowerOn env => exact ctl_cmdPowerOn s.mlme
  | cmdPowerOff env =>
      simp only [sysStep, Sys.act]
      split
      · exact ctl_abortScanStart s.mlme
      · exact ctl_finishPowerOff s.mlme
  | resume i env => exact ctl_resumeWait h i env
  | powerOn env =>
      simp only [sysStep, Sys.act]
      rcases @ctl_powerOn env s.mlme with ⟨-, hon, hctl⟩ | ⟨-, hoff, hctl⟩
      · rw [hon]
        exact hctl
      · rw [hoff]
        exact hctl
  | powerOff => exact ctl_powerOff s.mlme
  | rx env skb =>
      have hfile : ∀ (p : Option Pending) (t : Sys),
          (addPending p t).mlme = t.mlme := by
        intro p t
        cases p <;> rfl
      simp only [sysStep, hfile, rxFrame, Sys.act]
      by_cases hmgmt : isMgmt (frameControl skb.mem) = true
      · have hevent : (Event.rx env skb).mgmt = some (env, skb) := if_pos hmgmt
        rw [if_pos hmgmt, hevent]
        exact ctl_processRxMgmt skb s.mlme
      · have hevent : (Event.rx env skb).mgmt = none := if_neg hmgmt
        have hmgmt' : isMgmt (frameControl skb.mem) = false := by
          simpa using hmgmt
        rw [if_neg hmgmt, hevent]
        simp only
        by_cases hdata : isData (frameControl skb.mem) = true
        · rw [if_pos hdata]
          rw [processRxData]
          cases hconn : rxConnected s.mlme with
          | false => simp [Sys.delivers, hconn, dataAct, Act.run]
          | true =>
              simp only [Bool.not_true, Bool.false_eq_true, if_false]
              cases htid : reorderTid skb s.mlme with
              | some tid =>
                  simp only [Sys.delivers, htid, ctl_kfreeAll,
                    Option.isNone_some, Bool.and_false, Bool.false_eq_true,
                    if_false]
                  rfl
              | none =>
                  simp only [Sys.delivers, hmgmt', hdata, hconn, htid,
                    Option.isNone_none, Bool.not_false, Bool.and_self, if_true]
                  exact ctl_deliverDataFrame skb s.mlme
        · have hdata' : isData (frameControl skb.mem) = false := by
            simpa using hdata
          rw [if_neg hdata]
          simp only [Sys.delivers, hdata', Bool.and_false, Bool.false_and,
            Bool.false_eq_true, if_false]
          exact ctl_kfreeSkb skb s.mlme
  | deliver i env =>
      simp only [sysStep, deliverNext, Sys.act]
      cases hp : s.pending[i]? with
      | none => simp [Sys.delivers, hp, dataAct, Act.run]
      | some p =>
          obtain ⟨out, needTimer⟩ := p
          cases out with
          | nil =>
              simp only [Sys.delivers, hp, List.head?_nil, Option.map_none]
              split <;> rfl
          | cons skb rest =>
              simp only [Sys.delivers, hp, List.head?_cons, Option.map_some]
              exact ctl_deliverDataFrame skb s.mlme
  | scanDone aborted => exact ctl_scanDone h.ret aborted
  | timer env =>
      have hfire := @ctl_onTimer hw env s.mlme h.ret
      have hdue : s.timerDue = true
          ↔ ¬ (s.mlme.timer.isNone || s.auths.any (·.onTimer)) = true := by
        rw [Sys.timerDue]
        cases s.mlme.timer <;> cases s.auths.any (·.onTimer) <;> simp
      simp only [sysStep, fireTimer, Sys.act]
      split
      next hnot =>
        rw [if_neg fun hd => hdue.1 hd hnot]
        rfl
      next hgo =>
        rw [if_pos (hdue.2 hgo)]
        split <;> exact hfire
  | reorderTimer =>
      simp only [sysStep, fireReorderTimer]
      split <;> rfl
  | output env m => exact ctl_outputPacket m s.mlme
  | auth i env scanning =>
      simp only [sysStep, stepAuth, Sys.act, Sys.finishing]
      cases ht : s.auths[i]? with
      | none => rfl
      | some t =>
          have hstep := @ctl_doAuthenticate hw env scanning t.pc s.mlme
          simp only
          by_cases hpc : t.pc = .finish
          · rw [if_pos hpc] at hstep ⊢
            exact hstep
          · rw [if_neg hpc] at hstep ⊢
            exact hstep
  | scan i env =>
      simp only [sysStep, stepScan, Sys.act]
      cases s.scans[i]? with
      | none => rfl
      | some pc => exact ctl_runManualScan h.ret pc
  | stop env => exact ctl_stop h.ret

end Rtw88
