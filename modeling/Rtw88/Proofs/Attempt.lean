/-
Connection attempts and the final write of `doAuthenticate`.

The write is unconditional, so it is right only when nothing moved the
state on in the meantime. `Undisturbed` says that of one event: with an
activation in flight, no disconnect, no power-off and no reply of the
target is taken. `AttemptInv` is what it preserves: while an activation
is in flight its attempt is the current one and is in AUTHENTICATING.

After `stop` the activations that have not come to their transmission
return without a write; `AttemptInv.dead` is for those.

# How the step goes

The invariant is about two things that an event changes, so there are two
groups of lemmas:

- the state: an event that does not supersede the attempt leaves it in
  AUTHENTICATING (`sysStep_authenticating`), and from IDLE no event but a
  command moves it or sends a request (`sysStep_idle`). The frames are the
  long cases, since a received one runs through the whole dispatch;
- the activations: each of those after an event was there before, or was
  entered by a `cmdConnect` that found its target, or by the timer in
  AUTHENTICATING (`sysStep_auths`).

`sysStep_attemptInv` puts them together, and `sysStep_forward` adds that
an attempt that went on does not come back.

The counterpart is `disconnect_overwritten`: a `cmdDisconnect` that falls
before the final write, which then makes AUTHENTICATING of IDLE.
-/
import Rtw88.Proofs.Link.Step
import Rtw88.Spec.AccessPoint

namespace Rtw88

variable {hw : Hw} {env : Env}

-- =============================================================== vocabulary

/-- The frame is an authentication frame of the target. -/
def isAuthReply (skb : SkBuff) (s : Mlme) : Bool :=
  isMgmt (frameControl skb.mem) && frameControl skb.mem &&& 0x00f0 == 0x00B0
    && addr3 skb.mem == s.targetBSS.bssid

/-- The event ends the attempt in AUTHENTICATING, or moves it on: a
disconnect, a power-off (at once or after its wait), `stop`, or a reply
of the target. -/
def Supersedes (s : Sys) : Event → Prop
  | .cmdDisconnect _ | .cmdPowerOff _ | .stop _ => True
  | .resume i _ => ∃ w ∈ s.waiters[i]?, w.cmd = .powerOff
  | .rx _ skb => isAuthReply skb s.mlme = true
  | _ => False

instance (s : Sys) : ∀ e, Decidable (Supersedes s e)
  | .cmdDisconnect _ | .cmdPowerOff _ | .stop _ => isTrue trivial
  | .resume i _ =>
      inferInstanceAs (Decidable (∃ w ∈ s.waiters[i]?, w.cmd = .powerOff))
  | .rx _ skb => inferInstanceAs (Decidable (isAuthReply skb s.mlme = true))
  | .cmdScan _ | .cmdConnect _ _ | .cmdPowerOn _ | .powerOn _ | .powerOff
  | .deliver _ _ | .scanDone _ | .timer _ | .reorderTimer | .output _ _
  | .auth _ _ _ | .scan _ _ => isFalse id

/-- An event that supersedes the attempt finds no activation of
`doAuthenticate` in flight, or is `stop` and finds none that has come to
its transmission. -/
def Undisturbed (s : Sys) (e : Event) : Prop :=
  s.mlme.up = true → Supersedes s e → ∀ t ∈ s.auths,
    e.isStop = true ∧ t.pc ≠ .transmit ∧ t.pc ≠ .finish

instance (s : Sys) (e : Event) : Decidable (Undisturbed s e) :=
  inferInstanceAs (Decidable (_ = _ → Supersedes s e → ∀ t ∈ s.auths, _))

/-- The event is a command of the user, or one that has waited. -/
def Event.isCommand : Event → Bool
  | .cmdScan _ | .cmdConnect _ _ | .cmdDisconnect _ | .cmdPowerOn _ => true
  | .cmdPowerOff _ | .resume _ _ | .stop _ => true
  | _ => false

/-- An authentication or association request handed to the driver. -/
def Obs.isJoinFrame : Obs → Bool
  | .tx skb =>
      isMgmt (frameControl skb.data)
        && (frameControl skb.data &&& 0x00f0 == stypeAuth
          || frameControl skb.data &&& 0x00f0 == stypeAssocReq)
  | _ => false

/-- How many have been handed over so far. -/
def joinFrames (s : Mlme) : Nat := s.log.countP Obs.isJoinFrame

/-- The event keeps to the attempt it belongs to. -/
structure KeepsAttempt (hw : Hw) (s : Sys) (e : Event) : Prop where
  /-- The final write is made by the current attempt in AUTHENTICATING. -/
  write : ∀ t ∈ s.finishing e,
    s.mlme.state = .authenticating ∧ t.attempt = s.attempt
  /-- From IDLE only a command leads on or sends a request. -/
  idle : s.mlme.state = .idle → e.isCommand = false →
    (sysStep hw s e).mlme.state = .idle
      ∧ joinFrames (sysStep hw s e).mlme = joinFrames s.mlme
  /-- A disconnect ends in IDLE. -/
  disconnect : ∀ env, e = .cmdDisconnect env →
    (sysStep hw s e).mlme.state = .idle
  /-- So does a power-off. -/
  powerOff : ∀ env, e = .cmdPowerOff env → s.mlme.state ≠ .scanning →
    (sysStep hw s e).mlme.state = .idle
  /-- And one that waited for a scan, when it goes on. -/
  waited : ∀ i env w, e = .resume i env → s.waiters[i]? = some w →
    w.cmd = .powerOff → ¬(w.turn < 40 ∧ s.mlme.state = .scanning) →
    (sysStep hw s e).mlme.state = .idle
  /-- An attempt that went on does not come back. -/
  forward : s.mlme.state = .associating ∨ s.mlme.state = .handshaking
      ∨ s.mlme.state = .connected →
    (sysStep hw s e).mlme.state ≠ .authenticating

-- ================================================================ invariant

/-- Activations in flight belong to the current attempt, which is in
AUTHENTICATING; without the driver none gets to its transmission. -/
structure AttemptInv (s : Sys) : Prop where
  live : s.mlme.up = true → ∀ t ∈ s.auths,
    s.mlme.state = .authenticating ∧ t.attempt = s.attempt
  dead : s.mlme.up = false → ∀ t ∈ s.auths,
    t.pc ≠ .transmit ∧ t.pc ≠ .finish

-- ================================================= events in AUTHENTICATING

/-- A command that is busy does nothing. -/
theorem runConnect_busy {s : Sys} (h : s.mlme.state ≠ .idle)
    (ssid : Option (List UInt8)) (password : List UInt8) :
    runConnect ssid password s = s := by
  simp only [runConnect, connectTo, if_pos h]
  rfl

/-- No scan, nothing to end. -/
theorem scanDone_state {s : Mlme} (h : s.state ≠ .scanning)
    (aborted : Bool) : (scanDone hw aborted s).state = s.state := by
  have hage : (if aborted then s else ageBssList s).state = s.state := by
    split <;> rfl
  rw [scanDone]
  generalize (if aborted = true then s else ageBssList s) = t at hage ⊢
  rw [if_pos (by rw [hage]; exact h)]
  exact hage

/-- Nor has the manual scan thread. -/
private theorem runManualScan_state {s : Mlme}
    (hret : s.scanReturnState = .idle) (h : s.state ≠ .scanning)
    (pc : ScanPc) : (runManualScan hw env pc s).2.state = s.state := by
  have hhome : ∀ (b : Bool) (t : Mlme), t.scanReturnState = .idle →
      (visitHome hw env b t).state = t.state := fun b t ht =>
    congrArg Link.state (view_visitHome ht b)
  cases pc with
  | entry =>
      simp only [runManualScan]
      split
      · exact scanDone_state h true
      · rfl
  | chan i count connectedScan =>
      simp only [runManualScan]
      split
      · split
        · rfl
        · split
          · exact hhome true (setOnHomeChannel false s) hret
          · exact congrArg Link.state (view_tuneScanChannel _ _)
      · have hsleep : (if connectedScan
            then visitHome hw env false
              ((setOnHomeChannel false s).emit .swScanComplete)
            else (setOnHomeChannel false s).emit .swScanComplete).state
            = s.state := by
          split
          · exact hhome false ((setOnHomeChannel false s).emit
              .swScanComplete) hret
          · rfl
        have hdone := @scanDone_state hw _ (hsleep.symm ▸ h)
          (if connectedScan
            then visitHome hw env false
              ((setOnHomeChannel false s).emit .swScanComplete)
            else (setOnHomeChannel false s).emit
              .swScanComplete).manualScanAbort
        exact hdone.trans hsleep
  | leave chan i count =>
      exact congrArg Link.state (view_tuneScanChannel chan s)
  | dwell i count connectedScan =>
      simp only [runManualScan]
      split
      · exact hhome false s hret
      · rfl

/-- Outside a link nothing that is received is taken, except a reply of
the target in AUTHENTICATING. -/
theorem rxFrame_ignored {s : Mlme} {skb : SkBuff}
    (hret : s.scanReturnState = .idle)
    (h : s.state = .idle
      ∨ s.state = .authenticating ∧ isAuthReply skb s = false) :
    rxFrame hw env skb s = (kfreeSkb skb s, none) := by
  have hconn : rxConnected s = false := by
    rcases h with h | ⟨h, _⟩ <;> simp [rxConnected, h, hret]
  rw [rxFrame]
  split
  next hmgmt =>
    refine Prod.ext ?_ rfl
    simp only [processRxMgmt]
    split
    · rw [if_neg (by rcases h with h | ⟨h, _⟩ <;> simp [h])]
    · split
      next hauth =>
        rcases h with h | ⟨h, hreply⟩
        · rw [if_pos (by simp [h])]
        · have hbssid : addr3 skb.mem ≠ s.targetBSS.bssid := by
            simpa [isAuthReply, hmgmt, hauth] using hreply
          rw [if_neg (by simp [h]), if_pos hbssid]
      next =>
        split
        · rw [if_neg (by rcases h with h | ⟨h, _⟩ <;> simp [h])]
        · split
          · rw [if_neg (by rcases h with h | ⟨h, _⟩ <;> simp [h])]
          · split
            · rw [if_neg (by rcases h with h | ⟨h, _⟩ <;> simp [h])]
            · rfl
  next =>
    split
    · rw [processRxData, hconn]
      rfl
    · rfl

/-- A delivery outside a handshake is for the network stack only. -/
theorem deliverDataFrame_state {s : Mlme} {skb : SkBuff}
    (h : s.state ≠ .handshaking) :
    (deliverDataFrame hw env skb s).state = s.state
      ∧ joinFrames (deliverDataFrame hw env skb s) = joinFrames s := by
  have hone : ∀ (pos : Nat) (f : EthFrame) (t : Mlme),
      (deliverEthernet env pos f t).state = t.state
        ∧ joinFrames (deliverEthernet env pos f t) = joinFrames t := by
    intro pos f t
    rw [deliverEthernet]
    split <;> exact ⟨rfl, rfl⟩
  have hall : ∀ (l : List (Nat × EthFrame)) (t : Mlme),
      (l.foldl (fun t m => deliverEthernet env m.1 m.2 t) t).state = t.state
        ∧ joinFrames (l.foldl (fun t m => deliverEthernet env m.1 m.2 t) t)
          = joinFrames t := by
    intro l
    induction l with
    | nil => exact fun t => ⟨rfl, rfl⟩
    | cons m l ih =>
        intro t
        exact ⟨(ih _).1.trans (hone m.1 m.2 t).1,
          (ih _).2.trans (hone m.1 m.2 t).2⟩
  rw [deliverDataFrame]
  split
  next => exact ⟨rfl, rfl⟩
  next msdus _ => exact hall msdus s
  next msdu _ =>
    rw [if_neg fun hc => h hc.2]
    exact hone 0 msdu s

/-- Outside a link no packet goes out. -/
theorem outputPacket_unlinked {s : Mlme}
    (hret : s.scanReturnState = .idle) (h : s.state ≠ .connected)
    (m : List UInt8) : outputPacket hw env m s = (false, s) := by
  rw [outputPacket, if_pos]
  simp [h, hret]

/-- Up to its final write an activation leaves the state. -/
theorem doAuthenticate_state {pc : AuthPc} (hpc : pc ≠ .finish)
    (scanning : Bool) (s : Mlme) :
    (doAuthenticate hw env scanning pc s).2.state = s.state := by
  cases pc with
  | entry =>
      simp only [doAuthenticate]
      split <;> rfl
  | waitScan i =>
      simp only [doAuthenticate]
      split <;> rfl
  | settle =>
      simp only [doAuthenticate]
      split
      · rfl
      · exact congrArg Link.state (@view_connectSetup hw s)
  | transmit =>
      exact congrArg Link.state (@view_txMgmtFrame env
        (buildAuthReq hw s).1 (buildAuthReq hw s).2)
  | finish => exact absurd rfl hpc

/-- An event that does not supersede the attempt leaves it in
AUTHENTICATING. -/
private theorem sysStep_authenticating {s : Sys} {e : Event}
    (hscan : NoLinkScan s) (hst : s.mlme.state = .authenticating)
    (h : ¬Supersedes s e) :
    (sysStep hw s e).mlme.state = .authenticating := by
  have hne : s.mlme.state ≠ .scanning := by
    rw [hst]
    decide
  have hconnect : ∀ ssid password,
      (runConnect ssid password s).mlme.state = .authenticating := by
    intro ssid password
    rw [runConnect_busy (by rw [hst]; decide)]
    exact hst
  cases e with
  | cmdScan env => simp [sysStep, cmdScan, hst]
  | cmdConnect ssid password =>
      simp only [sysStep, if_neg hne]
      exact hconnect ssid password
  | cmdDisconnect env => exact absurd trivial h
  | cmdPowerOn env =>
      have hon : (powerOn env s.mlme).2.state = .authenticating :=
        (congrArg Link.state (view_powerOn s.mlme)).trans hst
      simp only [sysStep, cmdPowerOn]
      split
      next hdis =>
        rw [hon] at hdis
        exact absurd hdis.2 (by decide)
      next => exact hon
  | cmdPowerOff env => exact absurd trivial h
  | resume i env =>
      simp only [sysStep, resumeWait]
      cases hi : s.waiters[i]? with
      | none => exact hst
      | some w =>
          obtain ⟨cmd, ret, turn⟩ := w
          simp only
          split
          · exact hst
          · simp only [abortScanFinish, if_pos hne]
            cases cmd with
            | powerOff => exact absurd ⟨_, hi, rfl⟩ h
            | connect ssid password =>
                simp only [runWaiter, if_true]
                rw [runConnect_busy (by
                  rw [show Mlme.state _ = _ from hst]
                  decide)]
                exact hst
  | powerOn env =>
      exact (congrArg Link.state (view_powerOn s.mlme)).trans hst
  | powerOff => exact (congrArg Link.state (view_powerOff s.mlme)).trans hst
  | rx env skb =>
      have hignore := @rxFrame_ignored hw env _ skb
        hscan.ret (.inr ⟨hst, by simpa [Supersedes] using h⟩)
      simp only [sysStep, hignore]
      exact hst
  | deliver i env =>
      simp only [sysStep, deliverNext]
      cases s.pending[i]? with
      | none => exact hst
      | some p =>
          obtain ⟨out, needTimer⟩ := p
          cases out with
          | nil =>
              simp only
              split <;> exact hst
          | cons skb rest =>
              exact (deliverDataFrame_state (by
                rw [hst]
                decide)).1.trans hst
  | scanDone aborted => exact (scanDone_state hne aborted).trans hst
  | timer env =>
      have hcancel : s.mlme.cancelTimer.state = .authenticating := hst
      simp only [sysStep, fireTimer, onTimer, hcancel]
      split
      · exact hst
      · exact hst
  | reorderTimer =>
      simp only [sysStep, fireReorderTimer]
      split <;> exact hst
  | output env m =>
      simp only [sysStep]
      rw [outputPacket_unlinked hscan.ret (by rw [hst]; decide)]
      exact hst
  | auth i env scanning =>
      simp only [sysStep, stepAuth]
      cases s.auths[i]? with
      | none => exact hst
      | some t =>
          by_cases hpc : t.pc = .finish
          · simp only [hpc]
            rfl
          · exact (doAuthenticate_state hpc scanning s.mlme).trans hst
  | scan i env =>
      simp only [sysStep, stepScan]
      cases s.scans[i]? with
      | none => exact hst
      | some pc => exact (runManualScan_state hscan.ret hne pc).trans hst
  | stop env => exact absurd trivial h

-- =========================================================== events in IDLE

/-- An observation that is no request leaves their number. -/
private theorem joinFrames_emit {s : Mlme} {o : Obs}
    (h : o.isJoinFrame = false) : joinFrames (s.emit o) = joinFrames s := by
  have hlog : (s.emit o).log = o :: s.log := rfl
  rw [joinFrames, joinFrames, hlog, List.countP_cons_of_neg (by simp [h])]

/-- A scan sends probe requests. -/
private theorem tuneScanChannel_joinFrames (chan : Channel) (s : Mlme) :
    joinFrames (tuneScanChannel hw env chan s) = joinFrames s := by
  have htune : joinFrames ((setScanChandef chan s).emit .swScanSwitchChannel)
      = joinFrames s := joinFrames_emit rfl
  rw [tuneScanChannel]
  split
  · exact htune
  · rw [txProbeRequest]
    split
    · exact htune
    · rw [txMgmtFrame]
      split
      · exact htune
      · refine (joinFrames_emit ?_).trans htune
        rw [Obs.isJoinFrame, List.append_assoc, frameControl_hdr3addr]
        decide

/-- A visit to the home channel sends a null frame. -/
private theorem visitHome_joinFrames {s : Mlme}
    (hret : s.scanReturnState = .idle) (powerSave : Bool) :
    joinFrames (visitHome hw env powerSave s) = joinFrames s := by
  rw [visitHome, restoreConnectedChannel_of_ne (by simp [hret]), txNullFunc]
  split
  · rfl
  · split
    · rfl
    · refine joinFrames_emit ?_
      have hfc := frameControl_hdr3addr (ftypeData ||| stypeNullfunc
        ||| fctlToDs ||| (if powerSave then fctlPm else 0))
        s.targetBSS.bssid hw.macAddr s.targetBSS.bssid (seqField s.txSeq) []
      rw [List.append_nil] at hfc
      rw [Obs.isJoinFrame, hfc]
      cases powerSave <;> decide

/-- Outside a scan `scanDone` records nothing. -/
private theorem scanDone_joinFrames {s : Mlme} (h : s.state ≠ .scanning)
    (aborted : Bool) : joinFrames (scanDone hw aborted s) = joinFrames s := by
  have hage : (if aborted then s else ageBssList s).state = s.state
      ∧ joinFrames (if aborted then s else ageBssList s)
        = joinFrames s := by
    split <;> exact ⟨rfl, rfl⟩
  rw [scanDone]
  generalize (if aborted = true then s else ageBssList s) = t at hage ⊢
  rw [if_pos (by rw [hage.1]; exact h)]
  exact hage.2

private theorem runManualScan_joinFrames {s : Mlme}
    (hret : s.scanReturnState = .idle) (h : s.state ≠ .scanning)
    (pc : ScanPc) :
    joinFrames (runManualScan hw env pc s).2 = joinFrames s := by
  cases pc with
  | entry =>
      simp only [runManualScan]
      split
      · exact scanDone_joinFrames h true
      · exact joinFrames_emit rfl
  | chan i count connectedScan =>
      simp only [runManualScan]
      split
      · split
        · rfl
        · split
          · exact visitHome_joinFrames (s := setOnHomeChannel false s) hret
              true
          · exact tuneScanChannel_joinFrames _ (setOnHomeChannel false s)
      · -- the end of the scan
        have hsleep : (if connectedScan
            then visitHome hw env false
              ((setOnHomeChannel false s).emit .swScanComplete)
            else (setOnHomeChannel false s).emit .swScanComplete).state
              = s.state
            ∧ joinFrames (if connectedScan
              then visitHome hw env false
                ((setOnHomeChannel false s).emit .swScanComplete)
              else (setOnHomeChannel false s).emit .swScanComplete)
              = joinFrames s := by
          have hoff : joinFrames ((setOnHomeChannel false s).emit
              .swScanComplete) = joinFrames s := joinFrames_emit rfl
          split
          · exact ⟨congrArg Link.state (view_visitHome
                (s := (setOnHomeChannel false s).emit .swScanComplete) hret
                false),
              (visitHome_joinFrames (s := (setOnHomeChannel false s).emit
                .swScanComplete) hret false).trans hoff⟩
          · exact ⟨rfl, hoff⟩
        exact (@scanDone_joinFrames hw _ (hsleep.1.symm ▸ h)
          _).trans hsleep.2
  | leave chan i count => exact tuneScanChannel_joinFrames chan s
  | dwell i count connectedScan =>
      simp only [runManualScan]
      split
      · exact visitHome_joinFrames hret false
      · rfl

/-- From IDLE an event that is no command stays in IDLE and sends no
request. -/
private theorem sysStep_idle {s : Sys} {e : Event} (hscan : NoLinkScan s)
    (hinv : AttemptInv s) (hst : s.mlme.state = .idle)
    (hcmd : e.isCommand = false) :
    (sysStep hw s e).mlme.state = .idle
      ∧ joinFrames (sysStep hw s e).mlme = joinFrames s.mlme := by
  have hne : s.mlme.state ≠ .scanning := by
    rw [hst]
    decide
  cases e with
  | cmdScan env => cases hcmd
  | cmdConnect ssid password => cases hcmd
  | cmdDisconnect env => cases hcmd
  | cmdPowerOn env => cases hcmd
  | cmdPowerOff env => cases hcmd
  | resume i env => cases hcmd
  | stop env => cases hcmd
  | powerOn env =>
      refine ⟨(congrArg Link.state (view_powerOn s.mlme)).trans hst, ?_⟩
      simp only [sysStep, powerOn]
      split
      · rfl
      · split
        · rfl
        · split <;> exact joinFrames_emit rfl
  | powerOff =>
      refine ⟨(congrArg Link.state (view_powerOff s.mlme)).trans hst, ?_⟩
      simp only [sysStep, powerOff]
      split
      · rfl
      · have hstop : joinFrames (if s.mlme.up then s.mlme.emit .hwStop
            else s.mlme) = joinFrames s.mlme := by
          split
          · exact joinFrames_emit rfl
          · rfl
        exact hstop
  | rx env skb =>
      have hignore := @rxFrame_ignored hw env _ skb
        hscan.ret (.inl hst)
      simp only [sysStep, hignore]
      exact ⟨hst, joinFrames_emit rfl⟩
  | deliver i env =>
      simp only [sysStep, deliverNext]
      cases s.pending[i]? with
      | none => exact ⟨hst, rfl⟩
      | some p =>
          obtain ⟨out, needTimer⟩ := p
          cases out with
          | nil =>
              simp only
              split <;> exact ⟨hst, rfl⟩
          | cons skb rest =>
              have h := @deliverDataFrame_state hw env s.mlme
                skb (by rw [hst]; decide)
              exact ⟨h.1.trans hst, h.2⟩
  | scanDone aborted =>
      exact ⟨(scanDone_state hne aborted).trans hst,
        scanDone_joinFrames hne aborted⟩
  | timer env =>
      have hcancel : s.mlme.cancelTimer.state = .idle := hst
      simp only [sysStep, fireTimer, onTimer, hcancel]
      split
      · exact ⟨hst, rfl⟩
      · exact ⟨hst, rfl⟩
  | reorderTimer =>
      simp only [sysStep, fireReorderTimer]
      split
      · exact ⟨hst, rfl⟩
      · exact ⟨hst, rfl⟩
  | output env m =>
      simp only [sysStep]
      rw [outputPacket_unlinked hscan.ret (by rw [hst]; decide)]
      exact ⟨hst, rfl⟩
  | auth i env scanning =>
      simp only [sysStep, stepAuth]
      cases hi : s.auths[i]? with
      | none => exact ⟨hst, rfl⟩
      | some t =>
          have hmem : t ∈ s.auths := List.mem_of_getElem? hi
          cases hup : s.mlme.up with
          | true =>
              have hlive := (hinv.live hup t hmem).1
              rw [hst] at hlive
              cases hlive
          | false =>
              -- the driver is gone: nothing is transmitted or written
              have hpc := hinv.dead hup t hmem
              have hquiet : (doAuthenticate hw env scanning t.pc s.mlme).2
                  = s.mlme := by
                cases hp : t.pc with
                | entry => simp [doAuthenticate, hup]
                | waitScan j =>
                    simp only [doAuthenticate]
                    split <;> rfl
                | settle => simp [doAuthenticate, hup]
                | transmit => exact absurd hp hpc.1
                | finish => exact absurd hp hpc.2
              exact ⟨(congrArg Mlme.state hquiet).trans hst,
                congrArg joinFrames hquiet⟩
  | scan i env =>
      simp only [sysStep, stepScan]
      cases s.scans[i]? with
      | none => exact ⟨hst, rfl⟩
      | some pc =>
          exact ⟨(runManualScan_state hscan.ret hne pc).trans hst,
            runManualScan_joinFrames hscan.ret hne pc⟩

-- ============================================================== step and run

/-- Only `stop` takes the driver away, and nothing brings it back. -/
private theorem sysStep_up {s : Sys} {e : Event} (hscan : NoLinkScan s)
    (hstop : e.isStop = false) :
    (sysStep hw s e).mlme.up = s.mlme.up := by
  have hallowed : Allowed hw { Allow.all with stop := False } s e :=
    { Allowed.all hw s e with
      stop := fun h => by rw [hstop] at h; cases h }
  exact (sysStep_moves hscan hallowed).inv
    (I := fun v => v.up = s.mlme.up)
    (fun hmove hv => by
      cases hmove with
      | down hP => exact hP.elim
      | _ => exact hv) rfl

/-- An activation after an event was there before and is of the attempt
it was of; without the driver it has not come to its transmission if it
had not before. -/
private def OldThread (hw : Hw) (s : Sys) (e : Event) (t : AuthThread) :
    Prop :=
  (sysStep hw s e).attempt = s.attempt ∧ ∃ t' ∈ s.auths,
    t.attempt = t'.attempt ∧ (s.mlme.up = false →
      t'.pc ≠ .transmit ∧ t'.pc ≠ .finish →
      t.pc ≠ .transmit ∧ t.pc ≠ .finish)

/-- It is one of the timer, in AUTHENTICATING. -/
private def TimerThread (hw : Hw) (s : Sys) (e : Event) (t : AuthThread) :
    Prop :=
  (sysStep hw s e).mlme.state = .authenticating
    ∧ t.attempt = (sysStep hw s e).attempt ∧ t.pc = .entry

/-- It is there when a command has found its target: one entered for it,
or one of before. -/
private def ConnectThread (hw : Hw) (s : Sys) (e : Event) (t : AuthThread) :
    Prop :=
  s.mlme.state ≠ .authenticating
    ∧ (sysStep hw s e).mlme.state = .authenticating
    ∧ (t.attempt = (sysStep hw s e).attempt ∧ t.pc = .entry ∨ t ∈ s.auths)

/-- The activations a connect leaves. -/
private theorem runConnect_auths {s : Sys} {ssid : Option (List UInt8)}
    {password : List UInt8} {t : AuthThread}
    (ht : t ∈ (runConnect ssid password s).auths) :
    (runConnect ssid password s).attempt = s.attempt ∧ t ∈ s.auths
      ∨ s.mlme.state = .idle
        ∧ (runConnect ssid password s).mlme.state = .authenticating
        ∧ (t.attempt = (runConnect ssid password s).attempt ∧ t.pc = .entry
          ∨ t ∈ s.auths) := by
  by_cases hidle : s.mlme.state = .idle
  · simp only [runConnect] at ht ⊢
    split
    next hok =>
      rw [if_pos hok] at ht
      refine .inr ⟨hidle, ?_, ?_⟩
      · -- the command found its target
        simp only [connectTo, hidle] at hok ⊢
        rw [if_neg (by simp)] at hok ⊢
        cases ssid with
        | none => cases hok
        | some n =>
            simp only at hok ⊢
            split at hok
            next => cases hok
            next target hfind => rfl
      · simp only [enterConnect] at ht
        split at ht
        · obtain ⟨t', ht', rfl⟩ := List.mem_map.1 ht
          split
          next hentry =>
            simp only [Bool.and_eq_true, beq_iff_eq] at hentry
            exact .inl ⟨rfl, hentry.1⟩
          next => exact .inr ht'
        · rcases List.mem_append.1 ht with ht | ht
          · exact .inr ht
          · rw [List.mem_singleton.1 ht]
            exact .inl ⟨rfl, rfl⟩
    next hfail =>
      rw [if_neg hfail] at ht
      exact .inl ⟨rfl, ht⟩
  · rw [runConnect_busy hidle] at ht ⊢
    exact .inl ⟨rfl, ht⟩

/-- Where the activations after an event come from. -/
private theorem sysStep_auths {s : Sys} {e : Event} {t : AuthThread}
    (ht : t ∈ (sysStep hw s e).auths) :
    OldThread hw s e t ∨ TimerThread hw s e t ∨ ConnectThread hw s e t := by
  have hold : (sysStep hw s e).attempt = s.attempt → t ∈ s.auths →
      OldThread hw s e t := fun ha hmem =>
    ⟨ha, t, hmem, rfl, fun _ h => h⟩
  cases e with
  | cmdConnect ssid password =>
      simp only [sysStep] at ht
      split at ht
      next hs =>
        refine .inl (hold ?_ ht)
        simp only [sysStep, if_pos hs]
        rfl
      next hs =>
        have hstep : sysStep hw s (.cmdConnect ssid password)
            = runConnect ssid password s := if_neg hs
        rcases runConnect_auths ht with ⟨ha, hmem⟩ | hnew
        · exact .inl (hold ((congrArg Sys.attempt hstep).trans ha) hmem)
        · refine .inr (.inr ?_)
          rw [ConnectThread, hstep]
          exact ⟨fun hst => (by rw [hnew.1] at hst; cases hst), hnew.2⟩
  | cmdPowerOff env =>
      have hkeep : (sysStep hw s (.cmdPowerOff env)).auths = s.auths
          ∧ (sysStep hw s (.cmdPowerOff env)).attempt = s.attempt := by
        simp only [sysStep]
        split <;> exact ⟨rfl, rfl⟩
      exact .inl (hold hkeep.2 (hkeep.1 ▸ ht))
  | resume i env =>
      cases hi : s.waiters[i]? with
      | none =>
          have hkeep : sysStep hw s (.resume i env) = s := by
            simp only [sysStep, resumeWait, hi]
          rw [hkeep] at ht
          exact .inl (hold (congrArg Sys.attempt hkeep) ht)
      | some w =>
          obtain ⟨cmd, ret, turn⟩ := w
          by_cases hsleep : turn < 40 ∧ s.mlme.state = .scanning
          · have hkeep : (sysStep hw s (.resume i env)).auths = s.auths
                ∧ (sysStep hw s (.resume i env)).attempt = s.attempt := by
              simp only [sysStep, resumeWait, hi, if_pos hsleep, and_self]
            exact .inl (hold hkeep.2 (hkeep.1 ▸ ht))
          · have hstep : sysStep hw s (.resume i env)
                = runWaiter hw env cmd (abortScanFinish hw ret s.mlme).1
                  { s with
                    mlme := (abortScanFinish hw ret s.mlme).2
                    waiters := s.waiters.eraseIdx i } := by
              simp only [sysStep, resumeWait, hi, if_neg hsleep]
            cases cmd with
            | powerOff =>
                have ha : (sysStep hw s (.resume i env)).attempt
                    = s.attempt := by
                  rw [hstep]
                  rfl
                rw [hstep] at ht
                exact .inl (hold ha ht)
            | connect ssid password =>
                simp only [runWaiter] at hstep
                split at hstep
                next hok =>
                  rw [hstep] at ht
                  rcases runConnect_auths ht with ⟨ha, hmem⟩ | hnew
                  · exact .inl (hold ((congrArg Sys.attempt hstep).trans ha)
                      hmem)
                  · refine .inr (.inr ?_)
                    rw [ConnectThread, hstep]
                    refine ⟨fun hst => ?_, hnew.2⟩
                    have hidle : (abortScanFinish hw ret s.mlme).2.state
                        = .idle := hnew.1
                    rw [abortScanFinish, if_pos (by rw [hst]; decide)]
                      at hidle
                    rw [show s.mlme.state = .idle from hidle] at hst
                    cases hst
                next =>
                  have ha : (sysStep hw s (.resume i env)).attempt
                      = s.attempt := by rw [hstep]
                  rw [hstep] at ht
                  exact .inl (hold ha ht)
  | rx env skb =>
      have hfile : ∀ (p : Option Pending) (u : Sys),
          (addPending p u).auths = u.auths
            ∧ (addPending p u).attempt = u.attempt := by
        intro p u
        cases p <;> exact ⟨rfl, rfl⟩
      simp only [sysStep, hfile] at ht
      exact .inl (hold (hfile _ _).2 ht)
  | deliver i env =>
      have hkeep : (deliverNext hw i env s).auths = s.auths
          ∧ (deliverNext hw i env s).attempt = s.attempt := by
        simp only [deliverNext]
        split
        · exact ⟨rfl, rfl⟩
        · split <;> exact ⟨rfl, rfl⟩
      exact .inl (hold hkeep.2 (hkeep.1 ▸ ht))
  | timer env =>
      by_cases hfire : (s.mlme.timer.isNone
          || s.auths.any (·.onTimer)) = true
      · have hkeep : sysStep hw s (.timer env) = s := if_pos hfire
        rw [hkeep] at ht
        exact .inl (hold (congrArg Sys.attempt hkeep) ht)
      · have hstep : sysStep hw s (.timer env)
            = if (onTimer hw env s.mlme.cancelTimer).1 then
                { s with
                  mlme := (onTimer hw env s.mlme.cancelTimer).2
                  auths := s.auths ++ [{ pc := .entry, attempt := s.attempt
                                         onTimer := true }] }
              else
                { s with mlme := (onTimer hw env s.mlme.cancelTimer).2 } :=
          if_neg hfire
        have ha : (sysStep hw s (.timer env)).attempt = s.attempt := by
          rw [hstep]
          split <;> rfl
        split at hstep
        next hretry =>
          rw [hstep] at ht
          rcases List.mem_append.1 ht with ht | ht
          · exact .inl (hold ha ht)
          · -- the retry is in AUTHENTICATING
            refine .inr (.inl ?_)
            rw [TimerThread, hstep, List.mem_singleton.1 ht]
            refine ⟨?_, rfl, rfl⟩
            simp only [onTimer] at hretry ⊢
            split at hretry
            next => split at hretry <;> cases hretry
            next hst => exact hst
            next => cases hretry
            next => cases hretry
            next => cases hretry
        next =>
          rw [hstep] at ht
          exact .inl (hold ha ht)
  | reorderTimer =>
      have hkeep : (fireReorderTimer s).auths = s.auths
          ∧ (fireReorderTimer s).attempt = s.attempt := by
        simp only [fireReorderTimer]
        split <;> exact ⟨rfl, rfl⟩
      exact .inl (hold hkeep.2 (hkeep.1 ▸ ht))
  | auth i env scanning =>
      cases hi : s.auths[i]? with
      | none =>
          have hkeep : sysStep hw s (.auth i env scanning) = s := by
            simp only [sysStep, stepAuth, hi]
          rw [hkeep] at ht
          exact .inl (hold (congrArg Sys.attempt hkeep) ht)
      | some t' =>
          have hmem' : t' ∈ s.auths := List.mem_of_getElem? hi
          have hattempt : (sysStep hw s (.auth i env scanning)).attempt
              = s.attempt := by
            simp only [sysStep, stepAuth, hi]
          simp only [sysStep, stepAuth, hi] at ht
          cases hpc : (doAuthenticate hw env scanning t'.pc s.mlme).1 with
          | none =>
              rw [hpc] at ht
              exact .inl (hold hattempt (List.mem_of_mem_eraseIdx ht))
          | some pc =>
              rw [hpc] at ht
              rcases List.mem_or_eq_of_mem_set ht with hmem | rfl
              · exact .inl (hold hattempt hmem)
              · refine .inl ⟨hattempt, t', hmem', rfl, fun hup hold => ?_⟩
                -- without the driver a thread only waits for the scan
                cases hp : t'.pc with
                | entry => simp [hp, doAuthenticate, hup] at hpc
                | waitScan j =>
                    simp only [hp, doAuthenticate] at hpc
                    split at hpc <;>
                      (obtain rfl := Option.some.inj hpc; simp)
                | settle => simp [hp, doAuthenticate, hup] at hpc
                | transmit => exact absurd hp hold.1
                | finish => exact absurd hp hold.2
  | scan i env =>
      have hkeep : (stepScan hw i env s).auths = s.auths
          ∧ (stepScan hw i env s).attempt = s.attempt := by
        simp only [stepScan]
        split <;> exact ⟨rfl, rfl⟩
      exact .inl (hold hkeep.2 (hkeep.1 ▸ ht))
  | _ => exact .inl (hold rfl ht)

/-- `AttemptInv` is preserved by every undisturbed event. -/
private theorem sysStep_attemptInv {s : Sys} {e : Event}
    (hscan : NoLinkScan s) (hinv : AttemptInv s) (hd : Undisturbed s e) :
    AttemptInv (sysStep hw s e) := by
  have hstop_up : e.isStop = true →
      (sysStep hw s e).mlme.up = false ∧ (sysStep hw s e).auths = s.auths := by
    intro hstop
    cases e with
    | stop env => exact ⟨rfl, rfl⟩
    | _ => cases hstop
  constructor
  · intro hup t ht
    have hstop : e.isStop = false := by
      cases hs : e.isStop with
      | false => rfl
      | true =>
          rw [(hstop_up hs).1] at hup
          cases hup
    have hup' : s.mlme.up = true := (sysStep_up hscan hstop).symm.trans hup
    rcases sysStep_auths ht with ⟨ha, t', hmem, heq, _⟩
        | ⟨hst, heq, _⟩ | ⟨hne, hst, hnew⟩
    · obtain ⟨hauth, hown⟩ := hinv.live hup' t' hmem
      have hquiet : ¬Supersedes s e := fun hsup => by
        have hstops : e.isStop = true := (hd hup' hsup t' hmem).1
        rw [hstop] at hstops
        cases hstops
      refine ⟨sysStep_authenticating hscan hauth hquiet, ?_⟩
      rw [heq, hown, ha]
    · exact ⟨hst, heq⟩
    · rcases hnew with ⟨heq, _⟩ | hmem
      · exact ⟨hst, heq⟩
      · exact absurd (hinv.live hup' t hmem).1 hne
  · intro hdown t ht
    cases hs : e.isStop with
    | true =>
        rw [(hstop_up hs).2] at ht
        cases hup : s.mlme.up with
        | false => exact hinv.dead hup t ht
        | true =>
            have hsup : Supersedes s e := by
              cases e with
              | stop env => trivial
              | _ => cases hs
            exact (hd hup hsup t ht).2
    | false =>
        have hdown' : s.mlme.up = false :=
          (sysStep_up hscan hs).symm.trans hdown
        rcases sysStep_auths ht with ⟨_, t', hmem, _, hpc⟩
            | ⟨_, _, hentry⟩ | ⟨_, _, hnew⟩
        · exact hpc hdown' (hinv.dead hdown' t' hmem)
        · rw [hentry]
          exact ⟨by simp, by simp⟩
        · rcases hnew with ⟨_, hentry⟩ | hmem
          · rw [hentry]
            exact ⟨by simp, by simp⟩
          · exact hinv.dead hdown' t hmem

/-- An attempt that went on does not come back to AUTHENTICATING. -/
private theorem sysStep_forward {s : Sys} {e : Event} (hscan : NoLinkScan s)
    (hinv : AttemptInv s)
    (hst : s.mlme.state = .associating ∨ s.mlme.state = .handshaking
      ∨ s.mlme.state = .connected) :
    (sysStep hw s e).mlme.state ≠ .authenticating := by
  have hne : s.mlme.state ≠ .authenticating
      ∧ s.mlme.state ≠ .idle ∧ s.mlme.state ≠ .scanning := by
    rcases hst with h | h | h <;> rw [h] <;> decide
  -- no command finds a target, no activation makes its final write
  have hconnect : ¬FindsTarget hw s e := by
    rintro ⟨ssid, hlook, _⟩
    cases e with
    | cmdConnect ssid' password =>
        simp only [Option.mem_def, Sys.looksUp, if_neg hne.2.1] at hlook
        cases hlook
    | resume i env =>
        simp only [Option.mem_def, Sys.looksUp] at hlook
        split at hlook
        next =>
          rw [abortScanFinish, if_pos hne.2.2, if_pos (.inr (.inr hne.2.1))]
            at hlook
          cases hlook
        next => cases hlook
    | _ => cases hlook
  have hwrite : s.finishing e = none := by
    cases e with
    | auth i env scanning =>
        simp only [Sys.finishing]
        cases hi : s.auths[i]? with
        | none => rfl
        | some t =>
            have hmem : t ∈ s.auths := List.mem_of_getElem? hi
            cases hup : s.mlme.up with
            | true => exact absurd (hinv.live hup t hmem).1 hne.1
            | false => simp [(hinv.dead hup t hmem).2]
    | _ => rfl
  have hallowed : Allowed hw
      { Allow.all with connect := False, authWrite := False } s e :=
    { Allowed.all hw s e with
      connect := hconnect
      authWrite := fun h => by rw [hwrite] at h; cases h }
  exact (sysStep_moves hscan hallowed).inv
    (I := fun v => v.state ≠ .authenticating)
    (fun hmove hv => by
      cases hmove with
      | connect _ _ _ _ _ _ hP => exact hP.elim
      | authWrite hP => exact hP.elim
      | idle => exact fun h => by cases h
      | scanning => exact fun h => by cases h
      | assocReq => exact fun h => by cases h
      | handshake => exact fun h => by cases h
      | openLink => exact fun h => by cases h
      | m3 => exact fun h => by cases h
      | _ => exact hv) hne.1

/-- A disconnect ends in IDLE. -/
theorem doDisconnect_state (s : Mlme) :
    (doDisconnect hw env s).state = .idle := by
  rw [doDisconnect]
  split <;> rfl

/-- In every run whose events are undisturbed, every event keeps to the
attempt it belongs to. -/
theorem undisturbed_keeps_attempt (powered : Bool) (es : List Event)
    (h : Along (sysStep hw) Undisturbed (Sys.init powered) es) :
    Along (sysStep hw) (KeepsAttempt hw) (Sys.init powered) es := by
  have hstep : ∀ s e, (NoLinkScan s ∧ AttemptInv s) → Undisturbed s e →
      (NoLinkScan (sysStep hw s e) ∧ AttemptInv (sysStep hw s e))
        ∧ KeepsAttempt hw s e := by
    rintro s e ⟨hscan, hinv⟩ hd
    refine ⟨⟨sysStep_noLinkScan hscan e, sysStep_attemptInv hscan hinv hd⟩, ?_⟩
    constructor
    · intro t ht
      cases e with
      | auth i env scanning =>
          simp only [Option.mem_def, Sys.finishing] at ht
          cases hi : s.auths[i]? with
          | none => rw [hi] at ht; cases ht
          | some t' =>
              simp only [hi] at ht
              split at ht
              next hpc =>
                obtain rfl := Option.some.inj ht
                have hmem : t' ∈ s.auths := List.mem_of_getElem? hi
                cases hup : s.mlme.up with
                | true => exact hinv.live hup t' hmem
                | false => exact absurd hpc (hinv.dead hup t' hmem).2
              next => cases ht
      | _ => cases ht
    · exact sysStep_idle hscan hinv
    · rintro env rfl
      simp only [sysStep, cmdDisconnect]
      split
      next hidle => exact hidle
      next => exact doDisconnect_state s.mlme
    · rintro env rfl hne
      simp only [sysStep, if_neg hne]
      rfl
    · rintro i env w rfl hw hcmd hgo
      simp only [sysStep, resumeWait, hw, if_neg hgo, hcmd]
      rfl
    · exact sysStep_forward hscan hinv
  refine along_of_inv hstep ⟨NoLinkScan.init powered, ?_⟩ h
  exact ⟨fun _ t ht => (by cases ht), fun _ t ht => (by cases ht)⟩

/-- The sample network is joined and left. -/
theorem sample_keeps_attempt :
    let hw := sampleHw samplePrims
    Along (sysStep hw) (KeepsAttempt hw) (Sys.init true)
      (joinEvents ++ [.cmdDisconnect {}]) :=
  undisturbed_keeps_attempt true _ (by decide +kernel)

/-- A `cmdDisconnect` before the final write of `doAuthenticate`: the
write finds IDLE and makes it AUTHENTICATING. -/
theorem disconnect_overwritten :
    let hw := sampleHw samplePrims
    let s := sysRun hw true (scanEvents ccmpIe ++ authEvents.dropLast
      ++ [.cmdDisconnect {}])
    s.mlme.state = .idle ∧ ¬KeepsAttempt hw s (.auth 0 {} false)
      ∧ (sysStep hw s (.auth 0 {} false)).mlme.state = .authenticating := by
  intro hw s
  refine ⟨by decide +kernel, fun h => ?_, by decide +kernel⟩
  have hsome : ∃ t ∈ s.finishing (.auth 0 {} false), True := by
    decide +kernel
  obtain ⟨t, ht, _⟩ := hsome
  have hidle : s.mlme.state = .idle := by decide +kernel
  have hauth := (h.write t ht).1
  rw [hidle] at hauth
  cases hauth

end Rtw88
