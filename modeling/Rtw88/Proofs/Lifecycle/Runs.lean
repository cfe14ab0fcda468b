/-
The driver's keys and stations against the object's, over every run.

The functions that call `clearKeys` or `releaseSta` keep `Objects` where
these do, and the event that calls them is one of `ClearsKeys` or
`ReleasesSta`: an event that frees safely keeps the invariant.

# From functions to events

A condition on the event has to become one on the state in which the
function is called. For most events nothing comes between the two. A
command that waited in `abortActiveScan` is the exception: its tail runs
in an activation of its own, behind the end of the scan, and the slots
and the power have to be carried over it (`resumeWait_objects`). That no
scan was started from a link (`NoLinkScan`) is needed there, and nowhere
else; it is an invariant of its own, and goes through the induction
beside `Objects`.

The other side is `freed_key_and_refused_station`. It leaves the
condition in both ways: the interface is disabled under a link, and the
keys are freed without a word to the driver; a station that the driver
refused is removed all the same.
-/
import Rtw88.Proofs.Lifecycle.Objects
import Rtw88.Proofs.Power

namespace Rtw88

variable {hw : Hw} {env : Env} {staOk : Nat → Bool} {s t : Mlme}

-- ================================================================== teardown

/-- `clearKeys`, then `releaseSta`. -/
private theorem releaseAll_objects (h : Objects staOk s)
    (hkeys : s.powered = true ∨ keySlots s = [])
    (hsta : ∀ addr ∈ staSlot s, staOk addr = true) :
    Objects staOk (releaseSta (clearKeys s)) := by
  have hsame : staSlot (clearKeys s) = staSlot s := by
    rw [clearKeys_eq, staSlot, staSlot]
  exact releaseSta_objects (clearKeys_objects h hkeys) fun addr hmem =>
    hsta addr (hsame ▸ hmem)

/-- The move to IDLE touches no object. -/
private theorem setIdle_same (s : Mlme) : SameObjects s s.setIdle :=
  (SameObjects.refl s).moveTo _ _ (fun _ _ => by decide) fun _ _ => by decide

/-- A move of the state touches no object, unless it begins an association.
-/
private theorem setState_same {st : RTW88State} (hst : st ≠ .associating)
    (s : Mlme) : SameObjects s (s.setState st) :=
  (SameObjects.refl s).moveTo st _ (fun _ _ => hst) fun _ hd => hd.2

/-- Leaving a link frees its keys and its station. -/
theorem doDisconnect_objects (h : Objects staOk s)
    (hkeys : s.powered = true ∨ keySlots s = [])
    (hsta : ∀ addr ∈ staSlot s, staOk addr = true) :
    Objects staOk (doDisconnect hw env s) := by
  rw [doDisconnect]
  split
  next => exact h.same (setIdle_same s)
  next =>
    have hsend : SameObjects (clearKeys s) ((clearBssAssoc (txMgmtFrame env
        (deauthFrame hw (clearKeys s)) (clearKeys s))).emit
          (.bssInfoChanged false)) :=
      (show SameObjects (clearKeys s) (clearBssAssoc (txMgmtFrame env
          (deauthFrame hw (clearKeys s)) (clearKeys s))) from
        (txMgmtFrame_steady _ _).2).emit _ rfl
    have hslot : staSlot ((clearBssAssoc (txMgmtFrame env
        (deauthFrame hw (clearKeys s)) (clearKeys s))).emit
          (.bssInfoChanged false)) = staSlot s := by
      rw [staSlot, hsend.2.2.2.2.1, clearKeys_eq, staSlot]
    have hclear := (clearKeys_objects h hkeys).same hsend
    simp only
    generalize (clearBssAssoc (txMgmtFrame env (deauthFrame hw (clearKeys s))
      (clearKeys s))).emit (.bssInfoChanged false) = t at hclear hslot ⊢
    have hrelease := releaseSta_objects hclear fun addr hmem =>
      hsta addr (hslot ▸ hmem)
    generalize releaseSta t = u at hrelease ⊢
    have hidle : SameObjects u u.setIdle.cancelTimer := setIdle_same u
    exact hrelease.same (hidle.emit _ rfl)

/-- Switching the power changes no object. -/
private theorem powerOff_objects (h : Objects staOk s) :
    Objects staOk (powerOff s) := by
  rw [powerOff]
  split
  · exact h
  · split
    · exact h.keep rfl rfl rfl rfl rfl (fun _ hd => hd)
        ⟨[.hwStop], rfl, fun o ho => by rw [List.mem_singleton.1 ho]; rfl⟩
    · exact h.keep rfl rfl rfl rfl rfl (fun _ hd => hd)
        ⟨[], rfl, fun _ ho => by cases ho⟩

/-- Starting the hardware allocates nothing here. -/
private theorem powerOn_objects (h : Objects staOk s) :
    Objects staOk (powerOn env s).2 := by
  have hstart : Objects staOk (s.emit (.hwStart env.hwStart)) :=
    h.same ((SameObjects.refl s).emit _ rfl)
  rw [powerOn]
  split
  · exact h
  · split
    · exact h
    · simp only
      split
      · exact hstart
      · exact hstart.keep rfl rfl rfl rfl rfl (fun _ hd => hd)
          ⟨[], rfl, fun _ ho => by cases ho⟩

private theorem cmdPowerOn_objects (h : Objects staOk s) :
    Objects staOk (cmdPowerOn env s).2 := by
  have hon := @powerOn_objects env staOk s h
  simp only [cmdPowerOn]
  generalize powerOn env s = r at hon ⊢
  split
  · exact hon.same (setState_same (by decide) r.2)
  · exact hon

/-- Switching off leaves the link first. -/
private theorem finishPowerOff_objects (h : Objects staOk s)
    (hkeys : s.powered = true ∨ keySlots s = [])
    (hsta : ∀ addr ∈ staSlot s, staOk addr = true) :
    Objects staOk (finishPowerOff hw env s) := by
  have hleave : Objects staOk (if s.state = .connected
      ∨ s.state = .authenticating ∨ s.state = .associating
      ∨ s.state = .handshaking then doDisconnect hw env s
      else releaseSta (clearKeys s)) := by
    split
    · exact doDisconnect_objects h hkeys hsta
    · exact releaseAll_objects h hkeys hsta
  exact (powerOff_objects hleave).same ((setIdle_same _).emit _ rfl)

/-- Connecting clears what is left of the former link. -/
private theorem connectTo_objects (h : Objects staOk s)
    {ssid : Option (List UInt8)} (password : List UInt8)
    (hkeys : s.state = .idle → ssid.isSome →
      s.powered = true ∨ keySlots s = [])
    (hsta : s.state = .idle → ssid.isSome →
      ∀ addr ∈ staSlot s, staOk addr = true) :
    Objects staOk (connectTo ssid password s).2.2 := by
  unfold connectTo
  split
  next => exact h
  next hidle =>
    have hidle : s.state = .idle := not_not.1 hidle
    cases ssid with
    | none => exact h
    | some n =>
        have hclear := releaseAll_objects h (hkeys hidle rfl) (hsta hidle rfl)
        simp only
        generalize releaseSta (clearKeys s) = t at hclear ⊢
        split
        next => exact hclear
        next target _ =>
          have htarget : SameObjects t (setTarget target
              ((cStr password).take 63) t) :=
            @setState_same .authenticating (by decide) t
          exact hclear.same (htarget.emit _ rfl)

/-- `stop` leaves nothing, and the driver is gone. -/
private theorem stop_objects (h : Objects staOk s)
    (hkeys : s.powered = true ∨ keySlots s = [])
    (hsta : ∀ addr ∈ staSlot s, staOk addr = true) :
    Objects staOk (stop hw env s) := by
  have hcancel : Objects staOk s.cancelTimer := h.same (.refl s)
  simp only [stop]
  have hleave : ∀ t : Mlme, t = (if (s.cancelTimer.state = .connected
        ∨ (s.cancelTimer.state = .scanning
          ∧ s.cancelTimer.scanReturnState = .connected))
        ∧ s.cancelTimer.powered
      then doDisconnect hw env s.cancelTimer
      else releaseSta (clearKeys s.cancelTimer)) →
      Objects staOk t ∧ keySlots t = [] ∧ staSlot t = [] := by
    rintro t rfl
    have hslots : ∀ u : Mlme, Cleared u → keySlots u = [] ∧ staSlot u = [] :=
      fun u hu => ⟨by rw [keySlots, hu.1, hu.2.1]; rfl,
        by rw [staSlot, hu.2.2]; rfl⟩
    split
    · refine ⟨doDisconnect_objects hcancel hkeys hsta, ?_⟩
      cases hup : s.up with
      | false =>
          rw [doDisconnect, if_pos (by
            show (!s.up) = true
            rw [hup]
            rfl)]
          exact ⟨(h.down hup).1, (h.down hup).2.1⟩
      | true => exact hslots _ (doDisconnect_cleared hup)
    · exact ⟨releaseAll_objects hcancel hkeys hsta,
        hslots _ (releaseAll_cleared _)⟩
  generalize (if (s.cancelTimer.state = .connected
      ∨ (s.cancelTimer.state = .scanning
        ∧ s.cancelTimer.scanReturnState = .connected))
      ∧ s.cancelTimer.powered
    then doDisconnect hw env s.cancelTimer
    else releaseSta (clearKeys s.cancelTimer)) = t at hleave ⊢
  obtain ⟨ht, hkey, hslot⟩ := hleave t rfl
  -- the driver is told, then it is gone
  have hgone : ∀ u : Mlme, Objects staOk u → keySlots u = [] →
      staSlot u = [] → Objects staOk (setDown u.setIdle) :=
    fun u hu hk hs => ⟨hu.keys, hu.apart, hu.stas, hu.added, hu.low,
      fun _ => ⟨hk, hs, by simp [setDown, Mlme.setIdle, Dormant]⟩⟩
  split
  · exact hgone t ht hkey hslot
  · have hoff : Objects staOk (if t.powered then
        setPowered false (t.emit .hwStop) else t) := by
      split
      · exact ht.keep rfl rfl rfl rfl rfl (fun _ hd => hd)
          ⟨[.hwStop], rfl, fun o ho => by rw [List.mem_singleton.1 ho]; rfl⟩
      · exact ht
    refine hgone _ (hoff.same ((SameObjects.refl _).emit .removeInterface rfl))
      ?_ ?_
    · show keySlots (if t.powered then setPowered false (t.emit .hwStop)
        else t) = []
      split <;> exact hkey
    · show staSlot (if t.powered then setPowered false (t.emit .hwStop)
        else t) = []
      split <;> exact hslot

/-- The timeout of a handshake leaves the link. -/
private theorem onTimer_objects (h : Objects staOk s)
    (hkeys : s.state = .handshaking → s.powered = true ∨ keySlots s = [])
    (hsta : s.state = .handshaking → ∀ addr ∈ staSlot s, staOk addr = true) :
    Objects staOk (onTimer hw env s).2 := by
  rw [onTimer]
  split
  next =>
    split
    · exact h.same (abortScanStart_steady s).2
    · have hstart := abortScanStart_steady s
      simp only
      generalize abortScanStart s = t at hstart ⊢
      have hrest : Steady t (if t.scanReturnState = .connected
          then restoreConnectedChannel hw t else t) := by
        split
        · exact restoreConnectedChannel_steady t
        · exact .refl t
      have hleave : SameObjects t (leaveScanning t.scanReturnState
          (if t.scanReturnState = .connected
            then restoreConnectedChannel hw t else t)) :=
        hrest.2.moveTo t.scanReturnState .idle (fun _ hd => hd.2)
          fun _ _ => by decide
      exact h.same (hstart.2.trans hleave)
  next => exact h
  next => exact h.same (setState_same (by decide) s)
  next hst => exact doDisconnect_objects h (hkeys hst) (hsta hst)
  next => exact h

-- ========================================================= received frames

/-- An EAPOL frame takes and frees keys only. -/
private theorem handleEAPOL_objects (h : Objects staOk s)
    (data : List UInt8) : Objects staOk (handleEAPOL hw env data s) := by
  rw [handleEAPOL]
  split
  · exact h
  · split
    · exact h.same (handleM1_steady data s).2
    · split
      · split
        · exact h
        next keyData _ =>
          have hreplay : Objects staOk (setReplayCtr (grab data 9 8) s) :=
            h.same (.refl s)
          have hpair := installPairwise_objects hreplay env.pairwiseAlloc
            env.pairwiseSet 0 cipherCcmp
            (tkOf (setReplayCtr (grab data 9 8) s).ptk).toList
          simp only [acceptM3]
          split
          · exact hpair
          · generalize (installPairwise _ _ _ _ _ _).2 = t at hpair ⊢
            have hfinish : ∀ u, Objects staOk u →
                Objects staOk (finishM3 hw env u) := fun u hu =>
              hu.same (finishM3_steady u).2
            rw [acceptGtk]
            split
            · exact hfinish t hpair
            · split
              · exact hfinish t hpair
              next gtk idx _ _ =>
                have hgroup := installGroup_objects hpair env.groupAlloc
                  env.groupSet idx (groupCipher t) gtk
                simp only
                split
                · exact hgroup
                · exact hfinish _ hgroup
      · exact h

/-- A data frame does so at most. -/
theorem deliverDataFrame_objects (h : Objects staOk s) (skb : SkBuff) :
    Objects staOk (deliverDataFrame hw env skb s) := by
  have hmany : ∀ (msdus : List (Nat × EthFrame)) (s : Mlme), SameObjects s
      (msdus.foldl (fun s m => deliverEthernet env m.1 m.2 s) s) := by
    intro msdus
    induction msdus with
    | nil => exact fun s => .refl s
    | cons m msdus ih =>
        exact fun s => (deliverEthernet_steady m.1 m.2 s).2.trans (ih _)
  rw [deliverDataFrame]
  split
  · exact h.same (kfreeSkb_same skb s)
  · exact h.same ((hmany _ s).trans (kfreeSkb_same skb _))
  · split
    · exact (handleEAPOL_objects h _).same (kfreeSkb_same skb _)
    · exact h.same ((deliverEthernet_steady 0 _ s).2.trans
        (kfreeSkb_same skb _))

/-- A beacon touches no object. -/
private theorem processScanResult_same (skb : SkBuff) (s : Mlme) :
    SameObjects s (processScanResult env skb s) := by
  rw [processScanResult]
  split
  · exact kfreeSkb_same skb s
  · simp only
    split
    · exact (show SameObjects s { s with bssList := _ } from .refl s).trans
        (kfreeSkb_same skb _)
    · exact (show SameObjects s { s with
          bssList := _, bssCount := s.bssCount + 1 } from .refl s).trans
        (kfreeSkb_same skb _)

/-- A response is only looked at in ASSOCIATING, with the driver there. -/
private theorem processAssocResponse_objects (h : Objects staOk s)
    (hst : s.state = .associating) (skb : SkBuff) :
    Objects staOk (processAssocResponse hw env skb s) := by
  have hup : s.up = true := by
    by_contra hdown
    exact (h.down (by simpa using hdown)).2.2.1 hst
  have hfree := h.same (kfreeSkb_same skb s)
  rw [processAssocResponse]
  split
  · exact hfree
  · simp only
    have hidle := hfree.same (@setState_same .idle (by decide) _)
    split
    · exact hidle
    · split
      · exact hidle
      · generalize le16At (env.freed.getD skb.mem) 28 &&& 0x3FFF = aid
        have haid : Objects staOk (setAid aid (kfreeSkb skb s)) :=
          hfree.same (.refl _)
        exact (addSta_objects haid hup aid).same
          ((notifyAssoc_steady aid _).2.trans (enterLink_steady _).2)

/-- A block-ack action frame touches no object. -/
private theorem handleBackAction_same (b : List UInt8) (s : Mlme) :
    SameObjects s (handleBackAction hw env b s) := by
  have htxBa : ∀ v, SameObjects s (setTxBa v s) := fun _ => .refl s
  have hdown : ∀ tid (t : Mlme), SameObjects t (t.rxBaTeardown tid) :=
    fun tid t => (show SameObjects t { t with
      rxBa := (Rtw88.rxBaTeardown tid t.rxBa).rxBa } from .refl t).trans
        (kfreeAll_same _ _)
  have hset : ∀ tid ssn size, SameObjects s (s.rxBaSetup env tid ssn size) :=
    fun tid ssn size => (show SameObjects s { s with
      rxBa := (Rtw88.rxBaSetup env.baAlloc tid ssn size s.rxBa).rxBa } from
        .refl s).trans (kfreeAll_same _ _)
  rw [handleBackAction]
  split
  · exact .refl s
  · split
    · split
      · exact .refl s
      · exact (hset _ _ _).trans (sendAddbaResponse_steady _ _ _ _ _).2
    · split
      · split
        · exact .refl s
        · simp only
          split
          · exact htxBa true
          · exact .refl s
      · split
        · split
          · exact .refl s
          · simp only
            have hdel : ∀ c : Bool,
                SameObjects s (if c then setTxBa false s else s) := by
              intro c
              cases c
              · exact .refl s
              · exact htxBa false
            split
            · exact (hdel _).trans (hdown _ _)
            · exact hdel _
        · exact .refl s

/-- A deauthentication frees keys and station. -/
private theorem leaveOnDeauth_objects (h : Objects staOk s)
    (hkeys : s.powered = true ∨ keySlots s = []) :
    Objects staOk (leaveOnDeauth s) := by
  have hdown : SameObjects (clearKeys s)
      (rxBaTeardownAll (setTxBa false (clearKeys s))) :=
    (show SameObjects (clearKeys s) (setTxBa false (clearKeys s)) from
      .refl _).trans (rxBaTeardownAll_same _)
  exact (clearKeys_objects h hkeys).same
    (hdown.trans ((setIdle_same _).emit (.setLinkStatus false) rfl))

/-- A management frame takes a station, or gives one back. -/
private theorem processRxMgmt_objects (h : Objects staOk s) (skb : SkBuff)
    (hkeys : (frameControl skb.mem &&& 0x00f0 = 0x00A0
        ∨ frameControl skb.mem &&& 0x00f0 = 0x00C0) →
      deauthAccepted hw skb s = true →
      s.powered = true ∨ keySlots s = []) :
    Objects staOk (processRxMgmt hw env skb s) := by
  have hfree := h.same (kfreeSkb_same skb s)
  have hassoc := h.same ((@doAssociate_steady hw env s).2.trans
    (kfreeSkb_same skb _))
  simp only [processRxMgmt]
  split
  · split
    · exact h.same (processScanResult_same skb s)
    · exact hfree
  · split
    · split
      · exact hfree
      · split
        · exact hfree
        · split
          · exact hassoc
          · split
            · exact hassoc
            · exact h.same ((setState_same (by decide) s).trans
                (kfreeSkb_same skb _))
    · split
      · split
        next hst => exact processAssocResponse_objects h hst skb
        next => exact hfree
      · split
        next htype =>
          split
          next hst =>
            split
            next => exact hfree
            next hours =>
              have hlink : (s.state == .connected || s.state == .handshaking
                  || (s.state == .scanning
                    && s.scanReturnState == .connected)) = true := by
                simpa [or_assoc] using hst
              have haccept : deauthAccepted hw skb s = true := by
                rw [deauthAccepted, hlink]
                simpa [or_iff_not_imp_left] using hours
              exact (leaveOnDeauth_objects h (hkeys htype haccept)).same
                (kfreeSkb_same skb _)
          next => exact hfree
        next =>
          split
          · split
            · exact h.same ((handleBackAction_same _ s).trans
                (kfreeSkb_same skb _))
            · exact hfree
          · exact hfree

/-- Every received frame keeps the account. -/
private theorem rxFrame_objects (h : Objects staOk s) (skb : SkBuff)
    (hkeys : isMgmt (frameControl skb.mem) = true →
      (frameControl skb.mem &&& 0x00f0 = 0x00A0
        ∨ frameControl skb.mem &&& 0x00f0 = 0x00C0) →
      deauthAccepted hw skb s = true →
      s.powered = true ∨ keySlots s = []) :
    Objects staOk (rxFrame hw env skb s).1 := by
  simp only [rxFrame]
  split
  next hmgmt => exact processRxMgmt_objects h skb (hkeys hmgmt)
  next =>
    split
    · rw [processRxData]
      split
      · exact h.same (kfreeSkb_same skb s)
      · split
        next tid _ =>
          have hwin : Objects staOk { s with rxBa := (rxReorderInput tid skb
              ((seqCtrl skb.mem &&& 0xFFF0) >>> 4).toNat s.rxBa).rxBa } :=
            h.same (.refl s)
          exact hwin.same (kfreeAll_same _ _)
        · exact deliverDataFrame_objects h skb
    · exact h.same (kfreeSkb_same skb s)

-- ================================================================== one event

/-- The command to connect does. -/
private theorem runConnect_objects {s : Sys} (h : Objects staOk s.mlme)
    {ssid : Option (List UInt8)} (password : List UInt8)
    (hkeys : s.mlme.state = .idle → ssid.isSome →
      s.mlme.powered = true ∨ keySlots s.mlme = [])
    (hsta : s.mlme.state = .idle → ssid.isSome →
      ∀ addr ∈ staSlot s.mlme, staOk addr = true) :
    Objects staOk (runConnect ssid password s).mlme := by
  have hconnect := connectTo_objects h password hkeys hsta
  simp only [runConnect]
  split <;> exact hconnect

/-- A command that goes on behind `abortActiveScan`. -/
private theorem resumeWait_objects {s : Sys} (hscan : NoLinkScan s)
    (h : Objects staOk s.mlme) {i : Nat}
    (hsafe : FreesSafely hw staOk s (.resume i env)) :
    Objects staOk (resumeWait hw i env s).mlme := by
  simp only [resumeWait]
  split
  next => exact h
  next w hget =>
    split
    next => exact h
    next hwait =>
      have hret : w.returnState = .idle :=
        hscan.waiters w (List.mem_of_getElem? hget)
      have hfinish : SameObjects s.mlme
          (abortScanFinish hw w.returnState s.mlme).2 :=
        abortScanFinish_sameObjects (by rw [hret]; decide) s.mlme
      have hnow := h.same hfinish
      have hslots : keySlots (abortScanFinish hw w.returnState s.mlme).2
          = keySlots s.mlme := by
        rw [keySlots, hfinish.2.2.1, hfinish.2.2.2.1, keySlots]
      have hslot : staSlot (abortScanFinish hw w.returnState s.mlme).2
          = staSlot s.mlme := by
        rw [staSlot, hfinish.2.2.2.2.1, staSlot]
      have hpower := hfinish.2.1
      obtain ⟨cmd, returnState, turn⟩ := w
      have hlooks : ∀ ssid password, cmd = .connect ssid password →
          (abortScanFinish hw returnState s.mlme).1 = true →
          (abortScanFinish hw returnState s.mlme).2.state = .idle →
          s.looksUp hw (.resume i env) = ssid := by
        rintro ssid password rfl hdone hidle
        simp only [Sys.looksUp, hget]
        rw [if_neg]
        simp only [hdone, hidle, not_or]
        exact ⟨hwait, by decide, by decide⟩
      simp only at hnow hslots hslot hpower ⊢
      generalize abortScanFinish hw returnState s.mlme = r
        at hnow hslots hslot hpower hlooks ⊢
      cases cmd with
      | powerOff =>
          have hrelease : ReleasesSta hw s (.resume i env) :=
            .inl ⟨_, hget, rfl, hwait⟩
          refine finishPowerOff_objects hnow ?_ fun addr hmem =>
            hsafe.sta hrelease addr (hslot ▸ hmem)
          rw [hpower, hslots]
          exact hsafe.keys (.inl hrelease)
      | connect ssid password =>
          simp only [runWaiter]
          split
          next hdone =>
            have hrelease : r.2.state = .idle → ssid.isSome →
                ReleasesSta hw s (.resume i env) := fun hidle hsome =>
              .inr (by rw [hlooks ssid password rfl hdone hidle]; exact hsome)
            refine runConnect_objects hnow password
              (fun hidle hsome => ?_) fun hidle hsome addr hmem =>
                hsafe.sta (hrelease hidle hsome) addr (hslot ▸ hmem)
            show r.2.powered = true ∨ keySlots r.2 = []
            rw [hpower, hslots]
            exact hsafe.keys (.inl (hrelease hidle hsome))
          next => exact hnow

/-- An event that frees safely keeps the driver's objects. -/
private theorem sysStep_objects {s : Sys} {e : Event} (hscan : NoLinkScan s)
    (h : Objects staOk s.mlme) (hsafe : FreesSafely hw staOk s e) :
    Objects staOk (sysStep hw s e).mlme := by
  cases e with
  | cmdScan env => exact h.same (cmdScan_steady s.mlme).2
  | cmdConnect ssid password =>
      simp only [sysStep]
      split
      next => exact h.same (abortScanStart_steady s.mlme).2
      next =>
        have hrelease : s.mlme.state = .idle → ssid.isSome →
            ReleasesSta hw s (.cmdConnect ssid password) := by
          intro hidle hsome
          simp only [ReleasesSta, Sys.looksUp, if_pos hidle]
          exact hsome
        exact runConnect_objects h password
          (fun hidle hsome => hsafe.keys (.inl (hrelease hidle hsome)))
          fun hidle hsome => hsafe.sta (hrelease hidle hsome)
  | cmdDisconnect env =>
      simp only [sysStep, cmdDisconnect]
      split
      next => exact h
      next hst =>
        exact doDisconnect_objects h (hsafe.keys (.inl hst)) (hsafe.sta hst)
  | cmdPowerOn env => exact cmdPowerOn_objects h
  | cmdPowerOff env =>
      simp only [sysStep]
      split
      next => exact h.same (abortScanStart_steady s.mlme).2
      next hst =>
        exact finishPowerOff_objects h (hsafe.keys (.inl hst))
          (hsafe.sta hst)
  | resume i env => exact resumeWait_objects hscan h hsafe
  | powerOn env => exact powerOn_objects h
  | powerOff => exact powerOff_objects h
  | rx env skb =>
      have hrx : Objects staOk (rxFrame hw env skb s.mlme).1 := by
        refine rxFrame_objects h skb fun hmgmt htype haccept =>
          hsafe.keys (.inr ⟨(env, skb), ?_, htype, haccept⟩)
        simp only [Event.mgmt, hmgmt, if_true]
        rfl
      simp only [sysStep]
      generalize (rxFrame hw env skb s.mlme).2 = p
      cases p <;> exact hrx
  | deliver i env =>
      simp only [sysStep, deliverNext]
      split
      · exact h
      · split
        · simp only
          split
          · exact h.same (.refl s.mlme)
          · exact h
        · exact deliverDataFrame_objects h _
  | scanDone aborted => exact h.same (scanDone_steady aborted s.mlme).2
  | timer env =>
      simp only [sysStep, fireTimer]
      split
      next => exact h
      next hfire =>
        have hcancel : Objects staOk s.mlme.cancelTimer :=
          h.same (.refl s.mlme)
        have hrelease : s.mlme.state = .handshaking →
            ReleasesSta hw s (.timer env) := by
          intro hst
          have harmed : s.mlme.timer.isSome = true
              ∧ s.auths.any (·.onTimer) = false := by
            simpa [Option.isSome_iff_ne_none] using hfire
          exact ⟨harmed.1, harmed.2, hst⟩
        have htimer := @onTimer_objects hw env _ _ hcancel
          (fun hst => hsafe.keys (.inl (hrelease hst)))
          fun hst => hsafe.sta (hrelease hst)
        split <;> exact htimer
  | reorderTimer =>
      simp only [sysStep, fireReorderTimer]
      split
      · exact h
      · exact h.same (.refl s.mlme)
  | output env m => exact h.same (outputPacket_steady m s.mlme).2
  | auth i env scanning =>
      simp only [sysStep, stepAuth]
      split
      · exact h
      · exact h.same (doAuthenticate_steady scanning _ s.mlme).2
  | scan i env =>
      simp only [sysStep, stepScan]
      split
      · exact h
      · exact h.same (runManualScan_steady _ s.mlme).2
  | stop env =>
      exact stop_objects h (hsafe.keys (.inl trivial)) (hsafe.sta trivial)

/-- At the start there is no object. -/
theorem Objects.init (staOk : Nat → Bool) (powered : Bool) :
    Objects staOk (Mlme.init powered) where
  keys := .nil
  apart := List.nodup_nil
  stas := .nil
  added _ hmem := by cases hmem
  low o ho addr haddr := by
    rw [List.mem_singleton.1 ho] at haddr
    cases haddr
  down hdown := by cases hdown

-- ==================================================================== result

/-- In every run whose events free safely, whatever `set_key` and
`sta_add` return, the driver's objects are the object's own. -/
theorem driver_objects_tracked (staOk : Nat → Bool) (powered : Bool)
    (es : List Event)
    (h : Along (sysStep hw) (FreesSafely hw staOk) (Sys.init powered) es) :
    Lifecycle staOk (sysRun hw powered es).mlme := by
  have hinv : NoLinkScan (sysRun hw powered es)
      ∧ Objects staOk (sysRun hw powered es).mlme :=
    inv_of_along (I := fun s => NoLinkScan s ∧ Objects staOk s.mlme)
      (fun s e hs hsafe => ⟨sysStep_noLinkScan hs.1 e,
        sysStep_objects hs.1 hs.2 hsafe⟩)
      ⟨NoLinkScan.init powered, Objects.init staOk powered⟩ h
  exact hinv.2.lifecycle

/-- The sample network is joined and left. -/
theorem sample_objects_tracked :
    let hw := sampleHw samplePrims
    Lifecycle (fun _ => true) (sysRun hw true (joinEvents
      ++ [.cmdDisconnect {}, .cmdScan {}])).mlme :=
  driver_objects_tracked _ true _ (by decide +kernel)

/-- Two ways in which the driver is left with what it does not own: the
interface is disabled under a link, and the keys are freed without a
word; a station that was refused is removed. -/
theorem freed_key_and_refused_station :
    let hw := sampleHw samplePrims
    let disabled := (sysRun hw true (joinEvents
      ++ [.powerOff, .cmdDisconnect {}])).mlme
    let refused := (sysRun hw true (joinEvents ++ [.cmdDisconnect {}])).mlme
    (keySlots disabled = [] ∧ outstanding (keyActs disabled.log) ≠ []
        ∧ ¬Lifecycle (fun _ => true) disabled)
      ∧ (∃ addr, Obs.staAdd addr ∈ refused.log
        ∧ Obs.staRemove addr ∈ refused.log)
      ∧ ¬Lifecycle (fun _ => false) refused := by
  intro hw disabled refused
  have huntidy : ∀ (staOk : Nat → Bool) (s : Mlme),
      ¬(Tidy (keyActs s.log) ∧ Tidy (staActs staOk s.log)) →
      ¬Lifecycle staOk s := fun _ _ hnot h => hnot ⟨h.keys.tidy, h.stas.tidy⟩
  have hfreed := huntidy (fun _ => true) disabled (by decide +kernel)
  have hremoved := huntidy (fun _ => false) refused (by decide +kernel)
  exact ⟨⟨by decide +kernel, by decide +kernel, hfreed⟩,
    ⟨1, by decide +kernel, by decide +kernel⟩, hremoved⟩

end Rtw88
