/-
A manual scan runs alone and in SCANNING exactly in the runs in which
nothing takes the state out of SCANNING while it may still change the
channel.

In SCANNING an event leaves the state, or is one of a few
(`sysStep_scanning_iff`); a statement of a pass leaves it, or is its
`scanDone` (`passStep_view`). So the condition says at every step
whether `ScanExclusive` is kept (`keepsScan_iff`), and the run rule makes
the two equivalent.

# Hopping

A pass may change the channel from its first statement to the end of its
loop (`hopping`), and it does not begin again (`hopping_of_next`). Past
that its only write is the `scanDone` at its end, which in SCANNING sets
the state to IDLE: harmless for the scan it ends, and not for one that
was accepted since.

`ScanInv` carries through the run what the equivalence needs at each
step: no scan was started from a link, so leaving a scan is always the
move to IDLE; the scans that the rest of the model interleaves are not
used, as the passes take their place; and the passes that hop are counted
(`countP_set_le`), for "one scan at most" is a statement about their
number.

# The cases

A `cmdScan` is the event that can start one too many: in IDLE, with a pass
still hopping (`cmdScan_keeps_iff`). The events of the other threads are
the ones that can take the state away (`other_keeps_iff`), and a
statement of a pass is the third case (`pass_keeps_iff`).
-/
import Rtw88.Proofs.Attempt
import Rtw88.Proofs.ManualScan.Passes

namespace Rtw88

variable {hw : Hw} {env : Env}

-- =================================================== the other threads' events

/-- In SCANNING only beacons and probe responses are taken. -/
private theorem rxFrame_scanning {s : Mlme} (hstate : s.state = .scanning)
    (hret : s.scanReturnState = .idle) (skb : SkBuff) :
    (rxFrame hw env skb s).1.state = .scanning := by
  have hconn : rxConnected s = false := by
    simp [rxConnected, hstate, hret]
  have hfree : (kfreeSkb skb s).state = .scanning := hstate
  rw [rxFrame]
  split
  · simp only [processRxMgmt]
    split
    · rw [processScanResult]
      split
      · exact hfree
      · simp only
        split <;> exact hstate
    · split
      · rw [if_pos (by simp [hstate])]
        exact hfree
      · split
        · rw [if_neg (by simp [hstate])]
          exact hfree
        · split
          · rw [if_neg (by simp [hstate, hret])]
            exact hfree
          · split
            · rw [if_neg (by simp [hstate])]
              exact hfree
            · exact hfree
  · split
    · rw [processRxData, hconn]
      exact hfree
    · exact hfree

/-- The start of an abort leaves the state. -/
private theorem abortScanStart_state (s : Mlme) :
    (abortScanStart s).state = s.state :=
  congrArg Link.state (view_abortScanStart s)

/-- Clearing away the old link leaves the state. -/
private theorem releaseAll_state (s : Mlme) :
    (releaseSta (clearKeys s)).state = s.state := by
  have hclear : (clearKeys s).state = s.state :=
    congrArg Link.state (view_clearKeys s)
  cases hsta : (clearKeys s).sta with
  | none =>
      rw [releaseSta_none hsta]
      exact hclear
  | some sta =>
      exact (congrArg Link.state (view_releaseSta_some hsta)).trans hclear

/-- `scanDone` ends in IDLE, where the scan was not from a link. -/
private theorem scanDone_scanning {s : Mlme} (hstate : s.state = .scanning)
    (hret : s.scanReturnState = .idle) (aborted : Bool) :
    (scanDone hw aborted s).state = .idle := by
  have hage : (if aborted then s else ageBssList s).state = .scanning
      ∧ (if aborted then s else ageBssList s).scanReturnState = .idle := by
    split <;> exact ⟨hstate, hret⟩
  rw [scanDone]
  generalize (if aborted = true then s else ageBssList s) = t at hage ⊢
  rw [if_neg (not_not.2 hage.1)]
  exact hage.2

/-- `cmdConnect` does not end in SCANNING. -/
private theorem runConnect_state {s : Sys} (hstate : s.mlme.state = .idle)
    (ssid : Option (List UInt8)) (password : List UInt8) :
    (runConnect ssid password s).mlme.state ≠ .scanning := by
  have hclear : (releaseSta (clearKeys s.mlme)).state = .idle :=
    (releaseAll_state s.mlme).trans hstate
  have hconn : (connectTo ssid password s.mlme).2.2.state ≠ .scanning := by
    simp only [connectTo, if_neg (not_not.2 hstate)]
    cases ssid with
    | none =>
        simp only [hstate]
        decide
    | some ssid =>
        simp only
        split
        · simp only [hclear]
          decide
        · exact fun h => by cases h
  simp only [runConnect]
  split <;> exact hconn

/-- A command that has waited in vain: the scan goes on where the command
is a `cmdConnect` and the scan a manual one. -/
private theorem resumeWait_scanning {s : Sys} (h : NoLinkScan s)
    (hstate : s.mlme.state = .scanning) (i : Nat) :
    (resumeWait hw i env s).mlme.state = .scanning
      ↔ ¬ LeavesScan s (.resume i env) := by
  rw [resumeWait]
  cases hget : s.waiters[i]? with
  | none =>
      refine iff_of_true hstate ?_
      rintro ⟨w, hw', -⟩
      rw [hget] at hw'
      cases hw'
  | some w =>
      have hidle : w.returnState = .idle :=
        h.waiters w (List.mem_of_getElem? hget)
      have hleaves : LeavesScan s (.resume i env)
          ↔ 40 ≤ w.turn
            ∧ (w.cmd = .powerOff ∨ s.mlme.manualScanChannelCount = 0) := by
        refine ⟨?_, fun hrest => ⟨w, hget, hrest⟩⟩
        rintro ⟨w', hw', hrest⟩
        rw [hget] at hw'
        obtain rfl := Option.some.inj hw'
        exact hrest
      rw [hleaves]
      simp only
      by_cases hturn : w.turn < 40
      · rw [if_pos ⟨hturn, hstate⟩]
        exact iff_of_true hstate fun hc => Nat.not_le.2 hturn hc.1
      · rw [if_neg fun hc => hturn hc.1]
        have hlate : 40 ≤ w.turn := Nat.not_lt.1 hturn
        cases hcmd : w.cmd with
        | powerOff =>
            refine iff_of_false ?_ (not_not.2 ⟨hlate, .inl rfl⟩)
            exact fun hc => by cases hc
        | connect ssid password =>
            rw [abortScanFinish, if_neg (not_not.2 hstate)]
            by_cases hcount : s.mlme.manualScanChannelCount = 0
            · refine iff_of_false ?_ (not_not.2 ⟨hlate, .inr hcount⟩)
              rw [if_neg (not_not.2 hcount)]
              simp only [hidle, runWaiter]
              split
              · exact runConnect_state rfl ssid password
              · exact fun hc => by cases hc
            · rw [if_pos hcount]
              refine iff_of_true hstate ?_
              rintro ⟨-, hc | hc⟩
              · cases hc
              · exact hcount hc

/-- The timeout asks a manual scan to stop, or ends the scan. -/
private theorem onTimer_scanning {s : Mlme} (hstate : s.state = .scanning)
    (hret : s.scanReturnState = .idle) :
    (onTimer hw env s).1 = false
      ∧ ((onTimer hw env s).2.state = .scanning
        ↔ s.manualScanChannelCount ≠ 0) := by
  rw [onTimer, hstate]
  simp only
  by_cases hcount : s.manualScanChannelCount ≠ 0
  · rw [if_pos hcount]
    exact ⟨rfl, iff_of_true ((abortScanStart_state s).trans hstate) hcount⟩
  · rw [if_neg hcount]
    refine ⟨rfl, iff_of_false ?_ hcount⟩
    have hret' : (abortScanStart s).scanReturnState = .idle :=
      (congrArg Link.ret (view_abortScanStart s)).trans hret
    show (abortScanStart s).scanReturnState ≠ .scanning
    rw [hret']
    decide

private theorem fireTimer_scanning {s : Sys} (h : NoLinkScan s)
    (hstate : s.mlme.state = .scanning) :
    (fireTimer hw env s).mlme.state = .scanning
      ↔ ¬ LeavesScan s (.timer env) := by
  rw [fireTimer]
  by_cases hidle : (s.mlme.timer.isNone || s.auths.any (·.onTimer)) = true
  · rw [if_pos hidle]
    exact iff_of_true hstate fun hc => Bool.false_ne_true
      (hc.1.symm.trans hidle)
  · obtain ⟨hone, hiff⟩ := @onTimer_scanning hw env s.mlme.cancelTimer
      hstate h.ret
    rw [if_neg hidle]
    simp only [hone]
    refine hiff.trans ⟨fun hcount hc => hcount hc.2, fun hc hcount => ?_⟩
    exact hc ⟨(Bool.not_eq_true _).mp hidle, hcount⟩

/-- In SCANNING an event of the other threads leaves the state, or is one
of those that `LeavesScan` lists. -/
theorem sysStep_scanning_iff {s : Sys} (h : NoLinkScan s)
    (hscans : s.scans = []) (hstate : s.mlme.state = .scanning) (e : Event) :
    (sysStep hw s e).mlme.state = .scanning ↔ ¬ LeavesScan s e := by
  have hbusy : s.mlme.state ≠ .idle := by
    rw [hstate]
    decide
  cases e with
  | cmdScan env =>
      refine iff_of_true ?_ id
      simp only [sysStep, cmdScan, if_pos hbusy]
      exact hstate
  | cmdConnect ssid password =>
      refine iff_of_true ?_ id
      simp only [sysStep, if_pos hstate]
      exact (abortScanStart_state s.mlme).trans hstate
  | cmdDisconnect env =>
      refine iff_of_false ?_ (not_not.2 trivial)
      simp only [sysStep, cmdDisconnect, if_neg hbusy, doDisconnect_state]
      decide
  | cmdPowerOn env =>
      refine iff_of_true ?_ id
      have hon : (powerOn env s.mlme).2.state = .scanning :=
        (congrArg Link.state (view_powerOn s.mlme)).trans hstate
      simp only [sysStep, cmdPowerOn]
      rw [if_neg (by simp [hon])]
      exact hon
  | cmdPowerOff env =>
      refine iff_of_true ?_ id
      simp only [sysStep, if_pos hstate]
      exact (abortScanStart_state s.mlme).trans hstate
  | resume i env => exact resumeWait_scanning h hstate i
  | powerOn env =>
      exact iff_of_true
        ((congrArg Link.state (view_powerOn s.mlme)).trans hstate) id
  | powerOff =>
      exact iff_of_true
        ((congrArg Link.state (view_powerOff s.mlme)).trans hstate) id
  | rx env skb =>
      refine iff_of_true ?_ id
      have hfile : ∀ (p : Option Pending) (t : Sys),
          (addPending p t).mlme = t.mlme := by
        intro p t
        cases p <;> rfl
      simp only [sysStep, hfile]
      exact rxFrame_scanning hstate h.ret skb
  | deliver i env =>
      refine iff_of_true ?_ id
      simp only [sysStep, deliverNext]
      split
      · exact hstate
      · split
        · simp only
          split <;> exact hstate
        · exact (deliverDataFrame_state (by rw [hstate]; decide)).1.trans
            hstate
  | scanDone aborted =>
      refine iff_of_false ?_ (not_not.2 trivial)
      simp only [sysStep]
      rw [scanDone_scanning hstate h.ret]
      decide
  | timer env => exact fireTimer_scanning h hstate
  | reorderTimer =>
      refine iff_of_true ?_ id
      simp only [sysStep, fireReorderTimer]
      split <;> exact hstate
  | output env m =>
      refine iff_of_true ?_ id
      simp only [sysStep]
      rw [outputPacket_unlinked h.ret (by rw [hstate]; decide)]
      exact hstate
  | auth i env scanning =>
      simp only [sysStep, stepAuth]
      cases hget : s.auths[i]? with
      | none =>
          refine iff_of_true hstate ?_
          rintro ⟨t, ht, -⟩
          rw [hget] at ht
          cases ht
      | some t =>
          by_cases hpc : t.pc = .finish
          · refine iff_of_false ?_ (not_not.2 ⟨t, hget, hpc⟩)
            simp only [hpc]
            exact fun hc => by cases hc
          · refine iff_of_true
              ((doAuthenticate_state hpc scanning s.mlme).trans hstate) ?_
            rintro ⟨t', ht, hfinish⟩
            rw [hget] at ht
            obtain rfl := Option.some.inj ht
            exact hpc hfinish
  | scan i env =>
      refine iff_of_true ?_ id
      simp only [sysStep, stepScan, hscans]
      exact hstate
  | stop env =>
      exact iff_of_false (fun hc => by cases hc) (not_not.2 trivial)

-- ====================================================== a statement of a pass

/-- Up to its `scanDone` a pass leaves the link as it is, where the scan
was not from one. -/
private theorem passStep_view {s : Mlme} (hret : s.scanReturnState = .idle)
    {pc : PassPc} (hdone : pc ≠ .done) (hgone : pc ≠ .goneDone) :
    view (passStep hw env pc s).2 = view s := by
  cases pc with
  | done => exact absurd rfl hdone
  | goneDone => exact absurd rfl hgone
  | leave chan i count connectedScan =>
      cases connectedScan with
      | true => exact view_visitHome hret true
      | false => rfl
  | probe chan i count connectedScan =>
      show view (if _ then _ else _) = view s
      split
      · rfl
      · exact view_txProbeRequest s
  | dwell i count connectedScan =>
      show view (if _ then _ else _) = view s
      split
      · rw [view_setOnHomeChannel]
        exact view_visitHome hret false
      · rfl
  | back connectedScan =>
      cases connectedScan with
      | true => exact view_visitHome hret false
      | false => rfl
  | _ => rfl

/-- `scanDone`: the state is not SCANNING then, and the channel stays. -/
private theorem scanDone_leaves {s : Mlme} (hret : s.scanReturnState = .idle)
    (aborted : Bool) :
    (scanDone hw aborted s).state ≠ .scanning
      ∧ (scanDone hw aborted s).scanReturnState = .idle
      ∧ (scanDone hw aborted s).chandef = s.chandef
      ∧ (scanDone hw aborted s).log = s.log := by
  have hage : (if aborted then s else ageBssList s).scanReturnState = .idle
      ∧ (if aborted then s else ageBssList s).chandef = s.chandef
      ∧ (if aborted then s else ageBssList s).log = s.log := by
    split <;> exact ⟨hret, rfl, rfl⟩
  rw [scanDone]
  generalize (if aborted = true then s else ageBssList s) = t at hage ⊢
  obtain ⟨hret', hchandef, hlog⟩ := hage
  split
  next hstate => exact ⟨hstate, hret', hchandef, hlog⟩
  · rw [hret', if_neg (by simp)]
    exact ⟨fun h => (by cases h), rfl, hchandef, hlog⟩

/-- A pass that changes the channel no more does not begin again. -/
private theorem hopping_of_next {pc pc' : PassPc} {s : Mlme}
    (hr : (passStep hw env pc s).1 = some pc') (h : pc'.hopping = true) :
    pc.hopping = true := by
  cases pc <;> first
    | rfl
    | (obtain rfl := Option.some.inj hr; cases h)
    | cases hr

/-- Past its hopping a pass leaves the channel, but for `scanDone`. -/
private theorem passStep_channel {pc : PassPc} {s : Mlme}
    (hhop : pc.hopping = false) (hdone : pc ≠ .done)
    (hgone : pc ≠ .goneDone) :
    (passStep hw env pc s).2.chandef = s.chandef
      ∧ switches (passStep hw env pc s).2.log = switches s.log := by
  cases pc with
  | done => exact absurd rfl hdone
  | goneDone => exact absurd rfl hgone
  | goneCount => exact ⟨rfl, rfl⟩
  | clearAbort => exact ⟨rfl, rfl⟩
  | clearCount => exact ⟨rfl, rfl⟩
  | _ => cases hhop

/-- A pass that is done or gone is past its hopping. -/
private theorem not_hopping_of_done {pc : PassPc}
    (h : pc = .done ∨ pc = .goneDone) : pc.hopping = false := by
  rcases h with rfl | rfl <;> rfl

-- ============================================================== the invariant

/-- The scans of `Sys` are unused, no scan was started from a link, and
the manual scans are exclusive. -/
private structure ScanInv (st : ScanSys) : Prop where
  scans : st.sys.scans = []
  link : NoLinkScan st.sys
  exclusive : ScanExclusive st

private theorem ScanInv.init (powered : Bool) :
    ScanInv (ScanSys.init powered) :=
  ⟨rfl, NoLinkScan.init powered, (fun _ h => by cases h), Nat.zero_le _⟩

/-- The first two parts are kept by every step. -/
private theorem scanStep_link {st : ScanSys} (h : ScanInv st)
    (e : ScanEvent) :
    (scanStep hw st e).sys.scans = [] ∧ NoLinkScan (scanStep hw st e).sys := by
  cases e with
  | sys e =>
      have hlink := @sysStep_noLinkScan hw st.sys h.link e
      exact ⟨rfl, hlink.ret, hlink.waiters⟩
  | pass i env =>
      have hret : ∀ pc, (passStep hw env pc st.sys.mlme).2.scanReturnState
          = .idle := by
        intro pc
        by_cases hdone : pc = .done
        · rw [hdone]
          exact (scanDone_leaves h.link.ret _).2.1
        · by_cases hgone : pc = .goneDone
          · rw [hgone]
            exact (scanDone_leaves h.link.ret _).2.1
          · exact (congrArg Link.ret
              (passStep_view h.link.ret hdone hgone)).trans h.link.ret
      show (stepPass hw i env st).sys.scans = []
        ∧ NoLinkScan (stepPass hw i env st).sys
      rw [stepPass]
      split
      · exact ⟨h.scans, h.link⟩
      · simp only
        split <;> exact ⟨h.scans, hret _, h.link.waiters⟩

/-- Outside SCANNING no pass may change the channel. -/
private theorem ScanInv.quiet {st : ScanSys} (h : ScanInv st)
    (hstate : st.sys.mlme.state ≠ .scanning) :
    st.passes.countP (·.pc.hopping) = 0 := by
  rw [List.countP_eq_zero]
  exact fun p hp hhop => hstate (h.exclusive.scanning p hp hhop)

-- ================================================= an event, and the condition

/-- What `cmdScan` does: nothing to the state, or it accepts a scan, which
is then the thread's or the driver's. -/
private theorem cmdScan_accepts (s : Mlme) :
    let e := Event.cmdScan env
    ((s.state = .idle → s.up = true → enabledChannels hw = [])
        ∧ startsPass hw s e = false ∧ offloads hw s e = false
        ∧ (cmdScan hw env s).2.2.state = s.state)
      ∨ (s.state = .idle ∧ s.up = true ∧ enabledChannels hw ≠ []
        ∧ offloads hw s e = !startsPass hw s e
        ∧ (cmdScan hw env s).2.2.state = .scanning) := by
  simp only [startsPass, offloads, cmdScan]
  split
  next hstate => exact .inl ⟨fun h => absurd h hstate, rfl, rfl, rfl⟩
  next hstate =>
    have hidle : s.state = .idle := not_not.1 hstate
    split
    next hup =>
      refine .inl ⟨fun _ h => ?_, rfl, rfl, rfl⟩
      rw [h] at hup
      cases hup
    next hup =>
      have hup' : s.up = true := by simpa using hup
      split
      next hnone =>
        exact .inl ⟨fun _ _ => List.eq_nil_of_length_eq_zero hnone, rfl, rfl,
          rfl⟩
      next hsome =>
        have hchans : enabledChannels hw ≠ [] := fun h =>
          hsome (by rw [h]; rfl)
        refine .inr ⟨hidle, hup', hchans, ?_⟩
        split
        · exact ⟨rfl, rfl⟩
        · split
          · exact ⟨rfl, rfl⟩
          · exact ⟨rfl, rfl⟩

/-- A `cmdScan`. -/
private theorem cmdScan_keeps_iff {st : ScanSys} (h : ScanInv st)
    (env : Env) :
    ScanExclusive (scanStep hw st (.sys (.cmdScan env)))
      ↔ KeepsScan hw st (.sys (.cmdScan env)) := by
  rcases @cmdScan_accepts hw env st.sys.mlme with
    ⟨hrefused, hstart, hoff, hstate⟩ | ⟨hidle, hup, hchans, hoff, hstate⟩
  · -- it is refused
    have hkept : (scanStep hw st (.sys (.cmdScan env))).passes = st.passes
        ∧ (scanStep hw st (.sys (.cmdScan env))).offloaded
          = st.offloaded := by
      simp only [scanStep, stepOther, offloadedAfter, hstart, hoff]
      exact ⟨rfl, rfl⟩
    refine iff_of_true ⟨?_, ?_⟩ fun hi hu hne => absurd (hrefused hi hu) hne
    · rw [hkept.1]
      exact fun p hp hhop => hstate.trans (h.exclusive.scanning p hp hhop)
    · rw [hkept.1, hkept.2]
      exact h.exclusive.single
  · -- it is accepted, and is the only scan exactly if the driver has none
    have hquiet := h.quiet (by rw [hidle]; decide)
    have hone : (scanStep hw st (.sys (.cmdScan env))).passes.countP
          (·.pc.hopping)
        + (scanStep hw st (.sys (.cmdScan env))).offloaded
          = st.offloaded + 1 := by
      cases hstart : startsPass hw st.sys.mlme (.cmdScan env) with
      | true =>
          have henter : enterPass st.accepted st.passes
              = st.passes ++ [Pass.queued st.accepted] := by
            refine if_neg fun hany => ?_
            obtain ⟨q, hq, hentry⟩ := List.any_eq_true.1 hany
            have hno := List.countP_eq_zero.1 hquiet q hq
            rw [beq_iff_eq.1 hentry] at hno
            exact hno rfl
          rw [hstart] at hoff
          simp only [scanStep, stepOther, offloadedAfter, hstart, hoff,
            if_true, henter, List.countP_append, hquiet]
          show 0 + 1 + st.offloaded = st.offloaded + 1
          omega
      | false =>
          rw [hstart] at hoff
          simp only [scanStep, stepOther, offloadedAfter, hstart, hoff]
          show st.passes.countP (·.pc.hopping) + (st.offloaded + 1) = _
          rw [hquiet, Nat.zero_add]
    refine ⟨fun hex _ _ _ => ?_, fun hkeeps => ⟨fun _ _ _ => hstate, ?_⟩⟩
    · have hsingle := hex.single
      omega
    · have hzero := hkeeps hidle hup hchans
      omega

/-- Another event of the other threads. -/
private theorem other_keeps_iff {st : ScanSys} (h : ScanInv st) {e : Event}
    (he : ∀ env, e ≠ .cmdScan env) :
    ScanExclusive (scanStep hw st (.sys e))
      ↔ (LeavesScan st.sys e → ¬ st.Hopping) := by
  have hstart : startsPass hw st.sys.mlme e = false := by
    cases e <;> first | rfl | exact absurd rfl (he _)
  have hoff : offloads hw st.sys.mlme e = false := by
    cases e <;> first | rfl | exact absurd rfl (he _)
  have hpasses : (scanStep hw st (.sys e)).passes = st.passes := by
    simp only [scanStep, stepOther, hstart]
    rfl
  have hless : (scanStep hw st (.sys e)).offloaded ≤ st.offloaded := by
    simp only [scanStep, stepOther, offloadedAfter, hoff]
    rw [if_neg Bool.false_ne_true]
    split
    · exact Nat.zero_le _
    · split
      · exact Nat.sub_le _ _
      · exact Nat.le_refl _
  have hstate : ∀ p ∈ st.passes, p.pc.hopping = true →
      ((scanStep hw st (.sys e)).sys.mlme.state = .scanning
        ↔ ¬ LeavesScan st.sys e) := fun p hp hhop =>
    sysStep_scanning_iff h.link h.scans (h.exclusive.scanning p hp hhop) e
  refine ⟨fun hex hleaves ⟨p, hp, hhop⟩ => ?_, fun hkeeps => ⟨?_, ?_⟩⟩
  · exact (hstate p hp hhop).1
      (hex.scanning p (by rw [hpasses]; exact hp) hhop) hleaves
  · intro p hp hhop
    rw [hpasses] at hp
    exact (hstate p hp hhop).2 fun hleaves => hkeeps hleaves ⟨p, hp, hhop⟩
  · rw [hpasses]
    exact (Nat.add_le_add_left hless _).trans h.exclusive.single

/-- Replacing a pass by one that hops only if it did adds none. -/
private theorem countP_set_le {ps : List Pass} {i : Nat} {p p' : Pass}
    (hi : ps[i]? = some p)
    (h : p'.pc.hopping = true → p.pc.hopping = true) :
    (ps.set i p').countP (·.pc.hopping) ≤ ps.countP (·.pc.hopping) := by
  obtain ⟨hlt, rfl⟩ := List.getElem?_eq_some_iff.1 hi
  rw [List.countP_set hlt]
  cases hhop : ps[i].pc.hopping with
  | true =>
      have hpos : 0 < ps.countP (·.pc.hopping) :=
        List.countP_pos_iff.2 ⟨_, List.getElem_mem hlt, hhop⟩
      rw [if_pos rfl]
      split <;> omega
  | false =>
      have hno : p'.pc.hopping = false := by
        cases h' : p'.pc.hopping with
        | false => rfl
        | true => exact (h h').symm.trans hhop
      rw [hno, if_neg Bool.false_ne_true]
      omega

/-- What a statement of the pass at place `i` leaves of the passes: none
of them is new to hopping, and one that hops and is at another place
stays. -/
private theorem stepPass_passes {st : ScanSys} {i : Nat} {p : Pass}
    (hi : st.passes[i]? = some p) :
    let st' := stepPass hw i env st
    st'.offloaded = st.offloaded
      ∧ st'.passes.countP (·.pc.hopping) ≤ st.passes.countP (·.pc.hopping)
      ∧ (p.pc.hopping = false →
        ∀ q ∈ st.passes, q.pc.hopping = true → q ∈ st'.passes)
      ∧ st'.sys.mlme = (passStep hw env p.pc st.sys.mlme).2 := by
  have hlt : i < st.passes.length := (List.getElem?_eq_some_iff.1 hi).1
  -- another pass is at another place
  have hother : p.pc.hopping = false → ∀ q ∈ st.passes,
      q.pc.hopping = true → ∃ j, j ≠ i ∧ st.passes[j]? = some q := by
    intro hp q hq hhop
    obtain ⟨j, hj⟩ := List.mem_iff_getElem?.1 hq
    refine ⟨j, fun hji => ?_, hj⟩
    rw [hji, hi] at hj
    rw [← Option.some.inj hj, hp] at hhop
    cases hhop
  simp only [stepPass, hi]
  cases hr : (passStep hw env p.pc st.sys.mlme).1 with
  | some pc' =>
      refine ⟨rfl, countP_set_le hi (hopping_of_next hr),
        fun hp q hq hhop => ?_, rfl⟩
      obtain ⟨j, hji, hj⟩ := hother hp q hq hhop
      refine List.mem_of_getElem? (i := j) ?_
      simp only
      rw [List.getElem?_set_ne hji.symm]
      exact hj
  | none =>
      refine ⟨rfl, (List.eraseIdx_sublist _ _).countP_le,
        fun hp q hq hhop => ?_, rfl⟩
      obtain ⟨j, hji, hj⟩ := hother hp q hq hhop
      exact List.mem_eraseIdx_iff_getElem?.2 ⟨j, hji, hj⟩

/-- A statement of a pass. -/
private theorem pass_keeps_iff {st : ScanSys} (h : ScanInv st) (i : Nat)
    (env : Env) :
    HopsInScan hw st (.pass i env)
        ∧ ScanExclusive (scanStep hw st (.pass i env))
      ↔ KeepsScan hw st (.pass i env) := by
  cases hi : st.passes[i]? with
  | none =>
      have hsame : scanStep hw st (.pass i env) = st := by
        simp only [scanStep, stepPass, hi]
      refine iff_of_true ⟨.inr ?_, ?_⟩ fun p hp => ?_
      · simp only [hsame, and_self]
      · rw [hsame]
        exact h.exclusive
      · rw [hi] at hp
        cases hp
  | some p =>
      obtain ⟨hoff, hless, hstay, hmlme⟩ :=
        @stepPass_passes hw env _ _ _ hi
      have hsingle : (scanStep hw st (.pass i env)).passes.countP
            (·.pc.hopping)
          + (scanStep hw st (.pass i env)).offloaded ≤ 1 := by
        have hold := h.exclusive.single
        show (stepPass hw i env st).passes.countP (·.pc.hopping)
          + (stepPass hw i env st).offloaded ≤ 1
        omega
      by_cases hend : p.pc = .done ∨ p.pc = .goneDone
      · -- `scanDone`: the state is not SCANNING then
        have hpno := not_hopping_of_done hend
        have hleaves : ∃ aborted, (passStep hw env p.pc st.sys.mlme).2
            = scanDone hw aborted st.sys.mlme := by
          rcases hend with hpc | hpc <;> rw [hpc] <;> exact ⟨_, rfl⟩
        obtain ⟨aborted, hdone⟩ := hleaves
        obtain ⟨hstate, -, hchandef, hlog⟩ :=
          @scanDone_leaves hw _ h.link.ret aborted
        rw [hdone] at hmlme
        refine ⟨fun hex p' hp' _ ⟨q, hq, hhop⟩ => ?_, fun hkeeps => ?_⟩
        · apply hstate
          rw [← hmlme]
          exact hex.2.scanning q (hstay hpno q hq hhop) hhop
        · have hnone := hkeeps p hi hend
          have hzero : st.passes.countP (·.pc.hopping) = 0 :=
            List.countP_eq_zero.2 fun q hq hhop => hnone ⟨q, hq, hhop⟩
          refine ⟨.inr ?_, fun q hq hhop => ?_, hsingle⟩
          · simp only [scanStep, hmlme]
            exact ⟨hchandef, by rw [hlog]⟩
          · have hzero' : (stepPass hw i env st).passes.countP
                (·.pc.hopping) = 0 := by omega
            exact absurd hhop (List.countP_eq_zero.1 hzero' q hq)
      · -- the link is as it was
        obtain ⟨hdone, hgone⟩ := not_or.1 hend
        have hview := @passStep_view hw env _ h.link.ret _ hdone
          hgone
        refine iff_of_true ⟨?_, fun q hq hhop => ?_, hsingle⟩
          fun p' hp' hend' => ?_
        · cases hhop : p.pc.hopping with
          | true =>
              exact .inl (h.exclusive.scanning p (List.mem_of_getElem? hi)
                hhop)
          | false =>
              refine .inr ?_
              simp only [scanStep, hmlme]
              exact passStep_channel hhop hdone hgone
        · have hpos : 0 < (stepPass hw i env st).passes.countP
              (·.pc.hopping) := List.countP_pos_iff.2 ⟨q, hq, hhop⟩
          have hold : 0 < st.passes.countP (·.pc.hopping) := by omega
          obtain ⟨r, hr, hrhop⟩ := List.countP_pos_iff.1 hold
          show (stepPass hw i env st).sys.mlme.state = .scanning
          rw [hmlme]
          exact (congrArg Link.state hview).trans
            (h.exclusive.scanning r hr hrhop)
        · rw [hi] at hp'
          obtain rfl := Option.some.inj hp'
          exact absurd hend' hend

/-- The condition on an event is that it keeps the scans exclusive. -/
private theorem keepsScan_iff {st : ScanSys} (h : ScanInv st)
    (e : ScanEvent) :
    HopsInScan hw st e ∧ ScanExclusive (scanStep hw st e)
      ↔ KeepsScan hw st e := by
  cases e with
  | pass i env => exact pass_keeps_iff h i env
  | sys e =>
      refine (and_iff_right trivial).trans ?_
      cases e with
      | cmdScan env => exact cmdScan_keeps_iff h env
      | _ => exact other_keeps_iff h fun _ he => by cases he

/-- The manual scan changes the channel in SCANNING only, and one scan at
most is in progress, in exactly the runs in which no event takes the
state out of SCANNING while a pass may still change the channel and no
`cmdScan` is accepted while the driver has a scan. -/
theorem scans_exclusive_iff (powered : Bool) (es : List ScanEvent) :
    Along (scanStep hw)
        (fun st e => HopsInScan hw st e ∧ ScanExclusive (scanStep hw st e))
        (ScanSys.init powered) es
      ↔ Along (scanStep hw) (KeepsScan hw) (ScanSys.init powered) es := by
  refine along_iff_of_inv (I := ScanInv) (fun _ e h => keepsScan_iff h e) ?_
    (ScanInv.init powered) es
  intro st e h hkeeps
  obtain ⟨hscans, hlink⟩ := @scanStep_link hw st h e
  exact ⟨hscans, hlink, ((keepsScan_iff h e).2 hkeeps).2⟩

/-- A `cmdDisconnect` between two statements of the loop makes the state
IDLE, and the pass goes on to tune to its channel. -/
theorem disconnect_leaves_hopping :
    ¬ Along (scanStep manualHw)
      (fun st e => HopsInScan manualHw st e
        ∧ ScanExclusive (scanStep manualHw st e)) (ScanSys.init true)
      (.sys (.cmdScan {}) :: passEvents 5
        ++ .sys (.cmdDisconnect {}) :: passEvents 3 ++ [.pass 0 {}]) := by
  intro h
  rcases h.last.1 with hscanning | ⟨hchannel, -⟩
  · exact absurd hscanning (by decide +kernel)
  · exact absurd hchannel (by decide +kernel)

end Rtw88
