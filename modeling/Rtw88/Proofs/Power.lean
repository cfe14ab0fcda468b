/-
The power of the hardware against the connection state.

Two paths switch the hardware off. `cmdPowerOff` ends the link first;
`powerOff`, which a disabled interface takes, does not look at it. And no
command asks whether the hardware is on. `MindsPower` says of one event
that it steps into neither: the interface is disabled at rest only, and
nothing that needs the hardware is begun or gone on with while it is off.

# The invariant

`PowerInv` is `PowerSafe` and one fact more, that the driver is there
whenever the hardware is on. The log is read for both halves: `hwOn` is
the last start or stop in it, and `OpsWhileOn` asks of every call into
the driver that `hwOn` held of the log at that call.

- With the hardware on an event may call the driver as it likes; it is
  enough that the event starts and stops nothing (`PowerInv.grow_on`).
- With the hardware off the object is at rest, so nearly every function
  returns at its first test; the lemmas under "at rest" say so of each,
  and that it ends at rest again (`Idles`).
- The functions that switch the power are taken one at a time
  (`powerOff_inv`, `powerOn_inv`, `powerDown_inv`).

`minded_power_safe` is the induction over the run. The run at the end
steps into both paths, and leaves a link without its hardware and a scan
that the driver is asked for while it is off.
-/
import Rtw88.Proofs.Attempt
import Rtw88.Proofs.Custody

namespace Rtw88

variable {hw : Hw} {env : Env}

-- =============================================================== vocabulary

/-- The object is at rest: IDLE, with no key and no station. -/
structure AtRest (s : Mlme) : Prop where
  state : s.state = .idle
  ptkConf : s.ptkConf = none
  gtkConf : s.gtkConf = none
  sta : s.sta = none

instance (s : Mlme) : Decidable (AtRest s) :=
  decidable_of_iff (s.state = .idle ∧ s.ptkConf = none ∧ s.gtkConf = none
      ∧ s.sta = none)
    ⟨fun h => ⟨h.1, h.2.1, h.2.2.1, h.2.2.2⟩,
      fun h => ⟨h.state, h.ptkConf, h.gtkConf, h.sta⟩⟩

/-- The stretch of `doAuthenticate` calls the driver or writes the
state. -/
def AuthPc.acts (env : Env) (s : Mlme) : AuthPc → Bool
  | .entry | .waitScan _ => false
  | .settle => s.up
  | .transmit => s.up && env.mgmtSkb
  | .finish => true

/-- The stretch of `runManualScan` calls the driver. -/
def ScanPc.acts (s : Mlme) : ScanPc → Bool
  | .entry => s.up
  | .chan i count _ => !(decide (i < count) && !s.manualScanAbort)
      || s.manualScanChannels[i]?.isSome
  | .leave _ _ _ => true
  | .dwell _ _ _ => false

/-- The event needs the hardware: a scan with a channel to scan, a
`cmdConnect` that finds its target, or a stretch of a thread that acts. -/
def NeedsPower (hw : Hw) (s : Sys) : Event → Prop
  | .cmdScan _ => s.mlme.up = true ∧ enabledChannels hw ≠ []
  | .auth i env _ => ∃ t ∈ s.auths[i]?, t.pc.acts env s.mlme = true
  | .scan i _ => ∃ pc ∈ s.scans[i]?, pc.acts s.mlme = true
  | e => FindsTarget hw s e

instance (s : Sys) : ∀ e, Decidable (NeedsPower hw s e)
  | .cmdScan _ => inferInstanceAs (Decidable (_ ∧ _))
  | .auth i env _ =>
      inferInstanceAs (Decidable (∃ t ∈ s.auths[i]?, t.pc.acts env _ = true))
  | .scan i _ =>
      inferInstanceAs (Decidable (∃ pc ∈ s.scans[i]?, pc.acts _ = true))
  | .cmdConnect _ _ | .cmdDisconnect _ | .cmdPowerOn _ | .cmdPowerOff _
  | .resume _ _ | .powerOn _ | .powerOff | .rx _ _ | .deliver _ _
  | .scanDone _ | .timer _ | .reorderTimer | .output _ _ | .stop _ =>
      inferInstanceAs (Decidable (FindsTarget hw s _))

/-- The event is the interface being disabled. -/
def Event.isDisable : Event → Bool
  | .powerOff => true
  | _ => false

/-- The event minds the power: the interface is not disabled under a link
or an attempt, and nothing needs the hardware while it is off. -/
structure MindsPower (hw : Hw) (s : Sys) (e : Event) : Prop where
  disable : s.mlme.powered = true → e.isDisable = true → AtRest s.mlme
  needs : s.mlme.powered = false → ¬NeedsPower hw s e

instance (s : Sys) (e : Event) : Decidable (MindsPower hw s e) :=
  decidable_of_iff
    ((s.mlme.powered = true → e.isDisable = true → AtRest s.mlme)
      ∧ (s.mlme.powered = false → ¬NeedsPower hw s e))
    ⟨fun h => ⟨h.1, h.2⟩, fun h => ⟨h.disable, h.needs⟩⟩

/-- `_powered` is whether the hardware is on; off means at rest, and no
call went into the driver with the hardware off. -/
structure PowerSafe (s : Mlme) : Prop where
  on : hwOn s.log = s.powered
  rest : s.powered = false → AtRest s
  ops : OpsWhileOn s.log

/-- Two states agree on power, connection state, keys and station. -/
def SameFooting (s t : Mlme) : Prop :=
  s.powered = t.powered ∧ s.state = t.state
    ∧ s.scanReturnState = t.scanReturnState ∧ s.ptkConf = t.ptkConf
    ∧ s.gtkConf = t.gtkConf ∧ s.sta = t.sta

-- ================================================================== the log

/-- The power is that of the last start or stop. -/
theorem hwOn_append {new log : List Obs}
    (h : ∀ o ∈ new, o.isPower = false) : hwOn (new ++ log) = hwOn log := by
  induction new with
  | nil => rfl
  | cons o new ih =>
      have hrest := ih fun o' ho' => h o' (List.mem_cons_of_mem o ho')
      have hfirst := h o List.mem_cons_self
      cases o with
      | hwStart ok => cases hfirst
      | hwStop => cases hfirst
      | _ => exact hrest

/-- With the hardware on, calls are fine. -/
theorem OpsWhileOn.grow_on {new log : List Obs} (h : OpsWhileOn log)
    (hnew : ∀ o ∈ new, o.isPower = false) (hon : hwOn log = true) :
    OpsWhileOn (new ++ log) := by
  induction new with
  | nil => exact h
  | cons o new ih =>
      have htail : ∀ o ∈ new, o.isPower = false := fun o' ho' =>
        hnew o' (List.mem_cons_of_mem o ho')
      exact ⟨fun _ => (hwOn_append htail).trans hon, ih htail⟩

/-- Without calls, it does not matter. -/
theorem OpsWhileOn.grow_quiet {new log : List Obs} (h : OpsWhileOn log)
    (hnew : ∀ o ∈ new, o.isDriverOp = false) : OpsWhileOn (new ++ log) := by
  induction new with
  | nil => exact h
  | cons o new ih =>
      refine ⟨fun hop => ?_, ih fun o' ho' =>
        hnew o' (List.mem_cons_of_mem o ho')⟩
      rw [hnew o List.mem_cons_self] at hop
      cases hop

-- ================================================================= invariant

/-- `PowerSafe`, and a driver that is there whenever the hardware is
on. -/
structure PowerInv (s : Mlme) : Prop extends PowerSafe s where
  up : s.up = false → s.powered = false

/-- The driver is there while the hardware is on. -/
private theorem PowerInv.up_of_on {s : Mlme} (h : PowerInv s)
    (hon : s.powered = true) : s.up = true := by
  by_contra hdown
  have hoff := h.up (by simpa using hdown)
  rw [hon] at hoff
  cases hoff

/-- A piece that does not switch the power, with the hardware on. -/
private theorem PowerInv.grow_on {s t : Mlme} (h : PowerInv s)
    (hon : s.powered = true) (hpowered : t.powered = s.powered)
    (hup : t.up = s.up) (hgrows : Grows (fun o => o.isPower = false) s t) :
    PowerInv t := by
  obtain ⟨new, hlog, hnew⟩ := hgrows
  refine ⟨⟨?_, fun hoff => ?_, ?_⟩, ?_⟩
  · rw [hlog, hwOn_append hnew, h.on, hpowered]
  · rw [hpowered, hon] at hoff
    cases hoff
  · rw [hlog]
    exact h.ops.grow_on hnew (h.on.trans hon)
  · rw [hup, hpowered]
    exact h.up

/-- A piece that neither switches the power nor calls the driver, with
the hardware off: it has to end at rest. -/
private theorem PowerInv.grow_off {s t : Mlme} (h : PowerInv s)
    (hpowered : t.powered = s.powered) (hup : t.up = s.up)
    (hgrows : Grows (fun o => o.isPower = false ∧ o.isDriverOp = false) s t)
    (hrest : AtRest t) : PowerInv t := by
  obtain ⟨new, hlog, hnew⟩ := hgrows
  refine ⟨⟨?_, fun _ => hrest, ?_⟩, ?_⟩
  · rw [hlog, hwOn_append fun o ho => (hnew o ho).1, h.on, hpowered]
  · rw [hlog]
    exact h.ops.grow_quiet fun o ho => (hnew o ho).2
  · rw [hup, hpowered]
    exact h.up

-- ==================================================================== at rest

/-- A piece that ends at rest and asks nothing of the hardware. -/
private def Idles (s t : Mlme) : Prop :=
  t.powered = s.powered ∧ t.up = s.up
    ∧ Grows (fun o => o.isPower = false ∧ o.isDriverOp = false) s t
    ∧ AtRest t

private theorem Idles.refl {s : Mlme} (h : AtRest s) : Idles s s :=
  ⟨rfl, rfl, ⟨[], rfl, fun _ ho => (by cases ho)⟩, h⟩

/-- One more observation that is neither of the power nor a call into the
driver. -/
private theorem Idles.emit {s t : Mlme} (h : Idles s t) (o : Obs)
    (hpower : o.isPower = false) (hop : o.isDriverOp = false) :
    Idles s (t.emit o) := by
  obtain ⟨hp, hup, ⟨new, hlog, hnew⟩, hrest⟩ := h
  refine ⟨hp, hup, ⟨o :: new, congrArg (o :: ·) hlog, fun o' ho' => ?_⟩,
    ⟨hrest.state, hrest.ptkConf, hrest.gtkConf, hrest.sta⟩⟩
  rcases List.mem_cons.1 ho' with rfl | ho'
  · exact ⟨hpower, hop⟩
  · exact hnew o' ho'

/-- There is no key and no station to clear. -/
private theorem releaseAll_rest {s : Mlme} (h : AtRest s)
    (hoff : s.powered = false) : releaseSta (clearKeys s) = zeroKeys s := by
  have hclear : clearKeys s = zeroKeys s := by
    rw [clearKeys, disableKeys, hoff, Bool.false_and,
      if_neg Bool.false_ne_true, dropPtkConf, h.ptkConf]
    simp only
    rw [dropGtkConf, h.gtkConf]
  rw [hclear]
  exact releaseSta_none h.sta

/-- With the power off, a network that is not on the list is not connected
to. -/
private theorem connectTo_rest {s : Mlme} (h : AtRest s)
    (hoff : s.powered = false) {ssid : Option (List UInt8)}
    (hfind : ∀ n ∈ ssid, findBss n s.bssList = none)
    (password : List UInt8) :
    Idles s (connectTo ssid password s).2.2
      ∧ (connectTo ssid password s).2.1 = false := by
  have hzero : Idles s (zeroKeys s) :=
    ⟨rfl, rfl, ⟨[], rfl, fun _ ho => (by cases ho)⟩,
      ⟨h.state, h.ptkConf, h.gtkConf, h.sta⟩⟩
  unfold connectTo
  rw [if_neg (not_not.2 h.state)]
  cases ssid with
  | none => exact ⟨.refl h, rfl⟩
  | some n =>
      simp only [releaseAll_rest h hoff]
      have hnone : findBss n (zeroKeys s).bssList = none := hfind n rfl
      rw [hnone]
      exact ⟨hzero, rfl⟩

/-- At rest there is no scan to end. -/
private theorem scanDone_rest {s : Mlme} (h : AtRest s) (aborted : Bool) :
    Idles s (scanDone hw aborted s) := by
  have hage : Idles s (if aborted then s else ageBssList s) := by
    split
    · exact .refl h
    · exact ⟨rfl, rfl, ⟨[], rfl, fun _ ho => (by cases ho)⟩,
        ⟨h.state, h.ptkConf, h.gtkConf, h.sta⟩⟩
  rw [scanDone]
  generalize (if aborted = true then s else ageBssList s) = t at hage ⊢
  rw [if_pos (by rw [hage.2.2.2.state]; decide)]
  exact hage

/-- Without `_hw` or a channel no scan starts. -/
private theorem cmdScan_rest {s : Mlme} (h : AtRest s)
    (hneeds : ¬(s.up = true ∧ enabledChannels hw ≠ [])) :
    Idles s (cmdScan hw env s).2.2 ∧ (cmdScan hw env s).2.1 = false := by
  rw [cmdScan, if_neg (not_not.2 h.state)]
  split
  next => exact ⟨.refl h, rfl⟩
  next hup =>
    have hnil : enabledChannels hw = [] := by
      by_contra hne
      exact hneeds ⟨by simpa using hup, hne⟩
    have hgen : ∀ t, t = nextGeneration s → t.powered = s.powered
        ∧ t.up = s.up ∧ t.log = s.log ∧ t.ptkConf = s.ptkConf
        ∧ t.gtkConf = s.gtkConf ∧ t.sta = s.sta := by
      rintro t rfl
      simp only [nextGeneration]
      split <;> exact ⟨rfl, rfl, rfl, rfl, rfl, rfl⟩
    simp only [hnil, List.length_nil, if_true]
    generalize hn : nextGeneration s = t
    obtain ⟨hp, hup', hlog, hptk, hgtk, hsta⟩ := hgen t hn.symm
    refine ⟨⟨hp, hup', ⟨[], hlog, fun _ ho => (by cases ho)⟩, ?_⟩, trivial⟩
    exact ⟨h.state, hptk.trans h.ptkConf, hgtk.trans h.gtkConf,
      hsta.trans h.sta⟩

/-- At rest a data frame reaches the stack at most. -/
private theorem deliverDataFrame_rest {s : Mlme} (h : AtRest s)
    (skb : SkBuff) : Idles s (deliverDataFrame hw env skb s) := by
  have hone : ∀ (pos : Nat) (f : EthFrame) (t : Mlme), Idles s t →
      Idles s (deliverEthernet env pos f t) := by
    intro pos f t ht
    rw [deliverEthernet]
    split
    · exact ht.emit _ rfl rfl
    · exact ht
  have hmany : ∀ (msdus : List (Nat × EthFrame)) (t : Mlme), Idles s t →
      Idles s (msdus.foldl (fun t m => deliverEthernet env m.1 m.2 t) t) := by
    intro msdus
    induction msdus with
    | nil => exact fun t ht => ht
    | cons m msdus ih => exact fun t ht => ih _ (hone m.1 m.2 t ht)
  rw [deliverDataFrame]
  split
  · exact (Idles.refl h).emit _ rfl rfl
  · exact (hmany _ s (.refl h)).emit _ rfl rfl
  · rw [if_neg (by rw [h.state]; exact fun hc => by cases hc.2)]
    exact (hone 0 _ s (.refl h)).emit _ rfl rfl

/-- Stretches of `doAuthenticate` that do not act. -/
private theorem doAuthenticate_rest {s : Mlme} (h : AtRest s)
    (scanning : Bool) {pc : AuthPc} (hacts : pc.acts env s = false) :
    Idles s (doAuthenticate hw env scanning pc s).2 := by
  cases pc with
  | entry =>
      rw [doAuthenticate]
      split <;> exact .refl h
  | waitScan i =>
      rw [doAuthenticate]
      split <;> exact .refl h
  | settle =>
      have hup : s.up = false := hacts
      rw [doAuthenticate, hup]
      exact .refl h
  | transmit =>
      have hquiet : txMgmtFrame env (buildAuthReq hw s).1
          (buildAuthReq hw s).2 = (buildAuthReq hw s).2 := by
        rw [txMgmtFrame, if_pos]
        have hor : s.up = false ∨ env.mgmtSkb = false :=
          Bool.and_eq_false_iff.1 hacts
        rcases hor with hup | hskb
        · simp [buildAuthReq, hup]
        · simp [hskb]
      simp only [doAuthenticate, hquiet]
      exact ⟨rfl, rfl, ⟨[], rfl, fun _ ho => (by cases ho)⟩,
        ⟨h.state, h.ptkConf, h.gtkConf, h.sta⟩⟩
  | finish => cases hacts

/-- Stretches of `runManualScan` that do not act. -/
private theorem runManualScan_rest {s : Mlme} (h : AtRest s)
    (hret : s.scanReturnState = .idle) {pc : ScanPc}
    (hacts : pc.acts s = false) : Idles s (runManualScan hw env pc s).2 := by
  cases pc with
  | entry =>
      have hup : s.up = false := hacts
      rw [runManualScan, hup]
      obtain ⟨hp, hup', hgrows, hrest⟩ := @scanDone_rest hw s h true
      exact ⟨hp, hup', hgrows,
        ⟨hrest.state, hrest.ptkConf, hrest.gtkConf, hrest.sta⟩⟩
  | chan i count connectedScan =>
      simp only [ScanPc.acts, Bool.or_eq_false_iff, Bool.not_eq_false',
        Option.isSome_eq_false_iff, Option.isNone_iff_eq_none] at hacts
      simp only [runManualScan, hacts.1, hacts.2, if_true]
      exact .refl h
  | leave chan i count => cases hacts
  | dwell i count connectedScan =>
      have hhome : visitHome hw env false s = s := by
        rw [visitHome, restoreConnectedChannel_of_ne (by rw [hret]; decide),
          txNullFunc, h.sta]
      simp only [runManualScan, hhome]
      split
      · exact ⟨rfl, rfl, ⟨[], rfl, fun _ ho => (by cases ho)⟩,
          ⟨h.state, h.ptkConf, h.gtkConf, h.sta⟩⟩
      · exact .refl h

-- =================================================================== switching

/-- The hardware goes off at rest. -/
private theorem powerOff_inv {s : Mlme} (h : PowerInv s) (hrest : AtRest s) :
    PowerInv (powerOff s) := by
  rw [powerOff]
  split
  next => exact h
  next hon =>
    have hup : s.up = true := h.up_of_on (by simpa using hon)
    rw [hup, if_pos rfl]
    exact ⟨⟨rfl, fun _ => ⟨hrest.state, hrest.ptkConf, hrest.gtkConf,
      hrest.sta⟩, ⟨fun hop => (by cases hop), h.ops⟩⟩, fun _ => rfl⟩

/-- Starting the hardware keeps the invariant. -/
private theorem powerOn_inv {s : Mlme} (h : PowerInv s) :
    PowerInv (powerOn env s).2 := by
  rw [powerOn]
  split
  next => exact h
  next hoff =>
    have hoff : s.powered = false := by simpa using hoff
    split
    next => exact h
    next hup =>
      have hup : s.up = true := by simpa using hup
      have hrest := h.rest hoff
      cases hstart : env.hwStart with
      | false =>
          exact ⟨⟨h.on, fun _ => ⟨hrest.state, hrest.ptkConf, hrest.gtkConf,
            hrest.sta⟩, ⟨fun hop => (by cases hop), h.ops⟩⟩, h.up⟩
      | true =>
          refine ⟨⟨rfl, fun hc => (by cases hc),
            ⟨fun hop => (by cases hop), h.ops⟩⟩, fun hdown => ?_⟩
          have hdown' : s.up = false := hdown
          rw [hup] at hdown'
          cases hdown'

private theorem cmdPowerOn_inv {s : Mlme} (h : PowerInv s) :
    PowerInv (cmdPowerOn env s).2 := by
  have hon := @powerOn_inv env s h
  simp only [cmdPowerOn]
  split
  next hcond =>
    refine ⟨⟨hon.on, fun hoff => ?_, hon.ops⟩, hon.up⟩
    have hrest := hon.rest hoff
    exact ⟨rfl, hrest.ptkConf, hrest.gtkConf, hrest.sta⟩
  next => exact hon

/-- There is no key and no station. -/
def Cleared (s : Mlme) : Prop :=
  s.ptkConf = none ∧ s.gtkConf = none ∧ s.sta = none

/-- Once the keys are gone, so is everything when the station is. -/
theorem releaseSta_cleared {s : Mlme} (hptk : s.ptkConf = none)
    (hgtk : s.gtkConf = none) : Cleared (releaseSta s) := by
  cases hsta : s.sta with
  | none =>
      rw [releaseSta_none hsta]
      exact ⟨hptk, hgtk, hsta⟩
  | some sta =>
      have hview := view_releaseSta_some hsta
      exact ⟨(congrArg Link.ptkConf hview).trans hptk,
        (congrArg Link.gtkConf hview).trans hgtk, congrArg Link.sta hview⟩

/-- `clearKeys` and `releaseSta` leave nothing. -/
theorem releaseAll_cleared (s : Mlme) :
    Cleared (releaseSta (clearKeys s)) :=
  releaseSta_cleared (congrArg Link.ptkConf (view_clearKeys s))
    (congrArg Link.gtkConf (view_clearKeys s))

/-- `doDisconnect` leaves nothing, with the driver up. -/
theorem doDisconnect_cleared {s : Mlme} (hup : s.up = true) :
    Cleared (doDisconnect hw env s) := by
  have hsend := (@view_txMgmtFrame env (deauthFrame hw (clearKeys s))
    (clearKeys s)).trans (view_clearKeys s)
  rw [doDisconnect, if_neg (by simp [hup])]
  exact releaseSta_cleared (congrArg Link.ptkConf hsend)
    (congrArg Link.gtkConf hsend)

/-- The end of `cmdPowerOff`, from where the link is cleared. -/
private theorem powerDown_inv {s : Mlme} (h : PowerInv s)
    (hclear : Cleared s) :
    PowerInv ((powerOff s).setIdle.emit (.setLinkStatus false)) := by
  rw [powerOff]
  split
  next hoff =>
    have hoff : s.powered = false := by simpa using hoff
    exact ⟨⟨h.on, fun _ => ⟨rfl, hclear.1, hclear.2.1, hclear.2.2⟩,
      ⟨fun hop => (by cases hop), h.ops⟩⟩, h.up⟩
  next hon =>
    have hup : s.up = true := h.up_of_on (by simpa using hon)
    rw [hup, if_pos rfl]
    exact ⟨⟨rfl, fun _ => ⟨rfl, hclear.1, hclear.2.1, hclear.2.2⟩,
      ⟨fun hop => (by cases hop), ⟨fun hop => (by cases hop), h.ops⟩⟩⟩,
      fun _ => rfl⟩

/-- The power-off: the link is cleared, then the hardware stopped. -/
private theorem finishPowerOff_inv {s : Mlme} (h : PowerInv s) :
    PowerInv (finishPowerOff hw env s) := by
  simp only [finishPowerOff]
  cases hon : s.powered with
  | false =>
      have hrest := h.rest hon
      rw [if_neg (by rw [hrest.state]; decide), releaseAll_rest hrest hon]
      refine powerDown_inv ?_ ⟨hrest.ptkConf, hrest.gtkConf, hrest.sta⟩
      exact ⟨⟨h.on, fun _ => ⟨hrest.state, hrest.ptkConf, hrest.gtkConf,
        hrest.sta⟩, h.ops⟩, h.up⟩
  | true =>
      have hup := h.up_of_on hon
      split
      · have hacc := @doDisconnect_accounts hw env s
        exact powerDown_inv (h.grow_on hon hacc.1 hacc.2.1 hacc.2.2.1)
          (doDisconnect_cleared hup)
      · have hacc := releaseAll_accounts s
        exact powerDown_inv (h.grow_on hon hacc.1 hacc.2.1 hacc.2.2.1)
          (releaseAll_cleared s)

/-- The end of `stop`, from where the link is cleared. -/
private theorem goDown_inv {s : Mlme} (h : PowerInv s) (hclear : Cleared s) :
    PowerInv (setDown (if !s.up then s
      else (if s.powered then setPowered false (s.emit .hwStop)
        else s).emit .removeInterface).setIdle) := by
  have hrest : ∀ t : Mlme, Cleared t → AtRest (setDown t.setIdle) :=
    fun t ht => ⟨rfl, ht.1, ht.2.1, ht.2.2⟩
  cases hup : s.up with
  | false =>
      have hoff := h.up hup
      exact ⟨⟨h.on, fun _ => hrest s hclear, h.ops⟩, fun _ => hoff⟩
  | true =>
      cases hon : s.powered with
      | false =>
          exact ⟨⟨h.on, fun _ => hrest _ hclear,
            ⟨fun hop => (by cases hop), h.ops⟩⟩, fun _ => hon⟩
      | true =>
          exact ⟨⟨rfl, fun _ => hrest _ hclear, ⟨fun hop => (by cases hop),
            ⟨fun hop => (by cases hop), h.ops⟩⟩⟩, fun _ => rfl⟩

/-- `stop` does both and drops `_hw`. -/
private theorem stop_inv {s : Mlme} (h : PowerInv s) :
    PowerInv (stop hw env s) := by
  have hcancel : PowerInv s.cancelTimer :=
    ⟨⟨h.on, fun hoff => ⟨(h.rest hoff).state, (h.rest hoff).ptkConf,
      (h.rest hoff).gtkConf, (h.rest hoff).sta⟩, h.ops⟩, h.up⟩
  simp only [stop]
  generalize s.cancelTimer = s at hcancel ⊢
  have hleave : ∀ t : Mlme, t = (if (s.state = .connected
        ∨ (s.state = .scanning ∧ s.scanReturnState = .connected))
        ∧ s.powered
      then doDisconnect hw env s else releaseSta (clearKeys s)) →
      PowerInv t ∧ Cleared t := by
    rintro t rfl
    cases hon : s.powered with
    | false =>
        have hrest := hcancel.rest hon
        rw [if_neg (by simp), releaseAll_rest hrest hon]
        exact ⟨⟨⟨hcancel.on, fun _ => ⟨hrest.state, hrest.ptkConf,
          hrest.gtkConf, hrest.sta⟩, hcancel.ops⟩, hcancel.up⟩,
          hrest.ptkConf, hrest.gtkConf, hrest.sta⟩
    | true =>
        have hup := hcancel.up_of_on hon
        split
        · have hacc := @doDisconnect_accounts hw env s
          exact ⟨hcancel.grow_on hon hacc.1 hacc.2.1 hacc.2.2.1,
            doDisconnect_cleared hup⟩
        · have hacc := releaseAll_accounts s
          exact ⟨hcancel.grow_on hon hacc.1 hacc.2.1 hacc.2.2.1,
            releaseAll_cleared s⟩
  generalize (if (s.state = .connected
      ∨ (s.state = .scanning ∧ s.scanReturnState = .connected))
      ∧ s.powered
    then doDisconnect hw env s else releaseSta (clearKeys s)) = t at hleave ⊢
  obtain ⟨ht, hclear⟩ := hleave t rfl
  exact goDown_inv ht hclear

-- ================================================================== one event

/-- With the hardware off, an event that does not switch it. -/
private theorem sysStep_idles {s : Sys} {e : Event} (hscan : NoLinkScan s)
    (h : AtRest s.mlme) (hoff : s.mlme.powered = false)
    (hneeds : ¬NeedsPower hw s e) (hsw : s.switches e = false) :
    Idles s.mlme (sysStep hw s e).mlme := by
  have hconnect : ∀ (ssid : Option (List UInt8)) (password : List UInt8)
      (t : Sys), t.mlme = s.mlme →
      (∀ n ∈ ssid, findBss n s.mlme.bssList = none) →
      Idles s.mlme (runConnect ssid password t).mlme := by
    intro ssid password t ht hfind
    obtain ⟨hidle, hfalse⟩ := connectTo_rest h hoff hfind password
    simp only [runConnect, ht]
    split <;> exact hidle
  have hnotscan : s.mlme.state ≠ .scanning := by rw [h.state]; decide
  cases e with
  | cmdScan env => exact (cmdScan_rest h hneeds).1
  | cmdConnect ssid password =>
      simp only [sysStep, if_neg hnotscan]
      refine hconnect ssid password s rfl fun n hn => ?_
      by_contra hsome
      refine hneeds ⟨n, ?_, Option.isSome_iff_ne_none.2 hsome⟩
      simp only [Sys.looksUp, if_pos h.state]
      exact hn
  | cmdDisconnect env =>
      simp only [sysStep, cmdDisconnect, if_pos h.state]
      exact .refl h
  | resume i env =>
      simp only [sysStep, resumeWait]
      split
      next => exact .refl h
      next w hget =>
        have hfinish : abortScanFinish hw w.returnState s.mlme
            = (true, s.mlme) := by
          rw [abortScanFinish, if_pos hnotscan]
        rw [if_neg fun hc => hnotscan hc.2]
        simp only [hfinish]
        obtain ⟨cmd, returnState, turn⟩ := w
        cases cmd with
        | powerOff =>
            rw [Sys.switches, hget] at hsw
            cases hsw
        | connect ssid password =>
            simp only [runWaiter, if_true]
            refine hconnect ssid password _ rfl fun n hn => ?_
            by_contra hsome
            refine hneeds ⟨n, ?_, Option.isSome_iff_ne_none.2 hsome⟩
            simp only [Sys.looksUp, hget, hfinish]
            rw [if_neg]
            · exact hn
            · simp [h.state]
  | rx env skb =>
      simp only [sysStep, rxFrame_ignored hscan.ret (.inl h.state)]
      exact (Idles.refl h).emit _ rfl rfl
  | deliver i env =>
      simp only [sysStep, deliverNext]
      split
      · exact .refl h
      · split
        · simp only
          split
          · exact ⟨rfl, rfl, ⟨[], rfl, fun _ ho => (by cases ho)⟩,
              ⟨h.state, h.ptkConf, h.gtkConf, h.sta⟩⟩
          · exact .refl h
        · exact deliverDataFrame_rest h _
  | scanDone aborted => exact scanDone_rest h aborted
  | timer env =>
      have hcancel : Idles s.mlme s.mlme.cancelTimer :=
        ⟨rfl, rfl, ⟨[], rfl, fun _ ho => (by cases ho)⟩,
          ⟨h.state, h.ptkConf, h.gtkConf, h.sta⟩⟩
      have htimer : onTimer hw env s.mlme.cancelTimer
          = (false, s.mlme.cancelTimer) := by
        rw [onTimer, show s.mlme.cancelTimer.state = .idle from h.state]
      simp only [sysStep, fireTimer, htimer]
      split
      · exact .refl h
      · exact hcancel
  | reorderTimer =>
      simp only [sysStep, fireReorderTimer]
      split
      · exact .refl h
      · exact ⟨rfl, rfl, ⟨[], rfl, fun _ ho => (by cases ho)⟩,
          ⟨h.state, h.ptkConf, h.gtkConf, h.sta⟩⟩
  | output env m =>
      simp only [sysStep]
      rw [outputPacket_unlinked hscan.ret (by rw [h.state]; decide)]
      exact .refl h
  | auth i env scanning =>
      simp only [sysStep, stepAuth]
      split
      next => exact .refl h
      next t ht =>
        refine doAuthenticate_rest h scanning ?_
        by_contra hacts
        exact hneeds ⟨t, ht, by simpa using hacts⟩
  | scan i env =>
      simp only [sysStep, stepScan]
      split
      next => exact .refl h
      next pc hpc =>
        refine runManualScan_rest h hscan.ret ?_
        by_contra hacts
        exact hneeds ⟨pc, hpc, by simpa using hacts⟩
  | _ => cases hsw

/-- An event that minds the power keeps the invariant. -/
private theorem sysStep_powerInv {s : Sys} {e : Event}
    (hscan : NoLinkScan s) (h : PowerInv s.mlme) (hm : MindsPower hw s e) :
    PowerInv (sysStep hw s e).mlme := by
  cases hsw : s.switches e with
  | false =>
      cases hon : s.mlme.powered with
      | true =>
          have hbooks := @sysStep_books hw s e hsw
          exact h.grow_on hon hbooks.powered hbooks.up hbooks.grows
      | false =>
          obtain ⟨hp, hup, hgrows, hrest⟩ :=
            sysStep_idles hscan (h.rest hon) hon (hm.needs hon) hsw
          exact h.grow_off hp hup hgrows hrest
  | true =>
      -- a wait in the way leaves the power alone
      have hplain : ∀ t : Mlme, Plain s.mlme t →
          s.mlme.state = .scanning → PowerInv t := by
        intro t ht hscanning
        have hacc := ht.accounts
        cases hon : s.mlme.powered with
        | true => exact h.grow_on hon hacc.1 hacc.2.1 hacc.2.2.1
        | false =>
            have hidle := (h.rest hon).state
            rw [hscanning] at hidle
            cases hidle
      cases e with
      | cmdPowerOn env => exact cmdPowerOn_inv h
      | powerOn env => exact powerOn_inv h
      | powerOff =>
          cases hon : s.mlme.powered with
          | true => exact powerOff_inv h (hm.disable hon rfl)
          | false => exact powerOff_inv h (h.rest hon)
      | cmdPowerOff env =>
          simp only [sysStep]
          split
          next hscanning =>
            exact hplain _ (abortScanStart_steady s.mlme).1 hscanning
          next => exact finishPowerOff_inv h
      | stop env => exact stop_inv h
      | resume i env =>
          simp only [sysStep, resumeWait]
          split
          next => exact h
          next w hget =>
            have hcmd : w.cmd = .powerOff := by
              rw [Sys.switches, hget] at hsw
              exact beq_iff_eq.1 hsw
            split
            next => exact h
            next =>
              simp only [hcmd, runWaiter]
              refine finishPowerOff_inv ?_
              have hfinish :=
                (@abortScanFinish_plain hw w.returnState s.mlme).accounts
              cases hon : s.mlme.powered with
              | true =>
                  exact h.grow_on hon hfinish.1 hfinish.2.1 hfinish.2.2.1
              | false =>
                  rw [abortScanFinish, if_pos]
                  · exact h
                  · rw [(h.rest hon).state]
                    decide
      | _ => cases hsw

theorem PowerInv.init (powered : Bool) : PowerInv (Mlme.init powered) := by
  refine ⟨⟨?_, fun _ => ⟨rfl, rfl, rfl, rfl⟩,
    ⟨fun hop => (by cases hop), trivial⟩⟩, fun hdown => (by cases hdown)⟩
  show (powered || false) = powered
  exact Bool.or_false powered

-- ==================================================================== result

/-- In every run whose events mind the power: `_powered` is whether the
hardware is on, off is at rest, no call goes into the driver with the
hardware off; and where the interface may be disabled, disabling it and
`cmdPowerOff` leave the same footing. -/
theorem minded_power_safe (powered : Bool) (es : List Event)
    (h : Along (sysStep hw) (MindsPower hw) (Sys.init powered) es) :
    PowerSafe (sysRun hw powered es).mlme
      ∧ ∀ env, MindsPower hw (sysRun hw powered es) .powerOff →
        SameFooting (powerOff (sysRun hw powered es).mlme)
          (finishPowerOff hw env (sysRun hw powered es).mlme) := by
  have hinv : NoLinkScan (sysRun hw powered es)
      ∧ PowerInv (sysRun hw powered es).mlme :=
    inv_of_along (I := fun s => NoLinkScan s ∧ PowerInv s.mlme)
      (fun s e hs hm => ⟨sysStep_noLinkScan hs.1 e,
        sysStep_powerInv hs.1 hs.2 hm⟩)
      ⟨NoLinkScan.init powered, PowerInv.init powered⟩ h
  generalize sysRun hw powered es = s at hinv ⊢
  obtain ⟨hscan, hpower⟩ := hinv
  refine ⟨hpower.toPowerSafe, fun env hm => ?_⟩
  have hrest : AtRest s.mlme := by
    cases hon : s.mlme.powered with
    | true => exact hm.disable hon rfl
    | false => exact hpower.rest hon
  have hoff : ∀ t : Mlme, (powerOff t).powered = false
      ∧ (powerOff t).state = t.state
      ∧ (powerOff t).scanReturnState = t.scanReturnState
      ∧ (powerOff t).ptkConf = t.ptkConf ∧ (powerOff t).gtkConf = t.gtkConf
      ∧ (powerOff t).sta = t.sta := by
    intro t
    rw [powerOff]
    split
    next hp => exact ⟨by simpa using hp, rfl, rfl, rfl, rfl, rfl⟩
    next => split <;> exact ⟨rfl, rfl, rfl, rfl, rfl, rfl⟩
  have hclear := releaseAll_cleared s.mlme
  have hif : finishPowerOff hw env s.mlme
      = (powerOff (releaseSta (clearKeys s.mlme))).setIdle.emit
        (.setLinkStatus false) := by
    simp only [finishPowerOff]
    rw [if_neg (by rw [hrest.state]; decide)]
  obtain ⟨hp, hst, hret, hptk, hgtk, hsta⟩ := hoff s.mlme
  obtain ⟨hp', -, -, hptk', hgtk', hsta'⟩ :=
    hoff (releaseSta (clearKeys s.mlme))
  rw [hif]
  exact ⟨hp.trans hp'.symm, hst.trans hrest.state, hret.trans hscan.ret,
    hptk.trans (hrest.ptkConf.trans (hptk'.trans hclear.1).symm),
    hgtk.trans (hrest.gtkConf.trans (hgtk'.trans hclear.2.1).symm),
    hsta.trans (hrest.sta.trans (hsta'.trans hclear.2.2).symm)⟩

/-- The sample network is joined; the hardware goes off, and on again. -/
theorem sample_power_safe :
    let hw := sampleHw samplePrims
    let s := sysRun hw true (joinEvents ++ [.cmdPowerOff {}, .powerOff,
      .powerOn {}, .cmdScan {}])
    PowerSafe s.mlme ∧ ∀ env, MindsPower hw s .powerOff →
      SameFooting (powerOff s.mlme) (finishPowerOff hw env s.mlme) :=
  minded_power_safe true _ (by decide +kernel)

/-- The interface is disabled under a link, and the link stays; a scan
begins with the hardware off. -/
theorem disabled_link_and_unpowered_scan :
    let hw := sampleHw samplePrims
    let disabled := (sysRun hw true (joinEvents ++ [.powerOff])).mlme
    let scanned := (sysRun hw true [.cmdPowerOff {}, .cmdScan {}]).mlme
    (disabled.powered = false ∧ disabled.state = .connected
        ∧ ¬PowerSafe disabled)
      ∧ scanned.powered = false ∧ scanned.log.head? = some .hwScan
      ∧ ¬PowerSafe scanned := by
  intro hw disabled scanned
  refine ⟨⟨by decide +kernel, by decide +kernel, fun h => ?_⟩,
    by decide +kernel, by decide +kernel, fun h => ?_⟩
  · have hidle := (h.rest (by decide +kernel)).state
    revert hidle
    decide +kernel
  · have hidle := (h.rest (by decide +kernel)).state
    revert hidle
    decide +kernel

end Rtw88
