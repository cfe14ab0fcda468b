/-
What each function of the source does to the link: one equation a
function, `view (f s) = …` in terms of `view s`.

Most functions do nothing to it. The equations of those are simp lemmas,
so a later proof that meets such a call drops it.

# What is seen

`Link` has the state, the keys and the material they are made from, the
station, the packet number, whether windows are open, the scan list, and
the trail: the observations that say what became of a key, a station or
a link. The rest of the object is not in it, and of the log only the
trail (`view_emit`).

A key is freed and its slot is nulled in two statements. Here they are
one equation (`view_dropPtkConf`); the order between the two matters to
what runs beside them, and there they are apart (Model/Teardown.lean).
-/
import Rtw88.Spec.Link

namespace Rtw88

variable {hw : Hw} {env : Env}

-- =============================================================== log, timer

/-- An observation is seen if it is on the trail. -/
theorem view_emit (s : Mlme) (o : Obs) :
    view (s.emit o) = { view s with
      trail := if o.onTrail then o :: (view s).trail else (view s).trail } := by
  simp only [view, Mlme.emit, List.filter_cons]

/-- An observation off the trail is not seen. -/
@[simp] theorem view_emit_off (s : Mlme) (o : Obs) (h : ¬ o.onTrail) :
    view (s.emit o) = view s := by
  simp [view_emit, h]

/-- An observation on the trail is. -/
theorem view_emit_on (s : Mlme) (o : Obs) (h : o.onTrail) :
    view (s.emit o) = { view s with trail := o :: (view s).trail } := by
  simp [view_emit, h]

/-- The timer is not part of the link. -/
@[simp] theorem view_armTimer (s : Mlme) (ms : Nat) :
    view (s.armTimer ms) = view s := rfl

/-- Cancelling it is not seen either. -/
@[simp] theorem view_cancelTimer (s : Mlme) :
    view s.cancelTimer = view s := rfl

@[simp] theorem view_setState (s : Mlme) (st : RTW88State) :
    view (s.setState st) = { view s with state := st } := rfl

/-- `_state` and `_scanReturnState`, both IDLE. -/
@[simp] theorem view_setIdle (s : Mlme) :
    view s.setIdle = { view s with state := .idle, ret := .idle } := rfl

/-- Releasing a frame is off the trail. -/
@[simp] theorem view_kfreeSkb (skb : SkBuff) (s : Mlme) :
    view (kfreeSkb skb s) = view s := by
  simp [kfreeSkb, Obs.onTrail]

@[simp] theorem view_kfreeAll (skbs : List SkBuff) (s : Mlme) :
    view (kfreeAll skbs s) = view s := by
  induction skbs generalizing s with
  | nil => rfl
  | cons skb skbs ih =>
      rw [kfreeAll, List.foldl_cons]
      exact (ih _).trans (view_kfreeSkb skb s)

-- ========================================================== reorder buffers

/-- A teardown closes its TID's window. -/
theorem rxBaTeardown_rxBa {α : Type} (tid : Nat) (rx : RxBa α) :
    (rxBaTeardown tid rx).rxBa
      = fun i => if i.val = tid then none else rx i := by
  rw [rxBaTeardown]
  split
  next h =>
    cases hr : rx ⟨tid, h⟩ with
    | none =>
        funext i
        by_cases hi : i.val = tid
        · have hi' : i = ⟨tid, h⟩ := Fin.ext hi
          rw [if_pos hi, hi']
          exact hr
        · rw [if_neg hi]
    | some r =>
        funext i
        by_cases hi : i.val = tid
        · have hi' : i = ⟨tid, h⟩ := Fin.ext hi
          simp only [hi', Function.update_self, if_true]
        · have hi' : i ≠ ⟨tid, h⟩ := fun heq => hi (by rw [heq])
          simp only [Function.update_of_ne hi', if_neg hi]
  next h =>
    funext i
    have hi : i.val ≠ tid := fun heq => h (heq ▸ i.isLt)
    rw [if_neg hi]

/-- One reorder window torn down, and nothing else seen. -/
theorem view_rxBaTeardown (tid : Nat) (s : Mlme) :
    view (s.rxBaTeardown tid) = { view s with
      rxBa := fun i => if i.val = tid then none else (view s).rxBa i } := by
  rw [Mlme.rxBaTeardown, view_kfreeAll, ← rxBaTeardown_rxBa]
  rfl

theorem view_rxBaTeardownAll (s : Mlme) :
    view (rxBaTeardownAll s) = { view s with rxBa := RxBa.empty } := by
  have hfold : ∀ (l : List Nat) (s : Mlme),
      view (l.foldl (fun s tid => s.rxBaTeardown tid) s) = { view s with
        rxBa := fun i => if i.val ∈ l then none else (view s).rxBa i } := by
    intro l
    induction l with
    | nil => intro s; rfl
    | cons tid l ih =>
        intro s
        rw [List.foldl_cons, ih, view_rxBaTeardown]
        simp only [List.mem_cons, Link.mk.injEq, true_and, and_true]
        funext i
        by_cases hi : i.val = tid
        · simp [hi]
        · simp [hi]
  rw [rxBaTeardownAll, hfold]
  have hall : ∀ i : Fin 8, i.val ∈ List.range kRxBaNumTid :=
    fun i => List.mem_range.2 i.isLt
  simp only [hall, if_true]
  rfl

-- ============================================================ keys, station

/-- The key of the hardware is disabled off the trail. -/
@[simp] theorem view_disableKey (k : Option KeyConf) (s : Mlme) :
    view (disableKey k s) = view s := by
  cases k <;> simp [disableKey, Obs.onTrail]

@[simp] theorem view_disableKeys (s : Mlme) :
    view (disableKeys s) = view s := by
  rw [disableKeys]
  split <;> simp

/-- `IOFree(_ptkConf)` and the null: the slot is empty, the object's end is
on the trail. -/
@[simp] theorem view_dropPtkConf (s : Mlme) :
    view (dropPtkConf s) = { view s with
      ptkConf := none
      trail := freed (view s).ptkConf ++ (view s).trail } := by
  rw [dropPtkConf]
  split
  next k h =>
    rw [view_emit_on _ _ rfl]
    simp [view, h, freed]
  next h => simp [view, h, freed]

@[simp] theorem view_dropGtkConf (s : Mlme) :
    view (dropGtkConf s) = { view s with
      gtkConf := none
      trail := freed (view s).gtkConf ++ (view s).trail } := by
  rw [dropGtkConf]
  split
  next k h =>
    rw [view_emit_on _ _ rfl]
    simp [view, h, freed]
  next h => simp [view, h, freed]

@[simp] theorem view_clearKeys (s : Mlme) :
    view (clearKeys s) = { view s with
      ptkConf := none, gtkConf := none, ptk := zeros 64, pn := zeros 6
      trail := freed (view s).gtkConf
        ++ (freed (view s).ptkConf ++ (view s).trail) } := by
  have hzero : ∀ s : Mlme, view (zeroKeys s)
      = { view s with ptk := zeros 64, pn := zeros 6 } := fun _ => rfl
  rw [clearKeys, hzero]
  simp

/-- Without a station there is nothing to release. -/
theorem releaseSta_none {s : Mlme} (h : s.sta = none) : releaseSta s = s := by
  rw [releaseSta, h]

/-- With one, its windows go and it is removed. -/
theorem view_releaseSta_some {s : Mlme} {sta : Sta} (h : s.sta = some sta) :
    view (releaseSta s) = { view s with
      sta := none, txBaActive := false, rxBa := RxBa.empty
      trail := (if s.up then [.staRemove sta.addr] else [])
        ++ (view s).trail } := by
  have hforget : ∀ s : Mlme, view (forgetSta s)
      = { view s with sta := none, txBaActive := false } := fun _ => rfl
  rw [releaseSta, h]
  simp only [view_rxBaTeardownAll, hforget]
  cases hup : s.up <;> simp [view_emit, Obs.onTrail]

/-- The scan list outlives keys and station. -/
theorem bssList_releaseSta_clearKeys (s : Mlme) :
    (releaseSta (clearKeys s)).bssList = s.bssList := by
  have hkeys := congrArg Link.entries (view_clearKeys s)
  cases hsta : (clearKeys s).sta with
  | none =>
      rw [releaseSta_none hsta]
      exact hkeys
  | some sta =>
      exact (congrArg Link.entries (view_releaseSta_some hsta)).trans hkeys

/-- The next address to hand out. -/
@[simp] theorem view_bumpAddr (s : Mlme) :
    view s.bumpAddr = { view s with next := (view s).next + 1 } := rfl

@[simp] theorem view_setPtkConf (k : KeyConf) (s : Mlme) :
    view (setPtkConf k s)
      = { view s with ptkConf := some k, pn := zeros 6 } := rfl

@[simp] theorem view_setGtkConf (k : KeyConf) (s : Mlme) :
    view (setGtkConf k s) = { view s with gtkConf := some k } := rfl

@[simp] theorem view_setTxBa (b : Bool) (s : Mlme) :
    view (setTxBa b s) = { view s with txBaActive := b } := rfl

-- ============================================================ transmission

/-- A transmission is off the trail. -/
@[simp] theorem view_txMgmtFrame (frame : List UInt8) (s : Mlme) :
    view (txMgmtFrame env frame s) = view s := by
  rw [txMgmtFrame]
  split <;> simp [Obs.onTrail]

/-- An ADDBA request is one, and a counter. -/
@[simp] theorem view_sendAddbaRequest (tid : UInt8) (s : Mlme) :
    view (sendAddbaRequest hw env tid s) = view s := by
  simp only [sendAddbaRequest, view_txMgmtFrame]
  rfl

@[simp] theorem view_sendAddbaResponse (tid dialog : UInt8)
    (reqParam baTimeout : UInt16) (s : Mlme) :
    view (sendAddbaResponse hw env tid dialog reqParam baTimeout s)
      = view s := by
  simp only [sendAddbaResponse, view_txMgmtFrame]
  rfl

/-- Asking for aggregation is that request. -/
@[simp] theorem view_startTxAggregation (s : Mlme) :
    view (startTxAggregation hw env s) = view s := by
  rw [startTxAggregation]
  split
  · rfl
  · split
    · rfl
    · split
      · rfl
      · split <;> simp

@[simp] theorem view_txNullFunc (powerSave : Bool) (s : Mlme) :
    view (txNullFunc hw env powerSave s) = view s := by
  rw [txNullFunc]
  split
  · rfl
  · split
    · rfl
    · rw [view_emit_off _ _ (by simp [Obs.onTrail])]
      rfl

@[simp] theorem view_txProbeRequest (s : Mlme) :
    view (txProbeRequest hw env s) = view s := by
  rw [txProbeRequest]
  split
  · rfl
  · exact view_txMgmtFrame _ _

@[simp] theorem view_takeSeq (s : Mlme) : view (takeSeq s) = view s := by
  rw [takeSeq]
  split <;> rfl

/-- The counters of a protected frame: the packet number moves. -/
theorem view_txCounters (key : Option KeyConf) (s : Mlme) :
    view (txCounters key s) = if key.isSome
      then { view s with pn := nextPn (view s).pn } else view s := by
  have hpn : ∀ s : Mlme, view (takePn s)
      = { view s with pn := nextPn (view s).pn } := fun _ => rfl
  rw [txCounters]
  split
  · rw [hpn, view_takeSeq]
  · exact view_takeSeq s

/-- A frame that is not protected leaves the link alone. -/
theorem view_txDataFrame_plain {m : List UInt8} {s : Mlme}
    (h : txKey (be16At m 12) s = none) :
    view (txDataFrame hw env m s).2 = view s := by
  rw [txDataFrame]
  split
  · rfl
  · split
    · rfl
    · simp only [h]
      split
      · simp [view_txCounters]
      · simp [view_txCounters, Obs.onTrail]

/-- An answer of the handshake. -/
@[simp] theorem view_sendEAPOLKey (step : Nat) (replay : Bytes 8)
    (install ack mic : Bool) (s : Mlme) :
    view (sendEAPOLKey hw env step replay install ack mic s) = view s := by
  simp only [sendEAPOLKey]
  split
  · rfl
  · refine view_txDataFrame_plain ?_
    rw [(ethernet_reads _ _ _ _).1]
    simp [txKey]

-- ===================================================================== scan

/-- The channel is not part of the link. -/
@[simp] theorem view_setTargetChandef (s : Mlme) :
    view (setTargetChandef hw s) = view s := by
  rw [setTargetChandef]
  split <;> rfl

/-- No scan starts from a link, so none returns to one. -/
theorem restoreConnectedChannel_of_ne {s : Mlme}
    (h : s.scanReturnState ≠ .connected) :
    restoreConnectedChannel hw s = s := by
  rw [restoreConnectedChannel, if_pos]
  simp [h]

/-- Ageing the scan list: only entries go. -/
theorem view_ageBssList (s : Mlme) : view (ageBssList s)
    = { view s with entries := (view s).entries.filter (keepsBss s) } := rfl

@[simp] theorem view_abortScanStart (s : Mlme) :
    view (abortScanStart s) = view s := by
  rw [abortScanStart]
  split
  · rfl
  · split <;> simp [Obs.onTrail]

/-- Leaving a scan for a state: `_state` is written, the other is IDLE. -/
@[simp] theorem view_leaveScan (st : RTW88State) (s : Mlme) :
    view (leaveScan st s) = { view s with state := st, ret := .idle } := rfl

/-- One that could not start is left the same way. -/
@[simp] theorem view_leaveScanning (st : RTW88State) (s : Mlme) :
    view (leaveScanning st s) = { view s with state := st, ret := .idle } :=
  rfl

/-- The channels of a manual scan are not part of the link. -/
@[simp] theorem view_startManualScan (chans : List Channel) (s : Mlme) :
    view (startManualScan chans s) = view s := rfl

@[simp] theorem view_clearManualScan (s : Mlme) :
    view (clearManualScan s) = view s := rfl

@[simp] theorem view_clearManualScanCount (s : Mlme) :
    view (clearManualScanCount s) = view s := rfl

/-- Which channel of a scan is tuned is not part of the link. -/
@[simp] theorem view_setOnHomeChannel (b : Bool) (s : Mlme) :
    view (setOnHomeChannel b s) = view s := rfl

@[simp] theorem view_tuneScanChannel (chan : Channel) (s : Mlme) :
    view (tuneScanChannel hw env chan s) = view s := by
  have hset : view (setScanChandef chan s) = view s := rfl
  rw [tuneScanChannel]
  split <;> simp [hset, Obs.onTrail]

-- ================================================================ handshake

/-- The replay counter of the AP's last message. -/
@[simp] theorem view_setReplayCtr (replay : Bytes 8) (s : Mlme) :
    view (setReplayCtr replay s) = view s := rfl

/-- Message 1 derives the pairwise key it will use; no key is installed. -/
theorem view_handleM1 (data : List UInt8) (s : Mlme) :
    view (handleM1 hw env data s) = { view s with
      ptk := derivePTK hw.prims (view s).pmk (grab data 17 32) env.snonce
        hw.macAddr (view s).target.bssid
      trail := .m1 (grab data 17 32) env.snonce :: (view s).trail } := by
  simp only [handleM1, view_armTimer, view_sendEAPOLKey, view_emit]
  rfl

/-- The M3 mark, and the state. -/
theorem view_finishM3 (s : Mlme) :
    view (finishM3 hw env s) = { view s with
      state := .connected, trail := .m3 (view s).ptk :: (view s).trail } := by
  simp only [finishM3, view_startTxAggregation, view_emit, view_cancelTimer,
    view_setState, view_sendEAPOLKey, Obs.onTrail]
  have hptk : (view (sendEAPOLKey hw env 4 s.replayCtr false false true s)).ptk
      = (view s).ptk := by rw [view_sendEAPOLKey]
  have hptk' : (sendEAPOLKey hw env 4 s.replayCtr false false true s).ptk
      = (view s).ptk := hptk
  simp [hptk']

-- ============================================================== association

/-- The association identifier. -/
@[simp] theorem view_setAid (aid : UInt16) (s : Mlme) :
    view (setAid aid s) = view s := rfl

/-- What the driver is told of the association. -/
theorem view_notifyAssoc (aid : UInt16) (s : Mlme) :
    view (notifyAssoc aid s) = { view s with
      bssAssoc := true, cfgAssoc := true
      trail := .bssInfoChanged true :: (view s).trail } := rfl

/-- What it is told of its end. -/
@[simp] theorem view_clearBssAssoc (s : Mlme) :
    view (clearBssAssoc s) = { view s with bssAssoc := false } := rfl

/-- An attempt begins with the association marked as gone. -/
theorem view_connectSetup (s : Mlme) :
    view (connectSetup hw s) = { view s with bssAssoc := false } := by
  have h : view ((setTargetChandef hw s).emit
      (.connectHwSetup (setTargetChandef hw s).targetBSS.bssid)) = view s := by
    simp [Obs.onTrail]
  rw [← h]
  rfl

-- ==================================================================== power

/-- The power is not part of the link. -/
@[simp] theorem view_setPowered (b : Bool) (s : Mlme) :
    view (setPowered b s) = view s := rfl

@[simp] theorem view_setDown (s : Mlme) :
    view (setDown s) = { view s with up := false } := rfl

@[simp] theorem view_powerOn (s : Mlme) :
    view (powerOn env s).2 = view s := by
  rw [powerOn]
  split
  · rfl
  · split
    · rfl
    · simp only
      split <;> simp [Obs.onTrail]

@[simp] theorem view_powerOff (s : Mlme) : view (powerOff s) = view s := by
  rw [powerOff]
  split
  · rfl
  · rw [view_setPowered]
    split <;> simp [Obs.onTrail]

end Rtw88
