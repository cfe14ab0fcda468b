/-
Who writes the fields of scans, those of the manual scan and the scan
list: `cmdScan`, the beacons of a scan, the end of a scan, and whoever
asks a manual scan to stop. Everything else leaves them.

One equation a function, as in Proofs/Link/View.lean; all are simp
lemmas, so a later proof that meets such a call drops it.

`scanPart` is the fields of the manual scan and those of the list in one
record, because the same functions leave both, and a function that writes
one of them mostly leaves the other. The two results that need only a
half take it off the equation (`manual_eq`, `listPart_eq`): the manual
scan's in Proofs/ManualScan/Frame.lean, the list's in
Proofs/Ageing.lean.
-/
import Rtw88.Spec.Ageing
import Rtw88.Spec.ManualScan

namespace Rtw88

variable {hw : Hw} {env : Env}

/-- The fields of the scan list: entries, count, generation. -/
def listPart (s : Mlme) : List RTW88BSS × Nat × UInt32 :=
  (s.bssList, s.bssCount, s.scanGeneration)

/-- The fields of scans. -/
def scanPart (s : Mlme) :
    (List Channel × Nat × Bool) × List RTW88BSS × Nat × UInt32 :=
  (manual s, listPart s)

/-- The manual scan's half of `scanPart`. -/
theorem manual_eq {s t : Mlme} (h : scanPart s = scanPart t) :
    manual s = manual t := congrArg Prod.fst h

/-- The list's half. -/
theorem listPart_eq {s t : Mlme} (h : scanPart s = scanPart t) :
    listPart s = listPart t := congrArg Prod.snd h

-- =============================================================== log, timer

/-- An observation is no field of a scan. -/
@[simp] theorem scanPart_emit (s : Mlme) (o : Obs) :
    scanPart (s.emit o) = scanPart s := rfl

/-- The timer belongs to the attempt and to the scan's deadline; neither is a
field here. -/
@[simp] theorem scanPart_armTimer (s : Mlme) (ms : Nat) :
    scanPart (s.armTimer ms) = scanPart s := rfl

/-- Cancelling the timer is no end of a scan. -/
@[simp] theorem scanPart_cancelTimer (s : Mlme) :
    scanPart s.cancelTimer = scanPart s := rfl

/-- A move of `_state` starts and ends no scan by itself. -/
@[simp] theorem scanPart_setState (s : Mlme) (st : RTW88State) :
    scanPart (s.setState st) = scanPart s := rfl

/-- The move to IDLE ends none either. -/
@[simp] theorem scanPart_setIdle (s : Mlme) : scanPart s.setIdle = scanPart s := rfl

/-- Releasing a frame leaves the list, whose entries are copies. -/
@[simp] theorem scanPart_kfreeSkb (skb : SkBuff) (s : Mlme) :
    scanPart (kfreeSkb skb s) = scanPart s := rfl

/-- Releasing several leaves it too. -/
@[simp] theorem scanPart_kfreeAll (skbs : List SkBuff) (s : Mlme) :
    scanPart (kfreeAll skbs s) = scanPart s := by
  induction skbs generalizing s with
  | nil => rfl
  | cons skb skbs ih => exact (ih (kfreeSkb skb s)).trans rfl

-- ========================================================== keys and station

/-- A reorder window holds data frames, and no entry of the list. -/
@[simp] theorem scanPart_rxBaTeardown (tid : Nat) (s : Mlme) :
    scanPart (s.rxBaTeardown tid) = scanPart s := by
  rw [Mlme.rxBaTeardown, scanPart_kfreeAll]
  rfl

@[simp] theorem scanPart_rxBaTeardownAll (s : Mlme) :
    scanPart (rxBaTeardownAll s) = scanPart s := by
  rw [rxBaTeardownAll]
  generalize List.range kRxBaNumTid = l
  induction l generalizing s with
  | nil => rfl
  | cons tid l ih => exact (ih (s.rxBaTeardown tid)).trans (by simp)

/-- Keys are no part of a scan: disabling one leaves it. -/
@[simp] theorem scanPart_disableKey (k : Option KeyConf) (s : Mlme) :
    scanPart (disableKey k s) = scanPart s := by
  cases k <;> rfl

@[simp] theorem scanPart_disableKeys (s : Mlme) :
    scanPart (disableKeys s) = scanPart s := by
  rw [disableKeys]
  split <;> simp

@[simp] theorem scanPart_dropPtkConf (s : Mlme) :
    scanPart (dropPtkConf s) = scanPart s := by
  rw [dropPtkConf]
  split <;> rfl

@[simp] theorem scanPart_dropGtkConf (s : Mlme) :
    scanPart (dropGtkConf s) = scanPart s := by
  rw [dropGtkConf]
  split <;> rfl

@[simp] theorem scanPart_clearKeys (s : Mlme) :
    scanPart (clearKeys s) = scanPart s := by
  have hzero : ∀ t : Mlme, scanPart (zeroKeys t) = scanPart t := fun _ => rfl
  simp [clearKeys, hzero]

/-- The station and its windows are no part of a scan. -/
@[simp] theorem scanPart_releaseSta (s : Mlme) :
    scanPart (releaseSta s) = scanPart s := by
  have hforget : ∀ t : Mlme, scanPart (forgetSta t) = scanPart t := fun _ => rfl
  rw [releaseSta]
  split
  · rfl
  · simp only [scanPart_rxBaTeardownAll, hforget, scanPart_emit]
    split <;> rfl

/-- Installing the pairwise key leaves a scan, on each of its paths. -/
@[simp] theorem scanPart_installPairwise (alloc set : Bool) (keyidx : UInt8)
    (cipher : UInt32) (tk : List UInt8) (s : Mlme) :
    scanPart (installPairwise alloc set keyidx cipher tk s).2 = scanPart s := by
  have hset : ∀ (k : KeyConf) (t : Mlme),
      scanPart (setPtkConf k t) = scanPart t := fun _ _ => rfl
  have hbump : ∀ t : Mlme, scanPart t.bumpAddr = scanPart t := fun _ => rfl
  rw [installPairwise]
  split
  · rfl
  · split
    · simp
    · simp only
      split <;> simp [hset, hbump]

/-- Installing the group key leaves it, on each of its own. -/
@[simp] theorem scanPart_installGroup (alloc set : Bool) (keyidx : UInt8)
    (cipher : UInt32) (tk : List UInt8) (s : Mlme) :
    scanPart (installGroup alloc set keyidx cipher tk s).2 = scanPart s := by
  have hset : ∀ (k : KeyConf) (t : Mlme),
      scanPart (setGtkConf k t) = scanPart t := fun _ _ => rfl
  have hbump : ∀ t : Mlme, scanPart t.bumpAddr = scanPart t := fun _ => rfl
  rw [installGroup]
  split
  · rfl
  · split
    · simp
    · simp only
      split <;> simp [hset, hbump]

-- ================================================================= transmit

/-- A management frame is sent or dropped, and no scan is asked. -/
@[simp] theorem scanPart_txMgmtFrame (frame : List UInt8) (s : Mlme) :
    scanPart (txMgmtFrame env frame s) = scanPart s := by
  rw [txMgmtFrame]
  split <;> rfl

@[simp] theorem scanPart_sendAddbaRequest (tid : UInt8) (s : Mlme) :
    scanPart (sendAddbaRequest hw env tid s) = scanPart s := by
  rw [sendAddbaRequest, scanPart_txMgmtFrame]
  rfl

@[simp] theorem scanPart_sendAddbaResponse (tid dialog : UInt8)
    (reqParam baTimeout : UInt16) (s : Mlme) :
    scanPart (sendAddbaResponse hw env tid dialog reqParam baTimeout s)
      = scanPart s := by
  rw [sendAddbaResponse, scanPart_txMgmtFrame]
  rfl

/-- Asking for aggregation sends a frame and counts tokens. -/
@[simp] theorem scanPart_startTxAggregation (s : Mlme) :
    scanPart (startTxAggregation hw env s) = scanPart s := by
  rw [startTxAggregation]
  split
  · rfl
  · split
    · rfl
    · split
      · rfl
      · split
        · rfl
        · exact scanPart_sendAddbaRequest _ _

/-- The counters of a data frame are its own. -/
@[simp] theorem scanPart_txCounters (key : Option KeyConf) (s : Mlme) :
    scanPart (txCounters key s) = scanPart s := by
  have hseq : scanPart (takeSeq s) = scanPart s := by
    rw [takeSeq]
    split <;> rfl
  rw [txCounters]
  split
  · exact hseq
  · exact hseq

/-- A data frame is sent or dropped. -/
@[simp] theorem scanPart_txDataFrame (m : List UInt8) (s : Mlme) :
    scanPart (txDataFrame hw env m s).2 = scanPart s := by
  rw [txDataFrame]
  split
  · rfl
  · split
    · rfl
    · simp only
      split
      · exact scanPart_txCounters _ _
      · exact scanPart_txCounters _ _

/-- The gate of `outputPacket` reads the state of a scan and writes none. -/
@[simp] theorem scanPart_outputPacket (m : List UInt8) (s : Mlme) :
    scanPart (outputPacket hw env m s).2 = scanPart s := by
  rw [outputPacket]
  split
  · rfl
  · exact scanPart_txDataFrame m s

/-- A null-data frame: the scan sends it, but no field of the scan says so.
-/
@[simp] theorem scanPart_txNullFunc (powerSave : Bool) (s : Mlme) :
    scanPart (txNullFunc hw env powerSave s) = scanPart s := by
  rw [txNullFunc]
  split
  · rfl
  · split <;> rfl

/-- The probe request of a scan leaves no mark either. -/
@[simp] theorem scanPart_txProbeRequest (s : Mlme) :
    scanPart (txProbeRequest hw env s) = scanPart s := by
  rw [txProbeRequest]
  split
  · rfl
  · exact scanPart_txMgmtFrame _ _

/-- An answer of the handshake is a data frame. -/
@[simp] theorem scanPart_sendEAPOLKey (step : Nat) (replay : Bytes 8)
    (install ack mic : Bool) (s : Mlme) :
    scanPart (sendEAPOLKey hw env step replay install ack mic s)
      = scanPart s := by
  simp only [sendEAPOLKey]
  split
  · rfl
  · exact scanPart_txDataFrame _ _

-- ==================================================================== scans

/-- Tuning back to the link's channel moves the channel in use only. -/
@[simp] theorem scanPart_restoreConnectedChannel (s : Mlme) :
    scanPart (restoreConnectedChannel hw s) = scanPart s := by
  rw [restoreConnectedChannel]
  split
  · rfl
  · rw [setTargetChandef]
    split <;> rfl

/-- A visit to that channel between two scanned ones is a tuning and a frame.
-/
@[simp] theorem scanPart_visitHome (powerSave : Bool) (s : Mlme) :
    scanPart (visitHome hw env powerSave s) = scanPart s := by
  rw [visitHome, scanPart_txNullFunc, scanPart_restoreConnectedChannel]

/-- The end of a scan ages the list, unless it was aborted. -/
theorem scanPart_scanDone (aborted : Bool) (s : Mlme) :
    scanPart (scanDone hw aborted s)
      = scanPart (if aborted then s else ageBssList s) := by
  have hleave : ∀ (st : RTW88State) (t : Mlme),
      scanPart (leaveScan st t) = scanPart t := fun _ _ => rfl
  rw [scanDone]
  generalize (if aborted then s else ageBssList s) = t
  split
  · rfl
  · rw [hleave]
    split
    · exact scanPart_restoreConnectedChannel t
    · rfl

/-- A wait that is over clears the count only where it is zero. -/
@[simp] theorem scanPart_abortScanFinish (returnState : RTW88State)
    (s : Mlme) : scanPart (abortScanFinish hw returnState s).2 = scanPart s := by
  rw [abortScanFinish]
  split
  · rfl
  · split
    · rfl
    next hcount =>
      have hclear : ∀ t : Mlme, scanPart t = scanPart s →
          scanPart (leaveScan returnState (clearManualScanCount t))
            = scanPart s := by
        intro t ht
        have hzero : t.manualScanChannelCount = 0 :=
          (congrArg (fun m => m.1.2.1) ht).trans (not_not.1 hcount)
        rw [← ht]
        show ((t.manualScanChannels, 0, t.manualScanAbort), listPart t) = _
        rw [scanPart, manual, hzero]
      refine hclear _ ?_
      split
      · exact scanPart_restoreConnectedChannel s
      · rfl

-- ================================================================ handshake

/-- Message 1 writes the keys of the handshake. -/
@[simp] theorem scanPart_handleM1 (data : List UInt8) (s : Mlme) :
    scanPart (handleM1 hw env data s) = scanPart s := by
  rw [handleM1, scanPart_armTimer, scanPart_sendEAPOLKey]
  rfl

@[simp] theorem scanPart_finishM3 (s : Mlme) :
    scanPart (finishM3 hw env s) = scanPart s := by
  simp [finishM3]

@[simp] theorem scanPart_acceptGtk (keyData : List UInt8) (s : Mlme) :
    scanPart (acceptGtk hw env keyData s) = scanPart s := by
  rw [acceptGtk]
  split
  · exact scanPart_finishM3 s
  · split
    · exact scanPart_finishM3 s
    · simp only
      split <;> simp

/-- Message 3 installs keys and moves the state. -/
@[simp] theorem scanPart_acceptM3 (data keyData : List UInt8) (s : Mlme) :
    scanPart (acceptM3 hw env data keyData s) = scanPart s := by
  have hset : ∀ (r : Bytes 8) (t : Mlme),
      scanPart (setReplayCtr r t) = scanPart t := fun _ _ => rfl
  simp only [acceptM3]
  split <;> simp [hset]

/-- So no EAPOL frame touches a scan. -/
@[simp] theorem scanPart_handleEAPOL (data : List UInt8) (s : Mlme) :
    scanPart (handleEAPOL hw env data s) = scanPart s := by
  rw [handleEAPOL]
  split
  · rfl
  · split
    · exact scanPart_handleM1 data s
    · split
      · split
        · rfl
        · exact scanPart_acceptM3 data _ s
      · rfl

-- ================================================================== receive

/-- The association request moves the state and the timer. -/
@[simp] theorem scanPart_doAssociate (s : Mlme) :
    scanPart (doAssociate hw env s) = scanPart s := by
  rw [doAssociate]
  split
  · rfl
  · rw [scanPart_armTimer, scanPart_setState, scanPart_txMgmtFrame]
    rfl

/-- Entering the link moves them too. -/
@[simp] theorem scanPart_enterLink (s : Mlme) :
    scanPart (enterLink hw env s) = scanPart s := by
  have hpmk : ∀ t : Mlme, scanPart (setPmk hw t) = scanPart t := fun _ => rfl
  rw [enterLink]
  split <;> simp [hpmk]

/-- The association response leaves a scan, on each of its paths. -/
@[simp] theorem scanPart_processAssocResponse (skb : SkBuff) (s : Mlme) :
    scanPart (processAssocResponse hw env skb s) = scanPart s := by
  have hadd : ∀ (aid : UInt16) (t : Mlme),
      scanPart (addSta hw env aid t) = scanPart t := by
    intro aid t
    rw [addSta]
    split <;> rfl
  have hnotify : ∀ (aid : UInt16) (t : Mlme),
      scanPart (notifyAssoc aid t) = scanPart t := fun _ _ => rfl
  have haid : ∀ (aid : UInt16) (t : Mlme),
      scanPart (setAid aid t) = scanPart t := fun _ _ => rfl
  rw [processAssocResponse]
  split
  · rfl
  · simp only
    split
    · rfl
    · split
      · rfl
      · rw [scanPart_enterLink, hnotify, hadd, haid, scanPart_kfreeSkb]

/-- The answer to an ADDBA request is noted elsewhere. -/
@[simp] theorem scanPart_setTxBa (b : Bool) (s : Mlme) :
    scanPart (setTxBa b s) = scanPart s := rfl

/-- A reorder window that is set up is no part of a scan. -/
@[simp] theorem scanPart_rxBaSetup (tid ssn bufsize : Nat) (s : Mlme) :
    scanPart (s.rxBaSetup env tid ssn bufsize) = scanPart s := by
  rw [Mlme.rxBaSetup, scanPart_kfreeAll]
  rfl

/-- So no block-ack action frame touches one. -/
@[simp] theorem scanPart_handleBackAction (b : List UInt8) (s : Mlme) :
    scanPart (handleBackAction hw env b s) = scanPart s := by
  rw [handleBackAction]
  split
  · rfl
  · split
    · split
      · rfl
      · simp
    · split
      · split
        · rfl
        · simp only
          split <;> rfl
      · split
        · split
          · rfl
          · simp only
            split <;> split <;> simp
        · rfl

/-- A deauthentication in a link ends no scan. -/
@[simp] theorem scanPart_leaveOnDeauth (s : Mlme) :
    scanPart (leaveOnDeauth s) = scanPart s := by
  simp [leaveOnDeauth]

/-- Of the management frames only the beacons and probe responses of a scan
reach the list. -/
theorem scanPart_processRxMgmt (skb : SkBuff) (s : Mlme) :
    scanPart (processRxMgmt hw env skb s)
      = if scanReply skb s then scanPart (processScanResult env skb s)
        else scanPart s := by
  by_cases hbeacon : frameControl skb.mem &&& 0x00f0 = 0x0080
      ∨ frameControl skb.mem &&& 0x00f0 = 0x0050
  · by_cases hscan : s.state = .scanning
    · have hreply : scanReply skb s := ⟨hbeacon, hscan⟩
      simp only [processRxMgmt]
      rw [if_pos hreply, if_pos hbeacon, if_pos hscan]
    · have hno : ¬ scanReply skb s := fun h => hscan h.2
      simp only [processRxMgmt]
      rw [if_neg hno, if_pos hbeacon, if_neg hscan]
      rfl
  · have hno : ¬ scanReply skb s := fun h => hbeacon h.1
    simp only [processRxMgmt]
    rw [if_neg hno, if_neg hbeacon]
    split
    · split
      · rfl
      · split
        · rfl
        · split
          · simp
          · split
            · simp
            · rfl
    · split
      · split
        · exact scanPart_processAssocResponse skb s
        · rfl
      · split
        · split
          · split
            · rfl
            · simp
          · rfl
        · split
          · split
            · simp
            · rfl
          · rfl

/-- A frame delivered to the stack is a copy. -/
@[simp] theorem scanPart_deliverEthernet (pos : Nat) (f : EthFrame)
    (s : Mlme) : scanPart (deliverEthernet env pos f s) = scanPart s := by
  rw [deliverEthernet]
  split <;> rfl

/-- A data frame leaves a scan, on each of its paths. -/
@[simp] theorem scanPart_deliverDataFrame (skb : SkBuff) (s : Mlme) :
    scanPart (deliverDataFrame hw env skb s) = scanPart s := by
  have hall : ∀ (l : List (Nat × EthFrame)) (t : Mlme),
      scanPart (l.foldl (fun t m => deliverEthernet env m.1 m.2 t) t)
        = scanPart t := by
    intro l
    induction l with
    | nil => exact fun _ => rfl
    | cons m l ih =>
        exact fun t => (ih _).trans (scanPart_deliverEthernet m.1 m.2 t)
  rw [deliverDataFrame]
  split
  · rfl
  · exact hall _ s
  · split
    · exact scanPart_handleEAPOL _ s
    · exact scanPart_deliverEthernet _ _ s

/-- Of all received frames only those management frames do. -/
theorem scanPart_rxFrame (skb : SkBuff) (s : Mlme) :
    scanPart (rxFrame hw env skb s).1
      = if isMgmt (frameControl skb.mem) = true ∧ scanReply skb s
        then scanPart (processScanResult env skb s) else scanPart s := by
  have hdata : scanPart (processRxData hw env skb s).1 = scanPart s := by
    rw [processRxData]
    split
    · rfl
    · split
      · exact scanPart_kfreeAll _ _
      · exact scanPart_deliverDataFrame skb s
  cases hmgmt : isMgmt (frameControl skb.mem) with
  | true =>
      simp only [rxFrame, hmgmt, if_true, true_and]
      exact scanPart_processRxMgmt skb s
  | false =>
      simp only [rxFrame, hmgmt, Bool.false_eq_true, false_and, if_false]
      split
      · exact hdata
      · rfl

-- ================================================================= commands

/-- Leaving a link ends no scan. -/
@[simp] theorem scanPart_doDisconnect (s : Mlme) :
    scanPart (doDisconnect hw env s) = scanPart s := by
  have hclear : ∀ t : Mlme, scanPart (clearBssAssoc t) = scanPart t :=
    fun _ => rfl
  rw [doDisconnect]
  split
  · rfl
  · simp [hclear]

/-- The command to leave it does no more. -/
@[simp] theorem scanPart_cmdDisconnect (s : Mlme) :
    scanPart (cmdDisconnect hw env s).2 = scanPart s := by
  rw [cmdDisconnect]
  split
  · rfl
  · exact scanPart_doDisconnect s

/-- Starting the hardware starts no scan. -/
@[simp] theorem scanPart_powerOn (s : Mlme) :
    scanPart (powerOn env s).2 = scanPart s := by
  rw [powerOn]
  split
  · rfl
  · split
    · rfl
    · simp only
      split <;> rfl

/-- The command to do so starts none either. -/
@[simp] theorem scanPart_cmdPowerOn (s : Mlme) :
    scanPart (cmdPowerOn env s).2 = scanPart s := by
  simp only [cmdPowerOn]
  split
  · exact scanPart_powerOn s
  · exact scanPart_powerOn s

/-- Stopping the hardware ends none: what was to end was ended before. -/
@[simp] theorem scanPart_powerOff (s : Mlme) :
    scanPart (powerOff s) = scanPart s := by
  rw [powerOff]
  split
  · rfl
  · split <;> rfl

/-- So what follows the wait of `cmdPowerOff` leaves the list as it is. -/
@[simp] theorem scanPart_finishPowerOff (s : Mlme) :
    scanPart (finishPowerOff hw env s) = scanPart s := by
  simp only [finishPowerOff]
  split <;> simp

/-- `connectTo` reads the list and writes the target. -/
@[simp] theorem scanPart_connectTo (ssid : Option (List UInt8))
    (password : List UInt8) (s : Mlme) :
    scanPart (connectTo ssid password s).2.2 = scanPart s := by
  have htarget : ∀ (b : RTW88BSS) (pw : List UInt8) (t : Mlme),
      scanPart (setTarget b pw t) = scanPart t := fun _ _ _ => rfl
  simp only [connectTo]
  split
  · rfl
  · split
    · rfl
    · split <;> simp [htarget]

/-- What `doAuthenticate` sets up first is the target's. -/
@[simp] theorem scanPart_connectSetup (s : Mlme) :
    scanPart (connectSetup hw s) = scanPart s := by
  have hvif : ∀ (t : Mlme) (v : Vif),
      scanPart { t with vif := v } = scanPart t := fun _ _ => rfl
  unfold connectSetup
  rw [hvif, scanPart_emit, setTargetChandef]
  split <;> rfl

/-- Every stretch of `doAuthenticate` leaves a scan alone. -/
@[simp] theorem scanPart_doAuthenticate (scanning : Bool) (pc : AuthPc)
    (s : Mlme) : scanPart (doAuthenticate hw env scanning pc s).2
      = scanPart s := by
  cases pc with
  | entry =>
      simp only [doAuthenticate]
      split <;> rfl
  | waitScan i =>
      simp only [doAuthenticate]
      split <;> rfl
  | settle =>
      simp only [doAuthenticate]
      split
      · rfl
      · exact scanPart_connectSetup s
  | transmit => exact scanPart_txMgmtFrame _ _
  | finish => rfl

/-- `stop` keeps the list. -/
@[simp] theorem scanPart_stop (s : Mlme) :
    scanPart (stop hw env s) = scanPart s := by
  have hdown : ∀ t : Mlme, scanPart (setDown t) = scanPart t := fun _ => rfl
  have hpower : ∀ (b : Bool) (t : Mlme), scanPart (setPowered b t) = scanPart t :=
    fun _ _ => rfl
  have hend : ∀ t : Mlme, scanPart (if !t.up then t
      else (if t.powered then setPowered false (t.emit .hwStop)
        else t).emit .removeInterface) = scanPart t := by
    intro t
    split
    · rfl
    · rw [scanPart_emit]
      split <;> rfl
  rw [stop, hdown, scanPart_setIdle, hend]
  split
  · simp
  · simp

end Rtw88
