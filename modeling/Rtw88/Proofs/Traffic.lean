/-
What the object transmits.

Every frame handed to the driver is the station's own: a whole header
under its own address, to the target, or a probe request to everyone.
And no event brings out more than its share: an answer takes a frame of
the target in a phase that has one to give, two go out only when an M3
completes the handshake (`transmits_own`).

# The books

`Sends n s t` says that from `s` to `t` at most `n` frames went out, all
of them the object's own, and that the target stayed. It is kept by the
call: one lemma a function, joined by `Sends.trans`, which adds the
bounds up. Most functions send nothing, and `Sends.after` and
`Sends.before` put one of those beside a function that does.

The target has to stay because it says which frames are its own. It is
written by `cmdConnect` alone, and nothing is transmitted on the way
there (`runConnect_silent`).

# The bound of an event

`Sys.mayTransmit` reads the bound off the event and the state before:

- a management frame of the target draws at most one answer, and only
  one that the state expects (`sends_processRxMgmt`);
- a data frame draws answers in the handshake only (`sends_handleEAPOL`):
  an M2, or an M4 with the ADDBA request behind it;
- a stretch of a thread sends the request, null frame or probe that the
  stretch is there for.

None of it depends on how the state came about: `sysStep_traffic` is
about any event in any state, and the run adds nothing to it.
-/
import Rtw88.Proofs.QosData

namespace Rtw88

variable {hw : Hw} {env : Env} {n m : Nat} {s t u : Mlme}

-- =============================================================== vocabulary

/-- A frame of this station's own: a whole header, from its address and
from no distribution system, unfragmented; to `bssid`, or it is a probe
request to everyone. -/
structure OwnFrame (hw : Hw) (bssid : Bytes 6) (frame : List UInt8) :
    Prop where
  header : 24 ≤ frame.length
  source : addr2 frame = hw.macAddr
  outward : frameControl frame &&& fctlFromDs = 0
  whole : seqCtrl frame &&& 0xF = 0
  dest : addr1 frame = bssid
    ∨ addr1 frame = broadcast ∧ frameControl frame = stypeProbeReq

/-- The observation is a frame handed to `ops->tx`. -/
def Obs.isTx : Obs → Bool
  | .tx _ => true
  | _ => false

/-- From `s` to `t` at most `n` frames went out, all its own. -/
def Sends (hw : Hw) (n : Nat) (s t : Mlme) : Prop :=
  t.targetBSS = s.targetBSS ∧ ∃ new, t.log = new ++ s.log
    ∧ (∀ skb, .tx skb ∈ new → OwnFrame hw s.targetBSS.bssid skb.data)
    ∧ new.countP Obs.isTx ≤ n

/-- The answers a management frame of the target can draw: the
association request, an ADDBA request, an ADDBA response. -/
def answersMgmt : RTW88State → Nat
  | .authenticating | .associating | .connected => 1
  | _ => 0

/-- The answers a data frame can draw: an M2, or an M4 and an ADDBA
request. -/
def answersData : RTW88State → Nat
  | .handshaking => 2
  | _ => 0

/-- How many frames an event may bring out. -/
def Sys.mayTransmit (s : Sys) : Event → Nat
  | .rx _ skb =>
      if isMgmt (frameControl skb.mem) then
        if addr3 skb.mem = s.mlme.targetBSS.bssid
        then answersMgmt s.mlme.state else 0
      else answersData s.mlme.state
  | .deliver _ _ => answersData s.mlme.state
  | .cmdDisconnect _ | .cmdPowerOff _ | .resume _ _ | .timer _
  | .output _ _ | .auth _ _ _ | .scan _ _ | .stop _ => 1
  | _ => 0

/-- What the event transmits is its own, and no more than it may. -/
def OwnTraffic (hw : Hw) (s : Sys) (e : Event) : Prop :=
  ∃ new, (sysStep hw s e).mlme.log = new ++ s.mlme.log
    ∧ (∀ skb, .tx skb ∈ new → OwnFrame hw s.mlme.targetBSS.bssid skb.data)
    ∧ new.countP Obs.isTx ≤ s.mayTransmit e

-- =================================================================== frames

/-- A sequence number field carries fragment number zero. -/
theorem seqField_whole (seq : UInt16) : seqField seq &&& 0xF = 0 := by
  apply UInt16.toNat_inj.1
  rw [UInt16.toNat_and, seqField, UInt16.toNat_shiftLeft]
  show _ &&& 2 ^ 4 - 1 = 0
  rw [Nat.and_two_pow_sub_one_eq_mod]
  simp only [UInt16.reduceToNat, Nat.reduceMod, Nat.shiftLeft_eq]
  omega

/-- What stands in the header of a frame. -/
theorem addrs_hdr3addr (fc : UInt16) (a b c : Bytes 6) (seq : UInt16)
    (rest : List UInt8) :
    addr1 (hdr3addr fc a b c seq ++ rest) = a
      ∧ addr2 (hdr3addr fc a b c seq ++ rest) = b := by
  have h4 : (hdr3addr fc a b c seq ++ rest).drop 4
      = a.toList ++ (b.toList ++ (c.toList ++ (le16 seq ++ rest))) := by
    simp only [hdr3addr, List.append_assoc]
    rfl
  have h10 : (hdr3addr fc a b c seq ++ rest).drop (4 + 6)
      = b.toList ++ (c.toList ++ (le16 seq ++ rest)) :=
    drop_add_of_append h4 a.toList_length
  exact ⟨List.Vector.eq _ _ (grab_of_drop h4 a.toList_length),
    List.Vector.eq _ _ (grab_of_drop h10 b.toList_length)⟩

/-- A frame built on our header. -/
theorem ownFrame_hdr3addr {bssid : Bytes 6} {fc : UInt16} (a c : Bytes 6)
    (seq : UInt16) (rest : List UInt8) (hfc : fc &&& fctlFromDs = 0)
    (hdest : a = bssid ∨ a = broadcast ∧ fc = stypeProbeReq) :
    OwnFrame hw bssid
      (hdr3addr fc a hw.macAddr c (seqField seq) ++ rest) where
  header := by simp
  source := (addrs_hdr3addr _ _ _ _ _ _).2
  outward := by rw [frameControl_hdr3addr, hfc]
  whole := by rw [seqCtrl, le16At_hdr3addr, seqField_whole]
  dest := by
    rw [frameControl_hdr3addr, (addrs_hdr3addr _ _ _ _ _ _).1]
    exact hdest

/-- A management frame to the target. -/
theorem ownFrame_mgmtHdr (s : Mlme) (stype seq : UInt16)
    (rest : List UInt8) (h : (ftypeMgmt ||| stype) &&& fctlFromDs = 0) :
    OwnFrame hw s.targetBSS.bssid (mgmtHdr hw stype seq s ++ rest) :=
  ownFrame_hdr3addr _ _ _ _ h (.inl rfl)

/-- A data frame is addressed to the AP, from the station, with no fragment
number. -/
theorem ownFrame_dataFrame (m : List UInt8) (seq : UInt16)
    (key : Option KeyConf) (pn : Bytes 6) (s : Mlme) :
    OwnFrame hw s.targetBSS.bssid (dataFrame hw m seq key pn s) := by
  simp only [dataFrame, List.append_assoc]
  refine ownFrame_hdr3addr _ _ _ _ ?_ (.inl rfl)
  cases htAllowed s <;> cases key.isSome <;> decide

-- ==================================================================== rules

/-- A piece that neither logs nor moves the target sends nothing. -/
theorem Sends.same (hlog : t.log = s.log)
    (htarget : t.targetBSS = s.targetBSS) : Sends hw 0 s t := by
  refine ⟨htarget, [], hlog, fun skb hmem => ?_, Nat.le_refl _⟩
  cases hmem

/-- Doing nothing sends nothing. -/
theorem Sends.refl (s : Mlme) : Sends hw 0 s s := .same rfl rfl

/-- Two pieces in a row send what each sends: the target stayed between them.
-/
theorem Sends.trans (h : Sends hw n s t) (h' : Sends hw m t u) :
    Sends hw (n + m) s u := by
  obtain ⟨htarget, new, hlog, hown, hn⟩ := h
  obtain ⟨htarget', new', hlog', hown', hm⟩ := h'
  refine ⟨htarget'.trans htarget, new' ++ new, ?_, fun skb hmem => ?_, ?_⟩
  · rw [hlog', hlog, List.append_assoc]
  · rcases List.mem_append.1 hmem with hmem | hmem
    · exact htarget ▸ hown' skb hmem
    · exact hown skb hmem
  · rw [List.countP_append]
    omega

theorem Sends.mono (h : Sends hw n s t) (hle : n ≤ m) : Sends hw m s t :=
  ⟨h.1, h.2.imp fun _ hnew => ⟨hnew.1, hnew.2.1, hnew.2.2.trans hle⟩⟩

/-- An observation that is no frame. -/
theorem Sends.quiet (s : Mlme) {o : Obs} (ho : o.isTx = false) :
    Sends hw 0 s (s.emit o) := by
  refine ⟨rfl, [o], rfl, fun skb hmem => ?_, ?_⟩
  · rw [← List.mem_singleton.1 hmem] at ho
    cases ho
  · simp [ho]

/-- One of its own. -/
theorem Sends.tx {skb : TxSkb} (h : OwnFrame hw s.targetBSS.bssid skb.data) :
    Sends hw 1 s (s.emit (.tx skb)) := by
  refine ⟨rfl, [.tx skb], rfl, fun skb' hmem => ?_, le_rfl⟩
  cases List.mem_singleton.1 hmem
  exact h

/-- A call in front that sends nothing, and one behind. -/
theorem Sends.after (h' : Sends hw n t u) (h : Sends hw 0 s t) :
    Sends hw n s u := by
  have htrans := h.trans h'
  rwa [Nat.zero_add] at htrans

/-- A piece that sends, then one that does not. -/
theorem Sends.before (h : Sends hw n s t) (h' : Sends hw 0 t u) :
    Sends hw n s u := h.trans h'

-- ============================================================ keys, station

/-- A frame released is not one transmitted. -/
theorem sends_kfreeSkb (skb : SkBuff) (s : Mlme) :
    Sends hw 0 s (kfreeSkb skb s) := .quiet s rfl

theorem sends_kfreeAll (skbs : List SkBuff) (s : Mlme) :
    Sends hw 0 s (kfreeAll skbs s) := by
  induction skbs generalizing s with
  | nil => exact .refl s
  | cons skb skbs ih =>
      rw [kfreeAll, List.foldl_cons]
      exact (ih _).after (sends_kfreeSkb skb s)

/-- Tearing a reorder window down only releases. -/
theorem sends_rxBaTeardown (tid : Nat) (s : Mlme) :
    Sends hw 0 s (s.rxBaTeardown tid) :=
  (sends_kfreeAll _ _).after (.same rfl rfl)

/-- Tearing all of them down only releases, too. -/
theorem sends_rxBaTeardownAll (s : Mlme) :
    Sends hw 0 s (rxBaTeardownAll s) := by
  rw [rxBaTeardownAll]
  induction List.range kRxBaNumTid generalizing s with
  | nil => exact .refl s
  | cons tid l ih =>
      rw [List.foldl_cons]
      exact (ih _).after (sends_rxBaTeardown tid s)

/-- `disableKey` is a call into the driver that sends nothing. -/
theorem sends_disableKey (k : Option KeyConf) (s : Mlme) :
    Sends hw 0 s (disableKey k s) := by
  cases k with
  | none => exact .refl s
  | some k => exact .quiet s rfl

theorem sends_dropPtkConf (s : Mlme) : Sends hw 0 s (dropPtkConf s) := by
  rw [dropPtkConf]
  split
  · exact (Sends.quiet _ rfl).after (.same rfl rfl)
  · exact .refl s

theorem sends_dropGtkConf (s : Mlme) : Sends hw 0 s (dropGtkConf s) := by
  rw [dropGtkConf]
  split
  · exact (Sends.quiet _ rfl).after (.same rfl rfl)
  · exact .refl s

theorem sends_clearKeys (s : Mlme) : Sends hw 0 s (clearKeys s) := by
  have hoff : Sends hw 0 s (disableKeys s) := by
    rw [disableKeys]
    split
    · exact (sends_disableKey _ _).after (sends_disableKey _ s)
    · exact .refl s
  exact ((hoff.before (sends_dropPtkConf _)).before
    (sends_dropGtkConf _)).before (.same rfl rfl)

/-- Releasing the station, with its windows. -/
theorem sends_releaseSta (s : Mlme) : Sends hw 0 s (releaseSta s) := by
  have hforget : ∀ t : Mlme, Sends hw 0 t (forgetSta t) :=
    fun _ => .same rfl rfl
  have hremove : ∀ addr, Sends hw 0 s
      (if s.up then s.emit (.staRemove addr) else s) := by
    intro addr
    split
    · exact .quiet s rfl
    · exact .refl s
  rw [releaseSta]
  split
  · exact .refl s
  next sta _ =>
    exact (((sends_rxBaTeardownAll _).after (hforget _)).after
      (.quiet _ rfl)).after (hremove sta.addr)

/-- Installing the pairwise key sends nothing on any of its paths. -/
theorem sends_installPairwise (alloc set : Bool) (keyidx : UInt8)
    (cipher : UInt32) (tk : List UInt8) (s : Mlme) :
    Sends hw 0 s (installPairwise alloc set keyidx cipher tk s).2 := by
  have hdrop : Sends hw 0 s (dropPtkConf (disableKey s.ptkConf s)) :=
    (sends_disableKey _ s).before (sends_dropPtkConf _)
  have hbump : ∀ t : Mlme, Sends hw 0 t t.bumpAddr := fun _ => .same rfl rfl
  have hconf : ∀ (k : KeyConf) (t : Mlme), Sends hw 0 t (setPtkConf k t) :=
    fun _ _ => .same rfl rfl
  have hset : ∀ (k : KeyConf) (t : Mlme),
      Sends hw 0 t (t.emit (.setKey k set)) := fun _ t => .quiet t rfl
  rw [installPairwise]
  split
  · exact .refl s
  · split
    · exact hdrop
    · simp only
      split
      · exact (((Sends.quiet _ rfl).after (hset _ _)).after
          (hbump _)).after hdrop
      · exact (((hconf _ _).after (hset _ _)).after (hbump _)).after hdrop

/-- Installing the group key sends nothing either. -/
theorem sends_installGroup (alloc set : Bool) (keyidx : UInt8)
    (cipher : UInt32) (tk : List UInt8) (s : Mlme) :
    Sends hw 0 s (installGroup alloc set keyidx cipher tk s).2 := by
  have hdrop : Sends hw 0 s (dropGtkConf (disableKey s.gtkConf s)) :=
    (sends_disableKey _ s).before (sends_dropGtkConf _)
  have hbump : ∀ t : Mlme, Sends hw 0 t t.bumpAddr := fun _ => .same rfl rfl
  have hconf : ∀ (k : KeyConf) (t : Mlme), Sends hw 0 t (setGtkConf k t) :=
    fun _ _ => .same rfl rfl
  have hset : ∀ (k : KeyConf) (t : Mlme),
      Sends hw 0 t (t.emit (.setKey k set)) := fun _ t => .quiet t rfl
  rw [installGroup]
  split
  · exact .refl s
  · split
    · exact hdrop
    · simp only
      split
      · exact (((Sends.quiet _ rfl).after (hset _ _)).after
          (hbump _)).after hdrop
      · exact (((hconf _ _).after (hset _ _)).after (hbump _)).after hdrop

-- ============================================================ transmission

/-- A management frame of its own. -/
theorem sends_txMgmtFrame {frame : List UInt8}
    (h : OwnFrame hw s.targetBSS.bssid frame) :
    Sends hw 1 s (txMgmtFrame env frame s) := by
  rw [txMgmtFrame]
  split
  · exact (Sends.refl s).mono (Nat.zero_le 1)
  · exact .tx h

/-- An ADDBA request is one frame. -/
theorem sends_sendAddbaRequest (tid : UInt8) (s : Mlme) :
    Sends hw 1 s (sendAddbaRequest hw env tid s) := by
  simp only [sendAddbaRequest]
  refine Sends.after (sends_txMgmtFrame ?_) (.same rfl rfl)
  simp only [List.append_assoc]
  exact ownFrame_mgmtHdr s _ _ _ (by decide)

theorem sends_sendAddbaResponse (tid dialog : UInt8)
    (reqParam baTimeout : UInt16) (s : Mlme) :
    Sends hw 1 s
      (sendAddbaResponse hw env tid dialog reqParam baTimeout s) := by
  rw [sendAddbaResponse]
  refine Sends.after (sends_txMgmtFrame ?_) (.same rfl rfl)
  simp only [addbaResponse, List.append_assoc]
  exact ownFrame_mgmtHdr s _ _ _ (by decide)

/-- Asking for aggregation sends at most the one request. -/
theorem sends_startTxAggregation (s : Mlme) :
    Sends hw 1 s (startTxAggregation hw env s) := by
  have hnone : Sends hw 1 s s := (Sends.refl s).mono (Nat.zero_le 1)
  rw [startTxAggregation]
  split
  · exact hnone
  · split
    · exact hnone
    · split
      · exact hnone
      · split
        · exact hnone
        · exact sends_sendAddbaRequest _ s

/-- A packet becomes at most one frame. -/
theorem sends_txDataFrame (m : List UInt8) (s : Mlme) :
    Sends hw 1 s (txDataFrame hw env m s).2 := by
  have hnone : Sends hw 1 s s := (Sends.refl s).mono (Nat.zero_le 1)
  have hcount : ∀ key, Sends hw 0 s (txCounters key s) := by
    have hseq : Sends hw 0 s (takeSeq s) := by
      rw [takeSeq]
      split <;> exact .same rfl rfl
    intro key
    rw [txCounters]
    split
    · exact hseq.before (.same rfl rfl)
    · exact hseq
  rw [txDataFrame]
  split
  · exact hnone
  · split
    · exact hnone
    · simp only
      split
      · exact (hcount _).mono (Nat.zero_le 1)
      · exact (Sends.tx (ownFrame_dataFrame _ _ _ _ _)).after (hcount _)

/-- Behind its gate, `outputPacket` is `txDataFrame`. -/
theorem sends_outputPacket (m : List UInt8) (s : Mlme) :
    Sends hw 1 s (outputPacket hw env m s).2 := by
  rw [outputPacket]
  split
  · exact (Sends.refl s).mono (Nat.zero_le 1)
  · exact sends_txDataFrame m s

/-- An answer of the handshake is one packet. -/
theorem sends_sendEAPOLKey (step : Nat) (replay : Bytes 8)
    (install ack mic : Bool) (s : Mlme) :
    Sends hw 1 s (sendEAPOLKey hw env step replay install ack mic s) := by
  simp only [sendEAPOLKey]
  split
  · exact (Sends.refl s).mono (Nat.zero_le 1)
  · exact sends_txDataFrame _ s

/-- A null-data frame goes to the AP. -/
theorem sends_txNullFunc (powerSave : Bool) (s : Mlme) :
    Sends hw 1 s (txNullFunc hw env powerSave s) := by
  have hnone : Sends hw 1 s s := (Sends.refl s).mono (Nat.zero_le 1)
  rw [txNullFunc]
  split
  · exact hnone
  · split
    · exact hnone
    · refine Sends.after (.tx ?_) (.same rfl rfl)
      rw [← List.append_nil (hdr3addr _ _ _ _ _)]
      refine ownFrame_hdr3addr _ _ _ _ ?_ (.inl rfl)
      cases powerSave <;> decide

/-- A probe request is the one frame that is broadcast. -/
theorem sends_txProbeRequest (s : Mlme) :
    Sends hw 1 s (txProbeRequest hw env s) := by
  rw [txProbeRequest]
  split
  · exact (Sends.refl s).mono (Nat.zero_le 1)
  · refine Sends.after (sends_txMgmtFrame ?_) (.same rfl rfl)
    simp only [List.append_assoc]
    exact ownFrame_hdr3addr _ _ _ _ (by decide) (.inr ⟨rfl, by decide⟩)

-- ==================================================================== scans

theorem sends_restoreConnectedChannel (s : Mlme) :
    Sends hw 0 s (restoreConnectedChannel hw s) := by
  have htarget : Sends hw 0 s (setTargetChandef hw s) := by
    rw [setTargetChandef]
    split
    · exact .same rfl rfl
    · exact .refl s
  have hvif : ∀ (v : Vif) (t : Mlme), Sends hw 0 t { t with vif := v } :=
    fun _ _ => .same rfl rfl
  rw [restoreConnectedChannel]
  split
  · exact .refl s
  · exact ((hvif _ _).after (.quiet _ rfl)).after htarget

/-- A visit to the link's channel announces itself with one null-data frame.
-/
theorem sends_visitHome (powerSave : Bool) (s : Mlme) :
    Sends hw 1 s (visitHome hw env powerSave s) :=
  (sends_txNullFunc powerSave _).after (sends_restoreConnectedChannel s)

/-- A beacon is read and released. -/
theorem sends_processScanResult (skb : SkBuff) (s : Mlme) :
    Sends hw 0 s (processScanResult env skb s) := by
  have hlist : ∀ (l : List RTW88BSS) (n : Nat) (t : Mlme),
      Sends hw 0 t { t with bssList := l, bssCount := n } :=
    fun _ _ _ => .same rfl rfl
  rw [processScanResult]
  split
  · exact sends_kfreeSkb skb s
  · simp only
    split
    · exact (sends_kfreeSkb skb _).after (hlist _ s.bssCount s)
    · exact (sends_kfreeSkb skb _).after (hlist _ _ s)

/-- The end of a scan only tunes back. -/
theorem sends_scanDone (aborted : Bool) (s : Mlme) :
    Sends hw 0 s (scanDone hw aborted s) := by
  have hage : Sends hw 0 s (if aborted then s else ageBssList s) := by
    split
    · exact .refl s
    · exact .same rfl rfl
  have hleave : ∀ (st : RTW88State) (t : Mlme),
      Sends hw 0 t (leaveScan st t) := fun _ _ => .same rfl rfl
  rw [scanDone]
  generalize (if aborted then s else ageBssList s) = t at hage
  split
  · exact hage
  · refine (Sends.after (hleave _ _) ?_).after hage
    split
    · exact sends_restoreConnectedChannel t
    · exact .refl t

/-- Asking a scan to stop sends nothing. -/
theorem sends_abortScanStart (s : Mlme) :
    Sends hw 0 s (abortScanStart s) := by
  rw [abortScanStart]
  split
  · exact .same rfl rfl
  · split
    · exact .quiet s rfl
    · exact .refl s

/-- What follows the wait for a scan sends nothing. -/
theorem sends_abortScanFinish (returnState : RTW88State) (s : Mlme) :
    Sends hw 0 s (abortScanFinish hw returnState s).2 := by
  have hleave : ∀ (st : RTW88State) (t : Mlme),
      Sends hw 0 t (leaveScan st (clearManualScanCount t)) :=
    fun _ _ => .same rfl rfl
  rw [abortScanFinish]
  split
  · exact .refl s
  · split
    · exact .refl s
    · refine Sends.after (hleave _ _) ?_
      split
      · exact sends_restoreConnectedChannel s
      · exact .refl s

/-- Starting a scan sends nothing: its frames are the scan thread's. -/
theorem sends_cmdScan (s : Mlme) : Sends hw 0 s (cmdScan hw env s).2.2 := by
  have hgen : Sends hw 0 s (nextGeneration s) := by
    simp only [nextGeneration]
    split <;> exact .same rfl rfl
  have hscan : ∀ ret : RTW88State, Sends hw 0 s
      { nextGeneration s with scanReturnState := ret, state := .scanning } :=
    fun _ => Sends.after (.same rfl rfl) hgen
  have hleave : ∀ (st : RTW88State) (t : Mlme),
      Sends hw 0 t (leaveScanning st t) := fun _ _ => .same rfl rfl
  have hstart : ∀ (chans : List Channel) (t : Mlme),
      Sends hw 0 t (startManualScan chans t) := fun _ _ => .same rfl rfl
  have harm : ∀ (ms : Nat) (t : Mlme), Sends hw 0 t (t.armTimer ms) :=
    fun _ _ => .same rfl rfl
  simp only [cmdScan]
  split
  · exact .refl s
  · split
    · exact .refl s
    · split
      · exact (hleave _ _).after (hscan _)
      · split
        · exact (hstart _ _).after (hscan _)
        · split
          · exact ((hstart _ _).after (.quiet _ rfl)).after (hscan _)
          · exact ((harm _ _).after (.quiet _ rfl)).after (hscan _)

/-- A stretch of the manual scan thread: a null frame or a probe. -/
theorem sends_runManualScan (pc : ScanPc) (s : Mlme) :
    Sends hw 1 s (runManualScan hw env pc s).2 := by
  have hnone : Sends hw 1 s s := (Sends.refl s).mono (Nat.zero_le 1)
  have hhome : ∀ (b : Bool) (t : Mlme), Sends hw 0 t (setOnHomeChannel b t) :=
    fun _ _ => .same rfl rfl
  have htune : ∀ (chan : Channel) (t : Mlme),
      Sends hw 1 t (tuneScanChannel hw env chan t) := by
    intro chan t
    have hchan : Sends hw 0 t
        ((setScanChandef chan t).emit .swScanSwitchChannel) :=
      (Sends.quiet _ rfl).after (.same rfl rfl)
    rw [tuneScanChannel]
    split
    · exact hchan.mono (Nat.zero_le 1)
    · exact (sends_txProbeRequest _).after hchan
  have hend : ∀ (connectedScan : Bool),
      Sends hw 1 s (endManualScan hw env connectedScan s) := by
    intro connectedScan
    have hoff : Sends hw 0 s
        ((setOnHomeChannel false s).emit .swScanComplete) :=
      (Sends.quiet _ rfl).after (hhome false s)
    have hclear : ∀ t : Mlme, Sends hw 0 t (clearManualScan t) :=
      fun _ => .same rfl rfl
    rw [endManualScan]
    refine (Sends.before ?_ (sends_scanDone _ _)).before (hclear _)
    split
    · exact (sends_visitHome false _).after hoff
    · exact hoff.mono (Nat.zero_le 1)
  cases pc with
  | entry =>
      simp only [runManualScan]
      split
      · have hclear : ∀ t : Mlme, Sends hw 0 t (clearManualScanCount t) :=
          fun _ => .same rfl rfl
        exact ((hclear _).after (sends_scanDone true s)).mono (Nat.zero_le 1)
      · exact (Sends.quiet s rfl).mono (Nat.zero_le 1)
  | chan i count connectedScan =>
      simp only [runManualScan]
      split
      · split
        · exact hnone
        · split
          · exact (sends_visitHome true _).after (hhome false s)
          · exact (htune _ _).after (hhome false s)
      · exact hend connectedScan
  | leave chan i count => exact htune chan s
  | dwell i count connectedScan =>
      simp only [runManualScan]
      split
      · exact (sends_visitHome false s).before (hhome true _)
      · exact hnone

-- ================================================================ handshake

/-- An M1 draws an M2. -/
theorem sends_handleM1 (data : List UInt8) (s : Mlme) :
    Sends hw 1 s (handleM1 hw env data s) := by
  have htake : Sends hw 0 s (takeM1 hw env data s) := .same rfl rfl
  have harm : ∀ (ms : Nat) (t : Mlme), Sends hw 0 t (t.armTimer ms) :=
    fun _ _ => .same rfl rfl
  exact ((sends_sendEAPOLKey _ _ _ _ _ _).after
    (htake.before (.quiet _ rfl))).before (harm _ _)

/-- An M3 that is taken draws an M4 and an ADDBA request. -/
theorem sends_finishM3 (s : Mlme) : Sends hw 2 s (finishM3 hw env s) := by
  have hstate : ∀ (st : RTW88State) (t : Mlme), Sends hw 0 t (t.setState st) :=
    fun _ _ => .same rfl rfl
  have hcancel : ∀ t : Mlme, Sends hw 0 t t.cancelTimer :=
    fun _ => .same rfl rfl
  rw [finishM3]
  exact (((((sends_sendEAPOLKey _ _ _ _ _ _).before (hstate _ _)).before
    (.quiet _ rfl)).before (hcancel _)).before (.quiet _ rfl)).trans
      (sends_startTxAggregation _)

/-- Message 3 draws message 4 and, once the link is up, an ADDBA request. -/
theorem sends_acceptM3 (data keyData : List UInt8) (s : Mlme) :
    Sends hw 2 s (acceptM3 hw env data keyData s) := by
  have hreplay : Sends hw 0 s (setReplayCtr (grab data 9 8) s) :=
    .same rfl rfl
  have hgtk : ∀ t : Mlme, Sends hw 2 t (acceptGtk hw env keyData t) := by
    intro t
    rw [acceptGtk]
    split
    · exact sends_finishM3 t
    next gtk idx _ =>
      split
      · exact sends_finishM3 t
      · have hgroup := @sends_installGroup hw env.groupAlloc env.groupSet idx
          (groupCipher t) gtk t
        simp only
        split
        · exact hgroup.mono (Nat.zero_le 2)
        · exact (sends_finishM3 _).after hgroup
  simp only [acceptM3]
  have hpair := (@sends_installPairwise hw env.pairwiseAlloc env.pairwiseSet 0
    cipherCcmp (tkOf (setReplayCtr (grab data 9 8) s).ptk).toList _).after
      hreplay
  split
  · exact hpair.mono (Nat.zero_le 2)
  · exact (hgtk _).after hpair

/-- An EAPOL frame draws two frames at most. -/
theorem sends_handleEAPOL (data : List UInt8) (s : Mlme) :
    Sends hw 2 s (handleEAPOL hw env data s) := by
  have hnone : Sends hw 2 s s := (Sends.refl s).mono (Nat.zero_le 2)
  rw [handleEAPOL]
  split
  · exact hnone
  · split
    · exact (sends_handleM1 data s).mono (by decide)
    · split
      · split
        · exact hnone
        · exact sends_acceptM3 data _ s
      · exact hnone

-- ================================================================== receive

theorem sends_doAssociate (s : Mlme) :
    Sends hw 1 s (doAssociate hw env s) := by
  have hbehind : ∀ (st : RTW88State) (ms : Nat) (t : Mlme),
      Sends hw 0 t ((t.setState st).armTimer ms) := fun _ _ _ => .same rfl rfl
  rw [doAssociate]
  split
  · exact (Sends.refl s).mono (Nat.zero_le 1)
  · have hown : OwnFrame hw (buildAssocReq hw s).2.targetBSS.bssid
        (buildAssocReq hw s).1 := by
      simp only [buildAssocReq, List.append_assoc]
      exact ownFrame_mgmtHdr s _ _ _ (by decide)
    have hseq : Sends hw 0 s (buildAssocReq hw s).2 := .same rfl rfl
    exact ((sends_txMgmtFrame hown).after hseq).before (hbehind _ _ _)

/-- An open link asks for aggregation at once. -/
theorem sends_enterLink (s : Mlme) : Sends hw 1 s (enterLink hw env s) := by
  have hstate : ∀ (st : RTW88State) (t : Mlme), Sends hw 0 t (t.setState st) :=
    fun _ _ => .same rfl rfl
  have hpmk : ∀ (ms : Nat) (t : Mlme),
      Sends hw 0 t ((setPmk hw t).armTimer ms) := fun _ _ => .same rfl rfl
  have hcancel : ∀ t : Mlme, Sends hw 0 t t.cancelTimer :=
    fun _ => .same rfl rfl
  rw [enterLink]
  split
  · exact (((hpmk _ _).after (hstate _ _)).after (.quiet s rfl)).mono
      (Nat.zero_le 1)
  · exact ((((sends_startTxAggregation _).before (hcancel _)).after
      (.quiet _ rfl)).after (hstate _ _)).after (.quiet s rfl)

/-- Adding the station sends nothing. -/
theorem sends_addSta (aid : UInt16) (s : Mlme) :
    Sends hw 0 s (addSta hw env aid s) := by
  rw [addSta]
  split
  · exact .refl s
  · exact (Sends.quiet _ rfl).after (.same rfl rfl)

/-- Telling the driver of the association sends nothing. -/
theorem sends_notifyAssoc (aid : UInt16) (s : Mlme) :
    Sends hw 0 s (notifyAssoc aid s) := by
  rw [notifyAssoc]
  exact (Sends.quiet _ rfl).after (.same rfl rfl)

/-- An association response counts only if it is the target's. -/
theorem sends_processAssocResponse (skb : SkBuff) (s : Mlme) :
    Sends hw (if addr3 skb.mem = s.targetBSS.bssid then 1 else 0) s
      (processAssocResponse hw env skb s) := by
  have haid : ∀ (aid : UInt16) (t : Mlme), Sends hw 0 t (setAid aid t) :=
    fun _ _ => .same rfl rfl
  have hstate : ∀ (st : RTW88State) (t : Mlme), Sends hw 0 t (t.setState st) :=
    fun _ _ => .same rfl rfl
  have hfree := @sends_kfreeSkb hw skb s
  generalize hn : (if addr3 skb.mem = s.targetBSS.bssid then 1 else 0) = n
  rw [processAssocResponse]
  split
  · exact hfree.mono (Nat.zero_le n)
  next htarget =>
    rw [if_pos (not_not.1 htarget)] at hn
    rw [← hn]
    simp only
    split
    · exact ((hstate _ _).after hfree).mono (Nat.zero_le 1)
    · split
      · exact ((hstate _ _).after hfree).mono (Nat.zero_le 1)
      · exact ((((sends_enterLink _).after (sends_notifyAssoc _ _)).after
          (sends_addSta _ _)).after (haid _ _)).after hfree

/-- A block-ack action frame draws at most one response. -/
theorem sends_handleBackAction (b : List UInt8) (s : Mlme) :
    Sends hw 1 s (handleBackAction hw env b s) := by
  have hnone : Sends hw 1 s s := (Sends.refl s).mono (Nat.zero_le 1)
  have hsetup : ∀ tid ssn bufsize,
      Sends hw 0 s (s.rxBaSetup env tid ssn bufsize) :=
    fun _ _ _ => (sends_kfreeAll _ _).after (.same rfl rfl)
  have hflag : ∀ (f : Bool) (t : Mlme), Sends hw 0 t (setTxBa f t) :=
    fun _ _ => .same rfl rfl
  rw [handleBackAction]
  split
  · exact hnone
  · split
    · split
      · exact hnone
      · exact (sends_sendAddbaResponse _ _ _ _ _).after (hsetup _ _ _)
    · split
      · split
        · exact hnone
        · simp only
          split
          · exact (hflag true s).mono (Nat.zero_le 1)
          · exact hnone
      · split
        · split
          · exact hnone
          · simp only
            refine Sends.mono ?_ (Nat.zero_le 1)
            split
            · exact sends_rxBaTeardown _ _ |>.after (by
                split
                · exact hflag false s
                · exact .refl s)
            · split
              · exact hflag false s
              · exact .refl s
        · exact hnone

/-- A management frame is answered if it is the target's, once at most. -/
theorem sends_processRxMgmt (skb : SkBuff) (s : Mlme) :
    Sends hw (if addr3 skb.mem = s.targetBSS.bssid then answersMgmt s.state
      else 0) s (processRxMgmt hw env skb s) := by
  have hdrop : ∀ n, Sends hw n s (kfreeSkb skb s) :=
    fun n => (sends_kfreeSkb skb s).mono (Nat.zero_le n)
  have hfree : ∀ t : Mlme, Sends hw 0 t (kfreeSkb skb t) :=
    fun t => sends_kfreeSkb skb t
  have hidle : ∀ n, Sends hw n s (kfreeSkb skb (s.setState .idle)) :=
    fun n => ((hfree _).after (.same rfl rfl)).mono (Nat.zero_le n)
  generalize hn : (if addr3 skb.mem = s.targetBSS.bssid
    then answersMgmt s.state else 0) = n
  simp only [processRxMgmt]
  split
  · split
    · exact (sends_processScanResult skb s).mono (Nat.zero_le _)
    · exact hdrop _
  · split
    · -- authentication
      split
      · exact hdrop _
      next hstate =>
        split
        · exact hdrop _
        next htarget =>
          have hassoc : Sends hw n s
              (kfreeSkb skb (doAssociate hw env s)) := by
            rw [if_pos (not_not.1 htarget), not_not.1 hstate] at hn
            rw [← hn]
            exact (sends_doAssociate s).before (hfree _)
          split
          · exact hassoc
          · split
            · exact hassoc
            · exact hidle _
    · split
      · -- association
        split
        next hstate =>
          rw [hstate] at hn
          rw [← hn]
          exact sends_processAssocResponse skb s
        · exact hdrop _
      · split
        · -- deauthentication
          split
          · split
            · exact hdrop _
            · have hleave : Sends hw 0 s (leaveOnDeauth s) := by
                have hflag : ∀ t : Mlme, Sends hw 0 t (setTxBa false t) :=
                  fun _ => .same rfl rfl
                have hset : ∀ t : Mlme, Sends hw 0 t t.setIdle :=
                  fun _ => .same rfl rfl
                exact (((sends_clearKeys s).before (hflag _)).before
                  (sends_rxBaTeardownAll _)).before (hset _) |>.before
                    (.quiet _ rfl)
              exact ((hfree _).after hleave).mono (Nat.zero_le _)
          · exact hdrop _
        · split
          · -- BlockAck
            split
            next hback =>
              rw [if_pos hback.2.2.2, hback.1] at hn
              rw [← hn]
              exact (sends_handleBackAction _ s).before (hfree _)
            · exact hdrop _
          · exact hdrop _

/-- What goes to the stack does not go on the air. -/
theorem sends_deliverEthernet (pos : Nat) (f : EthFrame) (s : Mlme) :
    Sends hw 0 s (deliverEthernet env pos f s) := by
  rw [deliverEthernet]
  split
  · exact .quiet s rfl
  · exact .refl s

/-- A data frame is answered in the handshake only. -/
theorem sends_deliverDataFrame (skb : SkBuff) (s : Mlme) :
    Sends hw (answersData s.state) s (deliverDataFrame hw env skb s) := by
  have hall : ∀ (l : List (Nat × EthFrame)) (t : Mlme),
      Sends hw 0 t (l.foldl (fun t m => deliverEthernet env m.1 m.2 t) t) := by
    intro l
    induction l with
    | nil => exact .refl
    | cons m l ih =>
        exact fun t => (ih _).after (sends_deliverEthernet m.1 m.2 t)
  have hfree : ∀ t : Mlme, Sends hw 0 t (kfreeSkb skb t) :=
    fun t => sends_kfreeSkb skb t
  rw [deliverDataFrame]
  split
  · exact (hfree s).mono (Nat.zero_le _)
  · exact ((hall _ s).before (hfree _)).mono (Nat.zero_le _)
  · split
    next heapol =>
      rw [heapol.2]
      exact (sends_handleEAPOL _ s).before (hfree _)
    · exact ((sends_deliverEthernet 0 _ s).before (hfree _)).mono
        (Nat.zero_le _)

/-- Whatever is received draws the answers of its kind and of the state, no
more. -/
theorem sends_rxFrame (skb : SkBuff) (s : Mlme) :
    Sends hw (if isMgmt (frameControl skb.mem) then
        if addr3 skb.mem = s.targetBSS.bssid then answersMgmt s.state else 0
      else answersData s.state) s (rxFrame hw env skb s).1 := by
  have hfree := @sends_kfreeSkb hw skb s
  simp only [rxFrame]
  split
  · exact sends_processRxMgmt skb s
  · split
    · rw [processRxData]
      split
      · exact hfree.mono (Nat.zero_le _)
      · split
        · exact ((sends_kfreeAll _ _).after (.same rfl rfl)).mono
            (Nat.zero_le _)
        · exact sends_deliverDataFrame skb s
    · exact hfree.mono (Nat.zero_le _)

-- ================================================================= commands

/-- `doDisconnect` says goodbye. -/
theorem sends_doDisconnect (s : Mlme) :
    Sends hw 1 s (doDisconnect hw env s) := by
  have hidle : ∀ t : Mlme, Sends hw 0 t t.setIdle := fun _ => .same rfl rfl
  have hcancel : ∀ t : Mlme, Sends hw 0 t t.cancelTimer :=
    fun _ => .same rfl rfl
  have hclear : ∀ t : Mlme, Sends hw 0 t (clearBssAssoc t) :=
    fun _ => .same rfl rfl
  have hbye : ∀ t : Mlme, Sends hw 1 t (txMgmtFrame env (deauthFrame hw t) t) :=
    fun t => sends_txMgmtFrame
      (ownFrame_hdr3addr _ _ 0 _ (by decide) (.inl rfl))
  rw [doDisconnect]
  split
  · exact (hidle s).mono (Nat.zero_le 1)
  · exact ((((((hbye _).after (sends_clearKeys s)).before (hclear _)).before
      (.quiet _ rfl)).before (sends_releaseSta _)).before
        ((hcancel _).after (hidle _))).before (.quiet _ rfl)

/-- Starting the hardware sends nothing. -/
theorem sends_powerOn (s : Mlme) : Sends hw 0 s (powerOn env s).2 := by
  have hpower : ∀ (b : Bool) (t : Mlme), Sends hw 0 t (setPowered b t) :=
    fun _ _ => .same rfl rfl
  rw [powerOn]
  split
  · exact .refl s
  · split
    · exact .refl s
    · simp only
      split
      · exact .quiet s rfl
      · exact (hpower _ _).after (.quiet s rfl)

theorem sends_powerOff (s : Mlme) : Sends hw 0 s (powerOff s) := by
  have hpower : ∀ (b : Bool) (t : Mlme), Sends hw 0 t (setPowered b t) :=
    fun _ _ => .same rfl rfl
  rw [powerOff]
  split
  · exact .refl s
  · refine Sends.after (hpower _ _) ?_
    split
    · exact .quiet s rfl
    · exact .refl s

/-- What follows the wait of `cmdPowerOff` may leave the link first. -/
theorem sends_finishPowerOff (s : Mlme) :
    Sends hw 1 s (finishPowerOff hw env s) := by
  have hidle : ∀ t : Mlme, Sends hw 0 t t.setIdle := fun _ => .same rfl rfl
  have hleave : Sends hw 1 s (if s.state = .connected
      ∨ s.state = .authenticating ∨ s.state = .associating
      ∨ s.state = .handshaking then doDisconnect hw env s
      else releaseSta (clearKeys s)) := by
    split
    · exact sends_doDisconnect s
    · exact ((sends_releaseSta _).after (sends_clearKeys s)).mono
        (Nat.zero_le 1)
  exact ((hleave.before (sends_powerOff _)).before (hidle _)).before
    (.quiet _ rfl)

/-- A stretch of `doAuthenticate`: the authentication request. -/
theorem sends_doAuthenticate (scanning : Bool) (pc : AuthPc) (s : Mlme) :
    Sends hw 1 s (doAuthenticate hw env scanning pc s).2 := by
  have hnone : Sends hw 1 s s := (Sends.refl s).mono (Nat.zero_le 1)
  cases pc with
  | entry => simp only [doAuthenticate]; split <;> exact hnone
  | waitScan i => simp only [doAuthenticate]; split <;> exact hnone
  | settle =>
      simp only [doAuthenticate]
      split
      · exact hnone
      · have htarget : Sends hw 0 s (setTargetChandef hw s) := by
          rw [setTargetChandef]
          split
          · exact .same rfl rfl
          · exact .refl s
        have hvif : ∀ (v : Vif) (t : Mlme), Sends hw 0 t { t with vif := v } :=
          fun _ _ => .same rfl rfl
        exact (((hvif _ _).after (.quiet _ rfl)).after htarget).mono
          (Nat.zero_le 1)
  | transmit =>
      have hown : OwnFrame hw (buildAuthReq hw s).2.targetBSS.bssid
          (buildAuthReq hw s).1 := ownFrame_mgmtHdr s _ _ _ (by decide)
      have hseq : Sends hw 0 s (buildAuthReq hw s).2 := .same rfl rfl
      exact (sends_txMgmtFrame hown).after hseq
  | finish =>
      have hwrite : Sends hw 0 s ((s.setState .authenticating).armTimer 3000) :=
        .same rfl rfl
      exact hwrite.mono (Nat.zero_le 1)

/-- A timeout sends at most the retry. -/
theorem sends_onTimer (s : Mlme) : Sends hw 1 s (onTimer hw env s).2 := by
  have hleave : ∀ (st : RTW88State) (t : Mlme),
      Sends hw 0 t (leaveScanning st t) := fun _ _ => .same rfl rfl
  have hstate : ∀ (st : RTW88State) (t : Mlme), Sends hw 0 t (t.setState st) :=
    fun _ _ => .same rfl rfl
  have hnone : Sends hw 1 s s := (Sends.refl s).mono (Nat.zero_le 1)
  rw [onTimer]
  split
  · split
    · exact (sends_abortScanStart s).mono (Nat.zero_le 1)
    · refine Sends.mono ?_ (Nat.zero_le 1)
      simp only
      refine ((hleave _ _).after ?_).after (sends_abortScanStart s)
      split
      · exact sends_restoreConnectedChannel _
      · exact .refl _
  · exact hnone
  · exact (hstate _ s).mono (Nat.zero_le 1)
  · exact sends_doDisconnect s
  · exact hnone

/-- `stop` leaves the link as a disconnect does. -/
theorem sends_stop (s : Mlme) : Sends hw 1 s (stop hw env s) := by
  have hidle : ∀ t : Mlme, Sends hw 0 t t.setIdle := fun _ => .same rfl rfl
  have hdown : ∀ t : Mlme, Sends hw 0 t (setDown t) := fun _ => .same rfl rfl
  have hpower : ∀ (b : Bool) (t : Mlme), Sends hw 0 t (setPowered b t) :=
    fun _ _ => .same rfl rfl
  have hcancel : Sends hw 0 s s.cancelTimer := .same rfl rfl
  have hleave : ∀ (p : Prop) [Decidable p] (t : Mlme), Sends hw 1 t
      (if p then doDisconnect hw env t else releaseSta (clearKeys t)) := by
    intro p _ t
    split
    · exact sends_doDisconnect t
    · exact ((sends_releaseSta _).after (sends_clearKeys t)).mono
        (Nat.zero_le 1)
  have hoff : ∀ t : Mlme, Sends hw 0 t (if !t.up then t
      else (if t.powered then setPowered false (t.emit .hwStop)
        else t).emit .removeInterface) := by
    intro t
    split
    · exact .refl t
    · refine Sends.after (.quiet _ rfl) ?_
      split
      · exact (hpower _ _).after (.quiet t rfl)
      · exact .refl t
  exact ((((hleave _ _).after hcancel).before (hoff _)).before
    (hidle _)).before (hdown _)

-- =================================================================== events

/-- A piece whose bound is the event's is the event's own traffic. -/
theorem Sends.traffic {s : Sys} {e : Event}
    (h : Sends hw n s.mlme (sysStep hw s e).mlme)
    (hle : n ≤ s.mayTransmit e) : OwnTraffic hw s e :=
  (h.mono hle).2

/-- A `cmdConnect` takes a new target, and transmits nothing. -/
theorem runConnect_silent (hw : Hw) (ssid : Option (List UInt8))
    (password : List UInt8) (s : Sys) :
    ∃ new, (runConnect ssid password s).mlme.log = new ++ s.mlme.log
      ∧ new.countP Obs.isTx = 0 := by
  have hmlme : (runConnect ssid password s).mlme
      = (connectTo ssid password s.mlme).2.2 := by
    simp only [runConnect]
    split <;> rfl
  rw [hmlme]
  simp only [connectTo]
  split
  · exact ⟨[], rfl, rfl⟩
  · split
    · exact ⟨[], rfl, rfl⟩
    next ssid =>
      have hleave : Sends hw 0 s.mlme (releaseSta (clearKeys s.mlme)) :=
        (sends_releaseSta _).after (sends_clearKeys s.mlme)
      obtain ⟨-, new, hlog, -, hnone⟩ := hleave
      have hnone := Nat.le_zero.1 hnone
      split
      · exact ⟨new, hlog, hnone⟩
      next target _ =>
        refine ⟨.connecting target ((cStr password).take 63) :: new, ?_, ?_⟩
        · rw [List.cons_append, ← hlog]
          rfl
        · rw [List.countP_cons, hnone]
          rfl

/-- Nothing is transmitted on the way to a `cmdConnect`. -/
private theorem traffic_connect {s t : Sys} {e : Event}
    (h : Sends hw 0 s.mlme t.mlme) (ssid : Option (List UInt8))
    (password : List UInt8)
    (he : (sysStep hw s e).mlme = (runConnect ssid password t).mlme) :
    OwnTraffic hw s e := by
  obtain ⟨-, new, hlog, -, hnone⟩ := h
  obtain ⟨new', hlog', hnone'⟩ := runConnect_silent hw ssid password t
  have hcount : (new' ++ new).countP Obs.isTx = 0 := by
    rw [List.countP_append, hnone', Nat.le_zero.1 hnone]
  refine ⟨new' ++ new, ?_, fun skb hmem => ?_, ?_⟩
  · rw [he, hlog', hlog, List.append_assoc]
  · exact absurd rfl (List.countP_eq_zero.1 hcount _ hmem)
  · rw [hcount]
    exact Nat.zero_le _

/-- What any event transmits in any state. -/
theorem sysStep_traffic (s : Sys) (e : Event) : OwnTraffic hw s e := by
  have hquiet : ∀ {t : Mlme} (n : Nat), Sends hw 0 s.mlme t →
      Sends hw n s.mlme t := fun n h => h.mono (Nat.zero_le n)
  cases e with
  | cmdScan env => exact (sends_cmdScan s.mlme).traffic (Nat.zero_le _)
  | cmdConnect ssid password =>
      by_cases hscan : s.mlme.state = .scanning
      · refine Sends.traffic (n := 0) ?_ (Nat.zero_le _)
        simp only [sysStep, if_pos hscan]
        exact sends_abortScanStart s.mlme
      · refine traffic_connect (.refl _) ssid password ?_
        simp only [sysStep, if_neg hscan]
  | cmdDisconnect env =>
      refine Sends.traffic (n := 1) ?_ (Nat.le_refl _)
      simp only [sysStep, cmdDisconnect]
      split
      · exact hquiet 1 (.refl _)
      · exact sends_doDisconnect s.mlme
  | cmdPowerOn env =>
      refine Sends.traffic (n := 0) ?_ (Nat.zero_le _)
      simp only [sysStep, cmdPowerOn]
      split
      · exact (Sends.same rfl rfl).after (sends_powerOn s.mlme)
      · exact sends_powerOn s.mlme
  | cmdPowerOff env =>
      refine Sends.traffic (n := 1) ?_ (Nat.le_refl _)
      simp only [sysStep]
      split
      · exact hquiet 1 (sends_abortScanStart s.mlme)
      · exact sends_finishPowerOff s.mlme
  | resume i env =>
      cases hi : s.waiters[i]? with
      | none =>
          refine Sends.traffic (n := 0) ?_ (Nat.zero_le _)
          simp only [sysStep, resumeWait, hi]
          exact .refl _
      | some w =>
          by_cases hwait : w.turn < 40 ∧ s.mlme.state = .scanning
          · refine Sends.traffic (n := 0) ?_ (Nat.zero_le _)
            simp only [sysStep, resumeWait, hi, if_pos hwait]
            exact .refl _
          · obtain ⟨cmd, ret, turn⟩ := w
            have hback := @sends_abortScanFinish hw ret s.mlme
            cases cmd with
            | powerOff =>
                refine Sends.traffic (n := 1) ?_ (Nat.le_refl _)
                simp only [sysStep, resumeWait, hi, if_neg hwait, runWaiter]
                exact (sends_finishPowerOff _).after hback
            | connect ssid password =>
                by_cases hok : (abortScanFinish hw ret s.mlme).1 = true
                · refine traffic_connect (t := { s with
                      mlme := (abortScanFinish hw ret s.mlme).2
                      waiters := s.waiters.eraseIdx i }) hback ssid password ?_
                  simp only [sysStep, resumeWait, hi, if_neg hwait, runWaiter,
                    if_pos hok]
                · refine Sends.traffic (n := 0) ?_ (Nat.zero_le _)
                  simp only [sysStep, resumeWait, hi, if_neg hwait, runWaiter,
                    if_neg hok]
                  exact hback
  | powerOn env => exact (sends_powerOn s.mlme).traffic (Nat.zero_le _)
  | powerOff => exact (sends_powerOff s.mlme).traffic (Nat.zero_le _)
  | rx env skb =>
      have hfile : ∀ (p : Option Pending) (t : Sys),
          (addPending p t).mlme = t.mlme := by
        intro p t
        cases p <;> rfl
      refine Sends.traffic ?_ (Nat.le_refl _)
      simp only [sysStep, hfile]
      exact sends_rxFrame skb s.mlme
  | deliver i env =>
      refine Sends.traffic (n := answersData s.mlme.state) ?_ (Nat.le_refl _)
      simp only [sysStep, deliverNext]
      split
      · exact hquiet _ (.refl _)
      · split
        · simp only
          split
          · exact hquiet _ (.same rfl rfl)
          · exact hquiet _ (.refl _)
        · exact sends_deliverDataFrame _ s.mlme
  | scanDone aborted =>
      exact (sends_scanDone aborted s.mlme).traffic (Nat.zero_le _)
  | timer env =>
      have hcancel : Sends hw 0 s.mlme s.mlme.cancelTimer := .same rfl rfl
      refine Sends.traffic (n := 1) ?_ (Nat.le_refl _)
      simp only [sysStep, fireTimer]
      split
      · exact hquiet 1 (.refl _)
      · split <;> exact (sends_onTimer _).after hcancel
  | reorderTimer =>
      refine Sends.traffic (n := 0) ?_ (Nat.zero_le _)
      simp only [sysStep, fireReorderTimer]
      split
      · exact .refl _
      · exact .same rfl rfl
  | output env m => exact (sends_outputPacket m s.mlme).traffic (Nat.le_refl _)
  | auth i env scanning =>
      refine Sends.traffic (n := 1) ?_ (Nat.le_refl _)
      simp only [sysStep, stepAuth]
      split
      · exact hquiet 1 (.refl _)
      · exact sends_doAuthenticate scanning _ s.mlme
  | scan i env =>
      refine Sends.traffic (n := 1) ?_ (Nat.le_refl _)
      simp only [sysStep, stepScan]
      split
      · exact hquiet 1 (.refl _)
      · exact sends_runManualScan _ s.mlme
  | stop env => exact (sends_stop s.mlme).traffic (Nat.le_refl _)

/-- In every run, whatever is received and in whatever order the threads
run: the object transmits under its own address only, to its target, or
probes; a received frame brings out an answer only in a phase that has
one to give and, a management frame, only if it is the target's; nothing
brings out more than one frame, but an M3 two. -/
theorem transmits_own (powered : Bool) (es : List Event) :
    Along (sysStep hw) (OwnTraffic hw) (Sys.init powered) es :=
  Along.of_forall sysStep_traffic _ es

end Rtw88
