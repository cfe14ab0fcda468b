/-
What each function of the source does to the control side: one equation a
function, `ctl (f s) = …` in terms of `ctl s`.

Most functions do nothing to it, and their equations are simp lemmas, so
that a proof about a function that calls several of them unfolds that
function and no other.

# Frames

The control side keeps the dialog tokens of the ADDBA requests that went
out for `_baTid`, so that a response that nobody asked for can be told
apart. So a frame that goes out matters, but only when it is such a
request. The first byte of every other frame says that it is not
(`addbaToken_of_peek`), and that byte is read off the header that the
frame is built on (`peek_hdr3addr`, `peek_dataFrame`). An ADDBA response
begins with the same byte, and is told apart by its action code.
-/
import Rtw88.Spec.Control
import Rtw88.Proofs.Link.View

namespace Rtw88

variable {hw : Hw} {env : Env}

-- =================================================================== frames

/-- The first byte of a frame built on a three-address header. -/
theorem peek_hdr3addr (fc : UInt16) (a b c : Bytes 6) (seq : UInt16)
    (rest : List UInt8) :
    peek (hdr3addr fc a b c seq ++ rest) 0 = fc.toUInt8 := by
  simp [hdr3addr, le16, peek]

/-- A frame that does not begin like an action frame asks for nothing. -/
theorem addbaToken_of_peek {skb : TxSkb} (h : peek skb.data 0 ≠ 0xD0) :
    Obs.addbaToken (.tx skb) = none := by
  rw [Obs.addbaToken, if_neg]
  exact fun hall => h hall.1

/-- What stands behind the header of a frame. -/
theorem peek_behind_hdr (fc : UInt16) (a b c : Bytes 6) (seq : UInt16)
    (rest : List UInt8) (i : Nat) :
    peek (hdr3addr fc a b c seq ++ rest) (24 + i) = peek rest i := by
  rw [peek_append_right (by simp)]
  simp

-- =============================================================== log, fields

/-- An observation that neither reports the link nor asks for anything. -/
theorem ctl_emit_quiet (s : Mlme) {o : Obs} (hlink : o.linkStatus = none)
    (hask : o.addbaToken = none) : ctl (s.emit o) = ctl s := by
  simp only [ctl, Mlme.emit, List.findSome?_cons, hlink,
    List.filterMap_cons, hask]

/-- A request for uplink aggregation. -/
theorem ctl_emit_request (s : Mlme) {o : Obs} {d : UInt8}
    (hlink : o.linkStatus = none) (hask : o.addbaToken = some d) :
    ctl (s.emit o) = { ctl s with asked := d :: (ctl s).asked } := by
  simp only [ctl, Mlme.emit, List.findSome?_cons, hlink,
    List.filterMap_cons, hask]

/-- The status reported is `link`. -/
@[simp] theorem ctl_setLinkStatus (s : Mlme) (b : Bool) :
    ctl (s.emit (.setLinkStatus b)) = { ctl s with link := some b } := by
  simp only [ctl, Mlme.emit, List.findSome?_cons, List.filterMap_cons]
  rfl

@[simp] theorem ctl_armTimer (s : Mlme) (ms : Nat) :
    ctl (s.armTimer ms) = { ctl s with timer := some ms } := rfl

@[simp] theorem ctl_cancelTimer (s : Mlme) :
    ctl s.cancelTimer = { ctl s with timer := none } := rfl

@[simp] theorem ctl_setState (s : Mlme) (st : RTW88State) :
    ctl (s.setState st) = { ctl s with state := st } := rfl

@[simp] theorem ctl_setIdle (s : Mlme) :
    ctl s.setIdle = { ctl s with state := .idle } := rfl

/-- The answer to an ADDBA request. -/
@[simp] theorem ctl_setTxBa (b : Bool) (s : Mlme) :
    ctl (setTxBa b s) = { ctl s with txBa := b } := rfl

@[simp] theorem ctl_setPowered (b : Bool) (s : Mlme) :
    ctl (setPowered b s) = { ctl s with powered := b } := rfl

@[simp] theorem ctl_setDown (s : Mlme) :
    ctl (setDown s) = { ctl s with up := false } := rfl

/-- A frame released is not seen. -/
@[simp] theorem ctl_kfreeSkb (skb : SkBuff) (s : Mlme) :
    ctl (kfreeSkb skb s) = ctl s := ctl_emit_quiet s rfl rfl

@[simp] theorem ctl_kfreeAll (skbs : List SkBuff) (s : Mlme) :
    ctl (kfreeAll skbs s) = ctl s := by
  induction skbs generalizing s with
  | nil => rfl
  | cons skb skbs ih =>
      rw [kfreeAll, List.foldl_cons]
      exact (ih _).trans (ctl_kfreeSkb skb s)

-- ============================================================ keys, station

/-- A reorder window torn down is not seen. -/
@[simp] theorem ctl_rxBaTeardown (tid : Nat) (s : Mlme) :
    ctl (s.rxBaTeardown tid) = ctl s := by
  rw [Mlme.rxBaTeardown, ctl_kfreeAll]
  rfl

@[simp] theorem ctl_rxBaTeardownAll (s : Mlme) :
    ctl (rxBaTeardownAll s) = ctl s := by
  rw [rxBaTeardownAll]
  induction List.range kRxBaNumTid generalizing s with
  | nil => rfl
  | cons tid l ih =>
      rw [List.foldl_cons, ih]
      exact ctl_rxBaTeardown tid s

/-- Keys are not part of the control state, so disabling one is not seen. -/
@[simp] theorem ctl_disableKey (k : Option KeyConf) (s : Mlme) :
    ctl (disableKey k s) = ctl s := by
  cases k with
  | none => rfl
  | some k => exact ctl_emit_quiet s rfl rfl

/-- Disabling all of them is not seen either. -/
@[simp] theorem ctl_disableKeys (s : Mlme) :
    ctl (disableKeys s) = ctl s := by
  rw [disableKeys]
  split
  · rw [ctl_disableKey, ctl_disableKey]
  · rfl

/-- Dropping the pairwise key is not seen. -/
@[simp] theorem ctl_dropPtkConf (s : Mlme) :
    ctl (dropPtkConf s) = ctl s := by
  rw [dropPtkConf]
  split
  · exact ctl_emit_quiet _ rfl rfl
  · rfl

/-- Dropping the group key is not seen. -/
@[simp] theorem ctl_dropGtkConf (s : Mlme) :
    ctl (dropGtkConf s) = ctl s := by
  rw [dropGtkConf]
  split
  · exact ctl_emit_quiet _ rfl rfl
  · rfl

@[simp] theorem ctl_clearKeys (s : Mlme) : ctl (clearKeys s) = ctl s := by
  have hzero : ∀ s : Mlme, ctl (zeroKeys s) = ctl s := fun _ => rfl
  rw [clearKeys, hzero, ctl_dropGtkConf, ctl_dropPtkConf, ctl_disableKeys]

/-- Releasing the station is the operation of that name. -/
@[simp] theorem ctl_releaseSta (s : Mlme) :
    ctl (releaseSta s) = (ctl s).release := by
  have hforget : ∀ s : Mlme, ctl (forgetSta s)
      = { ctl s with hasSta := false, txBa := false } := fun _ => rfl
  rw [releaseSta, Ctl.release]
  cases h : s.sta with
  | none =>
      have hsta : (ctl s).hasSta = false := by
        show s.sta.isSome = false
        rw [h]
        rfl
      simp only [hsta]
      rfl
  | some sta =>
      have hsta : (ctl s).hasSta = true := by
        show s.sta.isSome = true
        rw [h]
        rfl
      have htold : ctl (if s.up then s.emit (.staRemove sta.addr) else s)
          = ctl s := by
        split
        · exact ctl_emit_quiet s rfl rfl
        · rfl
      have hfree : ∀ t : Mlme, ctl (t.emit (.freeSta sta.addr)) = ctl t :=
        fun t => ctl_emit_quiet t rfl rfl
      simp only [ctl_rxBaTeardownAll, hforget, hfree, htold, hsta, if_true]

/-- The replay counter is not seen. -/
@[simp] theorem ctl_setReplayCtr (replay : Bytes 8) (s : Mlme) :
    ctl (setReplayCtr replay s) = ctl s := rfl

/-- The pairwise key installed is not seen, on any of its paths. -/
@[simp] theorem ctl_installPairwise (alloc set : Bool) (keyidx : UInt8)
    (cipher : UInt32) (tk : List UInt8) (s : Mlme) :
    ctl (installPairwise alloc set keyidx cipher tk s).2 = ctl s := by
  have hbump : ∀ s : Mlme, ctl s.bumpAddr = ctl s := fun _ => rfl
  have hconf : ∀ (k : KeyConf) (s : Mlme), ctl (setPtkConf k s) = ctl s :=
    fun _ _ => rfl
  have hset : ∀ (k : KeyConf) (b : Bool) (s : Mlme),
      ctl (s.emit (.setKey k b)) = ctl s :=
    fun _ _ s => ctl_emit_quiet s rfl rfl
  have hfree : ∀ (n : Nat) (s : Mlme), ctl (s.emit (.freeKey n)) = ctl s :=
    fun _ s => ctl_emit_quiet s rfl rfl
  rw [installPairwise]
  split
  · rfl
  · split
    · rw [ctl_dropPtkConf, ctl_disableKey]
    · simp only
      split
      · rw [hfree, hset, hbump, ctl_dropPtkConf, ctl_disableKey]
      · rw [hconf, hset, hbump, ctl_dropPtkConf, ctl_disableKey]

@[simp] theorem ctl_installGroup (alloc set : Bool) (keyidx : UInt8)
    (cipher : UInt32) (tk : List UInt8) (s : Mlme) :
    ctl (installGroup alloc set keyidx cipher tk s).2 = ctl s := by
  have hbump : ∀ s : Mlme, ctl s.bumpAddr = ctl s := fun _ => rfl
  have hconf : ∀ (k : KeyConf) (s : Mlme), ctl (setGtkConf k s) = ctl s :=
    fun _ _ => rfl
  have hset : ∀ (k : KeyConf) (b : Bool) (s : Mlme),
      ctl (s.emit (.setKey k b)) = ctl s :=
    fun _ _ s => ctl_emit_quiet s rfl rfl
  have hfree : ∀ (n : Nat) (s : Mlme), ctl (s.emit (.freeKey n)) = ctl s :=
    fun _ s => ctl_emit_quiet s rfl rfl
  rw [installGroup]
  split
  · rfl
  · split
    · rw [ctl_dropGtkConf, ctl_disableKey]
    · simp only
      split
      · rw [hfree, hset, hbump, ctl_dropGtkConf, ctl_disableKey]
      · rw [hconf, hset, hbump, ctl_dropGtkConf, ctl_disableKey]

-- ============================================================ transmission

/-- A management frame that is no action frame. -/
theorem ctl_txMgmtFrame {frame : List UInt8} (h : peek frame 0 ≠ 0xD0)
    (s : Mlme) : ctl (txMgmtFrame env frame s) = ctl s := by
  rw [txMgmtFrame]
  split
  · rfl
  · exact ctl_emit_quiet s rfl (addbaToken_of_peek h)

/-- The authentication request is a frame, and frames are not seen. -/
@[simp] theorem ctl_sendAuthReq (s : Mlme) :
    ctl (txMgmtFrame env (buildAuthReq hw s).1 (buildAuthReq hw s).2)
      = ctl s := by
  rw [ctl_txMgmtFrame]
  · rfl
  · rw [buildAuthReq, mgmtHdr, peek_hdr3addr]
    decide

/-- The association request is not seen either. -/
@[simp] theorem ctl_sendAssocReq (s : Mlme) :
    ctl (txMgmtFrame env (buildAssocReq hw s).1 (buildAssocReq hw s).2)
      = ctl s := by
  rw [ctl_txMgmtFrame]
  · rfl
  · simp only [buildAssocReq, mgmtHdr, List.append_assoc]
    rw [peek_hdr3addr]
    decide

/-- The deauthentication that ends a link is not seen. -/
@[simp] theorem ctl_sendDeauth (s t : Mlme) :
    ctl (txMgmtFrame env (deauthFrame hw s) t) = ctl t := by
  apply ctl_txMgmtFrame
  rw [deauthFrame, peek_hdr3addr]
  decide

@[simp] theorem ctl_txProbeRequest (s : Mlme) :
    ctl (txProbeRequest hw env s) = ctl s := by
  rw [txProbeRequest]
  split
  · rfl
  · rw [ctl_txMgmtFrame]
    · rfl
    · rw [List.append_assoc, peek_hdr3addr]
      decide

@[simp] theorem ctl_txNullFunc (powerSave : Bool) (s : Mlme) :
    ctl (txNullFunc hw env powerSave s) = ctl s := by
  rw [txNullFunc]
  split
  · rfl
  · split
    · rfl
    · rw [ctl_emit_quiet _ rfl]
      · rfl
      · apply addbaToken_of_peek
        rw [← List.append_nil (hdr3addr _ _ _ _ _), peek_hdr3addr]
        cases powerSave <;> decide

@[simp] theorem ctl_takeSeq (s : Mlme) : ctl (takeSeq s) = ctl s := by
  rw [takeSeq]
  split <;> rfl

/-- The counters of a data frame are not seen. -/
@[simp] theorem ctl_txCounters (key : Option KeyConf) (s : Mlme) :
    ctl (txCounters key s) = ctl s := by
  have hpn : ∀ s : Mlme, ctl (takePn s) = ctl s := fun _ => rfl
  rw [txCounters]
  split
  · rw [hpn, ctl_takeSeq]
  · exact ctl_takeSeq s

/-- A data frame is no action frame. -/
theorem peek_dataFrame (m : List UInt8) (seq : UInt16) (key : Option KeyConf)
    (pn : Bytes 6) (s : Mlme) :
    peek (dataFrame hw m seq key pn s) 0 ≠ 0xD0 := by
  simp only [dataFrame, List.append_assoc]
  rw [peek_hdr3addr]
  cases htAllowed s <;> cases key.isSome <;> decide

@[simp] theorem ctl_txDataFrame (m : List UInt8) (s : Mlme) :
    ctl (txDataFrame hw env m s).2 = ctl s := by
  rw [txDataFrame]
  split
  · rfl
  · split
    · rfl
    · simp only
      split
      · exact ctl_txCounters _ s
      · rw [ctl_emit_quiet _ rfl (addbaToken_of_peek (peek_dataFrame _ _ _ _ _))]
        exact ctl_txCounters _ s

/-- A packet that meets the gate is not seen. -/
@[simp] theorem ctl_outputPacket (m : List UInt8) (s : Mlme) :
    ctl (outputPacket hw env m s).2 = ctl s := by
  rw [outputPacket]
  split
  · rfl
  · exact ctl_txDataFrame m s

/-- An answer of the handshake is not seen. -/
@[simp] theorem ctl_sendEAPOLKey (step : Nat) (replay : Bytes 8)
    (install ack mic : Bool) (s : Mlme) :
    ctl (sendEAPOLKey hw env step replay install ack mic s) = ctl s := by
  simp only [sendEAPOLKey]
  split
  · rfl
  · exact ctl_txDataFrame _ s

-- =============================================================== BlockAck

/-- The action code of the response is not that of a request. -/
@[simp] theorem ctl_sendAddbaResponse (tid dialog : UInt8)
    (reqParam baTimeout : UInt16) (s : Mlme) :
    ctl (sendAddbaResponse hw env tid dialog reqParam baTimeout s)
      = ctl s := by
  rw [sendAddbaResponse, txMgmtFrame]
  split
  · rfl
  · rw [ctl_emit_quiet _ rfl]
    · rfl
    · rw [Obs.addbaToken, if_neg]
      rintro ⟨-, -, haction, -⟩
      simp only [addbaResponse, mgmtHdr, List.append_assoc] at haction
      rw [show (25 : Nat) = 24 + 1 from rfl, peek_behind_hdr] at haction
      simp [peek, actionAddbaResp, actionAddbaReq] at haction

/-- The request for `_baTid` carries the token it is given. -/
theorem addbaToken_request (hw : Hw) {skb : TxSkb} (seq : UInt16)
    (d : UInt8) (rest : List UInt8) (s : Mlme)
    (h : skb.data = mgmtHdr hw stypeAction seq s
      ++ ([categoryBack, actionAddbaReq, d]
        ++ (le16 (baParam 0 baTid) ++ rest))) :
    Obs.addbaToken (.tx skb) = some d := by
  have hfirst : peek skb.data 0 = 0xD0 := by
    rw [h, mgmtHdr, peek_hdr3addr]
    decide
  have hbehind : ∀ i, peek skb.data (24 + i)
      = peek ([categoryBack, actionAddbaReq, d]
        ++ (le16 (baParam 0 baTid) ++ rest)) i := by
    intro i
    rw [h, mgmtHdr, peek_behind_hdr]
  have hparam : le16At skb.data 27 = baParam 0 baTid := by
    rw [h, mgmtHdr, le16At_append_right (by simp),
      le16At_append_right (by simp)]
    simpa using le16At_le16 (baParam 0 baTid) rest
  have htid : ((baParam 0 baTid >>> 2) &&& 0xf).toUInt8 = baTid := by decide
  rw [Obs.addbaToken, hparam, if_pos ⟨hfirst, hbehind 0, hbehind 1, htid⟩]
  exact congrArg some (hbehind 2)

/-- The request counts if it gets out. -/
private theorem ctl_txRequest {frame : List UInt8} {d : UInt8}
    (h : Obs.addbaToken (.tx
      { data := frame, flags := txCtlFirstFragment ||| txCtlNoAck
        sta := none, hwKey := none, protocol := none }) = some d) (s : Mlme) :
    ctl (txMgmtFrame env frame s) = { ctl s with
      asked := if s.up && env.mgmtSkb then d :: (ctl s).asked
        else (ctl s).asked } := by
  rw [txMgmtFrame]
  cases hup : s.up with
  | false => rfl
  | true =>
      cases hskb : env.mgmtSkb with
      | false => rfl
      | true => exact ctl_emit_request s rfl h

/-- An ADDBA request that goes out is what `aggregate` notes. -/
@[simp] theorem ctl_sendAddbaRequest (s : Mlme) :
    ctl (sendAddbaRequest hw env baTid s)
      = (ctl s).aggregate (some (s.up && env.mgmtSkb)) := by
  simp only [sendAddbaRequest]
  apply ctl_txRequest
  apply addbaToken_request hw s.txSeq _
    ([0, 0] ++ le16 (seqField s.dataSeq)) s
  simp only [List.append_assoc]
  rfl

/-- `startTxAggregation`. -/
theorem ctl_startTxAggregation (s : Mlme) :
    ctl (startTxAggregation hw env s) = (ctl s).aggregate (asks env s) := by
  unfold startTxAggregation asks
  cases hba : s.txBaActive with
  | true => rfl
  | false =>
      cases hht : htAllowed s with
      | false => rfl
      | true =>
          cases hsta : s.sta with
          | none => rfl
          | some sta =>
              cases hsup : sta.htCap.htSupported with
              | false => simp [hsup, Ctl.aggregate]
              | true => simp [hsup]

end Rtw88
