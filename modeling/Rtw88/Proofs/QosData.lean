/-
The sequence space of QoS data: `gap_free_iff`.

`txDataFrame` does one of three things (`txDataFrame_cases`): it refuses
and leaves everything, it loses the payload after the counters moved, or
it hands a frame to the driver. The invariant `InStep` says that
`_dataSeq` counts the frames handed out; only the second thing breaks it.

# Reading the numbers back

What is handed out is bytes, so a number has to be read off the frame
again: the sequence field is the last of the header
(`le16At_hdr3addr`), and its upper twelve bits are the number the
counter had (`seqField_number`). A frame on a link without HT is no QoS
data frame and draws from another counter (`qosNumber_plain`). An ADDBA
request announces the counter as it stands and leaves it
(`sendAddbaRequest_announces`), so what it announces is the number of the
next frame.

# Runs

A run goes through any number of associations. `releaseSta` sets the
counter back, and without a station no data frame goes out, so the
invariant says more of a state without one: nothing has been drawn
(`releaseSta_counter`). A call that adds no number is the common case
(`InStep.keep`), a frame is the other (`InStep.push`), and the third is
where the equivalence has its condition (`InStep.gapFree_iff`).
-/
import Rtw88.Proofs.Control.View
import Rtw88.Proofs.Relay
import Rtw88.Spec.QosData

namespace Rtw88

open Traced

variable {hw : Hw} {env : Env}

-- ================================================================ one packet

/-- What `txDataFrame` does with a packet. -/
theorem txDataFrame_cases (env : Env) (m : List UInt8) (s : Mlme) :
    (¬ PayloadLost env m s ∧ txDataFrame hw env m s = (false, s))
      ∨ (PayloadLost env m s ∧ txDataFrame hw env m s
          = (false, txCounters (txKey (be16At m 12) s) s))
      ∨ (¬ PayloadLost env m s ∧ ∃ skb,
          txDataFrame hw env m s
            = (true, (txCounters (txKey (be16At m 12) s) s).emit (.tx skb))
          ∧ skb.data = dataFrame hw m
            (if htAllowed s then s.dataSeq else s.txSeq)
            (txKey (be16At m 12) s)
            (txCounters (txKey (be16At m 12) s) s).ccmpTxPn
            (txCounters (txKey (be16At m 12) s) s)) := by
  unfold txDataFrame PayloadLost
  cases hsta : s.sta with
  | none => exact .inl ⟨fun h => Bool.false_ne_true h.1, rfl⟩
  | some sta =>
      dsimp only
      split
      next hrefuse =>
        simp only [Bool.or_eq_true, decide_eq_true_eq,
          Bool.not_eq_true'] at hrefuse
        refine .inl ⟨fun h => ?_, rfl⟩
        obtain ⟨-, hup, hmin, hmax, hhead, hskb, -⟩ := h
        rw [hup, hhead, hskb] at hrefuse
        simp only [Bool.true_eq_false, false_or, or_false] at hrefuse
        omega
      next hgo =>
        simp only [Bool.or_eq_true, decide_eq_true_eq, Bool.not_eq_true',
          not_or, Bool.not_eq_false] at hgo
        obtain ⟨⟨⟨⟨hup, hmin⟩, hmax⟩, hhead⟩, hskb⟩ := hgo
        split
        next hcopy =>
          simp only [Bool.and_eq_true, decide_eq_true_eq,
            Bool.not_eq_true'] at hcopy
          exact .inr (.inl ⟨⟨rfl, hup, hcopy.1, by omega, hhead, hskb,
            hcopy.2⟩, rfl⟩)
        next hcopy =>
          simp only [Bool.and_eq_true, decide_eq_true_eq,
            Bool.not_eq_true'] at hcopy
          refine .inr (.inr ⟨fun h => ?_, _, rfl, rfl⟩)
          exact hcopy ⟨h.2.2.1, h.2.2.2.2.2.2⟩

/-- Freeing the mbuf keeps the answer. -/
theorem mbufFreem_val (r : Bool × Mlme) : (mbufFreem r).val = r := rfl

theorem mbufFreem_consumes (r : Bool × Mlme) : (mbufFreem r).Consumes :=
  .single rfl

/-- The routine on the packet computes what Model/Tx.lean says. -/
theorem txDataFrameT_val (m : List UInt8) (s : Mlme) :
    (txDataFrameT hw env m s).val = txDataFrame hw env m s := by
  unfold txDataFrameT txDataFrame
  cases s.sta with
  | none => rfl
  | some sta =>
      dsimp only
      simp only [val_ite, val_bind, mbufFreem_val]
      cases s.up with
      | false => rfl
      | true =>
          by_cases hlen : m.length < 14 ∨ 2048 < m.length
          · simp [hlen]
          · rw [not_or] at hlen
            cases env.headCopy with
            | false => simp
            | true =>
                cases env.dataSkb with
                | false => simp
                | true =>
                    by_cases hpay : 14 < m.length
                    · cases env.payloadCopy with
                      | false => simp [hlen, hpay]
                      | true => simp [hlen, hpay]
                    · simp [hlen, hpay]

/-- It frees the packet on every path, after its last look at it. -/
theorem txDataFrameT_consumes (m : List UInt8) (s : Mlme) :
    (txDataFrameT hw env m s).Consumes := by
  have hlook : ∀ off n, (access (.read off n)).Borrows :=
    fun off n => borrows_single rfl
  unfold txDataFrameT
  cases s.sta with
  | none => exact mbufFreem_consumes _
  | some sta =>
      dsimp only
      split
      · exact mbufFreem_consumes _
      · split
        · exact mbufFreem_consumes _
        · apply (hlook 0 14).consumes
          split
          · exact mbufFreem_consumes _
          · split
            · exact mbufFreem_consumes _
            · split
              · apply (hlook 14 (m.length - 14)).consumes
                split
                · exact mbufFreem_consumes _
                · exact mbufFreem_consumes _
              · exact mbufFreem_consumes _

-- =================================================================== numbers

/-- The sequence number that is read back off a frame. -/
theorem seqField_number (x : UInt16) :
    (seqField x >>> 4).toNat = x.toNat % 4096 := by
  unfold seqField
  have hmask : x.toNat &&& 4095 = x.toNat % 4096 :=
    Nat.and_two_pow_sub_one_eq_mod x.toNat 12
  simp only [UInt16.toNat_shiftRight, UInt16.toNat_shiftLeft,
    UInt16.toNat_and, UInt16.reduceToNat, Nat.reduceMod, hmask,
    Nat.shiftRight_eq_div_pow, Nat.shiftLeft_eq, Nat.reducePow]
  omega

/-- The sequence field ends the header. -/
theorem le16At_hdr3addr (fc : UInt16) (a b c : Bytes 6) (seq : UInt16)
    (rest : List UInt8) :
    le16At (hdr3addr fc a b c seq ++ rest) 22 = seq := by
  unfold hdr3addr
  simp only [List.append_assoc]
  rw [le16At_append_right (by simp), le16At_append_right (by simp),
    le16At_append_right (by simp), le16At_append_right (by simp),
    le16At_append_right (by simp)]
  simpa using le16At_le16 seq rest

/-- A data frame on an HT link carries the number it was built with. -/
theorem qosNumber_dataFrame {m : List UInt8} {seq : UInt16}
    {key : Option KeyConf} {pn : Bytes 6} {s : Mlme} {skb : TxSkb}
    (hht : htAllowed s = true)
    (h : skb.data = dataFrame hw m seq key pn s) :
    Obs.qosNumber (.tx skb) = some (seq.toNat % 4096) := by
  have hqos : isQosData (frameControl skb.data) = true := by
    rw [h]
    unfold dataFrame
    rw [hht]
    simp only [List.append_assoc]
    rw [frameControl_hdr3addr]
    cases key.isSome with
    | false => decide
    | true => decide
  have hseq : le16At skb.data 22 = seqField seq := by
    rw [h]
    unfold dataFrame
    simp only [List.append_assoc]
    exact le16At_hdr3addr _ _ _ _ _ _
  rw [Obs.qosNumber, if_pos hqos, hseq, seqField_number]

/-- Elsewhere it is no QoS data frame. -/
theorem qosNumber_plain {m : List UInt8} {seq : UInt16}
    {key : Option KeyConf} {pn : Bytes 6} {s : Mlme} {skb : TxSkb}
    (hht : htAllowed s = false)
    (h : skb.data = dataFrame hw m seq key pn s) :
    Obs.qosNumber (.tx skb) = none := by
  have hqos : isQosData (frameControl skb.data) = false := by
    rw [h]
    unfold dataFrame
    rw [hht]
    simp only [List.append_assoc]
    rw [frameControl_hdr3addr]
    cases key.isSome with
    | false => decide
    | true => decide
  rw [Obs.qosNumber, hqos]
  rfl

/-- Whether HT is allowed does not depend on the counters. -/
theorem htAllowed_txCounters (key : Option KeyConf) (s : Mlme) :
    htAllowed (txCounters key s) = htAllowed s := by
  unfold txCounters takePn takeSeq
  split <;> split <;> rfl

/-- Drawing a number logs nothing. -/
theorem log_txCounters (key : Option KeyConf) (s : Mlme) :
    (txCounters key s).log = s.log := by
  unfold txCounters takePn takeSeq
  split <;> split <;> rfl

theorem sta_txCounters (key : Option KeyConf) (s : Mlme) :
    (txCounters key s).sta = s.sta := by
  unfold txCounters takePn takeSeq
  split <;> split <;> rfl

/-- The counters take a number on an HT link. -/
theorem dataSeq_txCounters (key : Option KeyConf) (s : Mlme) :
    (txCounters key s).dataSeq
      = if htAllowed s then s.dataSeq + 1 else s.dataSeq := by
  unfold txCounters takePn takeSeq
  split <;> split <;> rfl

-- ================================================================= observed

/-- What is new in a longer log. -/
theorem observed_append {s t : Mlme} {l : List Obs}
    (h : t.log = l ++ s.log) : observed s t = l.reverse := by
  unfold observed
  rw [h, List.length_append, Nat.add_sub_cancel, List.take_left]

/-- Nothing new. -/
theorem observed_same {s t : Mlme} (h : t.log = s.log) :
    observed s t = [] :=
  observed_append (l := []) h

/-- One thing new. -/
theorem observed_one {s t : Mlme} {o : Obs} (h : t.log = o :: s.log) :
    observed s t = [o] :=
  observed_append (l := [o]) h

theorem consecutive_succ (n : Nat) :
    consecutive (n + 1) = consecutive n ++ [n % 4096] := by
  unfold consecutive
  rw [List.range_succ, List.map_append, List.map_singleton]

-- ==================================================================== calls

/-- What frees reorder buffers leaves the station and the counter. -/
theorem dataSeq_kfreeAll (skbs : List SkBuff) (s : Mlme) :
    (kfreeAll skbs s).dataSeq = s.dataSeq
      ∧ (kfreeAll skbs s).sta = s.sta := by
  unfold kfreeAll
  induction skbs generalizing s with
  | nil => exact ⟨rfl, rfl⟩
  | cons skb skbs ih =>
      rw [List.foldl_cons]
      exact ih _

/-- Tearing the windows down draws no number. -/
theorem dataSeq_rxBaTeardownAll (s : Mlme) :
    (rxBaTeardownAll s).dataSeq = s.dataSeq
      ∧ (rxBaTeardownAll s).sta = s.sta := by
  unfold rxBaTeardownAll
  generalize List.range kRxBaNumTid = tids
  induction tids generalizing s with
  | nil => exact ⟨rfl, rfl⟩
  | cons tid tids ih =>
      rw [List.foldl_cons]
      obtain ⟨hseq, hsta⟩ := ih (s.rxBaTeardown tid)
      rw [hseq, hsta]
      unfold Mlme.rxBaTeardown
      exact dataSeq_kfreeAll _ _

/-- Without a station the counter is at zero. -/
theorem releaseSta_counter {s : Mlme} (h : s.sta = none → s.dataSeq = 0) :
    (releaseSta s).dataSeq = 0 ∧ (releaseSta s).sta = none := by
  cases hsta : s.sta with
  | none =>
      rw [releaseSta_none hsta]
      exact ⟨h hsta, hsta⟩
  | some sta =>
      unfold releaseSta
      rw [hsta]
      dsimp only
      obtain ⟨hseq, hnone⟩ := dataSeq_rxBaTeardownAll
        (forgetSta ((if s.up then s.emit (.staRemove sta.addr) else s).emit
          (.freeSta sta.addr)))
      exact ⟨hseq, hnone⟩

/-- A management frame goes out or it does not. -/
theorem txMgmtFrame_observed (env : Env) (frame : List UInt8) {s t : Mlme}
    (h : t.log = s.log) :
    ∀ o ∈ observed s (txMgmtFrame env frame t),
      ∃ skb, o = .tx skb ∧ skb.data = frame := by
  unfold txMgmtFrame
  split
  · rw [observed_same h]
    intro o ho
    cases ho
  · rw [observed_one (congrArg (List.cons _) h)]
    intro o ho
    exact ⟨_, List.mem_singleton.1 ho, rfl⟩

/-- A management frame draws none of these numbers. -/
theorem txMgmtFrame_keeps (env : Env) (frame : List UInt8) (s : Mlme) :
    (txMgmtFrame env frame s).dataSeq = s.dataSeq
      ∧ (txMgmtFrame env frame s).sta = s.sta := by
  unfold txMgmtFrame
  split
  · exact ⟨rfl, rfl⟩
  · exact ⟨rfl, rfl⟩

/-- What an ADDBA request reads as. -/
theorem addbaSsn_request {skb : TxSkb} {seq param ssn : UInt16}
    {dialog : UInt8} {s : Mlme}
    (h : skb.data = mgmtHdr hw stypeAction seq s
      ++ ([categoryBack, actionAddbaReq, dialog]
        ++ (le16 param ++ ([0, 0] ++ le16 (seqField ssn))))) :
    Obs.addbaSsn (.tx skb) = some (ssn.toNat % 4096)
      ∧ Obs.qosNumber (.tx skb) = none := by
  have hfc : frameControl skb.data = ftypeMgmt ||| stypeAction := by
    rw [h]
    exact frameControl_hdr3addr _ _ _ _ _ _
  have hbehind : ∀ i, peek skb.data (24 + i)
      = peek ([categoryBack, actionAddbaReq, dialog]
        ++ (le16 param ++ ([0, 0] ++ le16 (seqField ssn)))) i := by
    intro i
    rw [h]
    exact peek_behind_hdr _ _ _ _ _ _ i
  have hssn : le16At skb.data 31 = seqField ssn := by
    rw [h, mgmtHdr, le16At_append_right (by simp),
      le16At_append_right (by simp), le16At_append_right (by simp),
      le16At_append_right (by simp)]
    simpa using le16At_le16 (seqField ssn) []
  constructor
  · rw [Obs.addbaSsn, if_pos ⟨hfc, hbehind 0, hbehind 1⟩, hssn,
      seqField_number]
  · rw [Obs.qosNumber, hfc, if_neg (by decide)]

/-- An ADDBA request announces the counter and leaves it. -/
theorem sendAddbaRequest_announces (env : Env) (tid : UInt8) (s : Mlme) :
    (sendAddbaRequest hw env tid s).dataSeq = s.dataSeq
      ∧ (sendAddbaRequest hw env tid s).sta = s.sta
      ∧ ∀ o ∈ observed s (sendAddbaRequest hw env tid s),
        o.addbaSsn = some (s.dataSeq.toNat % 4096)
          ∧ o.qosNumber = none := by
  unfold sendAddbaRequest
  dsimp only
  obtain ⟨hseq, hsta⟩ := txMgmtFrame_keeps env
    (mgmtHdr hw stypeAction s.txSeq s
      ++ [categoryBack, actionAddbaReq,
        if s.baDialog + 1 = 0 then 1 else s.baDialog + 1]
      ++ le16 (baParam 0 tid) ++ [0, 0] ++ le16 (seqField s.dataSeq))
    { s with
      txSeq := s.txSeq + 1
      baDialog := if s.baDialog + 1 = 0 then 1 else s.baDialog + 1 }
  refine ⟨hseq, hsta, fun o ho => ?_⟩
  obtain ⟨skb, rfl, hdata⟩ := txMgmtFrame_observed env _ (by rfl) o ho
  apply @addbaSsn_request hw _ s.txSeq (baParam 0 tid) _ _ s
  rw [hdata]
  simp only [List.append_assoc]
  rfl

/-- What a call does to the sequence space: a frame that goes out on an HT
link has the number the counter stands at; the counter moves for it, and
for a payload that is lost. -/
theorem txDataFrame_counts (env : Env) (m : List UInt8) (s : Mlme) :
    (txDataFrame hw env m s).2.sta = s.sta
      ∧ (observed s (txDataFrame hw env m s).2).filterMap Obs.qosNumber
        = (if htAllowed s ∧ (txDataFrame hw env m s).1 = true
          then [s.dataSeq.toNat % 4096] else [])
      ∧ (txDataFrame hw env m s).2.dataSeq
        = if htAllowed s ∧ ((txDataFrame hw env m s).1 = true
            ∨ PayloadLost env m s)
          then s.dataSeq + 1 else s.dataSeq := by
  rcases @txDataFrame_cases hw env m s with
    ⟨hkept, heq⟩ | ⟨hlost, heq⟩ | ⟨-, skb, heq, hdata⟩
  · rw [heq, observed_same rfl]
    simp [hkept]
  · rw [heq, observed_same (log_txCounters _ _), sta_txCounters,
      dataSeq_txCounters]
    simp [hlost]
  · have hone : observed s (txDataFrame hw env m s).2 = [.tx skb] := by
      rw [heq]
      exact observed_one (congrArg (List.cons _) (log_txCounters _ _))
    have hnum : [Obs.tx skb].filterMap Obs.qosNumber
        = if htAllowed s then [s.dataSeq.toNat % 4096] else [] := by
      cases hht : htAllowed s with
      | true =>
          rw [hht, if_pos rfl] at hdata
          rw [List.filterMap_cons, qosNumber_dataFrame
            ((htAllowed_txCounters _ _).trans hht) hdata]
          rfl
      | false =>
          rw [List.filterMap_cons, qosNumber_plain
            ((htAllowed_txCounters _ _).trans hht) hdata]
          rfl
    rw [hone, hnum, heq]
    refine ⟨sta_txCounters _ _, ?_, ?_⟩
    · simp
    · have hseq := dataSeq_txCounters (txKey (be16At m 12) s) s
      simpa [Mlme.emit] using hseq

-- ===================================================================== runs

/-- `_dataSeq` counts the frames handed out, and without a station there
are none. -/
structure InStep (v : QosLine) : Prop where
  numbers : v.numbers = consecutive v.numbers.length
  counter : v.mlme.dataSeq.toNat = v.numbers.length % 2 ^ 16
  released : v.mlme.sta = none → v.mlme.dataSeq = 0 ∧ v.numbers = []

/-- The next number is the count of those drawn. -/
theorem InStep.next {v : QosLine} (h : InStep v) :
    v.mlme.dataSeq.toNat % 4096 = v.numbers.length % 4096 := by
  have hc := h.counter
  omega

theorem InStep.init (powered : Bool) : InStep (QosLine.init powered) :=
  ⟨rfl, rfl, fun _ => ⟨rfl, rfl⟩⟩

/-- One more number. -/
theorem InStep.push {v : QosLine} (h : InStep v) {t : Mlme}
    (hseq : t.dataSeq = v.mlme.dataSeq + 1) (hsta : t.sta.isSome = true) :
    InStep ⟨t, v.numbers ++ [v.numbers.length % 4096]⟩ := by
  constructor
  · dsimp only
    rw [List.length_append, List.length_singleton, consecutive_succ,
      ← h.numbers]
  · dsimp only
    rw [hseq, List.length_append, List.length_singleton, UInt16.toNat_add,
      h.counter]
    simp only [UInt16.reduceToNat]
    omega
  · intro hnone
    rw [hnone] at hsta
    cases hsta

/-- A call that adds no number. -/
theorem InStep.keep {v : QosLine} (h : InStep v) {t : Mlme}
    (hseq : t.dataSeq = v.mlme.dataSeq)
    (hsta : t.sta = none → v.mlme.sta = none) : InStep ⟨t, v.numbers⟩ := by
  refine ⟨h.numbers, ?_, fun hnone => ?_⟩
  · dsimp only
    rw [hseq]
    exact h.counter
  · obtain ⟨hzero, hnil⟩ := h.released (hsta hnone)
    exact ⟨hseq.trans hzero, hnil⟩

/-- A call keeps step with the numbers unless it loses its payload. -/
theorem InStep.step {v : QosLine} (h : InStep v) (c : QosCall)
    (hc : KeepsPayload v c) : InStep (qosStep hw v c) := by
  cases c with
  | txDataFrame env m =>
      unfold qosStep QosCall.run
      dsimp only
      obtain ⟨hsta, hnum, hseq⟩ := @txDataFrame_counts hw env m v.mlme
      rw [hnum]
      cases hht : htAllowed v.mlme with
      | false =>
          rw [hht, if_neg (by simp)] at hseq
          rw [if_neg (by simp), List.append_nil]
          exact h.keep hseq fun hnone => hsta ▸ hnone
      | true =>
          have hkept := hc env m rfl hht
          cases hok : (txDataFrame hw env m v.mlme).1 with
          | false =>
              rw [hok, if_neg (by simp [hkept])] at hseq
              rw [if_neg (by simp), List.append_nil]
              exact h.keep hseq fun hnone => hsta ▸ hnone
          | true =>
              rw [hht, hok, if_pos (by simp)] at hseq
              rw [if_pos (by simp), h.next]
              apply h.push hseq
              rw [hsta]
              exact (txDataFrame_sends_iff.1 hok).1
  | sendAddbaRequest env tid =>
      unfold qosStep QosCall.run
      dsimp only
      obtain ⟨hseq, hsta, hobs⟩ :=
        @sendAddbaRequest_announces hw env tid v.mlme
      have hnone : (observed v.mlme
          (sendAddbaRequest hw env tid v.mlme)).filterMap Obs.qosNumber
            = [] := by
        rw [List.filterMap_eq_nil_iff]
        exact fun o ho => (hobs o ho).2
      rw [hnone, List.append_nil]
      exact h.keep hseq fun hsome => hsta ▸ hsome
  | releaseSta =>
      unfold qosStep QosCall.run
      dsimp only
      obtain ⟨hseq, hsta⟩ :=
        releaseSta_counter fun hnone => (h.released hnone).1
      refine ⟨rfl, ?_, fun _ => ⟨hseq, rfl⟩⟩
      rw [hseq]
      rfl
  | other t =>
      have hsame : observed v.mlme (QosCall.run hw v.mlme (.other t)) = [] :=
        observed_same rfl
      show InStep ⟨QosCall.run hw v.mlme (.other t), v.numbers
        ++ (observed v.mlme (QosCall.run hw v.mlme (.other t))).filterMap
          Obs.qosNumber⟩
      rw [hsame, List.filterMap_nil, List.append_nil]
      refine @InStep.keep _ h (QosCall.run hw v.mlme (.other t)) rfl ?_
      intro hnone
      have horelse : (t.sta <|> v.mlme.sta) = none := hnone
      cases hsta : t.sta with
      | none => rwa [hsta] at horelse
      | some sta =>
          rw [hsta] at horelse
          cases horelse

/-- What a call hands out and takes is as promised exactly if no payload
is lost. -/
theorem InStep.gapFree_iff {v : QosLine} (h : InStep v) (c : QosCall) :
    GapFree hw v c ↔ KeepsPayload v c := by
  constructor
  · intro hg env m hc hht hlost
    obtain ⟨-, -, hseq⟩ := @txDataFrame_counts hw env m v.mlme
    have hfail : (txDataFrame hw env m v.mlme).1 = false := by
      cases hok : (txDataFrame hw env m v.mlme).1 with
      | false => rfl
      | true =>
          have hcopy := (txDataFrame_sends_iff.1 hok).2.2.2.2.2.2
          obtain ⟨-, -, hmin, -, -, -, hno⟩ := hlost
          rw [hno] at hcopy
          rcases hcopy with hlen | hyes
          · omega
          · cases hyes
    have hsame := (hg.failed env m hc hht hfail).1
    rw [hseq, if_pos (by simp [hht, hlost])] at hsame
    have hnat := congrArg UInt16.toNat hsame
    rw [UInt16.toNat_add] at hnat
    simp only [UInt16.reduceToNat] at hnat
    omega
  · intro hc
    refine ⟨(h.step c hc).numbers, ?_, ?_, ?_, ?_⟩
    · intro env m heq hht hok
      rw [heq]
      unfold qosStep QosCall.run
      dsimp only
      rw [(@txDataFrame_counts hw env m v.mlme).2.1,
        if_pos (by simp [hok, hht]), h.next]
    · intro env m heq hht hfail
      rcases @txDataFrame_cases hw env m v.mlme with
        ⟨-, hr⟩ | ⟨hlost, -⟩ | ⟨-, skb, hr, -⟩
      · rw [hr]
        exact ⟨rfl, rfl⟩
      · exact absurd hlost (hc env m heq hht)
      · rw [hr] at hfail
        cases hfail
    · intro env m heq
      exact ⟨txDataFrameT_val m v.mlme,
        (txDataFrameT_consumes m v.mlme).disposals⟩
    · intro env tid heq o ho
      rw [((@sendAddbaRequest_announces hw env tid v.mlme).2.2 o ho).1,
        h.next]

/-- Over every run of calls, through any number of associations: every
call is as promised exactly if no call on an HT link loses its payload. -/
theorem gap_free_iff (hw : Hw) (powered : Bool) (cs : List QosCall) :
    Along (qosStep hw) (GapFree hw) (QosLine.init powered) cs
      ↔ Along (qosStep hw) KeepsPayload (QosLine.init powered) cs :=
  along_iff_of_inv (fun _ c h => h.gapFree_iff c)
    (fun _ c h hc => h.step c hc) (InStep.init powered) cs

/-- An HT link is up. -/
def linkedMlme : Mlme :=
  { Mlme.init true with
    sta := some (newSta (sampleHw samplePrims) 1 (Mlme.init true)) }

/-- A packet whose payload cannot be copied, and another. -/
def lossyCalls : List QosCall :=
  [.other linkedMlme,
    .txDataFrame { payloadCopy := false } (List.replicate 60 0),
    .txDataFrame {} (List.replicate 60 0)]

/-- The first frame that goes out has number one. -/
theorem first_frame_number_one :
    (runFrom (qosStep (sampleHw samplePrims)) (QosLine.init true)
        lossyCalls).numbers = [1]
      ∧ ¬ Along (qosStep (sampleHw samplePrims))
        (GapFree (sampleHw samplePrims)) (QosLine.init true) lossyCalls := by
  have hone : (runFrom (qosStep (sampleHw samplePrims)) (QosLine.init true)
      lossyCalls).numbers = [1] := by decide
  refine ⟨hone, fun h => ?_⟩
  have hlast : (runFrom (qosStep (sampleHw samplePrims))
      (QosLine.init true) lossyCalls).numbers
        = consecutive (runFrom (qosStep (sampleHw samplePrims))
          (QosLine.init true) lossyCalls).numbers.length := h.2.2.1.numbers
  rw [hone] at hlast
  exact absurd hlast (by decide)

end Rtw88
