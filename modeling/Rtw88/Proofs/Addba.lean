/-
ADDBA: the response against the window behind it.

`handleBackAction` decodes the request twice. `rxBaSetup` ignores a TID
of 8 or more and caps the size at 64; `sendAddbaResponse` always reports
success and 64 frames. They agree on the TIDs below 8 and the sizes that
end at 64.

The response is a frame, so what it grants is read off its bytes
(`addbaStatus_response`, `addbaGranted_response`), and the window is read
off the state behind the setup (`windowOf_setup`). A size of zero asks
for any; the setup makes 64 of it, as of every size above 64
(`window_full_iff`). So the agreement is the question of the TID and of
that lemma, for every body a request can have. Between the setup and the
response old frames are freed, which touches neither side
(`kfreeAll_keeps`).
-/
import Rtw88.Proofs.Link.View
import Rtw88.Spec.ReorderRun
import Rtw88.Spec.AccessPoint

namespace Rtw88

variable {hw : Hw} {env : Env}

-- =============================================================== vocabulary

/-- The TID, buffer size and SSN an ADDBA request body asks for. -/
def addbaTid (b : List UInt8) : Nat :=
  (((le16At b 3 >>> 2) &&& 0xf).toUInt8).toNat
def addbaSize (b : List UInt8) : Nat :=
  ((le16At b 3 >>> 6) &&& 0x3ff).toNat
def addbaSsn (b : List UInt8) : Nat := (le16At b 7 >>> 4).toNat

/-- The status and the buffer size an ADDBA response frame carries. -/
def addbaStatus (d : List UInt8) : UInt16 := le16At d 27
def addbaGranted (d : List UInt8) : Nat :=
  ((le16At d 29 >>> 6) &&& 0x3ff).toNat

/-- The window of a TID; none from 8 on. -/
def windowOf (rx : RxBa SkBuff) (tid : Nat) : Option (RxReorder SkBuff) :=
  if h : tid < 8 then rx ⟨tid, h⟩ else none

/-- A response that reports success has a window behind it, active, with
the request's SSN and the size it grants. -/
def AddbaAgrees (b d : List UInt8) (rx : RxBa SkBuff) : Prop :=
  addbaStatus d = 0 → ∃ r, windowOf rx (addbaTid b) = some r
    ∧ r.active = true ∧ r.headSn = addbaSsn b
    ∧ r.bufSize = addbaGranted d

-- ============================================================= the response

/-- The management header is 24 bytes. -/
private theorem mgmtHdr_length (stype seq : UInt16) (s : Mlme) :
    (mgmtHdr hw stype seq s).length = 24 := by
  rw [mgmtHdr, hdr3addr_length]

/-- The response always reports success. -/
theorem addbaStatus_response (tid dialog : UInt8)
    (reqParam baTimeout : UInt16) (s : Mlme) :
    addbaStatus (addbaResponse hw tid dialog reqParam baTimeout s) = 0 := by
  have hlen := @mgmtHdr_length hw stypeAction s.txSeq s
  rw [addbaStatus, addbaResponse, List.append_assoc, List.append_assoc,
    le16At_append_right (by omega), hlen,
    le16At_append_left (by simp)]
  show (0 : UInt8).toUInt16 ||| ((0 : UInt8).toUInt16 <<< 8) = 0
  decide

/-- The size field of a parameter set is `_baBufSize`. -/
private theorem baParam_size (x : UInt16) (tid : UInt8) :
    (baParam (x &&& 1) tid >>> 6) &&& 0x3ff = baBufSize := by
  have hbits : ∀ a t : UInt16, (a = 0 ∨ a = 1) → t < 16 →
      ((a ||| ((1 : UInt16) <<< (1 : UInt16)) ||| (t <<< (2 : UInt16))
        ||| ((baBufSize &&& (0x3ff : UInt16)) <<< (6 : UInt16))) >>> 6)
          &&& 0x3ff = baBufSize := by
    intro a t ha ht
    obtain ⟨n, hn, rfl⟩ : ∃ n < 16, t = UInt16.ofNat n :=
      ⟨t.toNat, UInt16.lt_iff_toNat_lt.1 ht, by simp⟩
    rcases ha with rfl | rfl <;>
      (revert n; decide)
  refine hbits _ _ ?_ ?_
  · have h1 : (x &&& 1).toNat < 2 := by
      rw [UInt16.toNat_and]
      exact Nat.and_lt_two_pow (n := 1) _ (by decide)
    have h2 : (x &&& 1).toNat = 0 ∨ (x &&& 1).toNat = 1 := by omega
    rcases h2 with h2 | h2
    · exact .inl (UInt16.toNat_inj.1 h2)
    · exact .inr (UInt16.toNat_inj.1 h2)
  · rw [UInt16.lt_iff_toNat_lt, UInt16.toNat_and]
    exact Nat.and_lt_two_pow (n := 4) _ (by decide)

/-- The response always grants 64 frames. -/
theorem addbaGranted_response (tid dialog : UInt8)
    (reqParam baTimeout : UInt16) (s : Mlme) :
    addbaGranted (addbaResponse hw tid dialog reqParam baTimeout s) = 64 := by
  have hlen := @mgmtHdr_length hw stypeAction s.txSeq s
  have hparam : le16At (addbaResponse hw tid dialog reqParam baTimeout s) 29
      = baParam (reqParam &&& 1) tid := by
    rw [addbaResponse, List.append_assoc, List.append_assoc,
      le16At_append_right (by omega), hlen, le16At_append_right (by simp)]
    exact le16At_le16 _ _
  rw [addbaGranted, hparam, baParam_size]
  rfl

-- =============================================================== the window

/-- The window of a TID after `rxBaSetup`. -/
theorem windowOf_setup (tid ssn size : Nat) (rx : RxBa SkBuff) :
    windowOf (rxBaSetup true tid ssn size rx).rxBa tid
      = if tid < 8 then some
          { active := true, headSn := ssn % 4096
            bufSize := if size = 0 ∨ kRxBaMaxBuf < size then kRxBaMaxBuf
              else size
            stored := 0, buf := fun _ => none }
        else none := by
  by_cases h : tid < 8
  · rw [windowOf, dif_pos h, if_pos h, rxBaSetup, dif_pos h]
    cases rx ⟨tid, h⟩ <;> simp
  · rw [windowOf, dif_neg h, if_neg h]

/-- Freeing frames touches neither the driver nor the windows. -/
private theorem kfreeAll_keeps (l : List SkBuff) (s : Mlme) :
    (kfreeAll l s).up = s.up ∧ (kfreeAll l s).rxBa = s.rxBa := by
  induction l generalizing s with
  | nil => exact ⟨rfl, rfl⟩
  | cons skb l ih =>
      rw [kfreeAll, List.foldl_cons]
      exact ih (kfreeSkb skb s)

/-- With the driver up and a buffer to be had, the response is the last
thing handed to the driver, and it leaves the windows alone. -/
theorem sendAddbaResponse_sends {s : Mlme} (hup : s.up = true)
    (hskb : env.mgmtSkb = true) (tid dialog : UInt8)
    (reqParam baTimeout : UInt16) :
    ∃ skb, (sendAddbaResponse hw env tid dialog reqParam baTimeout s).log.head?
        = some (.tx skb)
      ∧ skb.data = addbaResponse hw tid dialog reqParam baTimeout s
      ∧ (sendAddbaResponse hw env tid dialog reqParam baTimeout s).rxBa
        = s.rxBa := by
  rw [sendAddbaResponse, txMgmtFrame, if_neg (by simp [hup, hskb])]
  exact ⟨_, rfl, rfl, rfl⟩

/-- `rxBaSetup` ends at 64 frames for no size, 64, or more. -/
private theorem window_full_iff (size : Nat) :
    (if size = 0 ∨ kRxBaMaxBuf < size then kRxBaMaxBuf else size) = 64
      ↔ size = 0 ∨ 64 ≤ size := by
  by_cases h : size = 0 ∨ kRxBaMaxBuf < size
  · rw [if_pos h]
    exact ⟨fun _ => h.imp_right Nat.le_of_lt, fun _ => rfl⟩
  · rw [if_neg h]
    simp only [kRxBaMaxBuf] at h
    omega

/-- The twelve bits of an SSN. -/
private theorem addbaSsn_lt (b : List UInt8) : addbaSsn b < 4096 := by
  have hlt := (le16At b 7).toNat_lt
  simp only [addbaSsn, UInt16.toNat_shiftRight, UInt16.reduceToNat,
    Nat.reduceMod, Nat.shiftRight_eq_div_pow]
  omega

-- ==================================================================== result

/-- An ADDBA request is answered, and the answer agrees with the reorder
window if and only if the TID is below 8 and the size asked for is zero
or at least 64. -/
theorem addba_response_agrees_iff {b : List UInt8} {s : Mlme}
    (hlen : 9 ≤ b.length) (hreq : peek b 1 = actionAddbaReq)
    (hup : s.up = true) (hskb : env.mgmtSkb = true)
    (halloc : env.baAlloc = true) :
    ∃ skb, (handleBackAction hw env b s).log.head? = some (.tx skb)
      ∧ (AddbaAgrees b skb.data (handleBackAction hw env b s).rxBa
        ↔ addbaTid b < 8 ∧ (addbaSize b = 0 ∨ 64 ≤ addbaSize b)) := by
  have hback : handleBackAction hw env b s
      = sendAddbaResponse hw env ((le16At b 3 >>> 2) &&& 0xf).toUInt8
        (peek b 2) (le16At b 3) (le16At b 5)
        (s.rxBaSetup env (addbaTid b) (addbaSsn b) (addbaSize b)) := by
    rw [handleBackAction, if_neg (by omega), if_pos hreq,
      if_neg (by omega)]
    rfl
  have hup' : (s.rxBaSetup env (addbaTid b) (addbaSsn b) (addbaSize b)).up
      = true := by
    rw [Mlme.rxBaSetup, (kfreeAll_keeps _ _).1]
    exact hup
  obtain ⟨skb, hsent, hdata, hrx⟩ := @sendAddbaResponse_sends hw _ _ hup'
    hskb ((le16At b 3 >>> 2) &&& 0xf).toUInt8 (peek b 2) (le16At b 3)
    (le16At b 5)
  rw [← hback] at hsent hrx
  refine ⟨skb, hsent, ?_⟩
  rw [hrx, Mlme.rxBaSetup, (kfreeAll_keeps _ _).2, halloc, AddbaAgrees, hdata,
    addbaStatus_response, addbaGranted_response, windowOf_setup,
    Nat.mod_eq_of_lt (addbaSsn_lt b)]
  constructor
  · intro h
    obtain ⟨r, hr, _, _, hsize⟩ := h rfl
    split at hr
    next htid =>
      rw [← Option.some.inj hr] at hsize
      exact ⟨htid, (window_full_iff _).1 hsize⟩
    next => cases hr
  · rintro ⟨htid, hsize⟩ _
    rw [if_pos htid]
    exact ⟨_, rfl, rfl, rfl, (window_full_iff _).2 hsize⟩

/-- An ADDBA request for TID 3, SSN 100 and this many frames. -/
def sampleAddba (size : UInt16) : List UInt8 :=
  [categoryBack, actionAddbaReq, 1]
    ++ le16 ((2 : UInt16) ||| ((3 : UInt16) <<< (2 : UInt16))
      ||| (size <<< (6 : UInt16)))
    ++ [0, 0] ++ le16 ((100 : UInt16) <<< (4 : UInt16))

/-- A request for 64 frames. -/
theorem sample_addba_agrees :
    let b := sampleAddba 64
    let s := handleBackAction (sampleHw samplePrims) {} b (Mlme.init true)
    ∃ skb, s.log.head? = some (.tx skb)
      ∧ (AddbaAgrees b skb.data s.rxBa
        ↔ addbaTid b < 8 ∧ (addbaSize b = 0 ∨ 64 ≤ addbaSize b)) :=
  addba_response_agrees_iff (by decide) (by decide) rfl rfl rfl

/-- A request for 16 frames is granted 64, over a window of 16. -/
theorem small_window_overgranted :
    let b := sampleAddba 16
    let s := handleBackAction (sampleHw samplePrims) {} b (Mlme.init true)
    let skb : TxSkb :=
      { data := addbaResponse (sampleHw samplePrims) 3 1 (le16At b 3) 0
          (Mlme.init true)
        flags := txCtlFirstFragment ||| txCtlNoAck, sta := none
        hwKey := none, protocol := none }
    s.log.head? = some (.tx skb) ∧ ¬AddbaAgrees b skb.data s.rxBa := by
  intro b s skb
  refine ⟨by decide +kernel, fun h => ?_⟩
  obtain ⟨r, hr, _, _, hsize⟩ := h (by decide +kernel)
  have hwindow : (windowOf s.rxBa (addbaTid b)).map (·.bufSize) = some 16 := by
    decide +kernel
  have hgranted : addbaGranted skb.data = 64 := by decide +kernel
  rw [hr] at hwindow
  rw [hgranted] at hsize
  exact absurd ((Option.some.inj hwindow).symm.trans hsize) (by decide)

end Rtw88
