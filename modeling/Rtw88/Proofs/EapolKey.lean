/-
What `sendEAPOLKey` writes is what `handleEAPOL` and `eapol_mic_ok` read:
`eapol_key_read_back`.

The builder's offsets count from the key descriptor, the reader's from
the EAPOL header, four bytes before it; `EapolKeyReads` collects what
stands where, for any key data that leaves room for its length.

The MIC is computed over the frame with its MIC field zeroed, by both
sides: the builder before it stores the MIC, the reader on a copy in
which it zeroes the field again (`eapolKeyFrame_splice`). So the reader's
input is the builder's, and the MIC verifies under the same key
(`eapolMicOk_eapolMic`).

An answer goes out as a data frame, behind an 802.11 header and
LLC/SNAP, and protected frames have eight bytes more between the two. The
frame transmitted is read behind whatever is in front of it
(`dataFrame_answer_reads`, `sendEAPOLKey_sends`).
-/
import Rtw88.Spec.AccessPoint
import Rtw88.Proofs.Relay

namespace Rtw88

variable {hw : Hw} {env : Env}

-- =================================================================== layout

/-- The fields of an EAPOL-Key frame at the reader's offsets. -/
structure EapolKeyReads (f : List UInt8) (keyInfo : UInt16)
    (replay : Bytes 8) (nonce : Bytes 32) (mic : Bytes 16)
    (keyData : List UInt8) : Prop where
  length : f.length = 99 + keyData.length
  packet : peek f 1 = 3
  bodyLen : be16At f 2 = UInt16.ofNat (95 + keyData.length)
  info : be16At f 5 = keyInfo
  replayCtr : grab f 9 8 = replay
  nonce : grab f 17 32 = nonce
  micField : grab f 81 16 = mic
  dataLen : be16At f 97 = UInt16.ofNat keyData.length
  keyData : f.drop 99 = keyData

theorem eapolKeyFrame_reads (keyInfo : UInt16) (replay : Bytes 8)
    (nonce : Bytes 32) (mic : Bytes 16) (keyData : List UInt8) :
    EapolKeyReads (eapolKeyFrame keyInfo replay nonce mic keyData) keyInfo
      replay nonce mic keyData := by
  generalize hf : eapolKeyFrame keyInfo replay nonce mic keyData = f
  simp only [eapolKeyFrame, List.append_assoc] at hf
  -- each field in front of all that follows it
  have h0 : f.drop 0 = [2, 3] ++ _ := hf.symm
  have h2 := drop_add_of_append h0 rfl
  have h4 := drop_add_of_append h2 (be16_length _)
  have h5 := drop_add_of_append h4 rfl
  have h7 := drop_add_of_append h5 (be16_length _)
  have h9 := drop_add_of_append h7 rfl
  have h17 := drop_add_of_append h9 replay.toList_length
  have h49 := drop_add_of_append h17 nonce.toList_length
  have h81 := drop_add_of_append h49 List.length_replicate
  have h97 := drop_add_of_append h81 mic.toList_length
  have h99 := drop_add_of_append h97 (be16_length _)
  refine {
    length := ?_
    packet := peek_of_drop (drop_add_of_append (n := 1)
      (show _ = [2] ++ _ from h0) rfl)
    bodyLen := be16At_of_drop h2
    info := be16At_of_drop h5
    replayCtr := List.Vector.eq _ _ (grab_of_drop h9 replay.toList_length)
    nonce := List.Vector.eq _ _ (grab_of_drop h17 nonce.toList_length)
    micField := List.Vector.eq _ _ (grab_of_drop h81 mic.toList_length)
    dataLen := be16At_of_drop h97
    keyData := h99 }
  rw [← hf]
  simp only [List.length_append, be16_length, List.length_replicate,
    List.Vector.toList_length, List.length_cons, List.length_nil]
  omega

/-- With the MIC field zeroed, it is the frame the MIC was computed
over. -/
theorem eapolKeyFrame_splice (keyInfo : UInt16) (replay : Bytes 8)
    (nonce : Bytes 32) (mic mic' : Bytes 16) (keyData : List UInt8) :
    splice (eapolKeyFrame keyInfo replay nonce mic keyData) 81 mic'.toList
      = eapolKeyFrame keyInfo replay nonce mic' keyData := by
  have hcut : ∀ head x y t u : List UInt8, head.length = 81 →
      x.length = 16 → y.length = 16 →
      splice (head ++ x ++ t ++ u) 81 y = head ++ y ++ t ++ u := by
    intro head x y t u hhead hx hy
    rw [List.append_assoc (head ++ x), List.append_assoc head,
      splice, hy, List.take_left' hhead, ← List.append_assoc head x,
      List.drop_left' (by rw [List.length_append, hhead, hx]),
      ← List.append_assoc (head ++ y)]
  unfold eapolKeyFrame
  apply hcut
  · simp only [List.length_append, be16_length, List.length_replicate,
      List.Vector.toList_length, List.length_cons, List.length_nil]
  · exact mic.toList_length
  · exact mic'.toList_length

/-- `handleEAPOL` takes the frame to be as long as it is. -/
theorem EapolKeyReads.eapolLen_eq {f : List UInt8} {keyInfo : UInt16}
    {replay : Bytes 8} {nonce : Bytes 32} {mic : Bytes 16}
    {keyData : List UInt8}
    (h : EapolKeyReads f keyInfo replay nonce mic keyData)
    (hfit : keyData.length ≤ 65440) : eapolLen f = some f.length := by
  have hbody : 4 + (be16At f 2).toNat = f.length := by
    rw [h.bodyLen, h.length, UInt16.toNat_ofNat']
    omega
  have hge := h.length
  unfold eapolLen
  simp only
  rw [hbody, h.packet, if_neg, if_neg]
  · omega
  · rw [not_or]
    exact ⟨by omega, fun hno => hno rfl⟩

/-- `eapol_mic_ok` accepts the MIC under the key it was made with. -/
theorem eapolMicOk_eapolMic (pr : Prims) (kck : Bytes 16) (keyInfo : UInt16)
    (replay : Bytes 8) (nonce : Bytes 32) (keyData : List UInt8) :
    let frame := fun mic => eapolKeyFrame keyInfo replay nonce mic keyData
    eapolMicOk pr true kck (frame (eapolMic pr kck frame)) = true := by
  intro frame
  have hreads : EapolKeyReads (frame (eapolMic pr kck frame)) keyInfo replay
      nonce (eapolMic pr kck frame) keyData :=
    eapolKeyFrame_reads keyInfo replay nonce _ keyData
  have hzero : splice (frame (eapolMic pr kck frame)) 81
      (List.replicate 16 0) = frame (zeros 16) := by
    rw [← zeros_toList]
    exact eapolKeyFrame_splice keyInfo replay nonce _ (zeros 16) keyData
  have hmic : (eapolMic pr kck frame).toList
      = (pr.hmacSha1 kck.toList (frame (zeros 16))).toList.take 16 := by
    unfold eapolMic
    rw [grab_eq_slice, List.drop_zero]
    rw [List.Vector.toList_length]
    omega
  have hlen : ¬(frame (eapolMic pr kck frame)).length < 99 := by
    rw [hreads.length]
    omega
  unfold eapolMicOk
  simp only [hlen, decide_false, Bool.not_true, Bool.or_self,
    Bool.false_eq_true, if_false]
  rw [hreads.micField, hzero, hmic]
  exact beq_self_eq_true _

-- ===================================================================== sent

/-- The key data of step `step`. -/
def stepData (step : Nat) (s : Mlme) : List UInt8 :=
  if step = 2 then rtw88BuildSelectedRsnIe s.targetBSS.groupCipher else []

/-- The MIC of an answer. -/
def answerMic (hw : Hw) (step : Nat) (replay : Bytes 8) (s : Mlme) :
    Bytes 16 :=
  grab (hw.prims.hmacSha1 (kckOf s.ptk).toList
    (eapolKeyFrame (keyInfoOf step false false true) replay s.snonce (zeros 16)
      (stepData step s))).toList 0 16

/-- The EAPOL frame of an answer. -/
def answerFrame (hw : Hw) (step : Nat) (replay : Bytes 8)
    (s : Mlme) : List UInt8 :=
  eapolKeyFrame (keyInfoOf step false false true) replay s.snonce
    (answerMic hw step replay s) (stepData step s)

/-- What stands where in it. -/
theorem answerFrame_reads (step : Nat) (replay : Bytes 8) (s : Mlme) :
    EapolKeyReads (answerFrame hw step replay s)
      (keyInfoOf step false false true) replay s.snonce
      (answerMic hw step replay s) (stepData step s) :=
  eapolKeyFrame_reads _ _ _ _ _

private theorem stepData_length (step : Nat) (s : Mlme) :
    (stepData step s).length ≤ 22 := by
  unfold stepData
  split
  · exact Nat.le_refl 22
  · exact Nat.zero_le 22

/-- A sent answer ends with its EAPOL frame, behind LLC/SNAP. -/
private theorem answer_sent {packet e : List UInt8} {s : Mlme}
    (htype : be16At packet 12 = ethPPae) (he : packet.drop 14 = e)
    (htx : (txDataFrame hw env packet s).1 = true) :
    ∃ skb hdr, (txDataFrame hw env packet s).2.log = .tx skb :: s.log
      ∧ skb.data = hdr ++ snapHdr ethPPae ++ e := by
  obtain ⟨skb, seq, pn, s', hlog, hdata⟩ := txDataFrame_log htx
  simp only [dataFrame, htype, he] at hdata
  exact ⟨skb, _, hlog, hdata⟩

/-- `eapol_mic_ok` accepts it under the same key. -/
theorem answer_mic (step : Nat) (replay : Bytes 8) (s : Mlme) :
    eapolMicOk hw.prims true (kckOf s.ptk) (answerFrame hw step replay s)
      = true :=
  eapolMicOk_eapolMic hw.prims (kckOf s.ptk) (keyInfoOf step false false true)
    replay s.snonce (stepData step s)

/-- A data frame with an answer in it, read behind its header. -/
theorem dataFrame_answer_reads {step : Nat} {replay : Bytes 8} {s s' : Mlme}
    {packet frame : List UInt8} {seq : UInt16} {pn : Bytes 6}
    (hpacket : s.targetBSS.bssid.toList ++ hw.macAddr.toList
      ++ be16 ethPPae ++ answerFrame hw step replay s = packet)
    (hframe : frame
      = dataFrame hw packet seq (txKey (be16At packet 12) s) pn s') :
    isData (frameControl frame) = true
      ∧ isSnap frame (hdrlen (frameControl frame)) = true
      ∧ be16At frame (hdrlen (frameControl frame) + 6) = ethPPae
      ∧ frame.drop (hdrlen (frameControl frame) + 8)
        = answerFrame hw step replay s := by
  obtain ⟨htype, hbody⟩ := ethernet_reads s.targetBSS.bssid hw.macAddr
    ethPPae (answerFrame hw step replay s)
  rw [hpacket] at htype hbody
  -- a frame of this type is never encrypted
  have hplain : txKey (be16At packet 12) s = none := by
    rw [htype]
    unfold txKey
    rw [bne_self_eq_false, Bool.and_false]
    rfl
  obtain ⟨hkind, hsnap, hether, hdrop⟩ :=
    @dataFrame_plain_reads hw packet seq pn s'
  rw [hplain] at hframe
  rw [← hframe] at hkind hsnap hether hdrop
  exact ⟨hkind, hsnap, hether.trans htype, hdrop.trans hbody⟩

/-- An answer goes out, to be read behind the header as one with the
current SNonce, or nothing does. -/
theorem sendEAPOLKey_sends (step : Nat) (replay : Bytes 8) (s : Mlme) :
    let t := sendEAPOLKey hw env step replay false false true s
    t.log = s.log ∨ ∃ skb, t.log = .tx skb :: s.log
      ∧ isData (frameControl skb.data) = true
      ∧ isSnap skb.data (hdrlen (frameControl skb.data)) = true
      ∧ be16At skb.data (hdrlen (frameControl skb.data) + 6) = ethPPae
      ∧ ∃ mic, EapolKeyReads
          (skb.data.drop (hdrlen (frameControl skb.data) + 8))
          (keyInfoOf step false false true) replay s.snonce mic
          (stepData step s) := by
  intro t
  generalize hpacket : s.targetBSS.bssid.toList ++ hw.macAddr.toList
    ++ be16 ethPPae ++ answerFrame hw step replay s = packet
  have ht : t = if !env.packetMbuf then s
      else (txDataFrame hw env packet s).2 := by
    rw [← hpacket]
    rfl
  rw [ht]
  split
  · exact .inl rfl
  · rcases @txDataFrame_outcome hw env packet s with
      h | h | ⟨skb, seq, pn, s', -, h, hlog, hdata, -⟩
    · rw [h]
      exact .inl rfl
    · rw [h]
      exact .inl (txCounters_same _ s).1
    · rw [h]
      obtain ⟨hkind, hsnap, hether, hdrop⟩ :=
        dataFrame_answer_reads hpacket hdata
      refine .inr ⟨skb, congrArg (List.cons (Obs.tx skb)) hlog, hkind, hsnap,
        hether, answerMic hw step replay s, ?_⟩
      rw [hdrop]
      exact answerFrame_reads step replay s

-- =================================================================== result

/-- What `sendEAPOLKey` sends as message 2 or 4 reads back, at the offsets
of `handleEAPOL` and `eapol_mic_ok`, as the same replay counter, nonce
and key data; its three lengths agree; its MIC is accepted under the same
key; the key data of message 2 is the RSN element at the end of the
association request to the same target; and `handleEAPOL` takes it for
neither M1 nor M3 and ignores it. -/
theorem eapol_key_read_back {step : Nat} (hstep : step = 2 ∨ step = 4)
    (env : Env) (replay : Bytes 8) (s : Mlme) :
    ∃ packet e : List UInt8,
      sendEAPOLKey hw env step replay false false true s
          = (if !env.packetMbuf then s else (txDataFrame hw env packet s).2)
      ∧ packet = s.targetBSS.bssid.toList ++ hw.macAddr.toList
          ++ be16 ethPPae ++ e
      ∧ ((txDataFrame hw env packet s).1 = true →
        ∃ skb hdr, (txDataFrame hw env packet s).2.log = .tx skb :: s.log
          ∧ skb.data = hdr ++ snapHdr ethPPae ++ e)
      ∧ grab e 9 8 = replay ∧ grab e 17 32 = s.snonce
      ∧ eapolLen e = some e.length
      ∧ 4 + (be16At e 2).toNat = e.length
      ∧ 99 + (be16At e 97).toNat = e.length
      ∧ eapolMicOk hw.prims true (kckOf s.ptk) e = true
      ∧ (step = 2 → ∀ s' : Mlme, s'.targetBSS = s.targetBSS →
        s'.wpa2 = true → ∃ before,
          (buildAssocReq hw s').1 = before ++ e.drop 99
            ∧ e.drop 99 = rtw88BuildSelectedRsnIe s'.targetBSS.groupCipher)
      ∧ isM1 (be16At e 5) = false ∧ isM3 (be16At e 5) = false
      ∧ ∀ (env' : Env) (s' : Mlme), handleEAPOL hw env' e s' = s' := by
  have hreads := @answerFrame_reads hw step replay s
  generalize hpacket : s.targetBSS.bssid.toList ++ hw.macAddr.toList
    ++ be16 ethPPae ++ answerFrame hw step replay s = packet
  have hsmall := stepData_length step s
  have hbody : 4 + (be16At (answerFrame hw step replay s) 2).toNat
      = (answerFrame hw step replay s).length := by
    rw [hreads.bodyLen, hreads.length, UInt16.toNat_ofNat']
    omega
  have hdata : 99 + (be16At (answerFrame hw step replay s) 97).toNat
      = (answerFrame hw step replay s).length := by
    rw [hreads.dataLen, hreads.length, UInt16.toNat_ofNat']
    omega
  have hlen : eapolLen (answerFrame hw step replay s)
      = some (answerFrame hw step replay s).length :=
    hreads.eapolLen_eq (by omega)
  have hm1 : isM1 (be16At (answerFrame hw step replay s) 5) = false := by
    rw [hreads.info]
    rcases hstep with rfl | rfl <;> decide
  have hm3 : isM3 (be16At (answerFrame hw step replay s) 5) = false := by
    rw [hreads.info]
    rcases hstep with rfl | rfl <;> decide
  refine ⟨packet, answerFrame hw step replay s, ?_, hpacket.symm,
    answer_sent ?_ ?_, hreads.replayCtr, hreads.nonce, hlen, hbody, hdata,
    answer_mic step replay s, fun htwo s' htarget hwpa2 => ?_, hm1, hm3,
    fun env' s' => ?_⟩
  · rw [← hpacket]
    rfl
  · rw [← hpacket]
    exact (ethernet_reads _ _ _ _).1
  · rw [← hpacket]
    exact (ethernet_reads _ _ _ _).2
  · have hkey : (answerFrame hw step replay s).drop 99
        = rtw88BuildSelectedRsnIe s'.targetBSS.groupCipher := by
      rw [hreads.keyData, stepData, if_pos htwo, htarget]
    have hreq : ∃ before, (buildAssocReq hw s').1 = before
        ++ if s'.wpa2 then rtw88BuildSelectedRsnIe s'.targetBSS.groupCipher
          else [] := ⟨_, rfl⟩
    obtain ⟨before, hreq⟩ := hreq
    rw [hwpa2, if_pos rfl] at hreq
    exact ⟨before, hkey ▸ hreq, hkey⟩
  · unfold handleEAPOL
    rw [hlen]
    simp only [hm1, hm3, Bool.false_eq_true, if_false]

/-- Message 2 of the sample network: 99 bytes and an RSN element of 22. -/
theorem sample_key_read_back :
    let hw := sampleHw samplePrims
    let s := (sysRun hw true joinEvents).mlme
    ∃ (skb : TxSkb) (hdr e : List UInt8),
      (sendEAPOLKey hw {} 2 (zeros 8) false false true s).log
          = .tx skb :: s.log
        ∧ skb.data = hdr ++ snapHdr ethPPae ++ e ∧ e.length = 121
        ∧ grab e 9 8 = zeros 8 ∧ grab e 17 32 = s.snonce
        ∧ eapolLen e = some 121 ∧ (be16At e 97).toNat = 22
        ∧ eapolMicOk hw.prims true (kckOf s.ptk) e = true
        ∧ isM1 (be16At e 5) = false ∧ isM3 (be16At e 5) = false
        ∧ handleEAPOL hw {} e s = s := by
  intro hw s
  have hwpa : s.wpa2 = true := by decide +kernel
  have hsta : s.sta.isSome = true := by decide +kernel
  have hup : s.up = true := by decide +kernel
  clear_value s
  obtain ⟨packet, e, hsend, hpacket, htx, hreplay, hnonce, hlen, -, hdata,
    hmic, hrsn, hm1, hm3, hignored⟩ :=
    @eapol_key_read_back hw 2 (.inl rfl) {} (zeros 8) s
  obtain ⟨-, -, hkey⟩ := hrsn rfl s rfl hwpa
  have htail : e.length - 99 = 22 := by
    rw [← List.length_drop, hkey]
    rfl
  have htotal : e.length = 121 := by omega
  have hsize : packet.length = 135 := by
    simp [hpacket, htotal, be16_length]
  obtain ⟨skb, hdr, hlog, hframe⟩ := htx (txDataFrame_sends_iff.2
    ⟨hsta, hup, by omega, by omega, rfl, rfl, .inr rfl⟩)
  refine ⟨skb, hdr, e, ?_, hframe, htotal, hreplay, hnonce,
    hlen.trans (congrArg some htotal), by omega, hmic, hm1, hm3,
    hignored {} s⟩
  rw [hsend]
  exact hlog

end Rtw88
