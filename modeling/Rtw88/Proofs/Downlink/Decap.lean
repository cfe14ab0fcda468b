/-
What `deliverDataFrame` makes of a frame from the AP.

The receiver computes where the body is from the frame control alone
(`hdrlen_fc`), and this is where it is up to HT Control, of which it
does not know (`behind_header`). From there on the A-MSDU branch goes by
the Protected bit (`decap_amsdu`), the other by what it finds
(`decap_single`); either way the frames that reach the stack are the
calls of `deliverEthernet` for which there was a packet
(`stackFrames_deliver`).

A frame is given by its header and its body, with every choice that the
frame control shows: QoS control, HT Control, the Protected bit with or
without a CCMP header behind it, as the hardware may have taken that
out. `Decap` lists the calls, with the offset of each MSDU in the frame,
since the offset decides which answer of the allocator the call gets.
-/
import Mathlib.Data.Nat.Bitwise
import Rtw88.Proofs.Amsdu
import Rtw88.Proofs.ControlledPort
import Rtw88.Proofs.Relay
import Rtw88.Spec.Downlink

namespace Rtw88

variable {hw : Hw} {env : Env} {h : DownHdr} {left : Bool}
  {body : List UInt8} {skb : SkBuff} {s : Mlme}

-- ============================================================= frame control

/-- A bit is set or not. -/
private theorem and_qosBit (fc : UInt16) :
    fc &&& 0x0080 = 0 ∨ fc &&& 0x0080 = 0x0080 := by
  have hbit : (fc &&& 0x0080).toNat = (fc.toNat.testBit 7).toNat * 2 ^ 7 := by
    rw [UInt16.toNat_and]
    exact Nat.and_two_pow _ 7
  cases hb : fc.toNat.testBit 7 with
  | false =>
      rw [hb] at hbit
      exact .inl (UInt16.toNat_inj.1 hbit)
  | true =>
      rw [hb] at hbit
      exact .inr (UInt16.toNat_inj.1 hbit)

/-- The header the receiver reckons with: QoS control, no HT Control. -/
theorem DownHdr.hdrlen_fc (h : DownHdr) :
    hdrlen h.fc = 24 + (if h.hasQos then 2 else 0) := by
  have hnot : ¬ h.fc &&& 0x0300 = 0x0300 := by
    have hdir : h.fc &&& 0x0300 = 0x0200 := h.fromDs
    rw [hdir]
    decide
  have hdata : h.fc &&& 0x000c = ftypeData := beq_iff_eq.1 h.data
  unfold hdrlen
  rw [if_neg hnot]
  cases hq : h.hasQos with
  | false =>
      have hno : h.fc &&& 0x0080 = 0 := by
        simpa [DownHdr.hasQos, stypeQosData] using hq
      rw [if_neg (fun hqos => hqos.1 hno)]
      rfl
  | true =>
      have hyes : h.fc &&& 0x0080 ≠ 0 := by
        simpa [DownHdr.hasQos, stypeQosData] using hq
      rw [if_pos (show _ ∧ _ from ⟨hyes, hdata⟩)]
      rfl

/-- And whether there is QoS control. -/
theorem DownHdr.isDataQos_fc (h : DownHdr) : isDataQos h.fc = h.hasQos := by
  have hdata : h.fc &&& 0x000c = ftypeData := beq_iff_eq.1 h.data
  have hboth : h.fc &&& 0x008c = ftypeData ||| (h.fc &&& 0x0080) := by
    rw [← hdata]
    apply UInt16.toBitVec_inj.1
    exact BitVec.and_or_distrib_left (y := 0x000c#16) (z := 0x0080#16)
  unfold isDataQos DownHdr.hasQos
  rw [hboth]
  rcases and_qosBit h.fc with hno | hyes
  · rw [hno, show h.fc &&& stypeQosData = 0 from hno]
    rfl
  · rw [hyes, show h.fc &&& stypeQosData = 0x0080 from hyes]
    rfl

-- ==================================================================== layout

/-- HT Control, where there is one. -/
def DownHdr.htcPart (h : DownHdr) : List UInt8 :=
  if h.hasHtc then h.htc.toList else []

/-- What the receiver reads off the header. -/
theorem header_reads (hskb : skb.data = h.frame left body) :
    frameControl skb.mem = h.fc ∧ addr1 skb.data = h.addr1
      ∧ addr3 skb.data = h.addr3
      ∧ skb.data.drop 24 = (if h.hasQos then h.qosCtl.toList else [])
        ++ (h.htcPart ++ (h.ccmp left ++ body)) := by
  have hall : skb.data = le16 h.fc ++ (le16 h.duration ++ (h.addr1.toList
      ++ (h.addr2.toList ++ (h.addr3.toList ++ (le16 h.seq
      ++ ((if h.hasQos then h.qosCtl.toList else [])
      ++ (h.htcPart ++ (h.ccmp left ++ body)))))))) := by
    rw [hskb, DownHdr.frame, DownHdr.bytes, DownHdr.htcPart]
    simp only [List.append_assoc]
  have hdrop : skb.data.drop 4 = h.addr1.toList ++ (h.addr2.toList
      ++ (h.addr3.toList ++ (le16 h.seq
      ++ ((if h.hasQos then h.qosCtl.toList else [])
      ++ (h.htcPart ++ (h.ccmp left ++ body)))))) := by
    rw [hall]
    rfl
  obtain ⟨h₁, -, h₃, hrest⟩ := addrs_of_drop hdrop
  refine ⟨?_, h₁, h₃, drop_add_of_append (n := 2) hrest rfl⟩
  rw [SkBuff.mem, hall, List.append_assoc]
  exact le16At_le16 h.fc _

/-- Where the receiver looks for the body: HT Control, the CCMP header
and the body, as far as they are there. -/
theorem behind_header (hskb : skb.data = h.frame left body) :
    skb.data.drop (hdrlen h.fc) = h.htcPart ++ (h.ccmp left ++ body) := by
  obtain ⟨-, -, -, hdrop⟩ := header_reads hskb
  rw [h.hdrlen_fc]
  cases hq : h.hasQos with
  | false =>
      rw [hq] at hdrop
      exact hdrop
  | true =>
      rw [hq] at hdrop
      exact drop_add_of_append hdrop h.qosCtl.toList_length

/-- The receiver sees whether the body is an A-MSDU. -/
theorem aggregates_read (hskb : skb.data = h.frame left body) :
    (isDataQos h.fc && peek skb.data (hdrlen h.fc - 2) &&& 0x80 != 0)
      = h.aggregates := by
  obtain ⟨-, -, -, hdrop⟩ := header_reads hskb
  rw [h.isDataQos_fc, DownHdr.aggregates, h.hdrlen_fc]
  cases hq : h.hasQos with
  | false => rfl
  | true =>
      rw [hq] at hdrop
      have hpeek := peek_of_drop_append (i := 0) hdrop
        (by rw [if_pos rfl, List.Vector.toList_length]; decide)
      rw [if_pos rfl] at hpeek
      show (true && peek skb.data (24 + 0) &&& 0x80 != 0) = _
      rw [hpeek]

/-- The bytes behind the header are in the frame. -/
theorem length_frame (hskb : skb.data = h.frame left body) :
    skb.data.length = hdrlen h.fc + (h.htcPart.length
      + ((h.ccmp left).length + body.length)) := by
  have hcut := congrArg List.length (behind_header hskb)
  rw [List.length_drop, List.length_append, List.length_append] at hcut
  have hlen : 24 ≤ skb.data.length := by
    rw [hskb, DownHdr.frame, DownHdr.bytes]
    simp only [List.length_append, le16_length, List.Vector.toList_length]
    omega
  have hhdr : hdrlen h.fc ≤ skb.data.length := by
    rw [h.hdrlen_fc, hskb, DownHdr.frame, DownHdr.bytes]
    cases hq : h.hasQos <;>
      simp only [List.length_append, le16_length, List.Vector.toList_length,
        if_true, Bool.false_eq_true, if_false] <;> omega
  omega

-- ============================================================= decapsulation

/-- The A-MSDU branch: the subframes behind the header, and behind eight
more bytes if the frame is protected. -/
theorem decap_amsdu (hskb : skb.data = h.frame left body)
    (hagg : h.aggregates = true)
    (hlen : hasProtected h.fc = true → hdrlen h.fc + 8 ≤ skb.data.length) :
    decap skb = .amsdu (deAmsdu (skb.data.drop
      (hdrlen h.fc + if hasProtected h.fc then 8 else 0)) skb.data.length 0) := by
  have hhdr := length_frame hskb
  simp only [decap, (header_reads hskb).1, aggregates_read hskb, hagg, if_true]
  rw [if_neg (by omega)]
  cases hprot : hasProtected h.fc with
  | false => rfl
  | true =>
      have := hlen hprot
      simp only [if_true]
      rw [if_neg (by omega)]

/-- Where LLC/SNAP is looked for in the other branch. -/
def llcOffset (d : List UInt8) (prot : Bool) (off : Nat) : Nat :=
  if !isSnap d off && prot && decide (off + 16 ≤ d.length)
      && isSnap d (off + 8) then off + 8 else off

/-- The other branch. -/
theorem decap_single (hskb : skb.data = h.frame left body)
    (hagg : h.aggregates = false)
    (hlen : hdrlen h.fc + 8 ≤ skb.data.length) :
    let off := llcOffset skb.data (hasProtected h.fc) (hdrlen h.fc)
    decap skb = .single
      { da := h.addr1, sa := h.addr3
        ethertype := if isSnap skb.data off then be16At skb.data (off + 6)
          else 0
        payload := skb.data.drop (off + 8) } := by
  obtain ⟨hfc, h₁, h₃, -⟩ := header_reads hskb
  simp only [decap, hfc, aggregates_read hskb, hagg, h₁, h₃,
    Bool.false_eq_true, if_false]
  rw [if_neg (by omega), if_neg (by omega)]
  rfl

-- ================================================================= the stack

/-- The calls of `deliverEthernet`, each with the offset of its MSDU. -/
def Decap.calls : Decap → List (Nat × EthFrame)
  | drop => []
  | amsdu msdus => msdus
  | single msdu => [(0, msdu)]

private theorem stackFrames_deliverEthernet (pos : Nat) (f : EthFrame)
    (s : Mlme) :
    stackFrames (deliverEthernet env pos f s).log
      = (if env.inputPacket pos then [f] else []) ++ stackFrames s.log := by
  unfold deliverEthernet
  split
  · rfl
  · rfl

private theorem stackFrames_kfreeSkb (s : Mlme) :
    stackFrames (kfreeSkb skb s).log = stackFrames s.log := rfl

private theorem stackFrames_foldl (msdus : List (Nat × EthFrame)) (s : Mlme) :
    stackFrames
        (msdus.foldl (fun s m => deliverEthernet env m.1 m.2 s) s).log
      = ((msdus.filter fun m => env.inputPacket m.1).map Prod.snd).reverse
        ++ stackFrames s.log := by
  induction msdus generalizing s with
  | nil => rfl
  | cons m msdus ih =>
      rw [List.foldl_cons, ih, stackFrames_deliverEthernet, List.filter_cons]
      cases env.inputPacket m.1 with
      | false => rfl
      | true =>
          simp only [if_true, List.map_cons, List.reverse_cons,
            List.append_assoc]

/-- In CONNECTED the stack gets the frame of each call for which there is
a packet, in order. -/
theorem stackFrames_deliver (hs : s.state = .connected) :
    stackFrames (deliverDataFrame hw env skb s).log
      = (((decap skb).calls.filter fun m => env.inputPacket m.1).map
          Prod.snd).reverse ++ stackFrames s.log := by
  rw [deliverDataFrame]
  cases decap skb with
  | drop => rfl
  | amsdu msdus =>
      exact (stackFrames_kfreeSkb _).trans (stackFrames_foldl msdus s)
  | single msdu =>
      have hnot : ¬ (msdu.ethertype = ethPPae ∧ s.state = .handshaking) := by
        rw [hs]
        intro hpae
        cases hpae.2
      simp only [if_neg hnot]
      rw [stackFrames_kfreeSkb, stackFrames_deliverEthernet, Decap.calls,
        List.filter_cons]
      cases env.inputPacket 0 with
      | false => rfl
      | true => rfl

end Rtw88
