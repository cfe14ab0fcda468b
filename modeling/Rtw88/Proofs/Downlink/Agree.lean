/-
When one MSDU comes out the same on its own and as an A-MSDU:
`deliveries_agree_iff`.

Where the CCMP header is in its place, or there never was one, both
branches find the MSDU; they part over an MSDU without LLC/SNAP, which
only the A-MSDU branch drops. Where the driver took the CCMP header out,
the A-MSDU branch still skips eight bytes of the subframe and reads the
rest as another one.

# The eight bytes

A subframe has the two addresses and a length in front. With eight bytes
skipped the receiver stands in the middle of the source address, takes
what follows for addresses and the bytes at the place of the length for a
length (`stripped_reads`). So what it finds depends on the packet's own
bytes, and it can come out right only if these repeat themselves
(`agree_stripped`). The plain frame is looked at for LLC/SNAP behind the
header and eight bytes further on, and is found in either case.

The equivalence is for every header and every MSDU, with the same answers
of the allocator for both frames (`stack_agrees`).
-/
import Rtw88.Proofs.Downlink.Shapes

namespace Rtw88

variable {hw : Hw} {s : Mlme} {skb skb' : SkBuff} {h h' : DownHdr} {m : Msdu}
  {left : Bool}

-- ==================================================================== calls

/-- The stack gets the same of two frames, whatever packets there are, if
the calls are the same, and then only if they hand on the same frames. -/
theorem stack_agrees (hs : s.state = .connected) :
    ((decap skb).calls = (decap skb').calls →
        ∀ env, stackFrames (deliverDataFrame hw env skb s).log
          = stackFrames (deliverDataFrame hw env skb' s).log)
      ∧ ((∀ env, stackFrames (deliverDataFrame hw env skb s).log
          = stackFrames (deliverDataFrame hw env skb' s).log) →
        (decap skb).calls.map Prod.snd = (decap skb').calls.map Prod.snd) := by
  constructor
  · intro hcalls env
    rw [stackFrames_deliver hs, stackFrames_deliver hs, hcalls]
  · intro hall
    have hdefault := hall {}
    have htrue : ∀ calls : List (Nat × EthFrame),
        calls.filter (fun m => ({} : Env).inputPacket m.1) = calls :=
      fun calls => List.filter_eq_self.2 fun _ _ => rfl
    rwa [stackFrames_deliver hs, stackFrames_deliver hs, htrue, htrue,
      List.append_cancel_right_eq, List.reverse_inj] at hdefault

/-- The plain frame gives one call. -/
theorem calls_plain (hc : h.Carry h' m)
    (hskb : skb.data = h.frame left m.body) :
    let off := llcOffset skb.data (hasProtected h.fc) (hdrlen h.fc)
    (decap skb).calls = [(0,
      { da := m.da, sa := m.sa
        ethertype := if isSnap skb.data off then be16At skb.data (off + 6)
          else 0
        payload := skb.data.drop (off + 8) })] := by
  have hlen := length_frame hskb
  have hlong := m.long
  intro off
  rw [decap_single hskb hc.single (by omega), hc.da, hc.sa]
  rfl

-- ============================================================ header in place

/-- With the CCMP header in its place, or none, the A-MSDU gives the MSDU
if it starts with LLC/SNAP. -/
theorem calls_subframe (hc : h.Carry h' m)
    (hskb : skb'.data = h'.frame true m.subframe) :
    (decap skb').calls = if m.IsLlcSnap then [(0, m.frame)] else [] := by
  have hlen := length_frame hskb
  have hccmp : hasProtected h'.fc = true →
      hdrlen h'.fc + 8 ≤ skb'.data.length := by
    intro hprot
    have h8 : (h'.ccmp true).length = 8 := by
      rw [DownHdr.ccmp, hprot]
      rfl
    omega
  rw [m.subframe_length] at hlen
  obtain ⟨fuel, hfuel⟩ : ∃ k, skb'.data.length = k + 1 :=
    ⟨skb'.data.length - 1, by omega⟩
  rw [decap_amsdu hskb hc.aggregates hccmp, amsdu_data hskb, hc.noHtc',
    if_neg Bool.false_ne_true, List.nil_append, Decap.calls, hfuel,
    deAmsdu_subframe (show _ = m.subframe ++ [] by
      rw [List.drop_zero, List.append_nil]),
    deAmsdu_end (by rw [m.subframe_length]; omega), List.append_nil]

/-- And the plain frame always gives one. -/
theorem agree_in_place (hs : s.state = .connected) (hc : h.Carry h' m)
    (hskb : skb.data = h.frame true m.body)
    (hskb' : skb'.data = h'.frame true m.subframe) :
    (∀ env, stackFrames (deliverDataFrame hw env skb s).log
        = stackFrames (deliverDataFrame hw env skb' s).log)
      ↔ m.IsLlcSnap := by
  have hplain := calls_plain hc hskb
  have hsub := calls_subframe hc hskb'
  constructor
  · intro hall
    have hframes := (stack_agrees hs).2 hall
    by_contra hllc
    rw [hplain, hsub, if_neg hllc] at hframes
    cases hframes
  · intro hllc
    refine (stack_agrees hs).1 ?_
    obtain ⟨hfound, htype, hpay⟩ :=
      llc_reads (llcOffset_found hskb hc.noHtc m.long hllc) m.long hllc
    rw [hplain, hsub, if_pos hllc, if_pos hfound, htype, hpay]
    rfl

-- =========================================================== header taken out

/-- The A-MSDU branch starts in the middle of the source address. -/
theorem amsdu_data_stripped (hc : h.Carry h' m)
    (hskb : skb'.data = h'.frame false m.subframe) :
    skb'.data.drop (hdrlen h'.fc + 8)
      = m.sa.toList.drop 2 ++ (be16 (UInt16.ofNat m.body.length) ++ m.body) := by
  have hbehind := behind_header hskb
  rw [DownHdr.htcPart, hc.noHtc', DownHdr.ccmp, Bool.and_false] at hbehind
  rw [← List.drop_drop, hbehind]
  show m.subframe.drop 8 = _
  rw [Msdu.subframe, show 8 = 6 + 2 from rfl, ← List.drop_drop,
    List.drop_left' m.da.toList_length,
    List.drop_append_of_le_length (by rw [List.Vector.toList_length]; omega)]

/-- What it reads there. -/
theorem stripped_reads {d : List UInt8}
    (hd : d = m.sa.toList.drop 2
      ++ (be16 (UInt16.ofNat m.body.length) ++ m.body)) :
    d.length = 6 + m.body.length
      ∧ (grab d 0 6).toList
        = m.sa.toList.drop 2 ++ be16 (UInt16.ofNat m.body.length)
      ∧ (grab d 6 6).toList = m.body.take 6
      ∧ be16At d 12 = be16At m.body 6 ∧ d.drop 14 = m.body.drop 8 := by
  have hlong := m.long
  have hpre : (m.sa.toList.drop 2
      ++ be16 (UInt16.ofNat m.body.length)).length = 6 := by
    rw [List.length_append, List.length_drop, List.Vector.toList_length,
      be16_length]
  rw [← List.append_assoc] at hd
  have hlen : d.length = 6 + m.body.length := by
    rw [hd, List.length_append, hpre]
  have hsix : d.drop 6 = m.body := by
    rw [hd]
    exact List.drop_left' hpre
  refine ⟨hlen, ?_, ?_, ?_, ?_⟩
  · rw [grab_eq_slice (by omega), List.drop_zero, hd]
    exact List.take_left' hpre
  · rw [grab_eq_slice (by omega), hsix]
  · have hsix' : d.drop 6 = m.body ++ [] := hsix.trans (List.append_nil _).symm
    rw [be16At, be16At]
    rw [show 12 = 6 + 6 from rfl, peek_of_drop_append hsix' (by omega),
      show 6 + 6 + 1 = 6 + 7 from rfl, peek_of_drop_append hsix' (by omega)]
  · rw [← hsix, List.drop_drop]

/-- Eight bytes further only if LLC/SNAP is there and not before. -/
theorem llcOffset_far {d : List UInt8} {prot : Bool} {off : Nat}
    (h : llcOffset d prot off = off + 8) :
    isSnap d off = false ∧ off + 16 ≤ d.length
      ∧ isSnap d (off + 8) = true := by
  unfold llcOffset at h
  split at h
  next hfar =>
    simp only [Bool.and_eq_true, Bool.not_eq_true', decide_eq_true_eq] at hfar
    exact ⟨hfar.1.1.1, hfar.1.2, hfar.2⟩
  · omega

/-- With the CCMP header taken out, the two agree on an MSDU that starts
like a subframe. -/
theorem agree_stripped (hs : s.state = .connected) (hc : h.Carry h' m)
    (hprot : hasProtected h.fc = true)
    (hskb : skb.data = h.frame false m.body)
    (hskb' : skb'.data = h'.frame false m.subframe) :
    (∀ env, stackFrames (deliverDataFrame hw env skb s).log
        = stackFrames (deliverDataFrame hw env skb' s).log)
      ↔ m.Nests := by
  have hlong := m.long
  have hprot' : hasProtected h'.fc = true := hc.prot ▸ hprot
  -- the plain frame: the MSDU is right behind the header
  have hplain := calls_plain hc hskb
  have hbody : skb.data.drop (hdrlen h.fc) = m.body := by
    rw [behind_header hskb, DownHdr.htcPart, hc.noHtc, DownHdr.ccmp,
      Bool.and_false]
    rfl
  have hlen : skb.data.length = hdrlen h.fc + m.body.length := by
    have hcut := length_frame hskb
    rw [DownHdr.htcPart, hc.noHtc, DownHdr.ccmp, Bool.and_false] at hcut
    exact hcut.trans (congrArg _ (Nat.zero_add _ ▸ Nat.zero_add _))
  have hbody' : skb.data.drop (hdrlen h.fc) = m.body ++ [] :=
    hbody.trans (List.append_nil _).symm
  have hsnap := (body_reads hbody').1
  have hsnap8 : 16 ≤ m.body.length →
      (isSnap skb.data (hdrlen h.fc + 8) = true
        ↔ [0xAA, 0xAA, 0x03] <+: m.body.drop 8) := by
    intro hinner
    rw [isSnap_eq_true (by omega), ← List.drop_drop, hbody]
  -- the A-MSDU: the subframe from its ninth byte on
  have hlen' := length_frame hskb'
  have hdata := amsdu_data_stripped hc hskb'
  have hdataLen := congrArg List.length hdata
  simp only [List.length_drop, List.length_append, List.Vector.toList_length,
    be16_length] at hdataLen
  have hagg : (decap skb').calls
      = deAmsdu (skb'.data.drop (hdrlen h'.fc + 8)) skb'.data.length 0 := by
    rw [decap_amsdu hskb' hc.aggregates (fun _ => by omega), hprot']
    rfl
  obtain ⟨hdlen, hda, hsa, hsub, hinner⟩ := stripped_reads hdata
  generalize skb'.data.drop (hdrlen h'.fc + 8) = d
    at hagg hdlen hda hsa hsub hinner
  have hsub' : be16At d (0 + 12) = be16At m.body 6 := hsub
  constructor
  · intro hall
    have hframes := (stack_agrees hs).2 hall
    rw [hplain, hagg] at hframes
    obtain ⟨⟨p, f⟩, hone, hf⟩ := List.map_eq_singleton_iff.1 hframes.symm
    have hstands : StandsIn d (p, f) :=
      (deAmsdu_stands (hone ▸ List.mem_cons_self)).2
    have hinside := hstands.inside
    have hpay := hstands.payload_length
    simp only at hf hinside hpay
    rw [hf, List.length_drop] at hpay
    rcases llcOffset_cases skb.data (hasProtected h.fc) (hdrlen h.fc)
      with hoff | ⟨-, hoff⟩
    · -- the payload would be longer than what the other branch has left
      simp only [hoff] at hpay
      omega
    · obtain ⟨hno, h16, hyes⟩ := llcOffset_far hoff
      simp only [hoff] at hpay
      have hp : p = 0 := by omega
      rw [hp] at hpay hstands
      have hframe : f = _ := hstands.frame
      rw [hf, EthFrame.mk.injEq] at hframe
      obtain ⟨hda', hsa', -⟩ := hframe
      refine ⟨fun hllc => ?_, by omega, (hsnap8 (by omega)).1 hyes, ?_, ?_, ?_⟩
      · rw [hsnap.2 hllc] at hno
        cases hno
      · rw [← hsub', ← hpay]
        omega
      · rw [hda', ← hda]
      · rw [hsa', ← hsa]
  · intro hn
    have hin := hn.inner
    have hmin := hn.length
    refine (stack_agrees hs).1 ?_
    have hoff : llcOffset skb.data (hasProtected h.fc) (hdrlen h.fc)
        = hdrlen h.fc + 8 := by
      have hno : isSnap skb.data (hdrlen h.fc) = false :=
        Bool.eq_false_iff.2 fun hyes => hn.noSnap (hsnap.1 hyes)
      rw [llcOffset, hno, hprot, decide_eq_true (by omega),
        (hsnap8 hin).2 hn.snap]
      rfl
    obtain ⟨hyes, htype, hpay⟩ := llc_reads
      (show skb.data.drop (hdrlen h.fc + 8) = m.body.drop 8 by
        rw [← List.drop_drop, hbody])
      (by rw [List.length_drop]; omega) hn.snap
    obtain ⟨hyes', htype', hpay'⟩ := llc_reads hinner
      (by rw [List.length_drop]; omega) hn.snap
    obtain ⟨fuel, hfuel⟩ : ∃ k, skb'.data.length = k + 1 :=
      ⟨skb'.data.length - 1, by omega⟩
    rw [hplain, hagg, hfuel]
    simp only [hoff]
    rw [if_pos hyes, htype, hpay, deAmsdu]
    simp only [hsub', hmin, Nat.zero_add]
    rw [if_neg (by omega), if_neg (by omega), if_pos hyes',
      deAmsdu_end (by omega)]
    have hda' : grab d 0 6 = m.da :=
      List.Vector.toList_injective (hda.trans hn.da.symm)
    have hsa' : grab d 6 6 = m.sa :=
      List.Vector.toList_injective (hsa.trans hn.sa.symm)
    have hall : (d.drop (14 + 8)).take (m.body.length - 8 - 8)
        = (m.body.drop 8).drop 8 := by
      rw [hpay', List.take_of_length_le (by
        rw [List.length_drop, List.length_drop])]
    rw [hda', hsa', ← htype', ← hall]

-- ==================================================================== result

/-- One MSDU received in CONNECTED as a QoS data frame and as the only
subframe of an A-MSDU, unprotected, protected, or protected with the
CCMP header taken out: the stack gets the same, whatever packets there
are, if and only if it starts with LLC/SNAP and the CCMP header was not
taken out, or was and what the A-MSDU branch skips is the head of
another subframe. -/
theorem deliveries_agree_iff (hs : s.state = .connected)
    (hc : h.Carry h' m) (fill : Bytes 3)
    (hskb : skb.data = h.frame left m.body)
    (hskb' : skb'.data = h'.frame left (amsdu [(m, fill)])) :
    (∀ env, stackFrames (deliverDataFrame hw env skb s).log
        = stackFrames (deliverDataFrame hw env skb' s).log)
      ↔ if hasProtected h.fc && !left then m.Nests else m.IsLlcSnap := by
  have hprot' := hc.prot
  cases hprot : hasProtected h.fc with
  | false =>
      -- no CCMP header either way
      rw [hprot] at hprot'
      have hnone : ∀ body, h.frame left body = h.frame true body
          ∧ h'.frame left body = h'.frame true body := by
        intro body
        simp only [DownHdr.frame, DownHdr.ccmp, hprot, ← hprot',
          Bool.false_and, and_self]
      rw [(hnone _).1] at hskb
      rw [(hnone _).2] at hskb'
      exact agree_in_place hs hc hskb hskb'
  | true =>
      cases left with
      | true => exact agree_in_place hs hc hskb hskb'
      | false => exact agree_stripped hs hc hprot hskb hskb'

/-- The sample packet and one without LLC/SNAP, as MSDUs. -/
def samplePair : Msdu × Msdu :=
  ({ da := sampleMac, sa := sampleAp, body := sampleMsdu
     long := by decide, fits := by decide },
   { da := sampleMac, sa := sampleAp, body := List.replicate 8 0xff
     long := by decide, fits := by decide })

/-- The header of the same kind for an A-MSDU. -/
def sampleAggregate (flags : UInt16) (hdata : isData (0x0288 ||| flags) = true)
    (hfrom : (0x0288 ||| flags) &&& (fctlToDs ||| fctlFromDs) = fctlFromDs) :
    DownHdr :=
  { sampleDown flags hdata hfrom with qosCtl := ⟨[0x80, 0], rfl⟩ }

/-- The sample packet, protected. -/
theorem sample_deliveries_agree :
    let hw := sampleHw samplePrims
    let s := (sysRun hw true joinEvents).mlme
    let h := sampleDown fctlProtected rfl rfl
    let h' := sampleAggregate fctlProtected rfl rfl
    s.state = .connected
      ∧ ∀ env, stackFrames (deliverDataFrame hw env
            { data := h.frame true samplePair.1.body } s).log
          = stackFrames (deliverDataFrame hw env
            { data := h'.frame true (amsdu [(samplePair.1, zeros 3)]) } s).log := by
  intro hw s h h'
  have hs : s.state = .connected := by decide +kernel
  have hc : h.Carry h' samplePair.1 := by
    constructor <;> decide +kernel
  have hllc : samplePair.1.IsLlcSnap := by decide
  refine ⟨hs, ?_⟩
  clear_value s
  have hleft : ¬ (hasProtected h.fc && !true) = true := by
    rw [Bool.not_true, Bool.and_false]
    exact Bool.false_ne_true
  exact (@deliveries_agree_iff hw s _ _ h h' samplePair.1 true hs hc (zeros 3)
    rfl rfl).2 (by rw [if_neg hleft]; exact hllc)

/-- Only the plain frame reaches the stack: the packet, when the driver
took the CCMP header out; the MSDU without LLC/SNAP, unprotected. -/
theorem sample_deliveries_differ :
    let hw := sampleHw samplePrims
    let s := (sysRun hw true joinEvents).mlme
    let stack := fun (h : DownHdr) body =>
      stackFrames (deliverDataFrame hw {} { data := h.frame false body } s).log
    s.state = .connected
      ∧ stack (sampleDown fctlProtected rfl rfl) samplePair.1.body
        = samplePair.1.frame :: stackFrames s.log
      ∧ stack (sampleAggregate fctlProtected rfl rfl)
          (amsdu [(samplePair.1, zeros 3)]) = stackFrames s.log
      ∧ stack (sampleDown 0 rfl rfl) samplePair.2.body
        = { da := sampleMac, sa := sampleAp, ethertype := 0, payload := [] }
          :: stackFrames s.log
      ∧ stack (sampleAggregate 0 rfl rfl) (amsdu [(samplePair.2, zeros 3)])
        = stackFrames s.log := by
  decide +kernel

end Rtw88
