/-
The accesses of the receive path: erasing them gives the model back
(`rxFrameT_val`), and each routine hands its frame on once.

# Two models of one function

`rxFrameT` is `rxFrame` with its reads of the frame, its subtractions of
lengths and the moment it gives the frame away written out, in the order
of the source. The model in Model/Rx.lean leaves them out. The first half
is one lemma a routine that its value is the model's (`…_val`); a routine
that calls others rewrites with theirs. Where the model does two things
in another order than the source, and they do not depend on each other,
the lemma is where that is said (`processAssocResponseT_val`).

# What lies in between

The second half is about routines that only look: they give nothing away,
and what they look at lies between two bounds (`…_looks`). The bounds are
what the caller has tested, so the lemmas of the element walk and of the
RSN parser hold for any element that lies inside, and those of `deAmsdu`
for any payload. Both halves serve Proofs/Bounds.lean and
Proofs/Ownership.lean, which ask different questions of the same trace.
-/
import Rtw88.Model.RxAccess

namespace Rtw88

open Traced

variable {hw : Hw} {env : Env}

-- ================================================================== erasure

/-- Releasing a frame, with the release logged, is releasing it. -/
@[simp] theorem kfreeSkbT_val (skb : SkBuff) (s : Mlme) :
    (kfreeSkbT skb s).val = kfreeSkb skb s := rfl

/-- The length behind the header is a subtraction, and logged as one. -/
@[simp] theorem bodyLenT_val (skb : SkBuff) :
    (bodyLenT skb).val = bodyLen skb := by
  rw [bodyLenT, val]

/-- A suite selector is one read of four bytes. -/
@[simp] theorem suiteT_val (base : Nat) (p : List UInt8) (i : Nat) :
    (suiteT base p i).val = rtw88ReadSuite p i := rfl

/-- The SNAP header, compared byte by byte. -/
theorem isSnapT_val (base : Nat) (d : List UInt8) (off : Nat) :
    (isSnapT base d off).val = isSnap d off := by
  simp only [isSnapT, startsWith, val_bind, val_ite, val_pure,
    isSnap, Nat.add_assoc]
  by_cases h0 : peek d off = 0xAA
  · by_cases h1 : peek d (off + 1) = 0xAA
    · by_cases h2 : peek d (off + 2) = 0x03
      · simp [h0, h1, h2]
      · simp [h0, h1, h2]
    · simp [h0, h1]
  · simp [h0]

/-- The loops over the suites ask whether one is there. -/
private theorem anySuiteT_val (base : Nat) (p : List UInt8) (i : Nat)
    (suite : UInt32) (n : Nat) :
    (anySuiteT base p i suite n).val
      = (List.range n).any fun j => rtw88ReadSuite p (i + j * 4) == suite := by
  induction n with
  | zero => rfl
  | succ n ih =>
      rw [anySuiteT, val_bind, val_bind, val_pure, ih, List.range_succ,
        List.any_append, List.any_cons, List.any_nil, Bool.or_false,
        suiteT_val]

/-- The RSN parser, with a read for each count and each selector it looks at.
-/
theorem rtw88RsnSelectCcmpPskT_val (base : Nat) (rsn : List UInt8) :
    (rtw88RsnSelectCcmpPskT base rsn).val = rtw88RsnSelectCcmpPsk rsn := by
  simp only [rtw88RsnSelectCcmpPskT, rtw88RsnSelectCcmpPsk, val_ite, val_bind,
    val_pure, anySuiteT_val, suiteT_val]
  rfl

/-- What an element of a beacon sets, with the reads of its body. -/
private theorem scanFieldT_val (base : Nat) (bss : RTW88BSS) (e : Elem) :
    (scanFieldT base bss e).val = scanField bss e := by
  simp only [scanFieldT, scanField]
  split
  · rfl
  · split
    · rfl
    · split
      · rfl
      · split
        · have hsuite := rtw88RsnSelectCcmpPskT_val base e.body
          cases hs : rtw88RsnSelectCcmpPsk e.body with
          | none => simp only [val_bind, val_pure, hsuite, hs]
          | some suites => simp only [val_bind, val_pure, hsuite, hs]
        · by_cases hv : e.id = eidVendorSpecific ∧ 8 ≤ e.body.length
          · have hwpa := @startsWith_val base e.body 0
              [0x00, 0x50, 0xf2, 0x01] (Nat.le_trans (by decide) hv.2)
            rw [List.drop_zero] at hwpa
            rw [if_pos hv, val_bind, val_pure]
            simp only [hwpa, hv.1, hv.2, true_and, List.length_cons,
              List.length_nil]
          · rw [if_neg hv, if_neg (fun h => hv ⟨h.1, h.2.1⟩), val_pure]

/-- An element with the two bytes of its header. -/
private theorem scanElemT_val (base : Nat) (bss : RTW88BSS) (e : Elem) :
    (scanElemT base bss e).val = scanElem bss e := by
  simp only [scanElemT, scanElem, val_bind, val_ite, val_pure,
    scanFieldT_val]

/-- The loop over the elements of a beacon. -/
private theorem scanElemsT_val (fuel base : Nat) (d : List UInt8)
    (bss : RTW88BSS) :
    (scanElemsT fuel base d bss).val
      = (elemsUpTo fuel d).foldl scanElem bss := by
  induction fuel generalizing base d bss with
  | zero => rfl
  | succ fuel ih =>
      match d with
      | [] => rfl
      | [_] => rfl
      | id :: len :: rest =>
          rw [scanElemsT, elemsUpTo, val_bind, val_ite]
          split
          · rw [val_bind, ih, scanElemT_val, List.foldl_cons]
          · rfl

/-- The entry a beacon makes in the scan list. -/
private theorem scanEntryT_val (skb : SkBuff) (generation : UInt32) :
    (scanEntryT skb generation).val = scanEntry skb generation := by
  simp only [scanEntryT, scanEntry, val_bind, val_pure, scanElemsT_val, elems]
  rfl

/-- A beacon that is too short is released unread; any other makes an entry
or replaces one. -/
private theorem processScanResultT_val (skb : SkBuff) (s : Mlme) :
    (processScanResultT env skb s).val = processScanResult env skb s := by
  simp only [processScanResultT, processScanResult, val_ite, val_bind,
    scanEntryT_val, kfreeSkbT_val]
  split
  · rfl
  · cases updateBss (scanEntry skb s.scanGeneration) s.bssList <;> rfl

/-- An association response: the model has the release first, and the reads
after it in the log. -/
private theorem processAssocResponseT_val (skb : SkBuff) (s : Mlme) :
    (processAssocResponseT hw env skb s).val
      = processAssocResponse hw env skb s := by
  rw [processAssocResponseT, processAssocResponse, val_bind, val_ite,
    kfreeSkbT_val]
  simp only [addr3]
  split
  · rfl
  · rw [val_bind, bodyLenT_val, val_bind, kfreeSkbT_val, val_ite]
    split
    · rfl
    · rw [val_bind, val_bind, val_ite]
      rfl

/-- A block-ack action frame, whose fields are read by its action. -/
private theorem handleBackActionT_val (base : Nat) (b : List UInt8)
    (s : Mlme) :
    (handleBackActionT hw env base b s).val = handleBackAction hw env b s := by
  simp only [handleBackActionT, handleBackAction, val_ite, val_bind, val_pure]

/-- The branch of `processRxMgmt` for authentication frames. -/
private theorem authRespT_val (skb : SkBuff) (s : Mlme) :
    (authRespT hw env skb s).val
      = if addr3 skb.mem ≠ s.targetBSS.bssid then kfreeSkb skb s
        else if bodyLen skb < 6 then kfreeSkb skb (doAssociate hw env s)
        else if le16At skb.mem 28 = 0 then kfreeSkb skb (doAssociate hw env s)
        else kfreeSkb skb (s.setState .idle) := by
  rw [authRespT, val_bind, val_ite, val_bind, val_ite, val_bind, val_ite,
    kfreeSkbT_val, kfreeSkbT_val, kfreeSkbT_val, bodyLenT_val, addr3]

/-- The comparison of two addresses with the target. -/
private theorem fromTargetT_val (skb : SkBuff) (s : Mlme) :
    (fromTargetT skb s).val
      = (addr3 skb.mem == s.targetBSS.bssid
        || addr2 skb.mem == s.targetBSS.bssid) := by
  simp only [fromTargetT, val_bind, val_ite, val_pure, addr2, addr3]
  by_cases h : grab skb.mem 16 6 = s.targetBSS.bssid
  · rw [if_pos h, h, beq_self_eq_true, Bool.true_or]
  · rw [if_neg h, beq_eq_false_iff_ne.2 h, Bool.false_or]

/-- The branch for deauthentication and disassociation. -/
private theorem deauthT_val (skb : SkBuff) (s : Mlme) :
    (deauthT hw skb s).val
      = if !(addr3 skb.mem == s.targetBSS.bssid
            || addr2 skb.mem == s.targetBSS.bssid)
          || !(addr1 skb.mem == hw.macAddr || addr1 skb.mem == broadcast)
        then kfreeSkb skb s else kfreeSkb skb (leaveOnDeauth s) := by
  simp only [deauthT, val_bind, val_ite, fromTargetT_val,
    kfreeSkbT_val]
  rfl

/-- The branch for action frames. -/
private theorem actionT_val (skb : SkBuff) (s : Mlme) :
    (actionT hw env skb s).val
      = if 26 ≤ skb.data.length ∧ peek skb.mem 24 = categoryBack
          ∧ addr3 skb.mem = s.targetBSS.bssid then
          kfreeSkb skb (handleBackAction hw env (skb.data.drop 24) s)
        else kfreeSkb skb s := by
  simp only [actionT, val_bind, val_ite, handleBackActionT_val,
    kfreeSkbT_val, addr3]
  by_cases hlen : 26 ≤ skb.data.length
  · by_cases hcat : peek skb.mem 24 = categoryBack
    · by_cases hbssid : grab skb.mem 16 6 = s.targetBSS.bssid
      · simp only [hlen, hcat, hbssid, and_self, if_true, readByte_val,
          copy_val]
      · simp only [hbssid, and_false, if_false, ite_self]
    · simp only [hcat, false_and, and_false, if_false, ite_self]
  · simp only [hlen, false_and, if_false]

/-- The dispatch of a management frame over those branches. -/
private theorem processRxMgmtT_val (skb : SkBuff) (s : Mlme) :
    (processRxMgmtT hw env skb s).val = processRxMgmt hw env skb s := by
  have hfc : (readLe16 0 skb.mem 0).val = frameControl skb.mem := rfl
  rw [processRxMgmtT, val_bind, hfc, processRxMgmt]
  generalize frameControl skb.mem &&& 0x00f0 = stype
  simp only [val_ite, processScanResultT_val, processAssocResponseT_val,
    authRespT_val, deauthT_val, actionT_val, kfreeSkbT_val]
  by_cases hact : stype = 0x00D0
  · subst hact
    by_cases hst : s.state = .connected
    · simp only [hst, true_and]
      rfl
    · simp only [hst, false_and]
      rfl
  · simp only [hact]
    rfl

/-- `deAmsdu` hands each MSDU it finds to `deliverEthernet`, in order. -/
theorem deAmsduT_val (base : Nat) (d : List UInt8) (fuel pos : Nat)
    (s : Mlme) :
    (deAmsduT env base d fuel pos s).val
      = (deAmsdu d fuel pos).foldl
        (fun s m => deliverEthernet env m.1 m.2 s) s := by
  induction fuel generalizing pos s with
  | zero => rfl
  | succ fuel ih =>
      rw [deAmsduT, deAmsdu, val_ite]
      split
      · rfl
      · simp only [val_bind, val_ite, isSnapT_val]
        split
        · rfl
        · split
          · rw [ih, List.foldl_cons]
            rfl
          · exact ih _ _

/-- The branch of `deliverDataFrame` for aggregates. -/
private theorem deliverAmsduT_val (skb : SkBuff) (off : Nat) (s : Mlme) :
    (deliverAmsduT env skb off s).val
      = kfreeSkb skb ((deAmsdu (skb.data.drop off) skb.data.length 0).foldl
        (fun s m => deliverEthernet env m.1 m.2 s) s) := by
  rw [← deAmsduT_val off]
  rfl

/-- Where its payload begins: a CCMP header is looked for behind the first
SNAP test. -/
private theorem payloadOffT_val (skb : SkBuff) (fc : UInt16) (hlen : Nat) :
    (payloadOffT skb fc hlen).val
      = if !isSnap skb.data hlen && hasProtected fc
          && decide (hlen + 16 ≤ skb.data.length)
          && isSnap skb.data (hlen + 8)
        then hlen + 8 else hlen := by
  rw [payloadOffT, val_bind, val_ite, val_bind, isSnapT_val, isSnapT_val,
    val_pure, val_pure]
  cases !isSnap skb.data hlen && hasProtected fc
      && decide (hlen + 16 ≤ skb.data.length) with
  | true => rw [if_pos rfl, Bool.true_and]
  | false => rw [if_neg Bool.false_ne_true, Bool.false_and,
      if_neg Bool.false_ne_true]

/-- The aggregate bit of the QoS control field. -/
private theorem isAmsduT_val (skb : SkBuff) (fc : UInt16) :
    (isAmsduT skb fc).val
      = (isDataQos fc && peek skb.data (hdrlen fc - 2) &&& 0x80 != 0) := by
  rw [isAmsduT, val_ite]
  cases isDataQos fc with
  | true => rfl
  | false => rfl

/-- A frame for the stack, copied from three places. -/
private theorem deliverEthernetT_val (da sa off n pos : Nat) (f : EthFrame)
    (s : Mlme) :
    (deliverEthernetT env da sa off n pos f s).val
      = deliverEthernet env pos f s := by
  simp only [deliverEthernetT, val_bind, val_pure]

/-- The branch for a single payload: EAPOL for the station, the rest for the
stack. -/
private theorem deliverSingleT_val (skb : SkBuff) (off : Nat) (s : Mlme) :
    (deliverSingleT hw env skb off s).val
      = if (if isSnap skb.data off then be16At skb.data (off + 6) else 0)
            = ethPPae ∧ s.state = .handshaking then
          kfreeSkb skb (handleEAPOL hw env (skb.data.drop (off + 8)) s)
        else kfreeSkb skb (deliverEthernet env 0
          { da := addr1 skb.data, sa := addr3 skb.data
            ethertype := if isSnap skb.data off
              then be16At skb.data (off + 6) else 0
            payload := skb.data.drop (off + 8) } s) := by
  simp only [deliverSingleT, val_bind, val_ite, isSnapT_val, val_pure,
    deliverEthernetT_val, kfreeSkbT_val]

/-- `deliverDataFrame` with its accesses is `deliverDataFrame`. -/
theorem deliverDataFrameT_val (skb : SkBuff) (s : Mlme) :
    (deliverDataFrameT hw env skb s).val
      = deliverDataFrame hw env skb s := by
  have hfc : (readLe16 0 skb.mem 0).val = frameControl skb.mem := rfl
  rw [deliverDataFrameT, val_bind, hfc, val_ite, kfreeSkbT_val,
    deliverDataFrame, decap]
  generalize frameControl skb.mem = fc
  by_cases hshort : skb.data.length < hdrlen fc
  · rw [if_pos hshort, if_pos hshort]
  rw [if_neg hshort, if_neg hshort, val_bind, isAmsduT_val, val_ite, val_ite,
    val_ite, val_ite, deliverAmsduT_val, deliverAmsduT_val, kfreeSkbT_val,
    val_bind, payloadOffT_val, deliverSingleT_val]
  by_cases hamsdu : (isDataQos fc
      && peek skb.data (hdrlen fc - 2) &&& 0x80 != 0) = true
  · rw [if_pos hamsdu, if_pos hamsdu]
    by_cases hprot : hasProtected fc = true
    · rw [if_pos hprot, if_pos hprot]
      by_cases hccmp : skb.data.length < hdrlen fc + 8
      · rw [if_pos hccmp, if_pos hccmp]
      · rw [if_neg hccmp, if_neg hccmp]
    · rw [if_neg hprot, if_neg hprot]
  · rw [if_neg hamsdu, if_neg hamsdu]
    by_cases hllc : skb.data.length < hdrlen fc + 8
    · rw [if_pos hllc, if_pos hllc]
    · rw [if_neg hllc, if_neg hllc]

/-- The TID under which `processRxData` reorders a frame. -/
private theorem reorderTidT_val (skb : SkBuff) (s : Mlme) :
    (reorderTidT skb s).val = reorderTid skb s := by
  simp only [reorderTidT, reorderTid, val_bind, val_ite, val_pure]
  rfl

/-- A data frame, kept for reordering or delivered. -/
private theorem processRxDataT_val (skb : SkBuff) (s : Mlme) :
    (processRxDataT hw env skb s).val = processRxData hw env skb s := by
  simp only [processRxDataT, processRxData, val_bind, val_ite,
    reorderTidT_val]
  split
  · rfl
  · cases reorderTid skb s with
    | some tid => rfl
    | none =>
        simp only [val_bind, val_pure, deliverDataFrameT_val]

/-- Without its accesses, `rxFrameT` is the model's `rxFrame`. -/
theorem rxFrameT_val (skb : SkBuff) (s : Mlme) :
    (rxFrameT hw env skb s).val = rxFrame hw env skb s := by
  simp only [rxFrameT, rxFrame, val_bind, val_ite, val_pure,
    processRxMgmtT_val, processRxDataT_val]
  rfl

-- ========================================================== what is in between

variable {len : Nat}

/-- A body that is long enough, of a frame that has a header. -/
theorem length_of_bodyLen {skb : SkBuff} (hlen : 24 ≤ skb.data.length)
    (hbody : ¬bodyLen skb < 6) : 30 ≤ skb.data.length := by
  rw [bodyLen] at hbody
  omega

/-- A selector that lies inside is read inside. -/
theorem looks_suiteT (base : Nat) (p : List UInt8) (i : Nat) :
    (suiteT base p i).Looks len ↔ base + i + 4 ≤ len := looks_single rfl

private theorem anySuiteT_looks {base : Nat} {p : List UInt8} {i : Nat}
    {suite : UInt32} {n : Nat} (h : base + i + n * 4 ≤ len) :
    (anySuiteT base p i suite n).Looks len := by
  induction n with
  | zero => exact looks_pure false
  | succ n ih =>
      rw [anySuiteT, looks_bind, looks_bind, looks_suiteT]
      exact ⟨ih (by omega), by omega, looks_pure _⟩

/-- The RSN parser stays inside its element. -/
theorem rtw88RsnSelectCcmpPskT_looks {base : Nat} {rsn : List UInt8}
    (h : base + rsn.length ≤ len) :
    (rtw88RsnSelectCcmpPskT base rsn).Looks len := by
  simp only [rtw88RsnSelectCcmpPskT]
  split
  · exact looks_pure none
  · rw [looks_bind, looks_suiteT, looks_bind, looks_readLe16]
    refine ⟨by omega, by omega, ?_⟩
    split
    · exact looks_pure none
    · rw [looks_bind]
      refine ⟨anySuiteT_looks (by omega), ?_⟩
      split
      · exact looks_pure none
      · rw [looks_bind, looks_readLe16]
        refine ⟨by omega, ?_⟩
        split
        · exact looks_pure none
        · rw [looks_bind]
          exact ⟨anySuiteT_looks (by omega), looks_pure _⟩

/-- Whatever the element, only its body is read. -/
private theorem scanFieldT_looks {base : Nat} (bss : RTW88BSS) {e : Elem}
    (h : base + e.body.length ≤ len) : (scanFieldT base bss e).Looks len := by
  simp only [scanFieldT]
  split
  · exact (looks_single rfl).2 h
  · split
    next hds =>
      rw [looks_bind, looks_readByte]
      exact ⟨by omega, looks_pure _⟩
    next =>
      split
      next hht =>
        rw [looks_bind, looks_readByte]
        exact ⟨by omega, looks_pure _⟩
      next =>
        split
        · rw [looks_bind]
          exact ⟨rtw88RsnSelectCcmpPskT_looks h, looks_pure _⟩
        · split
          next hv =>
            rw [looks_bind]
            refine ⟨looks_startsWith ?_, looks_pure _⟩
            have h4 : [(0x00 : UInt8), 0x50, 0xf2, 0x01].length = 4 := rfl
            omega
          next => exact looks_pure bss

private theorem scanElemT_looks {base : Nat} (bss : RTW88BSS) {e : Elem}
    (h : base + 2 + e.body.length ≤ len) :
    (scanElemT base bss e).Looks len := by
  rw [scanElemT, looks_bind]
  refine ⟨scanFieldT_looks bss h, ?_⟩
  split
  · rw [looks_bind, looks_read]
    exact ⟨by omega, looks_pure _⟩
  · exact looks_pure _

/-- The element walk stays inside what it walks over. -/
private theorem scanElemsT_looks {fuel base : Nat} {d : List UInt8}
    (bss : RTW88BSS) (h : base + d.length ≤ len) :
    (scanElemsT fuel base d bss).Looks len := by
  induction fuel generalizing base d bss with
  | zero => exact looks_pure bss
  | succ fuel ih =>
      match d with
      | [] => exact looks_pure bss
      | [_] => exact looks_pure bss
      | id :: n :: rest =>
          simp only [List.length_cons] at h
          rw [scanElemsT, looks_bind, looks_read]
          refine ⟨by omega, ?_⟩
          split
          next hn =>
            rw [looks_bind]
            refine ⟨scanElemT_looks bss ?_, ih _ ?_⟩
            · rw [List.length_take]
              omega
            · rw [List.length_drop]
              omega
          next => exact looks_pure bss

/-- A beacon with its fixed fields is read inside. -/
theorem scanEntryT_looks {skb : SkBuff} (generation : UInt32)
    (h : 36 ≤ skb.data.length) :
    (scanEntryT skb generation).Looks skb.data.length := by
  rw [scanEntryT, looks_bind, looks_copy, looks_bind]
  refine ⟨by omega, scanElemsT_looks _ ?_, looks_pure _⟩
  rw [List.length_drop]
  omega

/-- `handleBackAction` stays inside the bytes it is given. -/
theorem handleBackActionT_looks {base : Nat} {b : List UInt8} (s : Mlme)
    (h : base + b.length ≤ len) :
    (handleBackActionT hw env base b s).Looks len := by
  rw [handleBackActionT]
  split
  · exact looks_pure s
  · rw [looks_bind, looks_readByte]
    refine ⟨by omega, ?_⟩
    split
    · split
      · exact looks_pure s
      · simp only [looks_bind, looks_readByte, looks_readLe16, looks_pure,
          and_true]
        omega
    · split
      · split
        · exact looks_pure s
        · simp only [looks_bind, looks_readLe16, looks_pure, and_true]
          omega
      · split
        · split
          · exact looks_pure s
          · simp only [looks_bind, looks_readLe16, looks_pure, and_true]
            omega
        · exact looks_pure s

/-- The SNAP test reads three bytes at most. -/
theorem isSnapT_looks {base : Nat} {d : List UInt8} {off : Nat}
    (h : base + off + 3 ≤ len) : (isSnapT base d off).Looks len :=
  looks_startsWith h

/-- `deliverEthernet` stays inside when its ranges do. -/
theorem deliverEthernetT_looks {da sa off n pos : Nat} {f : EthFrame}
    {s : Mlme} (hda : da + 6 ≤ len) (hsa : sa + 6 ≤ len)
    (hoff : off + n ≤ len) :
    (deliverEthernetT env da sa off n pos f s).Looks len := by
  simp only [deliverEthernetT, looks_bind, looks_read, looks_pure,
    and_true]
  exact ⟨hda, hsa, hoff⟩

/-- `deAmsdu` stays inside the payload. -/
theorem deAmsduT_looks {base : Nat} {d : List UInt8} {fuel pos : Nat}
    (s : Mlme) (h : base + d.length ≤ len) :
    (deAmsduT env base d fuel pos s).Looks len := by
  induction fuel generalizing pos s with
  | zero => exact looks_pure s
  | succ fuel ih =>
      rw [deAmsduT]
      split
      · exact looks_pure s
      · rw [looks_bind, looks_readBe16]
        refine ⟨by omega, ?_⟩
        simp only
        generalize (readBe16 base d (pos + 12)).val.toNat = sublen
        split
        · exact looks_pure s
        · rw [looks_bind]
          refine ⟨isSnapT_looks (by omega), ?_⟩
          split
          · rw [looks_bind, looks_readBe16, looks_bind, looks_sub,
              looks_bind]
            refine ⟨by omega, by omega,
              deliverEthernetT_looks (by omega) (by omega) (by omega),
              ih _⟩
          · exact ih s

/-- The search for the payload stays inside, and so does what it finds. -/
theorem payloadOffT_looks {skb : SkBuff} {fc : UInt16} {hlen : Nat}
    (h : hlen + 8 ≤ skb.data.length) :
    (payloadOffT skb fc hlen).Looks skb.data.length := by
  rw [payloadOffT, looks_bind]
  refine ⟨isSnapT_looks (by omega), ?_⟩
  split
  next hccmp =>
    simp only [Bool.and_eq_true, decide_eq_true_eq] at hccmp
    rw [looks_bind]
    exact ⟨isSnapT_looks (by omega), looks_pure _⟩
  next => exact looks_pure _

/-- LLC/SNAP fits behind where it starts. -/
theorem payloadOffT_le {skb : SkBuff} {fc : UInt16} {hlen : Nat}
    (h : hlen + 8 ≤ skb.data.length) :
    hlen ≤ (payloadOffT skb fc hlen).val
      ∧ (payloadOffT skb fc hlen).val + 8 ≤ skb.data.length := by
  rw [payloadOffT_val]
  split
  next hccmp =>
    simp only [Bool.and_eq_true, decide_eq_true_eq] at hccmp
    omega
  next => omega

end Rtw88
