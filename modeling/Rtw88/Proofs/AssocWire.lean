/-
`buildAssocReq` in the buffer of `doAssociate`.

Each part of the request is one `put` of Lib/Out.lean, so the stores come
down to appending the bytes of Model/Tx.lean (`buildAssocReqMem_eq`).

The buffer is 256 bytes on the stack, and nothing in the source compares
a length with that. A request stays inside because its parts are short:
an SSID of at most 32 bytes, eight rates, and elements of fixed sizes
(`buildAssocReq_length`).

What was written parses again, as Proofs/AssocReq.lean has it. Here the
bodies are read field by field: the HT element encodes the capabilities
of the band, narrowed to the width, the VHT element those of the band,
the RSN element the suites that were selected
(`htCapBody_encodes`, `vhtCapBody_encodes`, `selectedBody_encodes`). The
fields share words with one another, so each lemma is one about the bits
that do not overlap.
-/
import Mathlib.Tactic.IntervalCases
import Rtw88.Proofs.AssocReq
import Rtw88.Proofs.Beacon
import Rtw88.Spec.AssocWire

namespace Rtw88

variable {hw : Hw}

-- ==================================================================== bytes

/-- Masking the low byte out before a byte is taken changes nothing. -/
theorem low16 (x : UInt16) : (x &&& 0xff).toUInt8 = x.toUInt8 := by
  apply UInt8.toNat_inj.1
  rw [UInt16.toNat_toUInt8, UInt16.toNat_toUInt8, UInt16.toNat_and]
  show (x.toNat &&& (2 ^ 8 - 1)) % 2 ^ 8 = _
  rw [Nat.and_two_pow_sub_one_eq_mod, Nat.mod_mod]

/-- The low byte of a word needs no mask. -/
theorem low32 (x : UInt32) : (x &&& 0xff).toUInt8 = x.toUInt8 := by
  apply UInt8.toNat_inj.1
  rw [UInt32.toNat_toUInt8, UInt32.toNat_toUInt8, UInt32.toNat_and]
  show (x.toNat &&& (2 ^ 8 - 1)) % 2 ^ 8 = _
  rw [Nat.and_two_pow_sub_one_eq_mod, Nat.mod_mod]

-- ==================================================================== parts

theorem putAssocHdr_eq (s : Mlme) (o : Out) :
    putAssocHdr hw s o = o.put (mgmtHdr hw stypeAssocReq s.txSeq s) := by
  have h6 : ∀ x : Bytes 6, x.toList.length = 6 := fun x => x.toList_length
  unfold putAssocHdr
  simp (disch := simp [h6]) only [Out.set_set, Out.advance_set]
  rfl

/-- The fixed fields, with the capability field of the source. -/
theorem putAssocFixed_eq (s : Mlme) (o : Out) :
    putAssocFixed s o
      = o.put (le16 (if s.wpa2 then 0x0431 ||| 0x0010 else 0x0431)
        ++ [10, 0]) := by
  unfold putAssocFixed
  simp (disch := simp) only [low16, Out.set_set, Out.advance_set]
  rfl

/-- An element whose stated length is its own. -/
theorem putElem_eq (id len : UInt8) {data : List UInt8} {n : Nat}
    (h : n = data.length) (o : Out) :
    putElem id len data n o = o.put ([id, len] ++ data) := by
  have hn : 2 + n = ([id, len] ++ data).length := by
    rw [h, List.length_append]
    rfl
  unfold putElem
  simp (disch := simp) only [Out.set_set]
  exact Out.advance_set o hn

/-- The HT capabilities, field by field. -/
theorem putHtCap_eq (ht : HtCap) (width : UInt8) (o : Out) :
    putHtCap ht width o = o.put (htCapElem ht width) := by
  have h10 : ht.rxMask.toList.length = 10 := ht.rxMask.toList_length
  unfold putHtCap
  simp (disch := simp [h10]) only [low16, low32, Out.set_set,
    Out.advance_set]
  unfold htCapElem le16
  simp only [List.append_assoc, List.cons_append, List.nil_append]

theorem putVhtCap_eq (vht : VhtCap) (o : Out) :
    putVhtCap vht o = o.put (vhtCapElem vht) := by
  unfold putVhtCap
  simp (disch := simp) only [low16, low32, Out.set_set, Out.advance_set]
  rfl

/-- An optional part: nothing is appended where it is left out. -/
theorem put_ite (c : Prop) [Decidable c] (o : Out) (bs : List UInt8) :
    (if c then o.put bs else o) = o.put (if c then bs else []) := by
  split
  · rfl
  · exact o.put_nil.symm

/-- The stores append the frame at the start of the buffer. -/
theorem buildAssocReqMem_eq (s : Mlme) (m : Memory) (buf : Nat)
    (h : s.targetBSS.ssidLen.toNat ≤ 32) :
    buildAssocReqMem hw s m buf
      = (writeMem m buf (buildAssocReq hw s).1,
          (buildAssocReq hw s).1.length, (buildAssocReq hw s).2) := by
  have hssid : s.targetBSS.ssidLen.toNat = (s.targetBSS.ssid.toList.take
      s.targetBSS.ssidLen.toNat).length := by
    rw [List.length_take, List.Vector.toList_length, Nat.min_eq_left (by omega)]
  -- whatever the optional parts are, the stores are one `put`
  suffices hput : ∃ o, o = Out.put { mem := m, p := buf }
      (buildAssocReq hw s).1 ∧ buildAssocReqMem hw s m buf
        = (o.mem, o.p - buf, (buildAssocReq hw s).2) by
    obtain ⟨o, ho, heq⟩ := hput
    rw [heq, ho, Out.put_mem, Out.put_p, Nat.add_sub_cancel_left]
  refine ⟨_, ?_, rfl⟩
  have hopt : ∀ (b : Bool) (o : Out) (bs : List UInt8),
      (if b = true then o else o.put bs)
        = o.put (if b = true then [] else bs) := by
    intro b o bs
    split
    · exact o.put_nil.symm
    · rfl
  rw [putAssocHdr_eq, putAssocFixed_eq, putElem_eq _ _ hssid,
    putElem_eq _ _ rfl, putElem_eq _ _ rfl, hopt]
  unfold buildAssocReq
  cases hw.bands (targetBand s) with
  | none =>
      simp only [Out.advance_set _ rfl, put_ite]
      simp only [Out.put_put, List.append_assoc, List.nil_append]
  | some sband =>
      simp only [putHtCap_eq, putVhtCap_eq, Out.advance_set _ rfl, put_ite]
      simp only [Out.put_put, List.append_assoc]

-- =================================================================== bodies

/-- The two fields of the A-MPDU parameters do not overlap. -/
theorem ampdu_fields (f d : UInt8) :
    ((f &&& (3 : UInt8)) ||| ((d &&& (7 : UInt8)) <<< (2 : UInt8)))
        &&& (3 : UInt8) = f &&& (3 : UInt8)
      ∧ (((f &&& (3 : UInt8)) ||| ((d &&& (7 : UInt8)) <<< (2 : UInt8)))
        >>> (2 : UInt8)) &&& (7 : UInt8) = d &&& (7 : UInt8) := by
  constructor
  · apply UInt8.toBitVec_inj.1
    apply BitVec.eq_of_getLsbD_eq
    intro i hi
    interval_cases i <;> simp
  · apply UInt8.toBitVec_inj.1
    apply BitVec.eq_of_getLsbD_eq
    intro i hi
    interval_cases i <;> simp

/-- The HT element encodes the band's capabilities, narrowed to the width. -/
theorem htCapBody_encodes (ht : HtCap) (width : UInt8) :
    EncodesHt ht width
      { id := eidHtCapability, body := htCapBody ht width } := by
  have hinfo : (htCapBody ht width).drop 0
      = le16 (advertisedHtCap ht width) ++ (htCapBody ht width).drop 2 := rfl
  have hampdu := drop_add_of_append (n := 2) hinfo rfl
  have hmask : (htCapBody ht width).drop 3
      = ht.rxMask.toList ++ (le16 ht.rxHighest ++ ([ht.txParams.toUInt8]
        ++ List.replicate 10 0)) := by
    unfold htCapBody htCapElem
    simp only [List.append_assoc]
    rfl
  have hhigh := drop_add_of_append hmask ht.rxMask.toList_length
  have htx := drop_add_of_append (n := 2) hhigh rfl
  have hrest := drop_add_of_append (n := 1) htx rfl
  obtain ⟨hfactor, hdensity⟩ := ampdu_fields ht.ampduFactor ht.ampduDensity
  have hbyte : peek (htCapBody ht width) 2
      = (ht.ampduFactor &&& (3 : UInt8))
        ||| ((ht.ampduDensity &&& (7 : UInt8)) <<< (2 : UInt8)) := rfl
  exact {
    id := rfl
    length := htCapBody_length ht width
    info := htCapBody_info ht width
    factor := by rw [hbyte, hfactor]
    density := by rw [hbyte, hdensity]
    rxMask := by rw [hmask, List.take_left' ht.rxMask.toList_length]
    rxHighest := le16_of_drop hhigh
    txParams := peek_of_drop htx
    rest := hrest }

/-- The VHT element encodes the band's. -/
theorem vhtCapBody_encodes (vht : VhtCap) :
    EncodesVht vht { id := eidVhtCapability, body := vhtCapBody vht } := by
  have hrx : (vhtCapBody vht).drop 4 = le16 vht.rxMcsMap.toUInt16 ++ _ := rfl
  have hrxhi := drop_add_of_append (n := 2) hrx rfl
  have htx := drop_add_of_append (n := 2)
    (show _ = le16 vht.rxHighest ++ _ from hrxhi) rfl
  have htxhi := drop_add_of_append (n := 2)
    (show _ = le16 vht.txMcsMap.toUInt16 ++ _ from htx) rfl
  exact {
    id := rfl
    length := rfl
    info := le32At_le32 vht.cap _
    rxMap := le16_of_drop hrx
    rxHighest := le16_of_drop hrxhi
    txMap := le16_of_drop htx
    txHighest := @le16_of_drop _ [] _ _ htxhi }

/-- The RSN element encodes the selected suites. -/
theorem selectedBody_encodes (group : UInt32) :
    EncodesRsn group { id := eidRsn, body := (selectedBody group).bytes } := by
  have hreads := (selectedBody group).reads_bytes
  have hversion : (selectedBody group).bytes.drop 0
      = le16 1 ++ (selectedBody group).bytes.drop 2 := rfl
  have hpair : (selectedBody group).bytes.drop 6
      = le16 1 ++ (selectedBody group).bytes.drop 8 := rfl
  have hakm : (selectedBody group).bytes.drop 12
      = le16 1 ++ (rtw88WriteSuite akmPsk ++ [0, 0]) := rfl
  have hcaps : (selectedBody group).bytes.drop 18 = le16 0 ++ [] := rfl
  exact {
    id := rfl
    length := (selectedBody group).bytes_length
    version := le16_of_drop hversion
    group := hreads.group
    pairwiseCount := le16_of_drop hpair
    pairwise := List.head_eq_of_cons_eq hreads.pairwise
    akmCount := le16_of_drop hakm
    akm := List.head_eq_of_cons_eq hreads.akms
    caps := le16_of_drop hcaps }

-- ================================================================== request

/-- One element, where the condition holds. -/
theorem OneIf.pos {c : Prop} {P : Elem → Prop} {e : Elem} (hc : c)
    (he : P e) : OneIf c P [e] :=
  ⟨fun _ => ⟨e, rfl, he⟩, fun hn => absurd hc hn⟩

theorem OneIf.neg {c : Prop} {P : Elem → Prop} (hc : ¬ c) : OneIf c P [] :=
  ⟨fun h => absurd h hc, fun _ => rfl⟩

/-- The HT element is there exactly under its conditions. -/
theorem htElems_oneIf (s : Mlme) :
    OneIf (htAllowed s = true ∧ ∃ sb, hw.bands (targetBand s) = some sb
        ∧ sb.htCap.htSupported = true)
      (fun e => ∀ sb, hw.bands (targetBand s) = some sb →
        EncodesHt sb.htCap s.connChanWidth e) (htElems hw s) := by
  unfold htElems
  cases hband : hw.bands (targetBand s) with
  | none =>
      refine .neg ?_
      rintro ⟨-, sb, hsb, -⟩
      cases hsb
  | some sb =>
      dsimp only
      by_cases hon : (htAllowed s && sb.htCap.htSupported) = true
      · rw [if_pos hon]
        rw [Bool.and_eq_true] at hon
        refine .pos ⟨hon.1, sb, rfl, hon.2⟩ ?_
        intro sb' hsb'
        rw [← Option.some.inj hsb']
        exact htCapBody_encodes _ _
      · rw [if_neg hon]
        refine .neg ?_
        rintro ⟨hallow, sb', hsb', hsup⟩
        rw [← Option.some.inj hsb'] at hsup
        exact hon (Bool.and_eq_true _ _ ▸ ⟨hallow, hsup⟩)

/-- The VHT element is there exactly under its conditions. -/
theorem vhtElems_oneIf (s : Mlme) :
    OneIf (targetBand s = .ghz5 ∧ htAllowed s = true
        ∧ ∃ sb, hw.bands (targetBand s) = some sb
          ∧ sb.vhtCap.vhtSupported = true)
      (fun e => ∀ sb, hw.bands (targetBand s) = some sb →
        EncodesVht sb.vhtCap e) (vhtElems hw s) := by
  unfold vhtElems
  cases hband : hw.bands (targetBand s) with
  | none =>
      refine .neg ?_
      rintro ⟨-, -, sb, hsb, -⟩
      cases hsb
  | some sb =>
      dsimp only
      by_cases hon : (htAllowed s && targetBand s == .ghz5
          && sb.vhtCap.vhtSupported) = true
      · rw [if_pos hon]
        rw [Bool.and_eq_true, Bool.and_eq_true, beq_iff_eq] at hon
        refine .pos ⟨hon.1.2, hon.1.1, sb, rfl, hon.2⟩ ?_
        intro sb' hsb'
        rw [← Option.some.inj hsb']
        exact vhtCapBody_encodes _
      · rw [if_neg hon]
        refine .neg ?_
        rintro ⟨hghz, hallow, sb', hsb', hsup⟩
        rw [← Option.some.inj hsb'] at hsup
        rw [Bool.and_eq_true, Bool.and_eq_true, beq_iff_eq] at hon
        exact hon ⟨⟨hallow, hghz⟩, hsup⟩

/-- The RSN element is there exactly on a WPA2 network. -/
theorem rsnElems_oneIf (s : Mlme) :
    OneIf (s.wpa2 = true) (EncodesRsn s.targetBSS.groupCipher)
      (rsnElems s) := by
  unfold rsnElems
  by_cases hwpa : s.wpa2 = true
  · rw [if_pos hwpa]
    exact .pos hwpa (selectedBody_encodes _)
  · rw [if_neg hwpa]
    exact .neg hwpa

/-- The elements written are those the target and the chip call for. -/
theorem assocElems_request (s : Mlme) : RequestElems hw s (assocElems hw s) := by
  refine ⟨if s.targetBSS.channel ≤ 14
      then [{ id := eidExtSuppRates, body := extRates2g }] else [],
    htElems hw s, vhtElems hw s, rsnElems s, ?_, ?_, htElems_oneIf s,
    vhtElems_oneIf s, rsnElems_oneIf s⟩
  · unfold assocElems plainElems
    by_cases h14 : s.targetBSS.channel ≤ 14
    · have h5g : ¬ 14 < s.targetBSS.channel := UInt8.not_lt.2 h14
      simp only [if_pos h14, decide_eq_false h5g, Bool.false_eq_true,
        if_false, List.append_assoc, List.cons_append, List.nil_append]
    · have h5g : 14 < s.targetBSS.channel := UInt8.not_le.1 h14
      simp only [if_neg h14, decide_eq_true h5g, if_true, List.append_assoc,
        List.cons_append, List.nil_append]
  · by_cases h14 : s.targetBSS.channel ≤ 14
    · rw [if_pos h14]
      exact .pos h14 rfl
    · rw [if_neg h14]
      exact .neg h14

/-- What is left out takes no more room than what is put in. -/
theorem length_ite_le (c : Prop) [Decidable c] (bs : List UInt8) :
    (if c then bs else []).length ≤ bs.length := by
  split
  · exact Nat.le_refl _
  · exact Nat.zero_le _

/-- A request takes at most 151 bytes. -/
theorem buildAssocReq_length {s : Mlme} (h : s.targetBSS.ssidLen.toNat ≤ 32) :
    (buildAssocReq hw s).1.length ≤ 151 := by
  have hhdr : (mgmtHdr hw stypeAssocReq s.txSeq s).length = 24 :=
    hdr3addr_length _ _ _ _ _
  have hssid : (s.targetBSS.ssid.toList.take
      s.targetBSS.ssidLen.toNat).length ≤ 32 := by
    rw [List.length_take]
    omega
  have hrates : (if decide (14 < s.targetBSS.channel) = true then rates5g
      else rates2g).length = 8 := by
    split <;> rfl
  have hext : (if decide (14 < s.targetBSS.channel) = true then []
      else [eidExtSuppRates, UInt8.ofNat extRates2g.length]
        ++ extRates2g).length ≤ 6 := by
    split
    · exact Nat.zero_le 6
    · exact Nat.le_refl 6
  have hrsn := length_ite_le (s.wpa2 = true)
    (rtw88BuildSelectedRsnIe s.targetBSS.groupCipher)
  rw [show (rtw88BuildSelectedRsnIe s.targetBSS.groupCipher).length = 22
    from rfl] at hrsn
  have hwme : wmeInfo.length = 9 := rfl
  unfold buildAssocReq
  cases hw.bands (targetBand s) with
  | none =>
      simp only [List.length_append, hhdr, hrates, hwme, le16_length,
        List.length_cons, List.length_nil] at *
      omega
  | some sband =>
      have hht := length_ite_le
        ((htAllowed s && sband.htCap.htSupported) = true)
        (htCapElem sband.htCap s.connChanWidth)
      have hvht := length_ite_le ((htAllowed s && targetBand s == .ghz5
        && sband.vhtCap.vhtSupported) = true) (vhtCapElem sband.vhtCap)
      rw [htCapElem_eq, Elem.bytes_length, htCapBody_length] at hht
      rw [show (vhtCapElem sband.vhtCap).length = 14 from rfl] at hvht
      rw [← htCapElem_eq] at hht
      simp only [List.length_append, hhdr, hrates, hwme, le16_length,
        List.length_cons, List.length_nil] at *
      omega

/-- The request fits the buffer, `*len` is what was written, and the
driver's own walk over the elements ends there, having met exactly those
the target and the chip call for. -/
theorem assoc_request_well_formed {s : Mlme}
    (h : s.targetBSS.ssidLen.toNat ≤ 32) (m : Memory) (buf : Nat) :
    ∃ frame es, buildAssocReqMem hw s m buf
        = (writeMem m buf frame, frame.length,
            { s with txSeq := s.txSeq + 1 })
      ∧ 28 ≤ frame.length ∧ frame.length ≤ assocSize
      ∧ iesWalk (frame.drop 28) (UInt16.ofNat (frame.length - 28))
        = (es, UInt16.ofNat (frame.length - 28))
      ∧ RequestElems hw s es := by
  have hlen := @buildAssocReq_length hw s h
  have hdrop := @buildAssocReq_drop hw s h
  have hrest : (buildAssocReq hw s).1.length - 28
      = ((assocElems hw s).flatMap Elem.bytes).length := by
    rw [← List.length_drop, hdrop, List.append_nil]
  have hfront : 28 ≤ (buildAssocReq hw s).1.length := by
    obtain ⟨front, hfront, heq⟩ := @buildAssocReq_eq hw s h
    rw [heq, List.length_append, List.length_append, hfront,
      List.length_append, le16_length]
    show 28 ≤ 24 + (2 + (2 + _))
    omega
  refine ⟨_, assocElems hw s, buildAssocReqMem_eq s m buf h, hfront, ?_, ?_,
    assocElems_request s⟩
  · show _ ≤ 256
    omega
  · rw [hdrop, hrest]
    exact iesWalk_flatMap [] (fun e he => assocElems_short he) (by omega)

/-- The request to the sample network. -/
theorem sample_request_well_formed :
    let s := atAssoc wideHw wideIes
    ∃ frame es, buildAssocReqMem wideHw s (fun _ => 0) 0x1000
        = (writeMem (fun _ => 0) 0x1000 frame, frame.length,
            { s with txSeq := s.txSeq + 1 })
      ∧ 28 ≤ frame.length ∧ frame.length ≤ assocSize
      ∧ iesWalk (frame.drop 28) (UInt16.ofNat (frame.length - 28))
        = (es, UInt16.ofNat (frame.length - 28))
      ∧ RequestElems wideHw s es := by
  intro s
  have hssid : s.targetBSS.ssidLen.toNat ≤ 32 := by decide +kernel
  exact assoc_request_well_formed hssid (fun _ => 0) 0x1000

end Rtw88
