/-
What an association request advertises against what the link is operated
with: `caps_agree_iff`.

The request is written element by element (`buildAssocReq_eq`), so the AP
reads the elements that were written (`requestElems_build`); each field
of `CapsAgree` is a question about that list.

# The request

The elements of a request come in four parts, each there under a
condition of its own: SSID and rates, HT, VHT, RSN. An element is looked
for by its identifier, and the parts have different ones
(`assocElems_by_id`), so a question about the request is one about a
part (`mem_htElems`, `mem_vhtElems`, `mem_rsnElems`). That the bodies fit
their length bytes (`assocElems_short`) is what lets them be parsed
again.

# The station

`addSta` records what the link is operated with, from the same target
and the same band. Where the request masks a capability and the record
does not, or the other way round, the two disagree: so the HT word, which
is narrowed below 40 MHz on both sides, and the short guard interval at
40 MHz, which the record adds whatever the band has (`or_sgi40_iff`).

# The equivalence

Both sides depend on the width only through a few bits, so the proof is
by the width of the link (`capsAgree_ht`, `capsAgree_narrow`) and the
parts are joined by `capsAgree_iff_parts`. Two samples stand behind it:
a 40 MHz network on which the two agree, and an open one, whose request
has the Privacy bit and no RSN element.
-/
import Rtw88.Spec.AssocReq
import Rtw88.Proofs.Rsn
import Rtw88.Spec.AccessPoint

namespace Rtw88

variable {hw : Hw} {env : Env}

-- ================================================================== elements

/-- The body of the HT Capabilities element. -/
def htCapBody (ht : HtCap) (width : UInt8) : List UInt8 :=
  (htCapElem ht width).drop 2

/-- The body of the VHT Capabilities element. -/
def vhtCapBody (vht : VhtCap) : List UInt8 := (vhtCapElem vht).drop 2

/-- The HT capability information a request advertises. -/
def advertisedHtCap (ht : HtCap) (width : UInt8) : UInt16 :=
  if width < 40 then narrowHtCap ht.cap else ht.cap

/-- The bytes of the HT capabilities are those of an element. -/
theorem htCapElem_eq (ht : HtCap) (width : UInt8) :
    htCapElem ht width
      = Elem.bytes { id := eidHtCapability, body := htCapBody ht width } := by
  have hlen : (htCapBody ht width).length = 26 := by
    simp [htCapBody, htCapElem]
  rw [Elem.bytes, hlen]
  rfl

/-- The bytes of the VHT capabilities are those of an element. -/
theorem vhtCapElem_eq (vht : VhtCap) :
    vhtCapElem vht
      = Elem.bytes { id := eidVhtCapability, body := vhtCapBody vht } := rfl

/-- The HT element's first word is the capability field. -/
theorem htCapBody_info (ht : HtCap) (width : UInt8) :
    le16At (htCapBody ht width) 0 = advertisedHtCap ht width := by
  have hbody : htCapBody ht width
      = le16 (advertisedHtCap ht width) ++ (htCapBody ht width).drop 2 := rfl
  rw [hbody]
  exact le16At_le16 _ _

/-- SSID and rates. -/
def plainElems (s : Mlme) : List Elem :=
  let is5g : Bool := 14 < s.targetBSS.channel
  [{ id := eidSsid
     body := s.targetBSS.ssid.toList.take s.targetBSS.ssidLen.toNat },
    { id := eidSuppRates, body := if is5g then rates5g else rates2g }]
  ++ if is5g then [] else [{ id := eidExtSuppRates, body := extRates2g }]

/-- HT, if it is allowed and supported. -/
def htElems (hw : Hw) (s : Mlme) : List Elem :=
  match hw.bands (targetBand s) with
  | some sband =>
      if htAllowed s && sband.htCap.htSupported
      then [{ id := eidHtCapability
              body := htCapBody sband.htCap s.connChanWidth }] else []
  | none => []

/-- VHT, on 5 GHz. -/
def vhtElems (hw : Hw) (s : Mlme) : List Elem :=
  match hw.bands (targetBand s) with
  | some sband =>
      if htAllowed s && targetBand s == .ghz5 && sband.vhtCap.vhtSupported
      then [{ id := eidVhtCapability, body := vhtCapBody sband.vhtCap }]
      else []
  | none => []

/-- RSN, for WPA2. -/
def rsnElems (s : Mlme) : List Elem :=
  if s.wpa2 then
    [{ id := eidRsn
       body := (selectedBody s.targetBSS.groupCipher).bytes }] else []

/-- The elements of a request, in order. -/
def assocElems (hw : Hw) (s : Mlme) : List Elem :=
  plainElems s ++ (htElems hw s ++ (vhtElems hw s
    ++ ({ id := eidVendorSpecific, body := wmeInfo.drop 2 } :: rsnElems s)))

/-- An HT element is there where the cipher admits HT and the band of the
target supports it. -/
theorem mem_htElems {s : Mlme} {e : Elem} :
    e ∈ htElems hw s ↔ ∃ sb, hw.bands (targetBand s) = some sb
      ∧ htAllowed s = true ∧ sb.htCap.htSupported = true
      ∧ e = { id := eidHtCapability
              body := htCapBody sb.htCap s.connChanWidth } := by
  unfold htElems
  cases hband : hw.bands (targetBand s) with
  | none => simp
  | some sb =>
      cases hallow : htAllowed s <;> cases hsup : sb.htCap.htSupported <;>
        simp [hsup]

/-- A VHT element, under the same conditions in the 5 GHz band. -/
theorem mem_vhtElems {s : Mlme} {e : Elem} :
    e ∈ vhtElems hw s ↔ ∃ sb, hw.bands (targetBand s) = some sb
      ∧ htAllowed s = true ∧ targetBand s = .ghz5
      ∧ sb.vhtCap.vhtSupported = true
      ∧ e = { id := eidVhtCapability, body := vhtCapBody sb.vhtCap } := by
  unfold vhtElems
  cases hband : hw.bands (targetBand s) with
  | none => simp
  | some sb =>
      cases hallow : htAllowed s <;>
        cases hsup : sb.vhtCap.vhtSupported <;> simp [hsup]

/-- An RSN element, on a WPA2 network. -/
theorem mem_rsnElems {s : Mlme} {e : Elem} :
    e ∈ rsnElems s ↔ s.wpa2 = true
      ∧ e = { id := eidRsn
              body := (selectedBody s.targetBSS.groupCipher).bytes } := by
  unfold rsnElems
  cases s.wpa2 <;> simp

/-- The elements in front of these have other identifiers. -/
theorem plainElems_id {s : Mlme} {e : Elem} (h : e ∈ plainElems s) :
    e.id ≠ eidHtCapability ∧ e.id ≠ eidVhtCapability ∧ e.id ≠ eidRsn := by
  rcases List.mem_append.1 h with h | h
  · rcases List.mem_cons.1 h with rfl | h
    · show eidSsid ≠ _ ∧ eidSsid ≠ _ ∧ eidSsid ≠ _
      decide
    · rw [List.mem_singleton.1 h]
      show eidSuppRates ≠ _ ∧ eidSuppRates ≠ _ ∧ eidSuppRates ≠ _
      decide
  · split at h
    · cases h
    · rw [List.mem_singleton.1 h]
      decide

/-- An element of the request, by the part it is from. -/
theorem mem_assocElems {s : Mlme} {e : Elem} :
    e ∈ assocElems hw s ↔ e ∈ plainElems s ∨ e ∈ htElems hw s
      ∨ e ∈ vhtElems hw s
      ∨ e = { id := eidVendorSpecific, body := wmeInfo.drop 2 }
      ∨ e ∈ rsnElems s := by
  rw [assocElems, List.mem_append, List.mem_append, List.mem_append,
    List.mem_cons]

theorem htElems_id {s : Mlme} {e : Elem} (h : e ∈ htElems hw s) :
    e.id = eidHtCapability := by
  obtain ⟨sb, -, -, -, rfl⟩ := mem_htElems.1 h
  rfl

theorem vhtElems_id {s : Mlme} {e : Elem} (h : e ∈ vhtElems hw s) :
    e.id = eidVhtCapability := by
  obtain ⟨sb, -, -, -, -, rfl⟩ := mem_vhtElems.1 h
  rfl

theorem rsnElems_id {s : Mlme} {e : Elem} (h : e ∈ rsnElems s) :
    e.id = eidRsn := by
  obtain ⟨-, rfl⟩ := mem_rsnElems.1 h
  rfl

/-- The ids of a request tell its parts apart. -/
theorem assocElems_by_id {s : Mlme} {e : Elem} (h : e ∈ assocElems hw s) :
    (e.id = eidHtCapability → e ∈ htElems hw s)
      ∧ (e.id = eidVhtCapability → e ∈ vhtElems hw s)
      ∧ (e.id = eidRsn → e ∈ rsnElems s) := by
  rcases mem_assocElems.1 h with h | h | h | rfl | h
  · obtain ⟨hht, hvht, hrsn⟩ := plainElems_id h
    exact ⟨fun hid => absurd hid hht, fun hid => absurd hid hvht,
      fun hid => absurd hid hrsn⟩
  · rw [htElems_id h]
    exact ⟨fun _ => h, fun hid => absurd hid (by decide),
      fun hid => absurd hid (by decide)⟩
  · rw [vhtElems_id h]
    exact ⟨fun hid => absurd hid (by decide), fun _ => h,
      fun hid => absurd hid (by decide)⟩
  · exact ⟨fun hid => absurd hid (by decide),
      fun hid => absurd hid (by decide), fun hid => absurd hid (by decide)⟩
  · rw [rsnElems_id h]
    exact ⟨fun hid => absurd hid (by decide),
      fun hid => absurd hid (by decide), fun _ => h⟩

/-- The HT element has its 26 bytes. -/
theorem htCapBody_length (ht : HtCap) (width : UInt8) :
    (htCapBody ht width).length = 26 := by
  simp [htCapBody, htCapElem]

/-- Every body fits its length byte. -/
theorem assocElems_short {s : Mlme} {e : Elem} (h : e ∈ assocElems hw s) :
    e.body.length < 256 := by
  rcases mem_assocElems.1 h with h | h | h | rfl | h
  · rcases List.mem_append.1 h with h | h
    · rcases List.mem_cons.1 h with rfl | h
      · show (s.targetBSS.ssid.toList.take _).length < 256
        rw [List.length_take, List.Vector.toList_length]
        omega
      · rw [List.mem_singleton.1 h]
        show (if _ then rates5g else rates2g).length < 256
        split <;> decide
    · split at h
      · cases h
      · rw [List.mem_singleton.1 h]
        decide
  · obtain ⟨sb, -, -, -, rfl⟩ := mem_htElems.1 h
    rw [htCapBody_length]
    omega
  · obtain ⟨sb, -, -, -, -, rfl⟩ := mem_vhtElems.1 h
    show (12 : Nat) < 256
    omega
  · decide
  · obtain ⟨-, rfl⟩ := mem_rsnElems.1 h
    rw [RsnBody.bytes_length]
    show (20 : Nat) < 256
    omega

-- ==================================================================== frame

/-- The elements in front, as bytes: the SSID and the rates. -/
theorem plainElems_bytes {s : Mlme}
    (h : s.targetBSS.ssidLen.toNat ≤ 32) :
    (plainElems s).flatMap Elem.bytes
      = [eidSsid, s.targetBSS.ssidLen]
        ++ s.targetBSS.ssid.toList.take s.targetBSS.ssidLen.toNat
        ++ [eidSuppRates, UInt8.ofNat
            (if decide (14 < s.targetBSS.channel) then rates5g
              else rates2g).length]
        ++ (if decide (14 < s.targetBSS.channel) then rates5g else rates2g)
        ++ (if decide (14 < s.targetBSS.channel) then [] else
            [eidExtSuppRates, UInt8.ofNat extRates2g.length]
              ++ extRates2g) := by
  have hlen : UInt8.ofNat (s.targetBSS.ssid.toList.take
      s.targetBSS.ssidLen.toNat).length = s.targetBSS.ssidLen := by
    rw [List.length_take, List.Vector.toList_length, Nat.min_eq_left (by omega),
      UInt8.ofNat_toNat]
  unfold plainElems
  rw [List.flatMap_append, List.flatMap_cons, List.flatMap_cons,
    List.flatMap_nil, List.append_nil, Elem.bytes, Elem.bytes, hlen]
  split
  · simp
  · simp [Elem.bytes]

/-- The frame is written element by element. -/
theorem buildAssocReq_eq {s : Mlme} (h : s.targetBSS.ssidLen.toNat ≤ 32) :
    ∃ front, front.length = 24
      ∧ (buildAssocReq hw s).1
        = front ++ (le16 (if s.wpa2 then 0x0431 ||| 0x0010 else 0x0431)
          ++ ([10, 0] ++ ((assocElems hw s).flatMap Elem.bytes ++ []))) := by
  refine ⟨mgmtHdr hw stypeAssocReq s.txSeq s, hdr3addr_length _ _ _ _ _, ?_⟩
  have hrsn : (rsnElems s).flatMap Elem.bytes
      = if s.wpa2 then rtw88BuildSelectedRsnIe s.targetBSS.groupCipher
        else [] := by
    unfold rsnElems
    split
    · rw [rtw88BuildSelectedRsnIe_eq, List.flatMap_cons, List.flatMap_nil,
        List.append_nil]
      rfl
    · rfl
  rw [assocElems, List.flatMap_append, List.flatMap_append,
    List.flatMap_append, List.flatMap_cons, hrsn, plainElems_bytes h]
  have hwme : Elem.bytes { id := eidVendorSpecific, body := wmeInfo.drop 2 }
      = wmeInfo := rfl
  rw [hwme]
  unfold buildAssocReq htElems vhtElems
  cases hband : hw.bands (targetBand s) with
  | none => simp only [List.flatMap_nil, List.append_assoc, List.nil_append,
      List.append_nil]
  | some sb =>
      have hht : (if (htAllowed s && sb.htCap.htSupported) = true
          then [{ id := eidHtCapability
                  body := htCapBody sb.htCap s.connChanWidth : Elem }]
          else []).flatMap Elem.bytes
          = if (htAllowed s && sb.htCap.htSupported) = true
            then htCapElem sb.htCap s.connChanWidth else [] := by
        split
        · rw [htCapElem_eq, List.flatMap_cons, List.flatMap_nil,
            List.append_nil]
        · rfl
      have hvht : (if (htAllowed s && targetBand s == .ghz5
            && sb.vhtCap.vhtSupported) = true
          then [{ id := eidVhtCapability
                  body := vhtCapBody sb.vhtCap : Elem }]
          else []).flatMap Elem.bytes
          = if (htAllowed s && targetBand s == .ghz5
              && sb.vhtCap.vhtSupported) = true
            then vhtCapElem sb.vhtCap else [] := by
        split
        · rw [vhtCapElem_eq, List.flatMap_cons, List.flatMap_nil,
            List.append_nil]
        · rfl
      simp only [hht, hvht, List.append_assoc, List.append_nil]

/-- Behind the fixed fields stand the elements. -/
theorem buildAssocReq_drop {s : Mlme}
    (h : s.targetBSS.ssidLen.toNat ≤ 32) :
    (buildAssocReq hw s).1.drop 28
      = (assocElems hw s).flatMap Elem.bytes ++ [] := by
  obtain ⟨front, hfront, heq⟩ := @buildAssocReq_eq hw s h
  have h24 := drop_add_of_append
    (show (buildAssocReq hw s).1.drop 0 = _ from heq) hfront
  have h26 := drop_add_of_append (n := 2) h24 rfl
  exact drop_add_of_append (n := 2) h26 rfl

/-- The elements of `buildAssocReq` parse as what they were built from. -/
theorem requestElems_build {s : Mlme} (h : s.targetBSS.ssidLen.toNat ≤ 32) :
    requestElems (buildAssocReq hw s).1 = assocElems hw s := by
  rw [requestElems, buildAssocReq_drop h,
    elems_flatMap fun e he => assocElems_short he]
  exact List.append_nil _

/-- The capability field always has the Privacy bit. -/
theorem requestCap_build {s : Mlme} (h : s.targetBSS.ssidLen.toNat ≤ 32) :
    requestCap (buildAssocReq hw s).1 &&& capPrivacy ≠ 0 := by
  obtain ⟨front, hfront, heq⟩ := @buildAssocReq_eq hw s h
  rw [requestCap, heq, le16At_append_right (by omega), hfront, Nat.sub_self,
    le16At_le16]
  split <;> decide

-- =================================================================== station

/-- A management frame leaves the station. -/
theorem txMgmtFrame_sta (frame : List UInt8) (s : Mlme) :
    (txMgmtFrame env frame s).sta = s.sta := by
  unfold txMgmtFrame
  split <;> rfl

/-- The request for aggregation leaves it too. -/
theorem startTxAggregation_sta (s : Mlme) :
    (startTxAggregation hw env s).sta = s.sta := by
  unfold startTxAggregation
  split
  · rfl
  · split
    · rfl
    · split
      · rfl
      · split
        · rfl
        · exact txMgmtFrame_sta _ _

/-- A response that leaves a station where there was none registered it. -/
theorem processAssocResponse_sta {skb : SkBuff} {t : Mlme} {sta : Sta}
    (hnone : t.sta = none)
    (h : (processAssocResponse hw env skb t).sta = some sta) :
    ∃ aid, sta = newSta hw aid t := by
  have henter : ∀ u, (enterLink hw env u).sta = u.sta := by
    intro u
    simp only [enterLink]
    split
    · rfl
    · exact startTxAggregation_sta _
  simp only [processAssocResponse] at h
  split at h
  · cases hnone.symm.trans h
  · split at h
    · cases hnone.symm.trans h
    · split at h
      · cases hnone.symm.trans h
      · rw [henter] at h
        refine ⟨le16At (env.freed.getD skb.mem) 28 &&& 0x3FFF, ?_⟩
        change (addSta hw env _ _).sta = some sta at h
        simp only [addSta] at h
        split at h
        · cases hnone.symm.trans h
        · exact (Option.some.inj h).symm

/-- The capabilities of the station come from the target and the width. -/
theorem newSta_caps {s t : Mlme} (hbss : t.targetBSS = s.targetBSS)
    (hwidth : t.connChanWidth = s.connChanWidth) (aid : UInt16) :
    (newSta hw aid t).htCap = (newSta hw 0 s).htCap
      ∧ (newSta hw aid t).vhtCap = (newSta hw 0 s).vhtCap := by
  have hband : targetBand t = targetBand s := by
    rw [targetBand, targetBand, hbss]
  have hallow : htAllowed t = htAllowed s := by
    rw [htAllowed, htAllowed, hbss]
  unfold newSta
  simp only [hband, hallow, hwidth, and_self]

/-- The HT capabilities recorded for the station: narrowed below 40 MHz, with
SGI_40 added from there on. -/
theorem newSta_htCap {s : Mlme} {sb : SupportedBand}
    (hband : hw.bands (targetBand s) = some sb)
    (hallow : htAllowed s = true) :
    (newSta hw 0 s).htCap.cap
      = if s.connChanWidth < 40 then narrowHtCap sb.htCap.cap
        else sb.htCap.cap ||| htCapSgi40 := by
  unfold newSta
  rw [hband]
  simp only [hallow, if_true]

/-- It supports VHT exactly if the request advertises it. -/
theorem newSta_vht (s : Mlme) :
    (∃ e, e ∈ vhtElems hw s)
      ↔ (newSta hw 0 s).vhtCap.vhtSupported = true := by
  unfold newSta vhtElems
  cases hband : hw.bands (targetBand s) with
  | none => simp
  | some sb =>
      cases htAllowed s with
      | false => simp
      | true =>
          by_cases h5 : targetBand s = .ghz5
          · cases hsup : sb.vhtCap.vhtSupported <;> simp [h5, hsup]
          · simp [h5]

-- ===================================================================== widths

/-- A wide link is one with HT, on a band of the chip. -/
theorem connectedChandef_wide {chan : Channel} {s : Mlme}
    (h : 40 ≤ (connectedChandef hw chan s).1) :
    htAllowed s = true ∧ ∃ sb, hw.bands (targetBand s) = some sb := by
  have hnarrow : ¬ (40 : UInt8) ≤ 20 := by decide
  unfold connectedChandef at h
  cases hallow : htAllowed s with
  | false =>
      rw [hallow] at h
      exact absurd h hnarrow
  | true =>
      cases hband : hw.bands (targetBand s) with
      | none =>
          rw [hallow, hband] at h
          exact absurd h hnarrow
      | some sb => exact ⟨rfl, sb, rfl⟩

/-- Below 40 MHz the bit for 40 MHz is cleared. -/
theorem narrowHtCap_width40 (cap : UInt16) :
    narrowHtCap cap &&& htCapSupWidth2040 = 0 := by
  have hmask : ~~~(htCapSupWidth2040 ||| htCapSgi40 ||| htCapDssscck40)
      &&& htCapSupWidth2040 = 0 := by decide
  rw [narrowHtCap, UInt16.and_assoc, hmask, UInt16.and_zero]

/-- A mask of one bit shows it or nothing. -/
theorem sgi40_and (cap : UInt16) :
    cap &&& htCapSgi40 = 0 ∨ cap &&& htCapSgi40 = htCapSgi40 := by
  have hmask : htCapSgi40.toBitVec = BitVec.twoPow 16 6 := by decide
  have h : (cap &&& htCapSgi40).toBitVec
      = if cap.toBitVec.getLsbD 6 then BitVec.twoPow 16 6 else 0#16 := by
    rw [UInt16.toBitVec_and, hmask, BitVec.and_twoPow]
  split at h
  · exact .inr (UInt16.toBitVec_inj.1 (h.trans hmask.symm))
  · exact .inl (UInt16.toBitVec_inj.1 h)

/-- The short guard interval is set already, or setting it is a change. -/
theorem or_sgi40_iff (cap : UInt16) :
    cap = cap ||| htCapSgi40 ↔ cap &&& htCapSgi40 ≠ 0 := by
  have hset : ∀ x y : UInt16, (x ||| y) &&& y = y := by
    intro x y
    apply UInt16.toBitVec_inj.1
    ext i
    simpa using Or.inr
  have hback : ∀ x y : UInt16, x ||| (x &&& y) = x := by
    intro x y
    apply UInt16.toBitVec_inj.1
    ext i
    simpa using fun h _ => h
  constructor
  · intro h hzero
    have hbit := hset cap htCapSgi40
    rw [← h, hzero] at hbit
    revert hbit
    decide
  · intro h
    have hmask := (sgi40_and cap).resolve_left h
    rw [← hmask, hback]

-- ==================================================================== result

/-- At 40 MHz the request and the record agree, with the 40 MHz bit offered,
exactly if the band has the wide capabilities. -/
theorem capsAgree_ht {s : Mlme} {sb : SupportedBand}
    (hband : hw.bands (targetBand s) = some sb)
    (hallow : htAllowed s = true) (hwide : 40 ≤ s.connChanWidth) :
    ((∀ e ∈ htElems hw s, le16At e.body 0 = (newSta hw 0 s).htCap.cap)
      ∧ ∃ e ∈ htElems hw s, le16At e.body 0 &&& htCapSupWidth2040 ≠ 0)
      ↔ WideCaps sb := by
  have hcap : advertisedHtCap sb.htCap s.connChanWidth = sb.htCap.cap :=
    if_neg (UInt8.not_lt.2 hwide)
  have hsta : (newSta hw 0 s).htCap.cap = sb.htCap.cap ||| htCapSgi40 := by
    rw [newSta_htCap hband hallow, if_neg (UInt8.not_lt.2 hwide)]
  constructor
  · rintro ⟨hinfo, e, he, hbit⟩
    obtain ⟨sb', hband', -, hsup, rfl⟩ := mem_htElems.1 he
    obtain rfl : sb = sb' := Option.some.inj (hband.symm.trans hband')
    have heq := hinfo _ he
    rw [htCapBody_info, hcap] at heq hbit
    rw [hsta] at heq
    exact ⟨hsup, hbit, (or_sgi40_iff _).1 heq⟩
  · intro hcaps
    refine ⟨fun e he => ?_, _, mem_htElems.2
      ⟨sb, hband, hallow, hcaps.supported, rfl⟩, ?_⟩
    · obtain ⟨sb', hband', -, -, rfl⟩ := mem_htElems.1 he
      obtain rfl : sb = sb' := Option.some.inj (hband.symm.trans hband')
      rw [htCapBody_info, hcap, hsta]
      exact (or_sgi40_iff _).2 hcaps.sgi40
    · rw [htCapBody_info, hcap]
      exact hcaps.width40

/-- At 20 MHz they agree, and no element offers 40 MHz. -/
theorem capsAgree_narrow {s : Mlme} (hnarrow : s.connChanWidth < 40) :
    (∀ e ∈ htElems hw s, le16At e.body 0 = (newSta hw 0 s).htCap.cap)
      ∧ ¬ ∃ e ∈ htElems hw s, le16At e.body 0 &&& htCapSupWidth2040 ≠ 0 := by
  refine ⟨fun e he => ?_, ?_⟩
  · obtain ⟨sb, hband, hallow, -, rfl⟩ := mem_htElems.1 he
    rw [htCapBody_info, newSta_htCap hband hallow, if_pos hnarrow]
    exact if_pos hnarrow
  · rintro ⟨e, he, hbit⟩
    obtain ⟨sb, -, -, -, rfl⟩ := mem_htElems.1 he
    rw [htCapBody_info, advertisedHtCap, if_pos hnarrow] at hbit
    exact hbit (narrowHtCap_width40 _)

/-- What the request says, by the parts it is made of. -/
theorem capsAgree_iff_parts {s : Mlme} {sta : Sta}
    (hssid : s.targetBSS.ssidLen.toNat ≤ 32)
    (hht : sta.htCap = (newSta hw 0 s).htCap)
    (hvht : sta.vhtCap = (newSta hw 0 s).vhtCap) :
    CapsAgree (buildAssocReq hw s).1 s.connChanWidth sta
      ↔ (∀ e ∈ htElems hw s, le16At e.body 0 = (newSta hw 0 s).htCap.cap)
        ∧ ((∃ e ∈ htElems hw s, le16At e.body 0 &&& htCapSupWidth2040 ≠ 0)
          ↔ 40 ≤ s.connChanWidth)
        ∧ s.wpa2 = true := by
  have helems := @requestElems_build hw s hssid
  have hin : ∀ e, e ∈ htElems hw s →
      e ∈ requestElems (buildAssocReq hw s).1 := by
    intro e he
    rw [helems]
    exact mem_assocElems.2 (.inr (.inl he))
  have hof : ∀ e, e ∈ requestElems (buildAssocReq hw s).1 →
      e.id = eidHtCapability → e ∈ htElems hw s := by
    intro e he
    rw [helems] at he
    exact (assocElems_by_id he).1
  have hrsn : HasElem (buildAssocReq hw s).1 eidRsn ↔ s.wpa2 = true := by
    unfold HasElem
    rw [helems]
    constructor
    · rintro ⟨e, he, hid⟩
      exact (mem_rsnElems.1 ((assocElems_by_id he).2.2 hid)).1
    · intro hwpa
      have he := mem_rsnElems.2 (And.intro hwpa rfl)
      exact ⟨_, mem_assocElems.2 (.inr (.inr (.inr (.inr he)))), rfl⟩
  have hvhts : HasElem (buildAssocReq hw s).1 eidVhtCapability
      ↔ ∃ e, e ∈ vhtElems hw s := by
    unfold HasElem
    rw [helems]
    constructor
    · rintro ⟨e, he, hid⟩
      exact ⟨e, (assocElems_by_id he).2.1 hid⟩
    · rintro ⟨e, he⟩
      exact ⟨e, mem_assocElems.2 (.inr (.inr (.inl he))), vhtElems_id he⟩
  have hbits : (∃ e ∈ requestElems (buildAssocReq hw s).1,
        e.id = eidHtCapability ∧ le16At e.body 0 &&& htCapSupWidth2040 ≠ 0)
      ↔ ∃ e ∈ htElems hw s, le16At e.body 0 &&& htCapSupWidth2040 ≠ 0 := by
    constructor
    · rintro ⟨e, he, hid, hbit⟩
      exact ⟨e, hof e he hid, hbit⟩
    · rintro ⟨e, he, hbit⟩
      exact ⟨e, hin e he, htElems_id he, hbit⟩
  constructor
  · intro h
    refine ⟨fun e he => ?_, ?_, ?_⟩
    · rw [← hht]
      exact h.ht_info e (hin e he) (htElems_id he)
    · rw [← hbits]
      exact h.width40
    · exact hrsn.1 (h.privacy.1 (requestCap_build hssid))
  · rintro ⟨hinfo, hwidth, hwpa⟩
    refine ⟨fun e he hid => ?_, ?_, ?_, ?_⟩
    · rw [hht]
      exact hinfo e (hof e he hid)
    · rw [hbits]
      exact hwidth
    · rw [hvhts, hvht]
      exact newSta_vht s
    · exact ⟨fun _ => hrsn.2 hwpa, fun _ => requestCap_build hssid⟩

/-- The association request and the station registered on its answer agree
if and only if the target uses WPA2 and the chip's capability word has
the 40 MHz bit and the short guard interval when the link is wide. -/
theorem caps_agree_iff {chan : Channel} {s t : Mlme} {skb : SkBuff}
    {sta : Sta} (hssid : s.targetBSS.ssidLen.toNat ≤ 32)
    (hchosen : s.connChanWidth = (connectedChandef hw chan s).1)
    (hbss : t.targetBSS = s.targetBSS)
    (hwidth : t.connChanWidth = s.connChanWidth) (hnone : t.sta = none)
    (hsta : (processAssocResponse hw env skb t).sta = some sta) :
    CapsAgree (buildAssocReq hw s).1 s.connChanWidth sta
      ↔ s.wpa2 = true ∧ (40 ≤ s.connChanWidth →
        ∃ sb, hw.bands (targetBand s) = some sb ∧ WideCaps sb) := by
  obtain ⟨aid, rfl⟩ := processAssocResponse_sta hnone hsta
  obtain ⟨hht, hvht⟩ := @newSta_caps hw s t hbss hwidth aid
  rw [capsAgree_iff_parts hssid hht hvht]
  by_cases hwide : 40 ≤ s.connChanWidth
  · have hwide' := hwide
    rw [hchosen] at hwide'
    obtain ⟨hallow, sb, hband⟩ := connectedChandef_wide hwide'
    have hiff := capsAgree_ht hband hallow hwide
    constructor
    · rintro ⟨hinfo, hbit, hwpa⟩
      exact ⟨hwpa, fun _ => ⟨sb, hband, hiff.1 ⟨hinfo, hbit.2 hwide⟩⟩⟩
    · rintro ⟨hwpa, hcaps⟩
      obtain ⟨sb', hband', hwcaps⟩ := hcaps hwide
      obtain rfl : sb = sb' := Option.some.inj (hband.symm.trans hband')
      obtain ⟨hinfo, hbit⟩ := hiff.2 hwcaps
      exact ⟨hinfo, ⟨fun _ => hwide, fun _ => hbit⟩, hwpa⟩
  · obtain ⟨hinfo, hbit⟩ := @capsAgree_narrow hw s (UInt8.not_le.1 hwide)
    constructor
    · exact fun h => ⟨h.2.2, fun h40 => absurd h40 hwide⟩
    · exact fun h => ⟨hinfo, ⟨fun he => absurd he hbit,
        fun h40 => absurd h40 hwide⟩, h.1⟩

/-- The channel of the sample network. -/
def sampleChannel : Channel :=
  { band := .ghz2, centerFreq := 2412, hwValue := 1, disabled := false
    noIr := false, radar := false }

/-- A chip with HT on 40 MHz and the short guard interval. -/
def wideHw : Hw :=
  { sampleHw samplePrims with
    bands := fun b => if b = Band.ghz2
      then some { sampleBand with
        htCap := { cap := 0x0042, htSupported := true } }
      else none }

/-- The object when the AP's answer to the authentication is in, for an AP
with these elements. -/
def atAssoc (hw : Hw) (ies : List UInt8) : Mlme :=
  (sysRun hw true (scanEvents ies ++ authEvents
    ++ [.rx {} (authFrame sampleMac sampleAp 0)])).mlme

/-- A CCMP network with a secondary channel above: 40 MHz. -/
def wideIes : List UInt8 := ccmpIe ++ [eidHtOperation, 2, 1, 0x05]

/-- An association at 40 MHz, over a band with the wide capabilities. -/
theorem sample_caps_agree :
    let s := atAssoc wideHw wideIes
    s.connChanWidth = 40 ∧ ∃ sta,
      (processAssocResponse wideHw {} (assocFrame sampleMac sampleAp 0) s).sta
          = some sta
        ∧ CapsAgree (buildAssocReq wideHw s).1 s.connChanWidth sta := by
  intro s
  have hssid : s.targetBSS.ssidLen.toNat ≤ 32 := by decide +kernel
  have hchosen : s.connChanWidth
      = (connectedChandef wideHw sampleChannel s).1 := by decide +kernel
  have hwidth : s.connChanWidth = 40 := by decide +kernel
  have hnone : s.sta = none := by decide +kernel
  have hwpa : s.wpa2 = true := by decide +kernel
  have hsta : (processAssocResponse wideHw {}
      (assocFrame sampleMac sampleAp 0) s).sta
      = some (newSta wideHw 1 s) := by decide +kernel
  have hband : ∃ sb, wideHw.bands (targetBand s) = some sb ∧ WideCaps sb := by
    have h2 : targetBand s = .ghz2 := by decide +kernel
    rw [h2]
    exact ⟨_, rfl, by decide, by decide, by decide⟩
  refine ⟨hwidth, _, hsta, ?_⟩
  exact (caps_agree_iff hssid hchosen rfl rfl hnone hsta).2
    ⟨hwpa, fun _ => hband⟩

/-- An open network: the request claims privacy and has no RSN element. -/
theorem open_request_private :
    let s := atAssoc wideHw []
    s.connChanWidth = (connectedChandef wideHw sampleChannel s).1
      ∧ s.sta = none ∧ ∃ sta,
      (processAssocResponse wideHw {} (assocFrame sampleMac sampleAp 0) s).sta
          = some sta
        ∧ ¬ CapsAgree (buildAssocReq wideHw s).1 s.connChanWidth sta := by
  intro s
  have hssid : s.targetBSS.ssidLen.toNat ≤ 32 := by decide +kernel
  have hchosen : s.connChanWidth
      = (connectedChandef wideHw sampleChannel s).1 := by decide +kernel
  have hnone : s.sta = none := by decide +kernel
  have hopen : s.wpa2 = false := by decide +kernel
  have hsta : (processAssocResponse wideHw {}
      (assocFrame sampleMac sampleAp 0) s).sta
      = some (newSta wideHw 1 s) := by decide +kernel
  refine ⟨hchosen, hnone, _, hsta, fun h => ?_⟩
  obtain ⟨hht, hvht⟩ := @newSta_caps wideHw s s rfl rfl 1
  have hwpa := ((capsAgree_iff_parts hssid hht hvht).1 h).2.2
  rw [hopen] at hwpa
  cases hwpa

end Rtw88
