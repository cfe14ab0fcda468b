/-
What a beacon leaves in the scan list: neither the order of its elements
nor the walk that reads the cache back changes it.

An element does one of six things to an entry (`ScanEffect`), and two
that are not of one kind do them in either order (`apply_comm`), so the
fields of an entry are those of any permutation
(`foldl_scanField_perm`). The cache grows beside them, by whole elements
(`cacheElem`), and the index walk over it meets exactly those
(`iesWalk_flatMap`).

# Why the kinds commute

Two elements of different kinds may write the same field: an RSN and a
WPA element both write the cipher, a DS and an HT element the channel. In
each pair one rule writes over whatever is there, and the other writes
only what is not set yet; so the order does not matter as long as the
first never writes the value that stands for "not set yet"
(`ScanEffect.Sets`, `scanEffect_sets`). Two elements of one kind do not
commute, so at most one of each is asked for (`AtMostOne`).

# The cache

An element is cached whole or not at all, whatever becomes of its
fields, so fields and cache are two folds side by side (`foldl_scanElem`).
Whole elements are walked by their length bytes to the end that the
recorded length names, and what lies behind that in the array is not
looked at (`iesWalkFrom_flatMap`).
-/
import Rtw88.Model.Ies
import Rtw88.Proofs.BssList
import Rtw88.Proofs.Rsn
import Rtw88.Spec.Beacon

namespace Rtw88

-- =================================================================== effects

/-- What one element does to the entry under construction. -/
inductive ScanEffect
  | ssid (body : List UInt8)
  | ds (channel : UInt8)
  | ht (channel : UInt8)
  | rsn (pairwise group : UInt32)
  | wpa
  | nothing

/-- The entry after it. -/
def ScanEffect.apply (f : ScanEffect) (b : RTW88BSS) : RTW88BSS :=
  match f with
  | .ssid body =>
      { b with
        ssid := grab (splice b.ssid.toList 0 body) 0 33
        ssidLen := UInt8.ofNat body.length }
  | .ds channel => { b with channel := channel }
  | .ht channel =>
      if b.channel = 0 then { b with channel := channel } else b
  | .rsn pairwise group =>
      { b with cipher := pairwise, groupCipher := group, akm := akmPsk }
  | .wpa =>
      if b.cipher = 0 then
        { b with
          cipher := cipherTkip, groupCipher := cipherTkip, akm := akmPsk }
      else b
  | .nothing => b

/-- The effect of an element. -/
def scanEffect (e : Elem) : ScanEffect :=
  if e.id = eidSsid ∧ 0 < e.body.length ∧ e.body.length ≤ 32 then
    .ssid e.body
  else if e.id = eidDsParams ∧ 1 ≤ e.body.length then .ds (peek e.body 0)
  else if e.id = eidHtOperation ∧ 1 ≤ e.body.length then
    .ht (peek e.body 0)
  else if e.id = eidRsn then
    match rtw88RsnSelectCcmpPsk e.body with
    | some (pairwise, group) => .rsn pairwise group
    | none => .nothing
  else if e.id = eidVendorSpecific ∧ 8 ≤ e.body.length
      ∧ e.body.take 4 = [0x00, 0x50, 0xf2, 0x01] then .wpa
  else .nothing

theorem scanField_eq (b : RTW88BSS) (e : Elem) :
    scanField b e = (scanEffect e).apply b := by
  unfold scanField scanEffect
  by_cases hssid : e.id = eidSsid ∧ 0 < e.body.length ∧ e.body.length ≤ 32
  · rw [if_pos hssid, if_pos hssid]
    rfl
  rw [if_neg hssid, if_neg hssid]
  by_cases hds : e.id = eidDsParams ∧ 1 ≤ e.body.length
  · rw [if_pos hds, if_pos hds]
    rfl
  rw [if_neg hds, if_neg hds]
  by_cases hht : e.id = eidHtOperation ∧ 1 ≤ e.body.length
  · rw [if_pos hht]
    by_cases hchan : b.channel = 0
    · rw [if_pos ⟨hht.1, hht.2, hchan⟩]
      exact (if_pos hchan).symm
    · -- no other rule is about this id
      have hid := hht.1
      rw [if_neg fun h => hchan h.2.2, if_neg (by rw [hid]; decide),
        if_neg fun h => absurd (hid.symm.trans h.1) (by decide)]
      exact (if_neg hchan).symm
  rw [if_neg hht, if_neg fun h => hht ⟨h.1, h.2.1⟩]
  by_cases hrsn : e.id = eidRsn
  · rw [if_pos hrsn, if_pos hrsn]
    cases rtw88RsnSelectCcmpPsk e.body with
    | none => rfl
    | some r => rfl
  rw [if_neg hrsn, if_neg hrsn]
  by_cases hwpa : e.id = eidVendorSpecific ∧ 8 ≤ e.body.length
      ∧ e.body.take 4 = [0x00, 0x50, 0xf2, 0x01]
  · rw [if_pos hwpa]
    by_cases hset : b.cipher = 0
    · rw [if_pos ⟨hwpa.1, hwpa.2.1, hwpa.2.2, hset⟩]
      exact (if_pos hset).symm
    · rw [if_neg fun h => hset h.2.2.2]
      exact (if_neg hset).symm
  · rw [if_neg hwpa, if_neg fun h => hwpa ⟨h.1, h.2.1, h.2.2.1⟩]
    rfl

/-- The kind of element an effect is of, where its order could matter. -/
def ScanEffect.kind : ScanEffect → Option UInt8
  | .ssid _ => some eidSsid
  | .ds _ => some eidDsParams
  | .ht _ => some eidHtOperation
  | .rsn _ _ => some eidRsn
  | .wpa | .nothing => none

/-- The values the rules of other kinds take for "not set yet" are not
among those it sets. -/
def ScanEffect.Sets : ScanEffect → Prop
  | .ds channel => channel ≠ 0
  | .rsn pairwise _ => pairwise ≠ 0
  | _ => True

theorem scanEffect_kind {e : Elem} {id : UInt8}
    (h : (scanEffect e).kind = some id) : e.id = id := by
  unfold scanEffect at h
  split at h
  next hc => exact hc.1.trans (Option.some.inj h)
  split at h
  next hc => exact hc.1.trans (Option.some.inj h)
  split at h
  next hc => exact hc.1.trans (Option.some.inj h)
  split at h
  next hc =>
    cases hsel : rtw88RsnSelectCcmpPsk e.body with
    | none =>
        rw [hsel] at h
        cases h
    | some r =>
        rw [hsel] at h
        exact hc.trans (Option.some.inj h)
  split at h
  · cases h
  · cases h

/-- An RSN element that is accepted selects CCMP. -/
theorem select_pairwise {d : List UInt8} {r : UInt32 × UInt32}
    (h : rtw88RsnSelectCcmpPsk d = some r) : r.1 = cipherCcmp := by
  simp only [rtw88RsnSelectCcmpPsk] at h
  split at h
  · cases h
  split at h
  · cases h
  split at h
  · cases h
  split at h
  · cases h
  split at h
  · cases h
  split at h
  · rw [← Option.some.inj h]
  · rw [← Option.some.inj h]

theorem scanEffect_sets {e : Elem}
    (hds : e.id = eidDsParams → 1 ≤ e.body.length → peek e.body 0 ≠ 0) :
    (scanEffect e).Sets := by
  unfold scanEffect
  split
  · trivial
  split
  next hc => exact hds hc.1 hc.2
  split
  · trivial
  split
  next =>
    cases hsel : rtw88RsnSelectCcmpPsk e.body with
    | none => trivial
    | some r =>
        show r.1 ≠ 0
        rw [select_pairwise hsel]
        decide
  split
  · trivial
  · trivial

/-- Effects of different kinds commute. -/
theorem ScanEffect.apply_comm {f g : ScanEffect} (hf : f.Sets) (hg : g.Sets)
    (hkind : f.kind = none ∨ f.kind ≠ g.kind) (b : RTW88BSS) :
    g.apply (f.apply b) = f.apply (g.apply b) := by
  cases f <;> cases g <;>
    simp only [ScanEffect.kind, ScanEffect.Sets] at hf hg hkind <;>
    simp only [ScanEffect.apply] <;>
    by_cases hchan : b.channel = 0 <;> by_cases hset : b.cipher = 0 <;>
    simp_all

-- ==================================================================== orders

/-- What there is at most one of there is one of. -/
theorem AtMostOne.eq {es : List Elem} {id : UInt8} (h : AtMostOne es id)
    {x y : Elem} (hx : x ∈ es) (hy : y ∈ es) (hxid : x.id = id)
    (hyid : y.id = id) : x = y := by
  rw [AtMostOne, List.countP_eq_length_filter] at h
  have hmem : ∀ z ∈ es, z.id = id →
      z ∈ es.filter fun e => e.id == id := by
    intro z hz hzid
    exact List.mem_filter.2 ⟨hz, beq_iff_eq.2 hzid⟩
  have hx' := hmem x hx hxid
  have hy' := hmem y hy hyid
  revert h hx' hy'
  cases es.filter fun e => e.id == id with
  | nil =>
      intro _ hx' _
      cases hx'
  | cons z l =>
      intro h hx' hy'
      rw [List.length_cons] at h
      have hl : l = [] := List.length_eq_zero_iff.1 (by omega)
      rw [hl] at hx' hy'
      rw [List.mem_singleton.1 hx', List.mem_singleton.1 hy']

/-- Two elements of one beacon come in either order. -/
theorem OneOfEach.comm {es : List Elem} (h : OneOfEach es) {x y : Elem}
    (hx : x ∈ es) (hy : y ∈ es) (b : RTW88BSS) :
    scanField (scanField b x) y = scanField (scanField b y) x := by
  by_cases hxy : x = y
  · rw [hxy]
  have hkind : (scanEffect x).kind = none
      ∨ (scanEffect x).kind ≠ (scanEffect y).kind := by
    rw [or_iff_not_imp_left]
    intro hne heq
    obtain ⟨id, hid⟩ := Option.ne_none_iff_exists'.1 hne
    have hxid := scanEffect_kind hid
    have hyid := scanEffect_kind (heq ▸ hid)
    have hone : AtMostOne es id := by
      revert hid
      cases scanEffect x <;> intro hid <;> first
        | cases hid
      · exact h.ssid
      · exact h.ds
      · exact h.ht
      · exact h.rsn
    exact hxy (hone.eq hx hy hxid hyid)
  rw [scanField_eq, scanField_eq, scanField_eq, scanField_eq]
  exact ScanEffect.apply_comm (scanEffect_sets (h.dsChannel x hx))
    (scanEffect_sets (h.dsChannel y hy)) hkind b

/-- So the fields of an entry do not depend on their order. -/
theorem foldl_scanField_perm {es es' : List Elem} (h : OneOfEach es)
    (hperm : es.Perm es') (b : RTW88BSS) :
    es.foldl scanField b = es'.foldl scanField b :=
  hperm.foldl_eq' (fun _ hx _ hy b => h.comm hx hy b) b

-- ==================================================================== fields

/-- An entry with another cache. -/
def RTW88BSS.withIes (ies : List UInt8) (b : RTW88BSS) : RTW88BSS :=
  { b with ies := ies }

/-- The cache with one more element, if it fits. -/
def cacheElem (ies : List UInt8) (e : Elem) : List UInt8 :=
  if ies.length + (2 + e.body.length) < 512 then ies ++ e.bytes else ies

/-- The rules for the fields do not ask what is cached. -/
theorem scanField_withIes (ies : List UInt8) (b : RTW88BSS) (e : Elem) :
    scanField (b.withIes ies) e = (scanField b e).withIes ies := by
  rw [scanField_eq, scanField_eq]
  cases scanEffect e with
  | ht channel =>
      show (if b.channel = 0 then _ else _)
        = RTW88BSS.withIes ies (if b.channel = 0 then _ else _)
      rw [apply_ite (RTW88BSS.withIes ies)]
      rfl
  | wpa =>
      show (if b.cipher = 0 then _ else _)
        = RTW88BSS.withIes ies (if b.cipher = 0 then _ else _)
      rw [apply_ite (RTW88BSS.withIes ies)]
      rfl
  | _ => rfl

theorem foldl_scanField_withIes (ies : List UInt8) (es : List Elem)
    (b : RTW88BSS) :
    es.foldl scanField (b.withIes ies)
      = (es.foldl scanField b).withIes ies := by
  induction es generalizing b with
  | nil => rfl
  | cons e es ih => rw [List.foldl_cons, List.foldl_cons, scanField_withIes, ih]

/-- One element into the fields and into the cache. -/
theorem scanElem_eq (b : RTW88BSS) (e : Elem) :
    scanElem b e = (scanField b e).withIes (cacheElem b.ies e) := by
  have hies : (scanField b e).ies = b.ies := by
    have h : scanField (b.withIes b.ies) e = _ := scanField_withIes b.ies b e
    rw [show b.withIes b.ies = b from rfl] at h
    rw [h]
    rfl
  unfold scanElem cacheElem
  rw [← hies]
  by_cases hfit : (scanField b e).ies.length + (2 + e.body.length) < 512
  · simp only [if_pos hfit]
    rfl
  · simp only [if_neg hfit]
    rfl

/-- The fields and the cache of an entry side by side. -/
theorem foldl_scanElem (es : List Elem) (b : RTW88BSS) :
    es.foldl scanElem b
      = (es.foldl scanField b).withIes (es.foldl cacheElem b.ies) := by
  induction es generalizing b with
  | nil => rfl
  | cons e es ih =>
      rw [List.foldl_cons, List.foldl_cons, List.foldl_cons, ih, scanElem_eq,
        foldl_scanField_withIes]
      rfl

-- =================================================================== entries

/-- The fields of the entry of a beacon, before its channel is looked up
in the receive status. -/
def scanFields (skb : SkBuff) : RTW88BSS :=
  (beaconElems skb).foldl scanField
    { RTW88BSS.zero with bssid := addr3 skb.data }

/-- `channel` of an entry in the end. -/
def scanChannel (channel : UInt8) (freq : UInt16) : UInt8 :=
  if channel = 0 ∧ freq ≠ 0 then channelOfFreq freq else channel

/-- The entry of a beacon, field by field. -/
theorem scanEntry_fields (skb : SkBuff) (generation : UInt32) :
    scanEntry skb generation
      = { scanFields skb with
          rssi := skb.signal.toInt16, freq := skb.freq
          lastSeenScan := generation
          channel := scanChannel (scanFields skb).channel skb.freq
          ies := (beaconElems skb).foldl cacheElem [] } := by
  unfold scanEntry scanChannel
  rw [show (elems (skb.data.drop 36)).foldl scanElem
      { RTW88BSS.zero with bssid := addr3 skb.data }
    = (scanFields skb).withIes ((beaconElems skb).foldl cacheElem [])
    from foldl_scanElem _ _]
  by_cases hchan : (scanFields skb).channel = 0 ∧ skb.freq ≠ 0
  · rw [if_pos hchan]
    exact if_pos hchan
  · rw [if_neg hchan]
    exact if_neg hchan

/-- A beacon that is scanned is recorded. -/
theorem processScanResult_recorded {env : Env} {skb : SkBuff}
    (h : Scanned env skb) (s : Mlme) :
    Recorded (scanEntry skb s.scanGeneration) s.bssList
      (processScanResult env skb s).bssList := by
  have hdrop : ¬ (decide (skb.data.length < 30 + 12) || !env.bssAlloc)
      = true := by
    have hlong : ¬ skb.data.length < 30 + 12 := Nat.not_lt.2 h.1
    simp [hlong, h.2]
  unfold processScanResult
  rw [if_neg hdrop]
  rcases updateBss_cases (scanEntry skb s.scanGeneration) s.bssList with
    ⟨l₁, b, l₂, heq, hb, hsome⟩ | ⟨hnone, hni⟩
  · simp only [hsome]
    exact .inl ⟨l₁, b, l₂, heq, hb, rfl⟩
  · simp only [hnone]
    exact .inr ⟨hni, rfl⟩

/-- Any other leaves the list. -/
theorem processScanResult_dropped {env : Env} {skb : SkBuff}
    (h : ¬ Scanned env skb) (s : Mlme) :
    (processScanResult env skb s).bssList = s.bssList := by
  have hdrop : (decide (skb.data.length < 30 + 12) || !env.bssAlloc)
      = true := by
    rw [Bool.or_eq_true, decide_eq_true_iff, Bool.not_eq_true']
    by_contra hcon
    obtain ⟨hlong, halloc⟩ := not_or.1 hcon
    exact h ⟨Nat.not_lt.1 hlong, Bool.eq_true_of_not_eq_false halloc⟩
  unfold processScanResult
  rw [if_pos hdrop]
  rfl

/-- An RSN element that is accepted decides the suites. -/
theorem scanFields_suites {skb : SkBuff} (h : OneOfEach (beaconElems skb))
    {e : Elem} (he : e ∈ beaconElems skb) (hid : e.id = eidRsn) :
    HasSuites (scanFields skb) e := by
  intro pairwise group hsel
  -- in the order in which it comes last
  have hperm : (beaconElems skb).Perm ((beaconElems skb).erase e ++ [e]) :=
    (List.perm_cons_erase he).trans (List.perm_append_singleton e _).symm
  unfold scanFields
  rw [foldl_scanField_perm h hperm, List.foldl_append, List.foldl_cons,
    List.foldl_nil, scanField_eq]
  have heffect : scanEffect e = .rsn pairwise group := by
    unfold scanEffect
    rw [if_neg fun h => absurd (hid.symm.trans h.1) (by decide),
      if_neg fun h => absurd (hid.symm.trans h.1) (by decide),
      if_neg fun h => absurd (hid.symm.trans h.1) (by decide), if_pos hid,
      hsel]
  rw [heffect]
  exact ⟨rfl, rfl, rfl⟩

/-- Scan classification does not depend on the order of the elements. -/
theorem scan_order_independent {skb skb' : SkBuff}
    (hsame : SameStation skb skb')
    (hone : OneOfEach (beaconElems skb))
    (hperm : (beaconElems skb).Perm (beaconElems skb')) {env : Env}
    (h : Scanned env skb) (h' : Scanned env skb') (s : Mlme) :
    ∃ b b', Recorded b s.bssList (processScanResult env skb s).bssList
      ∧ Recorded b' s.bssList (processScanResult env skb' s).bssList
      ∧ SameNetwork b b'
      ∧ ∀ e ∈ beaconElems skb, e.id = eidRsn →
        HasSuites b e ∧ HasSuites b' e := by
  refine ⟨_, _, processScanResult_recorded h s,
    processScanResult_recorded h' s, ?_⟩
  have hfields : scanFields skb = scanFields skb' := by
    unfold scanFields
    rw [hsame.bssid]
    exact foldl_scanField_perm hone hperm _
  rw [scanEntry_fields, scanEntry_fields, ← hfields, ← hsame.freq]
  refine ⟨⟨rfl, rfl, rfl, rfl, rfl, rfl⟩, fun e he hid => ?_⟩
  exact ⟨scanFields_suites hone he hid, scanFields_suites hone he hid⟩

/-- A beacon with these elements. -/
def sampleBeacon (es : List Elem) : SkBuff :=
  { data := List.replicate 36 0 ++ es.flatMap Elem.bytes }

theorem beaconElems_sample {es : List Elem}
    (h : ∀ e ∈ es, e.body.length < 256) :
    beaconElems (sampleBeacon es) = es := by
  have hdrop : (sampleBeacon es).data.drop 36
      = es.flatMap Elem.bytes ++ [] := by
    rw [List.append_nil]
    exact List.drop_left' List.length_replicate
  rw [beaconElems, hdrop, elems_flatMap h]
  exact List.append_nil es

/-- An SSID, a WPA and an RSN element, and a channel. -/
def mixedElems : List Elem :=
  [{ id := eidSsid, body := [0x6e, 0x65, 0x74] },
    { id := eidVendorSpecific, body := [0x00, 0x50, 0xf2, 0x01, 1, 0, 0, 0] },
    { id := eidRsn, body := (rtw88BuildSelectedRsnIe cipherTkip).drop 2 },
    { id := eidDsParams, body := [6] }]

/-- The same network, seen with its elements one way and the other. -/
theorem mixed_order_independent :
    ∃ b b', Recorded b [] (processScanResult {} (sampleBeacon mixedElems)
        (Mlme.init true)).bssList
      ∧ Recorded b' [] (processScanResult {}
        (sampleBeacon mixedElems.reverse) (Mlme.init true)).bssList
      ∧ SameNetwork b b'
      ∧ ∀ e ∈ beaconElems (sampleBeacon mixedElems), e.id = eidRsn →
        HasSuites b e ∧ HasSuites b' e := by
  have hes : beaconElems (sampleBeacon mixedElems) = mixedElems :=
    beaconElems_sample (by decide)
  have hrev : beaconElems (sampleBeacon mixedElems.reverse)
      = mixedElems.reverse := beaconElems_sample (by decide)
  have hone : OneOfEach (beaconElems (sampleBeacon mixedElems)) := by
    rw [hes]
    constructor
    · unfold AtMostOne
      decide
    · unfold AtMostOne
      decide
    · unfold AtMostOne
      decide
    · unfold AtMostOne
      decide
    · decide
  have hperm : (beaconElems (sampleBeacon mixedElems)).Perm
      (beaconElems (sampleBeacon mixedElems.reverse)) := by
    rw [hes, hrev]
    exact mixedElems.reverse_perm.symm
  have hsame : SameStation (sampleBeacon mixedElems)
      (sampleBeacon mixedElems.reverse) := ⟨by decide, rfl, rfl⟩
  exact scan_order_independent hsame hone hperm ⟨by decide, rfl⟩
    ⟨by decide, rfl⟩ (Mlme.init true)

-- ===================================================================== cache

/-- The cache holds whole elements of the frame, in its order, and all of
them if they fit. -/
theorem foldl_cacheElem (es kept : List Elem) :
    ∃ more, more.Sublist es
      ∧ es.foldl cacheElem (kept.flatMap Elem.bytes)
        = (kept ++ more).flatMap Elem.bytes
      ∧ (((kept ++ es).flatMap Elem.bytes).length ≤ 511 → more = es) := by
  induction es generalizing kept with
  | nil =>
      refine ⟨[], List.Sublist.slnil, ?_, fun _ => rfl⟩
      rw [List.append_nil]
      rfl
  | cons e es ih =>
      rw [List.foldl_cons]
      unfold cacheElem
      by_cases hfit :
          (kept.flatMap Elem.bytes).length + (2 + e.body.length) < 512
      · obtain ⟨more, hsub, heq, hall⟩ := ih (kept ++ [e])
        refine ⟨e :: more, hsub.cons_cons e, ?_, fun hlen => ?_⟩
        · rw [if_pos hfit]
          rw [List.append_assoc, List.singleton_append, List.flatMap_append,
            List.flatMap_singleton] at heq
          exact heq
        · rw [hall]
          rw [List.append_assoc]
          exact hlen
      · -- it is skipped, and those behind it are still tried
        obtain ⟨more, hsub, heq, -⟩ := ih kept
        refine ⟨more, hsub.cons e, ?_, fun hlen => ?_⟩
        · rw [if_neg hfit]
          exact heq
        · rw [List.flatMap_append, List.flatMap_cons, List.length_append,
            List.length_append, e.bytes_length] at hlen
          omega

/-- The walk over whole elements, behind those it has passed: it meets
each of them and ends where they end. -/
theorem iesWalkFrom_flatMap {es : List Elem} {pre rest : List UInt8}
    {ielen : UInt16} {k : Nat} (h : ∀ e ∈ es, e.body.length < 256)
    (hlen : ielen.toNat = pre.length + (es.flatMap Elem.bytes).length)
    (hk : es.length < k) :
    iesWalkFrom (pre ++ (es.flatMap Elem.bytes ++ rest)) ielen k
      (UInt16.ofNat pre.length) = (es, ielen) := by
  have hlt := ielen.toNat_lt
  have hi : (UInt16.ofNat pre.length).toNat = pre.length := by
    rw [UInt16.toNat_ofNat']
    omega
  induction es generalizing pre k with
  | nil =>
      obtain ⟨k, rfl⟩ : ∃ k', k = k' + 1 := ⟨k - 1, by omega⟩
      have hend : ielen.toNat = pre.length := hlen
      rw [iesWalkFrom, hi, if_neg (by omega), ← hend, UInt16.ofNat_toNat]
  | cons e es ih =>
      obtain ⟨k, rfl⟩ : ∃ k', k = k' + 1 := ⟨k - 1, by omega⟩
      rw [List.flatMap_cons, List.length_append, e.bytes_length] at hlen
      have hbody := h e List.mem_cons_self
      have hdrop : (pre ++ ((e :: es).flatMap Elem.bytes ++ rest)).drop
          pre.length = e.id :: UInt8.ofNat e.body.length
            :: (e.body ++ (es.flatMap Elem.bytes ++ rest)) := by
        rw [List.drop_left, List.flatMap_cons, List.append_assoc]
        rfl
      have hid := peek_of_drop hdrop
      have hdrop1 := drop_add_of_append (n := 1)
        (show _ = [e.id] ++ _ from hdrop) rfl
      have hlenByte := peek_of_drop hdrop1
      have hdrop2 := drop_add_of_append (n := 1)
        (show _ = [UInt8.ofNat e.body.length] ++ _ from hdrop1) rfl
      have hlenNat : (UInt8.ofNat e.body.length).toNat = e.body.length := by
        rw [UInt8.toNat_ofNat']
        omega
      have hnext : UInt16.ofNat pre.length
          + (2 + (UInt8.ofNat e.body.length).toUInt16)
          = UInt16.ofNat (pre ++ e.bytes).length := by
        apply UInt16.toNat_inj.1
        rw [UInt16.toNat_add, UInt16.toNat_add, hi, UInt8.toNat_toUInt16,
          hlenNat, UInt16.toNat_ofNat', List.length_append, e.bytes_length]
        show (pre.length + (2 + e.body.length) % 2 ^ 16) % 2 ^ 16 = _
        omega
      have hassoc : pre ++ ((e :: es).flatMap Elem.bytes ++ rest)
          = pre ++ e.bytes ++ (es.flatMap Elem.bytes ++ rest) := by
        rw [List.flatMap_cons, List.append_assoc, List.append_assoc]
      have hrec := @ih (pre ++ e.bytes) k
        (fun d hd => h d (List.mem_cons_of_mem _ hd))
        (by rw [List.length_append, e.bytes_length]; omega)
        (by rw [List.length_cons] at hk; omega)
        (by
          rw [UInt16.toNat_ofNat', List.length_append, e.bytes_length]
          omega)
      rw [iesWalkFrom, hi, if_pos (by omega), hid, hlenByte]
      dsimp only
      rw [hlenNat, if_neg (by omega), hnext, hdrop2]
      rw [hassoc, hrec]
      show ({ id := e.id, body := (e.body ++ _).take e.body.length } :: es,
        ielen) = _
      rw [List.take_left' rfl]

/-- The walk over a cache of whole elements, whatever lies behind it. -/
theorem iesWalk_flatMap {es : List Elem} (rest : List UInt8)
    (h : ∀ e ∈ es, e.body.length < 256)
    (hlen : (es.flatMap Elem.bytes).length < 2 ^ 16) :
    iesWalk (es.flatMap Elem.bytes ++ rest)
      (UInt16.ofNat (es.flatMap Elem.bytes).length)
      = (es, UInt16.ofNat (es.flatMap Elem.bytes).length) := by
  have hnat : (UInt16.ofNat (es.flatMap Elem.bytes).length).toNat
      = (es.flatMap Elem.bytes).length := by
    rw [UInt16.toNat_ofNat']
    omega
  -- an element takes two bytes, so there are turns enough
  have hle : es.length ≤ (es.flatMap Elem.bytes).length := by
    clear h hlen hnat
    induction es with
    | nil => exact Nat.le_refl 0
    | cons e es ih =>
        rw [List.flatMap_cons, List.length_append, e.bytes_length,
          List.length_cons]
        omega
  exact @iesWalkFrom_flatMap es [] rest _ _ h
    (by rw [hnat, List.length_nil, Nat.zero_add]) (by omega)

/-- What is cached of a beacon reads back as elements of the beacon, in
its order and whole, up to the last byte cached. -/
theorem cached_elements_reparse (env : Env) (skb : SkBuff) (s : Mlme) :
    (Scanned env skb →
      ∃ b kept, Recorded b s.bssList (processScanResult env skb s).bssList
        ∧ kept.Sublist (beaconElems skb)
        ∧ b.ies = kept.flatMap Elem.bytes ∧ b.ies.length ≤ 511
        ∧ (∀ rest, iesWalk (b.ies ++ rest) (UInt16.ofNat b.ies.length)
          = (kept, UInt16.ofNat b.ies.length))
        ∧ (((beaconElems skb).flatMap Elem.bytes).length ≤ 511 →
          kept = beaconElems skb))
      ∧ (¬ Scanned env skb →
        (processScanResult env skb s).bssList = s.bssList) := by
  refine ⟨fun h => ?_, fun h => processScanResult_dropped h s⟩
  obtain ⟨kept, hsub, heq, hall⟩ := foldl_cacheElem (beaconElems skb) []
  rw [List.nil_append] at heq hall
  have hies : (scanEntry skb s.scanGeneration).ies
      = kept.flatMap Elem.bytes := by
    rw [scanEntry_fields]
    exact heq
  have hlen := (scanEntry_ok skb s.scanGeneration).ies_len
  refine ⟨_, kept, processScanResult_recorded h s, hsub, hies,
    Nat.le_of_lt_succ hlen, fun rest => ?_, hall⟩
  rw [hies] at hlen ⊢
  refine iesWalk_flatMap rest (fun e he => ?_) (by omega)
  exact (elems_within (hsub.subset he)).1

end Rtw88
