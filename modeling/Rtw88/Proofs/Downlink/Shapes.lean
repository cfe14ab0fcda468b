/-
Which frames `deliverDataFrame` takes apart rightly: those without HT
Control (`msdus_delivered_iff`).

With HT Control the receiver starts four bytes early. A single MSDU then
comes out longer or shorter than it was. An A-MSDU has no room for one
subframe more (`deAmsdu_room`), so its MSDUs can come out right only
from their own places, four bytes off, which takes an A-MSDU that
repeats itself (`deAmsdu_shifted_iff`).

# Right, byte by byte

A delivery is right if every range it copies holds the bytes it should,
so the questions are about slices of the frame. `slice_eq_peeks` and its
like turn a range into its bytes, and `ranges_iff` the ranges of a
subframe into its fields.

# Four bytes off

The loop on the shifted bytes finds MSDUs of its own. If they are to be
those of the A-MSDU, they take as much room as these, and with the four
bytes in front there is not room for a different cut; so the first is
read from the four bytes of HT Control on, and each byte of the A-MSDU
has to be the one four places behind it. The induction is over the
MSDUs. For a single MSDU the length alone decides (`llcOffset_cases`).
-/
import Rtw88.Proofs.Downlink.Decap

namespace Rtw88

variable {hw : Hw} {env : Env} {s : Mlme} {skb : SkBuff}

-- ==================================================================== slices

/-- A two-byte integer is its bytes. -/
theorem be16At_toNat (d : List UInt8) (i : Nat) :
    (be16At d i).toNat = (peek d i).toNat * 256 + (peek d (i + 1)).toNat := by
  have hhigh := (peek d i).toNat_lt
  have hlow := (peek d (i + 1)).toNat_lt
  have hor : 2 ^ 8 * (peek d i).toNat + (peek d (i + 1)).toNat
      = 2 ^ 8 * (peek d i).toNat ||| (peek d (i + 1)).toNat :=
    Nat.two_pow_add_eq_or_of_lt hlow _
  have hshift : ((peek d i).toUInt16 <<< 8).toNat
      = 2 ^ 8 * (peek d i).toNat := by
    rw [UInt16.toNat_shiftLeft, UInt8.toNat_toUInt16, Nat.shiftLeft_eq]
    show (peek d i).toNat * 2 ^ 8 % 2 ^ 16 = _
    omega
  rw [be16At, UInt16.toNat_or, hshift, UInt8.toNat_toUInt16, ← hor]
  omega

/-- A slice inside a byte string, byte by byte. -/
theorem slice_eq_peeks {d : List UInt8} {off n : Nat}
    (h : off + n ≤ d.length) :
    (d.drop off).take n = (List.range n).map fun i => peek d (off + i) := by
  rw [← grab_eq_slice h]
  rfl

/-- A slice in two parts. -/
theorem slice_split_iff {D E : List UInt8} {off a b : Nat}
    (hD : off + a ≤ D.length) (hE : off + a ≤ E.length) :
    (D.drop off).take (a + b) = (E.drop off).take (a + b)
      ↔ (D.drop off).take a = (E.drop off).take a
        ∧ (D.drop (off + a)).take b = (E.drop (off + a)).take b := by
  have hlen : ((D.drop off).take a).length = ((E.drop off).take a).length := by
    simp only [List.length_take, List.length_drop]
    omega
  rw [List.take_add, List.take_add, List.drop_drop, List.drop_drop]
  constructor
  · exact fun h => List.append_inj h hlen
  · rintro ⟨ha, hb⟩
    rw [ha, hb]

/-- Two bytes are the same if they spell the same. -/
theorem slice_two_iff {D E : List UInt8} {off : Nat}
    (hD : off + 2 ≤ D.length) (hE : off + 2 ≤ E.length) :
    (D.drop off).take 2 = (E.drop off).take 2
      ↔ be16At D off = be16At E off := by
  have hpeeks : ∀ d : List UInt8, (List.range 2).map (fun i => peek d (off + i))
      = [peek d off, peek d (off + 1)] := fun _ => rfl
  rw [slice_eq_peeks hD, slice_eq_peeks hE, hpeeks, hpeeks,
    List.cons.injEq, List.cons.injEq]
  constructor
  · rintro ⟨h₀, h₁, -⟩
    rw [be16At, be16At, h₀, h₁]
  · intro h
    have hD := be16At_toNat D off
    have hE := be16At_toNat E off
    have h₀ := (peek D (off + 1)).toNat_lt
    have h₁ := (peek E (off + 1)).toNat_lt
    rw [h] at hD
    exact ⟨UInt8.toNat_inj.1 (by omega), UInt8.toNat_inj.1 (by omega), rfl⟩

/-- A copy is the same if the slice is. -/
theorem slice_grab_iff {D E : List UInt8} {off n : Nat}
    (hD : off + n ≤ D.length) (hE : off + n ≤ E.length) :
    (D.drop off).take n = (E.drop off).take n ↔ grab D off n = grab E off n := by
  rw [← grab_eq_slice hD, ← grab_eq_slice hE]
  exact ⟨fun h => List.Vector.toList_injective h, fun h => by rw [h]⟩

/-- The ranges that are checked of a subframe hold the fields that the
loop reads of it. -/
theorem ranges_iff {D E : List UInt8} {pos n : Nat} (hn : 8 ≤ n)
    (hD : pos + 14 + n ≤ D.length) (hE : pos + 14 + n ≤ E.length)
    (hsnap : isSnap E (pos + 14) = true) :
    ((D.drop pos).take 17 = (E.drop pos).take 17
        ∧ (D.drop (pos + 20)).take (n - 6) = (E.drop (pos + 20)).take (n - 6))
      ↔ grab D pos 6 = grab E pos 6 ∧ grab D (pos + 6) 6 = grab E (pos + 6) 6
        ∧ be16At D (pos + 12) = be16At E (pos + 12)
        ∧ isSnap D (pos + 14) = true
        ∧ be16At D (pos + 20) = be16At E (pos + 20)
        ∧ (D.drop (pos + 22)).take (n - 8)
          = (E.drop (pos + 22)).take (n - 8) := by
  have hllc : (D.drop (pos + 14)).take 3 = (E.drop (pos + 14)).take 3
      ↔ isSnap D (pos + 14) = true := by
    have hE' : [0xAA, 0xAA, 0x03] = (E.drop (pos + 14)).take 3 :=
      List.prefix_iff_eq_take.1 ((isSnap_eq_true (by omega)).1 hsnap)
    rw [isSnap_eq_true (by omega), ← hE', List.prefix_iff_eq_take]
    exact eq_comm
  rw [show 17 = 6 + (6 + (2 + 3)) from rfl,
    slice_split_iff (by omega) (by omega), slice_split_iff (by omega) (by omega),
    slice_split_iff (by omega) (by omega), slice_grab_iff (by omega) (by omega),
    slice_grab_iff (by omega) (by omega),
    show n - 6 = 2 + (n - 8) by omega, slice_split_iff (by omega) (by omega)]
  simp only [Nat.add_assoc, Nat.reduceAdd]
  rw [slice_two_iff (by omega) (by omega), slice_two_iff (by omega) (by omega),
    hllc]
  simp only [and_assoc]

-- ============================================================= four bytes off

/-- The MSDUs that the loop finds take as much room as their subframes. -/
theorem deAmsdu_room {d : List UInt8} {ms : List (Msdu × Bytes 3)}
    {fuel pos : Nat} (hms : ms ≠ [])
    (h : (deAmsdu d fuel pos).map Prod.snd = ms.map fun m => m.1.frame) :
    pos + (amsdu ms).length ≤ d.length := by
  induction fuel generalizing pos ms with
  | zero => exact absurd (List.map_eq_nil_iff.1 h.symm) hms
  | succ fuel ih =>
      simp only [deAmsdu] at h
      split at h
      · exact absurd (List.map_eq_nil_iff.1 h.symm) hms
      · generalize (be16At d (pos + 12)).toNat = sublen at h
        split at h
        · exact absurd (List.map_eq_nil_iff.1 h.symm) hms
        next hsub =>
          split at h
          · cases ms with
            | nil => exact absurd rfl hms
            | cons m ms =>
                obtain ⟨m, fill⟩ := m
                rw [List.map_cons, List.map_cons] at h
                obtain ⟨hhead, htail⟩ := List.cons.inj h
                have hlong := m.long
                have hpay := congrArg (fun f => f.payload.length) hhead
                simp only [Msdu.frame, List.length_take,
                  List.length_drop] at hpay
                have hlen : sublen = m.body.length := by omega
                obtain ⟨pad, hcons, hpad⟩ := amsdu_cons m fill ms
                rw [hcons, List.length_append, List.length_append,
                  m.subframe_length, hpad]
                by_cases hnil : ms = []
                · rw [if_pos hnil, hnil]
                  show pos + (14 + m.body.length + (0 + 0)) ≤ _
                  omega
                · have hroom := ih hnil htail
                  have hstep := padLen_step (14 + m.body.length)
                  rw [if_neg hnil, m.subframe_length]
                  rw [hlen] at hroom
                  omega
          · have hroom := ih hms h
            omega

/-- The loop on a string with room for four bytes more than an A-MSDU
finds its MSDUs if and only if the string holds their fields in the same
places. -/
theorem deAmsdu_shifted_iff {D E : List UInt8} {ms : List (Msdu × Bytes 3)}
    {fuel pos : Nat} (hfuel : ms.length ≤ fuel)
    (hsnap : ∀ m ∈ ms, m.1.IsLlcSnap) (hE : E.drop pos = amsdu ms)
    (hroom : D.length = E.length + 4) :
    (deAmsdu D fuel pos).map Prod.snd = (ms.map fun m => m.1.frame)
      ↔ ∀ r ∈ checkedRanges pos ms,
        (D.drop r.1).take r.2 = (E.drop r.1).take r.2 := by
  induction ms generalizing fuel pos with
  | nil =>
      refine ⟨fun _ r hr => (by cases hr), fun _ => ?_⟩
      have hend : E.length - pos = 0 := by
        rw [← List.length_drop, hE]
        rfl
      rw [deAmsdu_end (by omega)]
      rfl
  | cons m ms ih =>
      obtain ⟨m, fill⟩ := m
      obtain ⟨fuel, rfl⟩ : ∃ k, fuel = k + 1 :=
        Nat.exists_eq_add_of_le' (Nat.le_trans (Nat.le_add_left 1 _) hfuel)
      have hlong := m.long
      have hllc : m.IsLlcSnap := hsnap _ List.mem_cons_self
      have hlenE : (amsdu ((m, fill) :: ms)).length = E.length - pos := by
        rw [← hE, List.length_drop]
      obtain ⟨pad, hcons, hpad⟩ := amsdu_cons m fill ms
      rw [hcons] at hE hlenE
      rw [List.length_append, List.length_append, m.subframe_length,
        hpad] at hlenE
      -- the fields of the subframe in `E`
      obtain ⟨hda, hsa, hlen, hbody⟩ := subframe_reads hE
      obtain ⟨hisSnap, htype, hpay⟩ := body_reads hbody
      have hranges := ranges_iff (D := D) (E := E) hlong (by omega) (by omega)
        (hisSnap.2 hllc)
      -- the rest of `E`
      have hrest : ms ≠ [] →
          E.drop (pos + (14 + m.body.length + 3) / 4 * 4) = amsdu ms := by
        intro hnil
        rw [if_neg hnil, m.subframe_length] at hpad
        have hnext := drop_add_of_append
          (drop_add_of_append hE m.subframe_length) hpad
        rwa [Nat.add_assoc, padLen_step] at hnext
      have htail : (deAmsdu D fuel
            (pos + (14 + m.body.length + 3) / 4 * 4)).map Prod.snd
            = (ms.map fun m => m.1.frame)
          ↔ ∀ r ∈ checkedRanges (pos + (14 + m.body.length + 3) / 4 * 4) ms,
            (D.drop r.1).take r.2 = (E.drop r.1).take r.2 := by
        by_cases hnil : ms = []
        · -- behind the last one there is no room for another
          rw [if_pos hnil, hnil] at hlenE
          have hzero : (amsdu []).length = 0 := rfl
          rw [deAmsdu_end (by omega), hnil]
          exact ⟨fun _ r hr => (by cases hr), fun _ => rfl⟩
        · exact ih (Nat.le_of_succ_le_succ hfuel)
            (fun m hm => hsnap m (List.mem_cons_of_mem _ hm)) (hrest hnil)
      rw [checkedRanges, List.forall_mem_cons, List.forall_mem_cons,
        ← htail, ← and_assoc]
      simp only
      rw [hranges, hda, hsa, htype, hpay]
      simp only [deAmsdu]
      rw [if_neg (by omega)]
      constructor
      · intro h
        -- the first MSDU is found at once: there is no room to skip any
        have hin : ¬ ((be16At D (pos + 12)).toNat < 8
            ∨ D.length < pos + 14 + (be16At D (pos + 12)).toNat) := by
          intro hbad
          rw [if_pos hbad] at h
          cases h
        rw [if_neg hin] at h
        have hfound : isSnap D (pos + 14) = true := by
          by_contra hnot
          rw [if_neg hnot] at h
          have hskip := deAmsdu_room (List.cons_ne_nil _ _) h
          rw [hcons, List.length_append, List.length_append,
            m.subframe_length, hpad] at hskip
          omega
        rw [if_pos hfound, List.map_cons, List.map_cons] at h
        obtain ⟨hhead, hothers⟩ := List.cons.inj h
        simp only [Msdu.frame, EthFrame.mk.injEq] at hhead
        obtain ⟨hda', hsa', htype', hpay'⟩ := hhead
        have hsub : (be16At D (pos + 12)).toNat = m.body.length := by
          have hcut := congrArg List.length hpay'
          simp only [List.length_take, List.length_drop] at hcut
          omega
        rw [hsub] at hpay' hothers
        exact ⟨⟨hda', hsa', UInt16.toNat_inj.1 (hsub.trans hlen.symm), hfound,
          htype', hpay'⟩, hothers⟩
      · rintro ⟨⟨hda', hsa', hlen', hfound, htype', hpay'⟩, hothers⟩
        rw [hlen', hlen, if_neg (by omega), if_pos hfound, List.map_cons,
          List.map_cons, hothers, hda', hsa', htype', hpay']
        rfl

-- ============================================================= single MSDUs

/-- An LLC/SNAP MSDU that stands at an offset is read there. -/
theorem llc_reads {d body : List UInt8} {off : Nat}
    (hbody : d.drop off = body) (hlong : 8 ≤ body.length)
    (hsnap : [0xAA, 0xAA, 0x03] <+: body) :
    isSnap d off = true ∧ be16At d (off + 6) = be16At body 6
      ∧ d.drop (off + 8) = body.drop 8 := by
  have hbody' : d.drop off = body ++ [] := hbody.trans (List.append_nil _).symm
  have hlen : off + 3 ≤ d.length := by
    have hcut := congrArg List.length hbody
    rw [List.length_drop] at hcut
    omega
  refine ⟨(isSnap_eq_true hlen).2 (hbody ▸ hsnap), ?_, ?_⟩
  · rw [be16At, be16At, peek_of_drop_append hbody' (by omega), Nat.add_assoc,
      peek_of_drop_append hbody' (by omega)]
  · rw [← List.drop_drop, hbody]

/-- LLC/SNAP is looked for behind the header, or eight bytes further in a
protected frame. -/
theorem llcOffset_cases (d : List UInt8) (prot : Bool) (off : Nat) :
    llcOffset d prot off = off
      ∨ prot = true ∧ llcOffset d prot off = off + 8 := by
  unfold llcOffset
  cases prot with
  | false =>
      left
      rw [Bool.and_false, Bool.false_and, Bool.false_and,
        if_neg Bool.false_ne_true]
  | true =>
      split
      · exact .inr ⟨rfl, rfl⟩
      · exact .inl rfl

/-- Without HT Control it is found, behind a CCMP header or not. -/
theorem llcOffset_found {h : DownHdr} {body : List UInt8}
    (hskb : skb.data = h.frame true body) (hhtc : h.hasHtc = false)
    (hlong : 8 ≤ body.length) (hsnap : [0xAA, 0xAA, 0x03] <+: body) :
    skb.data.drop (llcOffset skb.data (hasProtected h.fc) (hdrlen h.fc))
      = body := by
  have hbehind := behind_header hskb
  rw [DownHdr.htcPart, hhtc, if_neg Bool.false_ne_true, List.nil_append,
    DownHdr.ccmp, Bool.and_true] at hbehind
  unfold llcOffset
  cases hprot : hasProtected h.fc with
  | false =>
      rw [hprot] at hbehind
      rw [Bool.and_false, Bool.false_and, Bool.false_and,
        if_neg Bool.false_ne_true]
      exact hbehind
  | true =>
      rw [hprot, if_pos rfl] at hbehind
      have hbody := drop_add_of_append (n := 8) hbehind rfl
      have hlen : hdrlen h.fc + 16 ≤ skb.data.length := by
        have hcut := congrArg List.length hbody
        rw [List.length_drop] at hcut
        omega
      rw [isSnap_ccmpHdr hbehind, (llc_reads hbody hlong hsnap).1,
        decide_eq_true hlen]
      exact hbody

/-- A frame that is no A-MSDU is delivered rightly if and only if there
is no HT Control in it. -/
theorem single_delivered_iff {h : DownHdr} {body : List UInt8}
    (hskb : skb.data = h.frame true body) (hagg : h.aggregates = false)
    (hlong : 8 ≤ body.length) (hsnap : [0xAA, 0xAA, 0x03] <+: body) :
    (decap skb).calls.map Prod.snd
        = [{ da := h.addr1, sa := h.addr3, ethertype := be16At body 6
             payload := body.drop 8 }]
      ↔ h.hasHtc = false := by
  have hlen := length_frame hskb
  rw [decap_single hskb hagg (by omega)]
  simp only [Decap.calls, List.map_cons, List.map_nil, List.cons.injEq,
    EthFrame.mk.injEq, true_and, and_true]
  constructor
  · rintro ⟨-, hpay⟩
    cases hhtc : h.hasHtc with
    | false => rfl
    | true =>
        -- the payload has not its length
        have hcut := congrArg List.length hpay
        have hpart : h.htcPart.length = 4 := by
          rw [DownHdr.htcPart, hhtc, if_pos rfl, List.Vector.toList_length]
        rw [List.length_drop, List.length_drop] at hcut
        have hccmp : (h.ccmp true).length
            = if hasProtected h.fc then 8 else 0 := by
          rw [DownHdr.ccmp, Bool.and_true]
          cases hasProtected h.fc <;> rfl
        rcases llcOffset_cases skb.data (hasProtected h.fc) (hdrlen h.fc)
          with hoff | ⟨hprot, hoff⟩
        · rw [hoff] at hcut
          split at hccmp <;> omega
        · rw [hprot, if_pos rfl] at hccmp
          omega
  · intro hhtc
    obtain ⟨hfound, htype, hpay⟩ :=
      llc_reads (llcOffset_found hskb hhtc hlong hsnap) hlong hsnap
    rw [if_pos hfound]
    exact ⟨htype, hpay⟩

-- ================================================================== A-MSDUs

/-- What the A-MSDU branch takes for subframes. -/
theorem amsdu_data {h : DownHdr} {body : List UInt8}
    (hskb : skb.data = h.frame true body) :
    skb.data.drop (hdrlen h.fc + if hasProtected h.fc then 8 else 0)
      = (if h.hasHtc then h.lead else []) ++ body := by
  have hbehind := behind_header hskb
  rw [DownHdr.htcPart, DownHdr.ccmp, Bool.and_true] at hbehind
  rw [DownHdr.lead]
  cases hprot : hasProtected h.fc with
  | false =>
      rw [hprot] at hbehind
      simpa using hbehind
  | true =>
      rw [hprot] at hbehind
      cases hhtc : h.hasHtc with
      | false =>
          rw [hhtc] at hbehind
          exact drop_add_of_append (n := 8) hbehind rfl
      | true =>
          rw [hhtc, if_pos rfl, if_pos rfl] at hbehind
          have hccmp := drop_add_of_append hbehind h.htc.toList_length
          have htail := drop_add_of_append (n := 4)
            (show _ = (ccmpHdr h.pn h.keyidx).take 4
              ++ ((ccmpHdr h.pn h.keyidx).drop 4 ++ body) by
              rw [hccmp, ← List.append_assoc, List.take_append_drop]) rfl
          exact htail

/-- An A-MSDU is delivered rightly if and only if there is no HT Control
in the frame, or it repeats itself. -/
theorem amsdu_delivered_iff {h : DownHdr} {ms : List (Msdu × Bytes 3)}
    (hskb : skb.data = h.frame true (amsdu ms)) (hagg : h.aggregates = true)
    (hsnap : ∀ m ∈ ms, m.1.IsLlcSnap) :
    (decap skb).calls.map Prod.snd = (ms.map fun m => m.1.frame)
      ↔ h.hasHtc = false ∨ ∀ r ∈ checkedRanges 0 ms,
        ((h.lead ++ amsdu ms).drop r.1).take r.2
          = ((amsdu ms).drop r.1).take r.2 := by
  have hlen := length_frame hskb
  have hfuel : ms.length ≤ skb.data.length :=
    Nat.le_trans (amsdu_length_ge ms) (by omega)
  have hccmp : hasProtected h.fc = true →
      hdrlen h.fc + 8 ≤ skb.data.length := by
    intro hprot
    have h8 : (h.ccmp true).length = 8 := by
      rw [DownHdr.ccmp, hprot]
      rfl
    omega
  rw [decap_amsdu hskb hagg hccmp, amsdu_data hskb, Decap.calls]
  cases hhtc : h.hasHtc with
  | false =>
      rw [if_neg Bool.false_ne_true, List.nil_append,
        deAmsdu_amsdu hfuel List.drop_zero,
        List.filter_eq_self.2 fun m hm => decide_eq_true (hsnap m hm)]
      simp
  | true =>
      have hlead : h.lead.length = 4 := by
        rw [DownHdr.lead]
        split
        · rfl
        · exact List.Vector.toList_length _
      rw [if_pos rfl, deAmsdu_shifted_iff hfuel hsnap List.drop_zero
        (by rw [List.length_append, hlead, Nat.add_comm])]
      simp

-- ==================================================================== result

/-- For every data frame from the DS with three addresses, whatever its
header and its body: `deliverDataFrame` in CONNECTED hands its MSDUs to
the stack, no more and no less and unchanged, if and only if it has no
HT Control, or is an A-MSDU that shows the same four bytes early. -/
theorem msdus_delivered_iff (hs : s.state = .connected)
    (hpacket : ∀ pos, env.inputPacket pos = true) (h : DownHdr) {agg : Bool}
    (hagg : h.aggregates = agg) (body : DownBody agg)
    (hskb : skb.data = h.frame true body.bytes) :
    stackFrames (deliverDataFrame hw env skb s).log
        = (body.frames h).reverse ++ stackFrames s.log
      ↔ h.hasHtc = false ∨ body.Echoes h.lead := by
  have hall : (decap skb).calls.filter (fun m => env.inputPacket m.1)
      = (decap skb).calls :=
    List.filter_eq_self.2 fun m _ => hpacket m.1
  rw [stackFrames_deliver hs, hall, List.append_cancel_right_eq,
    List.reverse_inj]
  cases body with
  | msdu body hlong hsnap =>
      rw [DownBody.frames, DownBody.Echoes, or_false]
      exact single_delivered_iff hskb hagg hlong hsnap
  | amsdu ms hsnap => exact amsdu_delivered_iff hskb hagg hsnap

/-- A QoS header for the sample station, with these frame control
flags. -/
def sampleDown (flags : UInt16)
    (hdata : isData (0x0288 ||| flags) = true)
    (hfrom : (0x0288 ||| flags) &&& (fctlToDs ||| fctlFromDs) = fctlFromDs) :
    DownHdr :=
  { fc := 0x0288 ||| flags, duration := 0, addr1 := sampleMac
    addr2 := sampleAp, addr3 := sampleAp, seq := 0, qosCtl := zeros 2
    htc := zeros 4, pn := zeros 6, keyidx := 0, data := hdata
    fromDs := hfrom }

/-- LLC/SNAP and two bytes of a packet. -/
def sampleMsdu : List UInt8 := snapHdr 0x0800 ++ [0x45, 0x00]

/-- The packet, protected. -/
theorem sample_delivered :
    let hw := sampleHw samplePrims
    let s := (sysRun hw true joinEvents).mlme
    let h := sampleDown fctlProtected rfl rfl
    s.state = .connected
      ∧ stackFrames (deliverDataFrame hw {}
          { data := h.frame true sampleMsdu } s).log
        = { da := sampleMac, sa := sampleAp, ethertype := 0x0800
            payload := [0x45, 0x00] } :: stackFrames s.log := by
  intro hw s h
  have hs : s.state = .connected := by decide +kernel
  have hagg : h.aggregates = false := by decide +kernel
  have hhtc : h.hasHtc = false := by decide +kernel
  have hlong : 8 ≤ sampleMsdu.length := by decide
  have hsnap : [0xAA, 0xAA, 0x03] <+: sampleMsdu := by decide
  refine ⟨hs, ?_⟩
  clear_value s
  exact (@msdus_delivered_iff hw {} s { data := h.frame true sampleMsdu } hs
    (fun _ => rfl) h false hagg (.msdu sampleMsdu hlong hsnap) rfl).2 (.inl hhtc)

/-- The same packet with HT Control in the header: the stack gets four
bytes of LLC/SNAP in front of it, and no ethertype. -/
theorem htc_packet_mangled :
    let hw := sampleHw samplePrims
    let s := (sysRun hw true joinEvents).mlme
    let h := sampleDown fctlOrder rfl rfl
    let after := stackFrames (deliverDataFrame hw {}
      { data := h.frame true sampleMsdu } s).log
    s.state = .connected ∧ h.hasHtc = true ∧ h.aggregates = false
      ∧ after ≠ { da := sampleMac, sa := sampleAp, ethertype := 0x0800
                  payload := [0x45, 0x00] } :: stackFrames s.log
      ∧ after = { da := sampleMac, sa := sampleAp, ethertype := 0
                  payload := [0x00, 0x00, 0x08, 0x00, 0x45, 0x00] }
          :: stackFrames s.log := by
  decide +kernel

end Rtw88
