/-
`deAmsdu` undoes A-MSDU aggregation, and is safe on any bytes:
`amsdu_decoded`.

A subframe that stands at the position of the loop is delivered, and the
loop goes on where the next one starts (`deAmsdu_subframe`); behind the
last, unpadded one the position is past the end. On any bytes a step
moves at least 22 bytes forward, so the length is fuel enough, and what
is delivered lies before the next position.

The first half is an induction over the MSDUs, with the loop's position
at the length of what has been taken apart; padding comes behind every
subframe but the last, so the last is a case of its own (`amsdu_cons`).
The second half is an induction over the bytes that are left: what is
delivered stands in the data (`StandsIn`), and what comes later lies
behind it (`deAmsdu_apart`).

The source counts in 32-bit unsigned numbers. For every length that a
buffer can have with room for one more subframe, the positions do not
wrap, and the loop in 32 bits is the loop (`deAmsdu32_eq`).
-/
import Rtw88.Proofs.RxAccess
import Rtw88.Spec.Amsdu

namespace Rtw88

variable {env : Env}

-- ================================================================= subframes

@[simp] theorem Msdu.subframe_length (m : Msdu) :
    m.subframe.length = 14 + m.body.length := by
  simp only [Msdu.subframe, List.length_append, List.Vector.toList_length,
    be16_length]
  omega

theorem padLen_lt (n : Nat) : padLen n ≤ 3 := by
  rw [padLen]
  omega

/-- The step of the loop is the subframe and its padding. -/
theorem padLen_step (n : Nat) : n + padLen n = (n + 3) / 4 * 4 := by
  rw [padLen]
  omega

/-- A subframe, its padding unless it is the last, and the others. -/
theorem amsdu_cons (m : Msdu) (fill : Bytes 3) (ms : List (Msdu × Bytes 3)) :
    ∃ pad, amsdu ((m, fill) :: ms) = m.subframe ++ (pad ++ amsdu ms)
      ∧ pad.length = if ms = [] then 0 else padLen m.subframe.length := by
  cases ms with
  | nil => exact ⟨[], by simp [amsdu], rfl⟩
  | cons m' ms =>
      refine ⟨fill.toList.take (padLen m.subframe.length), ?_, ?_⟩
      · rw [amsdu, List.append_assoc]
        exact List.cons_ne_nil _ _
      · rw [List.length_take, List.Vector.toList_length,
          if_neg (List.cons_ne_nil _ _)]
        exact Nat.min_eq_left (padLen_lt _)

/-- A subframe has bytes, so there are no more of them than bytes. -/
theorem amsdu_length_ge (ms : List (Msdu × Bytes 3)) :
    ms.length ≤ (amsdu ms).length := by
  induction ms with
  | nil => exact Nat.le_refl 0
  | cons m ms ih =>
      obtain ⟨pad, hcons, -⟩ := amsdu_cons m.1 m.2 ms
      rw [hcons, List.length_append, List.length_append, m.1.subframe_length,
        List.length_cons]
      omega

/-- LLC/SNAP as the loop tests it. -/
theorem isSnap_eq_true {d : List UInt8} {off : Nat}
    (h : off + 3 ≤ d.length) :
    isSnap d off = true ↔ [0xAA, 0xAA, 0x03] <+: d.drop off := by
  have hdrop : (d.drop off).take 3
      = [peek d off, peek d (off + 1), peek d (off + 2)] := by
    rw [← grab_eq_slice h]
    rfl
  rw [List.prefix_iff_eq_take, isSnap]
  simp only [List.length_cons, List.length_nil, Nat.zero_add,
    Nat.reduceAdd, hdrop, Bool.and_eq_true, beq_iff_eq, List.cons.injEq,
    and_true]
  constructor
  · rintro ⟨⟨h₀, h₁⟩, h₂⟩
    exact ⟨h₀.symm, h₁.symm, h₂.symm⟩
  · rintro ⟨h₀, h₁, h₂⟩
    exact ⟨⟨h₀.symm, h₁.symm⟩, h₂.symm⟩

/-- A byte of what stands at an offset. -/
theorem peek_of_drop_append {d bs rest : List UInt8} {off i : Nat}
    (h : d.drop off = bs ++ rest) (hi : i < bs.length) :
    peek d (off + i) = peek bs i := by
  have hget : d[off + i]? = bs[i]? := by
    rw [← List.getElem?_drop, h, List.getElem?_append_left hi]
  rw [peek, peek, List.getD_eq_getElem?_getD, List.getD_eq_getElem?_getD,
    hget]

/-- The fields of a subframe at the position of the loop. -/
theorem subframe_reads {d rest : List UInt8} {pos : Nat} {m : Msdu}
    (h : d.drop pos = m.subframe ++ rest) :
    grab d pos 6 = m.da ∧ grab d (pos + 6) 6 = m.sa
      ∧ (be16At d (pos + 12)).toNat = m.body.length
      ∧ d.drop (pos + 14) = m.body ++ rest := by
  have hda : d.drop pos = m.da.toList ++ (m.sa.toList
      ++ (be16 (UInt16.ofNat m.body.length) ++ (m.body ++ rest))) := by
    rw [h, Msdu.subframe]
    simp only [List.append_assoc]
  have hsa := drop_add_of_append hda m.da.toList_length
  have hlen := drop_add_of_append hsa m.sa.toList_length
  have hbody := drop_add_of_append hlen (be16_length _)
  refine ⟨List.Vector.toList_injective (grab_of_drop hda m.da.toList_length),
    List.Vector.toList_injective (grab_of_drop hsa m.sa.toList_length), ?_,
    hbody⟩
  rw [be16At_of_drop hlen, UInt16.toNat_ofNat']
  exact Nat.mod_eq_of_lt m.fits

/-- What stands behind LLC/SNAP in an MSDU. -/
theorem body_reads {d rest : List UInt8} {off : Nat} {m : Msdu}
    (h : d.drop off = m.body ++ rest) :
    (isSnap d off = true ↔ m.IsLlcSnap)
      ∧ be16At d (off + 6) = be16At m.body 6
      ∧ (d.drop (off + 8)).take (m.body.length - 8) = m.body.drop 8 := by
  have hlong := m.long
  refine ⟨?_, ?_, ?_⟩
  · have hlen : off + 3 ≤ d.length := by
      have hcut := congrArg List.length h
      rw [List.length_drop, List.length_append] at hcut
      omega
    rw [isSnap_eq_true hlen, h]
    constructor
    · intro hpre
      exact List.prefix_of_prefix_length_le hpre (List.prefix_append _ _)
        (by show 3 ≤ _; omega)
    · exact fun hpre => hpre.trans (List.prefix_append _ _)
  · rw [be16At, be16At, peek_of_drop_append h (by omega), Nat.add_assoc,
      peek_of_drop_append h (by omega)]
  · rw [← List.drop_drop, h, List.drop_append_of_le_length hlong]
    exact List.take_left' List.length_drop

/-- One round of the loop on a subframe. -/
theorem deAmsdu_subframe {d rest : List UInt8} {pos : Nat} {m : Msdu}
    (h : d.drop pos = m.subframe ++ rest) (fuel : Nat) :
    deAmsdu d (fuel + 1) pos
      = (if m.IsLlcSnap then [(pos, m.frame)] else [])
        ++ deAmsdu d fuel (pos + (14 + m.body.length + 3) / 4 * 4) := by
  have hlong := m.long
  have hin : pos + (14 + m.body.length) ≤ d.length := by
    have hcut := congrArg List.length h
    rw [List.length_drop, List.length_append, m.subframe_length] at hcut
    omega
  obtain ⟨hda, hsa, hlen, hbody⟩ := subframe_reads h
  obtain ⟨hsnap, htype, hpay⟩ := body_reads hbody
  simp only [deAmsdu, hlen]
  rw [if_neg (by omega), if_neg (by omega)]
  by_cases hllc : m.IsLlcSnap
  · rw [if_pos (hsnap.2 hllc), if_pos hllc, hda, hsa, hpay, htype]
    rfl
  · rw [if_neg (fun h => hllc (hsnap.1 h)), if_neg hllc, List.nil_append]

/-- Past the end of the data the loop is over. -/
theorem deAmsdu_end {d : List UInt8} {fuel pos : Nat}
    (h : d.length < pos + 14) : deAmsdu d fuel pos = [] := by
  cases fuel with
  | zero => rfl
  | succ fuel => rw [deAmsdu, if_pos h]

/-- An A-MSDU at the position of the loop is taken apart: what starts
with LLC/SNAP in it is delivered, in order. -/
theorem deAmsdu_amsdu {d : List UInt8} {ms : List (Msdu × Bytes 3)}
    {fuel pos : Nat} (hfuel : ms.length ≤ fuel)
    (h : d.drop pos = amsdu ms) :
    (deAmsdu d fuel pos).map Prod.snd
      = (ms.filter fun m => m.1.IsLlcSnap).map fun m => m.1.frame := by
  induction ms generalizing fuel pos with
  | nil =>
      have hend : d.length - pos = 0 := by
        rw [← List.length_drop, h]
        rfl
      rw [deAmsdu_end (by omega)]
      rfl
  | cons m ms ih =>
      obtain ⟨m, fill⟩ := m
      obtain ⟨fuel, rfl⟩ : ∃ k, fuel = k + 1 :=
        Nat.exists_eq_add_of_le' (Nat.le_trans (Nat.le_add_left 1 _) hfuel)
      obtain ⟨pad, hcons, hpad⟩ := amsdu_cons m fill ms
      rw [hcons] at h
      have hrest : (deAmsdu d fuel (pos + (14 + m.body.length + 3) / 4 * 4)).map
          Prod.snd
          = (ms.filter fun m => m.1.IsLlcSnap).map fun m => m.1.frame := by
        have hnext := drop_add_of_append h m.subframe_length
        by_cases hms : ms = []
        · -- the last one is not padded
          rw [if_pos hms] at hpad
          rw [hms, List.length_eq_zero_iff.1 hpad] at hnext
          have hend : d.length - (pos + (14 + m.body.length)) = 0 := by
            rw [← List.length_drop, hnext]
            rfl
          rw [deAmsdu_end (by omega), hms]
          rfl
        · rw [if_neg hms, m.subframe_length] at hpad
          have hpadded := drop_add_of_append hnext hpad
          rw [Nat.add_assoc, padLen_step] at hpadded
          exact ih (Nat.le_of_succ_le_succ hfuel) hpadded
      rw [deAmsdu_subframe h, List.map_append, hrest, List.filter_cons]
      by_cases hllc : m.IsLlcSnap
      · rw [if_pos hllc, if_pos (decide_eq_true hllc)]
        rfl
      · rw [if_neg hllc, if_neg (by simp [hllc])]
        rfl

-- ================================================================== any bytes

/-- The loop is over before the fuel is: more of it changes nothing, not
even an access. -/
theorem deAmsduT_fuel {base : Nat} {d : List UInt8} {k l pos : Nat}
    (s : Mlme) (hk : d.length ≤ pos + k) (hl : d.length ≤ pos + l) :
    deAmsduT env base d k pos s = deAmsduT env base d l pos s := by
  have hover : ∀ fuel, d.length < pos + 14 →
      deAmsduT env base d fuel pos s = pure s := by
    intro fuel hend
    cases fuel with
    | zero => rfl
    | succ fuel => rw [deAmsduT, if_pos hend]
  by_cases hend : d.length < pos + 14
  · rw [hover k hend, hover l hend]
  · induction k generalizing l pos s with
    | zero => omega
    | succ k ih =>
        obtain ⟨l, rfl⟩ : ∃ j, l = j + 1 := ⟨l - 1, by omega⟩
        have hstep : ∀ sublen t, 8 ≤ sublen →
            deAmsduT env base d k (pos + (14 + sublen + 3) / 4 * 4) t
              = deAmsduT env base d l (pos + (14 + sublen + 3) / 4 * 4) t := by
          intro sublen t hmin
          by_cases hnext : d.length < pos + (14 + sublen + 3) / 4 * 4 + 14
          · cases k <;> cases l <;> simp only [deAmsduT, if_pos hnext]
          · refine ih t (by omega) (by omega) ?_ hnext
            intro fuel hend'
            exact absurd hend' hnext
        rw [deAmsduT, deAmsduT, if_neg hend, if_neg hend]
        congr 1
        funext sublen
        simp only
        split
        · rfl
        next hsub =>
          congr 1
          funext snap
          split
          · congr 1
            funext ethertype
            congr 1
            funext _
            congr 1
            funext t
            exact hstep _ t (by omega)
          · exact hstep _ s (by omega)

/-- A subframe that the loop delivers, at its place in the data. -/
structure StandsIn (d : List UInt8) (m : Nat × EthFrame) : Prop where
  min : 8 ≤ (be16At d (m.1 + 12)).toNat
  inside : m.1 + 14 + (be16At d (m.1 + 12)).toNat ≤ d.length
  snap : isSnap d (m.1 + 14) = true
  frame : m.2 = { da := grab d m.1 6, sa := grab d (m.1 + 6) 6
                  ethertype := be16At d (m.1 + 20)
                  payload := (d.drop (m.1 + 22)).take
                    ((be16At d (m.1 + 12)).toNat - 8) }

/-- What is delivered is a subframe that stands in the data, at the
position of the loop or behind it. -/
theorem deAmsdu_stands {d : List UInt8} {fuel pos : Nat} {m : Nat × EthFrame}
    (h : m ∈ deAmsdu d fuel pos) : pos ≤ m.1 ∧ StandsIn d m := by
  induction fuel generalizing pos with
  | zero => cases h
  | succ fuel ih =>
      simp only [deAmsdu] at h
      split at h
      · cases h
      · split at h
        · cases h
        next hsub =>
          split at h
          next hsnap =>
            rcases List.mem_cons.1 h with rfl | hmem
            · have hmin : 8 ≤ (be16At d (pos + 12)).toNat := by omega
              have hinside : pos + 14 + (be16At d (pos + 12)).toNat
                  ≤ d.length := by omega
              exact ⟨Nat.le_refl _, hmin, hinside, hsnap, rfl⟩
            · obtain ⟨hpos, hrest⟩ := ih hmem
              exact ⟨by omega, hrest⟩
          · obtain ⟨hpos, hrest⟩ := ih h
            exact ⟨by omega, hrest⟩

/-- The length of its payload. -/
theorem StandsIn.payload_length {d : List UInt8} {m : Nat × EthFrame}
    (h : StandsIn d m) :
    m.2.payload.length + 8 = (be16At d (m.1 + 12)).toNat := by
  have hmin := h.min
  have hinside := h.inside
  rw [h.frame]
  simp only [List.length_take, List.length_drop]
  omega

/-- Its payload is a range of the data. -/
theorem StandsIn.payload_range {d : List UInt8} {m : Nat × EthFrame}
    (h : StandsIn d m) :
    m.1 + 22 + m.2.payload.length ≤ d.length
      ∧ (d.drop (m.1 + 22)).take m.2.payload.length = m.2.payload := by
  have hlen := h.payload_length
  have hinside := h.inside
  refine ⟨by omega, ?_⟩
  rw [show m.2.payload.length = (be16At d (m.1 + 12)).toNat - 8 by omega,
    h.frame]

/-- And what is delivered later lies behind it. -/
theorem deAmsdu_apart {d : List UInt8} {fuel pos : Nat} :
    (deAmsdu d fuel pos).Pairwise fun m m' =>
      m.1 + 22 + m.2.payload.length ≤ m'.1 := by
  induction fuel generalizing pos with
  | zero => exact .nil
  | succ fuel ih =>
      simp only [deAmsdu]
      split
      · exact .nil
      · generalize (be16At d (pos + 12)).toNat = sublen
        split
        · exact .nil
        · split
          · refine .cons (fun m' hm' => ?_) ih
            have hnext := (deAmsdu_stands hm').1
            have hlen : ((d.drop (pos + 22)).take (sublen - 8)).length
                ≤ sublen - 8 := List.length_take_le _ _
            simp only
            omega
          · exact ih

-- ================================================================== 32 bits

/-- Down to a multiple of four. -/
theorem and_not_three_toNat (x : UInt32) :
    (x &&& ~~~(3 : UInt32)).toNat = x.toNat / 4 * 4 := by
  have hshift : x &&& ~~~(3 : UInt32) = (x >>> 2) <<< 2 := by
    apply UInt32.toBitVec_inj.1
    apply BitVec.eq_of_getLsbD_eq
    intro i hi
    simp only [UInt32.toBitVec_and, UInt32.toBitVec_not,
      UInt32.toBitVec_shiftLeft, UInt32.toBitVec_shiftRight,
      UInt32.toBitVec_ofNat, BitVec.getLsbD_and, BitVec.getLsbD_not,
      BitVec.ofNat_eq_ofNat, BitVec.reduceMod, BitVec.ushiftRight_eq',
      BitVec.toNat_ofNat, Nat.reducePow, Nat.reduceMod,
      BitVec.shiftLeft_eq', BitVec.getLsbD_shiftLeft,
      BitVec.getLsbD_ushiftRight, BitVec.getLsbD_ofNat]
    by_cases h : i < 2
    · have h3 : Nat.testBit 3 i = true := by
        obtain rfl | rfl : i = 0 ∨ i = 1 := by omega
        · rfl
        · rfl
      simp [h3, h]
    · have h3 : Nat.testBit 3 i = false := by
        apply Nat.testBit_lt_two_pow
        calc 3 < 2 ^ 2 := by decide
          _ ≤ 2 ^ i := Nat.pow_le_pow_right (by decide) (by omega)
      rw [h3]
      simp [h, hi]
      grind
  rw [hshift, UInt32.toNat_shiftLeft, UInt32.toNat_shiftRight]
  have hx := x.toNat_lt
  simp only [UInt32.reduceToNat, Nat.reduceMod, Nat.shiftRight_eq_div_pow,
    Nat.shiftLeft_eq, Nat.reducePow]
  omega

/-- In 32 bits the loop does the same, for every length that leaves room
for one more subframe. -/
theorem deAmsdu32_eq {d : List UInt8} {fuel : Nat} {pos : UInt32}
    (hlen : d.length + 2 ^ 16 ≤ 2 ^ 32) (hpos : pos.toNat ≤ d.length + 3) :
    deAmsdu32 d fuel pos = deAmsdu d fuel pos.toNat := by
  induction fuel generalizing pos with
  | zero => rfl
  | succ fuel ih =>
      have hd : (UInt32.ofNat d.length).toNat = d.length := by
        rw [UInt32.toNat_ofNat']
        omega
      have h14 : (pos + 14).toNat = pos.toNat + 14 := by
        rw [UInt32.toNat_add]
        show (pos.toNat + 14) % 2 ^ 32 = _
        omega
      have hsub := (be16At d (pos.toNat + 12)).toNat_lt
      have hcast : (be16At d (pos.toNat + 12)).toUInt32.toNat
          = (be16At d (pos.toNat + 12)).toNat := UInt16.toNat_toUInt32 _
      rw [deAmsdu32, deAmsdu]
      simp only [UInt32.lt_iff_toNat_lt, hd, h14]
      by_cases hend : d.length < pos.toNat + 14
      · rw [if_pos hend, if_pos hend]
      · rw [if_neg hend, if_neg hend]
        generalize (be16At d (pos.toNat + 12)).toUInt32 = sublen at hcast ⊢
        generalize (be16At d (pos.toNat + 12)).toNat = n at hcast hsub ⊢
        have hall : (pos + 14 + sublen).toNat = pos.toNat + 14 + n := by
          rw [UInt32.toNat_add, h14, hcast]
          omega
        have h8 : (8 : UInt32).toNat = 8 := rfl
        simp only [hall, hcast, h8]
        by_cases hstop : n < 8 ∨ d.length < pos.toNat + 14 + n
        · rw [if_pos hstop, if_pos hstop]
        · rw [if_neg hstop, if_neg hstop]
          have hround : ((14 + sublen + 3) &&& ~~~(3 : UInt32)).toNat
              = (14 + n + 3) / 4 * 4 := by
            rw [and_not_three_toNat, UInt32.toNat_add, UInt32.toNat_add, hcast]
            show ((14 + n) % 2 ^ 32 + 3) % 2 ^ 32 / 4 * 4 = _
            omega
          have hnext : (pos + ((14 + sublen + 3) &&& ~~~(3 : UInt32))).toNat
              = pos.toNat + (14 + n + 3) / 4 * 4 := by
            rw [UInt32.toNat_add, hround]
            omega
          have hpay : (sublen - 8).toNat = n - 8 := by
            rw [UInt32.toNat_sub_of_le _ _ (by
              rw [UInt32.le_iff_toNat_le, hcast, h8]; omega), hcast, h8]
          rw [ih (by rw [hnext]; omega), hnext, hpay]

-- ==================================================================== result

/-- `deAmsdu` takes apart what aggregation put together: every MSDU of
at least 8 bytes that starts with LLC/SNAP is handed to
`deliverEthernet` once, in order, with its addresses, its ethertype and
its payload. On any bytes the loop ends, every access is to the data,
and the payloads delivered are ranges of it, one behind the other. In
the source's 32 bits it is the same loop, up to 64 KiB below what they
can count. -/
theorem amsdu_decoded :
    (∀ ms : List (Msdu × Bytes 3), (∀ m ∈ ms, m.1.IsLlcSnap) →
        (deAmsdu (amsdu ms) (amsdu ms).length 0).map Prod.snd
          = ms.map fun m => m.1.frame)
      ∧ (∀ (env : Env) (d : List UInt8) (s : Mlme),
        let run := deAmsduT env 0 d d.length 0 s
        (∀ n, deAmsduT env 0 d (d.length + n) 0 s = run)
          ∧ run.Looks d.length
          ∧ run.val = (deAmsdu d d.length 0).foldl
            (fun s m => deliverEthernet env m.1 m.2 s) s)
      ∧ (∀ d : List UInt8,
        (∀ m ∈ deAmsdu d d.length 0,
          m.1 + 22 + m.2.payload.length ≤ d.length
            ∧ (d.drop (m.1 + 22)).take m.2.payload.length = m.2.payload)
          ∧ (deAmsdu d d.length 0).Pairwise fun m m' =>
            m.1 + 22 + m.2.payload.length ≤ m'.1 + 22)
      ∧ ∀ d : List UInt8, d.length + 2 ^ 16 ≤ 2 ^ 32 →
        deAmsdu32 d d.length 0 = deAmsdu d d.length 0 := by
  refine ⟨fun ms hllc => ?_, fun env d s => ⟨fun n => ?_, ?_, ?_⟩,
    fun d => ⟨fun m hm => ?_, ?_⟩, fun d hlen => ?_⟩
  · have hfuel : ms.length ≤ (amsdu ms).length := amsdu_length_ge ms
    rw [deAmsdu_amsdu hfuel (List.drop_zero),
      List.filter_eq_self.2 fun m hm => decide_eq_true (hllc m hm)]
  · exact deAmsduT_fuel s (by omega) (by omega)
  · exact deAmsduT_looks s (by omega)
  · exact deAmsduT_val 0 d d.length 0 s
  · exact (deAmsdu_stands hm).2.payload_range
  · exact deAmsdu_apart.imp fun h => Nat.le_trans h (Nat.le_add_right _ _)
  · exact deAmsdu32_eq hlen (Nat.zero_le _)

end Rtw88
