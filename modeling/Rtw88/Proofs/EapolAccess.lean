/-
EAPOL-Key processing stays inside its buffers.

One lemma a routine says that its accesses are inside and that its value
is that of the model's function (`…_spec`); the two are proved together,
as the bounds decide which bytes the values come from. `handleEAPOL` is
put together of these by the rules of `Computes`.

# What bounds what

The length checks are made in one routine and relied on in another, so
each `…_spec` lemma takes the bound that its caller has established:

- the MIC is taken over `eapolLen` bytes, a length the caller has already
  held against the mbuf (`eapolMicOkT_spec`);
- the unwrap works on `r`, an array of 32 blocks, and turns away key data
  of more; the clear text goes into a buffer of the same size
  (`unwrapLoop_spec`, `storeBlocksT_spec`);
- a GTK KDE is read inside its element, and its key is copied if it is at
  most 32 bytes long (`takeGtkT_spec`).

The loop over the key data is total because its 16-bit position cannot
wrap (`pos_advances`, Model/EapolAccess.lean). It is the induction of the
file: from each position to the next, with the window of the bytes that
are left.

# The result

`EapolSafe` collects what is to hold of one body: processing ends in the
model's state, what it touches lies in the body and in the buffers on its
stack, and the loop advances. `eapol_memory_safe` has it of every byte
string in every state.
-/
import Rtw88.Model.EapolAccess

namespace Rtw88

open Touched

variable {hw : Hw} {env : Env} {flen elen : Nat}

-- ==================================================================== windows

/-- A copy of a whole buffer. -/
private theorem grab_self {n : Nat} (v : Bytes n) : grab v.toList 0 n = v := by
  apply List.Vector.toList_injective
  rw [grab_eq_slice (by rw [List.Vector.toList_length, Nat.zero_add]),
    List.drop_zero]
  exact List.take_of_length_le (Nat.le_of_eq v.toList_length)

/-- Writing a whole buffer. -/
private theorem splice_whole {d bs : List UInt8} (h : bs.length = d.length) :
    splice d 0 bs = bs := by
  rw [splice, List.take_zero, List.nil_append, Nat.zero_add, h,
    List.drop_length, List.append_nil]

/-- A byte of the window is a byte of the buffer. -/
private theorem peek_window {d : List UInt8} {base len i : Nat}
    (h : i < len) :
    peek ((d.drop base).take len) i = peek d (base + i) := by
  rw [peek, peek, List.getD_eq_getElem?_getD, List.getD_eq_getElem?_getD,
    List.getElem?_take_of_lt h, List.getElem?_drop]

/-- A copy out of the window is one out of the buffer. -/
private theorem grab_window {d : List UInt8} {base len i n : Nat}
    (h : i + n ≤ len) :
    grab ((d.drop base).take len) i n = grab d (base + i) n := by
  apply List.Vector.toList_injective
  rw [grab_toList, grab_toList]
  apply List.map_congr_left
  intro k hk
  have hk' := List.mem_range.1 hk
  rw [peek_window (by omega), Nat.add_assoc]

-- ================================================================= the unwrap

/-- The blocks of the key data. -/
private theorem loadBlocksT_spec {b : EapolBuf} {d : List UInt8}
    {inp n i : Nat}
    (hin : inp + 8 + (i + n) * 8 ≤ b.size flen elen) (hr : i + n ≤ 32) :
    (loadBlocksT b d inp n i).Within (EapolBuf.size flen elen)
      ∧ (loadBlocksT b d inp n i).val
        = (List.range n).map fun k => grab d (inp + 8 + (i + k) * 8) 8 := by
  induction n generalizing i with
  | zero => exact ⟨within_pure _, rfl⟩
  | succ n ih =>
      obtain ⟨hrest, hval⟩ := ih (i := i + 1) (by omega) (by omega)
      rw [loadBlocksT]
      refine ⟨?_, ?_⟩
      · simp only [within_bind, within_load, within_access, within_pure,
          and_true]
        refine ⟨by omega, ?_, hrest⟩
        show i * 8 + 8 ≤ 256
        omega
      · simp only [val_bind, val_pure, load_val, hval]
        rw [List.range_succ_eq_map, List.map_cons, List.map_map]
        refine congrArg (_ :: ·) (List.map_congr_left fun k _ => ?_)
        show grab d (inp + 8 + (i + 1 + k) * 8) 8 = _
        rw [Nat.add_assoc i 1 k, Nat.add_comm 1 k]
        rfl

/-- A counter of zero changes nothing. -/
private theorem zipWith_xor_zero (l : List UInt8) (m : Nat) :
    List.zipWith (· ^^^ ·) l (List.replicate m 0) = l.take m := by
  induction l generalizing m with
  | nil => rw [List.zipWith_nil_left, List.take_nil]
  | cons x l ih =>
      cases m with
      | zero => rfl
      | succ m =>
          rw [List.replicate_succ, List.zipWith_cons_cons, ih,
            UInt8.xor_zero, List.take_succ_cons]

/-- The step counter, xored into the first `k` bytes, high byte first. -/
private theorem xorCounterT_spec {k t : Nat} {block : List UInt8}
    (hk : k ≤ block.length) (hlen : block.length = 16) :
    (xorCounterT k t block).Within (EapolBuf.size flen elen)
      ∧ (xorCounterT k t block).val
        = List.zipWith (· ^^^ ·) (block.take k)
            ((List.range k).map fun m => UInt8.ofNat (t / 256 ^ (k - 1 - m)))
          ++ block.drop k := by
  induction k generalizing t block with
  | zero => exact ⟨within_pure _, rfl⟩
  | succ k ih =>
      rw [xorCounterT]
      have hbyte : block.take (k + 1) = block.take k ++ [peek block k] := by
        have hlt : k < block.length := by omega
        rw [List.take_add_one, List.getElem?_eq_getElem hlt, peek,
          List.getD_eq_getElem?_getD, List.getElem?_eq_getElem hlt]
        rfl
      by_cases ht : t = 0
      · rw [if_pos ht]
        refine ⟨within_pure _, ?_⟩
        have hmap : ((List.range (k + 1)).map fun m =>
            UInt8.ofNat (t / 256 ^ (k + 1 - 1 - m)))
            = List.replicate (k + 1) 0 := by
          rw [ht, List.eq_replicate_iff]
          refine ⟨by simp, fun x hx => ?_⟩
          obtain ⟨m, -, rfl⟩ := List.mem_map.1 hx
          rw [Nat.zero_div]
          rfl
        rw [val_pure, hmap, zipWith_xor_zero, List.take_take, Nat.min_self,
          List.take_append_drop]
      · rw [if_neg ht]
        have hspl : (splice block k
            [peek block k ^^^ UInt8.ofNat t]).length = 16 := by
          rw [splice_length (by simpa using hk), hlen]
        obtain ⟨hrest, hval⟩ := @ih (t / 256) (splice block k
          [peek block k ^^^ UInt8.ofNat t]) (by omega) hspl
        refine ⟨?_, ?_⟩
        · simp only [within_bind, within_load8, within_store, load8_val,
            store_val]
          refine ⟨?_, ?_, hrest⟩
          · show k + 1 ≤ 16
            omega
          · show k + 1 ≤ 16
            omega
        · simp only [val_bind, load8_val, store_val, hval]
          have hcounter : ((List.range k).map fun m =>
              UInt8.ofNat (t / 256 / 256 ^ (k - 1 - m)))
              = (List.range k).map fun m =>
                UInt8.ofNat (t / 256 ^ (k + 1 - 1 - m)) := by
            apply List.map_congr_left
            intro m hm
            have hm' := List.mem_range.1 hm
            rw [Nat.div_div_eq_div_mul, ← Nat.pow_succ',
              show (k - 1 - m).succ = k + 1 - 1 - m by omega]
          rw [splice_take (by omega), splice_drop (by omega), hbyte, hcounter, List.range_succ, List.map_append,
            List.zipWith_append (by simp; omega), List.append_assoc]
          simp

/-- One block of the unwrap is that of the model, on one of the 32 cells
of `r`. -/
private theorem unwrapStepT_spec {dec : Bytes 16 → Bytes 16 → Bytes 16}
    {kek : Bytes 16} {n : Nat} {ar : Bytes 8 × List (Bytes 8)}
    {ji : Nat × Nat} (hi : ji.2 < 32) :
    (unwrapStepT dec kek n ar ji).Within (EapolBuf.size flen elen)
      ∧ (unwrapStepT dec kek n ar ji).val = unwrapStep dec kek n ar ji := by
  obtain ⟨a, r⟩ := ar
  obtain ⟨j, i⟩ := ji
  have ha : a.toList.length = 8 := a.toList_length
  -- the block: the register, the counter in it, and the cell
  have hfirst : splice (zeros 16).toList 0 a.toList
      = a.toList ++ List.replicate 8 0 := by
    rw [splice, ha]
    rfl
  obtain ⟨hxor, hxval⟩ := @xorCounterT_spec flen elen 8
    (n * j + i + 1) (a.toList ++ List.replicate 8 0) (by simp [ha])
    (by simp [ha])
  have hmask : (xorCounterT 8 (n * j + i + 1)
      (a.toList ++ List.replicate 8 0)).val
      = unwrapMask a (n * j + i + 1) ++ List.replicate 8 0 := by
    rw [hxval, List.take_left' ha, List.drop_left' ha]
    rfl
  have hmasklen : (unwrapMask a (n * j + i + 1)).length = 8 := by
    simp [unwrapMask, ha]
  have hblock : ∀ x : Bytes 8, splice
      (unwrapMask a (n * j + i + 1) ++ List.replicate 8 0) 8 x.toList
      = unwrapMask a (n * j + i + 1) ++ x.toList := by
    intro x
    rw [splice, List.take_left' hmasklen, x.toList_length,
      List.drop_of_length_le (by simp [hmasklen]), List.append_nil]
  have hplain : ∀ c : Bytes 16,
      splice (zeros 16).toList 0 c.toList = c.toList := fun c =>
    splice_whole (by rw [c.toList_length]; rfl)
  have hreg : ∀ c : Bytes 8, splice a.toList 0 c.toList = c.toList :=
    fun c => splice_whole (by rw [c.toList_length, ha])
  refine ⟨?_, ?_⟩
  · simp only [unwrapStepT, within_bind, within_load, within_store,
      within_access, within_pure, load_val, store_val, grab_self, hfirst,
      List.Vector.toList_length, and_true]
    refine ⟨?_, ?_, hxor, ?_, ?_, ?_, ?_, ?_, ?_, ?_, ?_⟩
    · exact Nat.le_refl 8
    · show 0 + 8 ≤ 16
      omega
    · show i * 8 + 8 ≤ 256
      have hi' : i < 32 := hi
      omega
    · exact Nat.le_refl 16
    · exact Nat.le_refl 16
    · exact Nat.le_refl 16
    · show 0 + 8 ≤ 16
      omega
    · exact Nat.le_refl 8
    · exact Nat.le_refl 16
    · show i * 8 + 8 ≤ 256
      have hi' : i < 32 := hi
      omega
  · simp only [unwrapStepT, val_bind, val_pure, load_val, store_val,
      grab_self, hfirst, hmask, hblock, hplain, hreg]
    rfl

/-- The blocks into the output buffer. -/
private theorem storeBlocksT_spec {xs : List (Bytes 8)} {i : Nat}
    {out : List UInt8} (hi : i + xs.length ≤ 32) (hout : out.length = 256) :
    (storeBlocksT xs i out).Within (EapolBuf.size flen elen)
      ∧ (storeBlocksT xs i out).val.length = 256
      ∧ (storeBlocksT xs i out).val.take ((i + xs.length) * 8)
        = out.take (i * 8) ++ xs.flatMap fun b => b.toList := by
  induction xs generalizing i out with
  | nil =>
      refine ⟨within_pure _, hout, ?_⟩
      rw [List.flatMap_nil, List.append_nil]
      rfl
  | cons x xs ih =>
      rw [List.length_cons] at hi
      have hx : x.toList.length = 8 := x.toList_length
      have hspl : (splice out (i * 8) x.toList).length = 256 := by
        rw [splice_length (by omega), hout]
      obtain ⟨hrest, hlen, hval⟩ := @ih (i + 1)
        (splice out (i * 8) x.toList) (by omega) hspl
      rw [storeBlocksT]
      refine ⟨?_, hlen, ?_⟩
      · simp only [within_bind, within_access, within_store, store_val, hx]
        refine ⟨?_, ?_, hrest⟩
        · show i * 8 + 8 ≤ 256
          omega
        · show i * 8 + 8 ≤ 256
          omega
      · have htake := @take_splice out x.toList (i * 8) (by omega)
        rw [hx, show i * 8 + 8 = (i + 1) * 8 by omega] at htake
        rw [List.length_cons, List.flatMap_cons, ← List.append_assoc,
          ← htake, ← hval]
        simp only [val_bind, store_val]
        rw [show i + (xs.length + 1) = i + 1 + xs.length by omega]

/-- No step of the unwrap changes the number of cells. -/
private theorem unwrapStep_length {dec : Bytes 16 → Bytes 16 → Bytes 16}
    {kek : Bytes 16} {n : Nat} (ar : Bytes 8 × List (Bytes 8))
    (ji : Nat × Nat) : (unwrapStep dec kek n ar ji).2.length = ar.2.length :=
  List.length_set

/-- The loops of the unwrap. -/
private theorem unwrapLoop_spec {dec : Bytes 16 → Bytes 16 → Bytes 16}
    {kek : Bytes 16} {n : Nat} (hn : n ≤ 32) (ar : Bytes 8 × List (Bytes 8))
    {order : List (Nat × Nat)} (horder : ∀ ji ∈ order, ji.2 < n) :
    (order.foldlM (unwrapStepT dec kek n) ar).Within (EapolBuf.size flen elen)
      ∧ (order.foldlM (unwrapStepT dec kek n) ar).val
        = order.foldl (unwrapStep dec kek n) ar
      ∧ (order.foldl (unwrapStep dec kek n) ar).2.length = ar.2.length := by
  have hstep : ∀ ji ∈ order, ∀ ar,
      (unwrapStepT dec kek n ar ji).Within (EapolBuf.size flen elen)
        ∧ (unwrapStepT dec kek n ar ji).val = unwrapStep dec kek n ar ji :=
    fun ji hji ar => unwrapStepT_spec (Nat.lt_of_lt_of_le (horder ji hji) hn)
  refine ⟨?_, ?_, ?_⟩
  · exact (within_foldlM (I := fun _ => True)
      (fun ji hji ar _ => ⟨(hstep ji hji ar).1, trivial⟩) trivial).1
  · rw [val_foldlM]
    clear horder
    induction order generalizing ar with
    | nil => rfl
    | cons ji order ih =>
        rw [List.foldl_cons, List.foldl_cons,
          (hstep ji List.mem_cons_self ar).2]
        exact ih _ fun ji hji => hstep ji (List.mem_cons_of_mem _ hji)
  · clear horder hstep
    induction order generalizing ar with
    | nil => rfl
    | cons ji order ih => exact (ih _).trans (unwrapStep_length ar ji)

/-- `aes_unwrap_128` stays inside its buffers, and computes what the
model does of the key data. -/
theorem aesUnwrap128T_spec {dec : Bytes 16 → Bytes 16 → Bytes 16}
    {kek : Bytes 16} {b : EapolBuf} {d : List UInt8} {inp : Nat}
    {len : UInt16} (hin : inp + len.toNat ≤ b.size flen elen)
    (hd : inp + len.toNat ≤ d.length) :
    (aesUnwrap128T dec kek b d inp len).Within (EapolBuf.size flen elen)
      ∧ (∀ o ∈ (aesUnwrap128T dec kek b d inp len).val,
        o.1.length = 256 ∧ o.2.toNat ≤ 256)
      ∧ (aesUnwrap128T dec kek b d inp len).val.map
          (fun o => o.1.take o.2.toNat)
        = aesUnwrap128 dec kek ((d.drop inp).take len.toNat) := by
  have hwin : ((d.drop inp).take len.toNat).length = len.toNat := by
    rw [List.length_take, List.length_drop]
    omega
  have hguard : (len < 16 ∨ len &&& 7 ≠ 0)
      ↔ (len.toNat < 16 ∨ len.toNat % 8 ≠ 0) := by
    have hand : (len &&& 7).toNat = len.toNat % 8 := by
      rw [UInt16.toNat_and]
      exact Nat.and_two_pow_sub_one_eq_mod len.toNat 3
    refine or_congr UInt16.lt_iff_toNat_lt (not_congr ?_)
    rw [← UInt16.toNat_inj, hand]
    rfl
  rw [aesUnwrap128T, aesUnwrap128, hwin]
  by_cases hbad : len < 16 ∨ len &&& 7 ≠ 0
  · rw [if_pos hbad, if_pos (hguard.1 hbad)]
    exact ⟨within_pure _, (fun _ ho => by cases ho), rfl⟩
  · rw [if_neg hbad, if_neg fun h => hbad (hguard.2 h)]
    simp only
    have hlen : 16 ≤ len.toNat ∧ len.toNat % 8 = 0 := by
      have hno : ¬ (len.toNat < 16 ∨ len.toNat % 8 ≠ 0) :=
        fun h => hbad (hguard.2 h)
      omega
    by_cases hn : len.toNat / 8 - 1 = 0 ∨ 32 < len.toNat / 8 - 1
    · rw [if_pos hn, if_pos hn]
      exact ⟨within_pure _, (fun _ ho => by cases ho), rfl⟩
    · rw [if_neg hn, if_neg hn]
      generalize hcount : len.toNat / 8 - 1 = n at hn ⊢
      have hle : n ≤ 32 ∧ inp + 8 + (0 + n) * 8 ≤ inp + len.toNat := by
        omega
      obtain ⟨hload, hblocks⟩ := @loadBlocksT_spec flen elen b d inp n 0
        (Nat.le_trans hle.2 hin) (by omega)
      -- the registers are those of the model
      have hcells : ((List.range n).map fun k => grab d
          (inp + 8 + (0 + k) * 8) 8)
          = (List.range n).map fun i =>
            grab ((d.drop inp).take len.toNat) (8 + 8 * i) 8 := by
        apply List.map_congr_left
        intro k hk
        have hk' := List.mem_range.1 hk
        rw [grab_window (by omega)]
        congr 1
        omega
      have hhead : grab d inp 8
          = grab ((d.drop inp).take len.toNat) 0 8 := by
        rw [grab_window (by omega)]
        rfl
      have hreg : ∀ c : Bytes 8,
          splice (zeros 8).toList 0 c.toList = c.toList := fun c =>
        splice_whole (by rw [c.toList_length]; rfl)
      generalize hor : ([5, 4, 3, 2, 1, 0].flatMap fun j =>
        (List.range n).reverse.map fun i => (j, i)) = order
      have horder : ∀ ji ∈ order, ji.2 < n := by
        intro ji hji
        rw [← hor] at hji
        obtain ⟨j, -, hji⟩ := List.mem_flatMap.1 hji
        obtain ⟨i, hi, rfl⟩ := List.mem_map.1 hji
        exact List.mem_range.1 (List.mem_reverse.1 hi)
      obtain ⟨hloop, hval, hsize⟩ := @unwrapLoop_spec flen elen dec kek n
        hle.1
        (grab ((d.drop inp).take len.toNat) 0 8,
          (List.range n).map fun i =>
            grab ((d.drop inp).take len.toNat) (8 + 8 * i) 8) order horder
      rw [List.length_map, List.length_range] at hsize
      generalize hend : order.foldl (unwrapStep dec kek n)
        (grab ((d.drop inp).take len.toNat) 0 8,
          (List.range n).map fun i =>
            grab ((d.drop inp).take len.toNat) (8 + 8 * i) 8) = ar
        at hval hsize
      obtain ⟨a, r⟩ := ar
      obtain ⟨hstore, hfull, hout⟩ := @storeBlocksT_spec flen elen r 0
        (zeros 256).toList
        (by rw [Nat.zero_add]; exact Nat.le_trans (Nat.le_of_eq hsize) hle.1)
        (List.Vector.toList_length _)
      have hcheck : grab a.toList 0 8 = a := grab_self a
      have hsmall : (UInt16.ofNat (n * 8)).toNat = n * 8 := by
        rw [UInt16.toNat_ofNat']
        omega
      have hbounds : inp + 8 ≤ b.size flen elen := by omega
      refine ⟨?_, ?_, ?_⟩
      · simp only [within_bind, within_load, within_store, load_val,
          store_val, hreg, grab_self, hblocks, hcells, hhead, hval,
          List.Vector.toList_length]
        refine ⟨hbounds, Nat.le_refl 8, hload, hloop, Nat.le_refl 8, ?_⟩
        split
        · exact within_pure _
        · exact (within_bind _ _).2 ⟨hstore, within_pure _⟩
      · intro o ho
        simp only [val_bind, val_ite, val_pure, load_val,
          store_val, hreg, grab_self, hblocks, hcells, hhead, hval] at ho
        split at ho
        · cases ho
        · obtain rfl := Option.some.inj ho
          exact ⟨hfull, by rw [hsmall]; omega⟩
      · simp only [val_bind, val_ite, val_pure, load_val,
          store_val, hreg, grab_self, hblocks, hcells, hhead, hval]
        by_cases hiv : a.toList = List.replicate 8 0xa6
        · rw [if_neg (not_not.2 hiv), if_pos hiv, Option.map_some, hsmall]
          rw [hsize, Nat.zero_add, Nat.zero_mul, List.take_zero,
            List.nil_append] at hout
          exact congrArg some hout
        · rw [if_pos hiv, if_neg hiv]
          rfl

-- ==================================================================== the MIC

/-- The access is one to the frame. -/
def Touch.onFrame : Touch EapolBuf → Bool
  | .read b _ _ | .write b _ _ => b == .frame

/-- `eapol_mic_ok` stays inside its buffers, says what the model says of
the first `eapolLen` bytes, and reads exactly these. -/
private theorem eapolMicOkT_spec {pr : Prims} {alloc : Bool} {kck : Bytes 16}
    {d : List UInt8} {eapolLen : Nat} (hlen : eapolLen ≤ d.length) :
    (eapolMicOkT pr alloc kck d eapolLen).Within
        (EapolBuf.size d.length eapolLen)
      ∧ (eapolMicOkT pr alloc kck d eapolLen).val
        = eapolMicOk pr alloc kck (d.take eapolLen)
      ∧ (99 ≤ eapolLen → alloc = true →
        (eapolMicOkT pr alloc kck d eapolLen).log.filter Touch.onFrame
          = [.read .frame 0 eapolLen]) := by
  have htake : (d.take eapolLen).length = eapolLen := by
    rw [List.length_take, Nat.min_eq_left hlen]
  rw [eapolMicOkT, eapolMicOk, htake]
  by_cases hshort : eapolLen < 99
  · rw [if_pos hshort, if_pos (by simp [hshort])]
    exact ⟨within_pure _, rfl, fun h => absurd hshort (Nat.not_lt.2 h)⟩
  · rw [if_neg hshort]
    cases halloc : alloc with
    | false =>
        rw [if_pos (show (!false) = true from rfl), if_pos (by simp)]
        exact ⟨within_pure _, rfl, fun _ h => (by cases h)⟩
    | true =>
        rw [if_neg (by simp), if_neg (by simp [hshort])]
        have hcopy : (grab d 0 eapolLen).toList = d.take eapolLen := by
          rw [grab_eq_slice (by omega), List.drop_zero]
        have htmp : splice (zeros eapolLen).toList 0 (d.take eapolLen)
            = d.take eapolLen :=
          splice_whole (by rw [htake, List.Vector.toList_length])
        have hzero : (splice (d.take eapolLen) 81
            (List.replicate 16 0)).length = eapolLen := by
          rw [splice_length (by rw [List.length_replicate]; omega), htake]
        have hinput : (grab (splice (d.take eapolLen) 81
            (List.replicate 16 0)) 0 eapolLen).toList
            = splice (d.take eapolLen) 81 (List.replicate 16 0) := by
          rw [grab_eq_slice (by omega), List.drop_zero]
          exact List.take_of_length_le (Nat.le_of_eq hzero)
        have hmic : ∀ c : Bytes 20,
            splice (zeros 20).toList 0 c.toList = c.toList := fun c =>
          splice_whole (by rw [c.toList_length]; rfl)
        have hrx : ∀ c : Bytes 16,
            splice (zeros 16).toList 0 c.toList = c.toList := fun c =>
          splice_whole (by rw [c.toList_length]; rfl)
        refine ⟨?_, ?_, fun _ _ => rfl⟩
        · simp only [within_bind, within_load, within_store, within_pure,
            List.Vector.toList_length, List.length_replicate, and_true]
          refine ⟨?_, ?_, ?_, ?_, ?_, ?_, ?_, ?_, ?_⟩
          · show 0 + eapolLen ≤ d.length
            omega
          · show 0 + eapolLen ≤ eapolLen
            omega
          · show 81 + 16 ≤ eapolLen
            omega
          · exact Nat.le_refl 16
          · show 81 + 16 ≤ eapolLen
            omega
          · show 0 + eapolLen ≤ eapolLen
            omega
          · exact Nat.le_refl 20
          · exact Nat.le_refl 16
          · show 0 + 16 ≤ 20
            omega
        · simp only [val_bind, val_pure, load_val, store_val, hcopy, htmp,
            hinput, hmic, hrx, grab_self]
          have hfirst : ∀ c : Bytes 20,
              (grab c.toList 0 16).toList = c.toList.take 16 := by
            intro c
            rw [grab_eq_slice (by rw [c.toList_length]; omega),
              List.drop_zero]
          rw [← hfirst]
          exact Bool.eq_iff_iff.2 (by
            rw [beq_iff_eq, beq_iff_eq, List.Vector.toList_injective.eq_iff])

-- ================================================================ the KDE loop

/-- A GTK KDE, as the search of the model asks for it. -/
def isGtkKde (e : Elem) : Bool :=
  e.id == 0xdd && decide (6 ≤ e.body.length)
    && e.body.take 4 == [0x00, 0x0f, 0xac, 0x01]

/-- What the model takes from it. -/
def gtkOfKde (e : Elem) : Option (List UInt8 × UInt8) :=
  if 32 < e.body.length - 6 then none
  else some (e.body.drop 6, peek e.body 4 &&& 0x3)

/-- Where two bytes are left, they are there. -/
private theorem drop_two {w : List UInt8} {pos : Nat}
    (hpos : pos + 2 ≤ w.length) :
    w.drop pos = peek w pos :: peek w (pos + 1) :: w.drop (pos + 2) := by
  rw [List.drop_eq_getElem_cons (by omega), List.drop_eq_getElem_cons
    (i := pos + 1) (by omega)]
  simp only [peek, List.getD_eq_getElem?_getD]
  rw [List.getElem?_eq_getElem (by omega),
    List.getElem?_eq_getElem (by omega)]
  rfl

/-- The element at `pos` of the window, when it is inside. -/
private theorem elemsUpTo_window {w : List UInt8} {pos fuel : Nat}
    (hpos : pos + 2 ≤ w.length)
    (hin : pos + 2 + (peek w (pos + 1)).toNat ≤ w.length) :
    elemsUpTo (fuel + 1) (w.drop pos)
      = { id := peek w pos
          body := (w.drop (pos + 2)).take (peek w (pos + 1)).toNat }
        :: elemsUpTo fuel (w.drop (pos + 2 + (peek w (pos + 1)).toNat)) := by
  rw [drop_two hpos, elemsUpTo, if_pos (by rw [List.length_drop]; omega),
    List.drop_drop]

/-- The walk ends where an element is not inside. -/
private theorem elemsUpTo_end {w : List UInt8} {pos fuel : Nat}
    (h : w.length < pos + 2
      ∨ w.length < pos + 2 + (peek w (pos + 1)).toNat) :
    elemsUpTo fuel (w.drop pos) = [] := by
  cases fuel with
  | zero => rfl
  | succ fuel =>
      by_cases hpos : pos + 2 ≤ w.length
      · rw [drop_two hpos, elemsUpTo, if_neg (by rw [List.length_drop]; omega)]
      · have hshort : (w.drop pos).length < 2 := by
          rw [List.length_drop]
          omega
        generalize w.drop pos = l at hshort
        cases l with
        | nil => rfl
        | cons id l =>
            cases l with
            | nil => rfl
            | cons len l =>
                simp only [List.length_cons] at hshort
                omega

/-- What the loop over `len` bytes of key data at `base` may touch: these
bytes, and the 32 bytes of `gtk`. -/
def KdeTouch (b : EapolBuf) (base len : Nat) : Touch EapolBuf → Prop
  | .read b' off n => b' = b ∧ base ≤ off ∧ off + n ≤ base + len
  | .write b' off n => b' = .gtk ∧ off + n ≤ 32

/-- The test for a GTK KDE. -/
private theorem isGtkKdeT_spec {b : EapolBuf} {d : List UInt8}
    {base len off : Nat} {id n : UInt8} (hbase : base ≤ off)
    (hin : off + n.toNat ≤ base + len) (hd : base + len ≤ d.length) :
    (isGtkKdeT b d off id n).All (KdeTouch b base len)
      ∧ (isGtkKdeT b d off id n).val
        = isGtkKde { id := id, body := (d.drop off).take n.toNat } := by
  have hlen : ((d.drop off).take n.toNat).length = n.toNat := by
    rw [List.length_take, List.length_drop]
    omega
  have hsix : 6 ≤ n ↔ 6 ≤ n.toNat := UInt8.le_iff_toNat_le
  rw [isGtkKdeT, isGtkKde]
  simp only [hlen]
  by_cases hask : id = 0xdd ∧ 6 ≤ n
  · obtain ⟨hid, hn⟩ := hask
    have hn' := hsix.1 hn
    rw [if_pos ⟨hid, hn⟩]
    refine ⟨?_, ?_⟩
    · simp only [all_bind, all_load, all_pure, and_true]
      exact ⟨rfl, hbase, by omega⟩
    · simp only [val_bind, val_pure, load_val]
      rw [grab_eq_slice (by omega), List.take_take,
        Nat.min_eq_left (by omega), hid, beq_self_eq_true,
        decide_eq_true hn']
      rfl
  · rw [if_neg hask]
    refine ⟨all_pure _, ?_⟩
    by_cases hid : id = 0xdd
    · have hn : ¬ 6 ≤ n.toNat := fun h => hask ⟨hid, hsix.2 h⟩
      rw [decide_eq_false hn, Bool.and_false, Bool.false_and]
      rfl
    · rw [beq_eq_false_iff_ne.2 hid, Bool.false_and, Bool.false_and]
      rfl

/-- The key and the index of a GTK KDE. -/
private theorem takeGtkT_spec {b : EapolBuf} {d : List UInt8}
    {base len off : Nat} {id n : UInt8} (hbase : base ≤ off)
    (hin : off + n.toNat ≤ base + len) (hd : base + len ≤ d.length)
    (hn : 6 ≤ n.toNat) :
    (takeGtkT b d off n).All (KdeTouch b base len)
      ∧ (takeGtkT b d off n).val
        = gtkOfKde { id := id, body := (d.drop off).take n.toNat } := by
  have hlen : ((d.drop off).take n.toNat).length = n.toNat := by
    rw [List.length_take, List.length_drop]
    omega
  have hkey : (n - 6).toNat = n.toNat - 6 :=
    UInt8.toNat_sub_of_le n 6 (UInt8.le_iff_toNat_le.2 hn)
  have hlong : (32 < n - 6) ↔ 32 < n.toNat - 6 := by
    rw [← hkey]
    exact UInt8.lt_iff_toNat_lt
  rw [takeGtkT, gtkOfKde]
  simp only [hlen]
  by_cases hkeylen : 32 < n - 6
  · rw [if_pos hkeylen, if_pos (hlong.1 hkeylen)]
    exact ⟨all_pure _, rfl⟩
  · have hle : ¬ 32 < n.toNat - 6 := fun h => hkeylen (hlong.2 h)
    rw [if_neg hkeylen, if_neg hle]
    refine ⟨?_, ?_⟩
    · simp only [all_bind, all_load8, all_load, all_store, all_pure,
        List.Vector.toList_length, hkey, and_true]
      refine ⟨⟨rfl, by omega, by omega⟩, ⟨rfl, by omega, by omega⟩, rfl, ?_⟩
      omega
    · simp only [val_bind, val_pure, load8_val, load_val, store_val]
      have hgrab : (grab d (off + 6) (n - 6).toNat).toList
          = ((d.drop off).take n.toNat).drop 6 := by
        rw [grab_eq_slice (by omega), hkey, List.drop_take, List.drop_drop]
      have htake := @take_splice (zeros 32).toList
        (grab d (off + 6) (n - 6).toNat).toList 0 (Nat.zero_le _)
      rw [List.Vector.toList_length, Nat.zero_add, List.take_zero,
        List.nil_append] at htake
      rw [htake, hgrab, peek_window (by omega)]

/-- Where the next position is: behind the element at this one, no
wrap. -/
def KdeNext (d : List UInt8) (base : Nat) (p q : UInt16) : Prop :=
  q.toNat = p.toNat + 2 + (peek d (base + p.toNat + 1)).toNat

/-- The loop stays inside the key data, finds what the model finds, and
goes from each position to the one behind its element, within the key
data. -/
theorem extractGtkFromKdeT_spec {b : EapolBuf} {d : List UInt8}
    {base : Nat} {len : UInt16} (hd : base + len.toNat ≤ d.length)
    (fuel : Nat) {pos : UInt16}
    (hpos : pos.toNat ≤ len.toNat) (hfuel : len.toNat ≤ pos.toNat + fuel) :
    let x := extractGtkFromKdeT b d base len pos
    x.All (KdeTouch b base len.toNat)
      ∧ x.val.1 = ((elemsUpTo fuel
          (((d.drop base).take len.toNat).drop pos.toNat)).find?
            isGtkKde).bind gtkOfKde
      ∧ (∃ ps, x.val.2 = pos :: ps) ∧ x.val.2.IsChain (KdeNext d base)
      ∧ ∀ p ∈ x.val.2, p.toNat ≤ len.toNat := by
  generalize hw : (d.drop base).take len.toNat = w
  have hwlen : w.length = len.toNat := by
    rw [← hw, List.length_take, List.length_drop]
    omega
  have hpeek : ∀ i, i < len.toNat → peek w i = peek d (base + i) := by
    intro i hi
    rw [← hw, peek_window hi]
  induction fuel generalizing pos with
  | zero =>
      have hend : ¬ pos.toNat + 2 ≤ len.toNat := by omega
      simp only
      rw [extractGtkFromKdeT, if_neg hend]
      exact ⟨all_pure _, rfl, ⟨[], rfl⟩, List.IsChain.singleton _,
        List.forall_mem_singleton.2 hpos⟩
  | succ fuel ih =>
      simp only
      rw [extractGtkFromKdeT]
      by_cases hmore : pos.toNat + 2 ≤ len.toNat
      · rw [if_pos hmore]
        obtain ⟨n, hn⟩ : ∃ n, peek d (base + pos.toNat + 1) = n := ⟨_, rfl⟩
        simp only [all_bind, all_load8, val_bind, load8_val, hn]
        have hid : KdeTouch b base len.toNat
            (.read b (base + pos.toNat) 1) := ⟨rfl, by omega, by omega⟩
        have hlen' : KdeTouch b base len.toNat
            (.read b (base + pos.toNat + 1) 1) := ⟨rfl, by omega, by omega⟩
        have hn' : peek w (pos.toNat + 1) = n := by
          rw [hpeek _ (by omega), ← hn]
          rfl
        by_cases hover : pos.toNat + 2 + n.toNat > len.toNat
        · rw [dif_pos hover]
          refine ⟨⟨hid, hlen', all_pure _⟩, ?_, ⟨[], rfl⟩,
            List.IsChain.singleton _, List.forall_mem_singleton.2 hpos⟩
          rw [elemsUpTo_end (by rw [hwlen, hn']; exact .inr hover)]
          rfl
        · rw [dif_neg hover]
          have hbody : (w.drop (pos.toNat + 2)).take n.toNat
              = (d.drop (base + pos.toNat + 2)).take n.toNat := by
            rw [← hw, List.drop_take, List.take_take, List.drop_drop,
              Nat.min_eq_left (by omega), Nat.add_assoc]
          have helems := @elemsUpTo_window w pos.toNat fuel
            (by omega) (by rw [hn']; omega)
          rw [hn', hbody, hpeek _ (by omega)] at helems
          obtain ⟨hask, hisgtk⟩ := @isGtkKdeT_spec b d base len.toNat
            (base + pos.toNat + 2) (peek d (base + pos.toNat)) n (by omega) (by omega)
            hd
          rw [helems, List.find?_cons]
          simp only [all_bind, val_bind, hisgtk]
          cases hkde : isGtkKde
              { id := peek d (base + pos.toNat)
                body := (d.drop (base + pos.toNat + 2)).take n.toNat } with
          | true =>
              have hsix : 6 ≤ n.toNat := by
                simp only [isGtkKde, Bool.and_eq_true, decide_eq_true_eq,
                  List.length_take, List.length_drop] at hkde
                omega
              obtain ⟨htake, hgtk⟩ := @takeGtkT_spec b d base len.toNat
                (base + pos.toNat + 2) (peek d (base + pos.toNat)) n
                (by omega) (by omega) hd hsix
              simp only [if_true, all_bind, val_bind, all_pure,
                val_pure, hgtk, Option.bind_some, and_true]
              exact ⟨⟨hid, hlen', hask, htake⟩, trivial, ⟨[], rfl⟩,
                List.IsChain.singleton _, List.forall_mem_singleton.2 hpos⟩
          | false =>
              have hnext := pos_advances hover
              obtain ⟨hrest, hval, ⟨ps, hps⟩, hchain, hle⟩ :=
                @ih (pos + (2 + n.toUInt16)) (by omega) (by omega)
              simp only [Bool.false_eq_true, if_false, all_bind, val_bind,
                all_pure, val_pure, and_true]
              refine ⟨⟨hid, hlen', hask, hrest⟩, ?_, ⟨_, rfl⟩, ?_, ?_⟩
              · rw [hval, hnext]
              · rw [hps] at hchain ⊢
                refine List.IsChain.cons_cons ?_ hchain
                rw [KdeNext, hn]
                exact hnext
              · intro p hp
                rcases List.mem_cons.1 hp with rfl | hp
                · exact hpos
                · exact hle p hp
      · rw [if_neg hmore]
        refine ⟨all_pure _, ?_, ⟨[], rfl⟩, List.IsChain.singleton _,
          List.forall_mem_singleton.2 hpos⟩
        rw [elemsUpTo_end (by rw [hwlen]; omega)]
        rfl

-- ================================================================= handleEAPOL

private theorem loadBe16_spec {b : EapolBuf} {d : List UInt8} {off : Nat}
    (h : off + 2 ≤ b.size flen elen) :
    (loadBe16 b d off).Computes (EapolBuf.size flen elen) (be16At d off) :=
  (Computes.load8 (Nat.le_trans (Nat.le_succ _) h)).bind
    ((Computes.load8 h).bind (.pure _))

/-- The group key is at most 32 bytes, or it would not be taken. -/
private theorem extractGtkFromKde_short {keyData gtk : List UInt8}
    {idx : UInt8} (h : extractGtkFromKde keyData = some (gtk, idx)) :
    gtk.length ≤ 32 := by
  rw [extractGtkFromKde, Option.bind_eq_some_iff] at h
  obtain ⟨e, -, he⟩ := h
  split at he
  · cases he
  · obtain ⟨rfl, -⟩ := Prod.mk.inj (Option.some.inj he)
    rw [List.length_drop]
    omega

/-- The model's M3 branch from the group key on. -/
private theorem acceptGtkT_spec (keyData : List UInt8) (s : Mlme) :
    (acceptGtkT hw env (extractGtkFromKde keyData) s).Computes
      (EapolBuf.size flen elen) (acceptGtk hw env keyData s) := by
  cases hgtk : extractGtkFromKde keyData with
  | none =>
      simp only [acceptGtkT, acceptGtk, hgtk]
      exact .pure _
  | some o =>
      obtain ⟨gtk, idx⟩ := o
      have hshort := extractGtkFromKde_short hgtk
      simp only [acceptGtkT, acceptGtk, hgtk]
      refine .ite (fun _ => .pure _) fun _ => ?_
      refine (Computes.access ?_).bind (.ite (fun _ => .pure _)
        fun _ => .pure _)
      show 0 + gtk.length ≤ 32
      omega

private theorem acceptM3T_spec (d keyData : List UInt8) (hd : 99 ≤ flen)
    (s : Mlme) :
    (acceptM3T hw env d (extractGtkFromKde keyData) s).Computes
      (EapolBuf.size flen elen) (acceptM3 hw env d keyData s) := by
  rw [acceptM3T, acceptM3]
  refine (Computes.load ?_).bind ((Computes.access ?_).bind
    ((Computes.load ?_).bind (.ite (fun _ => .pure _)
      fun _ => acceptGtkT_spec keyData _)))
  · show 9 + 8 ≤ flen
    omega
  · exact Nat.le_refl 8
  · show 32 + 16 ≤ 64
    omega

/-- The key data in the clear: inside its buffer, and what the model
has. -/
private theorem m3KeyDataT_spec {pr : Prims} {kek : Bytes 16}
    {keyInfo keyDataLen : UInt16} {d : List UInt8} (hpos : keyDataLen ≠ 0)
    (hlen : 99 + keyDataLen.toNat ≤ d.length) :
    ∃ o, (m3KeyDataT pr kek keyInfo d keyDataLen).Computes
        (EapolBuf.size d.length elen) o
      ∧ (∀ k ∈ o, k.2.2.1 + k.2.2.2.toNat ≤ k.1.size d.length elen
        ∧ k.2.2.1 + k.2.2.2.toNat ≤ k.2.1.length)
      ∧ o.map (fun k => (k.2.1.drop k.2.2.1).take k.2.2.2.toNat)
        = m3KeyData pr kek keyInfo ((d.drop 99).take keyDataLen.toNat) := by
  have hsome : ((d.drop 99).take keyDataLen.toNat).length ≠ 0 := by
    have hne : keyDataLen.toNat ≠ 0 := fun h =>
      hpos (UInt16.toNat_inj.1 h)
    rw [List.length_take, List.length_drop]
    omega
  rw [m3KeyDataT, m3KeyData, if_neg hsome]
  by_cases hwrap : keyInfo &&& 0x1000 ≠ 0
  · obtain ⟨hin, hout, hval⟩ := @aesUnwrap128T_spec d.length elen
      pr.decryptBlock kek .frame d 99 keyDataLen hlen hlen
    rw [if_pos hwrap, if_pos hwrap]
    refine ⟨_, Computes.bind ⟨hin, rfl⟩ (.pure _), fun k hk => ?_, ?_⟩
    · obtain ⟨o, ho, rfl⟩ := Option.map_eq_some_iff.1 hk
      obtain ⟨hfull, hsmall⟩ := hout o ho
      refine ⟨?_, ?_⟩
      · show 0 + o.2.toNat ≤ 256
        omega
      · show 0 + o.2.toNat ≤ o.1.length
        omega
    · rw [Option.map_map]
      exact hval
  · rw [if_neg hwrap, if_neg hwrap]
    refine ⟨_, .pure _, fun k hk => ?_, rfl⟩
    obtain rfl := Option.some.inj hk
    exact ⟨hlen, hlen⟩

/-- The group key of the key data. -/
private theorem extractGtk_spec {b : EapolBuf} {d : List UInt8} {base : Nat}
    {len : UInt16} (hin : base + len.toNat ≤ b.size flen elen)
    (hd : base + len.toNat ≤ d.length) :
    ∃ ps, (extractGtkFromKdeT b d base len 0).Computes
      (EapolBuf.size flen elen)
      (extractGtkFromKde ((d.drop base).take len.toNat), ps) := by
  have hlen : ((d.drop base).take len.toNat).length = len.toNat := by
    rw [List.length_take, List.length_drop]
    omega
  obtain ⟨htouch, hval, -⟩ := @extractGtkFromKdeT_spec b d base len hd
    len.toNat 0 (Nat.zero_le _) (Nat.le_add_left _ _)
  have hwithin : (extractGtkFromKdeT b d base len 0).Within
      (EapolBuf.size flen elen) := by
    intro t ht
    cases t with
    | read b' off n =>
        obtain ⟨rfl, -, hle⟩ := htouch _ ht
        exact Nat.le_trans hle hin
    | write b' off n =>
        obtain ⟨rfl, hle⟩ := htouch _ ht
        exact hle
  refine ⟨_, hwithin, Prod.ext (hval.trans ?_) rfl⟩
  show ((elemsUpTo len.toNat (((d.drop base).take len.toNat).drop 0)).find?
    isGtkKde).bind gtkOfKde = _
  rw [List.drop_zero]
  nth_rewrite 1 [← hlen]
  rfl

/-- An M3: what the checks let through is what the model verified. -/
private theorem handleM3T_spec {d : List UInt8} {eapolLen : Nat}
    (hlen : eapolLen ≤ d.length) (hmin : 99 ≤ eapolLen) (s : Mlme) :
    (handleM3T hw env d eapolLen (be16At d 5) (be16At d 97) s).Computes
      (EapolBuf.size d.length eapolLen)
      (match m3Verified hw env s.ptk d eapolLen with
        | none => s
        | some keyData => acceptM3 hw env d keyData s) := by
  obtain ⟨hin, hmic, -⟩ := @eapolMicOkT_spec hw.prims env.micAlloc
    (kckOf s.ptk) d eapolLen hlen
  have hptk : ∀ off, off + 16 ≤ 64 →
      (load .ptk s.ptk.toList off 16).Computes
        (EapolBuf.size d.length eapolLen) (grab s.ptk.toList off 16) :=
    fun off h => .load h
  rw [handleM3T, m3Verified]
  refine (hptk 0 (by omega)).bind (Computes.bind ⟨hin, hmic⟩ ?_)
  cases hok : eapolMicOk hw.prims env.micAlloc (kckOf s.ptk)
      (d.take eapolLen) with
  | false => exact .pure _
  | true =>
      simp only [Bool.not_true, Bool.false_eq_true, if_false]
      by_cases hshort : 99 + (be16At d 97).toNat > eapolLen
      · rw [if_pos hshort, if_pos hshort]
        exact .pure _
      · rw [if_neg hshort, if_neg hshort]
        by_cases hnone : be16At d 97 = 0
        · have hempty : (d.drop 99).take (be16At d 97).toNat = [] := by
            rw [hnone]
            rfl
          rw [if_pos hnone, hempty]
          exact acceptM3T_spec d [] (by omega) s
        · rw [if_neg hnone]
          obtain ⟨o, hdata, hbounds, heq⟩ := @m3KeyDataT_spec eapolLen hw.prims
            (kekOf s.ptk) (be16At d 5) (be16At d 97) d hnone (by omega)
          rw [← heq]
          refine (hptk 16 (by omega)).bind (hdata.bind ?_)
          cases o with
          | none => exact .pure _
          | some k =>
              obtain ⟨b, bytes, base, len⟩ := k
              obtain ⟨hb, hbytes⟩ := hbounds _ rfl
              obtain ⟨ps, hgtk⟩ := extractGtk_spec hb hbytes
              exact hgtk.bind (acceptM3T_spec d _ (by omega) s)

private theorem handleM1T_spec {d : List UInt8} (hd : 99 ≤ flen) (s : Mlme) :
    (handleM1T hw env d s).Computes (EapolBuf.size flen elen)
      (handleM1 hw env d s) := by
  rw [handleM1T]
  refine (Computes.load ?_).bind ((Computes.access ?_).bind
    ((Computes.access ?_).bind ((Computes.load ?_).bind
      ((Computes.access ?_).bind (.pure _)))))
  · show 17 + 32 ≤ flen
    omega
  · exact Nat.le_refl 32
  · exact Nat.le_refl 64
  · show 9 + 8 ≤ flen
    omega
  · exact Nat.le_refl 8

/-- What is to hold of EAPOL-Key processing of these bytes: it ends in
the model's state; it stays inside its buffers, of their sizes in the
source; the MIC is computed over the frame up to the end of its body and
nothing else; and the search of the key data, wherever it is, touches
nothing but these bytes and `gtk`, and goes from position to position
behind an element each. -/
structure EapolSafe (hw : Hw) (env : Env) (s : Mlme) (d : List UInt8) :
    Prop where
  agrees : (handleEAPOLT hw env d s).val = handleEAPOL hw env d s
  inside : (handleEAPOLT hw env d s).Within
    (EapolBuf.size d.length (4 + (be16At d 2).toNat))
  mic : ∀ len, eapolLen d = some len →
    len = 4 + (be16At d 2).toNat
      ∧ (eapolMicOkT hw.prims true (kckOf s.ptk) d len).val
        = eapolMicOk hw.prims true (kckOf s.ptk) (d.take len)
      ∧ (eapolMicOkT hw.prims true (kckOf s.ptk) d len).log.filter
          Touch.onFrame
        = [.read .frame 0 len]
  search : ∀ (b : EapolBuf) (bytes : List UInt8) (base : Nat) (len : UInt16),
    base + len.toNat ≤ bytes.length →
      let x := extractGtkFromKdeT b bytes base len 0
      x.All (KdeTouch b base len.toNat)
        ∧ x.val.2.IsChain (KdeNext bytes base)
        ∧ x.val.2.head? = some 0 ∧ ∀ p ∈ x.val.2, p.toNat ≤ len.toNat

/-- `handleEAPOL`, whole. -/
private theorem handleEAPOLT_spec (d : List UInt8) (s : Mlme) :
    (handleEAPOLT hw env d s).Computes
      (EapolBuf.size d.length (4 + (be16At d 2).toNat))
      (handleEAPOL hw env d s) := by
  rw [handleEAPOLT, handleEAPOL, eapolLen]
  by_cases hshort : d.length < 99
  · rw [if_pos hshort, if_pos (.inl hshort)]
    exact .pure _
  · rw [if_neg hshort]
    refine (Computes.load8 ?_).bind ?_
    · show 1 + 1 ≤ d.length
      omega
    · by_cases htype : peek d 1 ≠ 3
      · rw [if_pos htype, if_pos (.inr htype)]
        exact .pure _
      · rw [if_neg htype, if_neg (not_or.2 ⟨hshort, htype⟩)]
        refine (loadBe16_spec ?_).bind ?_
        · show 2 + 2 ≤ d.length
          omega
        · simp only
          by_cases hlen : d.length < 4 + (be16At d 2).toNat
              ∨ 4 + (be16At d 2).toNat < 99
          · rw [if_pos hlen, if_pos hlen]
            exact .pure _
          · rw [if_neg hlen, if_neg hlen]
            refine (loadBe16_spec ?_).bind ((loadBe16_spec ?_).bind ?_)
            · show 5 + 2 ≤ d.length
              omega
            · show 97 + 2 ≤ d.length
              omega
            · simp only
              refine .ite (fun _ => handleM1T_spec (by omega) s)
                fun _ => .ite (fun _ => ?_) fun _ => .pure _
              exact handleM3T_spec (by omega) (by omega) s

/-- For every byte string and every state: EAPOL-Key processing stays
inside its buffers and ends. -/
theorem eapol_memory_safe (hw : Hw) (env : Env) (s : Mlme) (d : List UInt8) :
    EapolSafe hw env s d := by
  obtain ⟨hin, hval⟩ := @handleEAPOLT_spec hw env d s
  refine ⟨hval, hin, fun len hlen => ?_, fun b bytes base len hbytes => ?_⟩
  · rw [eapolLen] at hlen
    split at hlen
    · cases hlen
    · simp only at hlen
      split at hlen
      · cases hlen
      next hbounds =>
        obtain rfl := Option.some.inj hlen
        obtain ⟨-, hmic, hframe⟩ := @eapolMicOkT_spec hw.prims true
          (kckOf s.ptk) d (4 + (be16At d 2).toNat) (by omega)
        exact ⟨rfl, hmic, hframe (by omega) rfl⟩
  · obtain ⟨htouch, -, ⟨ps, hps⟩, hchain, hle⟩ :=
      @extractGtkFromKdeT_spec b bytes base len hbytes len.toNat 0
        (Nat.zero_le _) (Nat.le_add_left _ _)
    exact ⟨htouch, hchain, by rw [hps]; rfl, hle⟩

end Rtw88
