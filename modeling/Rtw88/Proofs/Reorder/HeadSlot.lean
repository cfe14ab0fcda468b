/-
The windows are intact between operations, but for one thing: a flush
may leave a frame standing in a head's cell.

Everything but the head's cell comes from the stamped run
(Proofs/Reorder/Run.lean): a frame's virtual number fixes its cell and
its distance from the head, and it has the frame's own number as
residue (`Congruent`). The head's cell is empty after a setup, and after
`rxReorderInput`, whose array has room for all its frames
(`accept_head_empty`). A flush walks the TIDs with one array: each TID
adds its first run to it, and the TID whose run does not fit any more is
left with its head on a frame (`flushTid_exit`). So a flush leaves all
heads empty exactly when the runs fit together (`flush_heads`).

# Runs of cells

What a flush lets go on a TID is the run that begins at its first
occupied cell, up to the next hole. Its length is a matter of the cells
and not of what is in them (`runLength_congr`), so it can be computed
before the flush, and does not change when stamps are dropped
(`flushFits_erase`). The array has 64 entries for the runs of all TIDs
together.

# The count

`stored` counts the occupied cells. That a window of `bufSize` numbers
stores no more than one less than that, with nothing at the head, is a
count of the cells its numbers can stand in (`InWin.stored_le`).
-/
import Rtw88.Spec.HeadSlot
import Rtw88.Proofs.Reorder.Members
import Rtw88.Proofs.Reorder.Run

namespace Rtw88

variable {α : Type}

-- ================================================================== runs

/-- Runs are read off the cells alone. -/
theorem runLength_congr {b b' : Fin 64 → Option α} (k : Nat)
    {m n : Nat} (h : ∀ j, j < k → b (cellOf (m + j)) = b' (cellOf (n + j))) :
    runLength b k m = runLength b' k n := by
  induction k generalizing m n with
  | zero => rfl
  | succ k ih =>
      have h0 := h 0 (by omega)
      rw [Nat.add_zero, Nat.add_zero] at h0
      have hrest : runLength b k (m + 1) = runLength b' k (n + 1) := by
        refine ih fun j hj => ?_
        have hj' := h (j + 1) (by omega)
        rwa [← Nat.add_assoc, Nat.add_right_comm, ← Nat.add_assoc,
          Nat.add_right_comm n] at hj'
      rw [runLength, runLength, h0, hrest]

/-- A run ends at a hole. -/
theorem runLength_stop {b : Fin 64 → Option α} {m k n : Nat}
    (hmk : m ≤ k) (hnone : b (cellOf (n + m)) = none) :
    runLength b k n = runLength b m n := by
  induction m generalizing k n with
  | zero =>
      rw [Nat.add_zero] at hnone
      cases k with
      | zero => rfl
      | succ k => simp [runLength, hnone]
  | succ m ih =>
      obtain ⟨k, rfl⟩ := Nat.exists_eq_add_of_le' (Nat.le_of_succ_le hmk)
      cases k with
      | zero => omega
      | succ k =>
          have hsum : k + 1 + m = (k + m) + 1 := by omega
          have hnone' : b (cellOf (n + 1 + m)) = none := by
            rwa [Nat.add_right_comm]
          rw [hsum, runLength, runLength, ih (by omega) hnone']

/-- Cells repeat every 64 numbers. -/
theorem cellOf_add {m n : Nat} (h : cellOf m = cellOf n) (j : Nat) :
    cellOf (m + j) = cellOf (n + j) := by
  simp only [cellOf, Fin.mk.injEq] at h ⊢
  omega

private theorem cellOf_snNext (sn : Nat) :
    cellOf (snNext sn) = cellOf (sn + 1) := by
  rw [snNext, cellOf_mod]

/-- Numbers less than 64 apart have different cells. -/
theorem cellOf_add_ne {n j : Nat} (h0 : 0 < j) (hj : j < 64) :
    cellOf (n + j) ≠ cellOf n := by
  simp only [cellOf, ne_eq, Fin.mk.injEq]
  omega

/-- Releasing a frame shortens the run by one. -/
theorem runLength_advance {r : RxReorder α} {x : α}
    (hx : r.buf (cellOf r.headSn) = some x) :
    runLength r.buf 64 r.headSn
      = runLength r.advance.1.buf 64 r.advance.1.headSn + 1 := by
  have hadv : r.advance.1 = { r with
      buf := Function.update r.buf (cellOf r.headSn) none
      stored := r.stored - 1
      headSn := snNext r.headSn } := by
    rw [RxReorder.advance, hx]
  have hcell : ∀ j, cellOf (snNext r.headSn + j)
      = cellOf (r.headSn + (j + 1)) := by
    intro j
    rw [cellOf_add (cellOf_snNext r.headSn), Nat.add_right_comm,
      Nat.add_assoc]
  have hlast : Function.update r.buf (cellOf r.headSn) none
      (cellOf (snNext r.headSn + 63)) = none := by
    have hwrap : cellOf (r.headSn + (63 + 1)) = cellOf r.headSn := by
      simp only [cellOf, Fin.mk.injEq]
      omega
    rw [hcell, hwrap, Function.update_self]
  have hsame : runLength (Function.update r.buf (cellOf r.headSn) none) 63
      (snNext r.headSn) = runLength r.buf 63 (r.headSn + 1) := by
    refine runLength_congr 63 fun j hj => ?_
    rw [hcell, Function.update_of_ne (cellOf_add_ne (by omega) (by omega)),
      Nat.add_assoc, Nat.add_comm 1 j]
  have hhead : (r.buf (cellOf r.headSn)).isSome := by simp [hx]
  rw [hadv]
  show runLength r.buf (63 + 1) r.headSn
    = runLength (Function.update r.buf (cellOf r.headSn) none) 64
        (snNext r.headSn) + 1
  rw [runLength_stop (by omega) hlast, hsame, runLength, if_pos hhead]

/-- An empty window has no run. -/
theorem runLength_of_held_nil {b : Fin 64 → Option α}
    (h : cells b = []) (k n : Nat) : runLength b k n = 0 := by
  cases k with
  | zero => rfl
  | succ k =>
      cases hb : b (cellOf n) with
      | none => simp [runLength, hb]
      | some x =>
          have hmem : x ∈ cells b := mem_cells.2 ⟨_, hb⟩
          rw [h] at hmem
          cases hmem

-- ================================================================= loops

/-- Advancing keeps the count right. -/
private theorem advance_counted {r : RxReorder α}
    (h : r.stored = r.held.length) :
    r.advance.1.stored = r.advance.1.held.length := by
  cases hx : r.buf (cellOf r.headSn) with
  | none =>
      rw [RxReorder.advance, hx]
      exact h
  | some x =>
      have hlen := (cells_clear_perm hx).length_eq
      rw [List.length_cons] at hlen
      rw [RxReorder.advance, hx]
      show r.stored - 1
        = (cells (Function.update r.buf (cellOf r.headSn) none)).length
      rw [h, RxReorder.held]
      omega

/-- `release` emits the run at the head as far as the array has room,
and leaves the head's cell empty exactly when the run fits. -/
private theorem release_exit (k : Nat) {r : RxReorder α} {out : List α}
    (hk : r.stored = k) (h : r.stored = r.held.length)
    (hout : out.length ≤ 64) :
    (release k (r, out)).2.length
        = min 64 (out.length + runLength r.buf 64 r.headSn)
      ∧ ((release k (r, out)).1.buf
            (cellOf (release k (r, out)).1.headSn) = none
          ↔ out.length + runLength r.buf 64 r.headSn ≤ 64) := by
  induction k generalizing r out with
  | zero =>
      have hnil : cells r.buf = [] :=
        List.length_eq_zero_iff.1 (by rw [hk] at h; exact h.symm)
      have hnone : r.buf (cellOf r.headSn) = none := by
        cases hb : r.buf (cellOf r.headSn) with
        | none => rfl
        | some x =>
            have hmem : x ∈ cells r.buf := mem_cells.2 ⟨_, hb⟩
            rw [hnil] at hmem
            cases hmem
      rw [runLength_of_held_nil hnil, release]
      exact ⟨by simp only; omega, fun _ => by omega, fun _ => hnone⟩
  | succ k ih =>
      rw [release]
      cases hx : r.buf (cellOf r.headSn) with
      | none =>
          -- at a hole
          rw [if_neg (by simp)]
          have hrun : runLength r.buf 64 r.headSn = 0 := by
            simp [runLength, hx]
          rw [hrun]
          exact ⟨by simp only; omega, fun _ => by omega, fun _ => hx⟩
      | some x =>
          have hrun := runLength_advance hx
          by_cases hroom : out.length < kRxBaMaxBuf
          · rw [if_pos ⟨by omega, hroom, rfl⟩]
            have hone : r.advance.2 = [x] := by
              rw [RxReorder.advance, hx]
            have hst : r.advance.1.stored = k := by
              rw [RxReorder.advance, hx]
              show r.stored - 1 = k
              omega
            rw [kRxBaMaxBuf] at hroom
            have hrest := @ih r.advance.1 (out ++ r.advance.2) hst
              (advance_counted h) (by simp only [hone, List.length_append,
                List.length_singleton]; omega)
            have hlen : (out ++ r.advance.2).length = out.length + 1 := by
              rw [hone, List.length_append, List.length_singleton]
            rw [hlen] at hrest
            have hsum : out.length + runLength r.buf 64 r.headSn
                = out.length + 1
                  + runLength r.advance.1.buf 64 r.advance.1.headSn := by
              omega
            rw [hsum]
            exact hrest
          · -- the array is full, and a frame stands at the head
            rw [if_neg (fun hc => hroom hc.2.1)]
            rw [kRxBaMaxBuf] at hroom
            refine ⟨by simp only; omega, fun hnone => ?_, fun _ => by omega⟩
            rw [show (r, out).1 = r from rfl, hx] at hnone
            cases hnone

/-- Walking further does not change what is found first. -/
theorem firstOccupied_of_le {b : Fin 64 → Option α} {k k' n : Nat}
    (h : ∃ j, j < k ∧ (b (cellOf (n + j))).isSome) (hle : k ≤ k') :
    firstOccupied b k' n = firstOccupied b k n := by
  induction k generalizing k' n with
  | zero =>
      obtain ⟨j, hj, -⟩ := h
      omega
  | succ k ih =>
      obtain ⟨j, hj, hocc⟩ := h
      cases k' with
      | zero => omega
      | succ k' =>
          rw [firstOccupied, firstOccupied]
          by_cases hn : (b (cellOf n)).isSome
          · rw [if_pos hn, if_pos hn]
          · rw [if_neg hn, if_neg hn]
            refine ih ⟨j - 1, ?_, ?_⟩ (by omega)
            · cases j with
              | zero => exact absurd hocc hn
              | succ j => omega
            · cases j with
              | zero => exact absurd hocc hn
              | succ j =>
                  rwa [Nat.add_sub_cancel, Nat.add_right_comm]

/-- `skipHoles` moves the head only. -/
theorem skipHoles_same (k : Nat) (r : RxReorder α) :
    (skipHoles k r).buf = r.buf ∧ (skipHoles k r).stored = r.stored := by
  induction k generalizing r with
  | zero => exact ⟨rfl, rfl⟩
  | succ k ih =>
      rw [skipHoles]
      split
      · exact ih _
      · exact ⟨rfl, rfl⟩

/-- The head lands on the first occupied cell. -/
theorem skipHoles_head (k : Nat) {r : RxReorder α} {n : Nat}
    (hpos : 0 < r.stored) (hn : cellOf r.headSn = cellOf n) :
    cellOf (skipHoles k r).headSn
      = cellOf (firstOccupied r.buf k n) := by
  induction k generalizing r n with
  | zero => exact hn
  | succ k ih =>
      rw [skipHoles, firstOccupied, hn]
      cases hb : r.buf (cellOf n) with
      | none =>
          rw [if_pos ⟨hpos, rfl⟩, if_neg (by simp)]
          refine @ih { r with headSn := snNext r.headSn } (n + 1) hpos ?_
          rw [cellOf_snNext]
          exact cellOf_add hn 1
      | some x =>
          rw [if_neg (by simp)]
          show cellOf r.headSn = cellOf n
          exact hn

/-- A window that stores a frame has an occupied cell within 64 of its
head. -/
theorem exists_occupied {r : RxReorder α}
    (h : r.stored = r.held.length) (hpos : 0 < r.stored) :
    ∃ j, j < 64 ∧ (r.buf (cellOf (r.headSn + j))).isSome := by
  obtain ⟨x, hx⟩ := List.exists_mem_of_length_pos (h ▸ hpos)
  obtain ⟨i, hi⟩ := mem_cells.1 hx
  refine ⟨(i.val + 64 - r.headSn % 64) % 64, Nat.mod_lt _ (by decide), ?_⟩
  have hcell : cellOf (r.headSn + (i.val + 64 - r.headSn % 64) % 64) = i := by
    have hlt := i.isLt
    apply Fin.ext
    simp only [cellOf]
    omega
  rw [hcell, hi]
  rfl

-- ================================================================= flush

/-- Nothing stands in the head's cell of `tid`'s window. -/
def HeadEmptyAt (rx : RxBa α) (tid : Fin 8) : Prop :=
  ∀ r, rx tid = some r → r.buf (cellOf r.headSn) = none

/-- What one TID's turn of the flush does: it adds the TID's first run to
the array as far as there is room, and its head is on a hole afterwards
exactly when the run fits. Other TIDs are left alone. -/
theorem flushTid_exit {rx : RxBa α} {out : List α} {tid : Fin 8}
    (again : Bool) (hact : ∀ r, rx tid = some r → r.active = true)
    (hcount : ∀ r, rx tid = some r → r.stored = r.held.length)
    (hout : out.length ≤ 64) :
    (flushTid (rx, out, again) tid).2.1.length
        = min 64 (out.length + rx.firstRun tid)
      ∧ (HeadEmptyAt (flushTid (rx, out, again) tid).1 tid
          ↔ out.length + rx.firstRun tid ≤ 64)
      ∧ ∀ i, i ≠ tid → (flushTid (rx, out, again) tid).1 i = rx i := by
  cases hr : rx tid with
  | none =>
      have hrun : rx.firstRun tid = 0 := by rw [RxBa.firstRun, hr]
      simp only [flushTid, hr, hrun]
      refine ⟨by omega, ⟨fun _ => by omega, fun _ r hsome => ?_⟩,
        fun _ _ => trivial⟩
      rw [hr] at hsome
      cases hsome
  | some r =>
      have hrun : rx.firstRun tid = r.firstRun := by rw [RxBa.firstRun, hr]
      have hc := hcount r hr
      simp only [flushTid, hr, hrun]
      by_cases h0 : r.stored = 0
      · -- nothing stored: the turn is skipped
        have hnil : cells r.buf = [] :=
          List.length_eq_zero_iff.1 (hc.symm.trans h0)
        have hzero : r.firstRun = 0 := runLength_of_held_nil hnil _ _
        rw [if_pos (.inr h0), hzero]
        refine ⟨by simp only; omega, ⟨fun _ => by omega, ?_⟩,
          fun _ _ => rfl⟩
        intro _ r' hr'
        have heq : r = r' := Option.some.inj (hr.symm.trans hr')
        subst heq
        cases hb : r.buf (cellOf r.headSn) with
        | none => rfl
        | some x =>
            have hmem : x ∈ cells r.buf := mem_cells.2 ⟨_, hb⟩
            rw [hnil] at hmem
            cases hmem
      · have hno : ¬ (r.active = false ∨ r.stored = 0) := by
          rw [hact r hr]
          simp [h0]
        rw [if_neg hno]
        obtain ⟨hbuf, hst⟩ := skipHoles_same 4096 r
        have hcount' : (skipHoles 4096 r).stored
            = (skipHoles 4096 r).held.length := by
          rw [hst, RxReorder.held, hbuf]
          exact hc
        have hhead := skipHoles_head 4096 (Nat.pos_of_ne_zero h0)
          (rfl : cellOf r.headSn = cellOf r.headSn)
        rw [firstOccupied_of_le (exists_occupied hc (Nat.pos_of_ne_zero h0))
          (show 64 ≤ 4096 by decide)] at hhead
        have hlen : runLength (skipHoles 4096 r).buf 64
            (skipHoles 4096 r).headSn = r.firstRun := by
          rw [hbuf]
          exact runLength_congr 64 fun j _ =>
            congrArg r.buf (cellOf_add hhead j)
        obtain ⟨hlength, hempty⟩ := release_exit _ rfl hcount' hout
        rw [hlen] at hlength hempty
        refine ⟨hlength, ?_, fun i hi => Function.update_of_ne hi _ _⟩
        rw [← hempty]
        refine ⟨fun hall => hall _ (Function.update_self _ _ _), ?_⟩
        intro hnone r' hr'
        have heq := (Function.update_self (f := rx) ..).symm.trans hr'
        rw [← Option.some.inj heq]
        exact hnone

/-- The flush over a list of TIDs, each taken once: all their heads end
on a hole exactly when what is in the array and their runs fit. -/
theorem flush_fold_heads (l : List (Fin 8)) (hnd : l.Nodup)
    {rx : RxBa α} {out : List α} (again : Bool)
    (hact : ∀ i ∈ l, ∀ r, rx i = some r → r.active = true)
    (hcount : ∀ i ∈ l, ∀ r, rx i = some r → r.stored = r.held.length)
    (hout : out.length ≤ 64) :
    ((∀ i ∈ l, HeadEmptyAt (l.foldl flushTid (rx, out, again)).1 i)
        ↔ out.length + (l.map rx.firstRun).sum ≤ 64)
      ∧ (l.foldl flushTid (rx, out, again)).2.1.length
        = min 64 (out.length + (l.map rx.firstRun).sum)
      ∧ ∀ i, i ∉ l → (l.foldl flushTid (rx, out, again)).1 i = rx i := by
  induction l generalizing rx out again with
  | nil =>
      refine ⟨⟨fun _ => ?_, fun _ i hi => by cases hi⟩, ?_, fun _ _ => rfl⟩
      · simpa using hout
      · simp only [List.foldl_nil, List.map_nil, List.sum_nil]
        omega
  | cons tid l ih =>
      obtain ⟨hnotin, hnd'⟩ := List.nodup_cons.1 hnd
      obtain ⟨hlen, hempty, hrest⟩ := flushTid_exit again
        (hact tid List.mem_cons_self) (hcount tid List.mem_cons_self) hout
      rw [List.foldl_cons, List.map_cons, List.sum_cons]
      generalize flushTid (rx, out, again) tid = turn at hlen hempty hrest ⊢
      obtain ⟨rx₁, out₁, again₁⟩ := turn
      simp only at hlen hempty hrest
      have hne : ∀ i ∈ l, i ≠ tid := fun i hi heq => hnotin (heq ▸ hi)
      have hruns : l.map rx₁.firstRun = l.map rx.firstRun := by
        refine List.map_congr_left fun i hi => ?_
        rw [RxBa.firstRun, RxBa.firstRun, hrest i (hne i hi)]
      obtain ⟨hall, hlast, hkeep⟩ := @ih hnd' rx₁ out₁ again₁
        (fun i hi r hr => hact i (List.mem_cons_of_mem _ hi) r
          (hrest i (hne i hi) ▸ hr))
        (fun i hi r hr => hcount i (List.mem_cons_of_mem _ hi) r
          (hrest i (hne i hi) ▸ hr))
        (by omega)
      rw [hruns, hlen] at hall hlast
      refine ⟨?_, by omega, fun i hi => ?_⟩
      · -- this TID's head is left alone by the later turns
        have hself : HeadEmptyAt (l.foldl flushTid (rx₁, out₁, again₁)).1 tid
            ↔ out.length + rx.firstRun tid ≤ 64 := by
          rw [← hempty, HeadEmptyAt, HeadEmptyAt, hkeep tid hnotin]
        rw [List.forall_mem_cons, hself, hall]
        omega
      · obtain ⟨hi₁, hi₂⟩ := not_or.1 fun hor => hi (List.mem_cons.2 hor)
        rw [hkeep i hi₂, hrest i hi₁]

/-- A flush leaves every head on a hole exactly when the first runs of
all TIDs fit in its array together. -/
private theorem flush_heads {rx : RxBa α}
    (hact : ∀ i r, rx i = some r → r.active = true)
    (hcount : ∀ i r, rx i = some r → r.stored = r.held.length) :
    (∀ i, HeadEmptyAt (rxReorderFlushStale rx).rxBa i)
      ↔ ((List.finRange 8).map rx.firstRun).sum ≤ kRxBaMaxBuf := by
  have hfold := (@flush_fold_heads _ (List.finRange 8) (List.nodup_finRange 8)
    rx [] false (fun i _ => hact i) (fun i _ => hcount i)
    (Nat.zero_le _)).1
  rw [List.length_nil, Nat.zero_add] at hfold
  rw [kRxBaMaxBuf, ← hfold]
  exact ⟨fun h i _ => h i, fun h i => h i (List.mem_finRange i)⟩

-- ======================================================== the invariant

/-- A stamped frame's virtual number has its own number as residue. -/
def Congruent (x : Stamped (Numbered α)) : Prop :=
  ∀ s, x.2 = some s → s.vn % 4096 = x.1.2 % 4096

/-- The stamped run, and nothing stands in a head's cell. -/
structure HeadInv (t : Track (Numbered α)) : Prop where
  track : TrackInv t
  cong : t.ba.rxBa.All Congruent
  heads : ∀ i, HeadEmptyAt t.ba.rxBa i

/-- Occupied cells that are among those listed are no more than are
listed. -/
private theorem cells_length_le_of_subset {n : Nat} {b : Fin n → Option α}
    {l : List (Fin n)} (h : ∀ i, (b i).isSome → i ∈ l) :
    (cells b).length ≤ l.length := by
  have hlen : (cells b).length
      = ((List.finRange n).filter fun i => (b i).isSome).length := by
    rw [cells, List.length_filterMap_eq_countP, List.countP_eq_length_filter]
  rw [hlen]
  refine ((List.nodup_finRange n).filter _).length_le_of_subset ?_
  intro i hi
  exact h i (List.mem_filter.1 hi).2

/-- With nothing at the head, a window of `bufSize` numbers stores at
most `bufSize - 1` frames. -/
private theorem InWin.stored_le {tid : Fin 8} {ep H : Nat}
    {r : RxReorder (Stamped α)} (h : InWin tid ep H r)
    (hnone : r.buf (cellOf r.headSn) = none) :
    r.stored ≤ r.bufSize - 1 := by
  rw [h.count]
  have hsub : ∀ i, (r.buf i).isSome →
      i ∈ (List.range (r.bufSize - 1)).map fun j => cellOf (H + 1 + j) := by
    intro i hi
    obtain ⟨x, hx⟩ := Option.isSome_iff_exists.1 hi
    obtain ⟨vn, -, hlo, hhi, hc⟩ := h.cell i x hx
    have hne : vn ≠ H := by
      intro heq
      rw [hc, heq, ← h.head_cell, hnone] at hx
      cases hx
    refine List.mem_map.2 ⟨vn - H - 1, List.mem_range.2 (by omega), ?_⟩
    rw [hc]
    congr 1
    omega
  have hle := cells_length_le_of_subset hsub
  rwa [List.length_map, List.length_range] at hle

/-- A window of the stamped run with an empty head cell is intact. -/
private theorem intact_of_inWin {tid : Fin 8} {ep H : Nat}
    {r : RxReorder (Stamped (Numbered α))} (h : InWin tid ep H r)
    (hcong : r.All Congruent) (hnone : r.buf (cellOf r.headSn) = none) :
    (r.map Prod.fst).Intact := by
  have hback : ∀ i x, (r.map Prod.fst).buf i = some x →
      ∃ y, r.buf i = some y ∧ y.1 = x := fun i x hx =>
    Option.map_eq_some_iff.1 hx
  have hsize := h.size_le
  refine ⟨h.size_pos, h.size_le, ?_, ?_, h.stored_le hnone, ?_, ?_, ?_⟩
  · show r.headSn < 4096
    rw [h.head]
    exact Nat.mod_lt _ (by decide)
  · rw [RxReorder.held_map, List.length_map]
    exact h.count
  · intro i x hx
    obtain ⟨y, hy, rfl⟩ := hback i x hx
    obtain ⟨vn, hs, -, -, hc⟩ := h.cell i y hy
    have hres := hcong i y hy _ hs
    rw [hc, ← cellOf_mod vn, hres, cellOf_mod]
  · intro i x hx
    obtain ⟨y, hy, rfl⟩ := hback i x hx
    obtain ⟨vn, hs, hlo, hhi, -⟩ := h.cell i y hy
    have hres := hcong i y hy _ hs
    have hhead := h.head
    show snSub y.1.2 r.headSn < r.bufSize
    simp only [snSub, modSub] at hres ⊢
    omega
  · show (r.buf (cellOf r.headSn)).map Prod.fst = none
    rw [hnone]
    rfl

/-- In the stamped run, "intact" is "nothing stands in a head's cell". -/
private theorem intact_iff_heads {t : Track (Numbered α)} (h : TrackInv t)
    (hcong : t.ba.rxBa.All Congruent) :
    (t.ba.rxBa.map Prod.fst).Intact
      ↔ ∀ i, HeadEmptyAt t.ba.rxBa i := by
  constructor
  · intro hall i r hr
    have hmap : t.ba.rxBa.map Prod.fst i = some (r.map Prod.fst) := by
      rw [RxBa.map, hr]
      rfl
    have hempty := (hall i _ hmap (h.wins i r hr).1.active).head_empty
    exact Option.map_eq_none_iff.1 hempty
  · intro hheads i r hr _
    obtain ⟨r₀, hr₀, rfl⟩ := Option.map_eq_some_iff.1 hr
    exact intact_of_inWin (h.wins i r₀ hr₀).1 (hcong i r₀ hr₀)
      (hheads i r₀ hr₀)

-- ================================================================= steps

/-- The stamped run on frames that carry their numbers. -/
def numberedStep (t : Track (Numbered α)) (op : BaOp α) :
    Track (Numbered α) :=
  trackStep t op.number

/-- A frame is stamped with a virtual number that has its own number as
residue. -/
private theorem stamp_congruent {t : Track (Numbered α)} (h : TrackInv t)
    (tid : Fin 8) (skb : α) (sn : Nat) :
    Congruent ((skb, sn), t.stamp tid sn) := by
  intro s hs
  obtain ⟨r, hr, rfl⟩ := Option.map_eq_some_iff.1 hs
  exact (h.wins tid r hr).1.number_mod sn

private theorem numberedStep_cong {t : Track (Numbered α)} (h : TrackInv t)
    (hcong : t.ba.rxBa.All Congruent) (op : BaOp α) :
    (numberedStep t op).ba.rxBa.All Congruent := by
  rw [numberedStep, trackStep_ba]
  cases op with
  | setup alloc tid ssn bufsize => exact rxBaSetup_all hcong _ _ _ _
  | teardown tid => exact rxBaTeardown_all hcong _
  | input tid skb sn =>
      exact (rxReorderInput_all hcong (stamp_congruent h tid skb sn)
        tid sn).1
  | flush => exact (rxReorderFlushStale_all hcong).1

/-- A window replaced by one with an empty head cell. -/
private theorem headEmptyAt_update {rx : RxBa α}
    (h : ∀ i, HeadEmptyAt rx i) (tid : Fin 8) {o : Option (RxReorder α)}
    (ho : ∀ r, o = some r → r.buf (cellOf r.headSn) = none) (i : Fin 8) :
    HeadEmptyAt (Function.update rx tid o) i := by
  intro r hr
  by_cases hi : i = tid
  · rw [hi, Function.update_self] at hr
    exact ho r hr
  · rw [Function.update_of_ne hi] at hr
    exact h i r hr

private theorem input_heads {t : Track (Numbered α)} (h : HeadInv t)
    (tid : Fin 8) (skb : α) (sn : Nat) (i : Fin 8) :
    HeadEmptyAt (rxReorderInput tid ((skb, sn), t.stamp tid sn) sn
      t.ba.rxBa).rxBa i := by
  rw [rxReorderInput]
  cases hr : t.ba.rxBa tid with
  | none => exact h.heads i
  | some r =>
      obtain ⟨hwin, hroom⟩ := h.track.wins tid r hr
      simp only
      split
      · exact h.heads i
      · split
        · exact h.heads i
        next hstale =>
          refine headEmptyAt_update h.heads tid ?_ i
          intro r' heq
          rw [← Option.some.inj heq]
          refine accept_head_empty hwin hroom (by omega) ?_
          show t.stamp tid sn = _
          rw [Track.stamp, hr]
          rfl

/-- An operation leaves all heads on holes exactly when it is not a flush
whose runs do not fit. -/
private theorem numberedStep_heads {t : Track (Numbered α)} (h : HeadInv t)
    (op : BaOp α) :
    (∀ i, HeadEmptyAt (numberedStep t op).ba.rxBa i)
      ↔ FlushFits t.ba (t.stampOp op.number) := by
  rw [numberedStep, trackStep_ba]
  cases op with
  | setup alloc tid ssn bufsize =>
      refine iff_of_true (fun i => ?_) trivial
      show HeadEmptyAt (rxBaSetup alloc tid ssn bufsize t.ba.rxBa).rxBa i
      rcases rxBaSetup_cases alloc tid ssn bufsize t.ba.rxBa with
        ⟨j, -, hrx, -⟩ | ⟨hrx, -⟩
      · rw [hrx]
        refine headEmptyAt_update h.heads j ?_ i
        rintro r ⟨⟩
        rfl
      · rw [hrx]
        exact h.heads i
  | teardown tid =>
      refine iff_of_true (fun i => ?_) trivial
      show HeadEmptyAt (rxBaTeardown tid t.ba.rxBa).rxBa i
      rcases rxBaTeardown_cases tid t.ba.rxBa with ⟨j, hrx, -⟩ | ⟨hrx, -⟩
      · rw [hrx]
        refine headEmptyAt_update h.heads j ?_ i
        intro r hr
        cases hr
      · rw [hrx]
        exact h.heads i
  | input tid skb sn =>
      exact iff_of_true (fun i => input_heads h tid skb sn i) trivial
  | flush =>
      exact flush_heads
        (fun i r hr => (h.track.wins i r hr).1.active)
        (fun i r hr => (h.track.wins i r hr).1.count)

-- ================================================================ result

/-- Dropping the stamps. -/
private theorem numberedStep_erase (t : Track (Numbered α)) (op : BaOp α) :
    baStep (t.ba.map Prod.fst) op.number
      = (numberedStep t op).ba.map Prod.fst := by
  rw [numberedStep, trackStep_ba, ← baStep_map, Track.stampOp_erase]

/-- The code does not see the numbers frames carry. -/
private theorem baRun_number_erase (s : BaState (Numbered α))
    (ops : List (BaOp α)) :
    (runFrom baStep s (ops.map BaOp.number)).map Prod.fst
      = runFrom baStep (s.map Prod.fst) ops := by
  induction ops generalizing s with
  | nil => rfl
  | cons op ops ih =>
      have herase : op.number.map Prod.fst = op := by
        cases op <;> rfl
      rw [List.map_cons, runFrom_cons, runFrom_cons, ih, ← baStep_map, herase]

/-- Runs of cells do not depend on what the frames are called. -/
private theorem runLength_map {β : Type} (f : α → β)
    (b : Fin 64 → Option α) (k n : Nat) :
    runLength (fun i => (b i).map f) k n = runLength b k n := by
  induction k generalizing n with
  | zero => rfl
  | succ k ih => rw [runLength, runLength, ih, Option.isSome_map]

theorem firstOccupied_map {β : Type} (f : α → β) (b : Fin 64 → Option α)
    (k n : Nat) :
    firstOccupied (fun i => (b i).map f) k n = firstOccupied b k n := by
  induction k generalizing n with
  | zero => rfl
  | succ k ih => rw [firstOccupied, firstOccupied, ih, Option.isSome_map]

theorem RxBa.firstRun_map {β : Type} (f : α → β) (rx : RxBa α) :
    (rx.map f).firstRun = rx.firstRun := by
  funext tid
  rw [RxBa.firstRun, RxBa.firstRun, RxBa.map]
  cases rx tid with
  | none => rfl
  | some r =>
      show runLength (fun i => (r.buf i).map f) 64
        (firstOccupied (fun i => (r.buf i).map f) 64 r.headSn) = r.firstRun
      rw [firstOccupied_map, runLength_map]
      rfl

private theorem flushFits_erase (t : Track (Numbered α)) (op : BaOp α) :
    FlushFits (t.ba.map Prod.fst) op.number
      ↔ FlushFits t.ba (t.stampOp op.number) := by
  cases op with
  | flush =>
      show ((List.finRange 8).map
          (t.ba.rxBa.map Prod.fst).firstRun).sum ≤ _ ↔ _
      rw [RxBa.firstRun_map]
      exact Iff.rfl
  | setup => exact Iff.rfl
  | teardown => exact Iff.rfl
  | input => exact Iff.rfl

/-- The windows between operations. The numbers frames carry are not seen
by the code; and in every run of the four operations, every operation
leaves every active window intact exactly when the first runs of all
TIDs fit in the array of each flush of the run. -/
theorem windows_intact_iff (ops : List (BaOp α)) :
    (baRun (ops.map BaOp.number)).map Prod.fst = baRun ops
      ∧ (Along baStep LeavesIntact BaState.init (ops.map BaOp.number)
        ↔ Along baStep FlushFits BaState.init (ops.map BaOp.number)) := by
  have hsame : ∀ C : BaState (Numbered α) → BaOp (Numbered α) → Prop,
      Along baStep C BaState.init (ops.map BaOp.number)
        ↔ Along numberedStep (fun t op => C (t.ba.map Prod.fst) op.number)
          Track.init ops := fun C =>
    along_map (v := fun t : Track (Numbered α) => t.ba.map Prod.fst)
      numberedStep_erase C Track.init ops
  constructor
  · exact baRun_number_erase BaState.init ops
  · rw [hsame, hsame]
    have hinit : HeadInv (Track.init : Track (Numbered α)) :=
      ⟨TrackInv.init, fun _ _ hr => (by cases hr),
        fun _ _ hr => (by cases hr)⟩
    refine along_iff_of_inv (I := HeadInv) ?_ ?_ hinit ops
    · intro t op h
      rw [flushFits_erase, ← numberedStep_heads h, LeavesIntact,
        numberedStep_erase]
      exact intact_iff_heads (trackStep_inv h.track _)
        (numberedStep_cong h.track h.cong op)
    · intro t op h hfits
      exact ⟨trackStep_inv h.track _, numberedStep_cong h.track h.cong op,
        (numberedStep_heads h op).2 ((flushFits_erase t op).1 hfits)⟩

/-- Two windows of 64 from number 0 on: 63 frames behind the hole of TID
0, two behind that of TID 1. -/
def crowdedWindows : List (BaOp Nat) :=
  [.setup true 0 0 64, .setup true 1 0 64]
    ++ (List.range 63).map (fun i => .input 0 i (i + 1))
    ++ [.input 1 63 1, .input 1 64 2]

/-- The flush of these windows fills its array with 63 frames of TID 0
and one of TID 1, and leaves number 2 standing at TID 1's head. -/
theorem head_slot_left_occupied :
    ¬ Along baStep LeavesIntact BaState.init
      ((crowdedWindows ++ [BaOp.flush]).map BaOp.number) := by
  intro h
  rw [List.map_append] at h
  generalize hend : runFrom baStep BaState.init
    (crowdedWindows.map BaOp.number) = s
  have hlast : (baStep s .flush).rxBa.Intact := hend ▸ h.last
  have hstands : ((baStep s .flush).rxBa 1).any
      (fun r => r.active && (r.buf (cellOf r.headSn)).isSome) = true := by
    rw [← hend]
    decide +kernel
  obtain ⟨r, hr, hbad⟩ := (Option.any_eq_true ..).1 hstands
  rw [Bool.and_eq_true] at hbad
  have hnone := (hlast 1 r hr hbad.1).head_empty
  rw [hnone] at hbad
  cases hbad.2

end Rtw88
