/-
One reorder window against its unrolled head.

`InWin tid ep H r` ties the window `r` to the unrolled head `H`: the
head's residue is `headSn`, and every buffered frame carries a virtual
number in `[H, H + bufSize)` and sits in that number's cell. Since the
window is at most 64 numbers wide and the cells are taken modulo 64, a
number determines its cell and back: the frame in the head's cell, if
any, is number `H` itself. So one `advance` emits number `H` or nothing
and moves to `H + 1`.

`Moved H r H' r' new` is the same statement for a chain of advances, and
each loop of the source is such a chain (`slide_moved`,
`release_moved`, `skipHoles_moved`).

# The 64-entry array

The loops of `rxReorderInput` share one array of 64 with nothing left
over: between operations a window stores at most 63 frames (`Roomy`), so
slide and release together emit at most 64 and neither loop is cut short
by the array. "The head's cell is empty between operations" would be too
much to ask: a flush that fills the shared array on one TID leaves an
in-order run standing on the next.
-/
import Rtw88.Spec.ReorderRun

namespace Rtw88

variable {α : Type}

-- ====================================================== the 64 entries

theorem RxReorder.advance_out_le (r : RxReorder α) :
    r.advance.2.length ≤ 1 := by
  rw [RxReorder.advance]
  split <;> simp

/-- `slide` fills at most the array. -/
theorem slide_out_le (newHead k : Nat) (ro : RxReorder α × List α)
    (h : ro.2.length ≤ kRxBaMaxBuf) :
    (slide newHead k ro).2.length ≤ kRxBaMaxBuf := by
  induction k generalizing ro with
  | zero => exact h
  | succ k ih =>
      obtain ⟨r, out⟩ := ro
      rw [slide]
      split
      next hc =>
        refine ih _ ?_
        have hone := r.advance_out_le
        have hlt := hc.2.2
        simp only [List.length_append]
        omega
      next => exact h

/-- `release` fills at most the array. -/
theorem release_out_le (k : Nat) (ro : RxReorder α × List α)
    (h : ro.2.length ≤ kRxBaMaxBuf) :
    (release k ro).2.length ≤ kRxBaMaxBuf := by
  induction k generalizing ro with
  | zero => exact h
  | succ k ih =>
      obtain ⟨r, out⟩ := ro
      rw [release]
      split
      next hc =>
        refine ih _ ?_
        have hone := r.advance_out_le
        have hlt := hc.2.1
        simp only [List.length_append]
        omega
      next => exact h

-- ==================================================== the window invariant

/-- The window `r` of agreement `ep` of `tid` stands at the unrolled head
`H`. -/
structure InWin (tid : Fin 8) (ep H : Nat) (r : RxReorder (Stamped α)) :
    Prop where
  active : r.active = true
  size_pos : 1 ≤ r.bufSize
  size_le : r.bufSize ≤ 64
  head : r.headSn = H % 4096
  cell : ∀ i x, r.buf i = some x → ∃ vn,
    x.2 = some ⟨tid, ep, vn⟩ ∧ H ≤ vn ∧ vn < H + r.bufSize ∧ i = cellOf vn
  count : r.stored = r.held.length

/-- A stored frame always leaves room for one more. -/
def Roomy (r : RxReorder α) : Prop := r.stored < 64

/-- The cell of a residue is the cell of the number. -/
theorem cellOf_mod (n : Nat) : cellOf (n % 4096) = cellOf n := by
  simp only [cellOf, Fin.mk.injEq]
  omega

/-- In a window of 64 the cell determines the number. -/
theorem eq_of_cellOf_eq {H v w : Nat} (hv : H ≤ v) (hv' : v < H + 64)
    (hw : H ≤ w) (hw' : w < H + 64) (h : cellOf v = cellOf w) : v = w := by
  simp only [cellOf, Fin.mk.injEq] at h
  omega

namespace InWin

variable {tid : Fin 8} {ep H : Nat} {r : RxReorder (Stamped α)}

theorem head_cell (h : InWin tid ep H r) :
    cellOf r.headSn = cellOf H := by
  rw [h.head, cellOf_mod]

/-- The frame in the head's cell is number `H`. -/
theorem head_stamp (h : InWin tid ep H r) {x : Stamped α}
    (hx : r.buf (cellOf r.headSn) = some x) : x.2 = some ⟨tid, ep, H⟩ := by
  obtain ⟨vn, hs, hlo, hhi, hc⟩ := h.cell _ x hx
  have hsize := h.size_le
  rw [h.head_cell] at hc
  have hvn : H = vn :=
    eq_of_cellOf_eq (le_refl H) (by omega) hlo (by omega) hc
  rw [hs, hvn]

end InWin

/-- One advance: number `H` goes out or nothing does, the head is
`H + 1`, and no frame is lost. -/
theorem advance_inWin {tid : Fin 8} {ep H : Nat} {r : RxReorder (Stamped α)}
    (h : InWin tid ep H r) :
    InWin tid ep (H + 1) r.advance.1
      ∧ (∀ x ∈ r.advance.2, x.2 = some ⟨tid, ep, H⟩)
      ∧ (r.advance.2 ++ r.advance.1.held).Perm r.held
      ∧ r.advance.1.bufSize = r.bufSize := by
  have hnext : snNext r.headSn = (H + 1) % 4096 := by
    rw [snNext, h.head]
    omega
  have hsize := h.size_le
  cases hx : r.buf (cellOf r.headSn) with
  | none =>
      rw [RxReorder.advance, hx]
      refine ⟨⟨h.active, h.size_pos, h.size_le, hnext, ?_, h.count⟩,
        by simp, List.Perm.refl _, rfl⟩
      intro i x hi
      obtain ⟨vn, hs, hlo, hhi, hc⟩ := h.cell i x hi
      have hne : vn ≠ H := by
        intro heq
        rw [hc, heq, ← h.head_cell, hx] at hi
        cases hi
      have hhi' : vn < H + 1 + r.bufSize := by omega
      exact ⟨vn, hs, by omega, hhi', hc⟩
  | some x =>
      have hperm : (x :: cells (Function.update r.buf (cellOf r.headSn)
          none)).Perm r.held := cells_clear_perm hx
      have hlen : r.stored - 1
          = (cells (Function.update r.buf (cellOf r.headSn) none)).length := by
        rw [h.count, ← hperm.length_eq, List.length_cons]
        omega
      rw [RxReorder.advance, hx]
      refine ⟨⟨h.active, h.size_pos, h.size_le, hnext, ?_, hlen⟩, ?_, hperm,
        rfl⟩
      · intro i y hi
        by_cases hcell : i = cellOf r.headSn
        · subst hcell
          simp at hi
        · have hi' : r.buf i = some y := by simpa [hcell] using hi
          obtain ⟨vn, hs, hlo, hhi, hc⟩ := h.cell i y hi'
          have hne : vn ≠ H := fun heq =>
            hcell (by rw [hc, heq, h.head_cell])
          have hhi' : vn < H + 1 + r.bufSize := by omega
          exact ⟨vn, hs, by omega, hhi', hc⟩
      · intro y hy
        rw [List.mem_singleton.1 hy]
        exact h.head_stamp hx

-- ===================================================== chains of advances

/-- The virtual numbers of `new` are in `[H, H')`, in increasing order. -/
def VnsIn (tid : Fin 8) (ep H H' : Nat) (new : List (Stamped α)) : Prop :=
  ∃ vs : List Nat, new.map Prod.snd = vs.map (fun v => some ⟨tid, ep, v⟩)
    ∧ vs.Pairwise (· < ·) ∧ ∀ v ∈ vs, H ≤ v ∧ v < H'

theorem VnsIn.append {tid : Fin 8} {ep H₁ H₂ H₃ : Nat}
    {as bs : List (Stamped α)} (h : VnsIn tid ep H₁ H₂ as)
    (h' : VnsIn tid ep H₂ H₃ bs) (hle : H₁ ≤ H₂) (hle' : H₂ ≤ H₃) :
    VnsIn tid ep H₁ H₃ (as ++ bs) := by
  obtain ⟨vs, hvs, hord, hrng⟩ := h
  obtain ⟨ws, hws, hord', hrng'⟩ := h'
  refine ⟨vs ++ ws, ?_, ?_, ?_⟩
  · rw [List.map_append, List.map_append, hvs, hws]
  · refine List.pairwise_append.2 ⟨hord, hord', fun v hv w hw => ?_⟩
    have hv' := (hrng v hv).2
    have hw' := (hrng' w hw).1
    omega
  · intro v hv
    rcases List.mem_append.1 hv with hv | hv
    · have := hrng v hv
      omega
    · have := hrng' v hv
      omega

/-- From head `H` to head `H'`, emitting `new`: the virtual numbers in
`new` are in `[H, H')`, in increasing order, and no frame is lost. -/
structure Moved (tid : Fin 8) (ep H : Nat) (r : RxReorder (Stamped α))
    (H' : Nat) (r' : RxReorder (Stamped α)) (new : List (Stamped α)) :
    Prop where
  le : H ≤ H'
  win : InWin tid ep H' r'
  size : r'.bufSize = r.bufSize
  perm : (new ++ r'.held).Perm r.held
  vns : VnsIn tid ep H H' new

namespace Moved

variable {tid : Fin 8} {ep : Nat}

theorem refl {H : Nat} {r : RxReorder (Stamped α)} (h : InWin tid ep H r) :
    Moved tid ep H r H r [] :=
  ⟨le_refl H, h, rfl, List.Perm.refl _, [], rfl, List.Pairwise.nil, by simp⟩

theorem trans {H₁ H₂ H₃ : Nat} {r₁ r₂ r₃ : RxReorder (Stamped α)}
    {as bs : List (Stamped α)} (h : Moved tid ep H₁ r₁ H₂ r₂ as)
    (h' : Moved tid ep H₂ r₂ H₃ r₃ bs) :
    Moved tid ep H₁ r₁ H₃ r₃ (as ++ bs) := by
  have hle := h.le
  have hle' := h'.le
  refine ⟨by omega, h'.win, h'.size.trans h.size, ?_,
    h.vns.append h'.vns hle hle'⟩
  rw [List.append_assoc]
  exact (h'.perm.append_left as).trans h.perm

/-- One advance is a chain. -/
theorem advance {H : Nat} {r : RxReorder (Stamped α)}
    (h : InWin tid ep H r) :
    Moved tid ep H r (H + 1) r.advance.1 r.advance.2 := by
  obtain ⟨hwin, hst, hperm, hsize⟩ := advance_inWin h
  have hone := r.advance_out_le
  refine ⟨by omega, hwin, hsize, hperm, ?_⟩
  cases hout : r.advance.2 with
  | nil => exact ⟨[], rfl, List.Pairwise.nil, by simp⟩
  | cons x xs =>
      have hnil : xs = [] := by
        rw [hout, List.length_cons] at hone
        exact List.length_eq_zero_iff.1 (by omega)
      subst hnil
      have hx := hst x (by rw [hout]; exact List.mem_cons_self)
      refine ⟨[H], by simp [hx], List.pairwise_singleton _ _, ?_⟩
      intro v hv
      rw [List.mem_singleton.1 hv]
      omega

/-- A chain emits what it takes from the store. -/
theorem stored {H H' : Nat} {r r' : RxReorder (Stamped α)}
    {new : List (Stamped α)} (h : Moved tid ep H r H' r' new)
    (hr : InWin tid ep H r) : new.length + r'.stored = r.stored := by
  rw [h.win.count, hr.count, ← h.perm.length_eq, List.length_append]

/-- The head's residue moves by the distance the chain moved. -/
theorem snSub_head {H H' : Nat} {r r' : RxReorder (Stamped α)}
    {new : List (Stamped α)} (h : Moved tid ep H r H' r' new)
    (hr : InWin tid ep H r) (hlt : H' < H + 4096) :
    H' = H + snSub r'.headSn r.headSn := by
  have hle := h.le
  obtain ⟨k, rfl⟩ := Nat.exists_eq_add_of_le hle
  rw [h.win.head, hr.head, snSub, modSub_add H (by omega)]

end Moved

-- ================================================================= loops

/-- `slide` is a chain. Where a window stores fewer frames than the array
has entries left, it ends at `newHead`. -/
theorem slide_moved {tid : Fin 8} {ep : Nat} (newHead k : Nat) {H : Nat}
    {r : RxReorder (Stamped α)} (out : List (Stamped α))
    (h : InWin tid ep H r) (hroom : out.length + r.stored < 64)
    (hk : snSub newHead r.headSn = k) (hk' : k < 2048) :
    ∃ r' new, slide newHead k (r, out) = (r', out ++ new)
      ∧ Moved tid ep H r (H + k) r' new := by
  induction k generalizing r out H with
  | zero => exact ⟨r, [], by simp [slide], Moved.refl h⟩
  | succ k ih =>
      have hstep := Moved.advance h
      have hmod : snSub newHead r.advance.1.headSn = k := by
        have hr := h.head
        have hr' := hstep.win.head
        simp only [snSub, modSub] at hk ⊢
        omega
      have hst := hstep.stored h
      have hroom' : (out ++ r.advance.2).length + r.advance.1.stored < 64 := by
        rw [List.length_append]
        omega
      obtain ⟨r', new, heq, hmv⟩ :=
        ih (out ++ r.advance.2) hstep.win hroom' hmod (by omega)
      refine ⟨r', r.advance.2 ++ new, ?_, ?_⟩
      · rw [slide, if_pos ⟨by omega, by omega, by
          show out.length < 64
          omega⟩, heq, List.append_assoc]
      · have hH : H + (k + 1) = H + 1 + k := by omega
        rw [hH]
        exact hstep.trans hmv

/-- `release` is a chain of at most `stored` advances; it ends with
nothing stored, the array full, or the head's cell empty. -/
theorem release_moved {tid : Fin 8} {ep : Nat} (k : Nat) {H : Nat}
    {r : RxReorder (Stamped α)} (out : List (Stamped α))
    (h : InWin tid ep H r) (hk : r.stored = k) :
    ∃ H' r' new, release k (r, out) = (r', out ++ new)
      ∧ Moved tid ep H r H' r' new ∧ H' ≤ H + k
      ∧ (r'.stored = 0 ∨ kRxBaMaxBuf ≤ (out ++ new).length
          ∨ r'.buf (cellOf r'.headSn) = none) := by
  induction k generalizing r out H with
  | zero => exact ⟨H, r, [], by simp [release], Moved.refl h, by omega, .inl hk⟩
  | succ k ih =>
      rw [release]
      split
      next hc =>
        have hstep := Moved.advance h
        obtain ⟨x, hx⟩ := Option.isSome_iff_exists.1 hc.2.2
        have hone : r.advance.2 = [x] := by
          rw [RxReorder.advance, hx]
        have hst := hstep.stored h
        rw [hone, List.length_singleton] at hst
        obtain ⟨H', r', new, heq, hmv, hle, hexit⟩ :=
          ih (out ++ r.advance.2) hstep.win (by omega)
        refine ⟨H', r', r.advance.2 ++ new, ?_, hstep.trans hmv, by omega, ?_⟩
        · rw [heq, List.append_assoc]
        · rw [← List.append_assoc]
          exact hexit
      next hc =>
        refine ⟨H, r, [], by simp, Moved.refl h, by omega, ?_⟩
        by_cases hlen : out.length < kRxBaMaxBuf
        · have hnone : ¬ (r.buf (cellOf r.headSn)).isSome := fun hs =>
            hc ⟨by omega, hlen, hs⟩
          exact .inr (.inr (by simpa using hnone))
        · refine .inr (.inl ?_)
          rw [List.append_nil]
          omega

/-- `skipHoles` is a chain that emits nothing. -/
theorem skipHoles_moved {tid : Fin 8} {ep : Nat} (k : Nat) {H : Nat}
    {r : RxReorder (Stamped α)} (h : InWin tid ep H r) :
    ∃ H', Moved tid ep H r H' (skipHoles k r) [] ∧ H' < H + 64 := by
  -- while frames are stored, the lowest one bounds the head
  have hgen : ∀ k H (r : RxReorder (Stamped α)), InWin tid ep H r →
      ∃ H', Moved tid ep H r H' (skipHoles k r) []
        ∧ (H' = H ∨ ∃ vn, H' ≤ vn ∧ vn < H + r.bufSize) := by
    intro k
    induction k with
    | zero => exact fun H r h => ⟨H, Moved.refl h, .inl rfl⟩
    | succ k ih =>
        intro H r h
        rw [skipHoles]
        split
        next hc =>
          have hnone : r.buf (cellOf r.headSn) = none := by
            simpa using hc.2
          have hadv : r.advance = ({ r with headSn := snNext r.headSn }, []) := by
            rw [RxReorder.advance, hnone]
          have hstep := Moved.advance h
          rw [hadv] at hstep
          obtain ⟨H', hmv, hexit⟩ := ih (H + 1) _ hstep.win
          refine ⟨H', hstep.trans hmv, .inr ?_⟩
          rcases hexit with rfl | ⟨vn, hlo, hhi⟩
          · -- the loop stopped here, with a frame still in the window
            have hpos : 0 < r.held.length := by
              rw [← h.count]
              exact hc.1
            obtain ⟨x, hx⟩ := List.exists_mem_of_length_pos hpos
            obtain ⟨i, hi⟩ := mem_cells.1 hx
            obtain ⟨vn, -, hlo, hhi, -⟩ := hstep.win.cell i x hi
            obtain ⟨vn', hs', -, hhi', -⟩ := h.cell i x hi
            obtain ⟨vn'', hs'', hlo'', -, -⟩ := hstep.win.cell i x hi
            have heq : vn'' = vn' := by
              rw [hs'] at hs''
              simpa using hs''.symm
            exact ⟨vn', by omega, hhi'⟩
          · have hmv' := hmv.win.size_pos
            by_cases hle : vn < H + r.bufSize
            · exact ⟨vn, hlo, hle⟩
            · -- frames of the old window stay below its old end
              have hpos : 0 < r.held.length := by
                rw [← h.count]
                exact hc.1
              obtain ⟨x, hx⟩ := List.exists_mem_of_length_pos hpos
              have hx' : x ∈ (skipHoles k
                  { r with headSn := snNext r.headSn }).held := by
                have := hmv.perm.symm.mem_iff.1 hx
                simpa using this
              obtain ⟨i, hi⟩ := mem_cells.1 hx
              obtain ⟨j, hj⟩ := mem_cells.1 hx'
              obtain ⟨v, hs, -, hhi', -⟩ := h.cell i x hi
              obtain ⟨w, hs', hlo', -, -⟩ := hmv.win.cell j x hj
              have heq : w = v := by
                rw [hs] at hs'
                simpa using hs'.symm
              exact ⟨v, by omega, hhi'⟩
        next => exact ⟨H, Moved.refl h, .inl rfl⟩
  obtain ⟨H', hmv, hexit⟩ := hgen k H r h
  have hsize := h.size_le
  refine ⟨H', hmv, ?_⟩
  rcases hexit with rfl | ⟨vn, hlo, hhi⟩ <;> omega

end Rtw88
