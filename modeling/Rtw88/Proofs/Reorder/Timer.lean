/-
When the reorder timer covers every waiting frame.

# What stays

An input ends with the head on a hole, so what is left of the window is
what lies above its new head; and the head got exactly as far as the
first hole that the input neither fills nor slides past
(`accept_stays`). A flush's turn at a TID stops at the hole behind the
first run or where the array is full (`flush_stays`).

# The deadline

An operation that leaves the timer alone leaves no new frame either, and
one that arms it covers what arrived now and no older frame. So the
timer goes on covering every frame exactly as long as no operation
postpones it (`timer_covers_iff`).

# Both directions

"Postpones" is said of the windows before the operation: it arms the
timer, and an older frame goes on waiting. So the step is an equivalence
(`input_covered_iff`, `flush_covered_iff`), and it needs exactly which
frames stay, not only a bound on them. A chain of advances keeps the
frames from its new head on (`Moved.mem_held_iff`), and between the same
windows it can have gone only one way (`Moved.unique`); what is left is
to say where the loops stop.

A frame is dated when it comes in. The dates ride on the stamped run, and
dropping the stamps leaves them (`timedTrackStep_erase`).
-/
import Rtw88.Spec.ReorderTimer
import Rtw88.Proofs.Reorder.HeadSlot

namespace Rtw88

variable {α : Type}

-- ============================================================= distances

/-- A frame's number is the head's plus its cell's distance. -/
private theorem InWin.number_dist {tid : Fin 8} {ep H : Nat}
    {r : RxReorder (Stamped α)} (h : InWin tid ep H r) {i : Fin 64}
    {x : Stamped α} (hx : r.buf i = some x) :
    x.2 = some ⟨tid, ep, H + r.dist i⟩ ∧ r.dist i < r.bufSize := by
  obtain ⟨vn, hs, hlo, hhi, hc⟩ := h.cell i x hx
  have hsize := h.size_le
  have hdist : r.dist i = vn - H := by
    have hval : i.val = vn % 64 := by rw [hc]; rfl
    rw [RxReorder.dist, modSub, h.head, hval]
    omega
  rw [hdist, hs]
  refine ⟨?_, by omega⟩
  congr 2
  omega

/-- What stands in the cell of an unrolled number within the window has
that number. -/
private theorem InWin.at_number {tid : Fin 8} {ep H : Nat}
    {r : RxReorder (Stamped α)} (h : InWin tid ep H r) {v : Nat}
    (hlo : H ≤ v) (hhi : v < H + 64) {x : Stamped α}
    (hx : r.buf (cellOf v) = some x) :
    x.2 = some ⟨tid, ep, v⟩ ∧ v < H + r.bufSize := by
  obtain ⟨vn, hs, hlo', hhi', hc⟩ := h.cell _ x hx
  have hsize := h.size_le
  have heq : v = vn := eq_of_cellOf_eq hlo hhi hlo' (by omega) hc
  rw [heq, hs]
  exact ⟨rfl, hhi'⟩

/-- A frame the window holds stands in the cell of its number. -/
private theorem InWin.held_cell {tid : Fin 8} {ep H v : Nat}
    {r : RxReorder (Stamped α)} (h : InWin tid ep H r) {x : Stamped α}
    (hx : x ∈ r.held) (hv : x.2 = some ⟨tid, ep, v⟩) :
    r.buf (cellOf v) = some x ∧ H ≤ v ∧ v < H + r.bufSize := by
  obtain ⟨i, hi⟩ := mem_cells.1 hx
  obtain ⟨vn, hs, hlo, hhi, hc⟩ := h.cell i x hi
  have heq : vn = v := by
    rw [hs] at hv
    simpa using hv
  rw [← heq, ← hc]
  exact ⟨hi, hlo, hhi⟩

/-- A chain keeps exactly the frames from its new head on. -/
private theorem Moved.mem_held_iff {tid : Fin 8} {ep H H' v : Nat}
    {r r' : RxReorder (Stamped α)} {new : List (Stamped α)}
    (h : Moved tid ep H r H' r' new) {x : Stamped α}
    (hv : x.2 = some ⟨tid, ep, v⟩) :
    x ∈ r'.held ↔ x ∈ r.held ∧ H' ≤ v := by
  constructor
  · intro hx
    exact ⟨h.perm.mem_iff.1 (List.mem_append_right _ hx),
      (h.win.held_cell hx hv).2.1⟩
  · rintro ⟨hx, hle⟩
    refine (List.mem_append.1 (h.perm.mem_iff.2 hx)).resolve_left ?_
    intro hnew
    obtain ⟨vs, hvs, -, hrng⟩ := h.vns
    have hmem : x.2 ∈ new.map Prod.snd := List.mem_map_of_mem hnew
    rw [hvs, hv] at hmem
    obtain ⟨w, hw, heq⟩ := List.mem_map.1 hmem
    have hwv : w = v := by simpa using heq
    have hlt := (hrng w hw).2
    omega

/-- Two chains between the same windows go as far. -/
private theorem Moved.unique {tid : Fin 8} {ep H H' H'' : Nat}
    {r r' : RxReorder (Stamped α)} {new new' : List (Stamped α)}
    (hr : InWin tid ep H r) (h : Moved tid ep H r H' r' new)
    (h' : Moved tid ep H r H'' r' new') (hlt : H' < H + 4096)
    (hlt' : H'' < H + 4096) : H' = H'' := by
  rw [h.snSub_head hr hlt, h'.snSub_head hr hlt']

-- ================================================================= loops

/-- `release` goes as far as the run at the head and the array allow. -/
private theorem release_moved_run {tid : Fin 8} {ep : Nat} (k : Nat)
    {H : Nat} {r : RxReorder (Stamped α)} (out : List (Stamped α))
    (h : InWin tid ep H r) (hk : r.stored = k) (hout : out.length ≤ 64) :
    ∃ r' new, release k (r, out) = (r', out ++ new)
      ∧ Moved tid ep H r
        (H + min (runLength r.buf 64 r.headSn) (64 - out.length)) r' new := by
  induction k generalizing r out H with
  | zero =>
      have hnil : cells r.buf = [] :=
        List.length_eq_zero_iff.1 (h.count.symm.trans hk)
      rw [runLength_of_held_nil hnil, Nat.zero_min, Nat.add_zero]
      exact ⟨r, [], by simp [release], Moved.refl h⟩
  | succ k ih =>
      rw [release]
      cases hx : r.buf (cellOf r.headSn) with
      | none =>
          have hrun : runLength r.buf 64 r.headSn = 0 := by
            simp [runLength, hx]
          rw [if_neg (by simp), hrun, Nat.zero_min, Nat.add_zero]
          exact ⟨r, [], by simp, Moved.refl h⟩
      | some x =>
          by_cases hroom : out.length < kRxBaMaxBuf
          · rw [if_pos ⟨by omega, hroom, rfl⟩]
            rw [kRxBaMaxBuf] at hroom
            have hstep := Moved.advance h
            have hone : r.advance.2 = [x] := by
              rw [RxReorder.advance, hx]
            have hst := hstep.stored h
            rw [hone, List.length_singleton] at hst
            have hlen : (out ++ r.advance.2).length = out.length + 1 := by
              rw [hone, List.length_append, List.length_singleton]
            obtain ⟨r', new, heq, hmv⟩ :=
              ih (out ++ r.advance.2) hstep.win (by omega) (by omega)
            refine ⟨r', r.advance.2 ++ new, ?_, ?_⟩
            · rw [heq, List.append_assoc]
            · have hrun := runLength_advance hx
              rw [hlen] at hmv
              have hsum : H + min (runLength r.buf 64 r.headSn)
                    (64 - out.length)
                  = H + 1 + min (runLength r.advance.1.buf 64
                    r.advance.1.headSn) (64 - (out.length + 1)) := by
                omega
              rw [hsum]
              exact hstep.trans hmv
          · rw [if_neg (fun hc => hroom hc.2.1)]
            rw [kRxBaMaxBuf] at hroom
            have hzero : 64 - out.length = 0 := by omega
            rw [hzero, Nat.min_zero, Nat.add_zero]
            exact ⟨r, [], by simp, Moved.refl h⟩

/-- A run does not go past a hole. -/
private theorem runLength_le_of_hole {b : Fin 64 → Option α} {m n : Nat}
    (k : Nat) (hm : b (cellOf (n + m)) = none) : runLength b k n ≤ m := by
  induction m generalizing k n with
  | zero =>
      cases k with
      | zero => exact le_refl 0
      | succ k =>
          rw [Nat.add_zero] at hm
          simp [runLength, hm]
  | succ m ih =>
      cases k with
      | zero => exact Nat.zero_le _
      | succ k =>
          rw [runLength]
          split
          · have hm' : b (cellOf (n + 1 + m)) = none := by
              rwa [Nat.add_right_comm]
            have hle := ih k hm'
            omega
          · exact Nat.zero_le _

-- ================================================================= input

/-- What `insert` leaves in the window: what was there, and the new frame
or one of its number. -/
private theorem insert_mem {tid : Fin 8} {ep H v sn : Nat}
    {r : RxReorder (Stamped α)} {x : Stamped α} (h : InWin tid ep H r)
    (hx : x.2 = some ⟨tid, ep, v⟩) (hv : v % 4096 = sn % 4096)
    (hlo : H ≤ v) (hhi : v < H + r.bufSize) :
    (∀ y ∈ r.held, y ∈ (r.insert x sn).1.held)
      ∧ (∀ y ∈ (r.insert x sn).1.held, y = x ∨ y ∈ r.held)
      ∧ ∃ z ∈ (r.insert x sn).1.held, z.2 = x.2 := by
  obtain ⟨-, hperm, -, hdup⟩ := insert_inWin h hx hv hlo hhi
  rcases hdup with hnil | ⟨hone, y, hy, hyx⟩
  · rw [hnil, List.nil_append] at hperm
    refine ⟨fun y hy => hperm.mem_iff.2 (List.mem_cons_of_mem _ hy),
      fun y hy => List.mem_cons.1 (hperm.mem_iff.1 hy), x, ?_, rfl⟩
    exact hperm.mem_iff.2 List.mem_cons_self
  · rw [hone] at hperm
    have hsame : ∀ z, z ∈ (r.insert x sn).1.held ↔ z ∈ r.held := fun z =>
      (List.Perm.cons_inv hperm).mem_iff
    exact ⟨fun z hz => (hsame z).2 hz, fun z hz => .inr ((hsame z).1 hz),
      y, (hsame y).2 hy, hyx⟩

/-- What an input leaves in the window: the frames behind a hole that it
neither fills nor slides past. -/
theorem accept_stays {tid : Fin 8} {ep H : Nat}
    {r : RxReorder (Stamped α)} (h : InWin tid ep H r) (hroom : Roomy r)
    {sn : Nat} (hrel : snSub sn r.headSn < 2048) {x : Stamped α}
    (hx : x.2 = some ⟨tid, ep, H + snSub sn r.headSn⟩) :
    (∀ i y, r.buf i = some y →
        (y ∈ (r.accept x sn).1.held ↔ r.Behind sn (r.dist i)))
      ∧ (∀ y ∈ (r.accept x sn).1.held, y = x ∨ y ∈ r.held)
      ∧ (0 < (r.accept x sn).1.held.length
        ↔ r.Behind sn (snSub sn r.headSn)
          ∨ ∃ i, (r.buf i).isSome ∧ r.Behind sn (r.dist i))
      ∧ (r.accept x sn).1.stored = (r.accept x sn).1.held.length := by
  obtain ⟨r₁, out₁, H', r', new, hacc, hrelease, hmv, hmv', hle', hhole⟩ :=
    accept_phases h hroom hrel hx
  obtain ⟨hlo, hhi⟩ := h.number_range hmv.size sn
  obtain ⟨hkeep, hfrom, z₀, hz₀, hz₀x⟩ := insert_mem hmv.win hx
    (h.number_mod sn) hlo hhi
  obtain ⟨hwin₂, -, -, -⟩ := insert_inWin hmv.win hx (h.number_mod sn) hlo hhi
  have hsize := h.size_le
  have hsize₂ := hwin₂.size_le
  have hst₁ := hmv.stored h
  rw [hx] at hz₀x
  -- the head has stopped on a hole
  have hgone : ∀ z ∈ (r₁.insert x sn).1.held,
      z.2 ≠ some ⟨tid, ep, H'⟩ := by
    intro z hz hzv
    have hz' := (hmv'.mem_held_iff hzv).2 ⟨hz, le_refl H'⟩
    have hcell := (hmv'.win.held_cell hz' hzv).1
    rw [hmv'.win.head_cell, hcell] at hhole
    cases hhole
  have hstays : ∀ d, ∀ y ∈ (r₁.insert x sn).1.held,
      y.2 = some ⟨tid, ep, H + d⟩ → (y ∈ r'.held ↔ r.Behind sn d) := by
    intro d y hy hyv
    rw [hmv'.mem_held_iff hyv, and_iff_right hy]
    constructor
    · intro hle
      have hne : H' ≠ H + d := fun heq => hgone y hy (heq ▸ hyv)
      have hup := hmv'.le
      refine ⟨H' - H, by omega, by omega, fun heq => ?_, ?_⟩
      · -- the frame's own number is not the hole
        have hnum : H + snSub sn r.headSn = H' := by omega
        rw [hnum] at hz₀x
        exact hgone z₀ hz₀ hz₀x
      · refine or_iff_not_imp_left.2 fun hlt => ?_
        cases hb : r.buf (cellOf (r.headSn + (H' - H))) with
        | none => rfl
        | some z =>
            rw [cellOf_add h.head_cell] at hb
            have hsum : H + (H' - H) = H' := by omega
            rw [hsum] at hb
            have hzv := (h.at_number (by omega) (by omega) hb).1
            have hz : z ∈ r.held := mem_cells.2 ⟨_, hb⟩
            have hz₁ := (hmv.mem_held_iff hzv).2 ⟨hz, hup⟩
            exact absurd hzv (hgone z (hkeep z hz₁))
    · rintro ⟨n, hn, hnd, hne, hbn⟩
      have hyr := (hwin₂.held_cell hy hyv).2.2
      -- the hole is there when the release comes to it
      have hnone : (r₁.insert x sn).1.buf (cellOf (H + n)) = none := by
        cases hb : (r₁.insert x sn).1.buf (cellOf (H + n)) with
        | none => rfl
        | some z =>
            have hzv := (hwin₂.at_number (by omega) (by omega) hb).1
            have hz : z ∈ (r₁.insert x sn).1.held := mem_cells.2 ⟨_, hb⟩
            rcases hfrom z hz with rfl | hz₁
            · rw [hx] at hzv
              have heq : H + snSub sn r.headSn = H + n := by
                simpa using hzv
              omega
            · have hzr := ((hmv.mem_held_iff hzv).1 hz₁).1
              obtain ⟨hcell, -, hlt⟩ := h.held_cell hzr hzv
              rcases hbn with hout | hempty
              · omega
              · rw [cellOf_add h.head_cell, hcell] at hempty
                cases hempty
      have hroom₁ : out₁.length ≤ 64 := by
        rw [Roomy] at hroom
        omega
      obtain ⟨r'', new', heq, hmv''⟩ :=
        release_moved_run _ out₁ hwin₂ rfl hroom₁
      have hr'' : r'' = r' := by
        rw [hrelease] at heq
        exact (congrArg Prod.fst heq).symm
      subst hr''
      have hrun : runLength (r₁.insert x sn).1.buf 64
          (r₁.insert x sn).1.headSn ≤ n - r.slideBy sn := by
        apply runLength_le_of_hole
        rw [cellOf_add hwin₂.head_cell]
        have hsum : H + r.slideBy sn + (n - r.slideBy sn) = H + n := by
          omega
        rw [hsum]
        exact hnone
      rw [Roomy] at hroom
      have hreach := hmv'.unique hwin₂ hmv'' (by omega) (by omega)
      omega
  have hheld : (r.accept x sn).1 = r' := by rw [hacc]
  rw [hheld]
  have hfrom' : ∀ y ∈ r'.held, y = x ∨ y ∈ r.held := by
    intro y hy
    have hy₂ : y ∈ (r₁.insert x sn).1.held :=
      hmv'.perm.mem_iff.1 (List.mem_append_right _ hy)
    rcases hfrom y hy₂ with rfl | hy₁
    · exact .inl rfl
    · exact .inr (hmv.perm.mem_iff.1 (List.mem_append_right _ hy₁))
  have hcells : ∀ i y, r.buf i = some y →
      (y ∈ r'.held ↔ r.Behind sn (r.dist i)) := by
    intro i y hy
    obtain ⟨hyv, hyd⟩ := h.number_dist hy
    have hyr : y ∈ r.held := mem_cells.2 ⟨i, hy⟩
    by_cases hlow : H + r.slideBy sn ≤ H + r.dist i
    · exact hstays _ y (hkeep y ((hmv.mem_held_iff hyv).2 ⟨hyr, hlow⟩)) hyv
    · -- slid out of the window
      refine iff_of_false (fun hy' => ?_) ?_
      · have hle := ((hmv'.mem_held_iff hyv).1 hy').2
        have hup := hmv'.le
        omega
      · rintro ⟨n, hn, hnd, -⟩
        omega
  refine ⟨hcells, hfrom', ?_, hmv'.win.count⟩
  constructor
  · intro hpos
    obtain ⟨y, hy⟩ := List.exists_mem_of_length_pos hpos
    rcases hfrom' y hy with rfl | hyr
    · have hy₂ : y ∈ (r₁.insert y sn).1.held :=
        hmv'.perm.mem_iff.1 (List.mem_append_right _ hy)
      exact .inl ((hstays _ y hy₂ hx).1 hy)
    · obtain ⟨i, hi⟩ := mem_cells.1 hyr
      exact .inr ⟨i, by rw [hi]; rfl, (hcells i y hi).1 hy⟩
  · rintro (hbeh | ⟨i, hi, hbeh⟩)
    · exact List.length_pos_of_mem ((hstays _ z₀ hz₀ hz₀x).2 hbeh)
    · obtain ⟨y, hy⟩ := Option.isSome_iff_exists.1 hi
      exact List.length_pos_of_mem ((hcells i y hy).2 hbeh)

-- ================================================================= flush

/-- Where the search for a frame ends. -/
private theorem firstOccupied_spec {b : Fin 64 → Option α} {k n : Nat}
    (h : ∃ j, j < k ∧ (b (cellOf (n + j))).isSome) :
    ∃ f, firstOccupied b k n = n + f ∧ f < k
      ∧ (b (cellOf (n + f))).isSome
      ∧ ∀ j, j < f → b (cellOf (n + j)) = none := by
  induction k generalizing n with
  | zero =>
      obtain ⟨j, hj, -⟩ := h
      omega
  | succ k ih =>
      rw [firstOccupied]
      by_cases hn : (b (cellOf n)).isSome
      · rw [if_pos hn]
        exact ⟨0, rfl, by omega, hn, fun j hj => by omega⟩
      · rw [if_neg hn]
        obtain ⟨j, hj, hocc⟩ := h
        obtain ⟨j, rfl⟩ : ∃ j', j = j' + 1 := by
          cases j with
          | zero => exact absurd hocc hn
          | succ j => exact ⟨j, rfl⟩
        rw [← Nat.add_assoc, Nat.add_right_comm] at hocc
        obtain ⟨f, hf, hlt, hfocc, hbelow⟩ := ih ⟨j, by omega, hocc⟩
        have hshift : ∀ j, n + (j + 1) = n + 1 + j := fun j => by omega
        refine ⟨f + 1, by omega, by omega, by rw [hshift]; exact hfocc, ?_⟩
        intro j hj
        cases j with
        | zero => simpa using hn
        | succ j =>
            rw [hshift]
            exact hbelow j (by omega)

/-- A run shorter than was looked for ends at a hole. -/
private theorem runLength_hole {b : Fin 64 → Option α} {k n : Nat}
    (h : runLength b k n < k) : b (cellOf (n + runLength b k n)) = none := by
  induction k generalizing n with
  | zero => omega
  | succ k ih =>
      rw [runLength] at h ⊢
      by_cases hn : (b (cellOf n)).isSome
      · rw [if_pos hn] at h ⊢
        have hnone := ih (by omega : runLength b k (n + 1) < k)
        rwa [Nat.add_right_comm] at hnone
      · rw [if_neg hn, Nat.add_zero]
        simpa using hn

/-- What the flush's turn at a window leaves in it: the frames behind a
second hole, and those for which the array has no room. -/
private theorem release_stays {tid : Fin 8} {ep H : Nat}
    {r : RxReorder (Stamped α)} (h : InWin tid ep H r)
    (hpos : 0 < r.stored) {out : List (Stamped α)} (hout : out.length ≤ 64) :
    (∀ i y, r.buf i = some y →
        (y ∈ (release (skipHoles 4096 r).stored
            (skipHoles 4096 r, out)).1.held
          ↔ (∃ m n, m < n ∧ n < r.dist i
              ∧ (r.buf (cellOf (r.headSn + m))).isSome
              ∧ r.buf (cellOf (r.headSn + n)) = none)
            ∨ 64 + (firstOccupied r.buf 64 r.headSn - r.headSn)
              ≤ out.length + r.dist i))
      ∧ ∀ y ∈ (release (skipHoles 4096 r).stored
          (skipHoles 4096 r, out)).1.held, y ∈ r.held := by
  have hocc := exists_occupied h.count hpos
  obtain ⟨f, hf, hf64, hfocc, hbelow⟩ := firstOccupied_spec hocc
  obtain ⟨hbuf, -⟩ := skipHoles_same 4096 r
  obtain ⟨H₁, hmv, hlt⟩ := skipHoles_moved 4096 h
  have hlo := hmv.le
  -- the head lands on the first frame
  have hH₁ : H₁ = H + f := by
    have hhead := skipHoles_head 4096 hpos
      (rfl : cellOf r.headSn = cellOf r.headSn)
    rw [firstOccupied_of_le hocc (show 64 ≤ 4096 by decide), hf,
      cellOf_add h.head_cell, hmv.win.head_cell] at hhead
    exact eq_of_cellOf_eq hlo hlt (by omega) (by omega) hhead
  subst hH₁
  obtain ⟨r', new, heq, hmv'⟩ :=
    release_moved_run _ out hmv.win rfl hout
  have hrun : runLength (skipHoles 4096 r).buf 64 (skipHoles 4096 r).headSn
      = runLength r.buf 64 (r.headSn + f) := by
    rw [hbuf]
    refine runLength_congr 64 fun j _ => congrArg r.buf (cellOf_add ?_ j)
    rw [hmv.win.head_cell, cellOf_add h.head_cell]
  rw [hrun] at hmv'
  rw [heq, hf, Nat.add_sub_cancel_left]
  have hall := hmv.trans hmv'
  refine ⟨fun i y hy => ?_, fun y hy =>
    hall.perm.mem_iff.1 (List.mem_append_right _ hy)⟩
  obtain ⟨hyv, hyd⟩ := h.number_dist hy
  have hyr : y ∈ r.held := mem_cells.2 ⟨i, hy⟩
  have hsize := h.size_le
  have hycell := (h.held_cell hyr hyv).1
  rw [hall.mem_held_iff hyv, and_iff_right hyr]
  constructor
  · intro hle
    by_cases hfit : runLength r.buf 64 (r.headSn + f) ≤ 64 - out.length
    · -- the run ended at a hole
      have hrun1 : 1 ≤ runLength r.buf 64 (r.headSn + f) := by
        rw [runLength, if_pos hfocc]
        omega
      have hnone := runLength_hole
        (by omega : runLength r.buf 64 (r.headSn + f) < 64)
      rw [Nat.add_assoc] at hnone
      refine .inl ⟨f, f + runLength r.buf 64 (r.headSn + f), by omega, ?_,
        hfocc, hnone⟩
      have hne : f + runLength r.buf 64 (r.headSn + f) ≠ r.dist i := by
        intro hsame
        rw [hsame, cellOf_add h.head_cell, hycell] at hnone
        cases hnone
      omega
    · exact .inr (by omega)
  · rintro (⟨m, n, hmn, hnd, hm, hn⟩ | hfull)
    · have hfm : f ≤ m := by
        refine Nat.le_of_not_lt fun hlt' => ?_
        rw [hbelow m hlt'] at hm
        cases hm
      have hrunle : runLength r.buf 64 (r.headSn + f) ≤ n - f := by
        apply runLength_le_of_hole
        have hsum : r.headSn + f + (n - f) = r.headSn + n := by omega
        rw [hsum]
        exact hn
      omega
    · omega

/-- A TID's turn of the flush leaves the other windows alone. -/
private theorem flushTid_other (acc : RxBa α × List α × Bool) {tid i : Fin 8}
    (hi : i ≠ tid) : (flushTid acc tid).1 i = acc.1 i := by
  obtain ⟨rx, out, again⟩ := acc
  simp only [flushTid]
  split
  · rfl
  · split
    · rfl
    · exact Function.update_of_ne hi _ _

private theorem flush_fold_other (l : List (Fin 8))
    (acc : RxBa α × List α × Bool) {i : Fin 8} (hi : i ∉ l) :
    (l.foldl flushTid acc).1 i = acc.1 i := by
  induction l generalizing acc with
  | nil => rfl
  | cons tid l ih =>
      obtain ⟨hne, hni⟩ := not_or.1 fun hor => hi (List.mem_cons.2 hor)
      rw [List.foldl_cons, ih _ hni, flushTid_other acc hne]

/-- A TID's turn asks for the timer when it leaves a frame. -/
private theorem flushTid_again {rx : RxBa α} (out : List α) (again : Bool)
    {tid : Fin 8} (hact : ∀ r, rx tid = some r → r.active = true) :
    (flushTid (rx, out, again) tid).2.2 = true
      ↔ again = true ∨ ∃ r, (flushTid (rx, out, again) tid).1 tid = some r
        ∧ 0 < r.stored := by
  cases hr : rx tid with
  | none => simp [flushTid, hr]
  | some r =>
      by_cases h0 : r.stored = 0
      · simp [flushTid, hr, h0]
      · simp [flushTid, hr, h0, hact r hr]

/-- The flush asks for the timer when it leaves a frame on any TID. -/
private theorem flush_fold_again (l : List (Fin 8)) (hnd : l.Nodup)
    {rx : RxBa α} (out : List α) (again : Bool)
    (hact : ∀ i ∈ l, ∀ r, rx i = some r → r.active = true) :
    (l.foldl flushTid (rx, out, again)).2.2 = true
      ↔ again = true ∨ ∃ i ∈ l, ∃ r,
        (l.foldl flushTid (rx, out, again)).1 i = some r ∧ 0 < r.stored := by
  induction l generalizing rx out again with
  | nil => simp
  | cons tid l ih =>
      obtain ⟨hnotin, hnd'⟩ := List.nodup_cons.1 hnd
      have hturn := flushTid_again out again (hact tid List.mem_cons_self)
      have hother := fun i (hi : i ≠ tid) =>
        flushTid_other (rx, out, again) hi
      rw [List.foldl_cons]
      generalize flushTid (rx, out, again) tid = turn at hturn hother ⊢
      obtain ⟨rx₁, out₁, again₁⟩ := turn
      simp only at hturn hother
      have hne : ∀ i ∈ l, i ≠ tid := fun i hi heq => hnotin (heq ▸ hi)
      have hself : (l.foldl flushTid (rx₁, out₁, again₁)).1 tid = rx₁ tid :=
        flush_fold_other l _ hnotin
      rw [ih hnd' out₁ again₁ fun i hi r hr =>
          hact i (List.mem_cons_of_mem _ hi) r (hother i (hne i hi) ▸ hr),
        hturn, or_assoc]
      refine or_congr_right ?_
      constructor
      · rintro (⟨r, hr, hpos⟩ | ⟨i, hi, hrest⟩)
        · exact ⟨tid, List.mem_cons_self, r, by rw [hself]; exact hr, hpos⟩
        · exact ⟨i, List.mem_cons_of_mem _ hi, hrest⟩
      · rintro ⟨i, hi, r, hr, hpos⟩
        rcases List.mem_cons.1 hi with rfl | hi
        · rw [hself] at hr
          exact .inl ⟨r, hr, hpos⟩
        · exact .inr ⟨i, hi, r, hr, hpos⟩

/-- The TIDs before and after one of them. -/
private theorem finRange_split : ∀ tid : Fin 8,
    List.finRange 8 = (List.finRange 8).take tid
        ++ tid :: (List.finRange 8).drop (tid + 1)
      ∧ tid ∉ (List.finRange 8).take tid
      ∧ tid ∉ (List.finRange 8).drop (tid + 1) := by
  decide

/-- What a flush leaves of a window. -/
theorem flush_stays {ep H : Fin 8 → Nat} {rx : RxBa (Stamped α)}
    (h : AllWin ep H rx) {tid : Fin 8} {r : RxReorder (Stamped α)}
    (hr : rx tid = some r) :
    ∃ r', (rxReorderFlushStale rx).rxBa tid = some r'
      ∧ (∀ i y, r.buf i = some y →
        (y ∈ r'.held ↔ rx.StaysInFlush tid r i))
      ∧ ∀ y ∈ r'.held, y ∈ r.held := by
  obtain ⟨hwin, -⟩ := h tid r hr
  obtain ⟨hsplit, hbefore, hafter⟩ := finRange_split tid
  have hnd : ((List.finRange 8).take tid).Nodup :=
    (List.nodup_finRange 8).sublist (List.take_sublist _ _)
  obtain ⟨-, hlen, -⟩ := @flush_fold_heads _ ((List.finRange 8).take tid) hnd
    rx [] false (fun i _ r hr => (h i r hr).1.active)
    (fun i _ r hr => (h i r hr).1.count) (Nat.zero_le _)
  have hsame := flush_fold_other ((List.finRange 8).take tid)
    (rx, ([] : List (Stamped α)), false) hbefore
  have hflush : (rxReorderFlushStale rx).rxBa tid
      = (flushTid (((List.finRange 8).take tid).foldl flushTid
          (rx, [], false)) tid).1 tid := by
    show ((List.finRange 8).foldl flushTid (rx, [], false)).1 tid = _
    rw [hsplit, List.foldl_append, List.foldl_cons,
      flush_fold_other _ _ hafter]
    simp only [← hsplit]
  rw [List.length_nil, Nat.zero_add] at hlen
  generalize ((List.finRange 8).take tid).foldl flushTid (rx, [], false)
    = acc at hlen hsame hflush
  obtain ⟨rx₁, out, again⟩ := acc
  simp only at hlen hsame
  rw [hflush]
  simp only [flushTid, hsame, hr]
  by_cases h0 : r.stored = 0
  · -- an empty window is passed over
    have hnil : r.held = [] := List.length_eq_zero_iff.1
      (hwin.count.symm.trans h0)
    rw [if_pos (.inr h0)]
    refine ⟨r, hsame.trans hr, fun i y hy => ?_, fun y hy => hy⟩
    have hmem : y ∈ r.held := mem_cells.2 ⟨i, hy⟩
    rw [hnil] at hmem
    cases hmem
  · have hno : ¬ (r.active = false ∨ r.stored = 0) := by
      rw [hwin.active]
      simp [h0]
    obtain ⟨hstays, hfrom⟩ := release_stays hwin (Nat.pos_of_ne_zero h0)
      (show out.length ≤ 64 by omega)
    rw [if_neg hno]
    refine ⟨_, Function.update_self _ _ _, fun i y hy => ?_, hfrom⟩
    rw [hstays i y hy, RxBa.StaysInFlush]
    refine or_congr_right ?_
    -- beyond 64 the array is full either way
    have hocc := exists_occupied hwin.count (Nat.pos_of_ne_zero h0)
    obtain ⟨f, hf, -, -, hbelow⟩ := firstOccupied_spec hocc
    obtain ⟨hyv, -⟩ := hwin.number_dist hy
    have hle : f ≤ r.dist i := by
      refine Nat.le_of_not_lt fun hlt => ?_
      have hcell := (hwin.held_cell (mem_cells.2 ⟨i, hy⟩) hyv).1
      have hnone := hbelow _ hlt
      rw [cellOf_add hwin.head_cell, hcell] at hnone
      cases hnone
    rw [hf, Nat.add_sub_cancel_left, hlen, RxBa.runsBefore]
    omega

-- ============================================================ stamped run

/-- The timed run on stamped frames. -/
structure TimedTrack (α : Type) where
  track : Track (Dated α)
  deadline : Option Nat
  now : Nat

/-- The timed operation on stamped frames. -/
def timedTrackStep (s : TimedTrack α) (e : Nat × BaOp α) : TimedTrack α :=
  let now := s.now + e.1
  let op := s.track.stampOp (e.2.date now)
  { track := trackStep s.track (e.2.date now)
    deadline := newDeadline op (op.apply s.track.ba.rxBa).needTimer now
      s.deadline
    now := now }

/-- Dropping the stamps. -/
def TimedTrack.erase (s : TimedTrack α) : Timed α :=
  { ba := s.track.ba.map Prod.fst, deadline := s.deadline, now := s.now }

/-- The timed run does not see stamps. -/
theorem timedTrackStep_erase (s : TimedTrack α) (e : Nat × BaOp α) :
    timedStep s.erase e = (timedTrackStep s e).erase := by
  have hop := s.track.stampOp_erase (e.2.date (s.now + e.1))
  have hba : baStep (s.track.ba.map Prod.fst) (e.2.date (s.now + e.1))
      = (trackStep s.track (e.2.date (s.now + e.1))).ba.map Prod.fst := by
    rw [trackStep_ba, ← baStep_map, hop]
  have htimer : ((e.2.date (s.now + e.1)).apply
        (s.track.ba.map Prod.fst).rxBa).needTimer
      = ((s.track.stampOp (e.2.date (s.now + e.1))).apply
        s.track.ba.rxBa).needTimer := by
    have happ := BaOp.apply_map Prod.fst
      (s.track.stampOp (e.2.date (s.now + e.1))) s.track.ba.rxBa
    rw [hop] at happ
    exact congrArg RxOut.needTimer happ
  simp only [timedStep, TimedTrack.erase, timedTrackStep, hba, htimer]
  congr 1
  cases e.2 <;> rfl

-- ======================================================== the invariant

/-- The timer covers every stamped frame. -/
def Covered (rx : RxBa (Stamped (Dated α))) (deadline : Option Nat) :
    Prop :=
  ∀ tid r, rx tid = some r → 0 < r.stored →
    ∃ d, deadline = some d ∧ ∀ j r' y, rx j = some r' → y ∈ r'.held →
      d ≤ y.1.2 + kReorderTimeoutMs

/-- The timed run on stamped frames, and the timer covers them all. -/
structure TimerInv (s : TimedTrack α) : Prop where
  track : TrackInv s.track
  covered : Covered s.track.ba.rxBa s.deadline

/-- What a renamed window holds. -/
private theorem map_window {β : Type} {f : α → β} {rx : RxBa α} {tid : Fin 8}
    {r : RxReorder β} (h : rx.map f tid = some r) :
    ∃ r₀, rx tid = some r₀ ∧ r = r₀.map f := by
  obtain ⟨r₀, hr₀, rfl⟩ := Option.map_eq_some_iff.1 h
  exact ⟨r₀, hr₀, rfl⟩

private theorem map_window_of {β : Type} (f : α → β) {rx : RxBa α}
    {tid : Fin 8} {r : RxReorder α} (h : rx tid = some r) :
    rx.map f tid = some (r.map f) := by
  rw [RxBa.map, h]
  rfl

/-- Covering is a matter of the frames' dates alone. -/
private theorem timerCovers_erase {rx : RxBa (Stamped (Dated α))}
    {ep H : Fin 8 → Nat} (h : AllWin ep H rx) (deadline : Option Nat) :
    TimerCovers (rx.map Prod.fst) deadline ↔ Covered rx deadline := by
  constructor
  · intro hcov tid r hr hpos
    obtain ⟨d, hd, hall⟩ := hcov tid (r.map Prod.fst)
      (map_window_of Prod.fst hr) (h tid r hr).1.active hpos
    refine ⟨d, hd, fun j r' y hr' hy => ?_⟩
    obtain ⟨i, hi⟩ := mem_cells.1 hy
    refine hall j (r'.map Prod.fst) (map_window_of Prod.fst hr') i y.1 ?_
    show (r'.buf i).map Prod.fst = some y.1
    rw [hi]
    rfl
  · intro hcov tid r hr _ hpos
    obtain ⟨r₀, hr₀, rfl⟩ := map_window hr
    obtain ⟨d, hd, hall⟩ := hcov tid r₀ hr₀ hpos
    refine ⟨d, hd, fun j r' hr' i x hx => ?_⟩
    obtain ⟨r₁, hr₁, rfl⟩ := map_window hr'
    obtain ⟨y, hy, rfl⟩ := Option.map_eq_some_iff.1 hx
    exact hall j r₁ y hr₁ (mem_cells.2 ⟨i, hy⟩)

/-- Holes do not depend on what the frames are called. -/
private theorem behind_map {β : Type} (f : α → β) (r : RxReorder α)
    (sn d : Nat) : (r.map f).Behind sn d ↔ r.Behind sn d := by
  simp only [RxReorder.Behind, RxReorder.map, RxReorder.slideBy,
    Option.map_eq_none_iff]

private theorem staysInFlush_map {β : Type} (f : α → β) (rx : RxBa α)
    (tid : Fin 8) (r : RxReorder α) (i : Fin 64) :
    (rx.map f).StaysInFlush tid (r.map f) i ↔ rx.StaysInFlush tid r i := by
  have hfirst : firstOccupied (r.map f).buf 64 (r.map f).headSn
      = firstOccupied r.buf 64 r.headSn := firstOccupied_map f r.buf 64 _
  rw [RxBa.StaysInFlush, RxBa.StaysInFlush, RxBa.runsBefore, RxBa.runsBefore,
    RxBa.firstRun_map, hfirst]
  simp only [RxReorder.map, RxReorder.dist, Option.isSome_map,
    Option.map_eq_none_iff]

-- ================================================================= steps

/-- Where no new frame waits and the timer is left alone, it goes on
covering. -/
private theorem Covered.fewer {rx rx' : RxBa (Stamped (Dated α))}
    {deadline : Option Nat} (h : Covered rx deadline)
    (hsome : ∀ tid r, rx' tid = some r → 0 < r.stored →
      ∃ r₀, rx tid = some r₀ ∧ 0 < r₀.stored)
    (hheld : ∀ j r' y, rx' j = some r' → y ∈ r'.held →
      ∃ r₀, rx j = some r₀ ∧ y ∈ r₀.held) : Covered rx' deadline := by
  intro tid r hr hpos
  obtain ⟨r₀, hr₀, hpos₀⟩ := hsome tid r hr hpos
  obtain ⟨d, hd, hall⟩ := h tid r₀ hr₀ hpos₀
  refine ⟨d, hd, fun j r' y hr' hy => ?_⟩
  obtain ⟨r₁, hr₁, hy₁⟩ := hheld j r' y hr' hy
  exact hall j r₁ y hr₁ hy₁

/-- A deadline set now covers the windows exactly when nothing older
waits. -/
private theorem covered_now_iff {rx : RxBa (Stamped (Dated α))} {now : Nat}
    (hpos : ∃ tid r, rx tid = some r ∧ 0 < r.stored) :
    Covered rx (some (now + kReorderTimeoutMs))
      ↔ ∀ j r y, rx j = some r → y ∈ r.held → now ≤ y.1.2 := by
  obtain ⟨tid, r, hr, hst⟩ := hpos
  constructor
  · intro h j r' y hr' hy
    obtain ⟨d, hd, hall⟩ := h tid r hr hst
    have hle := hall j r' y hr' hy
    rw [← Option.some.inj hd] at hle
    omega
  · intro h _ _ _ _
    refine ⟨_, rfl, fun j r' y hr' hy => ?_⟩
    have hle := h j r' y hr' hy
    omega

/-- What waits on in the window of `tid` after an input, and whether the
input arms the timer, read off the window before it. -/
private theorem postpones_input_iff {rx : RxBa (Stamped (Dated α))}
    {tid : Fin 8} {r : RxReorder (Stamped (Dated α))} (hr : rx tid = some r)
    (hact : r.active = true) {sn : Nat} (hrel : snSub sn r.headSn < 2048)
    (now : Nat) (skb : α) :
    Postpones (rx.map Prod.fst) now (.input tid skb sn)
      ↔ (r.Behind sn (snSub sn r.headSn)
          ∨ ∃ i, (r.buf i).isSome ∧ r.Behind sn (r.dist i))
        ∧ ((∃ j r' y, j ≠ tid ∧ rx j = some r' ∧ y ∈ r'.held
            ∧ y.1.2 < now)
          ∨ ∃ i y, r.buf i = some y ∧ y.1.2 < now
            ∧ r.Behind sn (r.dist i)) := by
  have hmap := map_window_of Prod.fst hr
  have hsome : ∀ i, (((r.map Prod.fst).buf i).isSome = true)
      = ((r.buf i).isSome = true) := fun i => by
    rw [RxReorder.map, Option.isSome_map]
  constructor
  · rintro ⟨r₁, hr₁, -, -, harm, j, r₂, i, x, hr₂, hx, hold, hbeh⟩
    rw [← Option.some.inj (hmap.symm.trans hr₁)] at harm
    simp only [behind_map, hsome] at harm
    refine ⟨harm, ?_⟩
    obtain ⟨r₀, hr₀, rfl⟩ := map_window hr₂
    obtain ⟨y, hy, rfl⟩ := Option.map_eq_some_iff.1 hx
    by_cases hj : j = tid
    · subst hj
      rw [← Option.some.inj (hr.symm.trans hr₀)] at hy hbeh
      exact .inr ⟨i, y, hy, hold, (behind_map Prod.fst r sn _).1 (hbeh rfl)⟩
    · exact .inl ⟨j, r₀, y, hj, hr₀, mem_cells.2 ⟨i, hy⟩, hold⟩
  · rintro ⟨harm, hwaits⟩
    refine ⟨r.map Prod.fst, hmap, hact, hrel, ?_, ?_⟩
    · simp only [behind_map, hsome]
      exact harm
    · rcases hwaits with ⟨j, r', y, hj, hr', hy, hold⟩ | ⟨i, y, hy, hold, hbeh⟩
      · obtain ⟨i, hi⟩ := mem_cells.1 hy
        refine ⟨j, r'.map Prod.fst, i, y.1, map_window_of Prod.fst hr', ?_,
          hold, fun heq => absurd heq hj⟩
        show (r'.buf i).map Prod.fst = some y.1
        rw [hi]
        rfl
      · refine ⟨tid, r.map Prod.fst, i, y.1, hmap, ?_, hold, fun _ => ?_⟩
        · show (r.buf i).map Prod.fst = some y.1
          rw [hy]
          rfl
        · exact (behind_map Prod.fst r sn _).2 hbeh

/-- An input that is taken up leaves every frame covered exactly when it
postpones none's deadline. -/
private theorem accept_covered_iff {rx : RxBa (Stamped (Dated α))}
    {deadline : Option Nat} (hcov : Covered rx deadline) {tid : Fin 8}
    {ep H : Nat} {r : RxReorder (Stamped (Dated α))}
    (hr : rx tid = some r) (hwin : InWin tid ep H r) (hroom : Roomy r)
    {sn : Nat} (hrel : snSub sn r.headSn < 2048) {now : Nat} (skb : α)
    {x : Stamped (Dated α)} (hnow : x.1.2 = now)
    (hx : x.2 = some ⟨tid, ep, H + snSub sn r.headSn⟩) :
    Covered (Function.update rx tid (some (r.accept x sn).1))
        (if 0 < (r.accept x sn).1.stored
          then some (now + kReorderTimeoutMs) else deadline)
      ↔ ¬ Postpones (rx.map Prod.fst) now (.input tid skb sn) := by
  rw [postpones_input_iff hr hwin.active hrel now skb]
  obtain ⟨hcells, hfrom, harms, hcount⟩ := accept_stays hwin hroom hrel hx
  rw [hcount]
  generalize (r.accept x sn).1 = r' at hcells hfrom harms hcount ⊢
  have hself := Function.update_self tid (some r') rx
  have hother : ∀ j, j ≠ tid → Function.update rx tid (some r') j = rx j :=
    fun j hj => Function.update_of_ne hj _ _
  by_cases hpos : 0 < r'.held.length
  · -- the timer is armed anew
    rw [if_pos hpos, and_iff_right (harms.1 hpos),
      covered_now_iff ⟨tid, r', hself, by rw [hcount]; exact hpos⟩]
    constructor
    · rintro hall (⟨j, r₂, y, hj, hr₂, hy, hold⟩ | ⟨i, y, hy, hold, hbeh⟩)
      · rw [← hother j hj] at hr₂
        exact absurd hold (Nat.not_lt.2 (hall j r₂ y hr₂ hy))
      · have hy' := (hcells i y hy).2 hbeh
        exact absurd hold (Nat.not_lt.2 (hall tid r' y hself hy'))
    · intro hno j r₂ y hr₂ hy
      refine Nat.le_of_not_lt fun hold => hno ?_
      by_cases hj : j = tid
      · rw [hj, hself] at hr₂
        rw [← Option.some.inj hr₂] at hy
        rcases hfrom y hy with rfl | hyr
        · -- the frame itself is not older than now
          omega
        · obtain ⟨i, hi⟩ := mem_cells.1 hyr
          exact .inr ⟨i, y, hi, hold, (hcells i y hi).1 hy⟩
      · rw [hother j hj] at hr₂
        exact .inl ⟨j, r₂, y, hj, hr₂, hy, hold⟩
  · -- nothing is left on this TID
    have hnil : r'.held = [] :=
      List.length_eq_zero_iff.1 (Nat.eq_zero_of_not_pos hpos)
    rw [if_neg hpos]
    refine iff_of_true (hcov.fewer ?_ ?_) fun hc => hpos (harms.2 hc.1)
    · intro j r₂ hr₂ hst
      by_cases hj : j = tid
      · rw [hj, hself] at hr₂
        rw [← Option.some.inj hr₂, hcount] at hst
        exact absurd hst hpos
      · rw [hother j hj] at hr₂
        exact ⟨r₂, hr₂, hst⟩
    · intro j r₂ y hr₂ hy
      by_cases hj : j = tid
      · rw [hj, hself] at hr₂
        rw [← Option.some.inj hr₂, hnil] at hy
        cases hy
      · rw [hother j hj] at hr₂
        exact ⟨r₂, hr₂, hy⟩

/-- An input leaves every frame covered exactly when it postpones none's
deadline. -/
private theorem input_covered_iff {t : Track (Dated α)}
    {deadline : Option Nat} (h : TrackInv t)
    (hcov : Covered t.ba.rxBa deadline) (now : Nat) (tid : Fin 8) (skb : α)
    (sn : Nat) :
    Covered (rxReorderInput tid ((skb, now), t.stamp tid sn) sn
          t.ba.rxBa).rxBa
        (if (rxReorderInput tid ((skb, now), t.stamp tid sn) sn
            t.ba.rxBa).needTimer then some (now + kReorderTimeoutMs)
          else deadline)
      ↔ ¬ Postpones (t.ba.rxBa.map Prod.fst) now (.input tid skb sn) := by
  rw [rxReorderInput]
  cases hr : t.ba.rxBa tid with
  | none =>
      refine iff_of_true hcov ?_
      rintro ⟨r, hr', -⟩
      obtain ⟨r₀, hr₀, -⟩ := map_window hr'
      rw [hr] at hr₀
      cases hr₀
  | some r =>
      obtain ⟨hwin, hroom⟩ := h.wins tid r hr
      have hact : ¬ r.active = false := by
        rw [hwin.active]
        decide
      simp only
      rw [if_neg hact]
      by_cases hstale : 2048 ≤ snSub sn r.headSn
      · rw [if_pos hstale]
        refine iff_of_true hcov ?_
        rintro ⟨r', hr', -, hrel, -⟩
        have hmap := map_window_of Prod.fst hr
        rw [← Option.some.inj (hmap.symm.trans hr')] at hrel
        exact absurd hrel (Nat.not_lt.2 hstale)
      · rw [if_neg hstale]
        have hstamp : (((skb, now), t.stamp tid sn) : Stamped _).2
            = some ⟨tid, t.epoch tid, t.head tid + snSub sn r.headSn⟩ := by
          show t.stamp tid sn = _
          rw [Track.stamp, hr]
          rfl
        have hiff := accept_covered_iff hcov hr hwin hroom
          (Nat.lt_of_not_le hstale) skb rfl hstamp
        simp only [decide_eq_true_eq]
        exact hiff

/-- A flush leaves every frame covered exactly when it postpones none's
deadline. -/
private theorem flush_covered_iff {t : Track (Dated α)} (h : TrackInv t)
    (now : Nat) :
    Covered (rxReorderFlushStale t.ba.rxBa).rxBa
        (if (rxReorderFlushStale t.ba.rxBa).needTimer
          then some (now + kReorderTimeoutMs) else none)
      ↔ ¬ Postpones (t.ba.rxBa.map Prod.fst) now (.flush : BaOp α) := by
  obtain ⟨H', hsw, -⟩ := rxReorderFlushStale_sweep h.wins
  -- every window afterwards is what is left of one before
  have hleft : ∀ j r', (rxReorderFlushStale t.ba.rxBa).rxBa j = some r' →
      ∃ r, t.ba.rxBa j = some r
        ∧ (∀ i y, r.buf i = some y →
          (y ∈ r'.held ↔ t.ba.rxBa.StaysInFlush j r i))
        ∧ ∀ y ∈ r'.held, y ∈ r.held := by
    intro j r' hr'
    cases hr : t.ba.rxBa j with
    | none =>
        rw [(hsw.idle j hr).2] at hr'
        cases hr'
    | some r =>
        obtain ⟨r₁, hr₁, hstays, hfrom⟩ := flush_stays h.wins hr
        rw [← Option.some.inj (hr₁.symm.trans hr')]
        exact ⟨r, rfl, hstays, hfrom⟩
  have hagain := @flush_fold_again _ (List.finRange 8) (List.nodup_finRange 8)
    t.ba.rxBa [] false (fun i _ r hr => (h.wins i r hr).1.active)
  have hneed : (rxReorderFlushStale t.ba.rxBa).needTimer = true
      ↔ ∃ i r, (rxReorderFlushStale t.ba.rxBa).rxBa i = some r
        ∧ 0 < r.stored := by
    refine hagain.trans ?_
    simp [rxReorderFlushStale]
  by_cases hpos : (rxReorderFlushStale t.ba.rxBa).needTimer = true
  · rw [if_pos hpos, covered_now_iff (hneed.1 hpos)]
    constructor
    · rintro hall ⟨j, r₁, i, x, hr₁, hx, hold, hstay⟩
      obtain ⟨r, hr, rfl⟩ := map_window hr₁
      obtain ⟨y, hy, rfl⟩ := Option.map_eq_some_iff.1 hx
      obtain ⟨r', hr', hstays, -⟩ := flush_stays h.wins hr
      have hy' := (hstays i y hy).2 ((staysInFlush_map _ _ _ _ _).1 hstay)
      exact absurd hold (Nat.not_lt.2 (hall j r' y hr' hy'))
    · intro hno j r' y hr' hy
      refine Nat.le_of_not_lt fun hold => hno ?_
      obtain ⟨r, hr, hstays, hfrom⟩ := hleft j r' hr'
      obtain ⟨i, hi⟩ := mem_cells.1 (hfrom y hy)
      refine ⟨j, r.map Prod.fst, i, y.1, map_window_of Prod.fst hr, ?_, hold,
        (staysInFlush_map _ _ _ _ _).2 ((hstays i y hi).1 hy)⟩
      show (r.buf i).map Prod.fst = some y.1
      rw [hi]
      rfl
  · -- nothing is left
    have hnone : ∀ j r', (rxReorderFlushStale t.ba.rxBa).rxBa j = some r' →
        ¬ 0 < r'.stored := fun j r' hr' hst => hpos (hneed.2 ⟨j, r', hr', hst⟩)
    rw [if_neg hpos]
    refine iff_of_true (fun j r' hr' hst => absurd hst (hnone j r' hr')) ?_
    rintro ⟨j, r₁, i, x, hr₁, hx, -, hstay⟩
    obtain ⟨r, hr, rfl⟩ := map_window hr₁
    obtain ⟨y, hy, rfl⟩ := Option.map_eq_some_iff.1 hx
    obtain ⟨r', hr', hstays, -⟩ := flush_stays h.wins hr
    have hy' := (hstays i y hy).2 ((staysInFlush_map _ _ _ _ _).1 hstay)
    have hcount := (hsw.wins j r' hr').1.count
    exact hnone j r' hr' (hcount ▸ List.length_pos_of_mem hy')

/-- Opening or closing a window leaves fewer frames, and the timer
alone. -/
private theorem Covered.replace {rx : RxBa (Stamped (Dated α))}
    {deadline : Option Nat} (h : Covered rx deadline) (tid : Fin 8)
    {o : Option (RxReorder (Stamped (Dated α)))}
    (ho : ∀ r, o = some r → r.stored = 0 ∧ r.held = []) :
    Covered (Function.update rx tid o) deadline := by
  refine h.fewer ?_ ?_
  · intro j r hr hst
    by_cases hj : j = tid
    · rw [hj, Function.update_self] at hr
      have h0 := (ho r hr).1
      omega
    · rw [Function.update_of_ne hj] at hr
      exact ⟨r, hr, hst⟩
  · intro j r y hr hy
    by_cases hj : j = tid
    · rw [hj, Function.update_self] at hr
      rw [(ho r hr).2] at hy
      cases hy
    · rw [Function.update_of_ne hj] at hr
      exact ⟨r, hr, hy⟩

/-- An operation leaves every frame covered exactly when it postpones
none's deadline. -/
private theorem timedTrackStep_covered_iff {s : TimedTrack α}
    (h : TimerInv s) (e : Nat × BaOp α) :
    Covered (timedTrackStep s e).track.ba.rxBa (timedTrackStep s e).deadline
      ↔ ¬ Postpones (s.track.ba.rxBa.map Prod.fst) (s.now + e.1) e.2 := by
  obtain ⟨delay, op⟩ := e
  cases op with
  | setup alloc tid ssn bufsize =>
      refine iff_of_true ?_ id
      have hneed : (rxBaSetup alloc tid ssn bufsize
          s.track.ba.rxBa).needTimer = false := rxBaSetup_needTimer ..
      show Covered (rxBaSetup alloc tid ssn bufsize s.track.ba.rxBa).rxBa
        (if (rxBaSetup alloc tid ssn bufsize s.track.ba.rxBa).needTimer
          then some (s.now + delay + kReorderTimeoutMs) else s.deadline)
      rw [hneed, if_neg (by decide)]
      rcases rxBaSetup_cases alloc tid ssn bufsize s.track.ba.rxBa with
        ⟨i, -, hrx, -⟩ | ⟨hrx, -⟩
      · rw [hrx]
        refine h.covered.replace i ?_
        rintro r ⟨⟩
        exact ⟨rfl, fresh_held ssn bufsize⟩
      · rw [hrx]
        exact h.covered
  | teardown tid =>
      refine iff_of_true ?_ id
      have hneed : (rxBaTeardown tid s.track.ba.rxBa).needTimer = false :=
        rxBaTeardown_needTimer ..
      show Covered (rxBaTeardown tid s.track.ba.rxBa).rxBa
        (if (rxBaTeardown tid s.track.ba.rxBa).needTimer
          then some (s.now + delay + kReorderTimeoutMs) else s.deadline)
      rw [hneed, if_neg (by decide)]
      rcases rxBaTeardown_cases tid s.track.ba.rxBa with
        ⟨i, hrx, -⟩ | ⟨hrx, -⟩
      · rw [hrx]
        refine h.covered.replace i ?_
        intro r hr
        cases hr
      · rw [hrx]
        exact h.covered
  | input tid skb sn =>
      exact input_covered_iff h.track h.covered _ tid skb sn
  | flush => exact flush_covered_iff h.track _

-- ================================================================= result

/-- The reorder timer. In every run of the four operations at any times,
every operation leaves the timer armed while frames wait, with a deadline
at most `kReorderTimeoutMs` after the arrival of each, exactly when no
operation of the run arms it while an older frame goes on waiting. -/
theorem timer_covers_iff (es : List (Nat × BaOp α)) :
    Along timedStep LeavesCovered Timed.init es
      ↔ Along timedStep InTime Timed.init es := by
  have hsame : ∀ C : Timed α → Nat × BaOp α → Prop,
      Along timedStep C Timed.init es
        ↔ Along timedTrackStep (fun s e => C s.erase e)
          ⟨Track.init, none, 0⟩ es := by
    intro C
    have hmap := along_map timedTrackStep_erase C
      (⟨Track.init, none, 0⟩ : TimedTrack α) es
    rw [List.map_id'] at hmap
    exact hmap
  have hinit : TimerInv (⟨Track.init, none, 0⟩ : TimedTrack α) :=
    ⟨TrackInv.init, fun _ _ hr => (by cases hr)⟩
  rw [hsame, hsame]
  have hiff : ∀ (s : TimedTrack α) (e : Nat × BaOp α), TimerInv s →
      (LeavesCovered s.erase e ↔ InTime s.erase e) := by
    intro s e h
    rw [LeavesCovered, timedTrackStep_erase, InTime]
    exact (timerCovers_erase (trackStep_inv h.track _).wins _).trans
      (timedTrackStep_covered_iff h e)
  refine along_iff_of_inv (I := TimerInv) hiff ?_ hinit es
  intro s e h hin
  exact ⟨trackStep_inv h.track _, (timedTrackStep_covered_iff h e).2 hin⟩

/-- A frame waits on TID 0 from time 0, and one on TID 1 from time 30:
the second input puts the deadline off from 60 to 90. -/
theorem deadline_postponed :
    ¬ Along timedStep LeavesCovered Timed.init
      [(0, .setup true 0 0 64), (0, .setup true 1 0 64),
        (0, .input 0 'a' 1), (30, .input 1 'b' 1)] := by
  rintro ⟨-, -, -, hlast, -⟩
  have hstored : ∃ r, (timedStep (timedStep (timedStep (timedStep
      (Timed.init : Timed Char) (0, .setup true 0 0 64))
      (0, .setup true 1 0 64)) (0, .input 0 'a' 1))
      (30, .input 1 'b' 1)).ba.rxBa 0 = some r ∧ r.active = true
        ∧ 0 < r.stored ∧ r.buf 1 = some ('a', 0) :=
    ⟨_, rfl, rfl, by decide, rfl⟩
  obtain ⟨r, hr, hact, hpos, hcell⟩ := hstored
  obtain ⟨d, hd, hall⟩ := hlast 0 r hr hact hpos
  have hle := hall 0 r hr 1 _ hcell
  have hdl : (90 : Nat) = d := Option.some.inj hd
  rw [← hdl, kReorderTimeoutMs] at hle
  omega

end Rtw88
