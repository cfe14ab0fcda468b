/-
One operation of the reorder buffer, on one window and on all eight.

`Progress` is what one operation does to one window: the chain of
advances of Proofs/Reorder/Window.lean with the frames that came in and
the frames that were dropped added to the balance (`accept_progress`,
`flush_progress`). `Sweep` is the same statement for all eight windows
at once, and it is what the run needs of an operation
(`rxReorderInput_sweep`, `rxReorderFlushStale_sweep`).

# The phases of an input

`accept` slides the window until the frame's number is in it, stores the
frame or drops it, and releases from the head on (`accept_phases`). After
the slide the number is less than the window's size away from the head
(`InWin.number_range`), so its cell is determined; it is taken only if
the window holds that number already, and that is the one reason to drop.

The output array has room for 64 frames and a window holds no more, so
the loops end at the window's end and not at the array's: each exit with
the array full leaves an empty window (`head_empty_of_exit`).

# Eight windows

An operation works on one window and leaves seven (`single`), and the
flush takes all eight in turn (`flush_fold`). What is held is a list over
all TIDs, so the balance is up to order, and what is delivered is filtered
by TID, so the order is each TID's own (`VnsIn.filterMap_self`).
-/
import Rtw88.Proofs.Reorder.Window
import Rtw88.Spec.HeadSlot

namespace Rtw88

variable {α : Type}

-- ============================================================ one window

/-- One operation on one window: `given` came in, `new` was delivered,
`gone` was dropped. -/
structure Progress (tid : Fin 8) (ep H : Nat) (r : RxReorder (Stamped α))
    (H' : Nat) (r' : RxReorder (Stamped α))
    (given new gone : List (Stamped α)) : Prop where
  le : H ≤ H'
  lt : H' < H + 4096
  win : InWin tid ep H' r'
  roomy : Roomy r'
  perm : (new ++ gone ++ r'.held).Perm (given ++ r.held)
  vns : VnsIn tid ep H H' new

/-- The distance of a frame's number is its distance from the head. -/
theorem InWin.number_mod {tid : Fin 8} {ep H : Nat}
    {r : RxReorder (Stamped α)} (h : InWin tid ep H r) (sn : Nat) :
    (H + snSub sn r.headSn) % 4096 = sn % 4096 := by
  have hhead := h.head
  simp only [snSub, modSub]
  omega

/-- After sliding for it, a frame's number is in the window. -/
theorem InWin.number_range {tid : Fin 8} {ep H : Nat}
    {r r₁ : RxReorder (Stamped α)} (h : InWin tid ep H r)
    (hsize : r₁.bufSize = r.bufSize) (sn : Nat) :
    H + r.slideBy sn ≤ H + snSub sn r.headSn
      ∧ H + snSub sn r.headSn < H + r.slideBy sn + r₁.bufSize := by
  have hpos := h.size_pos
  rw [hsize, RxReorder.slideBy]
  omega

/-- The slide phase of `accept`. -/
private theorem accept_slide {tid : Fin 8} {ep H : Nat}
    {r : RxReorder (Stamped α)} (h : InWin tid ep H r) (hroom : Roomy r)
    {sn : Nat} (hrel : snSub sn r.headSn < 2048) :
    ∃ r₁ out₁,
      (if r.bufSize ≤ snSub sn r.headSn then
        slide ((sn + 1 + 4096 - r.bufSize) % 4096)
          (snSub ((sn + 1 + 4096 - r.bufSize) % 4096) r.headSn) (r, [])
        else (r, [])) = (r₁, out₁)
      ∧ Moved tid ep H r (H + r.slideBy sn) r₁ out₁ := by
  have hsize := h.size_le
  have hpos := h.size_pos
  split
  next hbeyond =>
    have hk : snSub ((sn + 1 + 4096 - r.bufSize) % 4096) r.headSn
        = snSub sn r.headSn + 1 - r.bufSize := by
      have hhead := h.head
      simp only [snSub, modSub] at hrel hbeyond ⊢
      omega
    obtain ⟨r₁, new, heq, hmv⟩ := slide_moved
      ((sn + 1 + 4096 - r.bufSize) % 4096)
      (snSub sn r.headSn + 1 - r.bufSize) [] h
      (by simpa [Roomy] using hroom) hk (by omega)
    rw [hk]
    exact ⟨r₁, new, by simpa using heq, hmv⟩
  next hin =>
    have hstay : r.slideBy sn = 0 := by
      rw [RxReorder.slideBy]
      omega
    rw [hstay]
    exact ⟨r, [], rfl, Moved.refl h⟩

/-- The store-or-drop phase of `accept`. -/
theorem insert_inWin {tid : Fin 8} {ep H v sn : Nat}
    {r : RxReorder (Stamped α)} {x : Stamped α} (h : InWin tid ep H r)
    (hx : x.2 = some ⟨tid, ep, v⟩) (hv : v % 4096 = sn % 4096)
    (hlo : H ≤ v) (hhi : v < H + r.bufSize) :
    InWin tid ep H (r.insert x sn).1
      ∧ ((r.insert x sn).2 ++ (r.insert x sn).1.held).Perm (x :: r.held)
      ∧ (r.insert x sn).1.stored ≤ r.stored + 1
      ∧ ((r.insert x sn).2 = []
        ∨ ((r.insert x sn).2 = [x] ∧ ∃ y ∈ r.held, y.2 = x.2)) := by
  have hcell : cellOf sn = cellOf v := by
    rw [← cellOf_mod sn, ← hv, cellOf_mod]
  have hsize := h.size_le
  rw [RxReorder.insert]
  cases hb : r.buf (cellOf sn) with
  | some y =>
      obtain ⟨vn, hs, hlo', hhi', hc⟩ := h.cell _ y hb
      have heq : v = vn := eq_of_cellOf_eq hlo (by omega) hlo' (by omega)
        (hcell.symm.trans hc)
      refine ⟨h, List.Perm.refl _, by simp, .inr ⟨rfl, y, ?_, ?_⟩⟩
      · exact mem_cells.2 ⟨_, hb⟩
      · rw [hs, hx, heq]
  | none =>
      have hfill := cells_fill_perm x hb
      refine ⟨⟨h.active, h.size_pos, h.size_le, h.head, ?_, ?_⟩, hfill,
        le_refl _, .inl rfl⟩
      · intro i y hi
        by_cases hcase : i = cellOf sn
        · have hxy : x = y := by simpa [hcase] using hi
          exact ⟨v, by rw [← hxy, hx], hlo, hhi, by rw [hcase, hcell]⟩
        · exact h.cell i y (by simpa [hcase] using hi)
      · have hlen := hfill.length_eq
        rw [List.length_cons] at hlen
        show r.stored + 1 = (cells _).length
        rw [hlen, h.count]
        rfl

/-- An exit of `release` with the array full has emptied the window: so
in every case nothing stands in the head's cell. -/
private theorem head_empty_of_exit {tid : Fin 8} {ep H : Nat}
    {r : RxReorder (Stamped α)} (h : InWin tid ep H r)
    (hexit : r.stored = 0 ∨ r.buf (cellOf r.headSn) = none) :
    r.buf (cellOf r.headSn) = none := by
  rcases hexit with h0 | hnone
  · cases hb : r.buf (cellOf r.headSn) with
    | none => rfl
    | some y =>
        have hmem : y ∈ r.held := mem_cells.2 ⟨_, hb⟩
        have hpos := List.length_pos_of_mem hmem
        have hcount := h.count
        omega
  · exact hnone

/-- The phases of `accept`: slide to `r₁`, store or drop, release to
`r'`. The array has room for both loops, so the last one stops at a
hole. -/
theorem accept_phases {tid : Fin 8} {ep H : Nat}
    {r : RxReorder (Stamped α)} (h : InWin tid ep H r) (hroom : Roomy r)
    {sn : Nat} (hrel : snSub sn r.headSn < 2048) {x : Stamped α}
    (hx : x.2 = some ⟨tid, ep, H + snSub sn r.headSn⟩) :
    ∃ r₁ out₁ H' r' new,
      r.accept x sn = (r', out₁ ++ new, (r₁.insert x sn).2)
      ∧ release (r₁.insert x sn).1.stored ((r₁.insert x sn).1, out₁)
        = (r', out₁ ++ new)
      ∧ Moved tid ep H r (H + r.slideBy sn) r₁ out₁
      ∧ Moved tid ep (H + r.slideBy sn) (r₁.insert x sn).1 H' r' new
      ∧ H' ≤ H + r.slideBy sn + (r₁.stored + 1)
      ∧ r'.buf (cellOf r'.headSn) = none := by
  obtain ⟨r₁, out₁, hslide, hmv⟩ := accept_slide h hroom hrel
  have hst₁ := hmv.stored h
  have hpos := h.size_pos
  obtain ⟨hlo, hhi⟩ := h.number_range hmv.size sn
  obtain ⟨hwin₂, -, hst₂, -⟩ := insert_inWin hmv.win hx
    (h.number_mod sn) hlo hhi
  obtain ⟨H', r', new, hrel', hmv', hle', hexit⟩ :=
    release_moved _ out₁ hwin₂ rfl
  have hst' := hmv'.stored hwin₂
  have hacc : r.accept x sn = (r', out₁ ++ new, (r₁.insert x sn).2) := by
    simp only [RxReorder.accept]
    rw [hslide]
    simp only [hrel']
  refine ⟨r₁, out₁, H', r', new, hacc, hrel', hmv, hmv', by omega,
    head_empty_of_exit hmv'.win ?_⟩
  rw [Roomy] at hroom
  rcases hexit with h0 | hfull | hhole
  · exact .inl h0
  · rw [List.length_append, kRxBaMaxBuf] at hfull
    exact .inl (by omega)
  · exact .inr hhole

/-- `accept` leaves the head's cell empty. -/
theorem accept_head_empty {tid : Fin 8} {ep H : Nat}
    {r : RxReorder (Stamped α)} (h : InWin tid ep H r) (hroom : Roomy r)
    {sn : Nat} (hrel : snSub sn r.headSn < 2048) {x : Stamped α}
    (hx : x.2 = some ⟨tid, ep, H + snSub sn r.headSn⟩) :
    (r.accept x sn).1.buf (cellOf (r.accept x sn).1.headSn) = none := by
  obtain ⟨_, _, _, _, _, hacc, -, -, -, -, hnone⟩ :=
    accept_phases h hroom hrel hx
  rw [hacc]
  exact hnone

/-- `accept`: slide, store or drop, release. Only a frame whose number
the window already holds is dropped. -/
theorem accept_progress {tid : Fin 8} {ep H : Nat}
    {r : RxReorder (Stamped α)} (h : InWin tid ep H r) (hroom : Roomy r)
    {sn : Nat} (hrel : snSub sn r.headSn < 2048) {x : Stamped α}
    (hx : x.2 = some ⟨tid, ep, H + snSub sn r.headSn⟩) :
    (∃ H', Progress tid ep H r H' (r.accept x sn).1 [x]
        (r.accept x sn).2.1 (r.accept x sn).2.2)
      ∧ ((r.accept x sn).2.2 = []
        ∨ ((r.accept x sn).2.2 = [x] ∧ ∃ y ∈ r.held, y.2 = x.2)) := by
  obtain ⟨r₁, out₁, H', r', new, hacc, -, hmv, hmv', hle', hhole⟩ :=
    accept_phases h hroom hrel hx
  obtain ⟨hlo, hhi⟩ := h.number_range hmv.size sn
  obtain ⟨-, hperm₂, -, hdup⟩ := insert_inWin hmv.win hx
    (h.number_mod sn) hlo hhi
  have hst₁ := hmv.stored h
  have hroom' : Roomy r' := by
    rw [Roomy, hmv'.win.count]
    exact cells_length_lt hhole
  have hdup' : (r₁.insert x sn).2 = []
      ∨ ((r₁.insert x sn).2 = [x] ∧ ∃ y ∈ r.held, y.2 = x.2) := by
    rcases hdup with hnil | ⟨hone, y, hy, hyx⟩
    · exact .inl hnil
    · refine .inr ⟨hone, y, ?_, hyx⟩
      exact hmv.perm.mem_iff.1 (List.mem_append_right _ hy)
  rw [hacc]
  refine ⟨⟨H', ?_⟩, hdup'⟩
  have hle := hmv.le
  have hle₂ := hmv'.le
  have hpos := h.size_pos
  rw [Roomy] at hroom
  rw [RxReorder.slideBy] at hle'
  refine ⟨by omega, by omega, hmv'.win, hroom', ?_, ?_⟩
  · -- out₁ left the window, x entered, new left
    have hbal : (new ++ ((r₁.insert x sn).2 ++ r'.held)).Perm
        ([x] ++ r₁.held) :=
      (List.perm_append_comm_assoc _ _ _).trans
        ((hmv'.perm.append_left _).trans hperm₂)
    have hassoc : out₁ ++ new ++ (r₁.insert x sn).2 ++ r'.held
        = out₁ ++ (new ++ ((r₁.insert x sn).2 ++ r'.held)) := by
      simp only [List.append_assoc]
    rw [hassoc]
    exact (hbal.append_left out₁).trans
      ((List.perm_append_comm_assoc _ _ _).trans (hmv.perm.append_left [x]))
  · exact hmv.vns.append hmv'.vns hle hle₂

/-- The flush's turn at one window. -/
theorem flush_progress {tid : Fin 8} {ep H : Nat}
    {r : RxReorder (Stamped α)} (h : InWin tid ep H r) (hroom : Roomy r)
    (out : List (Stamped α)) :
    ∃ H' r' new,
      release (skipHoles 4096 r).stored (skipHoles 4096 r, out)
        = (r', out ++ new)
      ∧ Progress tid ep H r H' r' [] new [] := by
  obtain ⟨H₁, hmv, hlt⟩ := skipHoles_moved 4096 h
  have hst := hmv.stored h
  obtain ⟨H', r', new, heq, hmv', hle', -⟩ :=
    release_moved _ out hmv.win rfl
  have hst' := hmv'.stored hmv.win
  have hall := hmv.trans hmv'
  rw [Roomy] at hroom
  simp only [List.length_nil, Nat.zero_add] at hst
  refine ⟨H', r', new, heq, hall.le, by omega, hall.win, ?_, ?_, ?_⟩
  · rw [Roomy]
    omega
  · simpa using hall.perm
  · simpa using hall.vns

-- =========================================================== all windows

/-- Every open window stands at its unrolled head, with room. -/
def AllWin (ep H : Fin 8 → Nat) (rx : RxBa (Stamped α)) : Prop :=
  ∀ i r, rx i = some r → InWin i (ep i) (H i) r ∧ Roomy r

/-- One operation on all windows: `given` came in, `new` was delivered,
`gone` was dropped, no window opened or closed. -/
structure Sweep (ep H : Fin 8 → Nat) (rx : RxBa (Stamped α))
    (H' : Fin 8 → Nat) (rx' : RxBa (Stamped α))
    (given new gone : List (Stamped α)) : Prop where
  le : ∀ i, H i ≤ H' i
  wins : AllWin ep H' rx'
  idle : ∀ i, rx i = none → H' i = H i ∧ rx' i = none
  busy : ∀ i, (rx i).isSome → (rx' i).isSome
  perm : (new ++ gone ++ rx'.held).Perm (given ++ rx.held)
  order : ∀ i, (new.filterMap (vnIn i (ep i))).Pairwise (· < ·)
  range : ∀ i, ∀ v ∈ new.filterMap (vnIn i (ep i)), H i ≤ v ∧ v < H' i
  epochs : ∀ x ∈ new, ∀ s, x.2 = some s → s.epoch = ep s.tid

/-- What a window slot holds. -/
def heldOf (o : Option (RxReorder α)) : List α :=
  match o with
  | some r => r.held
  | none => []

/-- Replacing one window changes what is held by what that window held,
up to order. -/
theorem held_update_perm {rx : RxBa α} {tid : Fin 8}
    {o : Option (RxReorder α)} {as bs : List α}
    (h : (as ++ heldOf o).Perm (bs ++ heldOf (rx tid))) :
    (as ++ RxBa.held (Function.update rx tid o)).Perm (bs ++ rx.held) := by
  refine flatMap_update_perm (f := fun i => heldOf (rx i))
    (g := fun i => heldOf (Function.update rx tid o i))
    (List.nodup_finRange 8) (List.mem_finRange tid) ?_ ?_
  · intro j hj
    rw [Function.update_of_ne hj]
  · simpa using h

private theorem vnIn_eq (i : Fin 8) (e : Nat) (l : List (Stamped α)) :
    l.filterMap (vnIn i e) = (l.map Prod.snd).filterMap (fun o =>
      o.bind fun s => if s.tid = i ∧ s.epoch = e then some s.vn else none) := by
  rw [List.filterMap_map]
  rfl

/-- A window's own numbers are what its TID's filter finds. -/
private theorem VnsIn.filterMap_self {tid : Fin 8} {ep H H' : Nat}
    {new : List (Stamped α)} (h : VnsIn tid ep H H' new) :
    (new.filterMap (vnIn tid ep)).Pairwise (· < ·)
      ∧ ∀ v ∈ new.filterMap (vnIn tid ep), H ≤ v ∧ v < H' := by
  obtain ⟨vs, hvs, hord, hrng⟩ := h
  have heq : new.filterMap (vnIn tid ep) = vs := by
    rw [vnIn_eq, hvs, List.filterMap_map]
    simp
  rw [heq]
  exact ⟨hord, hrng⟩

/-- Another TID's filter finds nothing. -/
private theorem VnsIn.filterMap_other {tid i : Fin 8} {ep H H' e : Nat}
    {new : List (Stamped α)} (h : VnsIn tid ep H H' new) (hi : i ≠ tid) :
    new.filterMap (vnIn i e) = [] := by
  obtain ⟨vs, hvs, -, -⟩ := h
  rw [vnIn_eq, hvs, List.filterMap_map]
  simp [hi.symm]

private theorem VnsIn.stamp_of_mem {tid : Fin 8} {ep H H' : Nat}
    {new : List (Stamped α)} (h : VnsIn tid ep H H' new) {x : Stamped α}
    (hx : x ∈ new) : ∃ v, x.2 = some ⟨tid, ep, v⟩ := by
  obtain ⟨vs, hvs, -, -⟩ := h
  have hmem : x.2 ∈ new.map Prod.snd := List.mem_map_of_mem hx
  rw [hvs] at hmem
  obtain ⟨v, -, hv⟩ := List.mem_map.1 hmem
  exact ⟨v, hv.symm⟩

namespace Sweep

variable {ep H : Fin 8 → Nat} {rx : RxBa (Stamped α)}

theorem refl (h : AllWin ep H rx) : Sweep ep H rx H rx [] [] [] :=
  ⟨fun _ => le_refl _, h, fun _ hi => ⟨rfl, hi⟩, fun _ hi => hi,
    List.Perm.refl _, fun _ => by simp, fun _ => by simp, by simp⟩

/-- A frame that no window is open for passes through. -/
theorem pass (h : AllWin ep H rx) {x : Stamped α} (hx : x.2 = none) :
    Sweep ep H rx H rx [x] [x] [] := by
  have hnone : ∀ i e, [x].filterMap (vnIn i e) = [] := by
    intro i e
    simp [vnIn, hx]
  refine ⟨fun _ => le_refl _, h, fun _ hi => ⟨rfl, hi⟩, fun _ hi => hi,
    by simp, fun i => ?_, fun i => ?_, ?_⟩
  · rw [hnone]
    exact List.Pairwise.nil
  · rw [hnone]
    simp
  · intro y hy s hs
    rw [List.mem_singleton.1 hy, hx] at hs
    cases hs

/-- A frame before the window is dropped. -/
theorem drop (h : AllWin ep H rx) (x : Stamped α) :
    Sweep ep H rx H rx [x] [] [x] :=
  ⟨fun _ => le_refl _, h, fun _ hi => ⟨rfl, hi⟩, fun _ hi => hi,
    by simp, fun _ => by simp, fun _ => by simp, by simp⟩

/-- Progress on one window leaves the others alone. -/
theorem single (h : AllWin ep H rx) {tid : Fin 8}
    {r r' : RxReorder (Stamped α)} {H' : Nat}
    {given new gone : List (Stamped α)} (hr : rx tid = some r)
    (hp : Progress tid (ep tid) (H tid) r H' r' given new gone) :
    Sweep ep H rx (Function.update H tid H')
      (Function.update rx tid (some r')) given new gone := by
  obtain ⟨hord, hrng⟩ := hp.vns.filterMap_self
  refine ⟨?_, ?_, ?_, ?_, ?_, ?_, ?_, ?_⟩
  · intro i
    by_cases hi : i = tid
    · subst hi
      simpa using hp.le
    · simp [hi]
  · intro i w hw
    by_cases hi : i = tid
    · subst hi
      simp only [Function.update_self, Option.some.injEq] at hw ⊢
      subst hw
      exact ⟨hp.win, hp.roomy⟩
    · simp only [Function.update_of_ne hi] at hw ⊢
      exact h i w hw
  · intro i hi
    have hne : i ≠ tid := fun heq => by simp [heq, hr] at hi
    simp [hne, hi]
  · intro i hi
    by_cases heq : i = tid
    · simp [heq]
    · simpa [heq] using hi
  · refine held_update_perm ?_
    rw [hr]
    exact hp.perm
  · intro i
    by_cases hi : i = tid
    · subst hi
      exact hord
    · rw [hp.vns.filterMap_other hi]
      exact List.Pairwise.nil
  · intro i v hv
    by_cases hi : i = tid
    · subst hi
      simpa using hrng v hv
    · rw [hp.vns.filterMap_other hi] at hv
      cases hv
  · intro x hx s hs
    obtain ⟨v, hv⟩ := hp.vns.stamp_of_mem hx
    rw [hv] at hs
    cases hs
    rfl

theorem trans {H₂ H₃ : Fin 8 → Nat} {rx₂ rx₃ : RxBa (Stamped α)}
    {as bs : List (Stamped α)} (h : Sweep ep H rx H₂ rx₂ [] as [])
    (h' : Sweep ep H₂ rx₂ H₃ rx₃ [] bs []) :
    Sweep ep H rx H₃ rx₃ [] (as ++ bs) [] := by
  refine ⟨fun i => (h.le i).trans (h'.le i), h'.wins, ?_,
    fun i hi => h'.busy i (h.busy i hi), ?_, ?_, ?_, ?_⟩
  · intro i hi
    obtain ⟨hH, hrx⟩ := h.idle i hi
    obtain ⟨hH', hrx'⟩ := h'.idle i hrx
    exact ⟨hH'.trans hH, hrx'⟩
  · have hperm := h.perm
    have hperm' := h'.perm
    simp only [List.append_nil, List.nil_append] at hperm hperm' ⊢
    rw [List.append_assoc]
    exact (hperm'.append_left as).trans hperm
  · intro i
    rw [List.filterMap_append]
    refine List.pairwise_append.2 ⟨h.order i, h'.order i, fun v hv w hw => ?_⟩
    have hv' := (h.range i v hv).2
    have hw' := (h'.range i w hw).1
    omega
  · intro i v hv
    rw [List.filterMap_append] at hv
    have hle := h.le i
    have hle' := h'.le i
    rcases List.mem_append.1 hv with hv | hv
    · have := h.range i v hv
      omega
    · have := h'.range i v hv
      omega
  · intro x hx
    rcases List.mem_append.1 hx with hx | hx
    · exact h.epochs x hx
    · exact h'.epochs x hx

/-- Moved less than a full circle, an unrolled head follows its residue. -/
theorem head_eq {H' : Fin 8 → Nat} {rx' : RxBa (Stamped α)}
    {given new gone : List (Stamped α)} (hw : AllWin ep H rx)
    (h : Sweep ep H rx H' rx' given new gone)
    (hlt : ∀ i, H' i < H i + 4096) :
    H' = fun i => H i + headMove (rx i) (rx' i) := by
  funext i
  cases hr : rx i with
  | none => simpa [headMove] using (h.idle i hr).1
  | some r =>
      obtain ⟨r', hr'⟩ := Option.isSome_iff_exists.1 (h.busy i (by simp [hr]))
      have hhead := (hw i r hr).1.head
      have hhead' := (h.wins i r' hr').1.head
      have hle := h.le i
      have hlt' := hlt i
      obtain ⟨k, hk⟩ := Nat.exists_eq_add_of_le hle
      rw [hr', headMove, hhead, hhead', hk, snSub,
        modSub_add (H i) (by omega)]

end Sweep

-- ============================================================ operations

/-- `rxReorderInput` is a sweep, and drops only a frame before the window
or one whose number the window holds. -/
theorem rxReorderInput_sweep {ep H : Fin 8 → Nat} {rx : RxBa (Stamped α)}
    (h : AllWin ep H rx) (tid : Fin 8) (x : Stamped α) (sn : Nat)
    (hx : x.2 = (rx tid).map fun r =>
      ⟨tid, ep tid, H tid + snSub sn r.headSn⟩) :
    (∃ H', Sweep ep H rx H' (rxReorderInput tid x sn rx).rxBa [x]
        (rxReorderInput tid x sn rx).out (rxReorderInput tid x sn rx).freed
      ∧ ∀ i, H' i < H i + 4096)
    ∧ ((rxReorderInput tid x sn rx).freed = []
      ∨ ((rxReorderInput tid x sn rx).freed = [x] ∧ ∃ r, rx tid = some r
        ∧ (2048 ≤ snSub sn r.headSn ∨ ∃ y ∈ r.held, y.2 = x.2))) := by
  have hstay : ∀ i, H i < H i + 4096 := fun i => by omega
  rw [rxReorderInput]
  cases hr : rx tid with
  | none =>
      rw [hr] at hx
      exact ⟨⟨H, Sweep.pass h hx, hstay⟩, .inl rfl⟩
  | some r =>
      rw [hr, Option.map_some] at hx
      obtain ⟨hwin, hroom⟩ := h tid r hr
      have hact : ¬ r.active = false := by
        rw [hwin.active]
        decide
      simp only [if_neg hact]
      by_cases hstale : 2048 ≤ snSub sn r.headSn
      · rw [if_pos hstale]
        exact ⟨⟨H, Sweep.drop h x, hstay⟩, .inr ⟨rfl, r, rfl, .inl hstale⟩⟩
      · rw [if_neg hstale]
        obtain ⟨⟨H', hp⟩, hdup⟩ :=
          accept_progress hwin hroom (by omega) hx
        refine ⟨⟨_, Sweep.single h hr hp, fun i => ?_⟩, ?_⟩
        · by_cases hi : i = tid
          · subst hi
            simpa using hp.lt
          · simp [hi]
        · rcases hdup with hnil | ⟨hone, hheld⟩
          · exact .inl hnil
          · exact .inr ⟨hone, r, rfl, .inr hheld⟩

/-- The flush over a list of TIDs, each taken once. -/
private theorem flush_fold {ep : Fin 8 → Nat} (l : List (Fin 8))
    (hnd : l.Nodup) {H : Fin 8 → Nat} {rx : RxBa (Stamped α)}
    (h : AllWin ep H rx) (out : List (Stamped α)) (again : Bool) :
    ∃ H' rx' new again',
      l.foldl flushTid (rx, out, again) = (rx', out ++ new, again')
      ∧ Sweep ep H rx H' rx' [] new []
      ∧ (∀ i, H' i < H i + 4096) ∧ ∀ i, i ∉ l → H' i = H i := by
  induction l generalizing H rx out again with
  | nil =>
      exact ⟨H, rx, [], again, by simp, Sweep.refl h, fun i => by omega,
        fun _ _ => rfl⟩
  | cons tid l ih =>
      obtain ⟨hnotin, hnd'⟩ := List.nodup_cons.1 hnd
      -- this TID's turn
      have hturn : ∃ H₁ rx₁ new₁ again₁,
          flushTid (rx, out, again) tid = (rx₁, out ++ new₁, again₁)
          ∧ Sweep ep H rx H₁ rx₁ [] new₁ []
          ∧ H₁ tid < H tid + 4096 ∧ ∀ i, i ≠ tid → H₁ i = H i := by
        have hidle : ∃ H₁ rx₁ new₁ again₁,
            ((rx, out, again) : RxBa (Stamped α) × List (Stamped α) × Bool)
              = (rx₁, out ++ new₁, again₁)
            ∧ Sweep ep H rx H₁ rx₁ [] new₁ []
            ∧ H₁ tid < H tid + 4096 ∧ ∀ i, i ≠ tid → H₁ i = H i :=
          ⟨H, rx, [], again, by simp, Sweep.refl h, by omega, fun _ _ => rfl⟩
        simp only [flushTid]
        cases hr : rx tid with
        | none => exact hidle
        | some r =>
            simp only
            split
            next => exact hidle
            next =>
              obtain ⟨hwin, hroom⟩ := h tid r hr
              obtain ⟨H₁, r₁, new₁, heq, hp⟩ := flush_progress hwin hroom out
              simp only [heq]
              refine ⟨_, _, new₁, _, rfl, Sweep.single h hr hp, ?_, ?_⟩
              · simpa using hp.lt
              · intro i hi
                simp [hi]
      obtain ⟨H₁, rx₁, new₁, again₁, heq, hsw, hlt, hsame⟩ := hturn
      obtain ⟨H', rx', new, again', heq', hsw', hlt', hsame'⟩ :=
        ih hnd' hsw.wins (out ++ new₁) again₁
      refine ⟨H', rx', new₁ ++ new, again', ?_, hsw.trans hsw', ?_, ?_⟩
      · rw [List.foldl_cons, heq, heq', List.append_assoc]
      · intro i
        by_cases hi : i = tid
        · rw [hi, hsame' tid hnotin]
          exact hlt
        · rw [← hsame i hi]
          exact hlt' i
      · intro i hi
        obtain ⟨hne, hni⟩ := not_or.1 (fun hor => hi (List.mem_cons.2 hor))
        rw [hsame' i hni, hsame i hne]

/-- `rxReorderFlushStale` is a sweep. -/
theorem rxReorderFlushStale_sweep {ep H : Fin 8 → Nat}
    {rx : RxBa (Stamped α)} (h : AllWin ep H rx) :
    ∃ H', Sweep ep H rx H' (rxReorderFlushStale rx).rxBa []
        (rxReorderFlushStale rx).out (rxReorderFlushStale rx).freed
      ∧ ∀ i, H' i < H i + 4096 := by
  obtain ⟨H', rx', new, again', heq, hsw, hlt, -⟩ :=
    flush_fold (List.finRange 8) (List.nodup_finRange 8) h [] false
  rw [List.nil_append] at heq
  simp only [rxReorderFlushStale, heq]
  exact ⟨H', hsw, hlt⟩

/-- Replacing one window by a fresh one, or by none, frees what it
held. -/
theorem held_replace_perm {rx : RxBa α} {tid : Fin 8}
    {o : Option (RxReorder α)} (ho : ∀ r, o = some r → r.held = []) :
    (heldOf (rx tid) ++ RxBa.held (Function.update rx tid o)).Perm
      rx.held := by
  have hnil : heldOf o = [] := by
    cases o with
    | none => rfl
    | some r => exact ho r rfl
  refine @held_update_perm _ _ _ _ _ [] ?_
  rw [hnil, List.append_nil, List.nil_append]

end Rtw88
