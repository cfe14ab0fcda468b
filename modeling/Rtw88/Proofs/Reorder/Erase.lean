/-
The reorder code commutes with renaming frames.

`rxReorderInput` and the other operations move frames between cells and
lists and never look into one, so running them on renamed frames is
renaming the frames of the run (`BaOp.apply_map`). With the renaming
that drops stamps this makes the stamps of Spec/ReorderRun.lean ghosts:
`track_erase` says that the stamped run is the plain run of the code
with stamps attached.

That is what lets the invariants speak of stamped frames and the results
of the code: a stamp is part of the frame in the first run, and no branch
of the code can have gone by it. The lemmas follow the code, one a
function; a cell that is filled or cleared is renamed cell by cell
(`RxBa.map_update`).
-/
import Rtw88.Spec.ReorderRun

namespace Rtw88

variable {α β : Type}

-- ============================================================ one window

/-- The head slot released, and the head moved on. -/
theorem RxReorder.advance_map (f : α → β) (r : RxReorder α) :
    (r.map f).advance
      = (r.advance.1.map f, r.advance.2.map f) := by
  have hb : (r.map f).buf (cellOf (r.map f).headSn)
      = (r.buf (cellOf r.headSn)).map f := rfl
  rw [RxReorder.advance, RxReorder.advance, hb]
  cases hx : r.buf (cellOf r.headSn) with
  | none => rfl
  | some x =>
      have hupd : Function.update (r.map f).buf (cellOf r.headSn) none
          = fun i => (Function.update r.buf (cellOf r.headSn) none i).map f := by
        funext i
        by_cases hi : i = cellOf r.headSn
        · subst hi
          simp
        · simp [RxReorder.map, hi]
      simp only [Option.map_some, RxReorder.map, List.map_cons, List.map_nil]
      rw [← hupd]
      rfl

/-- The window slid to a new head. -/
theorem slide_map (f : α → β) (newHead k : Nat) (r : RxReorder α)
    (out : List α) :
    slide newHead k (r.map f, out.map f)
      = ((slide newHead k (r, out)).1.map f,
          (slide newHead k (r, out)).2.map f) := by
  induction k generalizing r out with
  | zero => rfl
  | succ k ih =>
      rw [slide, slide, List.length_map]
      by_cases hc : snSub newHead r.headSn ≠ 0
          ∧ snSub newHead r.headSn < 2048 ∧ out.length < kRxBaMaxBuf
      · have hc' : snSub newHead (r.map f).headSn ≠ 0
            ∧ snSub newHead (r.map f).headSn < 2048
            ∧ out.length < kRxBaMaxBuf := hc
        rw [if_pos hc, if_pos hc', RxReorder.advance_map, ← List.map_append, ih]
      · have hc' : ¬ (snSub newHead (r.map f).headSn ≠ 0
            ∧ snSub newHead (r.map f).headSn < 2048
            ∧ out.length < kRxBaMaxBuf) := hc
        rw [if_neg hc, if_neg hc']

/-- The frames in a row behind the head released. -/
theorem release_map (f : α → β) (k : Nat) (r : RxReorder α)
    (out : List α) :
    release k (r.map f, out.map f)
      = ((release k (r, out)).1.map f, (release k (r, out)).2.map f) := by
  induction k generalizing r out with
  | zero => rfl
  | succ k ih =>
      have hsome : ((r.map f).buf (cellOf (r.map f).headSn)).isSome
          = (r.buf (cellOf r.headSn)).isSome := by
        show ((r.buf (cellOf r.headSn)).map f).isSome = _
        simp
      have hstored : (r.map f).stored = r.stored := rfl
      rw [release, release, List.length_map, hsome, hstored]
      split
      · rw [RxReorder.advance_map, ← List.map_append, ih]
      · rfl

theorem skipHoles_map (f : α → β) (k : Nat) (r : RxReorder α) :
    skipHoles k (r.map f) = (skipHoles k r).map f := by
  induction k generalizing r with
  | zero => rfl
  | succ k ih =>
      have hnone : ((r.map f).buf (cellOf (r.map f).headSn)).isNone
          = (r.buf (cellOf r.headSn)).isNone := by
        show ((r.buf (cellOf r.headSn)).map f).isNone = _
        simp
      have hstored : (r.map f).stored = r.stored := rfl
      rw [skipHoles, skipHoles, hnone, hstored]
      split
      · exact ih { r with headSn := snNext r.headSn }
      · rfl

theorem RxReorder.insert_map (f : α → β) (r : RxReorder α) (skb : α)
    (sn : Nat) :
    (r.map f).insert (f skb) sn
      = ((r.insert skb sn).1.map f, (r.insert skb sn).2.map f) := by
  have hb : (r.map f).buf (cellOf sn) = (r.buf (cellOf sn)).map f := rfl
  rw [RxReorder.insert, RxReorder.insert, hb]
  cases hx : r.buf (cellOf sn) with
  | some x => rfl
  | none =>
      have hupd : Function.update (r.map f).buf (cellOf sn) (some (f skb))
          = fun i =>
            (Function.update r.buf (cellOf sn) (some skb) i).map f := by
        funext i
        by_cases hi : i = cellOf sn
        · subst hi
          simp
        · simp [RxReorder.map, hi]
      simp only [Option.map_none, RxReorder.map, List.map_nil]
      rw [← hupd]
      rfl

/-- A frame accepted: inserted, or released at once. -/
theorem RxReorder.accept_map (f : α → β) (r : RxReorder α) (skb : α)
    (sn : Nat) :
    (r.map f).accept (f skb) sn
      = ((r.accept skb sn).1.map f, (r.accept skb sn).2.1.map f,
          (r.accept skb sn).2.2.map f) := by
  have hslid : (if (r.map f).bufSize ≤ snSub sn (r.map f).headSn then
        slide ((sn + 1 + 4096 - (r.map f).bufSize) % 4096)
          (snSub ((sn + 1 + 4096 - (r.map f).bufSize) % 4096)
            (r.map f).headSn) (r.map f, [])
      else (r.map f, []))
      = (fun ro : RxReorder α × List α => (ro.1.map f, ro.2.map f))
        (if r.bufSize ≤ snSub sn r.headSn then
          slide ((sn + 1 + 4096 - r.bufSize) % 4096)
            (snSub ((sn + 1 + 4096 - r.bufSize) % 4096) r.headSn) (r, [])
        else (r, [])) := by
    by_cases hc : r.bufSize ≤ snSub sn r.headSn
    · have hc' : (r.map f).bufSize ≤ snSub sn (r.map f).headSn := hc
      rw [if_pos hc, if_pos hc']
      exact slide_map f _ _ r []
    · have hc' : ¬ (r.map f).bufSize ≤ snSub sn (r.map f).headSn := hc
      rw [if_neg hc, if_neg hc']
      rfl
  simp only [RxReorder.accept]
  rw [hslid]
  simp only [RxReorder.insert_map, release_map]
  rfl

-- =========================================================== all windows

/-- A window update commutes with renaming. -/
theorem RxBa.map_update (f : α → β) (rx : RxBa α) (tid : Fin 8)
    (v : Option (RxReorder α)) :
    RxBa.map f (Function.update rx tid v)
      = Function.update (rx.map f) tid (v.map (RxReorder.map f)) := by
  funext i
  by_cases hi : i = tid
  · subst hi
    simp [RxBa.map]
  · simp [RxBa.map, hi]

theorem RxReorder.held_map (f : α → β) (r : RxReorder α) :
    (r.map f).held = r.held.map f :=
  cells_map f r.buf

theorem RxBa.held_map (f : α → β) (rx : RxBa α) :
    (rx.map f).held = rx.held.map f := by
  rw [RxBa.held, RxBa.held, List.map_flatMap]
  refine List.flatMap_congr fun tid _ => ?_
  have hrx : rx.map f tid = (rx tid).map (RxReorder.map f) := rfl
  rw [hrx]
  cases rx tid with
  | none => rfl
  | some r => exact r.held_map f

theorem rxReorderInput_map (f : α → β) (tid : Fin 8) (skb : α) (sn : Nat)
    (rx : RxBa α) :
    rxReorderInput tid (f skb) sn (rx.map f)
      = (rxReorderInput tid skb sn rx).map f := by
  have hrx : rx.map f tid = (rx tid).map (RxReorder.map f) := rfl
  rw [rxReorderInput, rxReorderInput, hrx]
  cases hr : rx tid with
  | none => rfl
  | some r =>
      have hact : (r.map f).active = r.active := rfl
      have hhead : (r.map f).headSn = r.headSn := rfl
      simp only [Option.map_some, hact, hhead, RxReorder.accept_map]
      split
      · rfl
      · split
        · rfl
        · simp only [RxOut.map, RxBa.map_update, Option.map_some]
          rfl

theorem rxBaSetup_map (f : α → β) (alloc : Bool) (tid ssn bufsize : Nat)
    (rx : RxBa α) :
    rxBaSetup alloc tid ssn bufsize (rx.map f)
      = (rxBaSetup alloc tid ssn bufsize rx).map f := by
  rw [rxBaSetup, rxBaSetup]
  split
  next h =>
    have hrx : rx.map f ⟨tid, h⟩ = (rx ⟨tid, h⟩).map (RxReorder.map f) := rfl
    simp only [hrx]
    cases hr : rx ⟨tid, h⟩ with
    | none =>
        cases alloc with
        | false => rfl
        | true =>
            simp only [Option.map_none, RxOut.map, if_true, RxBa.map_update]
            rfl
    | some r =>
        simp only [Option.map_some, RxOut.map, RxBa.map_update,
          RxReorder.held_map]
        rfl
  next => rfl

theorem rxBaTeardown_map (f : α → β) (tid : Nat) (rx : RxBa α) :
    rxBaTeardown tid (rx.map f) = (rxBaTeardown tid rx).map f := by
  rw [rxBaTeardown, rxBaTeardown]
  split
  next h =>
    have hrx : rx.map f ⟨tid, h⟩ = (rx ⟨tid, h⟩).map (RxReorder.map f) := rfl
    simp only [hrx]
    cases hr : rx ⟨tid, h⟩ with
    | none => rfl
    | some r =>
        simp only [Option.map_some, RxOut.map, RxBa.map_update,
          RxReorder.held_map]
        rfl
  next => rfl

theorem flushTid_map (f : α → β) (rx : RxBa α) (out : List α)
    (again : Bool) (tid : Fin 8) :
    flushTid (rx.map f, out.map f, again) tid
      = ((flushTid (rx, out, again) tid).1.map f,
          (flushTid (rx, out, again) tid).2.1.map f,
          (flushTid (rx, out, again) tid).2.2) := by
  have hrx : rx.map f tid = (rx tid).map (RxReorder.map f) := rfl
  simp only [flushTid, hrx]
  cases hr : rx tid with
  | none => rfl
  | some r =>
      have hact : (r.map f).active = r.active := rfl
      have hst : (r.map f).stored = r.stored := rfl
      have hst' : ((skipHoles 4096 r).map f).stored
          = (skipHoles 4096 r).stored := rfl
      simp only [Option.map_some, hact, hst, skipHoles_map, hst', release_map]
      split
      · rfl
      · simp only [RxBa.map_update, Option.map_some]
        rfl

theorem rxReorderFlushStale_map (f : α → β) (rx : RxBa α) :
    rxReorderFlushStale (rx.map f) = (rxReorderFlushStale rx).map f := by
  have hfold : ∀ (l : List (Fin 8)) (rx : RxBa α) (out : List α)
      (again : Bool),
      l.foldl flushTid (rx.map f, out.map f, again)
        = ((l.foldl flushTid (rx, out, again)).1.map f,
            (l.foldl flushTid (rx, out, again)).2.1.map f,
            (l.foldl flushTid (rx, out, again)).2.2) := by
    intro l
    induction l with
    | nil => intro rx out again; rfl
    | cons tid l ih =>
        intro rx out again
        rw [List.foldl_cons, List.foldl_cons, flushTid_map]
        exact ih _ _ _
  have h := hfold (List.finRange 8) rx [] false
  rw [List.map_nil] at h
  simp only [rxReorderFlushStale, h]
  rfl

-- ================================================================ the run

/-- Every operation commutes with renaming frames. -/
theorem BaOp.apply_map (f : α → β) (op : BaOp α) (rx : RxBa α) :
    (op.map f).apply (rx.map f) = (op.apply rx).map f := by
  cases op with
  | setup alloc tid ssn bufsize => exact rxBaSetup_map f _ _ _ _ rx
  | teardown tid => exact rxBaTeardown_map f tid rx
  | input tid skb sn => exact rxReorderInput_map f tid skb sn rx
  | flush => exact rxReorderFlushStale_map f rx

/-- A step on renamed frames is the step, renamed. -/
theorem baStep_map (f : α → β) (s : BaState α) (op : BaOp α) :
    baStep (s.map f) (op.map f) = (baStep s op).map f := by
  have happ := BaOp.apply_map f op s.rxBa
  cases op <;>
    simp only [BaOp.map] at happ ⊢ <;>
    simp only [baStep, BaState.map, happ, RxOut.map, List.map_append,
      List.map_cons, List.map_nil]

/-- A stamped operation with its stamp dropped is the operation. -/
theorem Track.stampOp_erase (t : Track α) (op : BaOp α) :
    (t.stampOp op).map Prod.fst = op := by
  cases op <;> rfl

/-- Without its marks a tracked step is a step of the code. -/
theorem trackStep_ba (t : Track α) (op : BaOp α) :
    (trackStep t op).ba = baStep t.ba (t.stampOp op) := by
  cases op <;> rfl

/-- Stamps are ghosts: dropping them from the stamped run gives the
plain run. -/
theorem track_erase (ops : List (BaOp α)) :
    (trackRun ops).ba.map Prod.fst = baRun ops := by
  have hgen : ∀ (ops : List (BaOp α)) (t : Track α),
      (runFrom trackStep t ops).ba.map Prod.fst
        = runFrom baStep (t.ba.map Prod.fst) ops := by
    intro ops
    induction ops with
    | nil => intro t; rfl
    | cons op ops ih =>
        intro t
        rw [runFrom_cons, runFrom_cons, ih, trackStep_ba]
        rw [← baStep_map, Track.stampOp_erase]
  exact hgen ops Track.init

end Rtw88
