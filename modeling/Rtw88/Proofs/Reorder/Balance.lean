/-
No operation on the reorder buffers loses or copies a frame: what goes
in and what the windows held is what comes out, is freed, or is held
still, up to order.

Unlike the sweep of Proofs/Reorder/Sweep.lean this asks nothing of the
windows, so it holds of every state. A frame that is stored takes an
empty cell or is dropped (`insert_balance`), a head that moves on takes
what stood in its cell out (`advance_balance`), and the loops are turns
of the second. A frame that no window takes comes out at once. The
operations of a whole buffer change one window, so their balance is that
window's, with the others beside it.

What is counted is frames and not numbers: two frames with one number are
two.
-/
import Rtw88.Proofs.Reorder.Run

namespace Rtw88

variable {α : Type}

-- ================================================================= a window

/-- One advance. -/
private theorem advance_balance (r : RxReorder α) :
    (r.advance.2 ++ r.advance.1.held).Perm r.held := by
  rw [RxReorder.advance]
  split
  next x hx => exact cells_clear_perm hx
  next => exact List.Perm.refl _

/-- One advance, behind what is out already. -/
private theorem advance_out_balance (r : RxReorder α) (out : List α) :
    (out ++ r.advance.2 ++ r.advance.1.held).Perm (out ++ r.held) := by
  rw [List.append_assoc]
  exact (advance_balance r).append_left out

private theorem slide_balance (newHead k : Nat)
    (ro : RxReorder α × List α) :
    ((slide newHead k ro).2 ++ (slide newHead k ro).1.held).Perm
      (ro.2 ++ ro.1.held) := by
  induction k generalizing ro with
  | zero => exact List.Perm.refl _
  | succ k ih =>
      obtain ⟨r, out⟩ := ro
      rw [slide]
      split
      · exact (ih _).trans (advance_out_balance r out)
      · exact List.Perm.refl _

private theorem release_balance (k : Nat) (ro : RxReorder α × List α) :
    ((release k ro).2 ++ (release k ro).1.held).Perm
      (ro.2 ++ ro.1.held) := by
  induction k generalizing ro with
  | zero => exact List.Perm.refl _
  | succ k ih =>
      obtain ⟨r, out⟩ := ro
      rw [release]
      split
      · exact (ih _).trans (advance_out_balance r out)
      · exact List.Perm.refl _

/-- Holes hold nothing. -/
private theorem skipHoles_held (k : Nat) (r : RxReorder α) :
    (skipHoles k r).held = r.held := by
  induction k generalizing r with
  | zero => rfl
  | succ k ih =>
      rw [skipHoles]
      split
      · exact ih _
      · rfl

private theorem insert_balance (r : RxReorder α) (skb : α) (sn : Nat) :
    ((r.insert skb sn).2 ++ (r.insert skb sn).1.held).Perm
      (skb :: r.held) := by
  rw [RxReorder.insert]
  split
  next => exact List.Perm.refl _
  next hnone => exact cells_fill_perm skb hnone

private theorem accept_balance (r : RxReorder α) (skb : α) (sn : Nat) :
    ((r.accept skb sn).2.1 ++ (r.accept skb sn).2.2
      ++ (r.accept skb sn).1.held).Perm (skb :: r.held) := by
  have hslide : ∀ ro : RxReorder α × List α,
      ro = (if r.bufSize ≤ snSub sn r.headSn
        then slide ((sn + 1 + 4096 - r.bufSize) % 4096)
          (snSub ((sn + 1 + 4096 - r.bufSize) % 4096) r.headSn) (r, [])
        else (r, [])) →
      (ro.2 ++ ro.1.held).Perm r.held := by
    rintro ro rfl
    split
    · exact slide_balance _ _ (r, [])
    · exact List.Perm.refl _
  simp only [RxReorder.accept]
  generalize hro : (if r.bufSize ≤ snSub sn r.headSn
      then slide ((sn + 1 + 4096 - r.bufSize) % 4096)
        (snSub ((sn + 1 + 4096 - r.bufSize) % 4096) r.headSn) (r, [])
      else (r, [])) = ro
  have hout := hslide ro hro.symm
  have hins := insert_balance ro.1 skb sn
  generalize ro.1.insert skb sn = rd at hins ⊢
  have hrel := release_balance rd.1.stored (rd.1, ro.2)
  generalize release rd.1.stored (rd.1, ro.2) = rf at hrel ⊢
  classical
  rw [List.perm_iff_count] at hout hins hrel ⊢
  intro x
  have h1 := hout x
  have h2 := hins x
  have h3 := hrel x
  simp only [List.count_append, List.count_cons] at h1 h2 h3 ⊢
  omega

-- ============================================================== all windows

/-- `rxReorderInput`. -/
theorem rxReorderInput_balance (tid : Fin 8) (skb : α) (sn : Nat)
    (rx : RxBa α) :
    ((rxReorderInput tid skb sn rx).out ++ (rxReorderInput tid skb sn rx).freed
      ++ (rxReorderInput tid skb sn rx).rxBa.held).Perm (skb :: rx.held) := by
  rw [rxReorderInput]
  split
  next => exact List.Perm.refl _
  next r hr =>
    split
    · exact List.Perm.refl _
    · split
      · exact List.Perm.refl _
      · have h := accept_balance r skb sn
        refine @held_update_perm _ _ _ _ _ [skb] ?_
        rw [hr]
        exact h

/-- One TID's turn of the flush. -/
private theorem flushTid_balance (acc : RxBa α × List α × Bool)
    (tid : Fin 8) :
    ((flushTid acc tid).2.1 ++ (flushTid acc tid).1.held).Perm
      (acc.2.1 ++ acc.1.held) := by
  obtain ⟨rx, out, again⟩ := acc
  simp only [flushTid]
  split
  next => exact List.Perm.refl _
  next r hr =>
    split
    · exact List.Perm.refl _
    · have h := release_balance (skipHoles 4096 r).stored
        (skipHoles 4096 r, out)
      refine held_update_perm ?_
      rw [hr]
      exact h.trans (by rw [skipHoles_held]; exact List.Perm.refl _)

/-- `rxReorderFlushStale`. -/
theorem rxReorderFlushStale_balance (rx : RxBa α) :
    ((rxReorderFlushStale rx).out ++ (rxReorderFlushStale rx).rxBa.held).Perm
      rx.held := by
  have hfold : ∀ (tids : List (Fin 8)) (acc : RxBa α × List α × Bool),
      ((tids.foldl flushTid acc).2.1 ++ (tids.foldl flushTid acc).1.held).Perm
        (acc.2.1 ++ acc.1.held) := by
    intro tids
    induction tids with
    | nil => exact fun acc => List.Perm.refl _
    | cons tid tids ih =>
        exact fun acc => (ih _).trans (flushTid_balance acc tid)
  exact hfold (List.finRange 8) (rx, [], false)

/-- `rxBaSetup`. -/
theorem rxBaSetup_balance (alloc : Bool) (tid ssn bufsize : Nat)
    (rx : RxBa α) :
    ((rxBaSetup alloc tid ssn bufsize rx).freed
      ++ (rxBaSetup alloc tid ssn bufsize rx).rxBa.held).Perm rx.held := by
  rcases rxBaSetup_cases alloc tid ssn bufsize rx with
    ⟨i, -, hrx, hfreed⟩ | ⟨hrx, hfreed, -⟩
  · rw [hrx, hfreed]
    refine held_replace_perm fun r hr => ?_
    rw [← Option.some.inj hr]
    exact fresh_held ssn bufsize
  · rw [hrx, hfreed]
    exact List.Perm.refl _

/-- `rxBaTeardown`. -/
theorem rxBaTeardown_balance (tid : Nat) (rx : RxBa α) :
    ((rxBaTeardown tid rx).freed ++ (rxBaTeardown tid rx).rxBa.held).Perm
      rx.held := by
  rcases rxBaTeardown_cases tid rx with ⟨i, hrx, hfreed⟩ | ⟨hrx, hfreed⟩
  · rw [hrx, hfreed]
    exact held_replace_perm fun r hr => by cases hr
  · rw [hrx, hfreed]
    exact List.Perm.refl _

end Rtw88
