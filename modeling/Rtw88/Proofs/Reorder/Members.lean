/-
Nothing comes out of a reorder buffer that did not go in: whatever holds
of every frame in the windows, and of the frame that arrives, holds of
every frame delivered and of every frame in the windows afterwards.

This needs no invariant of the windows: it is true of any state. The
property is a parameter, so the results can take for it what they follow
a frame by: that an event received it, or that it is the target's
(Proofs/ControlledPort.lean). The loops carry a window and the frames
that are out already, with the property of both (`Both`).
-/
import Rtw88.Spec.ReorderRun

namespace Rtw88

variable {α : Type} {Q : α → Prop}

-- ============================================================= one window

/-- A window and an array of frames, all of which have `Q`. -/
private def Both (Q : α → Prop) (ro : RxReorder α × List α) : Prop :=
  ro.1.All Q ∧ ∀ x ∈ ro.2, Q x

/-- A cell cleared or filled with a frame that has `Q`. -/
private theorem update_all {r : RxReorder α} (h : r.All Q) (i : Fin 64)
    {v : Option α} (hv : ∀ x, v = some x → Q x) :
    ∀ c x, Function.update r.buf i v c = some x → Q x := by
  intro c x hx
  by_cases hc : c = i
  · rw [hc, Function.update_self] at hx
    exact hv x hx
  · rw [Function.update_of_ne hc] at hx
    exact h c x hx

/-- Advancing the head releases a frame that was held. -/
private theorem advance_all {r : RxReorder α} (h : r.All Q) :
    Both Q r.advance := by
  rw [RxReorder.advance]
  split
  next x hx =>
    refine ⟨update_all h _ fun _ hnone => (by cases hnone), ?_⟩
    intro y hy
    rw [List.mem_singleton.1 hy]
    exact h _ x hx
  next => exact ⟨h, fun _ hx => (by cases hx)⟩

/-- One advance, with what it emits behind what is out already. -/
private theorem advance_both {r : RxReorder α} {out : List α}
    (h : Both Q (r, out)) : Both Q (r.advance.1, out ++ r.advance.2) := by
  obtain ⟨hr, hnew⟩ := advance_all h.1
  refine ⟨hr, fun x hx => ?_⟩
  rcases List.mem_append.1 hx with hx | hx
  · exact h.2 x hx
  · exact hnew x hx

/-- Sliding the window releases such frames. -/
private theorem slide_all (newHead k : Nat) {ro : RxReorder α × List α}
    (h : Both Q ro) : Both Q (slide newHead k ro) := by
  induction k generalizing ro with
  | zero => exact h
  | succ k ih =>
      obtain ⟨r, out⟩ := ro
      rw [slide]
      split
      · exact ih (advance_both h)
      · exact h

/-- Releasing a row of frames releases held ones. -/
private theorem release_all (k : Nat) {ro : RxReorder α × List α}
    (h : Both Q ro) : Both Q (release k ro) := by
  induction k generalizing ro with
  | zero => exact h
  | succ k ih =>
      obtain ⟨r, out⟩ := ro
      rw [release]
      split
      · exact ih (advance_both h)
      · exact h

private theorem skipHoles_all (k : Nat) {r : RxReorder α} (h : r.All Q) :
    (skipHoles k r).All Q := by
  induction k generalizing r with
  | zero => exact h
  | succ k ih =>
      rw [skipHoles]
      split
      · exact ih h
      · exact h

/-- An inserted frame is the new one or was held. -/
private theorem insert_all {r : RxReorder α} (h : r.All Q) {skb : α}
    (hskb : Q skb) (sn : Nat) : (r.insert skb sn).1.All Q := by
  rw [RxReorder.insert]
  split
  · exact h
  · refine update_all h _ fun x hx => ?_
    rw [← Option.some.inj hx]
    exact hskb

/-- Whatever an accepted frame releases is that frame or was held. -/
private theorem accept_all {r : RxReorder α} (h : r.All Q) {skb : α}
    (hskb : Q skb) (sn : Nat) :
    Both Q ((r.accept skb sn).1, (r.accept skb sn).2.1) := by
  have hslide : Both Q (if r.bufSize ≤ snSub sn r.headSn
      then slide ((sn + 1 + 4096 - r.bufSize) % 4096)
        (snSub ((sn + 1 + 4096 - r.bufSize) % 4096) r.headSn) (r, [])
      else (r, [])) := by
    split
    · exact slide_all _ _ ⟨h, fun _ hx => (by cases hx)⟩
    · exact ⟨h, fun _ hx => (by cases hx)⟩
  simp only [RxReorder.accept]
  generalize (if r.bufSize ≤ snSub sn r.headSn
    then slide ((sn + 1 + 4096 - r.bufSize) % 4096)
      (snSub ((sn + 1 + 4096 - r.bufSize) % 4096) r.headSn) (r, [])
    else (r, [])) = ro at hslide ⊢
  exact release_all _ ⟨insert_all hslide.1 hskb sn, hslide.2⟩

-- ============================================================ all windows

/-- A window replaced by one whose frames have `Q`. -/
private theorem RxBa.All.update {rx : RxBa α} (h : rx.All Q) (tid : Fin 8)
    {o : Option (RxReorder α)} (ho : ∀ r, o = some r → r.All Q) :
    RxBa.All Q (Function.update rx tid o) := by
  intro i r hr
  by_cases hi : i = tid
  · rw [hi, Function.update_self] at hr
    exact ho r hr
  · rw [Function.update_of_ne hi] at hr
    exact h i r hr

/-- Every frame that comes out of reordering went in. -/
theorem rxReorderInput_all {rx : RxBa α} (h : rx.All Q) {skb : α}
    (hskb : Q skb) (tid : Fin 8) (sn : Nat) :
    (rxReorderInput tid skb sn rx).rxBa.All Q
      ∧ ∀ x ∈ (rxReorderInput tid skb sn rx).out, Q x := by
  have hpass : ∀ x ∈ [skb], Q x := fun x hx => by
    rw [List.mem_singleton.1 hx]
    exact hskb
  rw [rxReorderInput]
  cases hr : rx tid with
  | none => exact ⟨h, hpass⟩
  | some r =>
      simp only
      split
      · exact ⟨h, hpass⟩
      · split
        · exact ⟨h, fun _ hx => (by cases hx)⟩
        · obtain ⟨hr', hout⟩ := accept_all (h tid r hr) hskb sn
          refine ⟨h.update tid fun r' heq => ?_, hout⟩
          rw [← Option.some.inj heq]
          exact hr'

/-- One TID's turn of the flush. -/
private theorem flushTid_all {acc : RxBa α × List α × Bool} (tid : Fin 8)
    (h : acc.1.All Q ∧ ∀ x ∈ acc.2.1, Q x) :
    (flushTid acc tid).1.All Q ∧ ∀ x ∈ (flushTid acc tid).2.1, Q x := by
  obtain ⟨rx, out, again⟩ := acc
  rw [flushTid]
  cases hr : rx tid with
  | none => exact h
  | some r =>
      simp only
      split
      · exact h
      · obtain ⟨hr', hout⟩ := @release_all _ _
          (skipHoles 4096 r).stored (skipHoles 4096 r, out)
          ⟨skipHoles_all 4096 (h.1 tid r hr), h.2⟩
        refine ⟨h.1.update tid fun r' heq => ?_, hout⟩
        rw [← Option.some.inj heq]
        exact hr'

/-- Every frame a flush releases went in. -/
theorem rxReorderFlushStale_all {rx : RxBa α} (h : rx.All Q) :
    (rxReorderFlushStale rx).rxBa.All Q
      ∧ ∀ x ∈ (rxReorderFlushStale rx).out, Q x := by
  have hfold : ∀ (l : List (Fin 8)) (acc : RxBa α × List α × Bool),
      acc.1.All Q ∧ (∀ x ∈ acc.2.1, Q x) →
      (l.foldl flushTid acc).1.All Q
        ∧ ∀ x ∈ (l.foldl flushTid acc).2.1, Q x := by
    intro l
    induction l with
    | nil => exact fun _ h => h
    | cons tid l ih => exact fun acc h => ih _ (flushTid_all tid h)
  exact hfold (List.finRange 8) (rx, [], false)
    ⟨h, fun _ hx => (by cases hx)⟩

/-- A setup leaves the windows alone or opens an empty one. -/
theorem rxBaSetup_all {rx : RxBa α} (h : rx.All Q) (alloc : Bool)
    (tid ssn bufsize : Nat) :
    (rxBaSetup alloc tid ssn bufsize rx).rxBa.All Q := by
  rw [rxBaSetup]
  split
  next htid =>
    cases rx ⟨tid, htid⟩ with
    | some r =>
        refine h.update _ fun r' heq => ?_
        rw [← Option.some.inj heq]
        exact fun _ _ hx => by cases hx
    | none =>
        cases alloc with
        | true =>
            refine h.update _ fun r' heq => ?_
            rw [← Option.some.inj heq]
            exact fun _ _ hx => by cases hx
        | false => exact h
  next => exact h

/-- A teardown leaves the other windows. -/
theorem rxBaTeardown_all {rx : RxBa α} (h : rx.All Q) (tid : Nat) :
    (rxBaTeardown tid rx).rxBa.All Q := by
  rw [rxBaTeardown]
  split
  next htid =>
    cases rx ⟨tid, htid⟩ with
    | some r => exact h.update _ fun r' hnone => by cases hnone
    | none => exact h
  next => exact h

end Rtw88
