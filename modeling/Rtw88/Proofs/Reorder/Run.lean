/-
Runs of the reorder buffer: exactly-once, in-order delivery.

`TrackInv` is the invariant of the stamped run. What it keeps about the
past is one bound: the numbers delivered under a TID's current agreement
are below its unrolled head. A sweep delivers numbers between the old
head and the new one, in order, so the delivered list stays increasing
(`TrackInv.sweep`). A setup starts the TID's next agreement, under which
nothing has been delivered yet, so its head may start anywhere.

# Unrolled numbers

Sequence numbers are taken modulo 4096, and a run may go round any
number of times. A frame is stamped with the number it would have if it
did not, and the invariant keeps for every window the head in the same
count; the code's head is its residue. That a frame's stamp is near the
head is what makes the residue enough to tell it (the premise on stamps),
and the distance that the code computes is then the distance of the
stamps.

# The steps

- An input and a flush are sweeps (Proofs/Reorder/Sweep.lean).
- A setup and a teardown free what a window held, and deliver nothing
  (`replace`). A setup that is refused leaves everything.

`trackRun_inv` is the induction. Behind it the theorem reads off the
books: what was delivered, what was dropped and why, what is held, and
that the output array of 64 entries is never left. Its last part is about
the windows themselves: a setup opens one at its SSN, and traffic leaves
it open (`TrackInv.opens`).
-/
import Rtw88.Proofs.Reorder.Erase
import Rtw88.Proofs.Reorder.Sweep

namespace Rtw88

variable {α : Type}

-- ============================================================ the array

/-- One frame releases at most `kRxBaMaxBuf`. -/
private theorem accept_out_le (r : RxReorder α) (skb : α) (sn : Nat) :
    (r.accept skb sn).2.1.length ≤ kRxBaMaxBuf := by
  rw [RxReorder.accept]
  refine release_out_le _ _ ?_
  show (if _ then _ else _ : RxReorder α × List α).2.length ≤ _
  split
  · exact slide_out_le _ _ _ (Nat.zero_le _)
  · exact Nat.zero_le _

/-- A flush releases no more, though all TIDs share its output array. -/
private theorem flushTid_out_le (acc : RxBa α × List α × Bool) (tid : Fin 8)
    (h : acc.2.1.length ≤ kRxBaMaxBuf) :
    (flushTid acc tid).2.1.length ≤ kRxBaMaxBuf := by
  obtain ⟨rx, out, again⟩ := acc
  rw [flushTid]
  cases rx tid with
  | none => exact h
  | some r =>
      simp only
      split
      next => exact h
      next => exact release_out_le _ _ h

/-- No operation writes past the 64 entries of its `out` array. -/
theorem BaOp.apply_out_le (op : BaOp α) (rx : RxBa α) :
    (op.apply rx).out.length ≤ kRxBaMaxBuf := by
  cases op with
  | setup alloc tid ssn bufsize =>
      show (rxBaSetup alloc tid ssn bufsize rx).out.length ≤ _
      rw [rxBaSetup]
      split
      · simp only
        split <;> exact Nat.zero_le _
      · exact Nat.zero_le _
  | teardown tid =>
      show (rxBaTeardown tid rx).out.length ≤ _
      rw [rxBaTeardown]
      split
      · split <;> exact Nat.zero_le _
      · exact Nat.zero_le _
  | input tid skb sn =>
      show (rxReorderInput tid skb sn rx).out.length ≤ _
      rw [rxReorderInput]
      cases rx tid with
      | none => exact show 1 ≤ kRxBaMaxBuf from by decide
      | some r =>
          simp only
          split
          next => exact show 1 ≤ kRxBaMaxBuf from by decide
          next =>
            split
            next => exact Nat.zero_le _
            next => exact accept_out_le r skb sn
  | flush =>
      have hfold : ∀ (l : List (Fin 8)) (acc : RxBa α × List α × Bool),
          acc.2.1.length ≤ kRxBaMaxBuf →
          (l.foldl flushTid acc).2.1.length ≤ kRxBaMaxBuf := by
        intro l
        induction l with
        | nil => exact fun acc h => h
        | cons tid l ih => exact fun acc h => ih _ (flushTid_out_le acc tid h)
      exact hfold (List.finRange 8) (rx, [], false) (Nat.zero_le _)

-- ======================================================== the invariant

/-- The invariant of the stamped run. -/
structure TrackInv (t : Track α) : Prop where
  wins : AllWin t.epoch t.head t.ba.rxBa
  order : ∀ tid ep, (t.deliveredIn tid ep).Pairwise (· < ·)
  past : ∀ tid, ∀ v ∈ t.deliveredIn tid (t.epoch tid), v < t.head tid
  epochs : ∀ x ∈ t.ba.delivered, ∀ s, x.2 = some s →
    s.epoch ≤ t.epoch s.tid
  balance : (t.ba.delivered ++ t.ba.dropped ++ t.ba.torn
    ++ t.ba.rxBa.held).Perm t.ba.given

namespace TrackInv

theorem init : TrackInv (Track.init : Track α) := by
  refine ⟨?_, fun _ _ => List.Pairwise.nil, ?_, ?_, ?_⟩
  · intro i r hr
    cases hr
  · intro tid v hv
    cases hv
  · intro x hx
    cases hx
  · show ([] ++ [] ++ [] ++ RxBa.held RxBa.empty : List (Stamped α)).Perm []
    rw [RxBa.held]
    simp [RxBa.empty]

variable {t t' : Track α}

/-- Under an agreement that is not the TID's current one a sweep delivers
nothing. -/
private theorem filterMap_old {ep : Fin 8 → Nat} {new : List (Stamped α)}
    (h : ∀ x ∈ new, ∀ s, x.2 = some s → s.epoch = ep s.tid) {tid : Fin 8}
    {e : Nat} (he : e ≠ ep tid) : new.filterMap (vnIn tid e) = [] := by
  refine List.filterMap_eq_nil_iff.2 fun x hx => ?_
  rw [vnIn]
  cases hs : x.2 with
  | none => rfl
  | some s =>
      have hep := h x hx s hs
      have hno : ¬ (s.tid = tid ∧ s.epoch = e) := by
        rintro ⟨rfl, rfl⟩
        exact he hep
      simp [hno]

/-- A sweep preserves the invariant. -/
theorem sweep (h : TrackInv t) {given new gone : List (Stamped α)}
    (hep : t'.epoch = t.epoch)
    (hsw : Sweep t.epoch t.head t.ba.rxBa t'.head t'.ba.rxBa given new gone)
    (hgiven : t'.ba.given = t.ba.given ++ given)
    (hdel : t'.ba.delivered = t.ba.delivered ++ new)
    (hdrop : t'.ba.dropped = t.ba.dropped ++ gone)
    (htorn : t'.ba.torn = t.ba.torn) : TrackInv t' := by
  have hin : ∀ tid e, t'.deliveredIn tid e
      = t.deliveredIn tid e ++ new.filterMap (vnIn tid e) := by
    intro tid e
    rw [Track.deliveredIn, hdel, List.filterMap_append]
    rfl
  refine ⟨?_, ?_, ?_, ?_, ?_⟩
  · rw [hep]
    exact hsw.wins
  · intro tid e
    rw [hin]
    by_cases he : e = t.epoch tid
    · subst he
      refine List.pairwise_append.2 ⟨h.order tid _, hsw.order tid, ?_⟩
      intro v hv w hw
      have hv' := h.past tid v hv
      have hw' := (hsw.range tid w hw).1
      omega
    · rw [filterMap_old hsw.epochs he, List.append_nil]
      exact h.order tid e
  · intro tid v hv
    rw [hep, hin] at hv
    rcases List.mem_append.1 hv with hv | hv
    · have hle := hsw.le tid
      have hlt := h.past tid v hv
      omega
    · exact (hsw.range tid v hv).2
  · intro x hx s hs
    rw [hep]
    rw [hdel] at hx
    rcases List.mem_append.1 hx with hx | hx
    · exact h.epochs x hx s hs
    · exact le_of_eq (hsw.epochs x hx s hs)
  · -- the new frames join what was there
    classical
    rw [hgiven, hdel, hdrop, htorn]
    have hold := h.balance
    have hnew := hsw.perm
    rw [List.perm_iff_count] at hold hnew ⊢
    intro x
    have hold' := hold x
    have hnew' := hnew x
    simp only [List.count_append] at hold' hnew' ⊢
    omega

/-- Closing or re-opening a window frees what it held, and delivers
nothing. -/
private theorem replace (h : TrackInv t) {tid : Fin 8}
    {o : Option (RxReorder (Stamped α))}
    (ho : ∀ r, o = some r → r.held = [])
    (hrx : t'.ba.rxBa = Function.update t.ba.rxBa tid o)
    (hwin : AllWin t'.epoch t'.head t'.ba.rxBa)
    (hkeep : ∀ i, (t'.epoch i = t.epoch i ∧ t'.head i = t.head i)
      ∨ t'.epoch i = t.epoch i + 1)
    (hgiven : t'.ba.given = t.ba.given)
    (hdel : t'.ba.delivered = t.ba.delivered)
    (hdrop : t'.ba.dropped = t.ba.dropped)
    (htorn : t'.ba.torn = t.ba.torn ++ heldOf (t.ba.rxBa tid)) :
    TrackInv t' := by
  have hin : ∀ i e, t'.deliveredIn i e = t.deliveredIn i e := by
    intro i e
    rw [Track.deliveredIn, Track.deliveredIn, hdel]
  refine ⟨hwin, ?_, ?_, ?_, ?_⟩
  · intro i e
    rw [hin]
    exact h.order i e
  · intro i v hv
    rw [hin] at hv
    rcases hkeep i with ⟨hep, hhead⟩ | hep
    · rw [hep] at hv
      rw [hhead]
      exact h.past i v hv
    · -- nothing delivered yet carries the new agreement's number
      rw [hep, Track.deliveredIn, List.mem_filterMap] at hv
      obtain ⟨x, hx, hxv⟩ := hv
      rw [vnIn] at hxv
      cases hs : x.2 with
      | none => simp [hs] at hxv
      | some s =>
          simp only [hs, Option.bind_some, Option.ite_none_right_eq_some]
            at hxv
          have hle := h.epochs x hx s hs
          rw [hxv.1.1, hxv.1.2] at hle
          omega
  · intro x hx s hs
    rw [hdel] at hx
    have hle := h.epochs x hx s hs
    rcases hkeep s.tid with ⟨hep, -⟩ | hep <;> omega
  · classical
    have hheld := @held_replace_perm _ t.ba.rxBa tid _ ho
    have hold := h.balance
    rw [hgiven, hdel, hdrop, htorn, hrx]
    rw [List.perm_iff_count] at hold hheld ⊢
    intro x
    have hold' := hold x
    have hheld' := hheld x
    simp only [List.count_append] at hold' hheld' ⊢
    omega

/-- A step that leaves everything as it is. -/
private theorem same (h : TrackInv t) (hba : t'.ba = t.ba)
    (hep : t'.epoch = t.epoch) (hhead : t'.head = t.head) :
    TrackInv t' := by
  obtain ⟨ba, ep, head⟩ := t
  obtain ⟨ba', ep', head'⟩ := t'
  subst hba hep hhead
  exact h

end TrackInv

-- ================================================================= steps

/-- The window a setup opens. -/
private def fresh (ssn bufsize : Nat) : RxReorder α :=
  { active := true, headSn := ssn % 4096
    bufSize := if bufsize = 0 ∨ kRxBaMaxBuf < bufsize then kRxBaMaxBuf
      else bufsize
    stored := 0, buf := fun _ => none }

/-- A new window holds nothing. -/
theorem fresh_held (ssn bufsize : Nat) :
    (fresh ssn bufsize : RxReorder α).held = [] := by
  simp [fresh, RxReorder.held, cells]

/-- A fresh window stands at its SSN. -/
private theorem fresh_inWin (tid : Fin 8) (ep ssn bufsize : Nat) :
    InWin tid ep (ssn % 4096)
      (fresh ssn bufsize : RxReorder (Stamped α)) := by
  have hsize : 1 ≤ (if bufsize = 0 ∨ kRxBaMaxBuf < bufsize then kRxBaMaxBuf
        else bufsize)
      ∧ (if bufsize = 0 ∨ kRxBaMaxBuf < bufsize then kRxBaMaxBuf
        else bufsize) ≤ 64 := by
    rw [kRxBaMaxBuf]
    by_cases hc : bufsize = 0 ∨ 64 < bufsize
    · rw [if_pos hc]
      omega
    · rw [if_neg hc]
      omega
  refine ⟨rfl, hsize.1, hsize.2, (Nat.mod_mod _ _).symm, ?_, ?_⟩
  · intro i x hx
    cases hx
  · rw [fresh_held]
    rfl

/-- What a setup does: it leaves a fresh window and frees what the old
one held, or it does nothing. -/
theorem rxBaSetup_cases (alloc : Bool) (tid ssn bufsize : Nat)
    (rx : RxBa α) :
    (∃ i : Fin 8, i.val = tid
      ∧ (rxBaSetup alloc tid ssn bufsize rx).rxBa
        = Function.update rx i (some (fresh ssn bufsize))
      ∧ (rxBaSetup alloc tid ssn bufsize rx).freed = heldOf (rx i))
    ∨ ((rxBaSetup alloc tid ssn bufsize rx).rxBa = rx
      ∧ (rxBaSetup alloc tid ssn bufsize rx).freed = []
      ∧ ∀ i : Fin 8, i.val = tid → rx i = none) := by
  rw [rxBaSetup]
  split
  next h =>
    cases hr : rx ⟨tid, h⟩ with
    | some r =>
        refine .inl ⟨⟨tid, h⟩, rfl, rfl, ?_⟩
        rw [hr]
        rfl
    | none =>
        cases alloc with
        | true =>
            refine .inl ⟨⟨tid, h⟩, rfl, rfl, ?_⟩
            rw [hr]
            rfl
        | false =>
            refine .inr ⟨rfl, rfl, ?_⟩
            rintro i rfl
            exact hr
  next h => exact .inr ⟨rfl, rfl, fun i hi => absurd (hi ▸ i.isLt) h⟩

/-- What a teardown does: it closes the window and frees what it held,
or it does nothing. -/
theorem rxBaTeardown_cases (tid : Nat) (rx : RxBa α) :
    (∃ i : Fin 8, (rxBaTeardown tid rx).rxBa = Function.update rx i none
      ∧ (rxBaTeardown tid rx).freed = heldOf (rx i))
    ∨ ((rxBaTeardown tid rx).rxBa = rx ∧ (rxBaTeardown tid rx).freed = []) := by
  rw [rxBaTeardown]
  split
  next h =>
    cases hr : rx ⟨tid, h⟩ with
    | some r =>
        refine .inl ⟨⟨tid, h⟩, rfl, ?_⟩
        rw [hr]
        rfl
    | none => exact .inr ⟨rfl, rfl⟩
  next => exact .inr ⟨rfl, rfl⟩

/-- Setting one up delivers nothing. -/
theorem rxBaSetup_out (alloc : Bool) (tid ssn bufsize : Nat)
    (rx : RxBa α) : (rxBaSetup alloc tid ssn bufsize rx).out = [] := by
  rw [rxBaSetup]
  split
  · simp only
    split <;> rfl
  · rfl

theorem rxBaTeardown_out (tid : Nat) (rx : RxBa α) :
    (rxBaTeardown tid rx).out = [] := by
  rw [rxBaTeardown]
  split
  · split <;> rfl
  · rfl

/-- Setting one up needs no timer. -/
theorem rxBaSetup_needTimer (alloc : Bool) (tid ssn bufsize : Nat)
    (rx : RxBa α) :
    (rxBaSetup alloc tid ssn bufsize rx).needTimer = false := by
  rw [rxBaSetup]
  split
  · simp only
    split <;> rfl
  · rfl

theorem rxBaTeardown_needTimer (tid : Nat) (rx : RxBa α) :
    (rxBaTeardown tid rx).needTimer = false := by
  rw [rxBaTeardown]
  split
  · split <;> rfl
  · rfl

/-- Nothing moved: every head stays. -/
private theorem headMove_self {o : Option (RxReorder α)}
    (h : ∀ r, o = some r → r.headSn < 4096) : headMove o o = 0 := by
  cases o with
  | none => rfl
  | some r =>
      have hlt := h r rfl
      simp only [headMove, snSub, modSub]
      omega

/-- A setup preserves the invariant. -/
private theorem setup_inv {t : Track α} (h : TrackInv t) (alloc : Bool)
    (tid ssn bufsize : Nat) :
    TrackInv (trackStep t (.setup alloc tid ssn bufsize)) := by
  have hba : (trackStep t (.setup alloc tid ssn bufsize)).ba
      = { t.ba with
          rxBa := (rxBaSetup alloc tid ssn bufsize t.ba.rxBa).rxBa
          delivered := t.ba.delivered
          torn := t.ba.torn
            ++ (rxBaSetup alloc tid ssn bufsize t.ba.rxBa).freed } := by
    rw [trackStep_ba]
    simp only [Track.stampOp, baStep, BaOp.apply, rxBaSetup_out,
      List.append_nil]
  have hepoch : ∀ i, (trackStep t (.setup alloc tid ssn bufsize)).epoch i
      = if i.val = tid
          ∧ ((rxBaSetup alloc tid ssn bufsize t.ba.rxBa).rxBa i).isSome
        then t.epoch i + 1 else t.epoch i := fun _ => rfl
  have hhead : ∀ i, (trackStep t (.setup alloc tid ssn bufsize)).head i
      = if i.val = tid
          ∧ ((rxBaSetup alloc tid ssn bufsize t.ba.rxBa).rxBa i).isSome
        then ssn % 4096 else t.head i := fun _ => rfl
  rcases rxBaSetup_cases alloc tid ssn bufsize t.ba.rxBa with
    ⟨i, rfl, hrx, hfreed⟩ | ⟨hrx, hfreed, hnone⟩
  · -- the next agreement of this TID
    have hon : ∀ j : Fin 8, (j.val = i.val
        ∧ ((rxBaSetup alloc i ssn bufsize t.ba.rxBa).rxBa j).isSome) ↔ j = i := by
      intro j
      refine ⟨fun hj => Fin.ext hj.1, ?_⟩
      rintro rfl
      simp [hrx]
    refine @TrackInv.replace _ _ _ h i (some (fresh ssn bufsize)) ?_ ?_ ?_ ?_
      ?_ ?_ ?_ ?_
    · rintro r ⟨⟩
      exact fresh_held ssn bufsize
    · rw [hba]
      exact hrx
    · intro j r hr
      rw [hba] at hr
      simp only [hrx] at hr
      rw [hepoch, hhead]
      by_cases hj : j = i
      · subst hj
        rw [Function.update_self] at hr
        cases hr
        rw [if_pos ((hon j).2 rfl), if_pos ((hon j).2 rfl)]
        exact ⟨fresh_inWin j _ ssn bufsize, show 0 < 64 from by decide⟩
      · rw [Function.update_of_ne hj] at hr
        rw [if_neg (fun hc => hj ((hon j).1 hc)),
          if_neg (fun hc => hj ((hon j).1 hc))]
        exact h.wins j r hr
    · intro j
      rw [hepoch, hhead]
      by_cases hc : j.val = i.val
          ∧ ((rxBaSetup alloc i ssn bufsize t.ba.rxBa).rxBa j).isSome
      · exact .inr (if_pos hc)
      · exact .inl ⟨if_neg hc, if_neg hc⟩
    · rw [hba]
    · rw [hba]
    · rw [hba]
    · rw [hba]
      exact congrArg _ hfreed
  · -- no buffer for this TID
    have hoff : ∀ j : Fin 8, ¬ (j.val = tid
        ∧ ((rxBaSetup alloc tid ssn bufsize t.ba.rxBa).rxBa j).isSome) := by
      rintro j ⟨hj, hsome⟩
      rw [hrx, hnone j hj] at hsome
      cases hsome
    refine h.same ?_ ?_ ?_
    · rw [hba, hrx, hfreed, List.append_nil]
    · funext j
      rw [hepoch, if_neg (hoff j)]
    · funext j
      rw [hhead, if_neg (hoff j)]

/-- A teardown preserves the invariant. -/
private theorem teardown_inv {t : Track α} (h : TrackInv t) (tid : Nat) :
    TrackInv (trackStep t (.teardown tid)) := by
  have hba : (trackStep t (.teardown tid)).ba
      = { t.ba with
          rxBa := (rxBaTeardown tid t.ba.rxBa).rxBa
          delivered := t.ba.delivered
          torn := t.ba.torn ++ (rxBaTeardown tid t.ba.rxBa).freed } := by
    rw [trackStep_ba]
    simp only [Track.stampOp, baStep, BaOp.apply, rxBaTeardown_out,
      List.append_nil]
  have hlt : ∀ i r, t.ba.rxBa i = some r → r.headSn < 4096 := by
    intro i r hr
    rw [(h.wins i r hr).1.head]
    exact Nat.mod_lt _ (by decide)
  have hhead : (trackStep t (.teardown tid)).head = t.head := by
    funext i
    show t.head i + headMove (t.ba.rxBa i)
      ((rxBaTeardown tid t.ba.rxBa).rxBa i) = t.head i
    have hstay : headMove (t.ba.rxBa i) (t.ba.rxBa i) = 0 :=
      headMove_self fun r hr => hlt i r hr
    rcases rxBaTeardown_cases tid t.ba.rxBa with ⟨j, hrx, -⟩ | ⟨hrx, -⟩
    · rw [hrx]
      by_cases hi : i = j
      · subst hi
        rw [Function.update_self]
        cases t.ba.rxBa i <;> rfl
      · rw [Function.update_of_ne hi, hstay, Nat.add_zero]
    · rw [hrx, hstay, Nat.add_zero]
  rcases rxBaTeardown_cases tid t.ba.rxBa with ⟨i, hrx, hfreed⟩ | ⟨hrx, hfreed⟩
  · refine @TrackInv.replace _ _ _ h i none ?_ ?_ ?_ ?_ ?_ ?_ ?_ ?_
    · intro r hr
      cases hr
    · rw [hba]
      exact hrx
    · intro j r hr
      rw [hba] at hr
      simp only [hrx] at hr
      rw [hhead]
      by_cases hj : j = i
      · rw [hj, Function.update_self] at hr
        cases hr
      · rw [Function.update_of_ne hj] at hr
        exact h.wins j r hr
    · intro j
      exact .inl ⟨rfl, congrFun hhead j⟩
    · rw [hba]
    · rw [hba]
    · rw [hba]
    · rw [hba]
      exact congrArg _ hfreed
  · refine h.same ?_ rfl hhead
    rw [hba, hrx, hfreed, List.append_nil]

/-- Every operation preserves the invariant. -/
theorem trackStep_inv {t : Track α} (h : TrackInv t) (op : BaOp α) :
    TrackInv (trackStep t op) := by
  cases op with
  | setup alloc tid ssn bufsize => exact setup_inv h alloc tid ssn bufsize
  | teardown tid => exact teardown_inv h tid
  | input tid skb sn =>
      obtain ⟨⟨H', hsw, hlt⟩, -⟩ := rxReorderInput_sweep h.wins tid
        (skb, t.stamp tid sn) sn rfl
      have hhead := hsw.head_eq h.wins hlt
      subst hhead
      exact h.sweep rfl hsw rfl rfl rfl rfl
  | flush =>
      obtain ⟨H', hsw, hlt⟩ := rxReorderFlushStale_sweep h.wins
      have hhead := hsw.head_eq h.wins hlt
      subst hhead
      refine @TrackInv.sweep _ _ (trackStep t .flush) h _ _ _ rfl hsw
        (List.append_nil _).symm rfl (List.append_nil _).symm ?_
      exact List.append_nil _

/-- The invariant holds after every run. -/
theorem trackRun_inv (ops : List (BaOp α)) : TrackInv (trackRun ops) :=
  runFrom_inv (I := TrackInv)
    (fun _ op h => trackStep_inv h op) TrackInv.init ops

/-- An operation drops only a frame before the window or one whose number
the window holds. -/
theorem TrackInv.drops {t : Track α} (h : TrackInv t) (op : BaOp α) :
    DropsOnlyStaleOrHeld t op := by
  cases op with
  | input tid skb sn =>
      exact (rxReorderInput_sweep h.wins tid (skb, t.stamp tid sn) sn rfl).2
  | setup => trivial
  | teardown => trivial
  | flush => trivial

/-- Neither an input nor a flush closes a window or begins an
agreement. -/
theorem traffic_keeps {t : Track α} (h : TrackInv t) {op : BaOp α}
    (hop : op.isTraffic = true) :
    (trackStep t op).epoch = t.epoch
      ∧ ∀ i, (t.ba.rxBa i).isSome → ((trackStep t op).ba.rxBa i).isSome := by
  cases op with
  | setup alloc tid ssn bufsize => cases hop
  | teardown tid => cases hop
  | input tid skb sn =>
      obtain ⟨⟨H', hsw, -⟩, -⟩ := rxReorderInput_sweep h.wins tid
        (skb, t.stamp tid sn) sn rfl
      exact ⟨rfl, hsw.busy⟩
  | flush =>
      obtain ⟨H', hsw, -⟩ := rxReorderFlushStale_sweep h.wins
      exact ⟨rfl, hsw.busy⟩

/-- `rxBaSetup` opens the window of its TID. -/
theorem rxBaSetup_window (tid : Fin 8) (ssn bufsize : Nat) (rx : RxBa α) :
    ((rxBaSetup true tid ssn bufsize rx).rxBa tid).map RxReorder.headSn
      = some (ssn % 4096) := by
  rw [rxBaSetup, dif_pos tid.isLt]
  cases rx tid <;> simp

/-- A setup opens a window, and traffic leaves it open. -/
theorem TrackInv.opens {t : Track α} (h : TrackInv t) (tid : Fin 8)
    (ssn bufsize : Nat) : OpensWindow t tid ssn bufsize := by
  unfold OpensWindow
  intro t'
  have hwindow : (t'.ba.rxBa tid).map RxReorder.headSn
      = some (ssn % 4096) := rxBaSetup_window tid ssn bufsize t.ba.rxBa
  have hsome : (t'.ba.rxBa tid).isSome = true := by
    rw [← Option.isSome_map, hwindow]
    rfl
  refine ⟨if_pos ⟨rfl, hsome⟩, hwindow, fun ops hops => ?_⟩
  have hinv : TrackInv t' := trackStep_inv h _
  generalize t' = u at hinv hsome
  -- over the traffic: the invariant and the open window go on together
  induction ops generalizing u with
  | nil =>
      obtain ⟨r, hr⟩ := Option.isSome_iff_exists.1 hsome
      exact ⟨rfl, r, hr, (hinv.wins tid r hr).1.active⟩
  | cons op ops ih =>
      obtain ⟨hepoch, hbusy⟩ := traffic_keeps hinv (hops op List.mem_cons_self)
      obtain ⟨hsame, hopen⟩ := ih
        (fun op hmem => hops op (List.mem_cons_of_mem _ hmem))
        (trackStep u op) (trackStep_inv hinv op) (hbusy tid hsome)
      exact ⟨hsame.trans (congrFun hepoch tid), hopen⟩

-- ================================================================= result

/-- Exactly-once, in-order delivery. In every run of the four operations,
with stamps that the code cannot see: what is delivered under one
agreement of a TID has strictly increasing virtual numbers; the frames
given are, each exactly once, the frames delivered, dropped on arrival,
freed by a teardown or re-setup, and held; a frame is dropped on arrival
only if it is before the window or its number is held; the array of one
operation never overflows; and a setup opens a window at its SSN, for all
inputs and flushes up to the next setup or teardown. -/
theorem rxReorder_exactly_once_in_order (ops : List (BaOp α)) :
    (trackRun ops).ba.map Prod.fst = baRun ops
      ∧ (∀ tid ep, ((trackRun ops).deliveredIn tid ep).Pairwise (· < ·))
      ∧ ((baRun ops).delivered ++ (baRun ops).dropped ++ (baRun ops).torn
          ++ (baRun ops).rxBa.held).Perm (baRun ops).given
      ∧ Along trackStep DropsOnlyStaleOrHeld Track.init ops
      ∧ Along trackStep OutFits Track.init ops
      ∧ ∀ tid ssn bufsize, OpensWindow (trackRun ops) tid ssn bufsize := by
  have hinv := trackRun_inv ops
  refine ⟨track_erase ops, hinv.order, ?_, ?_, ?_, hinv.opens⟩
  · have herase := track_erase ops
    have hbal := hinv.balance.map Prod.fst
    have hheld : (trackRun ops).ba.rxBa.held.map Prod.fst
        = (baRun ops).rxBa.held := by
      rw [← herase]
      exact (RxBa.held_map Prod.fst _).symm
    simp only [List.map_append, hheld] at hbal
    rw [← herase] at hbal ⊢
    exact hbal
  · refine along_of_inv (C := fun _ _ => True) (I := TrackInv) ?_
      TrackInv.init (Along.of_forall (fun _ _ => trivial) _ _)
    intro t op h _
    exact ⟨trackStep_inv h op, h.drops op⟩
  · exact Along.of_forall (fun t op => BaOp.apply_out_le _ _) _ _

end Rtw88
