/-
Order of delivery with two threads. What the threads have sent and what
they still hold is, agreement by agreement, what the windows let go, in
that order, as long as only one of them holds frames of an agreement.

# The interleaving

An operation on the windows is one critical section, and the frames it
lets go are delivered outside of it, one at a time, by the thread that
entered it. So between the section and a delivery the other thread may
enter one of its own. `HeldApart` is the invariant: for each agreement
the frames sent, followed by those a thread holds, are the frames let go
so far; and the two threads hold no two frames of one agreement.

- A section that lets frames of an agreement go while the other thread
  holds some breaks it, and no other step does (`HeldApart.enter`).
- A delivery moves the first frame from held to sent
  (`HeldApart.deliver`).

That the condition asks for no more than it has to is
`overtaking_reorders`: where such a section is about to be entered there
is a way to go on that delivers out of order. The frames carry stamps,
and dropping them gives the plain interleaving
(`deliveryTrackRun_erase`).
-/
import Mathlib.Data.List.Induction
import Rtw88.Proofs.Reorder.Run
import Rtw88.Spec.DeliveryRun

namespace Rtw88

variable {α : Type}

-- ================================================================== erasure

/-- A delivery follows any renaming. -/
private theorem deliverOne_map {β γ : Type} (f : β → γ)
    (out : Worker → List β) (sent : List β) (w : Worker) :
    deliverOne (fun v => (out v).map f) (sent.map f) w
      = ((fun v => ((deliverOne out sent w).1 v).map f),
          (deliverOne out sent w).2.map f) := by
  rw [deliverOne, deliverOne]
  cases out w with
  | nil => rfl
  | cons x rest =>
      simp only [List.map_cons, List.map_append, List.map_nil,
        Prod.mk.injEq, and_true]
      funext v
      by_cases hv : v = w
      · subst hv
        simp only [Function.update_self]
      · simp only [Function.update_of_ne hv]

/-- One step, without the stamps. -/
private theorem deliveryTrackStep_erase (s : DeliveryTrack α)
    (e : DeliveryEvent α) :
    (deliveryTrackStep s e).erase = deliveryStep s.erase e := by
  cases e with
  | deliver w =>
      have h := deliverOne_map Prod.fst s.out s.sent w
      simp only [deliveryTrackStep, deliveryStep, DeliveryTrack.erase, h]
  | enter op =>
      have hba : (trackStep s.track op).ba.map Prod.fst
          = baStep (s.track.ba.map Prod.fst) op := by
        rw [trackStep_ba, ← baStep_map, Track.stampOp_erase]
      cases hw : op.worker with
      | none =>
          simp only [deliveryTrackStep, deliveryStep, hw, DeliveryTrack.erase,
            hba]
      | some w =>
          have hout : (s.track.lets op).map Prod.fst
              = (op.apply (s.track.ba.map Prod.fst).rxBa).out := by
            have happ := BaOp.apply_map Prod.fst (s.track.stampOp op)
              s.track.ba.rxBa
            rw [Track.stampOp_erase] at happ
            rw [show (s.track.ba.map Prod.fst).rxBa
              = s.track.ba.rxBa.map Prod.fst from rfl, happ]
            rfl
          simp only [deliveryTrackStep, deliveryStep, hw, DeliveryTrack.erase]
          by_cases hbusy : s.out w = []
          · simp only [hbusy, List.map_nil, ne_eq, not_true, if_false, hba,
              Delivery.mk.injEq, true_and, and_true]
            funext v
            by_cases hv : v = w
            · subst hv
              simp only [Function.update_self, hout]
            · simp only [Function.update_of_ne hv]
          · simp only [ne_eq, hbusy, not_false_eq_true, if_true,
              List.map_eq_nil_iff]

/-- Stamps are ghosts: dropping them from the stamped interleaving gives
the plain one. -/
theorem deliveryTrackRun_erase (es : List (DeliveryEvent α)) :
    (deliveryTrackRun es).erase = deliveryRun es := by
  induction es using List.reverseRecOn with
  | nil => rfl
  | append_singleton es e ih =>
      rw [deliveryTrackRun, runFrom_append, deliveryRun, runFrom_append,
        ← deliveryRun, ← ih]
      exact deliveryTrackStep_erase _ e

-- =============================================================== the invariant

/-- Agreement by agreement: what was sent and what the threads hold is
what the windows let go, in order, and only one thread holds any. -/
structure HeldApart (s : DeliveryTrack α) : Prop where
  track : TrackInv s.track
  order : ∀ tid ep, s.track.deliveredIn tid ep
    = s.sent.filterMap (vnIn tid ep)
      ++ (s.out .rx).filterMap (vnIn tid ep)
      ++ (s.out .flush).filterMap (vnIn tid ep)
  apart : ∀ tid ep, (s.out .rx).filterMap (vnIn tid ep) = []
    ∨ (s.out .flush).filterMap (vnIn tid ep) = []

variable {s : DeliveryTrack α}

private theorem HeldApart.init : HeldApart (DeliveryTrack.init : DeliveryTrack α) :=
  ⟨TrackInv.init, fun _ _ => rfl, fun _ _ => .inl rfl⟩

/-- An operation files what it lets go behind what was let go before. -/
private theorem trackStep_deliveredIn (t : Track α) (op : BaOp α)
    (tid : Fin 8) (ep : Nat) :
    (trackStep t op).deliveredIn tid ep
      = t.deliveredIn tid ep ++ (t.lets op).filterMap (vnIn tid ep) := by
  rw [Track.deliveredIn, trackStep_ba, Track.deliveredIn, Track.lets,
    ← List.filterMap_append]
  cases op <;> rfl

/-- An operation of no delivering thread lets nothing go. -/
private theorem lets_of_worker_none (t : Track α) {op : BaOp α}
    (h : op.worker = none) : t.lets op = [] := by
  cases op with
  | setup alloc tid ssn bufsize => exact rxBaSetup_out _ _ _ _ _
  | teardown tid => exact rxBaTeardown_out _ _
  | input tid skb sn => cases h
  | flush => cases h

/-- Frames of one agreement, found by their numbers. -/
private theorem vnIn_some {tid : Fin 8} {ep v : Nat} {x : Stamped α}
    (h : vnIn tid ep x = some v) :
    ∃ st, x.2 = some st ∧ st.tid = tid ∧ st.epoch = ep := by
  obtain ⟨st, hst, hif⟩ := Option.bind_eq_some_iff.1 h
  split at hif
  next heq => exact ⟨st, hst, heq⟩
  next => cases hif

/-- Frames no two of which are of one agreement. -/
private theorem apart_of_not_sameWindow {xs ys : List (Stamped α)}
    (h : ∀ x ∈ xs, ∀ y ∈ ys, ¬SameWindow x y) (tid : Fin 8) (ep : Nat) :
    xs.filterMap (vnIn tid ep) = [] ∨ ys.filterMap (vnIn tid ep) = [] := by
  by_contra hboth
  obtain ⟨hx, hy⟩ := not_or.1 hboth
  obtain ⟨v, hv⟩ := List.exists_mem_of_ne_nil _ hx
  obtain ⟨w, hw⟩ := List.exists_mem_of_ne_nil _ hy
  obtain ⟨x, hmem, hxv⟩ := List.mem_filterMap.1 hv
  obtain ⟨y, hmem', hyw⟩ := List.mem_filterMap.1 hw
  obtain ⟨st, hst, htid, hep⟩ := vnIn_some hxv
  obtain ⟨st', hst', htid', hep'⟩ := vnIn_some hyw
  refine h x hmem y hmem' ?_
  rw [SameWindow, hst, hst']
  exact ⟨htid.trans htid'.symm, hep.trans hep'.symm⟩

/-- A critical section, entered as it should be. -/
private theorem HeldApart.enter (h : HeldApart s) {op : BaOp α}
    (hwait : WaitsForOther s (.enter op)) :
    HeldApart (deliveryTrackStep s (.enter op)) := by
  have htrack := trackStep_inv h.track op
  have hfile := trackStep_deliveredIn s.track op
  cases hw : op.worker with
  | none =>
      simp only [deliveryTrackStep, hw]
      refine ⟨htrack, fun tid ep => ?_, h.apart⟩
      rw [hfile, lets_of_worker_none s.track hw, List.filterMap_nil,
        List.append_nil]
      exact h.order tid ep
  | some w =>
      simp only [deliveryTrackStep, hw]
      by_cases hbusy : s.out w = []
      · have hapart := fun tid ep => apart_of_not_sameWindow
          (hwait w hw hbusy) tid ep
        rw [if_neg (not_not.2 hbusy)]
        cases w with
        | rx =>
            refine ⟨htrack, fun tid ep => ?_, fun tid ep => ?_⟩
            · have hold := h.order tid ep
              rw [hbusy, List.filterMap_nil, List.append_nil] at hold
              rw [hfile, hold]
              show _ = s.sent.filterMap (vnIn tid ep)
                ++ (s.track.lets op).filterMap (vnIn tid ep)
                ++ (s.out .flush).filterMap (vnIn tid ep)
              rcases hapart tid ep with hnil | hnil
              · rw [hnil, List.append_nil, List.append_nil]
              · rw [show (s.out .flush).filterMap (vnIn tid ep) = [] from hnil,
                  List.append_nil, List.append_nil]
            · exact hapart tid ep
        | flush =>
            refine ⟨htrack, fun tid ep => ?_, fun tid ep => ?_⟩
            · have hold := h.order tid ep
              rw [hbusy, List.filterMap_nil, List.append_nil] at hold
              rw [hfile, hold]
              rfl
            · exact (hapart tid ep).symm
      · rw [if_pos hbusy]
        exact h

/-- One delivery. -/
private theorem HeldApart.deliver (h : HeldApart s) (w : Worker) :
    HeldApart (deliveryTrackStep s (.deliver w)) := by
  simp only [deliveryTrackStep, deliverOne]
  cases hout : s.out w with
  | nil => exact h
  | cons x rest =>
      -- what the thread holds, with its first frame moved to what was sent
      have hsplit : ∀ tid ep, (s.out w).filterMap (vnIn tid ep)
          = [x].filterMap (vnIn tid ep) ++ rest.filterMap (vnIn tid ep) := by
        intro tid ep
        rw [hout, ← List.filterMap_append]
        rfl
      cases w with
      | rx =>
          refine ⟨h.track, fun tid ep => ?_, fun tid ep => ?_⟩
          · rw [h.order tid ep, hsplit, List.filterMap_append]
            simp only [List.append_assoc]
            rfl
          · refine (h.apart tid ep).imp (fun hnil => ?_) id
            rw [hsplit] at hnil
            exact (List.append_eq_nil_iff.1 hnil).2
      | flush =>
          refine ⟨h.track, fun tid ep => ?_, fun tid ep => ?_⟩
          · rw [h.order tid ep, hsplit, List.filterMap_append]
            show _ = _ ++ _ ++ (s.out .rx).filterMap (vnIn tid ep)
              ++ rest.filterMap (vnIn tid ep)
            rcases h.apart tid ep with hnil | hnil
            · simp only [hnil, List.append_assoc, List.append_nil]
            · rw [hsplit] at hnil
              obtain ⟨h1, h2⟩ := List.append_eq_nil_iff.1 hnil
              simp only [h1, h2, List.append_nil]
          · refine (h.apart tid ep).imp id fun hnil => ?_
            rw [hsplit] at hnil
            exact (List.append_eq_nil_iff.1 hnil).2

private theorem deliveryTrackStep_heldApart {e : DeliveryEvent α}
    (h : HeldApart s) (hwait : WaitsForOther s e) :
    HeldApart (deliveryTrackStep s e) := by
  cases e with
  | enter op => exact h.enter hwait
  | deliver w => exact h.deliver w

/-- What was sent is the front of what was let go. -/
private theorem HeldApart.inOrder (h : HeldApart s) : SentInOrder s := by
  intro tid ep
  have hall := h.track.order tid ep
  rw [h.order, List.append_assoc] at hall
  exact (List.pairwise_append.1 hall).1

-- ================================================================== overtaking

/-- A thread that runs on alone delivers all it holds. -/
private theorem drain (w : Worker) (xs : List (Stamped α)) :
    ∀ s : DeliveryTrack α, s.out w = xs →
      ∃ es, (runFrom deliveryTrackStep s es).sent = s.sent ++ xs
        ∧ (runFrom deliveryTrackStep s es).out w.other = s.out w.other := by
  have hne : w.other ≠ w := by cases w <;> decide
  induction xs with
  | nil => exact fun s _ => ⟨[], (List.append_nil _).symm, rfl⟩
  | cons x xs ih =>
      intro s hout
      have hstep : deliveryTrackStep s (.deliver w)
          = { s with
              out := Function.update s.out w xs, sent := s.sent ++ [x] } := by
        simp only [deliveryTrackStep, deliverOne, hout]
      obtain ⟨es, hsent, hother⟩ := ih (deliveryTrackStep s (.deliver w))
        (by rw [hstep]; exact Function.update_self _ _ _)
      refine ⟨.deliver w :: es, ?_, ?_⟩
      · rw [runFrom_cons, hsent, hstep, List.append_assoc]
        rfl
      · rw [runFrom_cons, hother, hstep]
        exact Function.update_of_ne hne _ _

/-- Frames of one agreement have numbers there. -/
private theorem SameWindow.numbers {x y : Stamped α} (h : SameWindow x y) :
    ∃ tid ep v w, vnIn tid ep x = some v ∧ vnIn tid ep y = some w := by
  cases hx : x.2 with
  | none => simp [SameWindow, hx] at h
  | some st =>
      cases hy : y.2 with
      | none => simp [SameWindow, hx, hy] at h
      | some st' =>
          rw [SameWindow, hx, hy] at h
          obtain ⟨htid, hep⟩ := h
          refine ⟨st.tid, st.epoch, st.vn, st'.vn, ?_, ?_⟩
          · rw [vnIn, hx]
            exact if_pos ⟨rfl, rfl⟩
          · rw [vnIn, hy]
            exact if_pos ⟨htid.symm, hep.symm⟩

/-- The condition asks for no more than it has to: where a thread is
about to overtake the other, some deliveries bring the frames out of
order. -/
theorem overtaking_reorders (h : HeldApart s) {op : BaOp α}
    (hover : ¬WaitsForOther s (.enter op)) :
    ∃ es, ¬SentInOrder (runFrom deliveryTrackStep s (.enter op :: es)) := by
  simp only [WaitsForOther, LetsNoneOver, not_forall, not_not] at hover
  obtain ⟨w, hw, hbusy, x, hx, y, hy, hsame⟩ := hover
  obtain ⟨tid, ep, v, u, hv, hu⟩ := hsame.numbers
  have hne : w.other ≠ w := by cases w <;> decide
  have hworker : op.worker = some w := hw
  have hstep : deliveryTrackStep s (.enter op)
      = { s with
          track := trackStep s.track op
          out := Function.update s.out w (s.track.lets op) } := by
    simp only [deliveryTrackStep, hworker, if_neg (not_not.2 hbusy)]
  -- the thread delivers what it took, then the other one does
  obtain ⟨es, hsent, hother⟩ := drain w (s.track.lets op)
    (deliveryTrackStep s (.enter op))
    (by rw [hstep]; exact Function.update_self _ _ _)
  obtain ⟨fs, hsent', -⟩ := drain w.other (s.out w.other)
    (runFrom deliveryTrackStep (deliveryTrackStep s (.enter op)) es)
    (by rw [hother, hstep]; exact Function.update_of_ne hne _ _)
  refine ⟨es ++ fs, fun hin => ?_⟩
  have hbad := hin tid ep
  rw [runFrom_cons, runFrom_append, hsent', hsent, hstep,
    List.filterMap_append, List.filterMap_append] at hbad
  -- but the windows let them go the other way round
  have hgood := (trackStep_inv h.track op).order tid ep
  rw [trackStep_deliveredIn] at hgood
  have hxv : v ∈ (s.track.lets op).filterMap (vnIn tid ep) :=
    List.mem_filterMap.2 ⟨x, hx, hv⟩
  have hyu : u ∈ (s.out w.other).filterMap (vnIn tid ep) :=
    List.mem_filterMap.2 ⟨y, hy, hu⟩
  have hold : u ∈ s.track.deliveredIn tid ep := by
    rw [h.order]
    cases w with
    | rx => exact List.mem_append_right _ hyu
    | flush => exact List.mem_append_left _ (List.mem_append_right _ hyu)
  have hlt := (List.pairwise_append.1 hgood).2.2 u hold v hxv
  have hgt := (List.pairwise_append.1 hbad).2.2 v
    (List.mem_append_right _ hxv) u hyu
  omega

-- ==================================================================== result

/-- In every interleaving in which no section lets frames of a TID go
while the other thread has frames of that TID to deliver, the frames of
every TID are delivered in order, at every point of it. -/
theorem delivery_in_order_without_overtaking (es : List (DeliveryEvent α))
    (h : Along deliveryTrackStep WaitsForOther DeliveryTrack.init es) :
    (deliveryTrackRun es).erase = deliveryRun es
      ∧ Along deliveryTrackStep (fun s e => SentInOrder (deliveryTrackStep s e))
        DeliveryTrack.init es := by
  refine ⟨deliveryTrackRun_erase es, along_of_inv (I := HeldApart) ?_
    HeldApart.init h⟩
  intro s e hinv hwait
  have hnext := deliveryTrackStep_heldApart hinv hwait
  exact ⟨hnext, hnext.inOrder⟩

private theorem tidZero_lt : 0 < 8 := by decide

/-- A frame that arrives in front of a hole, the flush that lets it go,
the frame behind it, and then the RX thread first. -/
def overtakingEvents : List (DeliveryEvent Unit) :=
  [.enter (.setup true 0 0 64), .enter (.input ⟨0, tidZero_lt⟩ () 1),
   .enter .flush, .enter (.input ⟨0, tidZero_lt⟩ () 2), .deliver .rx,
   .deliver .flush]

/-- Delivered one after the other they are in order. -/
theorem sample_delivery_in_order :
    let es := [.enter (.setup true 0 0 64), .enter (.input 0 () 1),
      .enter .flush, .deliver .flush, .enter (.input 0 () 2), .deliver .rx]
    (deliveryTrackRun es).erase = deliveryRun es
      ∧ Along deliveryTrackStep
        (fun s e => SentInOrder (deliveryTrackStep s e))
        (DeliveryTrack.init : DeliveryTrack Unit) es :=
  delivery_in_order_without_overtaking _ (by decide +kernel)

/-- The frame with virtual number 2 reaches the stack before that with
number 1. -/
theorem flush_overtaken :
    (deliveryTrackRun overtakingEvents).sent.filterMap (vnIn 0 1) = [2, 1]
      ∧ ¬SentInOrder (deliveryTrackRun overtakingEvents) := by
  have hsent : (deliveryTrackRun overtakingEvents).sent.filterMap (vnIn 0 1)
      = [2, 1] := by
    decide +kernel
  refine ⟨hsent, fun h => ?_⟩
  have hpair := h 0 1
  rw [hsent] at hpair
  revert hpair
  decide

end Rtw88
