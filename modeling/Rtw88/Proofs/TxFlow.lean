/-
Flow control on transmit, over every interleaving: no packet is lost or
overtaken in the queue, none meets a full ring, and a stalled queue is
always on its way to be served again. And NAPI leaves no frame behind.

# The packets

`PacketAccount` says where every packet that arrived is. `flowStep_packets`
lists what a step can do to the packets, and the invariant is checked
against that list.

# The stall

`Woken` is the invariant behind `stalled_queue_marked_iff`: a stalled
queue is marked in `_txStalled`, or a thread that took the mark away is
about to call `service`. The window to close is between the store to
`_txStalled` and the return of `kIOReturnOutputStall`: a `service` that
falls into it finds nothing stalled, and all depends on whether the queue
remembers it.

The mark alone resumes nothing when the last interrupt came too early:
the bottom half may have looked at `_txStalled` just before it was set,
with no frame left in the ring to interrupt again. `tick_resumes` is the
debug timer's part: with room in the ring, one activation of it is enough.
-/
import Rtw88.Model.TxFlow
import Mathlib.Data.List.Perm.Basic

namespace Rtw88

variable {remembers : Bool} {ringLen : Nat}

-- ============================================================== the packets

/-- The packet `outputPacket` holds. -/
def TxFlow.inFlight (s : TxFlow) : List (List UInt8) :=
  s.out.toList.map Prod.snd

/-- The packets that arrived and did not leave, oldest first. -/
def TxFlow.waiting (s : TxFlow) : List (List UInt8) := s.inFlight ++ s.queue

/-- The packets handed to `_ieee80211->outputPacket`, in order. -/
def TxFlow.handed (s : TxFlow) : List (List UInt8) :=
  (s.gone.filter fun g => g.2 = .handed).map Prod.fst

/-- What a step does to the packets: nothing, take one in, let the oldest
go, or flush the queue behind the one in flight. -/
inductive PacketMove (s s' : TxFlow) : Prop
  | none (arrived : s'.arrived = s.arrived) (gone : s'.gone = s.gone)
      (waiting : s'.waiting = s.waiting)
  | arrive (m : List UInt8) (arrived : s'.arrived = s.arrived ++ [m])
      (gone : s'.gone = s.gone) (waiting : s'.waiting = s.waiting ++ [m])
  | leave (m : List UInt8) (f : Fate) (arrived : s'.arrived = s.arrived)
      (gone : s'.gone = s.gone ++ [(m, f)])
      (waiting : s.waiting = m :: s'.waiting)
      (up : f ≠ .handed → s.enabled = false)
  | flush (arrived : s'.arrived = s.arrived)
      (gone : s'.gone = s.gone ++ s.queue.map fun m => (m, .flushed))
      (waiting : s'.waiting = s.inFlight) (down : s.enabled = false)

/-- A stretch of `outputPacket` makes one move of the packet it holds. -/
private theorem outputPacket_packets (takes : Bool) (s : TxFlow) :
    PacketMove s (s.outputPacket remembers ringLen takes) := by
  unfold TxFlow.outputPacket
  split
  · exact .none rfl rfl rfl
  next m hout =>
    split
    · exact .none rfl rfl (by simp [TxFlow.waiting, TxFlow.inFlight, hout])
    next hoff =>
      exact .leave m .refused rfl rfl
        (by simp [TxFlow.waiting, TxFlow.inFlight, hout])
        fun _ => by simpa using hoff
  next m hout =>
    refine .none rfl rfl ?_
    simp only [TxFlow.waiting, TxFlow.inFlight, hout]
    split <;> rfl
  next m hout =>
    exact .none rfl rfl (by simp [TxFlow.waiting, TxFlow.inFlight, hout])
  next m hout =>
    exact .none rfl rfl (by simp [TxFlow.waiting, TxFlow.inFlight, hout])
  next m hout =>
    have hwait : s.waiting = m :: s.queue := by
      simp [TxFlow.waiting, TxFlow.inFlight, hout]
    have hup : Fate.handed ≠ .handed → s.enabled = false :=
      fun h => absurd rfl h
    dsimp only
    split
    · unfold TxFlow.writeRing
      split <;> exact .leave m .handed rfl rfl hwait hup
    · exact .leave m .handed rfl rfl hwait hup

/-- A thread of flow control touches no packet. -/
private theorem stepThread_packets (i : Nat) (s : TxFlow) :
    PacketMove s (s.stepThread ringLen i) := by
  unfold TxFlow.stepThread
  split
  · exact .none rfl rfl rfl
  next pc _ => cases pc <;> exact .none rfl rfl rfl

private theorem stepTick_packets (s : TxFlow) :
    PacketMove s (s.stepTick ringLen) := by
  unfold TxFlow.stepTick
  split
  · exact .none rfl rfl rfl
  next pc _ => cases pc <;> exact .none rfl rfl rfl

/-- What any step does to the packets. -/
theorem flowStep_packets (s : TxFlow) (e : FlowEvent) :
    PacketMove s (flowStep remembers ringLen s e) := by
  cases e with
  | arrive m =>
      simp only [flowStep]
      split
      · exact .arrive m rfl rfl (by
          simp [TxFlow.waiting, TxFlow.inFlight])
      · exact .none rfl rfl rfl
  | dispatch =>
      simp only [flowStep]
      split
      next hgo =>
        have hout : s.out = none := by
          have h := (Bool.and_eq_true_iff.1 hgo).2
          exact Option.isNone_iff_eq_none.1 h
        split
        · exact .none rfl rfl rfl
        next m rest hq =>
          exact .none rfl rfl (by
            simp [TxFlow.waiting, TxFlow.inFlight, hout, hq])
      · exact .none rfl rfl rfl
  | output takes => exact outputPacket_packets takes s
  | thread i => exact stepThread_packets i s
  | tick => exact stepTick_packets s
  | queueFlush =>
      simp only [flowStep]
      split
      · exact .none rfl rfl rfl
      next hoff =>
        exact .flush rfl rfl (by simp [TxFlow.waiting, TxFlow.inFlight])
          (by simpa using hoff)
  | otherTx => simp only [flowStep]; split <;> exact .none rfl rfl rfl
  | trigger wake => exact .none rfl rfl rfl
  | bottomHalf k => simp only [flowStep]; split <;> exact .none rfl rfl rfl
  | disable => exact .none rfl rfl rfl
  | queueStop => simp only [flowStep]; split <;> exact .none rfl rfl rfl
  | queueStart clears =>
      simp only [flowStep]
      split <;> exact .none rfl rfl rfl
  | enable => simp only [flowStep]; split <;> exact .none rfl rfl rfl
  | setResumeCb on => exact .none rfl rfl rfl

/-- Every packet that arrived is waiting or left in one of three ways, and
those handed on and those waiting are in the order of their arrival. -/
structure PacketAccount (s : TxFlow) : Prop where
  all : s.arrived.Perm (s.gone.map Prod.fst ++ s.waiting)
  order : (s.handed ++ s.waiting).Sublist s.arrived

/-- The packets handed over, after one more is gone. -/
private theorem handed_snoc (s s' : TxFlow) {m : List UInt8} {f : Fate}
    (h : s'.gone = s.gone ++ [(m, f)]) :
    s'.handed = s.handed ++ if f = .handed then [m] else [] := by
  unfold TxFlow.handed
  rw [h, List.filter_append, List.map_append]
  by_cases hf : f = .handed
  · simp [hf]
  · simp [hf]

private theorem handed_flush (s s' : TxFlow)
    (h : s'.gone = s.gone ++ s.queue.map fun m => (m, .flushed)) :
    s'.handed = s.handed := by
  unfold TxFlow.handed
  rw [h, List.filter_append, List.map_append]
  have hnone : ((s.queue.map fun m => (m, Fate.flushed)).filter
      fun g => decide (g.2 = Fate.handed)) = [] := by
    apply List.filter_eq_nil_iff.2
    intro g hg
    obtain ⟨m, _, rfl⟩ := List.mem_map.1 hg
    simp
  rw [hnone]
  simp

/-- Whatever a step does with a packet, the account of all packets stays
right. -/
theorem PacketMove.account {s s' : TxFlow} (hm : PacketMove s s')
    (h : PacketAccount s) : PacketAccount s' := by
  cases hm with
  | none harr hgone hwait =>
      refine ⟨?_, ?_⟩
      · rw [harr, hgone, hwait]
        exact h.all
      · rw [TxFlow.handed, harr, hgone, hwait]
        exact h.order
  | arrive m harr hgone hwait =>
      refine ⟨?_, ?_⟩
      · rw [harr, hgone, hwait, ← List.append_assoc]
        exact h.all.append_right [m]
      · rw [TxFlow.handed, harr, hgone, hwait, ← List.append_assoc]
        exact h.order.append (List.Sublist.refl [m])
  | leave m f harr hgone hwait hup =>
      refine ⟨?_, ?_⟩
      · have hall := h.all
        rw [hwait] at hall
        rw [harr, hgone]
        simpa using hall
      · have hord := h.order
        rw [hwait] at hord
        rw [harr, handed_snoc s s' hgone]
        refine List.Sublist.trans ?_ hord
        rw [List.append_assoc]
        refine (List.Sublist.refl _).append ?_
        split
        · exact List.Sublist.refl _
        · exact List.sublist_cons_self m _
  | flush harr hgone hwait hdown =>
      refine ⟨?_, ?_⟩
      · rw [harr, hgone, hwait]
        refine h.all.trans ?_
        rw [List.map_append, List.map_map, List.append_assoc]
        refine List.Perm.append_left _ ?_
        rw [show (Prod.fst ∘ fun m => (m, Fate.flushed))
          = (id : List UInt8 → List UInt8) from rfl, List.map_id]
        exact List.perm_append_comm
      · rw [harr, handed_flush s s' hgone, hwait]
        refine List.Sublist.trans ?_ h.order
        exact (List.Sublist.refl _).append (List.sublist_append_left _ _)

/-- While the interface stays up every packet that leaves is handed on. -/
theorem PacketMove.allHanded {s s' : TxFlow} (hm : PacketMove s s')
    (hup : s.enabled = true)
    (h : s.handed ++ s.waiting = s.arrived) :
    s'.handed ++ s'.waiting = s'.arrived := by
  cases hm with
  | none harr hgone hwait =>
      rw [TxFlow.handed, harr, hgone, hwait]
      exact h
  | arrive m harr hgone hwait =>
      rw [TxFlow.handed, harr, hgone, hwait, ← List.append_assoc, ← h]
      rfl
  | leave m f harr hgone hwait hdown =>
      have hf : f = .handed := by
        by_contra hne
        rw [hdown hne] at hup
        cases hup
      rw [harr, handed_snoc s s' hgone, if_pos hf, List.append_assoc,
        List.singleton_append, ← hwait]
      exact h
  | flush harr hgone hwait hdown =>
      rw [hdown] at hup
      cases hup

/-- Only `disable` takes the interface down. -/
theorem flowStep_enabled {s : TxFlow} {e : FlowEvent} (he : e ≠ .disable)
    (h : s.enabled = true) :
    (flowStep remembers ringLen s e).enabled = true := by
  cases e with
  | disable => exact absurd rfl he
  | output takes =>
      simp only [flowStep, TxFlow.outputPacket]
      split
      · exact h
      · split <;> exact h
      · exact h
      · exact h
      · exact h
      · split
        · unfold TxFlow.writeRing
          split <;> exact h
        · exact h
  | thread i =>
      simp only [flowStep, TxFlow.stepThread]
      split
      · exact h
      next pc _ => cases pc <;> exact h
  | tick =>
      simp only [flowStep, TxFlow.stepTick]
      split
      · exact h
      next pc _ => cases pc <;> exact h
  | dispatch =>
      simp only [flowStep]
      split
      · split <;> exact h
      · exact h
  | setResumeCb on => exact h
  | trigger wake => exact h
  | _ =>
      simp only [flowStep]
      split
      · first | exact h | rfl
      · exact h

/-- Every packet that arrived is waiting, or was handed on, refused or
flushed; those handed on are in the order of their arrival, before those
that wait; and in a run without a `disable` every packet that left was
handed on. -/
theorem tx_queue_in_order (es : List FlowEvent) :
    let s := flowRun remembers ringLen es
    s.arrived.Perm (s.gone.map Prod.fst ++ s.waiting)
      ∧ (s.handed ++ s.waiting).Sublist s.arrived
      ∧ ((∀ e ∈ es, e ≠ .disable) → s.handed ++ s.waiting = s.arrived) := by
  have hacc : PacketAccount (flowRun remembers ringLen es) :=
    runFrom_inv (fun s e h => (flowStep_packets s e).account h)
      (s := TxFlow.init) ⟨List.Perm.refl _, List.Sublist.refl _⟩ es
  refine ⟨hacc.all, hacc.order, fun hes => ?_⟩
  have hgen : ∀ (es : List FlowEvent) (s : TxFlow), s.enabled = true →
      s.handed ++ s.waiting = s.arrived → (∀ e ∈ es, e ≠ .disable) →
      (runFrom (flowStep remembers ringLen) s es).handed
        ++ (runFrom (flowStep remembers ringLen) s es).waiting
        = (runFrom (flowStep remembers ringLen) s es).arrived := by
    intro es
    induction es with
    | nil => exact fun s _ h _ => h
    | cons e es ih =>
        intro s hup h hall
        have he := hall e List.mem_cons_self
        exact ih _ (flowStep_enabled he hup)
          ((flowStep_packets s e).allHanded hup h)
          fun e' he' => hall e' (List.mem_cons_of_mem _ he')
  exact hgen es TxFlow.init rfl rfl hes

/-- Two packets, of which the first is handed on. -/
def samplePackets : List FlowEvent :=
  [.arrive [1], .arrive [2], .dispatch, .output true, .output true,
    .output true]

/-- Two packets queued, and handed over in turn. -/
theorem sample_queue_in_order :
    let s := flowRun true 256 samplePackets
    s.handed = [[1]] ∧ s.waiting = [[2]]
      ∧ s.handed ++ s.waiting = s.arrived :=
  ⟨by decide, by decide,
    (tx_queue_in_order samplePackets).2.2 (by decide)⟩


-- ================================================================= the ring

/-- A call that hands its packet on was overtaken, since its look at the
ring, by fewer frames from elsewhere than it found slots. -/
def LeavesRoom (s : TxFlow) : FlowEvent → Prop
  | .output _ =>
      s.out.map Prod.fst = some .submit → s.others < kRTW88TxStallAvail
  | _ => True

instance (s : TxFlow) (e : FlowEvent) : Decidable (LeavesRoom s e) := by
  cases e <;> unfold LeavesRoom <;> infer_instance

/-- A call that is about to hand its packet on has found room, and only
frames from elsewhere have taken any of it. -/
structure RoomInv (ringLen : Nat) (s : TxFlow) : Prop where
  room : ∀ m, s.out = some (.submit, m) →
    kRTW88TxStallAvail ≤ s.beTxAvail ringLen + s.others
  lost : s.lost = []

/-- What keeps the call, and takes no slot or counts it, keeps the
invariant. -/
private theorem RoomInv.of_same {s s' : TxFlow} (h : RoomInv ringLen s)
    (hout : s'.out = s.out) (hlost : s'.lost = s.lost)
    (hroom : s.beTxAvail ringLen + s.others
      ≤ s'.beTxAvail ringLen + s'.others) : RoomInv ringLen s' where
  room m hm := Nat.le_trans (h.room m (hout ▸ hm)) hroom
  lost := hlost.trans h.lost

/-- And so does what leaves no call about to hand its packet on. -/
private theorem RoomInv.of_out {s s' : TxFlow} (h : RoomInv ringLen s)
    (hout : ∀ m, s'.out ≠ some (.submit, m)) (hlost : s'.lost = s.lost) :
    RoomInv ringLen s' where
  room m hm := absurd hm (hout m)
  lost := hlost.trans h.lost

/-- `outputPacket` finds the room its threshold promised, if the frames of
others since then stay below it. -/
private theorem outputPacket_room {s : TxFlow} (takes : Bool)
    (h : RoomInv ringLen s)
    (hroom : s.out.map Prod.fst = some .submit →
      s.others < kRTW88TxStallAvail) :
    RoomInv ringLen (s.outputPacket remembers ringLen takes) := by
  unfold TxFlow.outputPacket
  split
  · exact h
  · split
    · exact h.of_out (fun m hm => by cases hm) rfl
    · exact h.of_out (fun m hm => by cases hm) rfl
  next m hout =>
    refine ⟨fun m' hm' => ?_, h.lost⟩
    by_cases hfull : s.beTxAvail ringLen < kRTW88TxStallAvail
    · rw [if_pos hfull] at hm'
      cases hm'
    · exact Nat.le_of_not_lt hfull
  · exact h.of_out (fun m hm => by cases hm) rfl
  · exact h.of_out (fun m hm => by cases hm) rfl
  next m hout =>
    have hfree := h.room m hout
    have hothers := hroom (by rw [hout]; rfl)
    have hbusy : s.busy < ringLen := by
      unfold TxFlow.beTxAvail at hfree
      omega
    dsimp only
    split
    · rw [TxFlow.writeRing, if_pos hbusy]
      exact h.of_out (fun m hm => by cases hm) rfl
    · exact h.of_out (fun m hm => by cases hm) rfl

theorem flowStep_room {s : TxFlow} {e : FlowEvent} (h : RoomInv ringLen s)
    (hroom : LeavesRoom s e) :
    RoomInv ringLen (flowStep remembers ringLen s e) := by
  cases e with
  | output takes => exact outputPacket_room takes h hroom
  | dispatch =>
      simp only [flowStep]
      split
      · split
        · exact h
        · exact h.of_out (fun m hm => by cases hm) rfl
      · exact h
  | otherTx =>
      simp only [flowStep]
      split
      next hfree =>
        refine h.of_same rfl rfl ?_
        simp only [TxFlow.beTxAvail]
        omega
      · exact h
  | bottomHalf k =>
      simp only [flowStep]
      split
      · refine h.of_same rfl rfl ?_
        simp only [TxFlow.beTxAvail]
        omega
      · exact h
  | thread i =>
      simp only [flowStep, TxFlow.stepThread]
      split
      · exact h
      next pc _ => cases pc <;> exact h.of_same rfl rfl (Nat.le_refl _)
  | tick =>
      simp only [flowStep, TxFlow.stepTick]
      split
      · exact h.of_same rfl rfl (Nat.le_refl _)
      next pc _ => cases pc <;> exact h.of_same rfl rfl (Nat.le_refl _)
  | trigger wake => exact h.of_same rfl rfl (Nat.le_refl _)
  | disable => exact h.of_same rfl rfl (Nat.le_refl _)
  | setResumeCb on => exact h.of_same rfl rfl (Nat.le_refl _)
  | _ =>
      simp only [flowStep]
      split <;> exact h.of_same rfl rfl (Nat.le_refl _)

/-- In every run in which no `outputPacket`, between its look at the ring
and its handing on, is overtaken by as many frames from elsewhere as its
threshold leaves slots, no packet of the queue meets a full ring. -/
theorem full_ring_never_met (es : List FlowEvent)
    (h : Along (flowStep remembers ringLen) LeavesRoom TxFlow.init es) :
    (flowRun remembers ringLen es).lost = [] :=
  (inv_of_along (fun _ _ hi hc => flowStep_room hi hc)
    (s := TxFlow.init) ⟨fun m hm => (by cases hm), rfl⟩ h).lost

/-- A ring that others had filled before the call, and one of them in the
middle of it. -/
theorem sample_ring_never_full :
    (flowRun true 256 (List.replicate 96 .otherTx
      ++ [.trigger true, .bottomHalf 1, .arrive [1], .dispatch, .output true,
        .output true, .otherTx, .output true])).lost = [] :=
  full_ring_never_met _ (by decide +kernel)

-- ================================================================ the stall

/-- A thread is about to call `service`. -/
def TxFlow.Serving (s : TxFlow) : Prop :=
  s.tick = some .service ∨ FlowPc.service ∈ s.threads

/-- A stalled queue holds no packet out, and it, or a queue about to
stall, is marked, or is about to be served, or has been. -/
structure Woken (s : TxFlow) : Prop where
  idle : s.qStalled = true → s.out = none
  marked : s.qStalled = true → s.txStalled = true ∨ s.Serving
  returning : ∀ m, s.out = some (.stall, m) →
    s.txStalled = true ∨ s.serviced = true ∨ s.Serving

/-- What a step of a thread does to the mark, the queue and the threads
about to call `service`. -/
inductive ThreadMove (s s' : TxFlow) : Prop
  | quiet (mark : s'.txStalled = s.txStalled)
      (queue : s'.qStalled = s.qStalled)
      (served : s'.serviced = s.serviced) (out : s'.out = s.out)
      (serving : s.Serving → s'.Serving)
  | clear (queue : s'.qStalled = s.qStalled) (out : s'.out = s.out)
      (serving : s'.Serving)
  | service (mark : s'.txStalled = s.txStalled)
      (queue : s'.qStalled = false)
      (served : s'.serviced = (s.serviced || s.out.isSome))
      (out : s'.out = s.out)

/-- A thread that is not the one at place `i` is still there when that one
has gone on. -/
private theorem mem_putThread {threads : List FlowPc} {i : Nat}
    {pc u : FlowPc} (hi : threads[i]? = some pc) (hu : u ∈ threads)
    (hne : u ≠ pc) (r : Option FlowPc) : u ∈ putThread threads i r := by
  obtain ⟨j, hj⟩ := List.mem_iff_getElem?.1 hu
  have hij : i ≠ j := by
    rintro rfl
    exact hne (Option.some.inj (hj.symm.trans hi))
  cases r with
  | some pc' =>
      refine List.mem_iff_getElem?.2 ⟨j, ?_⟩
      rw [putThread, List.getElem?_set_ne hij]
      exact hj
  | none => exact List.mem_eraseIdx_iff_getElem?.2 ⟨j, Ne.symm hij, hj⟩

/-- The thread that moved is where it was, at its next place. -/
private theorem mem_putThread_self {threads : List FlowPc} {i : Nat}
    {pc : FlowPc} (hi : threads[i]? = some pc) (pc' : FlowPc) :
    pc' ∈ putThread threads i (some pc') := by
  obtain ⟨hlt, _⟩ := List.getElem?_eq_some_iff.1 hi
  exact List.mem_iff_getElem?.2 ⟨i, List.getElem?_set_self hlt⟩

/-- The step of a thread is one of these moves. -/
theorem stepThread_move (i : Nat) (s : TxFlow) :
    ThreadMove s (s.stepThread ringLen i) := by
  unfold TxFlow.stepThread
  split
  · exact .quiet rfl rfl rfl rfl id
  next pc hi =>
    have hquiet (hne : FlowPc.service ≠ pc)
        (hsame : (s.goOn ringLen pc).1 = s) :
        ThreadMove s { (s.goOn ringLen pc).1 with
          threads := putThread s.threads i (s.goOn ringLen pc).2 } := by
      rw [hsame]
      refine .quiet rfl rfl rfl rfl fun hs => ?_
      exact hs.imp_right fun h => mem_putThread hi h hne _
    cases pc with
    | clear => exact .clear rfl rfl (.inr (mem_putThread_self hi .service))
    | service => exact .service rfl rfl rfl rfl
    | tickAvail => exact hquiet (by simp) rfl
    | tickFlag avail => exact hquiet (by simp) rfl
    | callback => exact hquiet (by simp) rfl
    | flag => exact hquiet (by simp) rfl
    | avail => exact hquiet (by simp) rfl

/-- A stretch of the debug timer is one of them, too. -/
theorem stepTick_move (s : TxFlow) : ThreadMove s (s.stepTick ringLen) := by
  unfold TxFlow.stepTick
  split
  next htick =>
    refine .quiet rfl rfl rfl rfl ?_
    rintro (h | h)
    · rw [htick] at h
      cases h
    · exact .inr h
  next pc htick =>
    have hquiet (hne : pc ≠ .service) (hsame : (s.goOn ringLen pc).1 = s) :
        ThreadMove s { (s.goOn ringLen pc).1 with
          tick := (s.goOn ringLen pc).2 } := by
      rw [hsame]
      refine .quiet rfl rfl rfl rfl ?_
      rintro (h | h)
      · rw [htick] at h
        exact absurd (Option.some.inj h) hne
      · exact .inr h
    cases pc with
    | clear => exact .clear rfl rfl (.inl rfl)
    | service => exact .service rfl rfl rfl rfl
    | tickAvail => exact hquiet (by simp) rfl
    | tickFlag avail => exact hquiet (by simp) rfl
    | callback => exact hquiet (by simp) rfl
    | flag => exact hquiet (by simp) rfl
    | avail => exact hquiet (by simp) rfl

/-- A move of a thread keeps `Woken`: who clears the mark goes on to serve
the queue. -/
theorem ThreadMove.woken {s s' : TxFlow} (hm : ThreadMove s s')
    (h : Woken s) : Woken s' := by
  cases hm with
  | quiet mark queue served out serving =>
      refine ⟨?_, ?_, fun m hm => ?_⟩
      · rw [queue, out]
        exact h.idle
      · rw [queue, mark]
        exact fun hq => (h.marked hq).imp_right serving
      · rw [mark, served]
        exact (h.returning m (out ▸ hm)).imp_right
          (Or.imp_right serving)
  | clear queue out serving =>
      refine ⟨?_, fun _ => .inr serving, fun _ _ => .inr (.inr serving)⟩
      rw [queue, out]
      exact h.idle
  | service mark queue served out =>
      refine ⟨fun hq => ?_, fun hq => ?_, fun m hm => .inr (.inl ?_)⟩
      · rw [queue] at hq
        cases hq
      · rw [queue] at hq
        cases hq
      · rw [served, ← out, hm]
        simp

/-- A queue that runs needs an eye on its packet only. -/
private theorem Woken.of_running {s : TxFlow} (hq : s.qStalled = false)
    (hret : ∀ m, s.out = some (.stall, m) →
      s.txStalled = true ∨ s.serviced = true ∨ s.Serving) : Woken s where
  idle h := by
    rw [hq] at h
    cases h
  marked h := by
    rw [hq] at h
    cases h
  returning := hret

/-- `outputPacket` marks before it stalls the queue; a `service` in
between is remembered. -/
private theorem outputPacket_woken (takes : Bool) {s : TxFlow}
    (h : Woken s) : Woken (s.outputPacket true ringLen takes) := by
  have hrun (m : List UInt8) (pc : OutputPc)
      (hout : s.out = some (pc, m)) : s.qStalled = false := by
    by_contra hq
    have hnone := h.idle (by simpa using hq)
    rw [hout] at hnone
    cases hnone
  unfold TxFlow.outputPacket
  split
  · exact h
  next m hout =>
    have hq := hrun m _ hout
    split
    · exact .of_running hq fun m hm => by cases hm
    · exact .of_running hq fun m hm => by cases hm
  next m hout =>
    refine .of_running (hrun m _ hout) fun m' hm => ?_
    dsimp only at hm
    split at hm <;> cases hm
  next m hout => exact .of_running (hrun m _ hout) fun _ _ => .inl rfl
  next m hout =>
    refine ⟨fun _ => rfl, fun hq => ?_, fun m hm => by cases hm⟩
    have hserv : s.serviced = false := by simpa using hq
    rcases h.returning m hout with hmark | hs | hs
    · exact .inl hmark
    · rw [hserv] at hs
      cases hs
    · exact .inr hs
  next m hout =>
    have hq := hrun m _ hout
    dsimp only
    split
    · unfold TxFlow.writeRing
      split
      · exact .of_running hq fun m hm => by cases hm
      · exact .of_running hq fun m hm => by cases hm
    · exact .of_running hq fun m hm => by cases hm

/-- More threads, none of them about to call `service`. -/
private theorem Woken.of_same {s s' : TxFlow} (h : Woken s)
    (hq : s'.qStalled = s.qStalled) (hout : s'.out = s.out)
    (hmark : s'.txStalled = s.txStalled) (hserv : s'.serviced = s.serviced)
    (hs : s.Serving → s'.Serving) : Woken s' :=
  ThreadMove.woken (.quiet hmark hq hserv hout hs) h

/-- Every step of a driver that remembers the stall keeps `Woken`. -/
theorem flowStep_woken {s : TxFlow} (e : FlowEvent) (h : Woken s) :
    Woken (flowStep true ringLen s e) := by
  cases e with
  | output takes => exact outputPacket_woken takes h
  | thread i => exact (stepThread_move i s).woken h
  | tick => exact (stepTick_move s).woken h
  | dispatch =>
      simp only [flowStep]
      split
      next hgo =>
        have hq : s.qStalled = false := by simp_all
        split
        · exact h
        · exact .of_running hq fun m hm => by cases hm
      · exact h
  | bottomHalf k =>
      simp only [flowStep]
      split
      · exact h.of_same rfl rfl rfl rfl
          (Or.imp_right fun hs => List.mem_append_left _ hs)
      · exact h
  | queueStart clears =>
      simp only [flowStep]
      split
      · exact h
      · refine ⟨fun hq => ?_, fun hq => ?_, h.returning⟩
        · exact h.idle (by simp_all)
        · exact h.marked (by simp_all)
  | trigger wake => exact h.of_same rfl rfl rfl rfl id
  | disable => exact h.of_same rfl rfl rfl rfl id
  | setResumeCb on => exact h.of_same rfl rfl rfl rfl id
  | _ =>
      simp only [flowStep]
      split <;> exact h.of_same rfl rfl rfl rfl id

/-- Every run of it keeps `Woken`. -/
theorem flowRun_woken (es : List FlowEvent) :
    Woken (flowRun true ringLen es) :=
  runFrom_inv (fun _ e h => flowStep_woken e h) (s := TxFlow.init)
    ⟨fun _ => rfl, fun h => (by cases h), fun m hm => (by cases hm)⟩ es

/-- No call of `outputPacket` and no thread of flow control is under
way. -/
structure TxFlow.Quiet (s : TxFlow) : Prop where
  out : s.out = none
  threads : s.threads = []
  tick : s.tick = none

/-- The ring is filled up to the threshold; while `outputPacket` is
between its store and its return, the bottom half empties the ring and
runs to its end. -/
def forgetEvents (ringLen : Nat) : List FlowEvent :=
  List.replicate (ringLen - 95) .otherTx
    ++ [.arrive [], .dispatch, .output true, .output true, .output true,
      .trigger true, .bottomHalf ringLen, .thread 0, .thread 0, .thread 0,
      .thread 0, .thread 0, .output true]

/-- Frames of others fill the ring as far as they fit. -/
private theorem run_otherTx {n : Nat} {s : TxFlow}
    (h : s.busy + n ≤ ringLen) :
    runFrom (flowStep remembers ringLen) s (List.replicate n .otherTx)
      = { s with busy := s.busy + n, others := s.others + n } := by
  induction n generalizing s with
  | zero => rfl
  | succ n ih =>
      have hfree : s.busy < ringLen := by omega
      rw [List.replicate_succ, runFrom_cons]
      have hstep : flowStep remembers ringLen s .otherTx
          = { s with busy := s.busy + 1, others := s.others + 1 } := by
        simp only [flowStep, if_pos hfree]
      rw [hstep, ih (by dsimp only; omega)]
      simp only [TxFlow.mk.injEq, true_and]
      omega

/-- A queue that forgets a `service` is left stalled without a mark. -/
theorem forgotten_service (h : kRTW88TxResumeAvail ≤ ringLen) :
    let s := flowRun false ringLen (forgetEvents ringLen)
    s.Quiet ∧ s.qStalled = true ∧ s.txStalled = false := by
  have hlen : 160 ≤ ringLen := h
  have hfull : ringLen - (ringLen - 95) < 96 := by omega
  have hfill : runFrom (flowStep false ringLen) TxFlow.init
      (List.replicate (ringLen - 95) .otherTx) = _ :=
    run_otherTx (by simp [TxFlow.init])
  dsimp only
  unfold flowRun forgetEvents
  rw [runFrom_append, hfill]
  simp [runFrom, flowStep, TxFlow.init, TxFlow.outputPacket,
    TxFlow.stepThread, TxFlow.goOn, TxFlow.beTxAvail, TxFlow.service,
    putThread, outputQueueCapacity, kRTW88TxStallAvail,
    kRTW88TxResumeAvail, hfull, hlen]
  exact ⟨rfl, rfl, rfl⟩

/-- With a ring large enough to resume at all: in every run, a queue that
is stalled while no call and no thread is under way is marked in
`_txStalled`, if and only if the queue remembers a `service` that comes
while a packet is handed out. -/
theorem stalled_queue_marked_iff (h : kRTW88TxResumeAvail ≤ ringLen) :
    (∀ es, let s := flowRun remembers ringLen es
      s.Quiet → s.qStalled = true → s.txStalled = true)
      ↔ remembers = true := by
  refine ⟨fun hall => ?_, ?_⟩
  · by_contra hne
    have hforget : remembers = false := by simpa using hne
    subst hforget
    obtain ⟨hquiet, hq, hmark⟩ := forgotten_service h
    have hset := hall (forgetEvents ringLen) hquiet hq
    rw [hmark] at hset
    cases hset
  · rintro rfl es s hquiet hq
    rcases (flowRun_woken es).marked hq with hmark | hs | hs
    · exact hmark
    · have htick := hquiet.tick
      rw [show s.tick = some .service from hs] at htick
      cases htick
    · have hthreads := hquiet.threads
      rw [show s.threads = [] from hthreads] at hs
      cases hs

/-- The interrupt that frees the ring comes before the mark, and no other
is to come. -/
def lateMark : List FlowEvent :=
  List.replicate 161 .otherTx
    ++ [.arrive [1], .dispatch, .output true, .output true, .trigger true,
      .bottomHalf 161, .thread 0, .thread 0, .output true, .output true]

/-- It ends stalled with all quiet, and marked. -/
theorem sample_queue_marked :
    let s := flowRun true 256 lateMark
    s.Quiet ∧ s.qStalled = true ∧ s.txStalled = true := by
  intro s
  have hquiet : s.Quiet :=
    ⟨by decide +kernel, by decide +kernel, by decide +kernel⟩
  have hstalled : s.qStalled = true := by decide +kernel
  exact ⟨hquiet, hstalled, (stalled_queue_marked_iff (by decide)).2 rfl
    lateMark hquiet hstalled⟩

-- ========================================================== the debug timer

/-- Where the debug timer's activation goes on to resume, given a mark and
room in the ring. -/
def FlowPc.Ready : FlowPc → Prop
  | .tickAvail | .flag | .avail | .clear => True
  | .tickFlag a => kRTW88TxResumeAvail ≤ a
  | .callback | .service => False

/-- A stalled queue is about to be served, or the debug timer is on its
way to do it. -/
def Resuming (s : TxFlow) : Prop :=
  s.Serving ∨ (s.txStalled = true ∧ ∃ pc ∈ s.tick, pc.Ready)

/-- `Resuming` depends on the mark, the timer and the threads only. -/
private theorem Resuming.of_same {s s' : TxFlow} (h : Resuming s)
    (hmark : s'.txStalled = s.txStalled) (htick : s'.tick = s.tick)
    (hs : s.Serving → s'.Serving) : Resuming s' := by
  refine h.imp hs ?_
  rw [hmark, htick]
  exact id

/-- A thread does not touch the debug timer. -/
private theorem stepThread_tick (i : Nat) (s : TxFlow) :
    (s.stepThread ringLen i).tick = s.tick := by
  unfold TxFlow.stepThread
  split
  · rfl
  next pc _ => cases pc <;> rfl

/-- With room in the ring the timer's activation does not turn away from
a marked queue. -/
private theorem stepTick_resuming {s : TxFlow}
    (hroom : kRTW88TxResumeAvail ≤ s.beTxAvail ringLen)
    (hstall : (s.stepTick ringLen).qStalled = true) (h : Resuming s) :
    Resuming (s.stepTick ringLen) := by
  rcases h with hs | ⟨hmark, pc, htick, hready⟩
  · have hmove : ThreadMove s (s.stepTick ringLen) := stepTick_move s
    rcases hmove with
      ⟨-, -, -, -, hkeep⟩ | ⟨-, -, hserv⟩ | ⟨-, hq, -, -⟩
    · exact .inl (hkeep hs)
    · exact .inl hserv
    · rw [hq] at hstall
      cases hstall
  · have hsome : s.tick = some pc := htick
    unfold TxFlow.stepTick
    rw [hsome]
    cases pc with
    | tickAvail => exact .inr ⟨hmark, _, rfl, hroom⟩
    | tickFlag avail =>
        have havail : kRTW88TxResumeAvail ≤ avail := hready
        have hgo : (s.txStalled && decide (kRTW88TxResumeAvail ≤ avail))
            = true := by simp [hmark, havail]
        simp only [TxFlow.goOn, if_pos hgo]
        exact .inr ⟨hmark, _, rfl, trivial⟩
    | flag =>
        simp only [TxFlow.goOn, if_pos hmark]
        exact .inr ⟨hmark, _, rfl, trivial⟩
    | avail =>
        simp only [TxFlow.goOn, if_pos hroom]
        exact .inr ⟨hmark, _, rfl, trivial⟩
    | clear => exact .inl (.inl rfl)
    | callback => exact hready.elim
    | service => exact hready.elim

/-- With room in the ring, a step on which the queue stays stalled keeps the
debug timer on its way. -/
theorem flowStep_resuming {s : TxFlow} {e : FlowEvent} (hw : Woken s)
    (hroom : kRTW88TxResumeAvail ≤ s.beTxAvail ringLen)
    (hq : s.qStalled = true)
    (hq' : (flowStep true ringLen s e).qStalled = true)
    (h : Resuming s) : Resuming (flowStep true ringLen s e) := by
  cases e with
  | output takes =>
      have hout := hw.idle hq
      have hsame : flowStep true ringLen s (.output takes) = s := by
        simp only [flowStep, TxFlow.outputPacket, hout]
      rw [hsame]
      exact h
  | dispatch =>
      have hsame : flowStep true ringLen s .dispatch = s := by
        simp [flowStep, hq]
      rw [hsame]
      exact h
  | thread i =>
      have htick : (s.stepThread ringLen i).tick = s.tick :=
        stepThread_tick i s
      have hmove : ThreadMove s (s.stepThread ringLen i) :=
        stepThread_move i s
      rcases hmove with
        ⟨hmark, -, -, -, hkeep⟩ | ⟨-, -, hserv⟩ | ⟨-, hoff, -, -⟩
      · exact h.of_same hmark htick hkeep
      · exact .inl hserv
      · rw [show flowStep true ringLen s (.thread i)
          = s.stepThread ringLen i from rfl, hoff] at hq'
        cases hq'
  | tick => exact stepTick_resuming hroom hq' h
  | bottomHalf k =>
      simp only [flowStep]
      split
      · exact h.of_same rfl rfl
          (Or.imp_right fun hs => List.mem_append_left _ hs)
      · exact h
  | trigger wake => exact h.of_same rfl rfl id
  | disable => exact h.of_same rfl rfl id
  | setResumeCb on => exact h.of_same rfl rfl id
  | _ =>
      simp only [flowStep]
      split <;> exact h.of_same rfl rfl id

/-- No call of `outputPacket` is on its way to stall the queue. -/
def TxFlow.Flowing (s : TxFlow) : Prop :=
  ∀ m, s.out ≠ some (.mark, m) ∧ s.out ≠ some (.stall, m)

/-- With no call under way nothing is about to stall the queue. -/
private theorem TxFlow.Flowing.of_idle {s : TxFlow} (h : s.out = none) :
    s.Flowing := by
  intro m
  rw [h]
  exact ⟨nofun, nofun⟩

/-- While the ring has room, no call sets out to. -/
theorem flowStep_flowing {s : TxFlow} {e : FlowEvent}
    (hroom : kRTW88TxResumeAvail ≤ s.beTxAvail ringLen) (h : s.Flowing) :
    (flowStep remembers ringLen s e).Flowing := by
  have hout (pc : OutputPc) (hpc : pc ≠ .mark ∧ pc ≠ .stall)
      {s' : TxFlow} {m : List UInt8} (hs' : s'.out = some (pc, m)) :
      s'.Flowing := by
    intro m'
    rw [hs']
    exact ⟨fun hm => hpc.1 (congrArg Prod.fst (Option.some.inj hm)),
      fun hm => hpc.2 (congrArg Prod.fst (Option.some.inj hm))⟩
  have hmove {s' : TxFlow} (hm : ThreadMove s s') : s'.Flowing := by
    have hsame : s'.out = s.out := by
      cases hm with
      | quiet _ _ _ hsame _ => exact hsame
      | clear _ hsame _ => exact hsame
      | service _ _ _ hsame => exact hsame
    intro m
    rw [hsame]
    exact h m
  cases e with
  | output takes =>
      simp only [flowStep, TxFlow.outputPacket]
      split
      · exact h
      · split
        · exact hout .room (by decide) rfl
        · exact .of_idle rfl
      · have hfree : ¬s.beTxAvail ringLen < kRTW88TxStallAvail := by
          have hlt : kRTW88TxStallAvail < kRTW88TxResumeAvail := by decide
          omega
        rw [if_neg hfree]
        exact hout .submit (by decide) rfl
      next m hm => exact absurd hm (h m).1
      next m hm => exact absurd hm (h m).2
      · split
        · unfold TxFlow.writeRing
          split <;> exact .of_idle rfl
        · exact .of_idle rfl
  | dispatch =>
      simp only [flowStep]
      split
      · split
        · exact h
        · exact hout .enabled (by decide) rfl
      · exact h
  | thread i => exact hmove (stepThread_move i s)
  | tick => exact hmove (stepTick_move s)
  | trigger wake => exact h
  | disable => exact h
  | setResumeCb on => exact h
  | _ =>
      simp only [flowStep]
      split <;> exact h

/-- And a queue that runs keeps running. -/
theorem flowStep_running {s : TxFlow} {e : FlowEvent} (h : s.Flowing)
    (hq : s.qStalled = false) :
    (flowStep remembers ringLen s e).qStalled = false := by
  have hmove {s' : TxFlow} (hm : ThreadMove s s') : s'.qStalled = false := by
    cases hm with
    | quiet _ hsame _ _ _ => exact hsame.trans hq
    | clear hsame _ _ => exact hsame.trans hq
    | service _ hoff _ _ => exact hoff
  cases e with
  | output takes =>
      simp only [flowStep, TxFlow.outputPacket]
      split
      · exact hq
      · split <;> exact hq
      · exact hq
      · exact hq
      next m hm => exact absurd hm (h m).2
      · split
        · unfold TxFlow.writeRing
          split <;> exact hq
        · exact hq
  | dispatch =>
      simp only [flowStep]
      split
      · split <;> exact hq
      · exact hq
  | thread i => exact hmove (stepThread_move i s)
  | tick => exact hmove (stepTick_move s)
  | queueStart clears =>
      simp only [flowStep]
      split
      · exact hq
      · rw [hq, Bool.false_and]
  | trigger wake => exact hq
  | disable => exact hq
  | setResumeCb on => exact hq
  | _ =>
      simp only [flowStep]
      split <;> exact hq

/-- The queue runs with nothing to stall it, or the timer is on its way to
make it. -/
structure Recovering (s : TxFlow) : Prop where
  flowing : s.Flowing
  runs : s.qStalled = false ∨ Resuming s

/-- While the ring has room, a step does not undo it. -/
theorem Recovering.step {s : TxFlow} (h : Recovering s) {e : FlowEvent}
    (hw : Woken s) (hroom : kRTW88TxResumeAvail ≤ s.beTxAvail ringLen) :
    Recovering (flowStep true ringLen s e) := by
  refine ⟨flowStep_flowing hroom h.flowing, ?_⟩
  rcases h.runs with hq | hres
  · exact .inl (flowStep_running h.flowing hq)
  · by_cases hq : s.qStalled = true
    · by_cases hq' : (flowStep true ringLen s e).qStalled = true
      · exact .inr (flowStep_resuming hw hroom hq hq' hres)
      · exact .inl (by simpa using hq')
    · exact .inl (flowStep_running h.flowing (by simpa using hq))

/-- Nor does a run. -/
private theorem Recovering.run {s : TxFlow} (h : Recovering s)
    (hw : Woken s) {es : List FlowEvent}
    (hroom : Along (flowStep true ringLen)
      (fun s _ => kRTW88TxResumeAvail ≤ s.beTxAvail ringLen) s es) :
    Recovering (runFrom (flowStep true ringLen) s es) := by
  induction es generalizing s with
  | nil => exact h
  | cons e es ih =>
      exact ih (h.step hw hroom.1) (flowStep_woken e hw) hroom.2

/-- In every run, whatever else happens meanwhile: an activation of the
debug timer that starts on a stalled queue and finds the ring with room
until its end leaves the queue running, or about to be served. -/
theorem tick_resumes (es fs : List FlowEvent)
    (hstall : (flowRun true ringLen es).qStalled = true)
    (harmed : (flowRun true ringLen es).tick = none)
    (hroom : Along (flowStep true ringLen)
      (fun s _ => kRTW88TxResumeAvail ≤ s.beTxAvail ringLen)
      (flowRun true ringLen es) (.tick :: fs))
    (hend : (flowRun true ringLen (es ++ .tick :: fs)).tick = none) :
    let s := flowRun true ringLen (es ++ .tick :: fs)
    s.qStalled = false ∨ s.Serving := by
  intro s
  have hw : Woken (flowRun true ringLen es) := flowRun_woken es
  have hfired : flowStep true ringLen (flowRun true ringLen es) .tick
      = { flowRun true ringLen es with tick := some .tickAvail } := by
    simp only [flowStep, TxFlow.stepTick, harmed]
  have hres : Resuming
      (flowStep true ringLen (flowRun true ringLen es) .tick) := by
    rw [hfired]
    rcases hw.marked hstall with hmark | hs | hs
    · exact .inr ⟨hmark, _, rfl, trivial⟩
    · rw [harmed] at hs
      cases hs
    · exact .inl (.inr hs)
  -- a stalled queue has no call under way
  have hflowing : (flowRun true ringLen es).Flowing :=
    .of_idle (hw.idle hstall)
  have hrun : Recovering s := by
    show Recovering (runFrom _ TxFlow.init (es ++ .tick :: fs))
    rw [runFrom_append]
    exact Recovering.run
      ⟨flowStep_flowing hroom.1 hflowing, .inr hres⟩
      (flowStep_woken .tick hw) hroom.2
  rcases hrun.runs with hq | hs | ⟨-, pc, htick, -⟩
  · exact .inl hq
  · exact .inr hs
  · rw [show s.tick = none from hend] at htick
    cases htick

/-- The timer finds it so, and the queue goes on. -/
theorem sample_tick_resumes :
    let s := flowRun true 256 (lateMark ++ .tick :: List.replicate 6 .tick)
    s.qStalled = false ∨ s.Serving :=
  tick_resumes lateMark (List.replicate 6 .tick) (by decide +kernel)
    (by decide +kernel) (by decide +kernel) (by decide +kernel)

-- ==================================================================== NAPI

/-- What NAPI asks of a poll function: it returns with less than its
weight only where it found no frame left. -/
def KeepsPolling (n : Napi) : NapiEvent → Prop
  | .done i => ∀ work ∈ n.polling[i]?, n.weight ≤ work ∨ n.backlog = 0
  | _ => True

instance (n : Napi) (e : NapiEvent) : Decidable (KeepsPolling n e) := by
  cases e <;> unfold KeepsPolling <;> infer_instance

/-- A frame that waits has an interrupt to come, an activation to come, or
one at work. -/
structure Polled (n : Napi) : Prop where
  poll : n.poll = true
  attended : 0 < n.backlog →
    n.raised = true ∨ n.callPending = true ∨ n.polling ≠ []

/-- A step that keeps the poll contract keeps `Polled`. -/
theorem napiStep_polled {n : Napi} {e : NapiEvent} (h : Polled n)
    (hc : KeepsPolling n e) : Polled (napiStep n e) := by
  have hpoll := h.poll
  cases e with
  | add => exact ⟨rfl, h.attended⟩
  | arrive => exact ⟨hpoll, fun _ => .inl rfl⟩
  | handle =>
      simp only [napiStep]
      split
      · simp only [Napi.schedule, if_pos hpoll]
        exact ⟨hpoll, fun _ => .inr (.inl rfl)⟩
      · exact h
  | start =>
      simp only [napiStep]
      split
      · exact ⟨hpoll, fun _ => .inr (.inr (by simp))⟩
      · exact h
  | take i =>
      simp only [napiStep]
      split
      · exact h
      next work hi =>
        split
        · refine ⟨hpoll, fun _ => .inr (.inr ?_)⟩
          intro hnil
          rw [List.set_eq_nil_iff] at hnil
          rw [hnil] at hi
          cases hi
        · exact h
  | done i =>
      simp only [napiStep]
      split
      · exact h
      next work hi =>
        split
        · simp only [Napi.schedule, if_pos hpoll]
          exact ⟨hpoll, fun _ => .inr (.inl rfl)⟩
        next hless =>
          refine ⟨hpoll, fun hback => ?_⟩
          rcases hc work hi with hfull | hnone
          · exact absurd hfull hless
          · rw [show n.backlog = 0 from hnone] at hback
            cases hback

/-- In every run after `rtw88_netif_napi_add`, with a poll function that
keeps to its contract: while a frame waits, an interrupt is still to be
handled, an activation of the thread call is due, or one is under way. So
nothing that arrived is left when all is quiet. -/
theorem napi_leaves_nothing (es : List NapiEvent)
    (h : Along napiStep KeepsPolling Napi.init.add es) :
    let n := runFrom napiStep Napi.init.add es
    0 < n.backlog →
      n.raised = true ∨ n.callPending = true ∨ n.polling ≠ [] :=
  (inv_of_along (fun _ _ hi hc => napiStep_polled hi hc)
    (s := Napi.init.add) ⟨rfl, fun h => (by cases h)⟩ h).attended

/-- Two frames, and a poll that leaves one to the next interrupt. -/
theorem sample_napi :
    let es := [NapiEvent.arrive, .handle, .start, .take 0, .done 0, .arrive]
    let n := runFrom napiStep Napi.init.add es
    n.raised = true ∨ n.callPending = true ∨ n.polling ≠ [] :=
  napi_leaves_nothing _ (by decide) (by decide)

end Rtw88
