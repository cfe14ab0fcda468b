/-
Delivery by two threads: `rxReorderInput` runs on the thread call of the
NAPI shim (`rtw88_napi_thread_wrapper`), `rxReorderFlushStale` on the
work loop of the reorder timer.

Each is a critical section under `_rxBaLock` and then, with the lock
dropped, one call of `deliverDataFrame` for every frame of its local
array `out`. A thread that still has frames in `out` has not returned
from its call, so it enters no other section. `rxBaSetup` and
`rxBaTeardown` let no frame go to be delivered; they may come from any
thread at any time.
-/
import Rtw88.Spec.ReorderRun

namespace Rtw88

variable {α : Type}

/-- The threads that deliver. -/
inductive Worker
  | rx | flush
  deriving DecidableEq, Repr

/-- The other one. -/
def Worker.other : Worker → Worker
  | .rx => .flush
  | .flush => .rx

/-- The thread that runs an operation, if it delivers. -/
def BaOp.worker : BaOp α → Option Worker
  | .input _ _ _ => some .rx
  | .flush => some .flush
  | _ => none

/-- The windows, what each thread has still to deliver, and what reached
`deliverDataFrame`. -/
structure Delivery (α : Type) where
  ba : BaState α
  out : Worker → List α
  sent : List α

/-- Nothing has happened. -/
def Delivery.init : Delivery α :=
  { ba := BaState.init, out := fun _ => [], sent := [] }

/-- One step: a critical section, or one delivery. -/
inductive DeliveryEvent (α : Type)
  | enter (op : BaOp α)
  | deliver (w : Worker)

/-- `deliverDataFrame(out[i])` for the next `i`. -/
def deliverOne {σ : Type} (out : Worker → List σ) (sent : List σ)
    (w : Worker) : (Worker → List σ) × List σ :=
  match out w with
  | [] => (out, sent)
  | x :: rest => (Function.update out w rest, sent ++ [x])

/-- One step of the two threads. -/
def deliveryStep (s : Delivery α) (e : DeliveryEvent α) : Delivery α :=
  match e with
  | .enter op =>
      match op.worker with
      | none => { s with ba := baStep s.ba op }
      | some w =>
          if s.out w ≠ [] then s
          else
            { s with
              ba := baStep s.ba op
              out := Function.update s.out w (op.apply s.ba.rxBa).out }
  | .deliver w =>
      let r := deliverOne s.out s.sent w
      { s with out := r.1, sent := r.2 }

/-- An interleaving of the two threads. -/
def deliveryRun (es : List (DeliveryEvent α)) : Delivery α :=
  runFrom deliveryStep Delivery.init es

-- ================================================================== stamps

/-- The run on stamped frames. -/
structure DeliveryTrack (α : Type) where
  track : Track α
  out : Worker → List (Stamped α)
  sent : List (Stamped α)

/-- Nothing has happened. -/
def DeliveryTrack.init : DeliveryTrack α :=
  { track := Track.init, out := fun _ => [], sent := [] }

/-- The stamped frames an operation lets go. -/
def Track.lets (t : Track α) (op : BaOp α) : List (Stamped α) :=
  ((t.stampOp op).apply t.ba.rxBa).out

/-- One step on stamped frames. -/
def deliveryTrackStep (s : DeliveryTrack α) (e : DeliveryEvent α) :
    DeliveryTrack α :=
  match e with
  | .enter op =>
      match op.worker with
      | none => { s with track := trackStep s.track op }
      | some w =>
          if s.out w ≠ [] then s
          else
            { s with
              track := trackStep s.track op
              out := Function.update s.out w (s.track.lets op) }
  | .deliver w =>
      let r := deliverOne s.out s.sent w
      { s with out := r.1, sent := r.2 }

/-- The stamped interleaving. -/
def deliveryTrackRun (es : List (DeliveryEvent α)) : DeliveryTrack α :=
  runFrom deliveryTrackStep DeliveryTrack.init es

/-- The state without its stamps. -/
def DeliveryTrack.erase (s : DeliveryTrack α) : Delivery α :=
  { ba := s.track.ba.map Prod.fst
    out := fun w => (s.out w).map Prod.fst
    sent := s.sent.map Prod.fst }

/-- The frames of every TID reached `deliverDataFrame` in increasing
order of their virtual numbers. -/
def SentInOrder (s : DeliveryTrack α) : Prop :=
  ∀ tid ep, (s.sent.filterMap (vnIn tid ep)).Pairwise (· < ·)

/-- Two frames of one agreement of one TID. -/
def SameWindow (x y : Stamped α) : Prop :=
  match x.2, y.2 with
  | some s, some t => s.tid = t.tid ∧ s.epoch = t.epoch
  | _, _ => False

instance (x y : Stamped α) : Decidable (SameWindow x y) :=
  match hx : x.2, hy : y.2 with
  | some s, some t => decidable_of_iff (s.tid = t.tid ∧ s.epoch = t.epoch)
      (by rw [SameWindow, hx, hy])
  | none, _ => .isFalse (by rw [SameWindow, hx]; exact id)
  | some _, none => .isFalse (by rw [SameWindow, hx, hy]; exact id)

/-- A thread that is about to enter a section lets no frame of a TID go
while the other thread has frames of that TID to deliver. -/
def LetsNoneOver (s : DeliveryTrack α) (op : BaOp α) (w : Worker) : Prop :=
  s.out w = [] → ∀ x ∈ s.track.lets op, ∀ y ∈ s.out w.other, ¬SameWindow x y

/-- No thread overtakes the other. -/
def WaitsForOther (s : DeliveryTrack α) : DeliveryEvent α → Prop
  | .enter op => ∀ w ∈ op.worker, LetsNoneOver s op w
  | .deliver _ => True

instance (s : DeliveryTrack α) (op : BaOp α) (w : Worker) :
    Decidable (LetsNoneOver s op w) :=
  inferInstanceAs (Decidable (_ → _))

instance (s : DeliveryTrack α) (e : DeliveryEvent α) :
    Decidable (WaitsForOther s e) :=
  match e with
  | .enter op => inferInstanceAs (Decidable (∀ w ∈ op.worker, _))
  | .deliver _ => .isTrue trivial

end Rtw88
