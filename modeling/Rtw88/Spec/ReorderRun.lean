/-
Runs of the reorder buffer, and what in-order delivery means for them.

# The run

`BaOp` is one lock-protected operation with its arguments; `baStep`
performs it and files every frame it let go: delivered, dropped by
`rxReorderInput` itself, or freed by a teardown or re-setup. `given`
lists the frames handed to `rxReorderInput`.

# Virtual numbers

The window lives modulo 4096, so "increasing order" is stated on
unrolled numbers. `Track` runs the same code on frames that carry a
`Stamp`: the TID, which of that TID's agreements (`epoch`) was active
when the frame arrived, and its virtual number, the unrolled head plus
the distance `(sn - headSn) & 0xFFF` at that moment. The unrolled head
follows `headSn` by the same distance function, operation by operation.
The code never looks into a frame, so stamps are ghosts
(`track_erase`, Proofs/Reorder.lean).
-/
import Rtw88.Lib.Trace
import Rtw88.Model.Reorder

namespace Rtw88

variable {α β : Type}

-- ====================================================== frames in windows

/-- Every frame the window holds has `Q`. -/
def RxReorder.All (Q : α → Prop) (r : RxReorder α) : Prop :=
  ∀ c x, r.buf c = some x → Q x

/-- Every frame any window holds has `Q`. -/
def RxBa.All (Q : α → Prop) (rx : RxBa α) : Prop :=
  ∀ tid r, rx tid = some r → r.All Q

-- ================================================================== run

/-- One operation on the reorder buffers. -/
inductive BaOp (α : Type)
  | setup (alloc : Bool) (tid ssn bufsize : Nat)
  | teardown (tid : Nat)
  | input (tid : Fin 8) (skb : α) (sn : Nat)
  | flush

/-- The windows, and where every frame went. -/
structure BaState (α : Type) where
  rxBa : RxBa α
  given : List α
  delivered : List α
  dropped : List α
  torn : List α

/-- No window and no frame. -/
def BaState.init : BaState α :=
  { rxBa := RxBa.empty, given := [], delivered := [], dropped := []
    torn := [] }

/-- What the operation does to the windows, and what it lets go. -/
def BaOp.apply (op : BaOp α) (rx : RxBa α) : RxOut α :=
  match op with
  | .setup alloc tid ssn bufsize => rxBaSetup alloc tid ssn bufsize rx
  | .teardown tid => rxBaTeardown tid rx
  | .input tid skb sn => rxReorderInput tid skb sn rx
  | .flush => rxReorderFlushStale rx

/-- One operation, every frame filed. -/
def baStep (s : BaState α) (op : BaOp α) : BaState α :=
  let o := op.apply s.rxBa
  match op with
  | .input _ skb _ =>
      { rxBa := o.rxBa, given := s.given ++ [skb]
        delivered := s.delivered ++ o.out
        dropped := s.dropped ++ o.freed, torn := s.torn }
  | _ =>
      { rxBa := o.rxBa, given := s.given
        delivered := s.delivered ++ o.out
        dropped := s.dropped, torn := s.torn ++ o.freed }

/-- A run of operations from no window at all. -/
def baRun (ops : List (BaOp α)) : BaState α :=
  runFrom baStep BaState.init ops

-- ============================================================== renaming

/-- A window over renamed frames. -/
def RxReorder.map (f : α → β) (r : RxReorder α) : RxReorder β :=
  { active := r.active, headSn := r.headSn, bufSize := r.bufSize
    stored := r.stored, buf := fun i => (r.buf i).map f }

/-- All windows over renamed frames. -/
def RxBa.map (f : α → β) (rx : RxBa α) : RxBa β :=
  fun tid => (rx tid).map (RxReorder.map f)

/-- The outcome of an operation over renamed frames. -/
def RxOut.map (f : α → β) (o : RxOut α) : RxOut β :=
  { rxBa := o.rxBa.map f, out := o.out.map f, freed := o.freed.map f
    needTimer := o.needTimer }

/-- A run state over renamed frames. -/
def BaState.map (f : α → β) (s : BaState α) : BaState β :=
  { rxBa := s.rxBa.map f, given := s.given.map f
    delivered := s.delivered.map f, dropped := s.dropped.map f
    torn := s.torn.map f }

/-- An operation over renamed frames. -/
def BaOp.map (f : α → β) : BaOp α → BaOp β
  | .setup alloc tid ssn bufsize => .setup alloc tid ssn bufsize
  | .teardown tid => .teardown tid
  | .input tid skb sn => .input tid (f skb) sn
  | .flush => .flush

-- =============================================================== stamps

/-- Where a frame stands: its TID, the agreement it arrived under, and
its virtual number there. -/
structure Stamp where
  tid : Fin 8
  epoch : Nat
  vn : Nat
  deriving DecidableEq

/-- A frame and its stamp; `none` when no agreement was active. -/
abbrev Stamped (α : Type) := α × Option Stamp

/-- The stamped run: the code's state, and for every TID the number of
its agreement and the unrolled head. -/
structure Track (α : Type) where
  ba : BaState (Stamped α)
  epoch : Fin 8 → Nat
  head : Fin 8 → Nat

/-- Nothing has happened. -/
def Track.init : Track α :=
  { ba := BaState.init, epoch := fun _ => 0, head := fun _ => 0 }

/-- The virtual number of `sn` on `tid`, and with it the stamp of a
frame arriving now. -/
def Track.stamp (t : Track α) (tid : Fin 8) (sn : Nat) : Option Stamp :=
  (t.ba.rxBa tid).map fun r =>
    { tid := tid, epoch := t.epoch tid
      vn := t.head tid + snSub sn r.headSn }

/-- The operation on stamped frames. -/
def Track.stampOp (t : Track α) : BaOp α → BaOp (Stamped α)
  | .setup alloc tid ssn bufsize => .setup alloc tid ssn bufsize
  | .teardown tid => .teardown tid
  | .input tid skb sn => .input tid (skb, t.stamp tid sn) sn
  | .flush => .flush

/-- How far an operation moved the head of a window that it left in
place. -/
def headMove (before after : Option (RxReorder α)) : Nat :=
  match before, after with
  | some r, some r' => snSub r'.headSn r.headSn
  | _, _ => 0

/-- One stamped operation. A setup that leaves a window on `tid` starts
the TID's next agreement at its SSN; every other operation moves the
unrolled heads as far as it moved the heads. -/
def trackStep (t : Track α) (op : BaOp α) : Track α :=
  let ba := baStep t.ba (t.stampOp op)
  match op with
  | .setup _ tid ssn _ =>
      { ba := ba
        epoch := fun i => if i.val = tid ∧ (ba.rxBa i).isSome
          then t.epoch i + 1 else t.epoch i
        head := fun i => if i.val = tid ∧ (ba.rxBa i).isSome
          then ssn % 4096 else t.head i }
  | _ =>
      { ba := ba, epoch := t.epoch
        head := fun i =>
          t.head i + headMove (t.ba.rxBa i) (ba.rxBa i) }

/-- The stamped run of a list of operations. -/
def trackRun (ops : List (BaOp α)) : Track α :=
  runFrom trackStep Track.init ops

/-- The virtual number of a frame stamped under agreement `ep` of
`tid`. -/
def vnIn (tid : Fin 8) (ep : Nat) (x : Stamped α) : Option Nat :=
  x.2.bind fun s => if s.tid = tid ∧ s.epoch = ep then some s.vn else none

/-- The virtual numbers delivered under agreement `ep` of `tid`, in
order of delivery. -/
def Track.deliveredIn (t : Track α) (tid : Fin 8) (ep : Nat) : List Nat :=
  t.ba.delivered.filterMap (vnIn tid ep)

/-- What `rxReorderInput` may drop: the frame it was given, when its
number is before the window or is that of a frame the window holds. -/
def DropsOnlyStaleOrHeld (t : Track α) (op : BaOp α) : Prop :=
  match op with
  | .input tid skb sn =>
      let freed := (rxReorderInput tid (skb, t.stamp tid sn) sn
        t.ba.rxBa).freed
      freed = [] ∨ (freed = [(skb, t.stamp tid sn)] ∧
        ∃ r, t.ba.rxBa tid = some r ∧
          (2048 ≤ snSub sn r.headSn ∨ ∃ x ∈ r.held, x.2 = t.stamp tid sn))
  | _ => True

/-- A call of `rxReorderInput`, or a flush. -/
def BaOp.isTraffic : BaOp α → Bool
  | .input _ _ _ | .flush => true
  | _ => false

/-- A setup that finds its memory opens a window at its SSN, which every
input and every flush behind it leaves open, under the same agreement. -/
def OpensWindow (t : Track α) (tid : Fin 8) (ssn bufsize : Nat) : Prop :=
  let t' := trackStep t (.setup true tid ssn bufsize)
  t'.head tid = ssn % 4096
    ∧ (t'.ba.rxBa tid).map RxReorder.headSn = some (ssn % 4096)
    ∧ ∀ ops : List (BaOp α), (∀ op ∈ ops, op.isTraffic = true) →
      (runFrom trackStep t' ops).epoch tid = t'.epoch tid
        ∧ ∃ r, (runFrom trackStep t' ops).ba.rxBa tid = some r
          ∧ r.active = true

/-- The array `out` of one operation never outgrows its 64 entries. -/
def OutFits (t : Track α) (op : BaOp α) : Prop :=
  ((t.stampOp op).apply t.ba.rxBa).out.length ≤ kRxBaMaxBuf

end Rtw88
