/-
The reorder timer against a clock.

`Timed` is the reorder buffers with the deadline of the one timer that
all TIDs share and the time. Frames carry the time they arrived at
(`Dated`), which the code never looks at. `rxReorderInput` arms the timer
when it leaves frames on its TID, and `rxReorderFlushStale`, the timer's
callback, when it leaves frames on any; arming sets the deadline anew
(`setTimeoutMS`), whatever it was. Nothing cancels the timer.

`TimerCovers` asks that the deadline never lies more than
`kReorderTimeoutMs` behind the arrival of any frame that waits.

# Postponement

An operation that arms the timer sets a deadline that covers the frames
that arrived just now. `Postpones` says, of the state before it, that it
arms the timer while an older frame goes on waiting. A frame waits on
after an input if there is a hole below it that the input neither fills
nor slides past (`Behind`); after a flush if there is a hole between it
and the first frame, or if the array is full before its turn
(`StaysInFlush`).
-/
import Rtw88.Spec.HeadSlot

namespace Rtw88

variable {α : Type}

-- ============================================================== timed run

/-- `kReorderTimeoutMs`. -/
def kReorderTimeoutMs : Nat := 60

/-- A frame and the time it arrived at. -/
abbrev Dated (α : Type) := α × Nat

/-- The buffers, the deadline of the timer if it is armed, and the
time. -/
structure Timed (α : Type) where
  ba : BaState (Dated α)
  deadline : Option Nat
  now : Nat

/-- No window, no timer, time zero. -/
def Timed.init : Timed α :=
  { ba := BaState.init, deadline := none, now := 0 }

/-- The operation on a frame that arrives at `now`. -/
def BaOp.date (now : Nat) : BaOp α → BaOp (Dated α)
  | .setup alloc tid ssn bufsize => .setup alloc tid ssn bufsize
  | .teardown tid => .teardown tid
  | .input tid skb sn => .input tid (skb, now) sn
  | .flush => .flush

/-- `rxReorderArmTimer` where the operation asks for it. The callback
runs when the timer has gone off. -/
def newDeadline (op : BaOp α) (needTimer : Bool) (now : Nat)
    (deadline : Option Nat) : Option Nat :=
  if needTimer then some (now + kReorderTimeoutMs)
  else match op with
    | .flush => none
    | _ => deadline

/-- An operation `e.1` milliseconds after the last one. -/
def timedStep (s : Timed α) (e : Nat × BaOp α) : Timed α :=
  let now := s.now + e.1
  let op := e.2.date now
  { ba := baStep s.ba op
    deadline := newDeadline op (op.apply s.ba.rxBa).needTimer now s.deadline
    now := now }

/-- While a window stores a frame the timer is armed, and its deadline is
at most `kReorderTimeoutMs` after the arrival of every waiting frame. -/
def TimerCovers (rx : RxBa (Dated α)) (deadline : Option Nat) : Prop :=
  ∀ tid r, rx tid = some r → r.active = true → 0 < r.stored →
    ∃ d, deadline = some d ∧ rx.All fun x => d ≤ x.2 + kReorderTimeoutMs

/-- The operation leaves the timer so. -/
def LeavesCovered (s : Timed α) (e : Nat × BaOp α) : Prop :=
  TimerCovers (timedStep s e).ba.rxBa (timedStep s e).deadline

-- ============================================================ postponement

/-- How far the cell is above the head. -/
def RxReorder.dist (r : RxReorder α) (i : Fin 64) : Nat :=
  modSub 64 i.val r.headSn

/-- Below distance `d`, and not below where the head slides to for `sn`,
there is a hole that `sn` does not fill. -/
def RxReorder.Behind (r : RxReorder α) (sn d : Nat) : Prop :=
  ∃ n, r.slideBy sn ≤ n ∧ n < d ∧ n ≠ snSub sn r.headSn
    ∧ (r.bufSize ≤ n ∨ r.buf (cellOf (r.headSn + n)) = none)

/-- The number of frames the flush has in its array, room given, when it
comes to `tid`. -/
def RxBa.runsBefore (rx : RxBa α) (tid : Fin 8) : Nat :=
  (((List.finRange 8).take tid).map rx.firstRun).sum

/-- The frame in cell `i` is behind a hole that has a frame below it, or
comes when the array is full. -/
def RxBa.StaysInFlush (rx : RxBa α) (tid : Fin 8) (r : RxReorder α)
    (i : Fin 64) : Prop :=
  (∃ m n, m < n ∧ n < r.dist i ∧ (r.buf (cellOf (r.headSn + m))).isSome
      ∧ r.buf (cellOf (r.headSn + n)) = none)
    ∨ 64 + (firstOccupied r.buf 64 r.headSn - r.headSn)
      ≤ rx.runsBefore tid + r.dist i

/-- A frame older than `now` waits on another TID, or stays behind a hole
on this one. -/
def OlderWaits (rx : RxBa (Dated α)) (tid : Fin 8) (sn now : Nat) : Prop :=
  ∃ j r i x, rx j = some r ∧ r.buf i = some x ∧ x.2 < now
    ∧ (j = tid → r.Behind sn (r.dist i))

/-- The operation arms the timer while an older frame goes on waiting. -/
def Postpones (rx : RxBa (Dated α)) (now : Nat) : BaOp α → Prop
  | .input tid _ sn =>
      ∃ r, rx tid = some r ∧ r.active = true
        ∧ snSub sn r.headSn < 2048
        ∧ (r.Behind sn (snSub sn r.headSn)
          ∨ ∃ i, (r.buf i).isSome ∧ r.Behind sn (r.dist i))
        ∧ OlderWaits rx tid sn now
  | .flush =>
      ∃ tid r i x, rx tid = some r ∧ r.buf i = some x ∧ x.2 < now
        ∧ rx.StaysInFlush tid r i
  | _ => False

/-- The operation does not postpone the deadline of a frame. -/
def InTime (s : Timed α) (e : Nat × BaOp α) : Prop :=
  ¬ Postpones s.ba.rxBa (s.now + e.1) e.2

end Rtw88
