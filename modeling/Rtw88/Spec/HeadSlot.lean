/-
What a window of the reorder buffer looks like between operations.

`RxReorder.Intact` is the representation the code keeps up: sizes and
numbers in range, `stored` the number of occupied cells, every frame in
the cell of its number and within the window, and nothing in the head's
cell, so no in-order frame is held back. Frames carry the sequence
number they arrived with (`Numbered`); the code never looks at it there.

# The flush

`rxReorderFlushStale` releases, on every TID, the run of frames behind
the leading hole. All TIDs share one array of 64 entries, and the loop
that releases stops at its end. `firstRun` counts what stands behind a
window's leading hole, and `FlushFits` asks that the runs of all TIDs
fit in the array together.
-/
import Rtw88.Spec.ReorderRun

namespace Rtw88

variable {α : Type}

-- =============================================================== numbers

/-- A frame and its sequence number. -/
abbrev Numbered (α : Type) := α × Nat

/-- The operation on frames that carry their numbers. -/
def BaOp.number : BaOp α → BaOp (Numbered α)
  | .setup alloc tid ssn bufsize => .setup alloc tid ssn bufsize
  | .teardown tid => .teardown tid
  | .input tid skb sn => .input tid (skb, sn) sn
  | .flush => .flush

/-- What an active window keeps up between operations. -/
structure RxReorder.Intact (r : RxReorder (Numbered α)) : Prop where
  size_pos : 1 ≤ r.bufSize
  size_le : r.bufSize ≤ 64
  head_lt : r.headSn < 4096
  count : r.stored = r.held.length
  stored_le : r.stored ≤ r.bufSize - 1
  cell : ∀ i x, r.buf i = some x → i = cellOf x.2
  within : ∀ i x, r.buf i = some x → snSub x.2 r.headSn < r.bufSize
  head_empty : r.buf (cellOf r.headSn) = none

/-- Every active window is intact. -/
def RxBa.Intact (rx : RxBa (Numbered α)) : Prop :=
  ∀ tid r, rx tid = some r → r.active = true → r.Intact

-- ================================================================== runs

/-- The number of occupied cells from the cell of `sn` on, up to the
next hole; at most `k`. -/
def runLength (b : Fin 64 → Option α) : Nat → Nat → Nat
  | 0, _ => 0
  | k + 1, sn =>
      if (b (cellOf sn)).isSome then runLength b k (sn + 1) + 1 else 0

/-- The first number from `sn` on whose cell is occupied; at most `k`
further. -/
def firstOccupied (b : Fin 64 → Option α) : Nat → Nat → Nat
  | 0, sn => sn
  | k + 1, sn =>
      if (b (cellOf sn)).isSome then sn else firstOccupied b k (sn + 1)

/-- The number of frames that stand in a row behind a window's leading
hole. -/
def RxReorder.firstRun (r : RxReorder α) : Nat :=
  runLength r.buf 64 (firstOccupied r.buf 64 r.headSn)

/-- How far the window must slide to hold number `sn`. -/
def RxReorder.slideBy (r : RxReorder α) (sn : Nat) : Nat :=
  snSub sn r.headSn + 1 - r.bufSize

/-- The first run of a TID's window, none if there is no window. -/
def RxBa.firstRun (rx : RxBa α) (tid : Fin 8) : Nat :=
  match rx tid with
  | some r => r.firstRun
  | none => 0

/-- A flush is taken only when the first runs of all TIDs fit in its
array together. -/
def FlushFits (s : BaState α) : BaOp α → Prop
  | .flush => ((List.finRange 8).map s.rxBa.firstRun).sum ≤ kRxBaMaxBuf
  | _ => True

/-- The operation leaves every active window intact. -/
def LeavesIntact (s : BaState (Numbered α)) (op : BaOp (Numbered α)) :
    Prop :=
  (baStep s op).rxBa.Intact

end Rtw88
