/-
The RX A-MPDU reorder buffer: `rxBaSetup`, `rxBaTeardown`,
`rxReorderInput` and `rxReorderFlushStale`.

One buffer per TID holds the frames of an open window in 64 cells, a
frame with sequence number `sn` in cell `sn % 64` whatever the
negotiated window size. Frames are opaque to this code, so it is
generic in their type `α`; the driver runs it at `SkBuff`.

Each function is the body between `IOLockLock` and `IOLockUnlock`. What
the source does afterwards with the lock dropped is returned: the frames
to hand to `deliverDataFrame` (the local array `out`, in order), the
frames to free, and whether to arm the flush timer.

# Loops

The slide and release loops of the source are bounded by a fuel argument
that is a bound on their turns: the distance still to slide, and the
number of frames stored. `slide_moved` and `release_moved`
(Proofs/Reorder/Window.lean) have where they stop, which is never for
want of fuel. The hole-skipping loop of the flush carries the source's own
`guard < 4096`.
-/
import Rtw88.Lib.Window

namespace Rtw88

variable {α : Type}

-- ================================================================ state

/-- `kRxBaMaxBuf`. -/
def kRxBaMaxBuf : Nat := 64

/-- `kRxBaNumTid`: QoS data TIDs 0-7. -/
def kRxBaNumTid : Nat := 8

/-- `RxReorder`: one TID's window. -/
structure RxReorder (α : Type) where
  active : Bool
  headSn : Nat
  bufSize : Nat
  stored : Nat
  buf : Fin 64 → Option α

/-- `_rxBa`: a null pointer is `none`. -/
abbrev RxBa (α : Type) := Fin 8 → Option (RxReorder α)

/-- No agreement on any TID. -/
def RxBa.empty : RxBa α := fun _ => none

/-- `(a - b) & 0xFFF`. -/
def snSub (a b : Nat) : Nat := modSub 4096 a b

/-- `(sn + 1) & 0xFFF`. -/
def snNext (sn : Nat) : Nat := (sn + 1) % 4096

/-- `sn % kRxBaMaxBuf`. -/
def cellOf (sn : Nat) : Fin 64 := ⟨sn % 64, Nat.mod_lt _ (by decide)⟩

/-- The frames a window holds. -/
def RxReorder.held (r : RxReorder α) : List α := cells r.buf

/-- The frames all windows hold. -/
def RxBa.held (rx : RxBa α) : List α :=
  (List.finRange 8).flatMap fun tid =>
    match rx tid with
    | some r => r.held
    | none => []

-- ============================================================== one step

/-- The head moves up by one number; a frame in its cell goes out. -/
def RxReorder.advance (r : RxReorder α) : RxReorder α × List α :=
  match r.buf (cellOf r.headSn) with
  | some x =>
      ({ r with
          buf := Function.update r.buf (cellOf r.headSn) none
          stored := r.stored - 1
          headSn := snNext r.headSn }, [x])
  | none => ({ r with headSn := snNext r.headSn }, [])

/-- The loop that slides the window up to `newHead`, releasing what
falls out of the bottom. -/
def slide (newHead : Nat) :
    Nat → RxReorder α × List α → RxReorder α × List α
  | 0, ro => ro
  | k + 1, (r, out) =>
      if snSub newHead r.headSn ≠ 0 ∧ snSub newHead r.headSn < 2048
          ∧ out.length < kRxBaMaxBuf then
        slide newHead k (r.advance.1, out ++ r.advance.2)
      else (r, out)

/-- The loop that releases the in-order run starting at the head. -/
def release : Nat → RxReorder α × List α → RxReorder α × List α
  | 0, ro => ro
  | k + 1, (r, out) =>
      if 0 < r.stored ∧ out.length < kRxBaMaxBuf
          ∧ (r.buf (cellOf r.headSn)).isSome then
        release k (r.advance.1, out ++ r.advance.2)
      else (r, out)

/-- The flush's loop over leading holes, at most `guard` turns. -/
def skipHoles : Nat → RxReorder α → RxReorder α
  | 0, r => r
  | k + 1, r =>
      if 0 < r.stored ∧ (r.buf (cellOf r.headSn)).isNone then
        skipHoles k { r with headSn := snNext r.headSn }
      else r

/-- Put `skb` in its cell, unless the cell is taken: then it is a
duplicate and is freed. -/
def RxReorder.insert (r : RxReorder α) (skb : α) (sn : Nat) :
    RxReorder α × List α :=
  match r.buf (cellOf sn) with
  | some _ => (r, [skb])
  | none =>
      ({ r with
          buf := Function.update r.buf (cellOf sn) (some skb)
          stored := r.stored + 1 }, [])

-- ============================================================ operations

/-- What one operation did: the windows after it, the frames to deliver
(in order), the frames to free, and whether to arm the timer. -/
structure RxOut (α : Type) where
  rxBa : RxBa α
  out : List α
  freed : List α
  needTimer : Bool

/-- `rxBaSetup`; `alloc` is whether `IOMallocZero` succeeds, asked only
when the TID has no buffer yet. A re-setup frees what the old window
held. -/
def rxBaSetup (alloc : Bool) (tid ssn bufsize : Nat) (rx : RxBa α) :
    RxOut α :=
  if h : tid < 8 then
    let size := if bufsize = 0 ∨ kRxBaMaxBuf < bufsize then kRxBaMaxBuf
      else bufsize
    let fresh : RxReorder α :=
      { active := true, headSn := ssn % 4096, bufSize := size, stored := 0
        buf := fun _ => none }
    match rx ⟨tid, h⟩ with
    | some r =>
        { rxBa := Function.update rx ⟨tid, h⟩ (some fresh)
          out := [], freed := r.held, needTimer := false }
    | none =>
        { rxBa := if alloc then Function.update rx ⟨tid, h⟩ (some fresh)
            else rx
          out := [], freed := [], needTimer := false }
  else { rxBa := rx, out := [], freed := [], needTimer := false }

/-- `rxBaTeardown`. -/
def rxBaTeardown (tid : Nat) (rx : RxBa α) : RxOut α :=
  if h : tid < 8 then
    match rx ⟨tid, h⟩ with
    | some r =>
        { rxBa := Function.update rx ⟨tid, h⟩ none
          out := [], freed := r.held, needTimer := false }
    | none => { rxBa := rx, out := [], freed := [], needTimer := false }
  else { rxBa := rx, out := [], freed := [], needTimer := false }

/-- The part of `rxReorderInput` behind the stale test: slide if `sn` is
ahead of the window, store or drop, release the in-order run. -/
def RxReorder.accept (r : RxReorder α) (skb : α) (sn : Nat) :
    RxReorder α × List α × List α :=
  let newHead := (sn + 1 + 4096 - r.bufSize) % 4096
  let (r, out) :=
    if r.bufSize ≤ snSub sn r.headSn then
      slide newHead (snSub newHead r.headSn) (r, [])
    else (r, [])
  let (r, dup) := r.insert skb sn
  let (r, out) := release r.stored (r, out)
  (r, out, dup)

/-- `rxReorderInput`. -/
def rxReorderInput (tid : Fin 8) (skb : α) (sn : Nat) (rx : RxBa α) :
    RxOut α :=
  match rx tid with
  | none => { rxBa := rx, out := [skb], freed := [], needTimer := false }
  | some r =>
      if r.active = false then
        -- torn down between dispatch and here: deliver as is
        { rxBa := rx, out := [skb], freed := [], needTimer := false }
      else if 2048 ≤ snSub sn r.headSn then
        -- before the window
        { rxBa := rx, out := [], freed := [skb], needTimer := false }
      else
        let (r', out, dup) := r.accept skb sn
        { rxBa := Function.update rx tid (some r')
          out := out, freed := dup, needTimer := 0 < r'.stored }

/-- One TID's turn of `rxReorderFlushStale`; `out` is shared by all
TIDs. -/
def flushTid (acc : RxBa α × List α × Bool) (tid : Fin 8) :
    RxBa α × List α × Bool :=
  let (rx, out, again) := acc
  match rx tid with
  | none => acc
  | some r =>
      if r.active = false ∨ r.stored = 0 then acc
      else
        let r := skipHoles 4096 r
        let (r, out) := release r.stored (r, out)
        (Function.update rx tid (some r), out, again || 0 < r.stored)

/-- `rxReorderFlushStale`. -/
def rxReorderFlushStale (rx : RxBa α) : RxOut α :=
  let (rx, out, again) := (List.finRange 8).foldl flushTid (rx, [], false)
  { rxBa := rx, out := out, freed := [], needTimer := again }

end Rtw88
