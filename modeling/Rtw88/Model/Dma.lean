/-
The DMA buffers of `RTW88PCIDevice`: a tracking node for every buffer
descriptor, on one of two singly linked lists, each under a spinlock of
its own.

- `_dmaList`: the buffers in use, newest first, under `_dmaLock`.
- `_dmaPendingFree`: buffers freed with preemption disabled, whose
  release was put off, under `_pendingFreeLock`.

A node is reached by its address. `IOFree` takes its cell away, so that a
function that goes on to use the address answers `none`: a fault. The
statements between a lock and its unlock are one function here, and so
are the statements of a call between two such sections: they only touch
what the call has to itself. `dmaStep` runs the sections of any number of
calls in any order.
-/
import Rtw88.Lib.Chain

namespace Rtw88

-- =============================================================== the lists

/-- `RTW88PCIDevice::DMAEntry`, less its `next`; null is 0. Descriptors
are numbered in the order of their creation. -/
structure DMAEntry where
  desc : Nat
  virt : Nat
  phys : Nat
  size : Nat
  origVa : Nat
deriving DecidableEq

/-- The nodes, the two lists, how many descriptors were created, and
those that were released (`desc->complete(); desc->release()`), newest
first. -/
structure Dma where
  cell : Nat → Option (Cell Nat DMAEntry)
  dmaList : Option Nat
  dmaPendingFree : Option Nat
  descs : Nat
  released : List Nat

/-- No buffer yet. -/
def Dma.init : Dma :=
  { cell := fun _ => none, dmaList := none, dmaPendingFree := none
    descs := 0, released := [] }

/-- `IOFree(e, sizeof(*e))` after the release of the descriptor. -/
def Dma.release (d : Dma) (e : Nat) : Option Dma := do
  let c ← d.cell e
  return { d with
    cell := Function.update d.cell e none
    released := c.val.desc :: d.released }

/-- What `IOBufferMemoryDescriptor::inTaskWithPhysicalMask` and
`IOMallocZero` answer: the buffer's two addresses, and the node's. -/
structure DmaAnswer where
  desc : Option (Nat × Nat)
  node : Option Nat
deriving DecidableEq

/-- `allocCoherent` up to its section: the node, to be linked. -/
def Dma.allocEntry (d : Dma) (size : Nat) (ans : DmaAnswer) :
    Dma × Option Nat :=
  match ans.desc with
  | none => (d, none)
  | some (virt, phys) =>
      match ans.node with
      | none =>
          ({ d with descs := d.descs + 1, released := d.descs :: d.released },
            none)
      | some e =>
          -- an allocator never answers with memory that is in use
          if (d.cell e).isSome then (d, none)
          else
            let entry : DMAEntry :=
              { desc := d.descs, virt := virt, phys := phys, size := size
                origVa := 0 }
            ({ d with
                cell := Function.update d.cell e (some ⟨entry, none⟩)
                descs := d.descs + 1 },
              some e)

/-- The section of `allocCoherent`: `entry->next = _dmaList;
_dmaList = entry`. -/
def Dma.link (d : Dma) (e : Nat) : Option Dma := do
  let c ← d.cell e
  return { d with
    cell := Function.update d.cell e (some ⟨c.val, d.dmaList⟩)
    dmaList := some e }

/-- The section that `freeCoherent` and `freeCoherentByPhys` share: find
the first node that passes the test and unlink it. A list is never longer
than the number of descriptors. -/
def Dma.unlink (d : Dma) (test : DMAEntry → Bool) :
    Option (Option Nat × Dma) := do
  let (e, c) ← unlinkFrom test (d.descs + 1) .head d.dmaList
    ⟨d.cell, d.dmaList⟩
  return (e, { d with cell := c.cell, dmaList := c.head })

/-- With preemption disabled, the second section of a free:
`e->next = _dmaPendingFree; _dmaPendingFree = e`. -/
def Dma.defer (d : Dma) (e : Nat) : Option Dma := do
  let c ← d.cell e
  return { d with
    cell := Function.update d.cell e (some ⟨c.val, d.dmaPendingFree⟩)
    dmaPendingFree := some e }

/-- A free after its first section, by what `preemption_enabled` says. -/
def Dma.finishFree (d : Dma) (preemption : Bool) (e : Nat) : Option Dma :=
  if preemption then d.release e else d.defer e

/-- The section of `drainPendingFree`: take the whole list. -/
def Dma.takePending (d : Dma) : Option Nat × Dma :=
  (d.dmaPendingFree, { d with dmaPendingFree := none })

/-- `freeCoherent`'s test; its size and physical address are not asked. -/
def DMAEntry.atVirt (virt : Nat) (e : DMAEntry) : Bool := e.virt == virt

/-- `freeCoherentByPhys`'s test. -/
def DMAEntry.atPhys (phys : Nat) (e : DMAEntry) : Bool := e.phys == phys

-- ========================================================= calls in progress

/-- A call between two of its sections. -/
inductive DmaCall
  /-- `allocCoherent` with the node it has filled in. -/
  | linking (e : Nat)
  /-- A free with the node it has unlinked. -/
  | freeing (e : Nat)
  /-- The loop of `drainPendingFree`, at `e`. -/
  | draining (e : Option Nat)
  /-- Returned. -/
  | done
deriving DecidableEq

/-- The lists and the calls, in the order they were made. -/
structure DmaSys where
  dma : Dma
  calls : List DmaCall

/-- Nothing allocated, nothing called. -/
def DmaSys.init : DmaSys := { dma := .init, calls := [] }

/-- A new call up to the end of its first section, or call `i` going on. -/
inductive DmaEvent
  | allocCoherent (size : Nat) (ans : DmaAnswer)
  | freeCoherent (size virt phys : Nat)
  | freeCoherentByPhys (phys : Nat)
  | drainPendingFree
  | next (i : Nat) (preemption : Bool)
deriving DecidableEq

/-- A free up to the end of its first section. -/
def DmaSys.free (s : DmaSys) (test : DMAEntry → Bool) : Option DmaSys := do
  match ← s.dma.unlink test with
  | (none, d) => return { s with dma := d }
  | (some e, d) => return { dma := d, calls := s.calls ++ [.freeing e] }

/-- What call `i` does next. -/
def DmaSys.goOn (s : DmaSys) (i : Nat) (preemption : Bool) : DmaCall →
    Option DmaSys
  | .linking e => do
      return { dma := ← s.dma.link e, calls := s.calls.set i .done }
  | .freeing e => do
      return { dma := ← s.dma.finishFree preemption e
               calls := s.calls.set i .done }
  | .draining none => some { s with calls := s.calls.set i .done }
  | .draining (some e) => do
      let c ← s.dma.cell e
      return { dma := ← s.dma.release e
               calls := s.calls.set i (.draining c.next) }
  | .done => some s

/-- One section; `none` is a fault. -/
def dmaStep (s : DmaSys) : DmaEvent → Option DmaSys
  | .allocCoherent size ans =>
      match s.dma.allocEntry size ans with
      | (d, none) => some { s with dma := d }
      | (d, some e) => some { dma := d, calls := s.calls ++ [.linking e] }
  | .freeCoherent _ virt _ => s.free (DMAEntry.atVirt virt)
  | .freeCoherentByPhys phys => s.free (DMAEntry.atPhys phys)
  | .drainPendingFree =>
      let (e, d) := s.dma.takePending
      some { dma := d, calls := s.calls ++ [.draining e] }
  | .next i preemption =>
      match s.calls[i]? with
      | none => some s
      | some c => s.goOn i preemption c

/-- Any number of sections, from the start. -/
def dmaRun (es : List DmaEvent) : Option DmaSys :=
  es.foldlM dmaStep DmaSys.init

end Rtw88
