/-
dma-mapping.h over `RTW88PCIDevice`: the streaming mappings, each a
bounce buffer below 4 GB beside the buffer of the driver.

The kext installs `rtw88_dma_ops` before the probe, so a call of
dma-mapping.h is the call of `_dma_ops` behind it. `_dmaList` is the list
of its nodes' values here, newest first: Model/Dma.lean has the nodes,
their links and the locks, and what becomes of a descriptor that leaves
the list. A buffer descriptor's pages are ordinary bytes of the memory,
at its kernel address; the device reaches them by its bus address.
-/
import Rtw88.Lib.Memory
import Rtw88.Model.Dma

namespace Rtw88

/-- `DMA_FROM_DEVICE`. -/
def dmaFromDevice : Nat := 0

/-- `DMA_TO_DEVICE`. -/
def dmaToDevice : Nat := 1

/-- `DMA_BIDIRECTIONAL`. -/
def dmaBidirectional : Nat := 2

/-- The memory, `_dmaList`, and how many descriptors were created. -/
structure Bounce where
  mem : Memory
  dmaList : List DMAEntry
  descs : Nat

namespace Bounce

-- ========================================================== the bookkeeping

/-- `allocCoherent`: the buffer's two addresses, of which the first is
null on a failure. -/
def allocCoherent (b : Bounce) (size : Nat) (ans : DmaAnswer) :
    Bounce × Nat × Nat :=
  match ans.desc with
  | none => (b, 0, 0)
  | some (va, pa) =>
      let b : Bounce := { b with
        mem := writeMem b.mem va (List.replicate size 0)
        descs := b.descs + 1 }
      match ans.node with
      | none => (b, 0, pa)
      | some _ =>
          let entry : DMAEntry :=
            { desc := b.descs - 1, virt := va, phys := pa, size := size
              origVa := 0 }
          ({ b with dmaList := entry :: b.dmaList }, va, pa)

/-- The loop of `setBounceOrigVA`. -/
def setOrigVa (phys origVa : Nat) : List DMAEntry → List DMAEntry
  | [] => []
  | e :: es =>
      if e.phys = phys then { e with origVa := origVa } :: es
      else e :: setOrigVa phys origVa es

/-- `setBounceOrigVA`. -/
def setBounceOrigVA (b : Bounce) (phys origVa : Nat) : Bounce :=
  { b with dmaList := setOrigVa phys origVa b.dmaList }

/-- `freeCoherentByPhys`, as far as the list goes. -/
def freeCoherentByPhys (b : Bounce) (phys : Nat) : Bounce :=
  { b with dmaList := b.dmaList.eraseP (DMAEntry.atPhys phys) }

/-- The test of `syncBounceForCpu`. -/
def bouncesAt (dma : Nat) (e : DMAEntry) : Bool :=
  e.phys == dma && e.origVa != 0 && e.virt != 0

/-- `syncBounceForCpu`. -/
def syncBounceForCpu (b : Bounce) (dma size : Nat) : Bounce :=
  match b.dmaList.find? (bouncesAt dma) with
  | none => b
  | some e =>
      let copyLen := if size ≤ e.size then size else e.size
      { b with mem := writeMem b.mem e.origVa (readMem b.mem e.virt copyLen) }

-- ============================================================= the mappings

/-- `compat_dma_map`; the answer 0 is a failure. -/
def compatDmaMap (b : Bounce) (ptr size dir : Nat) (ans : DmaAnswer) :
    Bounce × Nat :=
  if ptr = 0 then (b, 0)
  else
    let (b, bounce, phys) := b.allocCoherent size ans
    if bounce = 0 then (b, 0)
    else
      let b := b.setBounceOrigVA phys ptr
      if dir = dmaToDevice ∨ dir = dmaBidirectional then
        ({ b with mem := writeMem b.mem bounce (readMem b.mem ptr size) },
          phys)
      else (b, phys)

/-- `compat_dma_unmap`; the size and the direction are not asked. -/
def compatDmaUnmap (b : Bounce) (addr _size _dir : Nat) : Bounce :=
  b.freeCoherentByPhys addr

/-- `compat_dma_sync_cpu`. -/
def compatDmaSyncCpu (b : Bounce) (addr size dir : Nat) : Bounce :=
  if dir = dmaFromDevice then b.syncBounceForCpu addr size else b

/-- `compat_dma_sync_dev`: nothing to do. -/
def compatDmaSyncDev (b : Bounce) (_addr _size _dir : Nat) : Bounce := b

-- =============================================================== the device

/-- The device reads byte `i` of the buffer at a bus address. -/
def deviceRead (b : Bounce) (dma i : Nat) : Option UInt8 :=
  (b.dmaList.find? (DMAEntry.atPhys dma)).map fun e => b.mem (e.virt + i)

/-- The device writes it. -/
def deviceWrite (b : Bounce) (dma i : Nat) (x : UInt8) : Bounce :=
  match b.dmaList.find? (DMAEntry.atPhys dma) with
  | none => b
  | some e => { b with mem := Function.update b.mem (e.virt + i) x }

/-- The processor writes a byte. -/
def cpuWrite (b : Bounce) (a : Nat) (x : UInt8) : Bounce :=
  { b with mem := Function.update b.mem a x }

end Bounce

end Rtw88
