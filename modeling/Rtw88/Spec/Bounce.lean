/-
What the streaming DMA interface promises, and to whom.

A `Mapping` is one buffer to its users: what of it the processor handed
to the device, what the device wrote into it, and whose each byte is.
`Owned` is the rule of that interface: the processor writes its own
bytes, the device the bytes that were handed to it, and no two live
buffers share memory or a bus address. `BounceRefines` is what a step
owes; `NothingMissed` says that the step had no copy to make that the
code does not make.
-/
import Rtw88.Lib.Trace
import Rtw88.Model.Bounce

namespace Rtw88

-- ================================================================= mappings

/-- A live mapping: its node, its direction, and of every byte what the
device was handed, what the device wrote since the processor did,
whether a `dma_sync_single_for_cpu` covered it after that, and whether it
is the processor's. -/
structure Mapping where
  entry : DMAEntry
  dir : Nat
  handed : Nat → UInt8
  wrote : Nat → Option UInt8
  fetched : Nat → Bool
  cpuOwns : Nat → Bool

namespace Mapping

/-- `dma_map_single`: all of the buffer goes to the device. -/
def new (entry : DMAEntry) (dir : Nat) (mem : Memory) : Mapping :=
  { entry := entry, dir := dir
    handed := fun i => mem (entry.origVa + i)
    wrote := fun _ => none
    fetched := fun _ => false
    cpuOwns := fun _ => false }

/-- The processor writes at an address. -/
def cpuWrote (a : Nat) (m : Mapping) : Mapping :=
  { m with
    wrote := fun i => if m.entry.origVa + i = a then none else m.wrote i }

/-- The device writes a byte. -/
def deviceWrote (i : Nat) (x : UInt8) (m : Mapping) : Mapping :=
  { m with
    wrote := Function.update m.wrote i (some x)
    fetched := Function.update m.fetched i false }

/-- The first `n` bytes come back to the processor. -/
def forCpu (n : Nat) (m : Mapping) : Mapping :=
  { m with
    fetched := fun i => m.fetched i || decide (i < n)
    cpuOwns := fun i => m.cpuOwns i || decide (i < n) }

/-- The first `n` bytes go to the device again. -/
def forDevice (mem : Memory) (n : Nat) (m : Mapping) : Mapping :=
  { m with
    handed := fun i => if i < n then mem (m.entry.origVa + i) else m.handed i
    cpuOwns := fun i => m.cpuOwns i && !decide (i < n) }

end Mapping

-- ===================================================================== runs

/-- The code's state and the live mappings, newest first. -/
structure BounceRun where
  b : Bounce
  live : List Mapping

/-- No mapping yet. -/
def BounceRun.init (mem : Memory) : BounceRun :=
  { b := { mem := mem, dmaList := [], descs := 0 }, live := [] }

/-- A call of dma-mapping.h, or an access to a byte. -/
inductive BounceOp
  | map (ptr size dir : Nat) (ans : DmaAnswer)
  | cpuWrite (a : Nat) (x : UInt8)
  | deviceWrite (addr i : Nat) (x : UInt8)
  | syncForCpu (addr n dir : Nat)
  | syncForDevice (addr n dir : Nat)
  | unmap (addr size dir : Nat)

/-- The node that a successful `dma_map_single` makes. -/
def BounceRun.entry (v : BounceRun) (ptr size virt phys : Nat) : DMAEntry :=
  { desc := v.b.descs, virt := virt, phys := phys, size := size
    origVa := ptr }

/-- The mapping at an address changes. -/
def BounceRun.upon (v : BounceRun) (addr : Nat) (f : Mapping → Mapping) :
    List Mapping :=
  v.live.map fun m => if m.entry.phys = addr then f m else m

/-- One step. A mapping is live if its call answered an address. -/
def bounceStep (v : BounceRun) : BounceOp → BounceRun
  | .map ptr size dir ans =>
      let r := v.b.compatDmaMap ptr size dir ans
      match ans.desc with
      | some (virt, phys) =>
          if r.2 = 0 then { v with b := r.1 }
          else
            { b := r.1
              live := Mapping.new (v.entry ptr size virt phys) dir v.b.mem
                :: v.live }
      | none => { v with b := r.1 }
  | .cpuWrite a x =>
      { b := v.b.cpuWrite a x, live := v.live.map (Mapping.cpuWrote a) }
  | .deviceWrite addr i x =>
      { b := v.b.deviceWrite addr i x
        live := v.upon addr (Mapping.deviceWrote i x) }
  | .syncForCpu addr n dir =>
      { b := v.b.compatDmaSyncCpu addr n dir
        live := v.upon addr (Mapping.forCpu n) }
  | .syncForDevice addr n dir =>
      { b := v.b.compatDmaSyncDev addr n dir
        live := v.upon addr (Mapping.forDevice v.b.mem n) }
  | .unmap addr size dir =>
      { b := v.b.compatDmaUnmap addr size dir
        live := v.live.eraseP fun m => m.entry.atPhys addr }

-- ================================================================ ownership

/-- The two buffers of a mapping. -/
def DMAEntry.regions (e : DMAEntry) : List (Nat × Nat) :=
  [(e.virt, e.size), (e.origVa, e.size)]

/-- Two mappings share no byte. -/
def DMAEntry.ApartFrom (e f : DMAEntry) : Prop :=
  ∀ r ∈ e.regions, ∀ s ∈ f.regions, Apart r.1 r.2 s.1 s.2

/-- The live mapping at an address, in the direction it was made. -/
def BounceRun.LiveAt (v : BounceRun) (addr dir : Nat) : Prop :=
  ∃ m ∈ v.live, m.entry.phys = addr ∧ m.dir = dir

/-- The step respects the ownership of DMA buffers: a map succeeds, with
an address and two buffers that are no live mapping's; a write is its
owner's; a sync or an unmap names a live mapping. -/
def Owned (v : BounceRun) : BounceOp → Prop
  | .map ptr size _ ans =>
      ptr ≠ 0 ∧ ∃ virt phys node,
        ans = ⟨some (virt, phys), some node⟩ ∧ virt ≠ 0 ∧ phys ≠ 0
          ∧ Apart ptr size virt size
          ∧ ∀ m ∈ v.live, m.entry.phys ≠ phys
            ∧ (v.entry ptr size virt phys).ApartFrom m.entry
  | .cpuWrite a _ =>
      ∀ m ∈ v.live, Apart m.entry.virt m.entry.size a 1
        ∧ ∀ i < m.entry.size, m.entry.origVa + i = a → m.cpuOwns i = true
  | .deviceWrite addr i _ =>
      ∃ m ∈ v.live, m.entry.phys = addr ∧ i < m.entry.size
        ∧ m.dir ≠ dmaToDevice ∧ m.cpuOwns i = false
  | .syncForCpu addr _ dir => v.LiveAt addr dir
  | .syncForDevice addr _ dir => v.LiveAt addr dir
  | .unmap addr _ dir => v.LiveAt addr dir

-- ================================================================= promises

/-- The step gives byte `i` of the mapping back to the processor. -/
def BounceOp.Fetches (m : Mapping) (i : Nat) : BounceOp → Prop
  | .syncForCpu addr n _ => m.entry.phys = addr ∧ i < n
  | .unmap addr _ _ => m.entry.phys = addr
  | _ => False

/-- The step is about the mapping. -/
def BounceOp.Touches (m : Mapping) : BounceOp → Prop
  | .map _ _ _ _ => False
  | .cpuWrite a _ => ¬ Apart m.entry.origVa m.entry.size a 1
  | .deviceWrite addr _ _ => m.entry.phys = addr
  | .syncForCpu addr _ _ => m.entry.phys = addr
  | .syncForDevice addr _ _ => m.entry.phys = addr
  | .unmap addr _ _ => m.entry.phys = addr

/-- What a step owes: a read of the device would see what it was handed,
the processor finds what the device wrote, and the buffers of other live
mappings stay as they were. -/
structure BounceRefines (v : BounceRun) (op : BounceOp) : Prop where
  deviceSees : ∀ m ∈ (bounceStep v op).live, m.dir = dmaToDevice →
    ∀ i < m.entry.size, m.cpuOwns i = false →
      (bounceStep v op).b.deviceRead m.entry.phys i = some (m.handed i)
  cpuHolds : ∀ m ∈ v.live, m.dir = dmaFromDevice →
    ∀ i < m.entry.size, op.Fetches m i → ∀ x, m.wrote i = some x →
      (bounceStep v op).b.mem (m.entry.origVa + i) = x
  othersKept : ∀ m ∈ v.live, ¬ op.Touches m → ∀ i < m.entry.size,
    (bounceStep v op).b.mem (m.entry.origVa + i)
        = v.b.mem (m.entry.origVa + i)
      ∧ (bounceStep v op).b.deviceRead m.entry.phys i
        = v.b.deviceRead m.entry.phys i

/-- Nothing was to be copied where the code copies nothing: a buffer goes
to the device again as it went before, and whatever the device wrote
after the last `dma_sync_single_for_cpu` over it was in the processor's
buffer anyway when the mapping ends. -/
def NothingMissed (v : BounceRun) : BounceOp → Prop
  | .syncForDevice addr n dir =>
      dir = dmaToDevice → ∀ m ∈ v.live, m.entry.phys = addr →
        ∀ i < m.entry.size, i < n →
          v.b.mem (m.entry.origVa + i) = m.handed i
  | .unmap addr _ dir =>
      dir = dmaFromDevice → ∀ m ∈ v.live, m.entry.phys = addr →
        ∀ i < m.entry.size, m.fetched i = false →
          ∀ x, m.wrote i = some x → v.b.mem (m.entry.origVa + i) = x
  | _ => True

end Rtw88
