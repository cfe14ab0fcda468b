/-
The kernel heap of linux/slab.h, over `IOMalloc` and `IOFree`.

`IOFree` has to be told the size its block was given with, and `kfree` is
not told any, so every block begins with a header word that holds the
size of the object behind it.

A `Kernel` is memory and the blocks `IOMalloc` gave and `IOFree` has not
taken back. Which block `IOMalloc` finds, and what is in it, is for the
kernel to say: every allocation takes its answer as an argument. An
`IOFree` of anything but a block as it was given is a panic, `none` here.
Sizes are `size_t`, so they wrap; addresses do not get that far.
-/
import Rtw88.Lib.Words

namespace Rtw88

/-- Kernel memory, and the blocks given out: address and size. -/
structure Kernel where
  mem : Memory
  blocks : List (Nat × Nat)

/-- What `IOMalloc` answers: null, or a block and what is in it. -/
abbrev IOAnswer := Option (Nat × Memory)

/-- `IOMalloc`. -/
def Kernel.ioMalloc (total : Nat) (k : Kernel) :
    IOAnswer → Option Nat × Kernel
  | none => (none, k)
  | some (a, junk) =>
      (some a,
        { mem := writeMem k.mem a (readMem junk a total)
          blocks := (a, total) :: k.blocks })

/-- `IOFree`. -/
def Kernel.ioFree (a size : Nat) (k : Kernel) : Option Kernel :=
  if (a, size) ∈ k.blocks then
    some { k with blocks := k.blocks.filter fun b => b ≠ (a, size) }
  else none

/-- `GFP_KERNEL`, and every other flag but one. -/
def gfpKernel : UInt32 := 0

/-- `__GFP_ZERO`. -/
def gfpZero : UInt32 := 1

/-- The address below which `kfree` takes a pointer for a corrupted
one. -/
def kernelBase : Nat := 0xffff000000000000

/-- `kmalloc`: the object behind the header, or null. -/
def kmalloc (size : Nat) (flags : UInt32) (answer : IOAnswer)
    (k : Kernel) : Option Nat × Kernel :=
  match k.ioMalloc ((size + 8) % 2 ^ 64) answer with
  | (none, k) => (none, k)
  | (some block, k) =>
      let k := { k with mem := storeLe k.mem block 8 size }
      let k :=
        if flags &&& gfpZero ≠ 0 then
          { k with mem := writeMem k.mem (block + 8) (List.replicate size 0) }
        else k
      (some (block + 8), k)

/-- `kzalloc`. -/
def kzalloc (size : Nat) (flags : UInt32) (answer : IOAnswer)
    (k : Kernel) : Option Nat × Kernel :=
  kmalloc size (flags ||| gfpZero) answer k

/-- `kcalloc`. -/
def kcalloc (n size : Nat) (flags : UInt32) (answer : IOAnswer)
    (k : Kernel) : Option Nat × Kernel :=
  kzalloc (n * size % 2 ^ 64) flags answer k

/-- `kmalloc_array`. -/
def kmallocArray (n size : Nat) (flags : UInt32) (answer : IOAnswer)
    (k : Kernel) : Option Nat × Kernel :=
  kmalloc (n * size % 2 ^ 64) flags answer k

/-- `kfree`. -/
def kfree (ptr : Nat) (k : Kernel) : Option Kernel :=
  if ptr = 0 then some k
  else if ptr < kernelBase then some k
  else
    let block := ptr - 8
    k.ioFree block ((loadLe k.mem block 8 + 8) % 2 ^ 64)

/-- `krealloc`. -/
def krealloc (ptr newSize : Nat) (flags : UInt32) (answer : IOAnswer)
    (k : Kernel) : Option (Option Nat × Kernel) :=
  if ptr = 0 then some (kmalloc newSize flags answer k)
  else
    let oldSize := loadLe k.mem (ptr - 8) 8
    match kmalloc newSize flags answer k with
    | (none, k) => some (none, k)
    | (some newp, k) =>
        let copy := if oldSize < newSize then oldSize else newSize
        let k :=
          { k with mem := writeMem k.mem newp (readMem k.mem ptr copy) }
        (kfree ptr k).map fun k => (some newp, k)

/-- `kmemdup`; what it copies is given by its bytes. -/
def kmemdup (src : List UInt8) (flags : UInt32) (answer : IOAnswer)
    (k : Kernel) : Option Nat × Kernel :=
  match kmalloc src.length flags answer k with
  | (none, k) => (none, k)
  | (some p, k) => (some p, { k with mem := writeMem k.mem p src })

/-- `kstrdup`. -/
def kstrdup (s : List UInt8) (flags : UInt32) (answer : IOAnswer)
    (k : Kernel) : Option Nat × Kernel :=
  kmemdup (s ++ [0]) flags answer k

/-- `kmem_cache_create`: a `struct kmem_cache` is the size of its objects
and its name. -/
def kmemCacheCreate (name size : Nat) (answer : IOAnswer) (k : Kernel) :
    Option Nat × Kernel :=
  match kzalloc 16 gfpKernel answer k with
  | (none, k) => (none, k)
  | (some c, k) =>
      let k := { k with mem := storeLe k.mem c 8 size }
      (some c, { k with mem := storeLe k.mem (c + 8) 8 name })

/-- `kmem_cache_alloc`. -/
def kmemCacheAlloc (c : Nat) (flags : UInt32) (answer : IOAnswer)
    (k : Kernel) : Option Nat × Kernel :=
  kzalloc (loadLe k.mem c 8) flags answer k

/-- `kmem_cache_free`. -/
def kmemCacheFree (_c obj : Nat) (k : Kernel) : Option Kernel := kfree obj k

/-- `kmem_cache_destroy`. -/
def kmemCacheDestroy (c : Nat) (k : Kernel) : Option Kernel := kfree c k

/-- A call, or a write of an owner into its object. -/
inductive HeapEvent
  | malloc (size : Nat) (flags : UInt32) (answer : IOAnswer)
  | zalloc (size : Nat) (flags : UInt32) (answer : IOAnswer)
  | calloc (n size : Nat) (flags : UInt32) (answer : IOAnswer)
  | mallocArray (n size : Nat) (flags : UInt32) (answer : IOAnswer)
  | free (ptr : Nat)
  | realloc (ptr newSize : Nat) (flags : UInt32) (answer : IOAnswer)
  | memdup (src : List UInt8) (flags : UInt32) (answer : IOAnswer)
  | strdup (s : List UInt8) (flags : UInt32) (answer : IOAnswer)
  | cacheCreate (name size : Nat) (answer : IOAnswer)
  | cacheAlloc (c : Nat) (flags : UInt32) (answer : IOAnswer)
  | cacheFree (c obj : Nat)
  | cacheDestroy (c : Nat)
  | write (ptr i : Nat) (bs : List UInt8)

/-- One event; `none` is a panic. -/
def heapStep (k : Kernel) : HeapEvent → Option Kernel
  | .malloc size flags answer => some (kmalloc size flags answer k).2
  | .zalloc size flags answer => some (kzalloc size flags answer k).2
  | .calloc n size flags answer => some (kcalloc n size flags answer k).2
  | .mallocArray n size flags answer =>
      some (kmallocArray n size flags answer k).2
  | .free ptr => kfree ptr k
  | .realloc ptr newSize flags answer =>
      (krealloc ptr newSize flags answer k).map Prod.snd
  | .memdup src flags answer => some (kmemdup src flags answer k).2
  | .strdup s flags answer => some (kstrdup s flags answer k).2
  | .cacheCreate name size answer =>
      some (kmemCacheCreate name size answer k).2
  | .cacheAlloc c flags answer => some (kmemCacheAlloc c flags answer k).2
  | .cacheFree c obj => kmemCacheFree c obj k
  | .cacheDestroy c => kmemCacheDestroy c k
  | .write ptr i bs => some { k with mem := writeMem k.mem (ptr + i) bs }

/-- The run of a list of events. -/
def heapRun (k : Kernel) (es : List HeapEvent) : Option Kernel :=
  es.foldlM heapStep k

end Rtw88
