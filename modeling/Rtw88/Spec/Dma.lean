/-
Where every DMA buffer is, at every moment: `Places` shows the nodes on
`_dmaList`, those on `_dmaPendingFree` and those each call in progress
has to itself, and says that together with the released buffers they are
all the buffers ever made, each once.
-/
import Rtw88.Model.Dma

namespace Rtw88

/-- A node with its address. -/
abbrev DmaNode := Nat × DMAEntry

/-- The descriptors of some nodes. -/
def descsOf (l : List DmaNode) : List Nat := l.map fun x => x.2.desc

/-- The nodes that a call has to itself: an allocation and a free one
each, a drain its private list. -/
def DmaCall.Holds (m : Nat → Option (Cell Nat DMAEntry)) :
    DmaCall → List DmaNode → Prop
  | .linking e, l => ∃ x n, m e = some ⟨x, n⟩ ∧ l = [(e, x)]
  | .freeing e, l => ∃ x n, m e = some ⟨x, n⟩ ∧ l = [(e, x)]
  | .draining e, l => Seg m e l none
  | .done, l => l = []

/-- The lists end, no node is on two of them or twice on one, and every
descriptor is that of one node or was released once. -/
structure Places (s : DmaSys) (live pending : List DmaNode)
    (held : List (List DmaNode)) : Prop where
  onList : Seg s.dma.cell s.dma.dmaList live none
  onPending : Seg s.dma.cell s.dma.dmaPendingFree pending none
  perCall : held.length = s.calls.length
  byCall : ∀ (i : Nat) (c : DmaCall) (l : List DmaNode),
    s.calls[i]? = some c → held[i]? = some l → c.Holds s.dma.cell l
  apart : (addrs (live ++ pending ++ held.flatten)).Nodup
  once : (descsOf (live ++ pending ++ held.flatten)
    ++ s.dma.released).Perm (List.range s.dma.descs)

/-- Where a buffer can be. -/
inductive Place
  | dmaList
  | dmaPendingFree
  /-- With call `i`: an allocation before its section, a free that has
  unlinked it, or a drain that has not come to it. -/
  | call (i : Nat)
  | released
deriving DecidableEq

/-- Descriptor `d` is at the place. -/
def SitsAt (s : DmaSys) (live pending : List DmaNode)
    (held : List (List DmaNode)) (d : Nat) : Place → Prop
  | .dmaList => d ∈ descsOf live
  | .dmaPendingFree => d ∈ descsOf pending
  | .call i => ∃ l, held[i]? = some l ∧ d ∈ descsOf l
  | .released => d ∈ s.dma.released

/-- An allocation before its section. -/
def DmaCall.allocates : DmaCall → Bool
  | .linking _ => true
  | _ => false

def DmaEvent.allocates : DmaEvent → Bool
  | .allocCoherent _ _ => true
  | _ => false

/-- No allocation is in progress. -/
def DmaSys.Settled (s : DmaSys) : Prop := ∀ c ∈ s.calls, c.allocates = false

instance (s : DmaSys) : Decidable s.Settled :=
  inferInstanceAs (Decidable (∀ c ∈ s.calls, c.allocates = false))

/-- The node a free asks for. -/
def DmaEvent.test : DmaEvent → Option (DMAEntry → Bool)
  | .freeCoherent _ virt _ => some (DMAEntry.atVirt virt)
  | .freeCoherentByPhys phys => some (DMAEntry.atPhys phys)
  | _ => none

/-- The step is a `freeCoherent` of this address. -/
def DmaEvent.freesVirt (virt : Nat) : DmaEvent → Bool
  | .freeCoherent _ virt' _ => virt' == virt
  | _ => false

/-- Or a `freeCoherentByPhys` of it. -/
def DmaEvent.freesPhys (phys : Nat) : DmaEvent → Bool
  | .freeCoherentByPhys phys' => phys' == phys
  | _ => false

/-- Some steps call a free for every buffer on the list: for its virtual
or its physical address, as often as the list has the address. -/
def FreesAll (live : List DmaNode) (gs : List DmaEvent) : Prop :=
  ∀ x ∈ live,
    (live.countP fun y => y.2.atVirt x.2.virt)
        ≤ gs.countP (DmaEvent.freesVirt x.2.virt)
      ∨ (live.countP fun y => y.2.atPhys x.2.phys)
        ≤ gs.countP (DmaEvent.freesPhys x.2.phys)

instance (live : List DmaNode) (gs : List DmaEvent) :
    Decidable (FreesAll live gs) :=
  inferInstanceAs (Decidable (∀ x ∈ live, _ ≤ _ ∨ _ ≤ _))

/-- A call that is a drain, or over. -/
def DmaCall.drains : DmaCall → Bool
  | .draining _ => true
  | .done => true
  | _ => false

/-- The step is a drain's: its start or what it does next. -/
def DmaEvent.drains : DmaEvent → Bool
  | .drainPendingFree => true
  | .next _ _ => true
  | _ => false

end Rtw88
