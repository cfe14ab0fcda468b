/-
The scan list in memory: `_bssList`, `_bssCount`, and what
`processScanResult`, `scanDone` and `cmdScan` do to the entries' cells
and their `next` pointers.

Model/Scan.lean has the same functions on the list itself; here they
walk the pointers. An access to a cell that was never allocated, or was
freed, answers `none`, and so does a walk of more steps than addresses
were ever handed out.

The count is a plain number: a list of 2^32 entries does not fit in
memory.
-/
import Rtw88.Lib.Chain
import Rtw88.Model.Scan

namespace Rtw88

variable (hw : Hw) (env : Env)

/-- The entries' memory, `_bssCount`, and the allocator's next
address. -/
structure BssMem where
  list : Chain Nat RTW88BSS
  count : Nat
  brk : Nat

/-- No entry. -/
def BssMem.init : BssMem :=
  { list := { cell := fun _ => none, head := none }, count := 0, brk := 0 }

/-- No walk of the list takes more turns. -/
def BssMem.turns (m : BssMem) : Nat := m.brk + 2

/-- `processScanResult`. The entry is parsed into a cell of its own,
which becomes the first of the list or, if the BSSID is known, is copied
over that entry and freed. -/
def processScanResultMem (skb : SkBuff) (generation : UInt32)
    (m : BssMem) : Option BssMem :=
  if skb.data.length < 30 + 12 || !env.bssAlloc then some m
  else
    let bss := m.brk
    let entry := scanEntry skb generation
    let cell := Function.update m.list.cell bss (some ⟨entry, none⟩)
    match findFrom cell (fun b => b.bssid == entry.bssid) m.turns
        m.list.head with
    | none => none
    | some (some e) =>
        match cell e with
        | none => none
        | some old =>
            -- the copy takes the new entry's null `next` along
            let cell := Function.update cell e (some ⟨entry, none⟩)
            let cell := Function.update cell e (some ⟨entry, old.next⟩)
            some
              { list := { m.list with cell := Function.update cell bss none }
                count := m.count, brk := m.brk + 1 }
    | some none =>
        let cell := Function.update cell bss (some ⟨entry, m.list.head⟩)
        some
          { list := { cell := cell, head := some bss }
            count := m.count + 1, brk := m.brk + 1 }

/-- The ageing loop of `scanDone`. -/
def scanDoneMem (aborted : Bool) (s : Mlme) (m : BssMem) : Option BssMem :=
  if aborted then some m
  else
    (sweepFrom (keepsBss s) m.turns .head (m.list, m.count)).map fun r =>
      { m with list := r.1, count := r.2 }

/-- The loop of `cmdScan` where the scan generation wraps to zero. -/
def cmdScanMem (s : Mlme) (m : BssMem) : Option BssMem :=
  if s.state ≠ .idle ∨ s.up = false then some m
  else if s.scanGeneration + 1 = 0 then
    (mapFrom (fun b => { b with lastSeenScan := 1 }) m.turns m.list.head
      m.list.cell).map fun cell => { m with list := { m.list with cell } }
  else some m

end Rtw88
