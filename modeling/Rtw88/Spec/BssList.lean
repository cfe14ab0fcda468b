/-
Runs of the scan list, and what its representation keeps up.

A run is a sequence of received beacons and probe responses, `cmdScan`s
and `scanDone`s, with anything else the driver does to its other fields
in between. It carries the list twice: as the list of Model/Scan.lean,
and as the cells in memory of Model/BssList.lean (`none` after a fault).
`Holds m l` says that the cells are the list `l`, each with its address,
and that no other cell is allocated.
-/
import Rtw88.Lib.Trace
import Rtw88.Model.BssList

namespace Rtw88

-- =================================================================== runs

/-- What happens to the scan list. -/
inductive BssEvent
  | frame (env : Env) (skb : SkBuff)
  | scan (hw : Hw) (env : Env)
  | done (hw : Hw) (aborted : Bool)
  | other (s : Mlme)

/-- The driver's fields, and the entries in memory. -/
structure BssState where
  mlme : Mlme
  mem : Option BssMem

/-- After `start`. -/
def BssState.init (powered : Bool) : BssState :=
  { mlme := Mlme.init powered, mem := some BssMem.init }

/-- One event. -/
def bssStep (st : BssState) : BssEvent → BssState
  | .frame env skb =>
      { mlme := processScanResult env skb st.mlme
        mem := st.mem.bind
          (processScanResultMem env skb st.mlme.scanGeneration) }
  | .scan hw env =>
      { mlme := (cmdScan hw env st.mlme).2.2
        mem := st.mem.bind (cmdScanMem st.mlme) }
  | .done hw aborted =>
      { mlme := scanDone hw aborted st.mlme
        mem := st.mem.bind (scanDoneMem aborted st.mlme) }
  | .other s =>
      { mlme := { s with
          bssList := st.mlme.bssList, bssCount := st.mlme.bssCount
          scanGeneration := st.mlme.scanGeneration }
        mem := st.mem }

/-- A run of events from `start` on. -/
def bssRun (powered : Bool) (es : List BssEvent) : BssState :=
  runFrom bssStep (BssState.init powered) es

-- ========================================================= representation

/-- What every entry keeps up. -/
structure RTW88BSS.Ok (generation : UInt32) (b : RTW88BSS) : Prop where
  ssid_len : b.ssidLen.toNat ≤ 32
  terminated : peek b.ssid.toList 32 = 0
  ies_len : b.ies.length < 512
  seen : b.lastSeenScan ≤ generation

/-- The scan list: BSSIDs pairwise distinct, the count its length, every
entry in order. -/
structure BssIntact (s : Mlme) : Prop where
  nodup : (s.bssList.map RTW88BSS.bssid).Nodup
  count : s.bssCount = s.bssList.length
  ok : ∀ b ∈ s.bssList, b.Ok s.scanGeneration

/-- The entries in memory are the cells of `l`, and there is no other. -/
structure Holds (m : BssMem) (l : List (Nat × RTW88BSS)) : Prop where
  seg : Seg m.list.cell m.list.head l none
  nodup : (addrs l).Nodup
  below : ∀ a ∈ addrs l, a < m.brk
  only : ∀ a, a ∉ addrs l → m.list.cell a = none
  count : m.count = l.length

/-- The memory holds the list `s` has. -/
def Represents (m : BssMem) (s : Mlme) : Prop :=
  ∃ l, Holds m l ∧ l.map Prod.snd = s.bssList

/-- A beacon of a BSSID (its third address) that is listed, in cell `a`,
overwrites that entry: the first cell, every `next` pointer, every other
entry and the count stay. -/
def UpdatesInPlace (st : BssState) : BssEvent → Prop
  | .frame env skb =>
      skb.data.length < 30 + 12 ∨ env.bssAlloc = false
      ∨ ∀ m a c, st.mem = some m → m.list.cell a = some c →
        c.val.bssid = addr3 skb.data →
        ∃ m', (bssStep st (.frame env skb)).mem = some m'
          ∧ m'.list.head = m.list.head ∧ m'.count = m.count
          ∧ m'.list.cell a = some
            ⟨scanEntry skb st.mlme.scanGeneration, c.next⟩
          ∧ ∀ b, b ≠ a → m'.list.cell b = m.list.cell b
  | _ => True

end Rtw88
