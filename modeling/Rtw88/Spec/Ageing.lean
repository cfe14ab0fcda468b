/-
How long ago the entries of the scan list were heard, counted in scans.

Beside the system runs a record of what was on the air: for every BSSID
the number of scans started since a beacon or probe response of it was
last taken in. It knows nothing of `_scanGeneration`, except that a scan
at which that wraps around counts as hearing everyone, as the source has
it.
-/
import Rtw88.Spec.BssList
import Rtw88.Model.System

namespace Rtw88

variable (hw : Hw)

-- ==================================================================== events

/-- A management frame that `processScanResult` gets: a beacon or probe
response in SCANNING. -/
def scanReply (skb : SkBuff) (s : Mlme) : Prop :=
  (frameControl skb.mem &&& 0x00f0 = 0x0080
    ∨ frameControl skb.mem &&& 0x00f0 = 0x0050) ∧ s.state = .scanning

instance (skb : SkBuff) (s : Mlme) : Decidable (scanReply skb s) :=
  inferInstanceAs (Decidable (_ ∧ _))

/-- The BSSID whose beacon or probe response the event takes in, if any:
it has its fixed fields, and there is memory for it. -/
def hears (s : Mlme) : Event → Option (Bytes 6)
  | .rx env skb =>
      if isMgmt (frameControl skb.mem) = true ∧ scanReply skb s
          ∧ ¬ (skb.data.length < 30 + 12 || !env.bssAlloc) = true
      then some (addr3 skb.data) else none
  | _ => none

/-- The event starts a scan. -/
def startsScan (s : Mlme) : Event → Bool
  | .cmdScan _ => s.state == .idle && s.up && !(enabledChannels hw).isEmpty
  | _ => false

/-- The manual scan thread calls `scanDone`: it is done, or finds the
driver gone. The answer is whether the scan was aborted. -/
def ScanPc.ends (s : Mlme) : ScanPc → Option Bool
  | .entry => if s.up then none else some true
  | .chan i count _ =>
      if i < count && !s.manualScanAbort then none
      else some s.manualScanAbort
  | _ => none

/-- The event calls `scanDone`: the driver reports the end, or the thread
gets there. -/
def Sys.endsScan (s : Sys) : Event → Option Bool
  | .scanDone aborted => some aborted
  | .scan i _ => s.scans[i]?.bind (ScanPc.ends s.mlme)
  | _ => none

-- ================================================================ the record

/-- The system, and for every BSSID the scans since it was heard. -/
structure Aged where
  sys : Sys
  since : Bytes 6 → Nat

/-- After `start`. -/
def Aged.init (powered : Bool) : Aged :=
  { sys := Sys.init powered, since := fun _ => 0 }

/-- One event. -/
def agedStep (a : Aged) (e : Event) : Aged :=
  { sys := sysStep hw a.sys e
    since :=
      match hears a.sys.mlme e with
      | some bssid => Function.update a.since bssid 0
      | none =>
          if startsScan hw a.sys.mlme e then
            if a.sys.mlme.scanGeneration + 1 = 0 then fun _ => 0
            else fun bssid => a.since bssid + 1
          else a.since }

-- ==================================================================== ageing

/-- The entry is the target of a link, also while a scan goes on from
it. -/
def IsLinkTarget (s : Mlme) (b : RTW88BSS) : Prop :=
  let effective := if s.state = .scanning then s.scanReturnState else s.state
  (effective = .connected ∨ effective = .handshaking)
    ∧ b.bssid = s.targetBSS.bssid

instance (s : Mlme) (b : RTW88BSS) : Decidable (IsLinkTarget s b) :=
  inferInstanceAs (Decidable (_ ∧ _))

/-- The entry is to go: more than three scans were started since it was
heard. -/
def Stale (a : Aged) (b : RTW88BSS) : Prop :=
  ¬ IsLinkTarget a.sys.mlme b ∧ 3 < a.since b.bssid

instance (a : Aged) (b : RTW88BSS) : Decidable (Stale a b) :=
  inferInstanceAs (Decidable (_ ∧ _))

/-- The end of a scan takes the stale entries out of the list, none if it
was aborted, and leaves the others as they are. The walk through the
pointers does the same to the entries in memory, and counts right. -/
def AgesRightly (a : Aged) (e : Event) : Prop :=
  ∀ aborted ∈ a.sys.endsScan e,
    (sysStep hw a.sys e).mlme.bssList
        = a.sys.mlme.bssList.filter (fun b => aborted || !decide (Stale a b))
      ∧ ∀ (m : BssMem) (l : List (Nat × RTW88BSS)), Holds m l →
        l.map Prod.snd = a.sys.mlme.bssList →
        ∃ m', scanDoneMem aborted a.sys.mlme m = some m'
          ∧ Holds m' (l.filter fun x => aborted || !decide (Stale a x.2))

end Rtw88
