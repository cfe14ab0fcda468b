/-
The books of a run: the frames released, the frames still there, whether
the hardware is on, and what the driver was called for.

`Plain`, `SameObjects` and `Accounts` relate the states before and after a
piece of the source: the log grows and the power stays; the keys and the
station stay; every frame that was in the piece's hands or in a window is
released or in a window afterwards.
-/
import Rtw88.Model.System

namespace Rtw88

-- =================================================================== frames

/-- The frame an observation releases. -/
def Obs.freedSkb : Obs → Option SkBuff
  | .kfreeSkb skb => some skb
  | _ => none

/-- The frames released so far. -/
def freedSkbs (log : List Obs) : List SkBuff := log.filterMap Obs.freedSkb

/-- The frames of the object: in a window, or out of it and not delivered
yet. -/
def Sys.kept (s : Sys) : List SkBuff :=
  s.mlme.rxBa.held ++ s.pending.flatMap (·.out)

/-- The frames handed to `rxFrame` by a list of events. -/
def received (es : List Event) : List SkBuff :=
  es.filterMap fun
    | .rx _ skb => some skb
    | _ => none

-- ==================================================================== power

/-- The observation is of the hardware being started or stopped. -/
def Obs.isPower : Obs → Bool
  | .hwStart _ | .hwStop => true
  | _ => false

/-- The observation is a call into the driver for the link: a frame, a
scan, a channel, a key, a station, an association notice. -/
def Obs.isDriverOp : Obs → Bool
  | .tx _ | .setKey _ _ | .disableKey _ | .staAdd _ | .staRemove _ => true
  | .bssInfoChanged _ | .connectHwSetup _ | .restoreConnectedHw _ => true
  | .hwScan | .cancelHwScan | .swScanStart | .swScanSwitchChannel => true
  | .swScanComplete => true
  | _ => false

/-- Whether the hardware is on after these observations. -/
def hwOn : List Obs → Bool
  | [] => false
  | .hwStart ok :: log => ok || hwOn log
  | .hwStop :: _ => false
  | _ :: log => hwOn log

/-- Every call into the driver was made with the hardware on. -/
def OpsWhileOn : List Obs → Prop
  | [] => True
  | o :: log => (o.isDriverOp = true → hwOn log = true) ∧ OpsWhileOn log

-- ======================================================== keys and stations

/-- The observation is of a key or a station coming or going. -/
def Obs.isObject : Obs → Bool
  | .setKey _ _ | .disableKey _ | .freeKey _ => true
  | .staAdd _ | .staRemove _ | .freeSta _ => true
  | _ => false

/-- No association response is waited for, nor after a scan. -/
def Dormant (s : Mlme) : Prop :=
  s.state ≠ .associating ∧ s.scanReturnState ≠ .associating

-- ================================================================ relations

/-- The log grows by these observations. -/
def Grows (Q : Obs → Prop) (s t : Mlme) : Prop :=
  ∃ new, t.log = new ++ s.log ∧ ∀ o ∈ new, Q o

/-- A piece that releases no frame and leaves power and windows alone. -/
def Plain (s t : Mlme) : Prop :=
  t.powered = s.powered ∧ t.up = s.up ∧ t.rxBa = s.rxBa
    ∧ Grows (fun o => o.isPower = false ∧ o.freedSkb = none) s t

/-- A piece that leaves the keys and the station alone. While the driver
is gone it does not begin an association either. -/
def SameObjects (s t : Mlme) : Prop :=
  t.up = s.up ∧ t.powered = s.powered ∧ t.ptkConf = s.ptkConf
    ∧ t.gtkConf = s.gtkConf ∧ t.sta = s.sta ∧ t.nextAddr = s.nextAddr
    ∧ (s.up = false → Dormant s → Dormant t)
    ∧ Grows (fun o => o.isObject = false) s t

/-- A piece that is plain and leaves the keys and the station alone. -/
def Steady (s t : Mlme) : Prop := Plain s t ∧ SameObjects s t

/-- A piece that takes the frames `skbs` over and leaves the power
alone. -/
def Accounts (skbs : List SkBuff) (s t : Mlme) : Prop :=
  t.powered = s.powered ∧ t.up = s.up
    ∧ Grows (fun o => o.isPower = false) s t
    ∧ (freedSkbs t.log ++ t.rxBa.held).Perm
        (skbs ++ (freedSkbs s.log ++ s.rxBa.held))

end Rtw88
