/-
The objects lent to the driver: key configurations and the station.

A key is the driver's from a `set_key(SET_KEY)` that returns 0 to the
`set_key(DISABLE_KEY)` that names it, a station from an `sta_add` that
returns 0 to its `sta_remove`. `Env` says what `set_key` returns. What
`sta_add` returns is asked nowhere in the source, so it is not in `Env`:
`staOk` says it for every station, by its address. No address is used
twice, so any pattern of return codes is some `staOk`.
-/
import Rtw88.Lib.Handle
import Rtw88.Model.Teardown
import Rtw88.Spec.Ledger
import Rtw88.Spec.Steps

namespace Rtw88

-- ==================================================================== the log

/-- What an observation does to a key, by the address of its
configuration. -/
def Obs.keyAct : Obs → Option (HandleAct Nat)
  | .setKey key ok => if ok then some (.take key.addr) else none
  | .disableKey key => some (.give key.addr)
  | .freeKey addr => some (.free addr)
  | _ => none

/-- What an observation does to a station that `sta_add` accepts. -/
def Obs.staAct (staOk : Nat → Bool) : Obs → Option (HandleAct Nat)
  | .staAdd addr => if staOk addr then some (.take addr) else none
  | .staRemove addr => some (.give addr)
  | .freeSta addr => some (.free addr)
  | _ => none

/-- The life of the keys. -/
def keyActs (log : List Obs) : List (HandleAct Nat) :=
  log.filterMap Obs.keyAct

/-- The life of the stations. -/
def staActs (staOk : Nat → Bool) (log : List Obs) : List (HandleAct Nat) :=
  log.filterMap (Obs.staAct staOk)

/-- The key configurations that `_ptkConf` and `_gtkConf` point to. -/
def keySlots (s : Mlme) : List Nat :=
  (s.ptkConf.toList ++ s.gtkConf.toList).map KeyConf.addr

/-- The station that `_sta` points to. -/
def staSlot (s : Mlme) : List Nat := s.sta.toList.map Sta.addr

/-- The driver's objects are the object's own.

- The driver holds exactly the keys in the slots, and `_sta` if its
  `sta_add` succeeded.
- No key was disabled and no station removed that the driver did not
  hold, and none was freed that it did (`Tidy`).
- `sta_remove` was called once for every station that was added and is
  gone, and for no other. -/
structure Lifecycle (staOk : Nat → Bool) (s : Mlme) : Prop where
  keys : Lent (keySlots s) (keyActs s.log)
  stas : Lent ((staSlot s).filter staOk) (staActs staOk s.log)
  removed : ∀ addr, s.log.count (.staRemove addr)
    = if .staAdd addr ∈ s.log ∧ staOk addr = true ∧ addr ∉ staSlot s
        then 1 else 0

-- ================================================================ one event

/-- The event goes on to `releaseSta`: a `cmdConnect` from IDLE, a
disconnect, a handshake timeout, `cmdPowerOff` or `stop`. -/
def ReleasesSta (hw : Hw) (s : Sys) : Event → Prop
  | .cmdDisconnect _ => s.mlme.state ≠ .idle
  | .cmdPowerOff _ => s.mlme.state ≠ .scanning
  | .timer _ => s.mlme.timer.isSome ∧ s.auths.any (·.onTimer) = false
      ∧ s.mlme.state = .handshaking
  | .stop _ => True
  | .resume i env =>
      (∃ w ∈ s.waiters[i]?, w.cmd = .powerOff
          ∧ ¬(w.turn < 40 ∧ s.mlme.state = .scanning))
        ∨ (s.looksUp hw (.resume i env)).isSome
  | e => (s.looksUp hw e).isSome

/-- The event goes on to `clearKeys`: one of those, or a
deauthentication. -/
def ClearsKeys (hw : Hw) (s : Sys) (e : Event) : Prop :=
  ReleasesSta hw s e
    ∨ ∃ x ∈ e.mgmt, (frameControl x.2.mem &&& 0x00f0 = 0x00A0
        ∨ frameControl x.2.mem &&& 0x00f0 = 0x00C0)
      ∧ deauthAccepted hw x.2 s.mlme = true

/-- What the event frees, the driver is told of and had accepted: keys
are cleared with `_powered` set, or there are none; a station that is
released was added. -/
structure FreesSafely (hw : Hw) (staOk : Nat → Bool) (s : Sys)
    (e : Event) : Prop where
  keys : ClearsKeys hw s e → s.mlme.powered = true ∨ keySlots s.mlme = []
  sta : ReleasesSta hw s e → ∀ addr ∈ staSlot s.mlme, staOk addr = true

instance (hw : Hw) (s : Sys) : ∀ e, Decidable (ReleasesSta hw s e)
  | .cmdDisconnect _ | .cmdPowerOff _ => inferInstanceAs (Decidable (¬_))
  | .timer _ => inferInstanceAs (Decidable (_ ∧ _))
  | .stop _ => isTrue trivial
  | .resume i _ =>
      inferInstanceAs (Decidable ((∃ w ∈ s.waiters[i]?, _) ∨ _))
  | .cmdScan _ | .cmdConnect _ _ | .cmdPowerOn _ | .powerOn _ | .powerOff
  | .rx _ _ | .deliver _ _ | .scanDone _ | .reorderTimer | .output _ _
  | .auth _ _ _ | .scan _ _ => inferInstanceAs (Decidable (_ = true))

instance (hw : Hw) (s : Sys) (e : Event) : Decidable (ClearsKeys hw s e) :=
  inferInstanceAs (Decidable (_ ∨ ∃ x ∈ e.mgmt, _))

instance (hw : Hw) (staOk : Nat → Bool) (s : Sys) (e : Event) :
    Decidable (FreesSafely hw staOk s e) :=
  decidable_of_iff
    ((ClearsKeys hw s e → s.mlme.powered = true ∨ keySlots s.mlme = [])
      ∧ (ReleasesSta hw s e → ∀ addr ∈ staSlot s.mlme, staOk addr = true))
    ⟨fun h => ⟨h.1, h.2⟩, fun h => ⟨h.keys, h.sta⟩⟩

end Rtw88
