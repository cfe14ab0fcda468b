/-
The one timer of the object, and the phases that arm it.

`Visits` is the system with two counters nobody reads: `visit` numbers
the stays in a state (each change of `_state` begins the next), and
`armed` is the visit in which the pending deadline was armed. Whether an
event arms the timer is asked of the model itself: after it a deadline is
pending where there was none before.
-/
import Rtw88.Spec.Control

namespace Rtw88

variable (hw : Hw)

/-- The system with no deadline pending. -/
def Sys.disarmed (s : Sys) : Sys := { s with mlme := s.mlme.cancelTimer }

/-- The event arms the timer. -/
def Sys.arms (s : Sys) (e : Event) : Bool :=
  (sysStep hw s.disarmed e).mlme.timer.isSome

/-- The phases that a deadline ends. -/
def RTW88State.timed (st : RTW88State) : Bool :=
  st == .scanning || st == .authenticating || st == .associating
    || st == .handshaking

/-- The system, with the number of the visit and that in which the timer
was armed last. -/
structure Visits where
  sys : Sys
  visit : Nat
  armed : Option Nat

/-- After `start`. -/
def Visits.init (powered : Bool) : Visits :=
  { sys := Sys.init powered, visit := 0, armed := none }

/-- One event. -/
def visitStep (v : Visits) (e : Event) : Visits :=
  let s := sysStep hw v.sys e
  let visit := if s.mlme.state = v.sys.mlme.state then v.visit
    else v.visit + 1
  { sys := s, visit := visit
    armed := if v.sys.arms hw e then some visit else v.armed }

/-- `onTimer` runs and acts. -/
def Sys.expires (s : Sys) (e : Event) : Bool :=
  e.isTimer && s.timerDue && s.mlme.state.timed

/-- An expiry is that of a deadline armed in this visit, and starts no
second activation of `doAuthenticate` for one attempt. -/
structure OwnTimeout (v : Visits) (e : Event) : Prop where
  own : v.sys.expires e = true → v.armed = some v.visit
  single : v.sys.expires e = true → v.sys.mlme.state = .authenticating →
    ∀ t ∈ v.sys.auths, t.attempt ≠ v.sys.attempt

/-- No `cmdConnect` finds its target while a deadline is pending; no
activation of an earlier attempt makes its final write while one of the
current attempt is in progress. -/
structure MindsTimer (s : Sys) (e : Event) : Prop where
  disarmed : FindsTarget hw s e → s.mlme.timer = none
  settled : ∀ t ∈ s.finishing e, t.attempt ≠ s.attempt →
    ∀ u ∈ s.auths, u.attempt ≠ s.attempt

instance (s : Sys) (e : Event) : Decidable (MindsTimer hw s e) :=
  decidable_of_iff ((FindsTarget hw s e → s.mlme.timer = none)
      ∧ ∀ t ∈ s.finishing e, t.attempt ≠ s.attempt →
        ∀ u ∈ s.auths, u.attempt ≠ s.attempt)
    ⟨fun h => ⟨h.1, h.2⟩, fun h => ⟨h.1, h.2⟩⟩

end Rtw88
