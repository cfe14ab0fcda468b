/-
Uplink aggregation and the agreement it needs.

`Uplink` is the system with what a careful client would remember of the
present association: the dialog tokens of the ADDBA requests it sent for
`_baTid`, and whether one of them was answered with success. A DELBA of
the AP for that agreement, and the end of the association, forget both.
-/
import Rtw88.Spec.Control

namespace Rtw88

variable (hw : Hw)

/-- The dialog tokens of the ADDBA requests for `_baTid` in the log,
newest first. -/
def requests (s : Mlme) : List UInt8 := s.log.filterMap Obs.addbaToken

/-- Those of them that are new since `s`. -/
def newRequests (s t : Mlme) : List UInt8 :=
  (requests t).take ((requests t).length - (requests s).length)

/-- The dialog token of the ADDBA response an event brings, when it is
one that grants `_baTid` and that the object looks at. -/
def Sys.grants (s : Sys) (e : Event) : Option UInt8 :=
  match s.act hw e with
  | .agree token => some token
  | _ => none

/-- The event brings a DELBA of the AP for our agreement. -/
def Sys.endsAgreement (s : Sys) (e : Event) : Bool :=
  s.act hw e == .delba

/-- The system, what was asked for in this association and since the
last DELBA, and whether it was agreed to. -/
structure Uplink where
  sys : Sys
  asked : List UInt8
  agreed : Bool

/-- After `start`. -/
def Uplink.init (powered : Bool) : Uplink :=
  { sys := Sys.init powered, asked := [], agreed := false }

/-- Whether an answer to a request has been there, after the event. -/
def Uplink.answered (v : Uplink) (e : Event) : Bool :=
  v.agreed || (v.sys.grants hw e).any fun token => v.asked.contains token

/-- One event. -/
def uplinkStep (v : Uplink) (e : Event) : Uplink :=
  let s := sysStep hw v.sys e
  if s.mlme.state ≠ .connected then
    { sys := s, asked := [], agreed := false }
  else if v.sys.endsAgreement hw e then
    { sys := s, asked := newRequests v.sys.mlme s.mlme, agreed := false }
  else
    { sys := s, asked := newRequests v.sys.mlme s.mlme ++ v.asked
      agreed := v.answered hw e }

/-- Aggregation is on only under our own agreement and never outside an
association, and a data frame is tagged only where it is on. -/
structure OwnAgreement (v : Uplink) : Prop where
  agreed : v.sys.mlme.txBaActive = true → v.agreed = true
  associated : v.sys.mlme.txBaActive = true → v.sys.mlme.state = .connected
  tagged : ∀ env m skb,
    (txDataFrame hw env m v.sys.mlme).2.log = .tx skb :: v.sys.mlme.log →
      skb.flags &&& txCtlAmpdu ≠ 0 → v.agreed = true

/-- A grant that arrives while aggregation is off answers a request of
this association that no DELBA has ended; no activation of
`doAuthenticate` makes its final write while aggregation is on. -/
structure MindsAgreement (v : Uplink) (e : Event) : Prop where
  answers : ∀ token ∈ v.sys.grants hw e, v.sys.mlme.txBaActive = false →
    token ∈ v.asked
  settled : (v.sys.finishing e).isSome → v.sys.mlme.txBaActive = false

instance (v : Uplink) (e : Event) : Decidable (MindsAgreement hw v e) :=
  -- over the one token of the frame, not over all byte values
  letI _answers : Decidable (∀ token ∈ v.sys.grants hw e,
      v.sys.mlme.txBaActive = false → token ∈ v.asked) :=
    Option.decidableForallMem _
  decidable_of_iff ((∀ token ∈ v.sys.grants hw e,
        v.sys.mlme.txBaActive = false → token ∈ v.asked)
      ∧ ((v.sys.finishing e).isSome → v.sys.mlme.txBaActive = false))
    ⟨fun h => ⟨h.1, h.2⟩, fun h => ⟨h.1, h.2⟩⟩

end Rtw88
