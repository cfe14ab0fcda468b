/-
The log as a bounded queue.

`LogHist` is the ring with everything that was ever appended and ever
returned, and with the place in the former behind the last byte read.
What is unread is defined from these alone.
-/
import Mathlib.Data.List.DropRight
import Rtw88.Lib.Trace
import Rtw88.Model.Connect
import Rtw88.Model.LogRing

namespace Rtw88

/-- How much the ring keeps: one cell less than it has. -/
def logCapacity : Nat := 8191

/-- The ring and its history. -/
structure LogHist where
  ring : LogRing
  appended : List UInt8
  returned : List UInt8
  /-- How many of the bytes appended come up to the last one read. -/
  consumed : Nat

/-- When the kext is loaded. -/
def LogHist.init : LogHist :=
  { ring := LogRing.init, appended := [], returned := [], consumed := 0 }

/-- Of the bytes appended since the last one read, the newest 8191. -/
def LogHist.unread (v : LogHist) : List UInt8 :=
  (v.appended.drop v.consumed).rtake logCapacity

/-- What happens to the log. -/
inductive LogEvent
  | init (alloc : Bool)
  | exit
  | append (msg : List UInt8)
  | read (outBuf : Bool) (maxLen : UInt32)

/-- One event. -/
def logStep (v : LogHist) (e : LogEvent) : LogHist :=
  match e with
  | .init alloc => { v with ring := rtw88CompatInit alloc v.ring }
  | .exit => { v with ring := rtw88CompatExit v.ring }
  | .append msg =>
      { v with
        ring := rtw88LogAppend msg v.ring
        appended := if v.ring.lock then v.appended ++ cStr msg
          else v.appended }
  | .read outBuf maxLen =>
      let out := rtw88ReadLog outBuf maxLen v.ring
      { v with
        ring := out.2
        returned := v.returned ++ out.1
        consumed := if out.1 = [] then v.consumed
          else v.appended.length - v.unread.length + out.1.length }

/-- The ring is a queue of the newest 8191 bytes. -/
structure BoundedFifo (v : LogHist) : Prop where
  /-- What was returned are bytes appended, each once and in order. -/
  order : v.returned.Sublist (v.appended.take v.consumed)
  /-- A read returns the oldest of what is unread. -/
  oldest : v.ring.lock = true → ∀ maxLen,
    (rtw88ReadLog true maxLen v.ring).1 = v.unread.take maxLen.toNat
  head : v.ring.head.toNat < 8192
  tail : v.ring.tail.toNat < 8192
  empty : v.ring.head = v.ring.tail ↔ v.unread = []

end Rtw88
