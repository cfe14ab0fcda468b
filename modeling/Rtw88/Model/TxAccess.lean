/-
`txDataFrame` again, with what it does to the packet.

The packet is the caller's `mbuf`: the routine owns it from the call on,
copies the Ethernet header and then the payload out of it, and frees it
at every `return`. Model/Tx.lean joins the tests that fail before the
counters move; here each stands where the source has it.
-/
import Rtw88.Lib.Access
import Rtw88.Model.Tx

namespace Rtw88

open Traced

variable (hw : Hw) (env : Env)

/-- `mbuf_freem(m); return`. -/
def mbufFreem (r : Bool × Mlme) : Traced (Bool × Mlme) := do
  access .release
  pure r

/-- `txDataFrame`. -/
def txDataFrameT (m : List UInt8) (s : Mlme) : Traced (Bool × Mlme) :=
  match s.sta with
  | none => mbufFreem (false, s)
  | some sta =>
      if !s.up then mbufFreem (false, s)
      else if m.length < 14 || 2048 < m.length then mbufFreem (false, s)
      else do
        access (.read 0 14)
        if !env.headCopy then mbufFreem (false, s)
        else if !env.dataSkb then mbufFreem (false, s)
        else
          let ethertype := be16At m 12
          let key := txKey ethertype s
          let seq := if htAllowed s then s.dataSeq else s.txSeq
          let s := txCounters key s
          let flags := if htAllowed s && s.txBaActive
            then txCtlFirstFragment ||| txCtlAmpdu else txCtlFirstFragment
          let sent := s.emit (.tx
            { data := dataFrame hw m seq key s.ccmpTxPn s, flags := flags
              sta := some sta.addr, hwKey := key
              protocol := some ethertype })
          if 14 < m.length then do
            access (.read 14 (m.length - 14))
            if !env.payloadCopy then mbufFreem (false, s)
            else mbufFreem (true, sent)
          else mbufFreem (true, sent)

end Rtw88
