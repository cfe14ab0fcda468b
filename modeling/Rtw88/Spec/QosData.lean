/-
The sequence numbers of the QoS data frames of an association.

`QosLine` is the object with the numbers the driver got since the station
was registered. Its calls are those that read or write `_dataSeq`
(`txDataFrame`, `sendAddbaRequest`, `releaseSta`), in any order, and
between them everything else may change in any way: `other`.
-/
import Rtw88.Lib.Trace
import Rtw88.Model.TxAccess

namespace Rtw88

variable (hw : Hw)

-- ================================================================== numbers

/-- The frame control of a QoS data frame, without its flags. -/
def isQosData (fc : UInt16) : Bool :=
  fc &&& 0x00fc == ftypeData ||| stypeQosData

/-- The sequence number of a QoS data frame that goes out. -/
def Obs.qosNumber : Obs → Option Nat
  | .tx skb =>
      if isQosData (frameControl skb.data)
      then some (le16At skb.data 22 >>> 4).toNat else none
  | _ => none

/-- The starting sequence number of an ADDBA request that goes out. -/
def Obs.addbaSsn : Obs → Option Nat
  | .tx skb =>
      if frameControl skb.data = ftypeMgmt ||| stypeAction
          ∧ peek skb.data 24 = categoryBack
          ∧ peek skb.data 25 = actionAddbaReq
      then some (le16At skb.data 31 >>> 4).toNat else none
  | _ => none

/-- What was observed between two states, oldest first. -/
def observed (s t : Mlme) : List Obs :=
  (t.log.take (t.log.length - s.log.length)).reverse

-- ==================================================================== calls

/-- One call. -/
inductive QosCall
  | txDataFrame (env : Env) (m : List UInt8)
  | sendAddbaRequest (env : Env) (tid : UInt8)
  | releaseSta
  | other (t : Mlme)

/-- The state after the call. Nothing else writes `_dataSeq` or takes the
station away. -/
def QosCall.run (s : Mlme) : QosCall → Mlme
  | .txDataFrame env m => (Rtw88.txDataFrame hw env m s).2
  | .sendAddbaRequest env tid => Rtw88.sendAddbaRequest hw env tid s
  | .releaseSta => Rtw88.releaseSta s
  | .other t =>
      { t with dataSeq := s.dataSeq, sta := t.sta <|> s.sta, log := s.log }

/-- The object, and the numbers of the QoS data frames handed to the
driver in this association, oldest first. -/
structure QosLine where
  mlme : Mlme
  numbers : List Nat

/-- After `start`. -/
def QosLine.init (powered : Bool) : QosLine :=
  { mlme := Mlme.init powered, numbers := [] }

/-- One call. -/
def qosStep (v : QosLine) (c : QosCall) : QosLine :=
  { mlme := c.run hw v.mlme
    numbers := match c with
      | .releaseSta => []
      | _ => v.numbers
          ++ (observed v.mlme (c.run hw v.mlme)).filterMap Obs.qosNumber }

-- ================================================================== gap-free

/-- The `n` numbers from zero on, modulo 4096. -/
def consecutive (n : Nat) : List Nat := (List.range n).map (· % 4096)

/-- What is promised of a call. -/
structure GapFree (v : QosLine) (c : QosCall) : Prop where
  /-- The numbers handed out so far are consecutive, from zero on. -/
  numbers : (qosStep hw v c).numbers
    = consecutive (qosStep hw v c).numbers.length
  /-- A call that succeeds on an HT link hands out the next. -/
  sent : ∀ env m, c = .txDataFrame env m → htAllowed v.mlme = true →
    (txDataFrame hw env m v.mlme).1 = true →
      (qosStep hw v c).numbers = v.numbers ++ [v.numbers.length % 4096]
  /-- A call that fails takes nothing. -/
  failed : ∀ env m, c = .txDataFrame env m → htAllowed v.mlme = true →
    (txDataFrame hw env m v.mlme).1 = false →
      (txDataFrame hw env m v.mlme).2.dataSeq = v.mlme.dataSeq
        ∧ (txDataFrame hw env m v.mlme).2.ccmpTxPn = v.mlme.ccmpTxPn
  /-- Every call frees its packet once. -/
  freed : ∀ env m, c = .txDataFrame env m →
    (txDataFrameT hw env m v.mlme).val = txDataFrame hw env m v.mlme
      ∧ disposals (txDataFrameT hw env m v.mlme).log = 1
  /-- The number an ADDBA request announces is that of the next frame. -/
  announced : ∀ env tid, c = .sendAddbaRequest env tid →
    ∀ o ∈ observed v.mlme (sendAddbaRequest hw env tid v.mlme),
      o.addbaSsn = some (v.numbers.length % 4096)

/-- `txDataFrame` gets as far as the payload and cannot copy it. -/
def PayloadLost (env : Env) (m : List UInt8) (s : Mlme) : Prop :=
  s.sta.isSome = true ∧ s.up = true ∧ 14 < m.length ∧ m.length ≤ 2048
    ∧ env.headCopy = true ∧ env.dataSkb = true ∧ env.payloadCopy = false

instance (env : Env) (m : List UInt8) (s : Mlme) :
    Decidable (PayloadLost env m s) :=
  inferInstanceAs (Decidable (_ ∧ _))

/-- The call does not lose its payload on an HT link. -/
def KeepsPayload (v : QosLine) (c : QosCall) : Prop :=
  ∀ env m, c = .txDataFrame env m → htAllowed v.mlme = true →
    ¬ PayloadLost env m v.mlme

end Rtw88
