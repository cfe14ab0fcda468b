/-
Beacons and probe responses as sequences of elements, the entries they
leave in the scan list, and what two of them have to share to classify
one network the same way.
-/
import Rtw88.Model.Scan

namespace Rtw88

-- ================================================================== beacons

/-- The elements of a beacon or probe response: behind the header, the
timestamp, the interval and the capabilities. -/
def beaconElems (skb : SkBuff) : List Elem := elems (skb.data.drop 36)

/-- `l'` is `l` with `b` recorded: where the entry of its BSSID was, or
else in front. -/
def Recorded (b : RTW88BSS) (l l' : List RTW88BSS) : Prop :=
  (∃ l₁ old l₂, l = l₁ ++ old :: l₂ ∧ old.bssid = b.bssid
      ∧ l' = l₁ ++ b :: l₂)
    ∨ (b.bssid ∉ l.map RTW88BSS.bssid ∧ l' = b :: l)

/-- A frame `processScanResult` makes an entry of, if the entry can be
allocated. -/
def Scanned (env : Env) (skb : SkBuff) : Prop :=
  30 + 12 ≤ skb.data.length ∧ env.bssAlloc = true

-- =================================================================== orders

/-- At most one element with this id. -/
def AtMostOne (es : List Elem) (id : UInt8) : Prop :=
  es.countP (fun e => e.id == id) ≤ 1

/-- At most one element of each kind that names the network, its channel
or its suites; a DS Parameter element has a channel. There may be WPA
elements and any others. -/
structure OneOfEach (es : List Elem) : Prop where
  ssid : AtMostOne es eidSsid
  ds : AtMostOne es eidDsParams
  ht : AtMostOne es eidHtOperation
  rsn : AtMostOne es eidRsn
  dsChannel : ∀ e ∈ es, e.id = eidDsParams → 1 ≤ e.body.length →
    peek e.body 0 ≠ 0

/-- The same BSSID, and the same receive status. -/
structure SameStation (skb skb' : SkBuff) : Prop where
  bssid : addr3 skb.data = addr3 skb'.data
  freq : skb.freq = skb'.freq
  signal : skb.signal = skb'.signal

/-- Two entries classify the network alike. -/
structure SameNetwork (b b' : RTW88BSS) : Prop where
  ssid : b.ssid = b'.ssid
  ssidLen : b.ssidLen = b'.ssidLen
  channel : b.channel = b'.channel
  cipher : b.cipher = b'.cipher
  groupCipher : b.groupCipher = b'.groupCipher
  akm : b.akm = b'.akm

/-- An entry has the suites the RSN element `e` selects. -/
def HasSuites (b : RTW88BSS) (e : Elem) : Prop :=
  ∀ pairwise group, rtw88RsnSelectCcmpPsk e.body = some (pairwise, group) →
    b.cipher = pairwise ∧ b.groupCipher = group ∧ b.akm = akmPsk

end Rtw88
