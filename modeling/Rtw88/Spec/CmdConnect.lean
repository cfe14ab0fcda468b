/-
Connecting to a network by its SSID: octets against C strings.
-/
import Rtw88.Model.CmdConnect
import Rtw88.Spec.AssocReq

namespace Rtw88

/-- The scan lists that beacons build up, in any number of scans. -/
inductive ScanList : List RTW88BSS → Prop
  | nil : ScanList []
  | frame (env : Env) (skb : SkBuff) {s : Mlme} (h : ScanList s.bssList) :
      ScanList (processScanResult env skb s).bssList

/-- The SSID of an entry. -/
def RTW88BSS.octets (b : RTW88BSS) : List UInt8 :=
  b.ssid.toList.take b.ssidLen.toNat

/-- The SSID asked for: up to the first zero byte, at most 32. -/
def requested (args : List UInt8) : List UInt8 := cStr (args.take 32)

/-- The entry compares equal to the string at `d`, by `strlen` and
`memcmp`. -/
def SameString (d : List UInt8) (b : RTW88BSS) : Prop :=
  cStr b.ssid.toList = cStr d

/-- The SSID stands in its buffer as a C string: no zero byte in it, and
nothing of a longer one behind it. -/
def StandsClean (b : RTW88BSS) : Prop :=
  b.ssidLen.toNat = (cStr b.ssid.toList).length

/-- The keys and the request that follow are for the SSID `ssid`. -/
structure Pursues (ssid : List UInt8) (s : Mlme) : Prop where
  octets : s.targetBSS.octets = ssid
  pmk : ∀ pr passphrase,
    derivePMK pr passphrase s.targetBSS.ssid.toList s.targetBSS.ssidLen.toNat
      = derivePMK pr passphrase ssid ssid.length
  request : ∀ hw, ∃ rest, requestElems (buildAssocReq hw s).1
    = { id := eidSsid, body := ssid } :: rest

/-- What a connection does not touch where it is not made. -/
structure SameTarget (s s' : Mlme) : Prop where
  target : s'.targetBSS = s.targetBSS
  password : s'.password = s.password
  wpa2 : s'.wpa2 = s.wpa2
  state : s'.state = s.state

/-- `sConnect` reads only the caller's block, and connects to an entry
with the SSID asked for exactly if there is one. -/
structure ConnectsExactly (args behind : List UInt8) (s : Mlme) : Prop where
  inside : (sConnect (some args) behind s).Fits connectArgsSize
  success : (sConnect (some args) behind s).val.1 = .success
    ↔ ∃ b ∈ s.bssList, b.octets = requested args
  target : (sConnect (some args) behind s).val.1 = .success →
    (sConnect (some args) behind s).val.2.2.targetBSS ∈ s.bssList
      ∧ Pursues (requested args) (sConnect (some args) behind s).val.2.2
  notFound : (¬ ∃ b ∈ s.bssList, b.octets = requested args) →
    (sConnect (some args) behind s).val.1 = .notFound
      ∧ SameTarget s (sConnect (some args) behind s).val.2.2

/-- The strings end in the caller's block, the first entry that compares
equal has exactly this SSID, and if none does, none has this SSID. An
empty list is not compared with anything. -/
def ReadsAsString (args behind : List UInt8) (l : List RTW88BSS) : Prop :=
  l = [] ∨
    0 ∈ args
      ∧ (∀ pre b post, l = pre ++ b :: post →
        SameString (args ++ behind) b →
        (∀ a ∈ pre, ¬ SameString (args ++ behind) a) →
        StandsClean b ∧ 0 ∈ args.drop passwordOff)
      ∧ ((∀ b ∈ l, ¬ SameString (args ++ behind) b) →
        ∀ b ∈ l, b.octets ≠ requested args)

end Rtw88
