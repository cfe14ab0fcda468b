/-
The elements of an association request, by what the target is and what
the chip can do, each with the fields of its body.
-/
import Rtw88.Model.AssocReq
import Rtw88.Model.Ies

namespace Rtw88

/-- One element of this shape if the condition holds, none otherwise. -/
def OneIf (c : Prop) (P : Elem → Prop) (l : List Elem) : Prop :=
  (c → ∃ e, l = [e] ∧ P e) ∧ (¬ c → l = [])

/-- HT Capabilities of this record, on a link of `width` MHz: the
information field less the bits of 40 MHz below that width, A-MPDU
parameters, the MCS set, zeros. -/
structure EncodesHt (ht : HtCap) (width : UInt8) (e : Elem) : Prop where
  id : e.id = eidHtCapability
  length : e.body.length = 26
  info : le16At e.body 0 = if width < 40 then narrowHtCap ht.cap else ht.cap
  factor : peek e.body 2 &&& 0x3 = ht.ampduFactor &&& 0x3
  density : (peek e.body 2 >>> 2) &&& 0x7 = ht.ampduDensity &&& 0x7
  rxMask : (e.body.drop 3).take 10 = ht.rxMask.toList
  rxHighest : le16At e.body 13 = ht.rxHighest
  txParams : peek e.body 15 = ht.txParams.toUInt8
  rest : e.body.drop 16 = List.replicate 10 0

/-- VHT Capabilities of this record: the information field, and the MCS
maps with their highest rates, of which the record's low halves count. -/
structure EncodesVht (vht : VhtCap) (e : Elem) : Prop where
  id : e.id = eidVhtCapability
  length : e.body.length = 12
  info : le32At e.body 0 = vht.cap
  rxMap : le16At e.body 4 = vht.rxMcsMap.toUInt16
  rxHighest : le16At e.body 6 = vht.rxHighest
  txMap : le16At e.body 8 = vht.txMcsMap.toUInt16
  txHighest : le16At e.body 10 = vht.txHighest

/-- RSN with pairwise CCMP, PSK, and the target's group suite if that is
TKIP. -/
structure EncodesRsn (groupCipher : UInt32) (e : Elem) : Prop where
  id : e.id = eidRsn
  length : e.body.length = 20
  version : le16At e.body 0 = 1
  group : rtw88ReadSuite e.body 2
    = if groupCipher = cipherTkip then cipherTkip else cipherCcmp
  pairwiseCount : le16At e.body 6 = 1
  pairwise : rtw88ReadSuite e.body 8 = cipherCcmp
  akmCount : le16At e.body 12 = 1
  akm : rtw88ReadSuite e.body 14 = akmPsk
  caps : le16At e.body 18 = 0

/-- The elements of a request to the target of `s`, in order. -/
def RequestElems (hw : Hw) (s : Mlme) (es : List Elem) : Prop :=
  ∃ ext ht vht rsn,
    es = { id := eidSsid
           body := s.targetBSS.ssid.toList.take s.targetBSS.ssidLen.toNat }
        :: { id := eidSuppRates
             body := if s.targetBSS.channel ≤ 14 then rates2g else rates5g }
        :: (ext ++ ht ++ vht
          ++ { id := eidVendorSpecific, body := wmeInfo.drop 2 } :: rsn)
      ∧ OneIf (s.targetBSS.channel ≤ 14)
        (fun e => e = { id := eidExtSuppRates, body := extRates2g }) ext
      ∧ OneIf (htAllowed s = true ∧ ∃ sb, hw.bands (targetBand s) = some sb
          ∧ sb.htCap.htSupported = true)
        (fun e => ∀ sb, hw.bands (targetBand s) = some sb →
          EncodesHt sb.htCap s.connChanWidth e) ht
      ∧ OneIf (targetBand s = .ghz5 ∧ htAllowed s = true
          ∧ ∃ sb, hw.bands (targetBand s) = some sb
            ∧ sb.vhtCap.vhtSupported = true)
        (fun e => ∀ sb, hw.bands (targetBand s) = some sb →
          EncodesVht sb.vhtCap e) vht
      ∧ OneIf (s.wpa2 = true) (EncodesRsn s.targetBSS.groupCipher) rsn

end Rtw88
