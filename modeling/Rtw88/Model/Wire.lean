/-
802.11 frames as bytes: the constants of compat/net/mac80211.h and
compat/rtw88_compat.h, the header accessors the receive path uses, and
the header the transmit path writes.
-/
import Rtw88.Lib.Tlv

namespace Rtw88

-- ============================================================ constants

/-- `WLAN_CIPHER_SUITE_CCMP`. -/
def cipherCcmp : UInt32 := 0x000FAC04

/-- `WLAN_CIPHER_SUITE_TKIP`. -/
def cipherTkip : UInt32 := 0x000FAC02

/-- `0x000FAC02`: the AKM suite 00-0f-ac:2, PSK. -/
def akmPsk : UInt32 := 0x000FAC02

def ftypeMgmt : UInt16 := 0x0000
def ftypeData : UInt16 := 0x0008

def stypeAssocReq : UInt16 := 0x0000
def stypeProbeReq : UInt16 := 0x0040
def stypeAuth : UInt16 := 0x00B0
def stypeDeauth : UInt16 := 0x00C0
def stypeAction : UInt16 := 0x00D0
def stypeNullfunc : UInt16 := 0x0040
def stypeQosData : UInt16 := 0x0080

def fctlToDs : UInt16 := 0x0100
def fctlFromDs : UInt16 := 0x0200
def fctlPm : UInt16 := 0x1000
def fctlProtected : UInt16 := 0x4000

def eidSsid : UInt8 := 0
def eidSuppRates : UInt8 := 1
def eidDsParams : UInt8 := 3
def eidHtCapability : UInt8 := 45
def eidRsn : UInt8 := 48
def eidExtSuppRates : UInt8 := 50
def eidHtOperation : UInt8 := 61
def eidVhtCapability : UInt8 := 191
def eidVhtOperation : UInt8 := 192
def eidVendorSpecific : UInt8 := 221

/-- `WLAN_CATEGORY_BACK`. -/
def categoryBack : UInt8 := 3

def actionAddbaReq : UInt8 := 0
def actionAddbaResp : UInt8 := 1
def actionDelba : UInt8 := 2

/-- `WLAN_REASON_DEAUTH_LEAVING`. -/
def reasonDeauthLeaving : UInt8 := 3

/-- `ETH_P_PAE`: the EAPOL ethertype. -/
def ethPPae : UInt16 := 0x888E

/-- `IEEE80211_TX_CTL_NO_ACK`, `_FIRST_FRAGMENT` and `_AMPDU`. -/
def txCtlNoAck : UInt32 := 0x4
def txCtlFirstFragment : UInt32 := 0x10
def txCtlAmpdu : UInt32 := 0x40

/-- `enum ieee80211_sta_rx_bandwidth`. -/
def staRxBw20 : UInt8 := 0

def staRxBw40 : UInt8 := 1

def staRxBw80 : UInt8 := 2

/-- `ff:ff:ff:ff:ff:ff`. -/
def broadcast : Bytes 6 := List.Vector.replicate 6 0xff

-- ======================================================= reading a header

/-- `le16_to_cpu(hdr->frame_control)`. -/
def frameControl (d : List UInt8) : UInt16 := le16At d 0

def addr1 (d : List UInt8) : Bytes 6 := grab d 4 6
def addr2 (d : List UInt8) : Bytes 6 := grab d 10 6
def addr3 (d : List UInt8) : Bytes 6 := grab d 16 6

/-- `le16_to_cpu(hdr->seq_ctrl)`. -/
def seqCtrl (d : List UInt8) : UInt16 := le16At d 22

/-- `ieee80211_is_mgmt`. -/
def isMgmt (fc : UInt16) : Bool := fc &&& 0x000c == ftypeMgmt

/-- `ieee80211_is_data`. -/
def isData (fc : UInt16) : Bool := fc &&& 0x000c == ftypeData

/-- `ieee80211_has_protected`. -/
def hasProtected (fc : UInt16) : Bool := fc &&& fctlProtected != 0

/-- `ieee80211_is_data_qos`. -/
def isDataQos (fc : UInt16) : Bool := fc &&& 0x008c == ftypeData ||| 0x0080

/-- `ieee80211_get_hdrlen_from_skb`. -/
def hdrlen (fc : UInt16) : Nat :=
  24 + (if fc &&& 0x0300 = 0x0300 then 6 else 0)
    + (if fc &&& 0x0080 ≠ 0 ∧ fc &&& 0x000c = ftypeData then 2 else 0)

-- ======================================================= writing a header

/-- A `struct ieee80211_hdr_3addr` with duration zero: 24 bytes. -/
def hdr3addr (fc : UInt16) (a1 a2 a3 : Bytes 6) (seq : UInt16) :
    List UInt8 :=
  le16 fc ++ [0, 0] ++ a1.toList ++ a2.toList ++ a3.toList ++ le16 seq

@[simp] theorem hdr3addr_length (fc : UInt16) (a1 a2 a3 : Bytes 6)
    (seq : UInt16) : (hdr3addr fc a1 a2 a3 seq).length = 24 := by
  simp [hdr3addr]

/-- The frame control word of a frame built on this header. -/
@[simp] theorem frameControl_hdr3addr (fc : UInt16) (a1 a2 a3 : Bytes 6)
    (seq : UInt16) (rest : List UInt8) :
    frameControl (hdr3addr fc a1 a2 a3 seq ++ rest) = fc := by
  simp only [frameControl, hdr3addr, List.append_assoc]
  exact le16At_le16 fc _

/-- Ethertype and payload of an Ethernet frame. -/
theorem ethernet_reads (da sa : Bytes 6) (ethertype : UInt16)
    (payload : List UInt8) :
    be16At (da.toList ++ sa.toList ++ be16 ethertype ++ payload) 12
        = ethertype
      ∧ (da.toList ++ sa.toList ++ be16 ethertype ++ payload).drop 14
        = payload := by
  have hdrop : (da.toList ++ sa.toList ++ be16 ethertype ++ payload).drop 12
      = be16 ethertype ++ payload := by
    rw [List.append_assoc]
    exact List.drop_left' (by simp)
  exact ⟨be16At_of_drop hdrop, drop_add_of_append hdrop (be16_length _)⟩

/-- `cpu_to_le16((uint16_t)(seq & 0xFFF) << 4)`. The management builders
that leave out the mask store the same sixteen bits. -/
def seqField (seq : UInt16) : UInt16 := (seq &&& 0xFFF) <<< 4

-- ============================================================ RSN suites

/-- `rtw88ReadSuite`. -/
def rtw88ReadSuite (p : List UInt8) (i : Nat) : UInt32 :=
  ((peek p i).toUInt32 <<< 24) ||| ((peek p (i + 1)).toUInt32 <<< 16)
    ||| ((peek p (i + 2)).toUInt32 <<< 8) ||| (peek p (i + 3)).toUInt32

/-- `rtw88WriteSuite`. -/
def rtw88WriteSuite (suite : UInt32) : List UInt8 :=
  [(suite >>> 24).toUInt8, (suite >>> 16).toUInt8, (suite >>> 8).toUInt8,
   suite.toUInt8]

/-- `rtw88RsnSelectCcmpPsk`: the pairwise and group cipher, if the RSN
element offers CCMP with PSK. -/
def rtw88RsnSelectCcmpPsk (rsn : List UInt8) : Option (UInt32 × UInt32) :=
  let len := rsn.length
  if len < 8 then none
  else
    let group := rtw88ReadSuite rsn 2
    let pairwiseCount := (le16At rsn 6).toNat
    let akms := 8 + pairwiseCount * 4
    if len < akms then none
    else
      let hasCcmp := (List.range pairwiseCount).any fun i =>
        rtw88ReadSuite rsn (8 + i * 4) == cipherCcmp
      if len < akms + 2 then none
      else
        let akmCount := (le16At rsn akms).toNat
        if len < akms + 2 + akmCount * 4 then none
        else
          let hasPsk := (List.range akmCount).any fun i =>
            rtw88ReadSuite rsn (akms + 2 + i * 4) == akmPsk
          if !hasCcmp || !hasPsk then none
          else if group ≠ cipherCcmp ∧ group ≠ cipherTkip then
            some (cipherCcmp, cipherCcmp)
          else some (cipherCcmp, group)

/-- `rtw88BuildSelectedRsnIe`. -/
def rtw88BuildSelectedRsnIe (groupCipher : UInt32) : List UInt8 :=
  let group := if groupCipher = cipherTkip then cipherTkip else cipherCcmp
  [eidRsn, 20, 1, 0] ++ rtw88WriteSuite group ++ [1, 0]
    ++ rtw88WriteSuite cipherCcmp ++ [1, 0] ++ rtw88WriteSuite akmPsk ++ [0, 0]

end Rtw88
