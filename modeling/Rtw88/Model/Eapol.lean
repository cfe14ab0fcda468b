/-
The WPA2 4-way handshake on the client: `handleEAPOL` with `eapol_mic_ok`
and `extract_gtk_from_kde`.

`handleEAPOL` is called in HANDSHAKING only (by `deliverDataFrame`). Its
two branches are for M1 (`handleM1`) and M3; the latter is cut at the
point where the frame has been checked and nothing has been written yet:
`m3Verified` are the checks, `acceptM3` is the rest.
-/
import Rtw88.Model.Tx

namespace Rtw88

variable (hw : Hw) (env : Env)

-- =============================================================== checks

/-- `is_m1`. -/
def isM1 (keyInfo : UInt16) : Bool :=
  keyInfo &&& 0x0088 == 0x0088 && keyInfo &&& 0x0100 == 0

/-- `is_m3`. -/
def isM3 (keyInfo : UInt16) : Bool := keyInfo &&& 0x01c8 == 0x01c8

/-- The length `handleEAPOL` takes the frame to have, when the body
carries one that fits. -/
def eapolLen (data : List UInt8) : Option Nat :=
  if data.length < 99 ∨ peek data 1 ≠ 3 then none
  else
    let len := 4 + (be16At data 2).toNat
    if data.length < len ∨ len < 99 then none else some len

/-- `eapol_mic_ok`: the MIC field is the keyed hash of the frame with the
field zeroed. -/
def eapolMicOk (pr : Prims) (alloc : Bool) (kck : Bytes 16)
    (eapol : List UInt8) : Bool :=
  if eapol.length < 99 || !alloc then false
  else
    let mic := pr.hmacSha1 kck.toList
      (splice eapol 81 (List.replicate 16 0))
    (grab eapol 81 16).toList == mic.toList.take 16

/-- `extract_gtk_from_kde`: the first GTK KDE's key and index. A KDE with
a key of over 32 bytes ends the search. -/
def extractGtkFromKde (keyData : List UInt8) : Option (List UInt8 × UInt8) :=
  ((elems keyData).find? fun e =>
    e.id == 0xdd && decide (6 ≤ e.body.length)
      && e.body.take 4 == [0x00, 0x0f, 0xac, 0x01]).bind fun e =>
    if 32 < e.body.length - 6 then none
    else some (e.body.drop 6, peek e.body 4 &&& 0x3)

/-- The key data of an M3 in the clear: unwrapped when the key
information says it is encrypted. `none` when that fails. -/
def m3KeyData (pr : Prims) (kek : Bytes 16) (keyInfo : UInt16)
    (keyData : List UInt8) : Option (List UInt8) :=
  if keyData.length = 0 then some []
  else if keyInfo &&& 0x1000 ≠ 0 then
    aesUnwrap128 pr.decryptBlock kek keyData
  else some keyData

/-- The checks an M3 must pass under `ptk`: the MIC, the length of its
key data, and the unwrap. The result is the key data in the clear. -/
def m3Verified (ptk : Bytes 64) (data : List UInt8) (len : Nat) :
    Option (List UInt8) :=
  let keyDataLen := (be16At data 97).toNat
  if !eapolMicOk hw.prims env.micAlloc (kckOf ptk) (data.take len) then none
  else if len < 99 + keyDataLen then none
  else m3KeyData hw.prims (kekOf ptk) (be16At data 5)
    ((data.drop 99).take keyDataLen)

-- ================================================================ M1, M3

/-- What an M1 leaves: the nonces, the PTK and the replay counter. -/
def takeM1 (data : List UInt8) (s : Mlme) : Mlme :=
  let anonce := grab data 17 32
  { s with
    anonce := anonce, snonce := env.snonce
    ptk := derivePTK hw.prims s.pmk anonce env.snonce hw.macAddr
      s.targetBSS.bssid
    replayCtr := grab data 9 8 }

/-- The M1 branch: fresh nonces, a new `_ptk`, an M2 in answer. -/
def handleM1 (data : List UInt8) (s : Mlme) : Mlme :=
  let s := (takeM1 hw env data s).emit (.m1 (grab data 17 32) env.snonce)
  (sendEAPOLKey hw env 2 s.replayCtr false false true s).armTimer 5000

/-- `memcpy(_replayCtr, …, 8)`. -/
def setReplayCtr (replay : Bytes 8) (s : Mlme) : Mlme :=
  { s with replayCtr := replay }

/-- The end of the M3 branch, with both keys in place. -/
def finishM3 (s : Mlme) : Mlme :=
  let s := sendEAPOLKey hw env 4 s.replayCtr false false true s
  let s := (s.setState .connected).emit (.m3 s.ptk)
  startTxAggregation hw env (s.cancelTimer.emit (.setLinkStatus true))

/-- `groupCipher`: TKIP if the scan said so, else CCMP. -/
def groupCipher (s : Mlme) : UInt32 :=
  if s.targetBSS.groupCipher = cipherTkip then cipherTkip else cipherCcmp

/-- The M3 branch from the group key on. A failed installation returns
early. -/
def acceptGtk (keyData : List UInt8) (s : Mlme) : Mlme :=
  match extractGtkFromKde keyData with
  | none => finishM3 hw env s
  | some (gtk, idx) =>
      if gtk.length = 0 then finishM3 hw env s
      else
        let group := installGroup env.groupAlloc env.groupSet idx
          (groupCipher s) gtk s
        if !group.1 then group.2 else finishM3 hw env group.2

/-- The M3 branch behind the checks: the pairwise key, then the group
key. A failed installation returns early. -/
def acceptM3 (data keyData : List UInt8) (s : Mlme) : Mlme :=
  let s := setReplayCtr (grab data 9 8) s
  let pairwise := installPairwise env.pairwiseAlloc env.pairwiseSet 0
    cipherCcmp (tkOf s.ptk).toList s
  if !pairwise.1 then pairwise.2 else acceptGtk hw env keyData pairwise.2

/-- `handleEAPOL`. -/
def handleEAPOL (data : List UInt8) (s : Mlme) : Mlme :=
  match eapolLen data with
  | none => s
  | some len =>
      if isM1 (be16At data 5) then handleM1 hw env data s
      else if isM3 (be16At data 5) then
        match m3Verified hw env s.ptk data len with
        | none => s
        | some keyData => acceptM3 hw env data keyData s
      else s

end Rtw88
