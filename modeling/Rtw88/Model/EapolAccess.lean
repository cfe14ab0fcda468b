/-
`handleEAPOL` again, with every buffer it works on: the frame, the copy
the MIC is computed over, the locals of `aes_unwrap_128`, its output, and
the group key.

Each function here is its counterpart of Model/Eapol.lean and
Crypto/Aes.lean written as a `Touched` routine, in the order in which the
source evaluates. Lengths and the position of `extract_gtk_from_kde` have
the widths of the source. A pointer to key data is a buffer and an
offset: the frame's, or `unwrapped`.

- `memcmp` and `memcpy` read the whole range they are given, and so does
  the hash.
- The cells of `r` are kept as eight-byte blocks; an access to `r[i]` is
  one to the bytes from `i * 8`.

Proofs/EapolAccess.lean shows that the values are those of the model
(`EapolSafe.agrees`).
-/
import Rtw88.Lib.Touch
import Rtw88.Model.Eapol

namespace Rtw88

open Touched

/-- The buffers. -/
inductive EapolBuf
  | frame
  | ptk
  | anonce
  | replayCtr
  | tmp
  | rxMic
  | mic
  | a
  | r
  | block
  | plain
  | unwrapped
  | gtk
  deriving DecidableEq, Repr

/-- Their sizes, where the frame has `len` bytes and `eapol_len` of them
are copied. -/
def EapolBuf.size (len eapolLen : Nat) : EapolBuf → Nat
  | .frame => len
  | .ptk => 64
  | .anonce | .gtk => 32
  | .replayCtr | .a => 8
  | .tmp => eapolLen
  | .rxMic | .block | .plain => 16
  | .mic => 20
  | .r | .unwrapped => 256

variable (hw : Hw) (env : Env)

/-- Two bytes, high byte first. -/
def loadBe16 (b : EapolBuf) (d : List UInt8) (off : Nat) :
    Touched EapolBuf UInt16 := do
  let hi ← load8 b d off
  let lo ← load8 b d (off + 1)
  pure (hi.toUInt16 <<< 8 ||| lo.toUInt16)

-- ================================================================ the unwrap

/-- The blocks from `in + 8 + i * 8` on into `r[i]`, … -/
def loadBlocksT (b : EapolBuf) (d : List UInt8) (inp : Nat) :
    Nat → Nat → Touched EapolBuf (List (Bytes 8))
  | 0, _ => pure []
  | n + 1, i => do
      let x ← load b d (inp + 8 + i * 8) 8
      access (.write .r (i * 8) 8)
      let xs ← loadBlocksT b d inp n (i + 1)
      pure (x :: xs)

/-- The step counter into `block[k - 1]`, … while some of it is left. -/
def xorCounterT : Nat → Nat → List UInt8 → Touched EapolBuf (List UInt8)
  | 0, _, block => pure block
  | k + 1, t, block =>
      if t = 0 then pure block
      else do
        let x ← load8 .block block k
        let block ← store .block block k [x ^^^ UInt8.ofNat t]
        xorCounterT k (t / 256) block

/-- One block of the unwrap: register `i` of pass `j`. -/
def unwrapStepT (dec : Bytes 16 → Bytes 16 → Bytes 16) (kek : Bytes 16)
    (n : Nat) (ar : Bytes 8 × List (Bytes 8)) (ji : Nat × Nat) :
    Touched EapolBuf (Bytes 8 × List (Bytes 8)) := do
  let (a, r) := ar
  let (j, i) := ji
  let head ← load .a a.toList 0 8
  let block ← store .block (zeros 16).toList 0 head.toList
  let block ← xorCounterT 8 (n * j + i + 1) block
  access (.read .r (i * 8) 8)
  let block ← store .block block 8 (r.getD i (zeros 8)).toList
  let cipher ← load .block block 0 16
  let plain ← store .plain (zeros 16).toList 0 (dec kek cipher).toList
  let head ← load .plain plain 0 8
  let a ← store .a a.toList 0 head.toList
  let tail ← load .plain plain 8 8
  access (.write .r (i * 8) 8)
  pure (grab a 0 8, r.set i tail)

/-- `r[i]`, … to `out + i * 8`, … -/
def storeBlocksT :
    List (Bytes 8) → Nat → List UInt8 → Touched EapolBuf (List UInt8)
  | [], _, out => pure out
  | x :: xs, i, out => do
      access (.read .r (i * 8) 8)
      let out ← store .unwrapped out (i * 8) x.toList
      storeBlocksT xs (i + 1) out

/-- `aes_unwrap_128` of `len` bytes from `inp` on: the output buffer and
`out_len`. -/
def aesUnwrap128T (dec : Bytes 16 → Bytes 16 → Bytes 16) (kek : Bytes 16)
    (b : EapolBuf) (d : List UInt8) (inp : Nat) (len : UInt16) :
    Touched EapolBuf (Option (List UInt8 × UInt16)) :=
  if len < 16 ∨ len &&& 7 ≠ 0 then pure none
  else
    let n := len.toNat / 8 - 1
    if n = 0 ∨ 32 < n then pure none
    else do
      let head ← load b d inp 8
      let a ← store .a (zeros 8).toList 0 head.toList
      let r ← loadBlocksT b d inp n 0
      let order := [5, 4, 3, 2, 1, 0].flatMap fun j =>
        (List.range n).reverse.map fun i => (j, i)
      let (a, r) ← order.foldlM (unwrapStepT dec kek n) (grab a 0 8, r)
      let check ← load .a a.toList 0 8
      if check.toList ≠ List.replicate 8 0xa6 then pure none
      else do
        let out ← storeBlocksT r 0 (zeros 256).toList
        pure (some (out, UInt16.ofNat (n * 8)))

-- ================================================================ the checks

/-- `eapol_mic_ok` over the first `eapolLen` bytes of the frame. -/
def eapolMicOkT (pr : Prims) (alloc : Bool) (kck : Bytes 16)
    (d : List UInt8) (eapolLen : Nat) : Touched EapolBuf Bool :=
  if eapolLen < 99 then pure false
  else if !alloc then pure false
  else do
    let eapol ← load .frame d 0 eapolLen
    let tmp ← store .tmp (zeros eapolLen).toList 0 eapol.toList
    let field ← load .tmp tmp 81 16
    let rxMic ← store .rxMic (zeros 16).toList 0 field.toList
    let tmp ← store .tmp tmp 81 (List.replicate 16 0)
    let input ← load .tmp tmp 0 eapolLen
    let mic ← store .mic (zeros 20).toList 0
      (pr.hmacSha1 kck.toList input.toList).toList
    let x ← load .rxMic rxMic 0 16
    let y ← load .mic mic 0 16
    pure (x == y)

/-- `memcmp(body, rsn_gtk_oui, 4) == 0`, where the id and the length let
it be asked. -/
def isGtkKdeT (b : EapolBuf) (d : List UInt8) (body : Nat) (id len : UInt8) :
    Touched EapolBuf Bool :=
  if id = 0xdd ∧ 6 ≤ len then do
    let oui ← load b d body 4
    pure (oui.toList == [0x00, 0x0f, 0xac, 0x01])
  else pure false

/-- The key and the index of a GTK KDE: `gtk` and its first `key_len`
bytes. -/
def takeGtkT (b : EapolBuf) (d : List UInt8) (body : Nat) (len : UInt8) :
    Touched EapolBuf (Option (List UInt8 × UInt8)) :=
  let keyLen := len - 6
  if 32 < keyLen then pure none
  else do
    let idx ← load8 b d (body + 4)
    let key ← load b d (body + 6) keyLen.toNat
    let gtk ← store .gtk (zeros 32).toList 0 key.toList
    pure (some (gtk.take keyLen.toNat, idx &&& 0x3))

/-- Stepping over an element that is inside the key data does not wrap
the position. -/
theorem pos_advances {len pos : UInt16} {n : UInt8}
    (h : ¬ pos.toNat + 2 + n.toNat > len.toNat) :
    (pos + (2 + n.toUInt16)).toNat = pos.toNat + 2 + n.toNat := by
  have hlen := len.toNat_lt
  rw [UInt16.toNat_add, UInt16.toNat_add, UInt8.toNat_toUInt16]
  show (pos.toNat + (2 + n.toNat) % 65536) % 65536 = _
  omega

/-- The loop of `extract_gtk_from_kde` from `pos` on, over `len` bytes of
key data at `base`: the key and its index, and the positions it went
through. -/
def extractGtkFromKdeT (b : EapolBuf) (d : List UInt8) (base : Nat)
    (len pos : UInt16) :
    Touched EapolBuf (Option (List UInt8 × UInt8) × List UInt16) :=
  if pos.toNat + 2 ≤ len.toNat then do
    let id ← load8 b d (base + pos.toNat)
    let n ← load8 b d (base + pos.toNat + 1)
    if _h : pos.toNat + 2 + n.toNat > len.toNat then pure (none, [pos])
    else do
      let body := base + pos.toNat + 2
      let isGtk ← isGtkKdeT b d body id n
      if isGtk then do
        let gtk ← takeGtkT b d body n
        pure (gtk, [pos])
      else do
        let (gtk, ps) ← extractGtkFromKdeT b d base len
          (pos + (2 + n.toUInt16))
        pure (gtk, pos :: ps)
  else pure (none, [pos])
termination_by len.toNat - pos.toNat
decreasing_by
  have hnext := pos_advances _h
  omega

-- ================================================================= handleEAPOL

/-- The M1 branch. -/
def handleM1T (d : List UInt8) (s : Mlme) : Touched EapolBuf Mlme := do
  let anonce ← load .frame d 17 32
  access (.write .anonce 0 32)
  access (.write .ptk 0 64)
  let replay ← load .frame d 9 8
  access (.write .replayCtr 0 8)
  let s := { s with
    anonce := anonce, snonce := env.snonce
    ptk := derivePTK hw.prims s.pmk anonce env.snonce hw.macAddr
      s.targetBSS.bssid
    replayCtr := replay }
  let s := s.emit (.m1 anonce env.snonce)
  pure ((sendEAPOLKey hw env 2 s.replayCtr false false true s).armTimer 5000)

/-- The M3 branch from the group key on. -/
def acceptGtkT (gtk : Option (List UInt8 × UInt8)) (s : Mlme) :
    Touched EapolBuf Mlme :=
  match gtk with
  | none => pure (finishM3 hw env s)
  | some (gtk, idx) =>
      if gtk.length = 0 then pure (finishM3 hw env s)
      else do
        access (.read .gtk 0 gtk.length)
        let group := installGroup env.groupAlloc env.groupSet idx
          (groupCipher s) gtk s
        if !group.1 then pure group.2 else pure (finishM3 hw env group.2)

/-- The M3 branch behind the checks. -/
def acceptM3T (d : List UInt8) (gtk : Option (List UInt8 × UInt8))
    (s : Mlme) : Touched EapolBuf Mlme := do
  let replay ← load .frame d 9 8
  access (.write .replayCtr 0 8)
  let s := setReplayCtr replay s
  let tk ← load .ptk s.ptk.toList 32 16
  let pairwise := installPairwise env.pairwiseAlloc env.pairwiseSet 0
    cipherCcmp tk.toList s
  if !pairwise.1 then pure pairwise.2 else acceptGtkT hw env gtk pairwise.2

/-- The key data of an M3 in the clear: where it is and how long, with
what the buffer holds. `none` when the unwrap fails. -/
def m3KeyDataT (pr : Prims) (kek : Bytes 16) (keyInfo : UInt16)
    (d : List UInt8) (keyDataLen : UInt16) :
    Touched EapolBuf (Option (EapolBuf × List UInt8 × Nat × UInt16)) :=
  if keyInfo &&& 0x1000 ≠ 0 then do
    let out ← aesUnwrap128T pr.decryptBlock kek .frame d 99 keyDataLen
    pure (out.map fun o => (.unwrapped, o.1, 0, o.2))
  else pure (some (.frame, d, 99, keyDataLen))

/-- The M3 branch. -/
def handleM3T (d : List UInt8) (eapolLen : Nat) (keyInfo keyDataLen : UInt16)
    (s : Mlme) : Touched EapolBuf Mlme := do
  let kck ← load .ptk s.ptk.toList 0 16
  let ok ← eapolMicOkT hw.prims env.micAlloc kck d eapolLen
  if !ok then pure s
  else if 99 + keyDataLen.toNat > eapolLen then pure s
  else if keyDataLen = 0 then acceptM3T hw env d none s
  else do
    let kek ← load .ptk s.ptk.toList 16 16
    let keyData ← m3KeyDataT hw.prims kek keyInfo d keyDataLen
    match keyData with
    | none => pure s
    | some (b, bytes, base, len) => do
        let (gtk, _) ← extractGtkFromKdeT b bytes base len 0
        acceptM3T hw env d gtk s

/-- `handleEAPOL`. -/
def handleEAPOLT (d : List UInt8) (s : Mlme) : Touched EapolBuf Mlme :=
  if d.length < 99 then pure s
  else do
    let type ← load8 .frame d 1
    if type ≠ 3 then pure s
    else do
      let bodyLen ← loadBe16 .frame d 2
      let eapolLen := 4 + bodyLen.toNat
      if eapolLen > d.length ∨ eapolLen < 99 then pure s
      else do
        let keyInfo ← loadBe16 .frame d 5
        let keyDataLen ← loadBe16 .frame d 97
        if isM1 keyInfo then handleM1T hw env d s
        else if isM3 keyInfo then
          handleM3T hw env d eapolLen keyInfo keyDataLen s
        else pure s

end Rtw88
