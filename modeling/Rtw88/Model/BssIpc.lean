/-
The scan list on its way to user space: `cmdGetBSSList` and
`sGetBSSList` in the driver, `cmd_list` in rtw88ctl.

The two sides were written apart, in two languages: one fills a buffer
entry by entry until one does not fit, the other walks the bytes it got
back. Both are `Touched` routines, the driver's over the caller's
buffer, the tool's over the buffer that came back and its `ssid[33]`.
-/
import Rtw88.Lib.Touch
import Rtw88.Model.Scan

namespace Rtw88

open Touched

-- ================================================================= encoder

/-- The buffer the driver fills. -/
inductive OutBuf
  | buf
  deriving DecidableEq, Repr

/-- One entry at `written`, which the caller has room for. -/
def putBss (b : RTW88BSS) (written : Nat) (buf : List UInt8) :
    Touched OutBuf (Nat × List UInt8) := do
  let buf ← store .buf buf written [b.ssidLen]
  let written := written + 1
  let buf ← store .buf buf written
    (grab b.ssid.toList 0 b.ssidLen.toNat).toList
  let written := written + b.ssidLen.toNat
  let buf ← store .buf buf written b.bssid.toList
  let written := written + 6
  let rssi := b.rssi.toUInt16
  let buf ← store .buf buf written [(rssi >>> 8).toUInt8]
  let written := written + 1
  let buf ← store .buf buf written [rssi.toUInt8]
  let written := written + 1
  let buf ← store .buf buf written [b.channel]
  let written := written + 1
  let buf ← store .buf buf written (le32 b.cipher)
  let written := written + 4
  pure (written, buf)

/-- The loop over the entries, up to the first that does not fit. -/
def putBssList (max : Nat) :
    List RTW88BSS → Nat → List UInt8 → Touched OutBuf (Nat × List UInt8)
  | [], written, buf => pure (written, buf)
  | b :: bs, written, buf =>
      let entrySz := 1 + b.ssidLen.toNat + 6 + 2 + 1 + 4
      if written + entrySz > max then pure (written, buf)
      else do
        let (written, buf) ← putBss b written buf
        putBssList max bs written buf

/-- `cmdGetBSSList`: the length and the buffer it leaves. -/
def cmdGetBSSList (bssList : List RTW88BSS) (len : UInt32)
    (buf : List UInt8) : Touched OutBuf (Nat × List UInt8) :=
  let max := min len.toNat 4095
  if max < 4 then pure (0, buf)
  else do
    -- four bytes are reserved for the total
    let (written, buf) ← putBssList max bssList 4 buf
    let buf ← store .buf buf 0 (le32 (UInt32.ofNat written))
    pure (written, buf)

/-- `sGetBSSList`: `structureOutput` and its size, and what they become.
A buffer too large for the inband path comes as a null pointer. -/
def sGetBSSList (attached : Bool) (s : Mlme) (size : UInt32)
    (structureOutput : Option (List UInt8)) :
    Touched OutBuf (IOReturn × Nat × Option (List UInt8)) :=
  match structureOutput with
  | none => pure (.badArgument, size.toNat, none)
  | some buf =>
      if !attached then pure (.success, 0, some buf)
      else do
        let (len, buf) ← cmdGetBSSList s.bssList size buf
        pure (.success, len, some buf)

-- ================================================================= decoder

/-- The tool's buffers. -/
inductive CtlBuf
  | buf
  | ssid
  deriving DecidableEq, Repr

/-- The "Security" column. -/
def security (cipher : UInt32) : String :=
  if cipher = 0x000FAC04 then "WPA2"
  else if cipher = 0x000FAC02 then "TKIP"
  else if cipher = 0 then "Open"
  else "Unknown"

/-- One line of the list. -/
structure BssRow where
  ssidLen : UInt8
  ssid : Bytes 33
  bssid : Bytes 6
  rssi : Int16
  ch : UInt8
  cipher : UInt32
  sec : String
  deriving DecidableEq

/-- The entry whose SSID starts at `p`, and takes `ssid_len` bytes. -/
def takeBss (buf : List UInt8) (ssidLen : UInt8) (p : Nat) :
    Touched CtlBuf BssRow := do
  let name ← load .buf buf p ssidLen.toNat
  let ssid ← store .ssid (zeros 33).toList 0 name.toList
  let p := p + ssidLen.toNat
  let bssid ← load .buf buf p 6
  let p := p + 6
  let hi ← load8 .buf buf p
  let lo ← load8 .buf buf (p + 1)
  let rssi := (hi.toUInt16 <<< 8 ||| lo.toUInt16).toInt16
  let p := p + 2
  let ch ← load8 .buf buf p
  let p := p + 1
  let word ← load .buf buf p 4
  let cipher := le32At word.toList 0
  pure
    { ssidLen, ssid := grab ssid 0 33, bssid, rssi, ch, cipher
      sec := security cipher }

/-- The loop of `cmd_list` from `p` on: the lines, and where it ends. -/
def takeBssList (buf : List UInt8) (limit p : Nat) :
    Touched CtlBuf (List BssRow × Nat) :=
  if p + 1 ≤ limit then do
    let ssidLen ← load8 .buf buf p
    if _h : p + 1 + ssidLen.toNat + 6 + 2 + 1 + 4 > limit then
      pure ([], p + 1)
    else do
      let row ← takeBss buf ssidLen (p + 1)
      let (rows, q) ← takeBssList buf limit
        (p + 1 + ssidLen.toNat + 6 + 2 + 1 + 4)
      pure (row :: rows, q)
  else pure ([], p)
termination_by limit - p

/-- `cmd_list` on the bytes and the length that came back: the lines,
where the walk ends, and the end it was given. -/
def cmdList (buf : List UInt8) (len : Nat) :
    Touched CtlBuf (List BssRow × Nat × Nat) := do
  -- the debug line shows the first bytes
  let _ ← load .buf buf 0 (min 32 len)
  if 4 ≤ len then
    let word ← load .buf buf 0 4
    let explicitLen := min (le32At word.toList 0).toNat len
    let (rows, q) ← takeBssList buf explicitLen 4
    pure (rows, q, explicitLen)
  else
    let (rows, q) ← takeBssList buf 0 0
    pure (rows, q, 0)

end Rtw88
