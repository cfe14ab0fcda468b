/-
`kern_hmac_sha1`, `derivePMK` and `derivePTK` in the letter of the
source, with the pointers and buffers that `Crypto/Sha1` and
`Crypto/Derive` leave out.

- `kernHmacSha1At` reads key and data through pointers into one flat
  memory and writes the digest to a third, twice: once for the inner
  hash, which it then reads back, and once for the result. Nothing keeps
  the three apart: `derivePMK` passes `u` for both data and digest.
- `derivePMKAt` is the function over that memory, with the addresses of
  its locals `salt[128]`, `u[20]` and `t[20]` in a `PmkFrame`.
- `derivePTKSource` fills `data[100]` and `ptk[64]` by copies at the
  offsets of the source; the arrays start with arbitrary contents.

`none` is a hash that does not come to an end (see `updateLoop`).
-/
import Rtw88.Crypto.Sha1Source
import Rtw88.Crypto.Derive
import Rtw88.Lib.Memory

namespace Rtw88

-- =================================================================== HMAC

/-- `kern_sha1_init` and one update over a whole string. -/
def sha1Over (data : List UInt8) : Option KernSha1Ctx :=
  kernSha1UpdateAt kernSha1Init data (UInt32.ofNat data.length)

/-- `kern_hmac_sha1` from `memcpy(k_ipad, key, key_len)` on: `key` is what
that copies. -/
def hmacKeyed (m : Memory) (key : List UInt8) (data dataLen mac : Nat) :
    Option Memory := do
  let len := UInt32.ofNat dataLen
  let ctx ← sha1Over (hmacPad key 0x36)
  let ctx ← kernSha1UpdateAt ctx (readMem m data len.toNat) len
  let m := writeMem m mac (kernSha1Final ctx).toList
  let ctx ← sha1Over (hmacPad key 0x5c)
  let ctx ← kernSha1UpdateAt ctx (readMem m mac 20) 20
  some (writeMem m mac (kernSha1Final ctx).toList)

/-- `kern_hmac_sha1(key, key_len, data, data_len, mac)`. -/
def kernHmacSha1At (m : Memory) (key keyLen data dataLen mac : Nat) :
    Option Memory :=
  if keyLen > 64 then do
    let len := UInt32.ofNat keyLen
    let ctx ← kernSha1UpdateAt kernSha1Init (readMem m key len.toNat) len
    -- `key = tmp_key; key_len = 20`
    hmacKeyed m (kernSha1Final ctx).toList data dataLen mac
  else hmacKeyed m (readMem m key keyLen) data dataLen mac

-- ==================================================================== PMK

/-- Where the locals of `derivePMK` are. -/
structure PmkFrame where
  salt : Nat
  u : Nat
  t : Nat

/-- `strlen`. -/
def strlen (m : Memory) (p : Nat) (h : ∃ n, m (p + n) = 0) : Nat :=
  Nat.find h

/-- One turn of the inner loop. -/
def pmkTurn (f : PmkFrame) (passphrase passLen : Nat) (m : Memory) :
    Option Memory := do
  let m ← kernHmacSha1At m passphrase passLen f.u 20 f.u
  some (writeMem m f.t (xorBytes (readMem m f.t 20) (readMem m f.u 20)))

/-- One turn of the outer loop. -/
def pmkBlock (f : PmkFrame) (passphrase passLen ssidLen pmk : Nat)
    (m : Memory) (block : Nat) : Option Memory := do
  let m := writeMem m (f.salt + ssidLen) [UInt8.ofNat (block >>> 24)]
  let m := writeMem m (f.salt + ssidLen + 1) [UInt8.ofNat (block >>> 16)]
  let m := writeMem m (f.salt + ssidLen + 2) [UInt8.ofNat (block >>> 8)]
  let m := writeMem m (f.salt + ssidLen + 3) [UInt8.ofNat block]
  let m ← kernHmacSha1At m passphrase passLen f.salt (ssidLen + 4) f.u
  let m := writeMem m f.t (readMem m f.u 20)
  let m ← (List.range 4095).foldlM
    (fun m _ => pmkTurn f passphrase passLen m) m
  if block = 1 then some (writeMem m pmk (readMem m f.t 20))
  else some (writeMem m (pmk + 20) (readMem m f.t 12))

/-- `derivePMK(passphrase, ssid, ssid_len, pmk)`. -/
def derivePMKAt (f : PmkFrame) (m : Memory) (passphrase : Nat)
    (hnul : ∃ n, m (passphrase + n) = 0) (ssid ssidLen pmk : Nat) :
    Option Memory :=
  let passLen := strlen m passphrase hnul
  let ssidLen := if ssidLen > 120 then 120 else ssidLen
  let m := writeMem m f.salt (readMem m ssid ssidLen)
  [1, 2].foldlM (pmkBlock f passphrase passLen ssidLen pmk) m

-- ==================================================================== PTK

/-- The arrays `data[100]` and `ptk[64]`. -/
structure PtkArrays where
  data : List UInt8
  ptk : List UInt8

/-- One turn of the loop: the counter byte, the hash, and its part of the
output. -/
def ptkTurn (pmk : Bytes 32) (s : PtkArrays) (i : Nat) : PtkArrays :=
  let dataLen := 23 + 6 + 6 + 32 + 32
  let data := splice s.data dataLen [UInt8.ofNat i]
  let hash := kernHmacSha1 pmk.toList (data.take (dataLen + 1))
  { data := data
    ptk := if i < 3 then splice s.ptk (i * 20) hash.toList
      else splice s.ptk (i * 20) (hash.toList.take 4) }

/-- `derivePTK(pmk, anonce, snonce, spa, aa, ptk)`, from whatever the two
arrays held. -/
def derivePTKSource (pmk anonce snonce : Bytes 32) (spa aa : Bytes 6)
    (data₀ : Bytes 100) (ptk₀ : Bytes 64) : PtkArrays :=
  let macs := if memcmpLt spa.toList aa.toList then (spa, aa) else (aa, spa)
  let nonces := if memcmpLt snonce.toList anonce.toList
    then (snonce, anonce) else (anonce, snonce)
  let data := splice data₀.toList 0 (ptkLabel.take 22)
  let data := splice data 22 [0]
  let data := splice data 23 macs.1.toList
  let data := splice data 29 macs.2.toList
  let data := splice data 35 nonces.1.toList
  let data := splice data 67 nonces.2.toList
  (List.range 4).foldl (ptkTurn pmk) { data := data, ptk := ptk₀.toList }

end Rtw88
