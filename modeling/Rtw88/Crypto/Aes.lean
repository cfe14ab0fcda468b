/-
AES-128 decryption and the RFC 3394 key unwrap as `aes_*` compute them.

`aes128_decrypt_block` expands the key, then undoes ten rounds on a
16-byte state held column by column; `aes_unwrap_128` runs it `6 n`
times over `n` eight-byte registers and accepts when the integrity
register comes out as the constant `iv`.

The unwrap takes the block cipher as an argument, so that what is proved
about the handshake holds for any cipher in its place.
-/
import Rtw88.Lib.Bytes

namespace Rtw88

-- =============================================================== tables

/-- `aes_sbox`. -/
def aesSbox : List UInt8 :=
  [0x63, 0x7c, 0x77, 0x7b, 0xf2, 0x6b, 0x6f, 0xc5, 0x30, 0x01, 0x67, 0x2b,
   0xfe, 0xd7, 0xab, 0x76, 0xca, 0x82, 0xc9, 0x7d, 0xfa, 0x59, 0x47, 0xf0,
   0xad, 0xd4, 0xa2, 0xaf, 0x9c, 0xa4, 0x72, 0xc0, 0xb7, 0xfd, 0x93, 0x26,
   0x36, 0x3f, 0xf7, 0xcc, 0x34, 0xa5, 0xe5, 0xf1, 0x71, 0xd8, 0x31, 0x15,
   0x04, 0xc7, 0x23, 0xc3, 0x18, 0x96, 0x05, 0x9a, 0x07, 0x12, 0x80, 0xe2,
   0xeb, 0x27, 0xb2, 0x75, 0x09, 0x83, 0x2c, 0x1a, 0x1b, 0x6e, 0x5a, 0xa0,
   0x52, 0x3b, 0xd6, 0xb3, 0x29, 0xe3, 0x2f, 0x84, 0x53, 0xd1, 0x00, 0xed,
   0x20, 0xfc, 0xb1, 0x5b, 0x6a, 0xcb, 0xbe, 0x39, 0x4a, 0x4c, 0x58, 0xcf,
   0xd0, 0xef, 0xaa, 0xfb, 0x43, 0x4d, 0x33, 0x85, 0x45, 0xf9, 0x02, 0x7f,
   0x50, 0x3c, 0x9f, 0xa8, 0x51, 0xa3, 0x40, 0x8f, 0x92, 0x9d, 0x38, 0xf5,
   0xbc, 0xb6, 0xda, 0x21, 0x10, 0xff, 0xf3, 0xd2, 0xcd, 0x0c, 0x13, 0xec,
   0x5f, 0x97, 0x44, 0x17, 0xc4, 0xa7, 0x7e, 0x3d, 0x64, 0x5d, 0x19, 0x73,
   0x60, 0x81, 0x4f, 0xdc, 0x22, 0x2a, 0x90, 0x88, 0x46, 0xee, 0xb8, 0x14,
   0xde, 0x5e, 0x0b, 0xdb, 0xe0, 0x32, 0x3a, 0x0a, 0x49, 0x06, 0x24, 0x5c,
   0xc2, 0xd3, 0xac, 0x62, 0x91, 0x95, 0xe4, 0x79, 0xe7, 0xc8, 0x37, 0x6d,
   0x8d, 0xd5, 0x4e, 0xa9, 0x6c, 0x56, 0xf4, 0xea, 0x65, 0x7a, 0xae, 0x08,
   0xba, 0x78, 0x25, 0x2e, 0x1c, 0xa6, 0xb4, 0xc6, 0xe8, 0xdd, 0x74, 0x1f,
   0x4b, 0xbd, 0x8b, 0x8a, 0x70, 0x3e, 0xb5, 0x66, 0x48, 0x03, 0xf6, 0x0e,
   0x61, 0x35, 0x57, 0xb9, 0x86, 0xc1, 0x1d, 0x9e, 0xe1, 0xf8, 0x98, 0x11,
   0x69, 0xd9, 0x8e, 0x94, 0x9b, 0x1e, 0x87, 0xe9, 0xce, 0x55, 0x28, 0xdf,
   0x8c, 0xa1, 0x89, 0x0d, 0xbf, 0xe6, 0x42, 0x68, 0x41, 0x99, 0x2d, 0x0f,
   0xb0, 0x54, 0xbb, 0x16]

/-- `aes_rsbox`. -/
def aesRsbox : List UInt8 :=
  [0x52, 0x09, 0x6a, 0xd5, 0x30, 0x36, 0xa5, 0x38, 0xbf, 0x40, 0xa3, 0x9e,
   0x81, 0xf3, 0xd7, 0xfb, 0x7c, 0xe3, 0x39, 0x82, 0x9b, 0x2f, 0xff, 0x87,
   0x34, 0x8e, 0x43, 0x44, 0xc4, 0xde, 0xe9, 0xcb, 0x54, 0x7b, 0x94, 0x32,
   0xa6, 0xc2, 0x23, 0x3d, 0xee, 0x4c, 0x95, 0x0b, 0x42, 0xfa, 0xc3, 0x4e,
   0x08, 0x2e, 0xa1, 0x66, 0x28, 0xd9, 0x24, 0xb2, 0x76, 0x5b, 0xa2, 0x49,
   0x6d, 0x8b, 0xd1, 0x25, 0x72, 0xf8, 0xf6, 0x64, 0x86, 0x68, 0x98, 0x16,
   0xd4, 0xa4, 0x5c, 0xcc, 0x5d, 0x65, 0xb6, 0x92, 0x6c, 0x70, 0x48, 0x50,
   0xfd, 0xed, 0xb9, 0xda, 0x5e, 0x15, 0x46, 0x57, 0xa7, 0x8d, 0x9d, 0x84,
   0x90, 0xd8, 0xab, 0x00, 0x8c, 0xbc, 0xd3, 0x0a, 0xf7, 0xe4, 0x58, 0x05,
   0xb8, 0xb3, 0x45, 0x06, 0xd0, 0x2c, 0x1e, 0x8f, 0xca, 0x3f, 0x0f, 0x02,
   0xc1, 0xaf, 0xbd, 0x03, 0x01, 0x13, 0x8a, 0x6b, 0x3a, 0x91, 0x11, 0x41,
   0x4f, 0x67, 0xdc, 0xea, 0x97, 0xf2, 0xcf, 0xce, 0xf0, 0xb4, 0xe6, 0x73,
   0x96, 0xac, 0x74, 0x22, 0xe7, 0xad, 0x35, 0x85, 0xe2, 0xf9, 0x37, 0xe8,
   0x1c, 0x75, 0xdf, 0x6e, 0x47, 0xf1, 0x1a, 0x71, 0x1d, 0x29, 0xc5, 0x89,
   0x6f, 0xb7, 0x62, 0x0e, 0xaa, 0x18, 0xbe, 0x1b, 0xfc, 0x56, 0x3e, 0x4b,
   0xc6, 0xd2, 0x79, 0x20, 0x9a, 0xdb, 0xc0, 0xfe, 0x78, 0xcd, 0x5a, 0xf4,
   0x1f, 0xdd, 0xa8, 0x33, 0x88, 0x07, 0xc7, 0x31, 0xb1, 0x12, 0x10, 0x59,
   0x27, 0x80, 0xec, 0x5f, 0x60, 0x51, 0x7f, 0xa9, 0x19, 0xb5, 0x4a, 0x0d,
   0x2d, 0xe5, 0x7a, 0x9f, 0x93, 0xc9, 0x9c, 0xef, 0xa0, 0xe0, 0x3b, 0x4d,
   0xae, 0x2a, 0xf5, 0xb0, 0xc8, 0xeb, 0xbb, 0x3c, 0x83, 0x53, 0x99, 0x61,
   0x17, 0x2b, 0x04, 0x7e, 0xba, 0x77, 0xd6, 0x26, 0xe1, 0x69, 0x14, 0x63,
   0x55, 0x21, 0x0c, 0x7d]

-- ========================================================== field, key

/-- `aes_xtime`. -/
def aesXtime (x : UInt8) : UInt8 :=
  (x <<< 1) ^^^ (if x &&& 0x80 ≠ 0 then 0x1b else 0)

/-- `aes_mul`; the loop `while (y)` runs at most eight turns on a
byte. -/
def aesMul (x y : UInt8) : UInt8 :=
  go 8 x y 0
where
  /-- One turn of the loop on `(x, y, r)`. -/
  go : Nat → UInt8 → UInt8 → UInt8 → UInt8
    | 0, _, _, r => r
    | k + 1, x, y, r =>
        if y = 0 then r
        else go k (aesXtime x) (y >>> 1)
          (if y &&& 1 ≠ 0 then r ^^^ x else r)

/-- `rcon`. -/
def aesRcon : List UInt8 :=
  [0x01, 0x02, 0x04, 0x08, 0x10, 0x20, 0x40, 0x80, 0x1b, 0x36]

/-- One turn of the expansion loop: four more bytes at the end of
`round_key`, which already holds `bytes` of them. -/
def aesExpandWord (rk : List UInt8) : List UInt8 :=
  let bytes := rk.length
  let t := rk.drop (bytes - 4)
  let t := if bytes % 16 = 0 then
      [peek aesSbox (peek t 1).toNat ^^^ peek aesRcon (bytes / 16 - 1),
        peek aesSbox (peek t 2).toNat, peek aesSbox (peek t 3).toNat,
        peek aesSbox (peek t 0).toNat]
    else t
  rk ++ List.zipWith (· ^^^ ·) ((rk.drop (bytes - 16)).take 4) t

/-- `aes128_key_expand`. -/
def aes128KeyExpand (key : Bytes 16) : List UInt8 :=
  aesExpandWord^[40] key.toList

-- ================================================================ rounds

/-- `aes_add_round_key`. -/
def aesAddRoundKey (state rk : List UInt8) : List UInt8 :=
  List.zipWith (· ^^^ ·) state rk

/-- `aes_inv_shift_rows`: row `r` of the column-major state moves right
by `r`. -/
def aesInvShiftRows (s : List UInt8) : List UInt8 :=
  [0, 13, 10, 7, 4, 1, 14, 11, 8, 5, 2, 15, 12, 9, 6, 3].map (peek s)

/-- `aes_inv_sub_bytes`. -/
def aesInvSubBytes (s : List UInt8) : List UInt8 :=
  s.map fun b => peek aesRsbox b.toNat

/-- `aes_inv_mix_columns`. -/
def aesInvMixColumns (s : List UInt8) : List UInt8 :=
  (List.range 4).flatMap fun c =>
    let a0 := peek s (4 * c)
    let a1 := peek s (4 * c + 1)
    let a2 := peek s (4 * c + 2)
    let a3 := peek s (4 * c + 3)
    [aesMul a0 0x0e ^^^ aesMul a1 0x0b ^^^ aesMul a2 0x0d ^^^ aesMul a3 0x09,
      aesMul a0 0x09 ^^^ aesMul a1 0x0e ^^^ aesMul a2 0x0b ^^^ aesMul a3 0x0d,
      aesMul a0 0x0d ^^^ aesMul a1 0x09 ^^^ aesMul a2 0x0e ^^^ aesMul a3 0x0b,
      aesMul a0 0x0b ^^^ aesMul a1 0x0d ^^^ aesMul a2 0x09 ^^^ aesMul a3 0x0e]

/-- `aes128_decrypt_block`. -/
def aes128DecryptBlock (key block : Bytes 16) : Bytes 16 :=
  let rk := aes128KeyExpand key
  let s := aesAddRoundKey block.toList (rk.drop 160)
  let s := [9, 8, 7, 6, 5, 4, 3, 2, 1].foldl (fun s round =>
    aesInvMixColumns (aesAddRoundKey (aesInvSubBytes (aesInvShiftRows s))
      (rk.drop (round * 16)))) s
  grab (aesAddRoundKey (aesInvSubBytes (aesInvShiftRows s)) rk) 0 16

-- ================================================================ unwrap

/-- The step counter xored into the integrity register, high byte
first. -/
def unwrapMask (a : Bytes 8) (t : Nat) : List UInt8 :=
  List.zipWith (· ^^^ ·) a.toList
    ((List.range 8).map fun k => UInt8.ofNat (t / 256 ^ (7 - k)))

/-- One block of the unwrap: register `i` of pass `j`. -/
def unwrapStep (dec : Bytes 16 → Bytes 16 → Bytes 16) (kek : Bytes 16)
    (n : Nat) (ar : Bytes 8 × List (Bytes 8)) (ji : Nat × Nat) :
    Bytes 8 × List (Bytes 8) :=
  let (a, r) := ar
  let (j, i) := ji
  let plain := dec kek
    (grab (unwrapMask a (n * j + i + 1) ++ (r.getD i (zeros 8)).toList) 0 16)
  (grab plain.toList 0 8, r.set i (grab plain.toList 8 8))

/-- `aes_unwrap_128`: the unwrapped key data, when the lengths are legal
and the integrity check passes. -/
def aesUnwrap128 (dec : Bytes 16 → Bytes 16 → Bytes 16) (kek : Bytes 16)
    (inp : List UInt8) : Option (List UInt8) :=
  if inp.length < 16 ∨ inp.length % 8 ≠ 0 then none
  else
    let n := inp.length / 8 - 1
    if n = 0 ∨ 32 < n then none
    else
      let r := (List.range n).map fun i => grab inp (8 + 8 * i) 8
      let order := [5, 4, 3, 2, 1, 0].flatMap fun j =>
        (List.range n).reverse.map fun i => (j, i)
      let (a, r) := order.foldl (unwrapStep dec kek n) (grab inp 0 8, r)
      if a.toList = List.replicate 8 0xa6 then
        some (r.flatMap fun b => b.toList)
      else none

end Rtw88
