/-
WPA2 key derivation: `derivePMK` (PBKDF2 over HMAC-SHA1) and `derivePTK`
(the 802.11 PRF over the two nonces and addresses), and the two
primitives the handshake rests on.

`Prims` collects what the handshake code calls as a black box: a keyed
hash and a block decryption. `kernPrims` is the pair this driver links.
Everything downstream takes a `Prims`, so each result holds for
`kernPrims` and, where a statement idealises the hash, for an ideal one.
-/
import Rtw88.Crypto.Sha1
import Rtw88.Crypto.Aes
import Mathlib.Logic.Function.Iterate

namespace Rtw88

/-- The primitives under the handshake. -/
structure Prims where
  /-- `kern_hmac_sha1`: key, data. -/
  hmacSha1 : List UInt8 → List UInt8 → Bytes 20
  /-- `aes128_decrypt_block`: key, block. -/
  decryptBlock : Bytes 16 → Bytes 16 → Bytes 16

/-- The primitives of the source. -/
def kernPrims : Prims :=
  { hmacSha1 := kernHmacSha1, decryptBlock := aes128DecryptBlock }

-- ================================================================== PMK

/-- Byte-wise exclusive or. -/
def xorBytes (a b : List UInt8) : List UInt8 := List.zipWith (· ^^^ ·) a b

/-- The 4095 further iterations of one PBKDF2 block on `(u, t)`. -/
def pmkIterate (pr : Prims) (passphrase : List UInt8) (u : Bytes 20) :
    List UInt8 :=
  ((fun ut : Bytes 20 × List UInt8 =>
      let u := pr.hmacSha1 passphrase ut.1.toList
      (u, xorBytes ut.2 u.toList))^[4095] (u, u.toList)).2

/-- `derivePMK`: the passphrase is the C string, the salt the first
`ssid_len` bytes of the SSID buffer (at most 120) and a block number. -/
def derivePMK (pr : Prims) (passphrase ssid : List UInt8) (ssidLen : Nat) :
    Bytes 32 :=
  let salt := ssid.take (min ssidLen 120)
  let block := fun b : UInt8 =>
    pmkIterate pr passphrase
      (pr.hmacSha1 passphrase (salt ++ [0, 0, 0, b]))
  grab (block 1 ++ (block 2).take 12) 0 32

-- ================================================================== PTK

/-- `memcmp(a, b, n) < 0` on strings of one length. -/
def memcmpLt : List UInt8 → List UInt8 → Bool
  | x :: xs, y :: ys => if x = y then memcmpLt xs ys else x < y
  | _, _ => false

/-- `"Pairwise key expansion"` and its terminator. -/
def ptkLabel : List UInt8 :=
  [0x50, 0x61, 0x69, 0x72, 0x77, 0x69, 0x73, 0x65, 0x20, 0x6b, 0x65, 0x79,
   0x20, 0x65, 0x78, 0x70, 0x61, 0x6e, 0x73, 0x69, 0x6f, 0x6e, 0]

/-- The hashed data of the PRF: label, the smaller and larger address,
the smaller and larger nonce. -/
def ptkData (anonce snonce : Bytes 32) (spa aa : Bytes 6) : List UInt8 :=
  let macs := if memcmpLt spa.toList aa.toList
    then spa.toList ++ aa.toList else aa.toList ++ spa.toList
  let nonces := if memcmpLt snonce.toList anonce.toList
    then snonce.toList ++ anonce.toList else anonce.toList ++ snonce.toList
  ptkLabel ++ macs ++ nonces

/-- `derivePTK`: 64 bytes, KCK then KEK then TK. -/
def derivePTK (pr : Prims) (pmk : Bytes 32) (anonce snonce : Bytes 32)
    (spa aa : Bytes 6) : Bytes 64 :=
  let hash := fun i : UInt8 =>
    (pr.hmacSha1 pmk.toList (ptkData anonce snonce spa aa ++ [i])).toList
  grab (hash 0 ++ hash 1 ++ hash 2 ++ (hash 3).take 4) 0 64

/-- `_ptk[0..15]`: the key the MIC is computed with. -/
def kckOf (ptk : Bytes 64) : Bytes 16 := grab ptk.toList 0 16

/-- `_ptk[16..31]`: the key the key data is wrapped with. -/
def kekOf (ptk : Bytes 64) : Bytes 16 := grab ptk.toList 16 16

/-- `_ptk[32..47]`: the pairwise temporal key. -/
def tkOf (ptk : Bytes 64) : Bytes 16 := grab ptk.toList 32 16

end Rtw88
