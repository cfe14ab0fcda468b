/-
Keyed hashing and key derivation as their standards define them, over an
arbitrary hash or pseudorandom function on byte strings:

- `hmac`: HMAC of RFC 2104, over a hash with blocks of `n` bytes;
- `pbkdf2`: PBKDF2 of RFC 8018, over a pseudorandom function with
  outputs of `hLen` bytes;
- `prf`: the PRF of IEEE 802.11, over the same.
-/
import Rtw88.Lib.Bytes

namespace Rtw88

namespace Kdf

/-- Byte-wise exclusive or. -/
def xor (a b : List UInt8) : List UInt8 := List.zipWith (· ^^^ ·) a b

-- ================================================================ RFC 2104

/-- The key of one block: hashed if it is longer than a block, then
filled up with zeros. -/
def keyBlock (hash : List UInt8 → List UInt8) (n : Nat)
    (key : List UInt8) : List UInt8 :=
  let key := if n < key.length then hash key else key
  key ++ List.replicate (n - key.length) 0

/-- `H(K XOR opad, H(K XOR ipad, text))`. -/
def hmac (hash : List UInt8 → List UInt8) (n : Nat)
    (key text : List UInt8) : List UInt8 :=
  let k := keyBlock hash n key
  hash (k.map (· ^^^ 0x5c) ++ hash (k.map (· ^^^ 0x36) ++ text))

-- ================================================================ RFC 8018

/-- `U_{j + 1}` of the block that begins with `INT(i)`. -/
def pbkdf2U (prf : List UInt8 → List UInt8 → List UInt8)
    (password salt : List UInt8) (i : Nat) : Nat → List UInt8
  | 0 => prf password (salt ++ beBytes 4 i)
  | j + 1 => prf password (pbkdf2U prf password salt i j)

/-- `T_i = U_1 xor ... xor U_c`. -/
def pbkdf2T (prf : List UInt8 → List UInt8 → List UInt8)
    (password salt : List UInt8) (c i : Nat) : List UInt8 :=
  let u := pbkdf2U prf password salt i
  (List.range (c - 1)).foldl (fun t j => xor t (u (j + 1))) (u 0)

/-- The first `dkLen` bytes of `T_1 || T_2 || ...`. -/
def pbkdf2 (prf : List UInt8 → List UInt8 → List UInt8) (hLen : Nat)
    (password salt : List UInt8) (c dkLen : Nat) : List UInt8 :=
  ((List.range ((dkLen + hLen - 1) / hLen)).flatMap fun i =>
    pbkdf2T prf password salt c (i + 1)).take dkLen

-- ============================================================= IEEE 802.11

/-- The lexically smaller of two byte strings read as unsigned
big-endian numbers. -/
def beMin (a b : List UInt8) : List UInt8 :=
  if beVal a ≤ beVal b then a else b

/-- And the larger. -/
def beMax (a b : List UInt8) : List UInt8 :=
  if beVal a ≤ beVal b then b else a

/-- `PRF(K, A, B, Len)` with `n = Len / 8`: the concatenation of
`H(K, A || 0 || B || i)` for `i = 0, 1, ...`, cut to `n` bytes. -/
def prf (mac : List UInt8 → List UInt8 → List UInt8) (hLen : Nat)
    (key label data : List UInt8) (n : Nat) : List UInt8 :=
  ((List.range ((n + hLen - 1) / hLen)).flatMap fun i =>
    mac key (label ++ [0] ++ data ++ [UInt8.ofNat i])).take n

end Kdf

end Rtw88
