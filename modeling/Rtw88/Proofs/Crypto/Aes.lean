/-
`aes128_decrypt_block` is the inverse of the AES-128 cipher of FIPS 197
with the same key schedule and S-box: `aes_decrypt_inverts`.

The 16 bytes of the source are the state column by column
(`Fips197.ofBytes`), and each of its layers is the layer of the inverse
cipher; `aes_mul` is the product of GF(2^8) by its loop's invariant.

# Layers

The source decrypts only, so there is no encryption in it to invert. The
cipher is that of the standard (Lib/Fips197.lean), with the tables and
the round keys of the source as its parameters. What is asked of the
tables is that one undoes the other (`rsbox_sbox`, `sbox_rsbox`), which
is 256 cases each; that the mixed columns are undone is a fact of the
field, proved in the library over its ring.

A layer of the source works on bytes where the standard's works on a
four by four array, so each has one lemma that says they are the same
under `ofBytes`. The rows that the source shifts byte by byte are the one
layer that is written out.

# Rounds

The loop runs from round 9 down to 1, with the first and the last key
outside of it (`rounds_loop`). As the layers are inverse to those of the
cipher, the rounds undo its rounds in the opposite order; so decryption
undoes encryption, and encryption undoes decryption.
-/
import Rtw88.Crypto.Aes
import Rtw88.Lib.Fips197
import Mathlib.Data.List.GetD

namespace Rtw88

open Fips197

-- =================================================================== field

/-- `aes_xtime` is the field's doubling. -/
theorem aesXtime_eq (x : UInt8) : aesXtime x = gfDouble x := by
  revert x
  apply forall_byte
  decide +kernel

/-- The bit a turn of the loop asks for. -/
private theorem and_one_ne (y : UInt8) :
    byteBit y 0 = if y &&& 1 ≠ 0 then 1 else 0 := by
  revert y
  apply forall_byte
  decide +kernel

/-- The loop, with `k` turns for a multiplier of `k` bits: `r` and the
product of what is left. -/
private theorem aesMul_go (k : Nat) (x y r : UInt8) (hy : y.toNat < 2 ^ k) :
    gfVal (aesMul.go k x y r) = gfVal r + gfVal x * gfVal y := by
  induction k generalizing x y r with
  | zero =>
      have hzero : y = 0 := by
        apply UInt8.toNat_inj.1
        show y.toNat = 0
        omega
      rw [aesMul.go, hzero, gfVal_zero, mul_zero, add_zero]
  | succ k ih =>
      rw [aesMul.go]
      by_cases hzero : y = 0
      · rw [if_pos hzero, hzero, gfVal_zero, mul_zero, add_zero]
      · have hshift : (y >>> 1).toNat < 2 ^ k := by
          rw [UInt8.toNat_shiftRight]
          show y.toNat >>> 1 < 2 ^ k
          rw [Nat.shiftRight_eq_div_pow]
          rw [pow_succ] at hy
          omega
        rw [if_neg hzero, ih _ _ _ hshift, aesXtime_eq, gfVal_double,
          gfVal_shift y, and_one_ne]
        by_cases hbit : y &&& 1 ≠ 0
        · rw [if_pos hbit, if_pos hbit, gfVal_xor, map_one]
          ring
        · rw [if_neg hbit, if_neg hbit, map_zero]
          ring

/-- `aes_mul` is the product of GF(2^8). -/
theorem aesMul_eq (x y : UInt8) : aesMul x y = gfMul x y := by
  apply gfVal_inj
  rw [gfVal_mul, aesMul, aesMul_go 8 x y 0 y.toNat_lt, gfVal_zero, zero_add]

-- ================================================================== layers

/-- `aes_sbox` as a function. -/
def sbox (x : UInt8) : UInt8 := peek aesSbox x.toNat

/-- `aes_rsbox` as a function. -/
def rsbox (x : UInt8) : UInt8 := peek aesRsbox x.toNat

/-- The inverse S-box undoes the S-box. -/
theorem rsbox_sbox (x : UInt8) : rsbox (sbox x) = x := by
  revert x
  apply forall_byte
  decide +kernel

theorem sbox_rsbox (x : UInt8) : sbox (rsbox x) = x := by
  revert x
  apply forall_byte
  decide +kernel

/-- Inside the list a byte is its element. -/
private theorem peek_of_lt {d : List UInt8} {i : Nat} (h : i < d.length) :
    peek d i = d[i] := List.getD_eq_getElem d 0 h

/-- A state's byte is one of the sixteen. -/
private theorem index_lt (r c : Fin 4) : r.val + 4 * c.val < 16 := by omega

theorem aesAddRoundKey_length {s rk : List UInt8} (hs : s.length = 16)
    (hk : 16 ≤ rk.length) : (aesAddRoundKey s rk).length = 16 := by
  rw [aesAddRoundKey, List.length_zipWith]
  omega

/-- Adding the round key, as the standard has it. -/
theorem ofBytes_addRoundKey {s rk : List UInt8} (hs : s.length = 16)
    (hk : 16 ≤ rk.length) :
    ofBytes (aesAddRoundKey s rk) = addRoundKey (ofBytes rk) (ofBytes s) := by
  funext r c
  have hlt := index_lt r c
  have hlen : r.val + 4 * c.val < (aesAddRoundKey s rk).length := by
    rw [aesAddRoundKey_length hs hk]
    exact hlt
  show peek _ _ = peek _ _ ^^^ peek _ _
  rw [peek_of_lt hlen, peek_of_lt (hs ▸ hlt),
    peek_of_lt (Nat.lt_of_lt_of_le hlt hk)]
  exact List.getElem_zipWith

theorem ofBytes_invSubBytes {s : List UInt8} (hs : s.length = 16) :
    ofBytes (aesInvSubBytes s) = subBytes rsbox (ofBytes s) := by
  funext r c
  have hlt : r.val + 4 * c.val < s.length := hs ▸ index_lt r c
  have hlen : r.val + 4 * c.val < (aesInvSubBytes s).length := by
    rw [aesInvSubBytes, List.length_map]
    exact hlt
  show peek _ _ = rsbox (peek _ _)
  rw [peek_of_lt hlen, peek_of_lt hlt]
  exact List.getElem_map _

/-- The inverse shift, which the source writes out byte by byte. -/
theorem ofBytes_invShiftRows (s : List UInt8) :
    ofBytes (aesInvShiftRows s) = invShiftRows (ofBytes s) := by
  funext r c
  fin_cases r <;> fin_cases c <;> rfl

/-- The four bytes `p` points to. -/
private theorem ofBytes_column (s : List UInt8) (c : Fin 4) :
    ofBytes s 0 c = peek s (4 * c) ∧ ofBytes s 1 c = peek s (4 * c + 1)
      ∧ ofBytes s 2 c = peek s (4 * c + 2)
      ∧ ofBytes s 3 c = peek s (4 * c + 3) := by
  fin_cases c <;> exact ⟨rfl, rfl, rfl, rfl⟩

theorem ofBytes_invMixColumns (s : List UInt8) :
    ofBytes (aesInvMixColumns s) = invMixColumns (ofBytes s) := by
  funext r c
  obtain ⟨h0, h1, h2, h3⟩ := ofBytes_column s c
  -- the turn of the loop for column `c`
  have hturn : ∀ r : Fin 4, ofBytes (aesInvMixColumns s) r c
      = peek [aesMul (peek s (4 * c)) 0x0e ^^^ aesMul (peek s (4 * c + 1)) 0x0b
          ^^^ aesMul (peek s (4 * c + 2)) 0x0d
          ^^^ aesMul (peek s (4 * c + 3)) 0x09,
        aesMul (peek s (4 * c)) 0x09 ^^^ aesMul (peek s (4 * c + 1)) 0x0e
          ^^^ aesMul (peek s (4 * c + 2)) 0x0b
          ^^^ aesMul (peek s (4 * c + 3)) 0x0d,
        aesMul (peek s (4 * c)) 0x0d ^^^ aesMul (peek s (4 * c + 1)) 0x09
          ^^^ aesMul (peek s (4 * c + 2)) 0x0e
          ^^^ aesMul (peek s (4 * c + 3)) 0x0b,
        aesMul (peek s (4 * c)) 0x0b ^^^ aesMul (peek s (4 * c + 1)) 0x0d
          ^^^ aesMul (peek s (4 * c + 2)) 0x09
          ^^^ aesMul (peek s (4 * c + 3)) 0x0e] r := by
    intro r
    fin_cases r <;> fin_cases c <;> rfl
  rw [hturn, ← h0, ← h1, ← h2, ← h3]
  simp only [aesMul_eq]
  apply gfVal_inj
  generalize ofBytes s = t
  fin_cases r
  · show gfVal (gfMul (t 0 c) 0x0e ^^^ gfMul (t 1 c) 0x0b
        ^^^ gfMul (t 2 c) 0x0d ^^^ gfMul (t 3 c) 0x09)
      = gfVal (gfMul 0x0e (t 0 c) ^^^ gfMul 0x0b (t 1 c)
        ^^^ gfMul 0x0d (t 2 c) ^^^ gfMul 0x09 (t 3 c))
    simp only [gfVal_xor, gfVal_mul]
    ring
  · show gfVal (gfMul (t 0 c) 0x09 ^^^ gfMul (t 1 c) 0x0e
        ^^^ gfMul (t 2 c) 0x0b ^^^ gfMul (t 3 c) 0x0d)
      = gfVal (gfMul 0x0e (t 1 c) ^^^ gfMul 0x0b (t 2 c)
        ^^^ gfMul 0x0d (t 3 c) ^^^ gfMul 0x09 (t 0 c))
    simp only [gfVal_xor, gfVal_mul]
    ring
  · show gfVal (gfMul (t 0 c) 0x0d ^^^ gfMul (t 1 c) 0x09
        ^^^ gfMul (t 2 c) 0x0e ^^^ gfMul (t 3 c) 0x0b)
      = gfVal (gfMul 0x0e (t 2 c) ^^^ gfMul 0x0b (t 3 c)
        ^^^ gfMul 0x0d (t 0 c) ^^^ gfMul 0x09 (t 1 c))
    simp only [gfVal_xor, gfVal_mul]
    ring
  · show gfVal (gfMul (t 0 c) 0x0b ^^^ gfMul (t 1 c) 0x0d
        ^^^ gfMul (t 2 c) 0x09 ^^^ gfMul (t 3 c) 0x0e)
      = gfVal (gfMul 0x0e (t 3 c) ^^^ gfMul 0x0b (t 0 c)
        ^^^ gfMul 0x0d (t 1 c) ^^^ gfMul 0x09 (t 2 c))
    simp only [gfVal_xor, gfVal_mul]
    ring

-- ================================================================== blocks

/-- The expansion makes 176 bytes. -/
theorem aes128KeyExpand_length (key : Bytes 16) :
    (aes128KeyExpand key).length = 176 := by
  have hword : ∀ rk : List UInt8, 16 ≤ rk.length →
      (aesExpandWord rk).length = rk.length + 4 := by
    intro rk hrk
    unfold aesExpandWord
    simp only
    rw [List.length_append, List.length_zipWith, List.length_take,
      List.length_drop]
    split
    · simp only [List.length_cons, List.length_nil]
      omega
    · rw [List.length_drop]
      omega
  have hlen : ∀ n, (aesExpandWord^[n] key.toList).length = 16 + 4 * n := by
    intro n
    induction n with
    | zero => exact key.toList_length
    | succ n ih =>
        rw [Function.iterate_succ_apply', hword _ (by omega), ih]
        omega
  exact hlen 40

/-- Round key `i` of the expansion. -/
def roundKey (key : Bytes 16) (i : Nat) : AesState :=
  ofBytes ((aes128KeyExpand key).drop (i * 16))

/-- AES-128 encryption as FIPS 197 has it, with `aes_sbox` and the round
keys of `aes128_key_expand`. -/
def aes128Encrypt (key block : Bytes 16) : Bytes 16 :=
  toBytes (cipher sbox (roundKey key) 9 (ofBytes block.toList))

/-- A block is its state's bytes. -/
theorem toBytes_ofBytes (b : Bytes 16) : toBytes (ofBytes b.toList) = b := by
  apply List.Vector.eq
  apply List.ext_getElem
  · rw [List.Vector.toList_length, List.Vector.toList_length]
  · intro i hi hb
    rw [List.Vector.toList_length] at hi
    rw [← peek_of_lt hb]
    interval_cases i <;> rfl

/-- The block copied out of the sixteen bytes of the state. -/
private theorem grab_state {s : List UInt8} (hs : s.length = 16) :
    grab s 0 16 = toBytes (ofBytes s) := by
  obtain ⟨b, rfl⟩ : ∃ b : Bytes 16, s = b.toList := ⟨⟨s, hs⟩, rfl⟩
  rw [toBytes_ofBytes]
  apply List.Vector.eq
  rw [grab_toList]
  apply List.ext_getElem
  · rw [List.length_map, List.length_range, hs]
  · intro i hi hb
    rw [List.getElem_map, List.getElem_range, Nat.zero_add, peek_of_lt hb]

/-- The layers of a round before InvMixColumns. -/
private theorem ofBytes_half {s rk : List UInt8} (hk : 16 ≤ rk.length) :
    ofBytes (aesAddRoundKey (aesInvSubBytes (aesInvShiftRows s)) rk)
      = addRoundKey (ofBytes rk)
        (subBytes rsbox (invShiftRows (ofBytes s))) := by
  have hshift : (aesInvShiftRows s).length = 16 := rfl
  have hsub : (aesInvSubBytes (aesInvShiftRows s)).length = 16 := rfl
  rw [ofBytes_addRoundKey hsub hk, ofBytes_invSubBytes hshift,
    ofBytes_invShiftRows]

/-- The key of round `i` is there. -/
private theorem roundKey_length (key : Bytes 16) {i : Nat} (hi : i ≤ 10) :
    16 ≤ ((aes128KeyExpand key).drop (i * 16)).length := by
  rw [List.length_drop, aes128KeyExpand_length]
  omega

/-- The loop, from round `n` down to round 1. -/
private theorem rounds_loop (key : Bytes 16) {n : Nat} (hn : n ≤ 10)
    (s : List UInt8) :
    ofBytes (((List.range n).reverse.map (· + 1)).foldl (fun s round =>
      aesInvMixColumns (aesAddRoundKey (aesInvSubBytes (aesInvShiftRows s))
        ((aes128KeyExpand key).drop (round * 16)))) s)
      = invRounds rsbox (roundKey key) n (ofBytes s) := by
  induction n generalizing s with
  | zero => rfl
  | succ n ih =>
      rw [List.range_succ, List.reverse_append, List.reverse_singleton,
        List.singleton_append, List.map_cons, List.foldl_cons,
        ih (by omega), ofBytes_invMixColumns,
        ofBytes_half (roundKey_length key hn)]
      rfl

/-- `aes128_decrypt_block` is the inverse cipher. -/
theorem aes128DecryptBlock_eq (key block : Bytes 16) :
    aes128DecryptBlock key block
      = toBytes (invCipher rsbox (roundKey key) 9 (ofBytes block.toList)) := by
  have hrounds : [9, 8, 7, 6, 5, 4, 3, 2, 1]
      = (List.range 9).reverse.map (· + 1) := by decide
  have hlast : roundKey key (9 + 1)
      = ofBytes ((aes128KeyExpand key).drop 160) := by
    rw [roundKey]
  have hfirst : roundKey key 0 = ofBytes (aes128KeyExpand key) := by
    rw [roundKey, Nat.zero_mul, List.drop_zero]
  have hlen : 16 ≤ (aes128KeyExpand key).length := by
    rw [aes128KeyExpand_length]
    omega
  have hlen' : 16 ≤ ((aes128KeyExpand key).drop 160).length := by
    rw [List.length_drop, aes128KeyExpand_length]
  unfold aes128DecryptBlock invCipher
  simp only [hrounds]
  rw [grab_state (aesAddRoundKey_length rfl hlen), ofBytes_half hlen,
    rounds_loop key (by omega), ofBytes_addRoundKey block.toList_length hlen',
    hfirst, hlast]

/-- Decryption undoes encryption. -/
theorem aes128DecryptBlock_encrypt (key b : Bytes 16) :
    aes128DecryptBlock key (aes128Encrypt key b) = b := by
  rw [aes128DecryptBlock_eq, aes128Encrypt, ofBytes_toBytes,
    invCipher_cipher rsbox_sbox, toBytes_ofBytes]

/-- And encryption undoes decryption. -/
theorem aes128Encrypt_decryptBlock (key c : Bytes 16) :
    aes128Encrypt key (aes128DecryptBlock key c) = c := by
  rw [aes128DecryptBlock_eq, aes128Encrypt, ofBytes_toBytes,
    cipher_invCipher sbox_rsbox, toBytes_ofBytes]

-- ================================================================== result

/-- `aes128_decrypt_block` undoes AES-128 encryption, and encryption undoes
it; its tables and layers are inverse to the forward ones, and `aes_mul` is
the product modulo `x^8 + x^4 + x^3 + x + 1`. -/
theorem aes_decrypt_inverts :
    (∀ key b, aes128DecryptBlock key (aes128Encrypt key b) = b)
      ∧ (∀ key c, aes128Encrypt key (aes128DecryptBlock key c) = c)
      ∧ (∀ x : UInt8, peek aesRsbox (peek aesSbox x.toNat).toNat = x)
      ∧ (∀ x : UInt8, peek aesSbox (peek aesRsbox x.toNat).toNat = x)
      ∧ (∀ s : AesState,
        ofBytes (aesInvShiftRows (toBytes (shiftRows s)).toList) = s)
      ∧ (∀ s : AesState,
        ofBytes (aesInvMixColumns (toBytes (mixColumns s)).toList) = s)
      ∧ ∀ x y, bytePoly (aesMul x y)
        = (bytePoly x * bytePoly y) %ₘ gfModulus := by
  refine ⟨aes128DecryptBlock_encrypt, aes128Encrypt_decryptBlock, rsbox_sbox,
    sbox_rsbox, fun s => ?_, fun s => ?_, fun x y => ?_⟩
  · rw [ofBytes_invShiftRows, ofBytes_toBytes, invShiftRows_shiftRows]
  · rw [ofBytes_invMixColumns, ofBytes_toBytes, invMixColumns_mixColumns]
  · rw [aesMul_eq, bytePoly_mul]

end Rtw88
