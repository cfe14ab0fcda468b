/-
`kern_hmac_sha1` is HMAC-SHA1, wherever its output goes.

The function reads key and data before its first write to the digest and
then reads back only what it wrote, so no two of its pointers need be
apart (`kernHmacSha1At_eq`, with the two lengths cut to 32 bits as the
source casts them). That is what lets `derivePMK` hash a block into
itself (Proofs/Crypto/Pmk.lean).

A key longer than a block is hashed first, and from there on the key fits
(`hmac_eq`). Each of the two hashes is two updates of a context, a block
of pad and the rest; that two updates hash the two strings together is
the result on chunks of Proofs/Crypto/Sha1.lean (`sha1Twice`). The digest
is written twice, the inner hash and over it the outer one
(`hmacKeyed_eq`).
-/
import Rtw88.Proofs.Crypto.Sha1
import Rtw88.Crypto.KdfSource
import Rtw88.Lib.Kdf

namespace Rtw88

open Fips180

-- =================================================================== hashes

/-- SHA-1 of a string, in one update. -/
theorem sha1Once {d : List UInt8} (hd : d.length < 2 ^ 32) :
    (kernSha1Final (kernSha1Update kernSha1Init d)).toList = sha1 d := by
  have h := fed_init.update (d := d) (by simp; omega)
  exact h.final

/-- SHA-1 of a block and a string, in two updates. -/
theorem sha1Twice {b d : List UInt8} (hb : b.length = 64)
    (hd : d.length < 2 ^ 32) :
    (kernSha1Final (kernSha1Update (kernSha1Update kernSha1Init b)
      d)).toList = sha1 (b ++ d) := by
  have h := (fed_init.update (d := b) (by simp; omega)).update (d := d)
    (by simp [hb]; omega)
  exact h.final

/-- One update through a pointer, behind whole blocks. -/
private theorem updateMem {c : KernSha1Ctx} {b : List UInt8} (h : Fed c b)
    (hb : b.length % 64 = 0) (m : Memory) (p n : Nat) :
    kernSha1UpdateAt c (readMem m p (UInt32.ofNat n).toNat) (UInt32.ofNat n)
      = some (kernSha1Update c (readMem m p (n % 2 ^ 32))) := by
  have hn : (UInt32.ofNat n).toNat = n % 2 ^ 32 := UInt32.toNat_ofNat'
  have hof : UInt32.ofNat (readMem m p (n % 2 ^ 32)).length
      = UInt32.ofNat n := by
    apply UInt32.toNat_inj.1
    rw [readMem_length, UInt32.toNat_ofNat', UInt32.toNat_ofNat']
    exact Nat.mod_mod _ _
  have hupdate := h.updateAt (d := readMem m p (n % 2 ^ 32)) (by
    rw [hb, readMem_length]
    omega)
  rw [hn]
  rw [hof] at hupdate
  exact hupdate

theorem sha1_length (d : List UInt8) : (sha1 d).length = 20 := by
  simp [sha1, Hash.bytes]

-- ===================================================================== keys

/-- The pads of a key. -/
theorem hmacPad_eq (key : List UInt8) (c : UInt8) :
    hmacPad key c
      = (key ++ List.replicate (64 - key.length) 0).map (· ^^^ c) := by
  have hsplice : splice (List.replicate 64 0) 0 key
      = key ++ List.replicate (64 - key.length) 0 := by
    rw [splice, List.take_zero, List.nil_append, Nat.zero_add,
      List.drop_replicate]
  rw [hmacPad, hsplice]

theorem hmacPad_length {key : List UInt8} (h : key.length ≤ 64)
    (c : UInt8) : (hmacPad key c).length = 64 := by
  rw [hmacPad_eq, List.length_map, List.length_append,
    List.length_replicate]
  omega

/-- The hash of the two pads, for a key that fits in a block. -/
def hmacPadded (key data : List UInt8) : List UInt8 :=
  sha1 (hmacPad key 0x5c ++ sha1 (hmacPad key 0x36 ++ data))

/-- HMAC in terms of the key that fits. -/
theorem hmac_eq (key data : List UInt8) :
    Kdf.hmac sha1 64 key data
      = hmacPadded (if 64 < key.length then sha1 key else key) data := by
  unfold Kdf.hmac Kdf.keyBlock hmacPadded
  rw [hmacPad_eq, hmacPad_eq]

theorem hmac_length (key data : List UInt8) :
    (Kdf.hmac sha1 64 key data).length = 20 := sha1_length _

-- ================================================================= functions

/-- The function on values. -/
theorem kernHmacSha1_eq {key data : List UInt8}
    (hkey : key.length < 2 ^ 32) (hdata : data.length < 2 ^ 32) :
    (kernHmacSha1 key data).toList = Kdf.hmac sha1 64 key data := by
  have hshort : (if 64 < key.length then
      (kernSha1Final (kernSha1Update kernSha1Init key)).toList else key)
      = if 64 < key.length then sha1 key else key := by
    rw [sha1Once hkey]
  have hfit : (if 64 < key.length then sha1 key else key).length ≤ 64 := by
    split
    · rw [sha1_length]
      decide
    · omega
  unfold kernHmacSha1
  simp only [hshort]
  rw [hmac_eq, hmacPadded, sha1Twice (hmacPad_length hfit _) hdata,
    sha1Twice (hmacPad_length hfit _) (by rw [sha1_length]; decide)]

/-- With a key that fits in a block, through pointers. -/
private theorem hmacKeyed_eq (m : Memory) {k : List UInt8}
    (hk : k.length ≤ 64) (data dataLen mac : Nat) :
    hmacKeyed m k data dataLen mac
      = some (writeMem m mac
          (hmacPadded k (readMem m data (dataLen % 2 ^ 32)))) := by
  have hpad : ∀ x, sha1Over (hmacPad k x)
      = some (kernSha1Update kernSha1Init (hmacPad k x)) := fun x =>
    fed_init.updateAt (by
      rw [hmacPad_length hk]
      decide)
  have hfed : ∀ x, Fed (kernSha1Update kernSha1Init (hmacPad k x))
      (hmacPad k x) := fun x => fed_init.update (by
    rw [hmacPad_length hk]
    decide)
  have hwhole : ∀ x, (hmacPad k x).length % 64 = 0 := fun x => by
    rw [hmacPad_length hk]
  have hdata : (readMem m data (dataLen % 2 ^ 32)).length < 2 ^ 32 := by
    rw [readMem_length]
    omega
  have hinner := sha1Twice (hmacPad_length hk 0x36) hdata
  -- the inner digest is read back from where it was written
  have hback := updateMem (hfed 0x5c) (hwhole 0x5c)
    (writeMem m mac (sha1 (hmacPad k 0x36
      ++ readMem m data (dataLen % 2 ^ 32)))) mac 20
  rw [show 20 % 2 ^ 32 = 20 from rfl, readMem_writeMem (sha1_length _)]
    at hback
  have houter := sha1Twice (hmacPad_length hk 0x5c)
    (d := sha1 (hmacPad k 0x36 ++ readMem m data (dataLen % 2 ^ 32)))
    (by
      rw [sha1_length]
      decide)
  unfold hmacKeyed
  simp only [hpad, Option.bind_eq_bind, Option.bind_some,
    updateMem (hfed 0x36) (hwhole 0x36), hinner]
  show (kernSha1UpdateAt _ (readMem _ mac (UInt32.ofNat 20).toNat)
    (UInt32.ofNat 20)).bind _ = _
  rw [hback, Option.bind_some, houter, writeMem_writeMem, hmacPadded]
  rw [sha1_length, sha1_length]

/-- The function through its pointers, for all lengths and any overlap:
key and data are cut to 32 bits of length where they are hashed, and
only the digest is written. -/
theorem kernHmacSha1At_cut (m : Memory)
    (key keyLen data dataLen mac : Nat) :
    kernHmacSha1At m key keyLen data dataLen mac
      = some (writeMem m mac (hmacPadded
          (if 64 < keyLen then sha1 (readMem m key (keyLen % 2 ^ 32))
            else readMem m key keyLen)
          (readMem m data (dataLen % 2 ^ 32)))) := by
  unfold kernHmacSha1At
  by_cases hlong : 64 < keyLen
  · have hread := updateMem fed_init rfl m key keyLen
    have hdigest : (kernSha1Final (kernSha1Update kernSha1Init
        (readMem m key (keyLen % 2 ^ 32)))).toList
        = sha1 (readMem m key (keyLen % 2 ^ 32)) := by
      apply sha1Once
      rw [readMem_length]
      omega
    rw [if_pos hlong, if_pos hlong]
    show (kernSha1UpdateAt _ _ _).bind _ = _
    rw [hread, Option.bind_some, hdigest]
    apply hmacKeyed_eq
    rw [sha1_length]
    decide
  · rw [if_neg hlong, if_neg hlong]
    apply hmacKeyed_eq
    rw [readMem_length]
    omega

/-- And with lengths of 32 bits it is HMAC-SHA1. -/
theorem kernHmacSha1At_eq (m : Memory) (key keyLen data dataLen mac : Nat)
    (hkey : keyLen < 2 ^ 32) (hdata : dataLen < 2 ^ 32) :
    kernHmacSha1At m key keyLen data dataLen mac
      = some (writeMem m mac (Kdf.hmac sha1 64 (readMem m key keyLen)
          (readMem m data dataLen))) := by
  rw [kernHmacSha1At_cut, hmac_eq, readMem_length, Nat.mod_eq_of_lt hkey,
    Nat.mod_eq_of_lt hdata]

end Rtw88
