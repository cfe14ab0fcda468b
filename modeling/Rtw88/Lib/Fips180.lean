/-
SHA-1 as FIPS 180-4 specifies it, over byte strings: the functions and
constants of section 4, the padding of 5.1.1, the initial value of 5.3.1
and the hash computation of 6.1.2 with its 80-word message schedule.

Nothing here is buffered, rotated in place or split: a message is padded
as a whole, cut into blocks of 64 bytes and absorbed.
-/
import Rtw88.Lib.Blocks
import Rtw88.Lib.Bytes
import Mathlib.Data.List.GetD
import Mathlib.Data.UInt

namespace Rtw88

namespace Fips180

-- =========================================== 4. functions and constants

/-- `ROTL^n(x)`. -/
def rotl (n : UInt32) (x : UInt32) : UInt32 :=
  (x <<< n) ||| (x >>> (32 - n))

def ch (x y z : UInt32) : UInt32 := (x &&& y) ^^^ (~~~x &&& z)

def parity (x y z : UInt32) : UInt32 := x ^^^ y ^^^ z

def maj (x y z : UInt32) : UInt32 := (x &&& y) ^^^ (x &&& z) ^^^ (y &&& z)

/-- The function of round `t`. -/
def fT (t : Nat) : UInt32 → UInt32 → UInt32 → UInt32 :=
  if t < 20 then ch else if t < 40 then parity
  else if t < 60 then maj else parity

/-- The constant of round `t`. -/
def kT (t : Nat) : UInt32 :=
  if t < 20 then 0x5A827999 else if t < 40 then 0x6ED9EBA1
  else if t < 60 then 0x8F1BBCDC else 0xCA62C1D6

-- ============================================================ 5. padding

/-- The zero bytes between the final one bit's byte and the length: the
smallest number that completes a block. -/
def padZeros (len : Nat) : Nat := (55 + 64 - len % 64) % 64

/-- What is put behind a message of `len` bytes. -/
def padding (len : Nat) : List UInt8 :=
  0x80 :: List.replicate (padZeros len) 0 ++ beBytes 8 (8 * len)

/-- The padded message. -/
def pad (m : List UInt8) : List UInt8 := m ++ padding m.length

/-- The padded message is a whole number of blocks. -/
theorem pad_whole (m : List UInt8) : (pad m).length % 64 = 0 := by
  have hlen : (pad m).length = m.length + (padZeros m.length + 9) := by
    simp [pad, padding, beBytes]
  rw [hlen, padZeros]
  omega

/-- And no fewer zero bytes would do. -/
theorem padZeros_least {len k : Nat} (h : (len + 1 + k + 8) % 64 = 0) :
    padZeros len ≤ k := by
  rw [padZeros]
  omega

-- =================================================== 6. hash computation

/-- The chaining value. -/
structure Hash where
  h0 : UInt32
  h1 : UInt32
  h2 : UInt32
  h3 : UInt32
  h4 : UInt32
  deriving DecidableEq, Repr

/-- `H(0)`. -/
def initial : Hash :=
  ⟨0x67452301, 0xEFCDAB89, 0x98BADCFE, 0x10325476, 0xC3D2E1F0⟩

/-- The word at byte `4 * t` of a block, high byte first. -/
def wordAt (block : List UInt8) (t : Nat) : UInt32 :=
  ((block.getD (4 * t) 0).toUInt32 <<< 24)
    ||| ((block.getD (4 * t + 1) 0).toUInt32 <<< 16)
    ||| ((block.getD (4 * t + 2) 0).toUInt32 <<< 8)
    ||| (block.getD (4 * t + 3) 0).toUInt32

/-- The first `n` words of the message schedule. -/
def words (block : List UInt8) : Nat → List UInt32
  | 0 => []
  | t + 1 =>
      let w := words block t
      let old := fun k => w.getD (t - k) 0
      w ++ [if t < 16 then wordAt block t
        else rotl 1 (old 3 ^^^ old 8 ^^^ old 14 ^^^ old 16)]

/-- `W_t`. -/
def schedule (block : List UInt8) (t : Nat) : UInt32 :=
  (words block (t + 1)).getD t 0

/-- One round on the working variables `a`, …, `e`. -/
def round (w : Nat → UInt32) (v : Hash) (t : Nat) : Hash :=
  { h0 := rotl 5 v.h0 + fT t v.h1 v.h2 v.h3 + v.h4 + kT t + w t
    h1 := v.h0
    h2 := rotl 30 v.h1
    h3 := v.h2
    h4 := v.h3 }

/-- The computation of the next chaining value. -/
def compress (h : Hash) (block : List UInt8) : Hash :=
  let w := fun t => (words block 80).getD t 0
  let v := (List.range 80).foldl (round w) h
  ⟨h.h0 + v.h0, h.h1 + v.h1, h.h2 + v.h2, h.h3 + v.h3, h.h4 + v.h4⟩

/-- The five words of a chaining value, high bytes first. -/
def Hash.bytes (h : Hash) : List UInt8 :=
  [h.h0, h.h1, h.h2, h.h3, h.h4].flatMap fun x => beBytes 4 x.toNat

/-- SHA-1. -/
def sha1 (m : List UInt8) : List UInt8 :=
  (absorb compress 64 initial (pad m)).bytes

-- ===================================================== schedule lemmas

theorem words_length (block : List UInt8) (n : Nat) :
    (words block n).length = n := by
  induction n with
  | zero => rfl
  | succ n ih => rw [words, List.length_append, ih, List.length_singleton]

/-- Later words leave the earlier ones alone. -/
theorem words_getD {block : List UInt8} {t n : Nat} (h : t < n) :
    (words block n).getD t 0 = schedule block t := by
  induction n with
  | zero => omega
  | succ n ih =>
      by_cases heq : t = n
      · rw [heq]
        rfl
      · have hlt : t < (words block n).length := by
          rw [words_length]
          omega
        rw [words, List.getD_append _ _ _ _ hlt]
        exact ih (by omega)

/-- The last word of a prefix. -/
private theorem schedule_eq (block : List UInt8) (t : Nat) :
    schedule block t = if t < 16 then wordAt block t
      else rotl 1 ((words block t).getD (t - 3) 0
        ^^^ (words block t).getD (t - 8) 0
        ^^^ (words block t).getD (t - 14) 0
        ^^^ (words block t).getD (t - 16) 0) := by
  rw [schedule, words, List.getD_append_right _ _ _ _
    (Nat.le_of_eq (words_length block t)), words_length, Nat.sub_self]
  rfl

/-- The first sixteen words are the block's. -/
theorem schedule_of_lt {block : List UInt8} {t : Nat} (h : t < 16) :
    schedule block t = wordAt block t := by
  rw [schedule_eq, if_pos h]

/-- The others follow the recurrence. -/
theorem schedule_of_le {block : List UInt8} {t : Nat} (h : 16 ≤ t) :
    schedule block t = rotl 1 (schedule block (t - 3)
      ^^^ schedule block (t - 8) ^^^ schedule block (t - 14)
      ^^^ schedule block (t - 16)) := by
  rw [schedule_eq, if_neg (by omega), words_getD (by omega),
    words_getD (by omega), words_getD (by omega), words_getD (by omega)]

/-- The rounds may read the schedule word by word. -/
theorem compress_eq (h : Hash) (block : List UInt8) :
    compress h block
      = let v := (List.range 80).foldl (round (schedule block)) h
        ⟨h.h0 + v.h0, h.h1 + v.h1, h.h2 + v.h2, h.h3 + v.h3, h.h4 + v.h4⟩
    := by
  have hrounds : (List.range 80).foldl
      (round fun t => (words block 80).getD t 0) h
      = (List.range 80).foldl (round (schedule block)) h := by
    apply List.foldl_ext
    intro v t ht
    rw [round, round, words_getD (List.mem_range.1 ht)]
  rw [compress, hrounds]

end Fips180

end Rtw88
