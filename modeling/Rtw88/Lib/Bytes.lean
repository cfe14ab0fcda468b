/-
Byte strings: the C idioms a driver reads and writes memory with, over
lists of bytes.

- `peek`/`grab`: one byte, and a fixed-size copy, out of a buffer. Both
  are total: past the end they read zero, so a caller that must not run
  off a buffer says so with a length fact of its own.
- `splice`: overwrite a range in place (`memcpy` into the middle).
- `le16At`/`be16At` and `le16`/`be16`: two-byte integers in both orders;
  `le32At`/`le32`: words, low byte first.
- `beBytes`/`beVal`: numbers of any width, high byte first.
- `ripple`: the little-endian "add one, carry while the byte wrapped"
  loop, and its arithmetic meaning `leVal_ripple`.

Nothing here names a protocol: the module is lists of bytes and
arithmetic only.
-/
import Mathlib.Data.Vector.Basic
import Mathlib.Tactic.Ring

namespace Rtw88

-- ============================================================ buffers

/-- A byte string whose length is part of its type. -/
abbrev Bytes (n : Nat) := List.Vector UInt8 n

/-- `n` zero bytes: what `memset(p, 0, n)` leaves. -/
def zeros (n : Nat) : Bytes n := List.Vector.replicate n 0

/-- The byte at offset `i`; zero past the end. -/
def peek (d : List UInt8) (i : Nat) : UInt8 := d.getD i 0

/-- `n` bytes copied out of `d` from offset `off`. -/
def grab (d : List UInt8) (off n : Nat) : Bytes n :=
  ⟨(List.range n).map fun i => peek d (off + i), by simp⟩

/-- `bs` copied over `d` from offset `off`. -/
def splice (d : List UInt8) (off : Nat) (bs : List UInt8) : List UInt8 :=
  d.take off ++ bs ++ d.drop (off + bs.length)

@[simp] theorem zeros_toList (n : Nat) :
    (zeros n).toList = List.replicate n 0 := rfl

/-- The bytes grabbed, one by one. -/
@[simp] theorem grab_toList (d : List UInt8) (off n : Nat) :
    (grab d off n).toList = (List.range n).map fun i => peek d (off + i) :=
  rfl

/-- A copy that stays inside the buffer is a slice of it. -/
theorem grab_eq_slice {d : List UInt8} {off n : Nat}
    (h : off + n ≤ d.length) :
    (grab d off n).toList = (d.drop off).take n := by
  apply List.ext_getElem
  · simp only [grab_toList, List.length_map, List.length_range,
      List.length_take, List.length_drop]
    omega
  · intro i h1 h2
    have hi : i < n := by simpa using h1
    have hlt : off + i < d.length := by omega
    simp [peek, List.getD_eq_getElem?_getD, List.getElem?_eq_getElem hlt]

/-- A splice inside the buffer keeps its length. -/
theorem splice_length {d bs : List UInt8} {off : Nat}
    (h : off + bs.length ≤ d.length) :
    (splice d off bs).length = d.length := by
  simp only [splice, List.length_append, List.length_take, List.length_drop]
  omega

/-- Bytes behind the spliced range are untouched. -/
theorem peek_splice_ge {d bs : List UInt8} {off i : Nat}
    (hi : off + bs.length ≤ i) (h : off + bs.length ≤ d.length) :
    peek (splice d off bs) i = peek d i := by
  have hpre : (d.take off ++ bs).length = off + bs.length := by
    simp
    omega
  rw [peek, peek, splice, List.getD_eq_getElem?_getD,
    List.getD_eq_getElem?_getD, List.getElem?_append_right (by omega), hpre,
    List.getElem?_drop]
  congr 2
  omega

/-- A byte of the front part. -/
theorem peek_append_left {as bs : List UInt8} {i : Nat}
    (h : i < as.length) : peek (as ++ bs) i = peek as i := by
  rw [peek, peek, List.getD_eq_getElem?_getD, List.getD_eq_getElem?_getD,
    List.getElem?_append_left h]

/-- A byte of the back part. -/
theorem peek_append_right {as bs : List UInt8} {i : Nat}
    (h : as.length ≤ i) : peek (as ++ bs) i = peek bs (i - as.length) := by
  rw [peek, peek, List.getD_eq_getElem?_getD, List.getD_eq_getElem?_getD,
    List.getElem?_append_right h]

/-- A splice at the front of what is written replaces its head. -/
theorem take_splice_head {d as bs rest : List UInt8}
    (h : d.take (as.length + rest.length) = as ++ rest)
    (hlen : bs.length = as.length) :
    (splice d 0 bs).take (as.length + rest.length) = bs ++ rest := by
  have hrest : (d.drop as.length).take rest.length = rest := by
    have hdrop := congrArg (List.drop as.length) h
    rwa [List.drop_take, Nat.add_sub_cancel_left, List.drop_left] at hdrop
  rw [splice, List.take_zero, List.nil_append, Nat.zero_add, hlen, ← hlen,
    List.take_length_add_append, hlen, hrest]

/-- Behind what stands at an offset stands the rest. -/
theorem drop_add_of_append {d bs rest : List UInt8} {off n : Nat}
    (h : d.drop off = bs ++ rest) (hn : bs.length = n) :
    d.drop (off + n) = rest := by
  rw [← List.drop_drop, h, ← hn, List.drop_left]

/-- The byte that stands at an offset. -/
theorem peek_of_drop {d rest : List UInt8} {off : Nat} {x : UInt8}
    (h : d.drop off = x :: rest) : peek d off = x := by
  have hget : d[off]? = some x := by
    rw [← List.head?_drop, h]
    rfl
  rw [peek, List.getD_eq_getElem?_getD, hget, Option.getD_some]

/-- A copy of what stands at an offset. -/
theorem grab_of_drop {d bs rest : List UInt8} {off n : Nat}
    (h : d.drop off = bs ++ rest) (hn : bs.length = n) :
    (grab d off n).toList = bs := by
  have hlen : d.length - off = n + rest.length := by
    rw [← List.length_drop, h, List.length_append, hn]
  by_cases hn0 : n = 0
  · rw [hn0] at hn
    rw [List.length_eq_zero_iff.1 hn, hn0]
    rfl
  · rw [grab_eq_slice (by omega), h, ← hn, List.take_left]

/-- A splice leaves what is in front of it, … -/
theorem splice_take {d bs : List UInt8} {off : Nat} (h : off ≤ d.length) :
    (splice d off bs).take off = d.take off := by
  have hlen : (d.take off).length = off := by
    rw [List.length_take, Nat.min_eq_left h]
  rw [splice, List.append_assoc, List.take_append_of_le_length (by omega),
    List.take_take, Nat.min_self]

/-- … and puts its bytes in front of the rest. -/
theorem splice_drop {d bs : List UInt8} {off : Nat} (h : off ≤ d.length) :
    (splice d off bs).drop off = bs ++ d.drop (off + bs.length) := by
  have hlen : (d.take off).length = off := by
    rw [List.length_take, Nat.min_eq_left h]
  rw [splice, List.append_assoc, List.drop_append_of_le_length (by omega),
    List.drop_of_length_le (by omega), List.nil_append]

/-- A splice extends what is written in front of it. -/
theorem take_splice {d bs : List UInt8} {off : Nat} (h : off ≤ d.length) :
    (splice d off bs).take (off + bs.length) = d.take off ++ bs := by
  have hlen : (d.take off ++ bs).length = off + bs.length := by
    rw [List.length_append, List.length_take, Nat.min_eq_left h]
  rw [splice, ← hlen, List.take_left]

-- ================================================== two-byte integers

/-- A two-byte integer, low byte first. -/
def le16At (d : List UInt8) (i : Nat) : UInt16 :=
  (peek d i).toUInt16 ||| ((peek d (i + 1)).toUInt16 <<< 8)

/-- A two-byte integer, high byte first. -/
def be16At (d : List UInt8) (i : Nat) : UInt16 :=
  ((peek d i).toUInt16 <<< 8) ||| (peek d (i + 1)).toUInt16

/-- The bytes of a two-byte integer, low byte first. -/
def le16 (x : UInt16) : List UInt8 := [x.toUInt8, (x >>> 8).toUInt8]

/-- The bytes of a two-byte integer, high byte first. -/
def be16 (x : UInt16) : List UInt8 := [(x >>> 8).toUInt8, x.toUInt8]

@[simp] theorem le16_length (x : UInt16) : (le16 x).length = 2 := rfl

@[simp] theorem be16_length (x : UInt16) : (be16 x).length = 2 := rfl

/-- A word inside the first part. -/
theorem le16At_append_left {as bs : List UInt8} {i : Nat}
    (h : i + 1 < as.length) : le16At (as ++ bs) i = le16At as i := by
  rw [le16At, le16At, peek_append_left (by omega), peek_append_left h]

theorem le16At_append_right {as bs : List UInt8} {i : Nat}
    (h : as.length ≤ i) :
    le16At (as ++ bs) i = le16At bs (i - as.length) := by
  rw [le16At, le16At, peek_append_right h, peek_append_right (by omega),
    Nat.sub_add_comm h]

/-- The two bytes of an integer, joined again. -/
private theorem join16 (x : UInt16) :
    x.toUInt8.toUInt16 ||| ((x >>> 8).toUInt8.toUInt16 <<< 8) = x := by
  apply UInt16.toNat_inj.1
  have hx := x.toNat_lt
  have hhigh : x.toNat / 256 % 256 * 256 % 65536
      = 2 ^ 8 * (x.toNat / 256) := by omega
  simp only [UInt16.toNat_or, UInt8.toNat_toUInt16, UInt16.toNat_toUInt8,
    UInt16.toNat_shiftLeft, UInt16.toNat_shiftRight, UInt16.reduceToNat,
    Nat.reduceMod, Nat.shiftRight_eq_div_pow, Nat.shiftLeft_eq,
    Nat.reducePow, hhigh]
  have hor : 2 ^ 8 * (x.toNat / 256) + x.toNat % 256
      = 2 ^ 8 * (x.toNat / 256) ||| x.toNat % 256 :=
    Nat.two_pow_add_eq_or_of_lt (by omega) _
  rw [Nat.or_comm]
  exact hor.symm.trans (by omega)

/-- What `le16` wrote is what `le16At` reads. -/
theorem le16At_le16 (x : UInt16) (rest : List UInt8) :
    le16At (le16 x ++ rest) 0 = x := join16 x

/-- What `be16` wrote is what `be16At` reads. -/
theorem be16At_be16 (x : UInt16) (rest : List UInt8) :
    be16At (be16 x ++ rest) 0 = x := by
  have h : be16At (be16 x ++ rest) 0
      = ((x >>> 8).toUInt8.toUInt16 <<< 8) ||| x.toUInt8.toUInt16 := rfl
  rw [h, UInt16.or_comm]
  exact join16 x

/-- And where it stands at an offset. -/
theorem le16_of_drop {d rest : List UInt8} {off : Nat} {x : UInt16}
    (h : d.drop off = le16 x ++ rest) : le16At d off = x := by
  have h₁ : d.drop (off + 1) = (x >>> 8).toUInt8 :: rest :=
    drop_add_of_append (show _ = [x.toUInt8] ++ _ from h) rfl
  rw [le16At, peek_of_drop h, peek_of_drop h₁]
  exact le16At_le16 x rest

/-- A word read back where it was written. -/
theorem be16At_of_drop {d rest : List UInt8} {off : Nat} {x : UInt16}
    (h : d.drop off = be16 x ++ rest) : be16At d off = x := by
  have h₁ : d.drop (off + 1) = x.toUInt8 :: rest :=
    drop_add_of_append (show _ = [(x >>> 8).toUInt8] ++ _ from h) rfl
  rw [be16At, peek_of_drop h, peek_of_drop h₁]
  exact be16At_be16 x rest

-- ================================================================ words

/-- A word as the little-endian host's `memcpy` reads it. -/
def le32At (d : List UInt8) (i : Nat) : UInt32 :=
  (peek d i).toUInt32 ||| ((peek d (i + 1)).toUInt32 <<< 8)
    ||| ((peek d (i + 2)).toUInt32 <<< 16)
    ||| ((peek d (i + 3)).toUInt32 <<< 24)

/-- The bytes of a word, low byte first. -/
def le32 (x : UInt32) : List UInt8 :=
  [x.toUInt8, (x >>> 8).toUInt8, (x >>> 16).toUInt8, (x >>> 24).toUInt8]

@[simp] theorem le32_length (x : UInt32) : (le32 x).length = 4 := rfl

/-- What `le32` wrote is what `le32At` reads. -/
theorem le32At_le32 (x : UInt32) (rest : List UInt8) :
    le32At (le32 x ++ rest) 0 = x := by
  show x.toUInt8.toUInt32 ||| ((x >>> 8).toUInt8.toUInt32 <<< 8)
    ||| ((x >>> 16).toUInt8.toUInt32 <<< 16)
    ||| ((x >>> 24).toUInt8.toUInt32 <<< 24) = x
  apply UInt32.toBitVec_inj.1
  apply BitVec.eq_of_getLsbD_eq
  intro i hi
  -- bit `i` comes from byte `i / 8`
  simp only [UInt32.toBitVec_or, UInt32.toBitVec_shiftLeft,
    UInt32.toBitVec_shiftRight, UInt8.toBitVec_toUInt32,
    UInt32.toBitVec_toUInt8, BitVec.getLsbD_or, BitVec.getLsbD_setWidth,
    UInt32.toBitVec_ofNat, BitVec.ofNat_eq_ofNat, BitVec.reduceMod,
    BitVec.ushiftRight_eq', BitVec.toNat_ofNat, Nat.reducePow,
    Nat.reduceMod, BitVec.shiftLeft_eq', BitVec.getLsbD_shiftLeft,
    BitVec.getLsbD_ushiftRight]
  grind

-- ==================================================== big-endian numbers

/-- `n` bytes of a number, the most significant first. -/
def beBytes (n v : Nat) : List UInt8 :=
  (List.range n).map fun i => UInt8.ofNat (v / 256 ^ (n - 1 - i))

@[simp] theorem beBytes_length (n v : Nat) : (beBytes n v).length = n := by
  simp [beBytes]

/-- The number a byte string spells, the most significant byte first. -/
def beVal : List UInt8 → Nat
  | [] => 0
  | b :: bs => b.toNat * 256 ^ bs.length + beVal bs

theorem beVal_lt (l : List UInt8) : beVal l < 256 ^ l.length := by
  induction l with
  | nil => simp [beVal]
  | cons b bs ih =>
      have hb : b.toNat + 1 ≤ 256 := b.toNat_lt
      rw [beVal, List.length_cons, pow_succ, Nat.mul_comm _ 256]
      calc b.toNat * 256 ^ bs.length + beVal bs
          < b.toNat * 256 ^ bs.length + 256 ^ bs.length :=
            Nat.add_lt_add_left ih _
        _ = (b.toNat + 1) * 256 ^ bs.length := by ring
        _ ≤ 256 * 256 ^ bs.length := Nat.mul_le_mul_right _ hb

/-- The leading digit decides. -/
theorem lead_lt {i j u v p : Nat} (hij : i < j) (hu : u < p) :
    i * p + u < j * p + v := by
  calc i * p + u < i * p + p := Nat.add_lt_add_left hu _
    _ = (i + 1) * p := by ring
    _ ≤ j * p := Nat.mul_le_mul_right _ hij
    _ ≤ j * p + v := Nat.le_add_right _ _

/-- The bytes of a string of known length are determined by the number
they spell. -/
theorem beVal_inj {a b : List UInt8} (hlen : a.length = b.length)
    (h : beVal a = beVal b) : a = b := by
  induction a generalizing b with
  | nil => exact (List.eq_nil_of_length_eq_zero hlen.symm).symm
  | cons x xs ih =>
      cases b with
      | nil => simp at hlen
      | cons y ys =>
          have hlen' : xs.length = ys.length := by simpa using hlen
          have hx := beVal_lt xs
          have hy := beVal_lt ys
          rw [beVal, beVal, hlen'] at h
          rw [hlen'] at hx
          have hxy : ¬ x.toNat < y.toNat := fun hlt => by
            have hless := lead_lt (v := beVal ys) hlt hx
            omega
          have hyx : ¬ y.toNat < x.toNat := fun hlt => by
            have hless := lead_lt (v := beVal xs) hlt hy
            omega
          have heq : x = y := UInt8.toNat_inj.1 (by omega)
          rw [heq] at h
          rw [heq, ih hlen' (by omega)]

-- ===================================================== ripple counters

/-- The number a byte string spells, low byte first. -/
def leVal : List UInt8 → Nat
  | [] => 0
  | b :: bs => b.toNat + 256 * leVal bs

/-- Add one to a little-endian counter, byte by byte: a byte that did
not wrap to zero ends the carry. -/
def ripple : List UInt8 → List UInt8
  | [] => []
  | b :: bs => if b + 1 ≠ 0 then (b + 1) :: bs else 0 :: ripple bs

@[simp] theorem ripple_length (l : List UInt8) :
    (ripple l).length = l.length := by
  induction l with
  | nil => rfl
  | cons b bs ih =>
      rw [ripple]
      split
      · rfl
      · rw [List.length_cons, List.length_cons, ih]

/-- A counter of `n` bytes spells a number below `256 ^ n`. -/
theorem leVal_lt (l : List UInt8) : leVal l < 256 ^ l.length := by
  induction l with
  | nil => simp [leVal]
  | cons b bs ih =>
      have hb : b.toNat < 256 := b.toNat_lt
      rw [leVal, List.length_cons, pow_succ]
      omega

/-- The ripple carry is addition of one, modulo the counter's size. -/
theorem leVal_ripple (l : List UInt8) :
    leVal (ripple l) = (leVal l + 1) % 256 ^ l.length := by
  induction l with
  | nil => simp [ripple, leVal]
  | cons b bs ih =>
      have hb : b.toNat < 256 := b.toNat_lt
      have hbs := leVal_lt bs
      have hsum : (b + 1).toNat = (b.toNat + 1) % 256 := by
        simp [UInt8.toNat_add]
      rw [ripple]
      split
      next hne =>
        -- the low byte absorbs the carry
        have hne' : (b + 1).toNat ≠ 0 := fun h =>
          hne (UInt8.toNat_inj.1 (by simpa using h))
        have hlt : b.toNat + 1 < 256 := by omega
        have hlow : leVal ((b + 1) :: bs) = leVal (b :: bs) + 1 := by
          rw [leVal, leVal, hsum, Nat.mod_eq_of_lt hlt]
          omega
        have hbound : leVal (b :: bs) + 1 < 256 ^ (b :: bs).length := by
          rw [leVal, List.length_cons, pow_succ]
          omega
        rw [hlow, Nat.mod_eq_of_lt hbound]
      next heq =>
        -- the low byte wrapped: the carry goes on
        have hz : (b + 1).toNat = 0 := by
          rw [not_not.1 heq]
          rfl
        have h255 : b.toNat = 255 := by omega
        have hval : leVal (b :: bs) + 1 = 256 * (leVal bs + 1) := by
          rw [leVal, h255]
          ring
        rw [hval, leVal, ih, List.length_cons, pow_succ, mul_comm (256 ^ _),
          Nat.mul_mod_mul_left]
        simp

/-- Short of the last value, the ripple carry is plain successor. -/
theorem leVal_ripple_of_lt {l : List UInt8}
    (h : leVal l + 1 < 256 ^ l.length) :
    leVal (ripple l) = leVal l + 1 := by
  rw [leVal_ripple, Nat.mod_eq_of_lt h]

/-- The bytes of a counter are determined by the number they spell. -/
theorem leVal_inj {a b : List UInt8} (hlen : a.length = b.length)
    (h : leVal a = leVal b) : a = b := by
  induction a generalizing b with
  | nil =>
      cases b with
      | nil => rfl
      | cons y ys => simp at hlen
  | cons x xs ih =>
      cases b with
      | nil => simp at hlen
      | cons y ys =>
          have hx : x.toNat < 256 := x.toNat_lt
          have hy : y.toNat < 256 := y.toNat_lt
          rw [leVal, leVal] at h
          have hhead : x = y := UInt8.toNat_inj.1 (by omega)
          have htail : leVal xs = leVal ys := by omega
          have hlen' : xs.length = ys.length := by simpa using hlen
          rw [hhead, ih hlen' htail]

end Rtw88
