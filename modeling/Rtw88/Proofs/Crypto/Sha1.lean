/-
The streaming SHA-1 of the driver is the one-shot SHA-1 of the standard,
however the message is cut.

`Fed c m` says what a context is after the message `m`: the chaining
value has absorbed the whole blocks of `m`, the front of the buffer is
what is left over, and the split counter is the bit length modulo `2 ^
64`. One update keeps it (`Fed.update`), whatever the block boundary or
the carry; the padding loop is a run of updates with a zero byte; the
last update completes `pad m`.

# Where the code is not the standard's text

- The counter is two words with a carry between them, and the code reads
  the place in the buffer off its low word (`place_eq`, `high_count`).
- Padding is an update with the byte 0x80, then updates with a zero byte
  until the counter's bits say that eight bytes are left (`mask_eq`); the
  standard appends one string.
- An update is a loop over an index with a first block that may be begun,
  whole blocks read from the data, and a rest (`updateLoop_spec`).

The compression of a block is unrolled in the source. That it is the
standard's is the matter of Proofs/Crypto/Transform.lean; here it is one
function.
-/
import Rtw88.Proofs.Crypto.Transform

namespace Rtw88

open Fips180

-- ================================================================== words

/-- The bytes of a word. -/
theorem be32_eq (x : UInt32) : be32 x = beBytes 4 x.toNat := by
  have hbyte : ∀ s : UInt32, s.toNat < 32 →
      (x >>> s).toUInt8 = UInt8.ofNat (x.toNat / 2 ^ s.toNat) := by
    intro s hs
    apply UInt8.toNat_inj.1
    rw [UInt32.toNat_toUInt8, UInt32.toNat_shiftRight,
      Nat.mod_eq_of_lt hs, Nat.shiftRight_eq_div_pow, UInt8.toNat_ofNat']
  have h0 : x.toUInt8 = UInt8.ofNat (x.toNat / 1) := by
    apply UInt8.toNat_inj.1
    rw [UInt32.toNat_toUInt8, UInt8.toNat_ofNat', Nat.div_one]
  show [_, _, _, _] = [UInt8.ofNat _, UInt8.ofNat _, UInt8.ofNat _,
    UInt8.ofNat _]
  rw [hbyte 24 (by decide), hbyte 16 (by decide), hbyte 8 (by decide), h0]
  rfl

/-- The two words of the counter, high word first, are the bytes of the
number they stand for. -/
theorem be32_pair {hi lo : UInt32} {n : Nat}
    (hlo : lo.toNat = n % 2 ^ 32) (hhi : hi.toNat = n / 2 ^ 32 % 2 ^ 32) :
    be32 hi ++ be32 lo = beBytes 8 n := by
  rw [be32_eq, be32_eq, hlo, hhi]
  show [UInt8.ofNat _, UInt8.ofNat _, UInt8.ofNat _, UInt8.ofNat _,
    UInt8.ofNat _, UInt8.ofNat _, UInt8.ofNat _, UInt8.ofNat _]
    = [UInt8.ofNat _, UInt8.ofNat _, UInt8.ofNat _, UInt8.ofNat _,
    UInt8.ofNat _, UInt8.ofNat _, UInt8.ofNat _, UInt8.ofNat _]
  have hbyte : ∀ {a b : Nat}, a % 256 = b % 256 →
      UInt8.ofNat a = UInt8.ofNat b := by
    intro a b h
    apply UInt8.toNat_inj.1
    rw [UInt8.toNat_ofNat', UInt8.toNat_ofNat']
    exact h
  simp only [List.cons.injEq, and_true, Nat.reduceSub, Nat.reducePow,
    Nat.div_one]
  refine ⟨hbyte ?_, hbyte ?_, hbyte ?_, hbyte ?_, hbyte ?_, hbyte ?_,
    hbyte ?_, hbyte ?_⟩ <;> omega

/-- The digest, as bytes of the chaining value. -/
theorem digest_eq (s : ShaState) : s.digest.toList = s.hash.bytes := by
  show be32 s.h0 ++ be32 s.h1 ++ be32 s.h2 ++ be32 s.h3 ++ be32 s.h4 = _
  simp only [be32_eq, Hash.bytes, ShaState.hash, List.flatMap_cons,
    List.flatMap_nil, List.append_nil, List.append_assoc]

-- ================================================================ counters

/-- The place in the buffer that the counter tells. -/
private theorem place_eq {c : UInt32} {n : Nat}
    (h : c.toNat = 8 * n % 2 ^ 32) :
    ((c >>> 3) &&& 63).toNat = n % 64 := by
  have hand : ∀ k : Nat, k &&& 63 = k % 64 := fun k =>
    Nat.and_two_pow_sub_one_eq_mod k 6
  have hshift : (c >>> 3).toNat = c.toNat / 8 := by
    rw [UInt32.toNat_shiftRight, Nat.shiftRight_eq_div_pow]
    rfl
  rw [UInt32.toNat_and, hshift, h]
  show _ &&& 63 = _
  rw [hand]
  omega

/-- It is a place in the buffer. -/
private theorem place_lt (c : UInt32) : ((c >>> 3) &&& 63).toNat < 64 := by
  have hle : ((c >>> 3) &&& 63).toNat ≤ 63 := by
    rw [UInt32.toNat_and]
    exact Nat.and_le_right
  omega

/-- The bits of the counter that the padding loop looks at. -/
private theorem mask_eq (c : UInt32) :
    (c &&& 504).toNat = 8 * (c.toNat / 8 % 64) := by
  have hand : ∀ k : Nat, k &&& 63 = k % 64 := fun k =>
    Nat.and_two_pow_sub_one_eq_mod k 6
  have hbits : c.toNat &&& 504 = (c.toNat / 8 &&& 63) * 8 := by
    apply Nat.eq_of_testBit_eq
    intro i
    have h504 : Nat.testBit 504 i = (decide (3 ≤ i) && Nat.testBit 63 (i - 3))
        := Nat.testBit_shiftLeft (x := 63) (i := 3) (j := i)
    have hmul : ∀ k : Nat, k * 8 = k <<< 3 := fun k =>
      (Nat.shiftLeft_eq k 3).symm
    have hdiv : c.toNat / 8 = c.toNat >>> 3 :=
      (Nat.shiftRight_eq_div_pow _ 3).symm
    rw [Nat.testBit_and, h504, hmul, Nat.testBit_shiftLeft,
      Nat.testBit_and, hdiv, Nat.testBit_shiftRight]
    by_cases h3 : 3 ≤ i
    · rw [Nat.add_sub_of_le h3]
      simp [h3]
    · simp [h3]
  rw [UInt32.toNat_and]
  show _ &&& 504 = _
  rw [hbits, hand, Nat.mul_comm]

/-- The low word of the counter after `d` more bytes, … -/
private theorem low_count {c : UInt32} {n d : Nat} (hd : d < 2 ^ 32)
    (h : c.toNat = 8 * n % 2 ^ 32) :
    (c + (UInt32.ofNat d <<< 3)).toNat = 8 * (n + d) % 2 ^ 32 := by
  have hshift : (UInt32.ofNat d <<< 3).toNat = d * 8 % 2 ^ 32 := by
    rw [UInt32.toNat_shiftLeft, UInt32.toNat_ofNat_of_lt' hd,
      Nat.shiftLeft_eq]
    rfl
  rw [UInt32.toNat_add, hshift, h]
  omega

/-- … and the high word, with the carry. -/
private theorem high_count {c₀ c₁ : UInt32} {n d : Nat} (hd : d < 2 ^ 32)
    (h₀ : c₀.toNat = 8 * n % 2 ^ 32)
    (h₁ : c₁.toNat = 8 * n / 2 ^ 32 % 2 ^ 32) :
    (c₁ + (if c₀ + (UInt32.ofNat d <<< 3) < c₀ then (1 : UInt32) else 0)
        + (UInt32.ofNat d >>> 29)).toNat
      = 8 * (n + d) / 2 ^ 32 % 2 ^ 32 := by
  have hshift : (UInt32.ofNat d >>> 29).toNat = d / 2 ^ 29 := by
    rw [UInt32.toNat_shiftRight, UInt32.toNat_ofNat_of_lt' hd,
      Nat.shiftRight_eq_div_pow]
    rfl
  have hlow := low_count hd h₀
  have hlt : c₀ + (UInt32.ofNat d <<< 3) < c₀
      ↔ 8 * (n + d) % 2 ^ 32 < 8 * n % 2 ^ 32 := by
    rw [UInt32.lt_iff_toNat_lt, hlow, h₀]
  have hone : (1 : UInt32).toNat = 1 := rfl
  have hzero : (0 : UInt32).toNat = 0 := rfl
  rw [UInt32.toNat_add, UInt32.toNat_add, hshift, h₁]
  by_cases hcarry : 8 * (n + d) % 2 ^ 32 < 8 * n % 2 ^ 32
  · rw [if_pos (hlt.2 hcarry), hone]
    omega
  · rw [if_neg (fun h => hcarry (hlt.1 h)), hzero]
    omega

-- ================================================================== blocks

/-- The block loop absorbs the whole blocks and leaves the rest. -/
theorem sha1Blocks_spec {k : Nat} {d : List UInt8} (s : ShaState)
    (h : d.length ≤ k) :
    (sha1Blocks k s d).1.hash = absorb compress 64 s.hash d
      ∧ (sha1Blocks k s d).2 = leftover 64 d := by
  induction k generalizing s d with
  | zero =>
      have hlt : d.length < 64 := by omega
      rw [absorb_short hlt, leftover_short hlt]
      exact ⟨rfl, rfl⟩
  | succ k ih =>
      unfold sha1Blocks
      by_cases hlen : 63 < d.length
      · have htake : (d.take 64).length = 64 := by
          rw [List.length_take]
          omega
        have hdrop : (d.drop 64).length ≤ k := by
          rw [List.length_drop]
          omega
        obtain ⟨hhash, hrest⟩ :=
          ih (kernSha1Transform s (d.take 64)) hdrop
        have hcut := List.take_append_drop 64 d
        rw [if_pos hlen, hhash, hrest, kernSha1Transform_hash,
          ← absorb_block (by decide) htake,
          ← leftover_block (by decide) htake, hcut]
        exact ⟨rfl, rfl⟩
      · rw [if_neg hlen, absorb_short (by omega),
          leftover_short (by omega)]
        exact ⟨rfl, rfl⟩

-- ================================================================ contexts

/-- What a context is after the message `m`. -/
structure Fed (c : KernSha1Ctx) (m : List UInt8) : Prop where
  hash : c.state.hash = absorb compress 64 initial m
  size : c.buffer.length = 64
  front : c.buffer.take (m.length % 64) = leftover 64 m
  low : c.count0.toNat = 8 * m.length % 2 ^ 32
  high : c.count1.toNat = 8 * m.length / 2 ^ 32 % 2 ^ 32

theorem fed_init : Fed kernSha1Init [] :=
  ⟨rfl, rfl, rfl, rfl, rfl⟩

/-- A string put behind what is left over, in the buffer. -/
private theorem front_splice {buf l d : List UInt8} {j : Nat}
    (hj : j ≤ buf.length) (hfront : buf.take j = l) :
    (splice buf j d).take (j + d.length) = l ++ d := by
  rw [take_splice hj, hfront]

/-- Whether the update completes a block. -/
private theorem completes_iff {j len : UInt32}
    (h : j.toNat + len.toNat < 2 ^ 32) :
    63 < j + len ↔ 64 ≤ j.toNat + len.toNat := by
  rw [UInt32.lt_iff_toNat_lt, UInt32.toNat_add, Nat.mod_eq_of_lt h]
  show 63 < _ ↔ _
  omega

/-- One update, whatever boundary it crosses, while the place in the
buffer and the length add up to a 32-bit number. -/
theorem Fed.update {c : KernSha1Ctx} {m d : List UInt8} (h : Fed c m)
    (hd : m.length % 64 + d.length < 2 ^ 32) :
    Fed (kernSha1Update c d) (m ++ d) := by
  have hplace := place_eq h.low
  have hlen : (UInt32.ofNat d.length).toNat = d.length :=
    UInt32.toNat_ofNat_of_lt' (by
      show _ < 2 ^ 32
      omega)
  have hj : m.length % 64 < 64 := Nat.mod_lt _ (by decide)
  have hleft : (leftover 64 m).length = m.length % 64 := leftover_length
  have hsize := h.size
  have hfull := @completes_iff ((c.count0 >>> 3) &&& 63)
    (UInt32.ofNat d.length) (by omega)
  rw [hplace, hlen] at hfull
  have hlow := low_count (d := d.length) (by omega) h.low
  have hhigh := high_count (d := d.length) (by omega) h.low h.high
  have htotal : (m ++ d).length = m.length + d.length :=
    List.length_append
  unfold kernSha1Update
  simp only [hplace]
  by_cases hblock : 64 ≤ m.length % 64 + d.length
  · -- the block in the buffer is completed, then come the whole ones
    have hi : (64 - ((c.count0 >>> 3) &&& 63).toNat) = 64 - m.length % 64 :=
      by rw [hplace]
    have htake : (d.take (64 - m.length % 64)).length
        = 64 - m.length % 64 := by
      rw [List.length_take]
      omega
    have hbuf : splice c.buffer (m.length % 64)
        (d.take (64 - m.length % 64))
        = leftover 64 m ++ d.take (64 - m.length % 64) := by
      rw [← h.front, splice, htake, List.drop_eq_nil_of_le (by omega),
        List.append_nil]
    have hone : (leftover 64 m ++ d.take (64 - m.length % 64)).length = 64 :=
      by
        rw [List.length_append, hleft, htake]
        omega
    have hcut : leftover 64 m ++ d
        = (leftover 64 m ++ d.take (64 - m.length % 64))
          ++ d.drop (64 - m.length % 64) := by
      rw [List.append_assoc, List.take_append_drop]
    obtain ⟨hhash, hrest⟩ := sha1Blocks_spec (k := d.length)
      (d := d.drop (64 - m.length % 64))
      (kernSha1Transform c.state (leftover 64 m
        ++ d.take (64 - m.length % 64)))
      (by
        rw [List.length_drop]
        omega)
    have habsorb : absorb compress 64 initial (m ++ d)
        = absorb compress 64 (compress (absorb compress 64 initial m)
            (leftover 64 m ++ d.take (64 - m.length % 64)))
          (d.drop (64 - m.length % 64)) := by
      rw [absorb_append (by decide), hcut, absorb_block (by decide) hone]
    have hkeep : leftover 64 (m ++ d)
        = leftover 64 (d.drop (64 - m.length % 64)) := by
      rw [leftover_append (by decide), hcut,
        leftover_block (by decide) hone]
    have hlast : (leftover 64 (m ++ d)).length = (m ++ d).length % 64 :=
      leftover_length
    rw [if_pos (hfull.2 hblock), hbuf]
    constructor
    · show (sha1Blocks _ _ _).1.hash = _
      rw [hhash, kernSha1Transform_hash, h.hash, habsorb]
    · show (splice _ 0 (sha1Blocks _ _ _).2).length = 64
      rw [hrest, ← hkeep, splice_length, hone]
      rw [hlast, hone]
      omega
    · show (splice _ 0 (sha1Blocks _ _ _).2).take _ = _
      rw [hrest, ← hkeep, ← hlast, ← Nat.zero_add (leftover 64 _).length]
      exact front_splice (l := []) (Nat.zero_le _) rfl
    · rw [htotal]
      exact hlow
    · rw [htotal]
      exact hhigh
  · -- everything fits behind what is there
    have hshort : (leftover 64 m ++ d).length < 64 := by
      rw [List.length_append, hleft]
      omega
    have hmod : (m ++ d).length % 64 = m.length % 64 + d.length := by
      rw [htotal]
      omega
    rw [if_neg (fun hc => hblock (hfull.1 hc))]
    constructor
    · show c.state.hash = _
      rw [absorb_append (by decide), absorb_short hshort, h.hash]
    · show (splice c.buffer _ d).length = 64
      rw [splice_length (by omega), h.size]
    · show (splice c.buffer _ d).take _ = _
      rw [hmod, leftover_append (by decide), leftover_short hshort]
      exact front_splice (by omega) h.front
    · rw [htotal]
      exact hlow
    · rw [htotal]
      exact hhigh

/-- Any number of updates. -/
theorem Fed.updates {c : KernSha1Ctx} {m : List UInt8}
    {chunks : List (List UInt8)} (h : Fed c m)
    (hd : ∀ d ∈ chunks, d.length < 2 ^ 32 - 64) :
    Fed (chunks.foldl kernSha1Update c) (m ++ chunks.flatten) := by
  induction chunks generalizing c m with
  | nil =>
      rw [List.flatten_nil, List.append_nil]
      exact h
  | cons d chunks ih =>
      rw [List.flatten_cons, ← List.append_assoc, List.foldl_cons]
      have hlt : d.length < 2 ^ 32 - 64 := hd d List.mem_cons_self
      exact ih (h.update (by omega))
        (fun e he => hd e (List.mem_cons_of_mem _ he))

-- ================================================================= padding

/-- The padding loop: zero bytes up to the length's place. -/
theorem Fed.pad {c : KernSha1Ctx} {m : List UInt8} {k : Nat} (h : Fed c m)
    (hk : (56 + 64 - m.length % 64) % 64 ≤ k) :
    Fed (sha1Pad k c)
      (m ++ List.replicate ((56 + 64 - m.length % 64) % 64) 0) := by
  induction k generalizing c m with
  | zero =>
      rw [Nat.le_zero.1 hk, List.replicate_zero, List.append_nil]
      exact h
  | succ k ih =>
      have hstop : c.count0 &&& 504 = 448 ↔ m.length % 64 = 56 := by
        rw [← UInt32.toNat_inj, mask_eq, h.low]
        show _ = 448 ↔ _
        omega
      unfold sha1Pad
      by_cases hend : m.length % 64 = 56
      · rw [if_neg (fun hne => hne (hstop.2 hend)), hend, List.replicate_zero,
          List.append_nil]
        exact h
      · have hmore : (56 + 64 - m.length % 64) % 64
            = (56 + 64 - (m ++ [(0 : UInt8)]).length % 64) % 64 + 1 := by
          rw [List.length_append, List.length_singleton]
          omega
        have hstep := ih (h.update (d := [0]) (by simp; omega)) (by omega)
        rw [if_pos (fun heq => hend (hstop.1 heq)), hmore,
          List.replicate_succ, List.append_cons]
        exact hstep

/-- Finishing a context gives the digest of its message. -/
theorem Fed.final {c : KernSha1Ctx} {m : List UInt8} (h : Fed c m) :
    (kernSha1Final c).toList = sha1 m := by
  have hone := h.update (d := [0x80]) (by simp; omega)
  have hpad := hone.pad (k := 64) (by omega)
  have hlen : be32 c.count1 ++ be32 c.count0 = beBytes 8 (8 * m.length) :=
    be32_pair h.low h.high
  have hzeros : (56 + 64 - (m ++ [(0x80 : UInt8)]).length % 64) % 64
      = padZeros m.length := by
    rw [padZeros, List.length_append, List.length_singleton]
    omega
  have hlast := hpad.update (d := be32 c.count1 ++ be32 c.count0)
    (by
      show _ + 8 < _
      omega)
  have hmsg : m ++ [0x80] ++ List.replicate (padZeros m.length) 0
      ++ beBytes 8 (8 * m.length) = Fips180.pad m := by
    rw [Fips180.pad, padding]
    simp only [List.append_assoc, List.cons_append, List.nil_append]
  rw [hzeros, hlen, hmsg] at hlast
  show (ShaState.digest _).toList = _
  rw [digest_eq, hlen, sha1, ← hlast.hash]

-- ============================================= the update as it is written

/-- The indexed loop is the loop over what is left of the data. The index
stays a block boundary of the message, so `i + 63` does not wrap. -/
private theorem updateLoop_spec {data : List UInt8} {len : UInt32} {j : Nat}
    (hlen : j + len.toNat < 2 ^ 32) (hdata : len.toNat ≤ data.length)
    (turns : Nat) {k : Nat} {i : UInt32} (s : ShaState) (hi : i.toNat ≤ len.toNat)
    (hij : (i.toNat + j) % 64 = 0)
    (hturns : len.toNat < i.toNat + 64 * turns)
    (hk : len.toNat - i.toNat ≤ k) :
    ∃ i', updateLoop data len turns i s
        = some (i', (sha1Blocks k s
            ((data.take len.toNat).drop i.toNat)).1)
      ∧ i'.toNat ≤ len.toNat
      ∧ (sha1Blocks k s ((data.take len.toNat).drop i.toNat)).2
        = (data.take len.toNat).drop i'.toNat := by
  have hrest : ∀ n, ((data.take len.toNat).drop n).length
      = len.toNat - n := by
    intro n
    rw [List.length_drop, List.length_take, Nat.min_eq_left hdata]
  induction turns generalizing i s k with
  | zero => omega
  | succ turns ih =>
      have hadd : (i + 63).toNat = i.toNat + 63 := by
        rw [UInt32.toNat_add]
        exact Nat.mod_eq_of_lt (by show _ + 63 < _; omega)
      have hguard : i + 63 < len ↔ i.toNat + 63 < len.toNat := by
        rw [UInt32.lt_iff_toNat_lt, hadd]
      unfold updateLoop
      by_cases hblock : i.toNat + 63 < len.toNat
      · have hstep : (i + 64).toNat = i.toNat + 64 := by
          rw [UInt32.toNat_add]
          exact Nat.mod_eq_of_lt (by show _ + 64 < _; omega)
        obtain ⟨k, rfl⟩ : ∃ k', k = k' + 1 := ⟨k - 1, by omega⟩
        have htake : (data.drop i.toNat).take 64
            = ((data.take len.toNat).drop i.toNat).take 64 := by
          rw [List.drop_take, List.take_take, Nat.min_eq_left (by omega)]
        have hdrop : ((data.take len.toNat).drop i.toNat).drop 64
            = (data.take len.toNat).drop (i + 64).toNat := by
          rw [List.drop_drop, hstep]
        rw [if_pos (hguard.2 hblock), kernSha1TransformCalls_eq, htake]
        unfold sha1Blocks
        rw [if_pos (by rw [hrest]; omega), hdrop]
        exact ih (k := k) _ (by omega) (by omega) (by omega) (by omega)
      · have hdone : sha1Blocks k s ((data.take len.toNat).drop i.toNat)
            = (s, (data.take len.toNat).drop i.toNat) := by
          cases k with
          | zero => rfl
          | succ k =>
              unfold sha1Blocks
              rw [if_neg (by rw [hrest]; omega)]
        rw [if_neg (fun h => hblock (hguard.1 h)), hdone]
        exact ⟨i, rfl, hi, rfl⟩

/-- The update of the source, on the first `len` bytes behind a pointer,
is the update with these bytes. -/
theorem kernSha1UpdateAt_eq {c : KernSha1Ctx} {data : List UInt8}
    {len : UInt32} (hdata : len.toNat ≤ data.length)
    (hlen : ((c.count0 >>> 3) &&& 63).toNat + len.toNat < 2 ^ 32) :
    kernSha1UpdateAt c data len
      = some (kernSha1Update c (data.take len.toNat)) := by
  have hj := place_lt c.count0
  have htlen : (data.take len.toNat).length = len.toNat := by
    rw [List.length_take, Nat.min_eq_left hdata]
  have hof : UInt32.ofNat (data.take len.toNat).length = len := by
    rw [htlen, UInt32.ofNat_toNat]
  have hcarry : (if c.count0 + (len <<< 3) < c.count0
      then c.count1 + 1 else c.count1)
      = c.count1 + (if c.count0 + (len <<< 3) < c.count0 then 1 else 0) := by
    split
    · rfl
    · exact (UInt32.add_zero _).symm
  have hfull := completes_iff hlen
  unfold kernSha1UpdateAt kernSha1Update
  simp only [hof, hcarry, gt_iff_lt]
  by_cases hblock : 64 ≤ ((c.count0 >>> 3) &&& 63).toNat + len.toNat
  · have hi : ((64 : UInt32) - ((c.count0 >>> 3) &&& 63)).toNat
        = 64 - ((c.count0 >>> 3) &&& 63).toNat := by
      have hle : (c.count0 >>> 3) &&& 63 ≤ (64 : UInt32) := by
        rw [UInt32.le_iff_toNat_le]
        exact Nat.le_of_lt hj
      rw [UInt32.toNat_sub_of_le _ _ hle]
      rfl
    have htake : data.take (64 - ((c.count0 >>> 3) &&& 63).toNat)
        = (data.take len.toNat).take
          (64 - ((c.count0 >>> 3) &&& 63).toNat) := by
      rw [List.take_take, Nat.min_eq_left (by omega)]
    obtain ⟨i', hloop, hle, hrest⟩ := updateLoop_spec hlen hdata len.toNat
      (k := (data.take len.toNat).length)
      (i := (64 : UInt32) - ((c.count0 >>> 3) &&& 63))
      (kernSha1Transform c.state (splice c.buffer
        ((c.count0 >>> 3) &&& 63).toNat
        ((data.take len.toNat).take
          (64 - ((c.count0 >>> 3) &&& 63).toNat))))
      (by omega) (by omega) (by omega) (by omega)
    rw [hi] at hloop hrest
    have hcopy : (data.drop i'.toNat).take (len - i').toNat
        = (data.take len.toNat).drop i'.toNat := by
      rw [UInt32.toNat_sub_of_le _ _ (UInt32.le_iff_toNat_le.2 hle),
        List.drop_take]
    rw [if_pos (hfull.2 hblock), if_pos (hfull.2 hblock), hi, htake,
      kernSha1TransformCalls_eq, hloop]
    show some _ = some _
    rw [hcopy, hrest]
    rfl
  · rw [if_neg (fun h => hblock (hfull.1 h)),
      if_neg (fun h => hblock (hfull.1 h))]
    show some _ = some _
    rw [UInt32.sub_zero]
    rfl

/-- One call with a whole string. -/
theorem Fed.updateAt {c : KernSha1Ctx} {m d : List UInt8} (h : Fed c m)
    (hd : m.length % 64 + d.length < 2 ^ 32) :
    kernSha1UpdateAt c d (UInt32.ofNat d.length)
      = some (kernSha1Update c d) := by
  have hplace := place_eq h.low
  have hlen : (UInt32.ofNat d.length).toNat = d.length :=
    UInt32.toNat_ofNat_of_lt' (by
      show _ < 2 ^ 32
      omega)
  rw [kernSha1UpdateAt_eq (by omega) (by omega), hlen, List.take_length]

/-- Successive calls, each with a whole chunk. -/
private theorem Fed.updatesAt {c : KernSha1Ctx} {m : List UInt8}
    {chunks : List (List UInt8)} (h : Fed c m)
    (hd : ∀ d ∈ chunks, d.length < 2 ^ 32 - 64) :
    chunks.foldlM (fun c d => kernSha1UpdateAt c d (UInt32.ofNat d.length)) c
      = some (chunks.foldl kernSha1Update c) := by
  induction chunks generalizing c m with
  | nil => rfl
  | cons d chunks ih =>
      have hlt : d.length < 2 ^ 32 - 64 := hd d List.mem_cons_self
      rw [List.foldlM_cons, h.updateAt (by omega), List.foldl_cons]
      exact ih (h.update (by omega))
        (fun e he => hd e (List.mem_cons_of_mem _ he))

-- ============================================================ every chunking

/-- SHA-1 is right for every message and every way of cutting it: the
unrolled transform is the compression function on every block, the split
counter is the length in bits, and the digest is that of the
concatenation. -/
theorem sha1_every_chunking :
    (∀ (s : ShaState) (block : List UInt8),
      (kernSha1TransformCalls s block).hash = compress s.hash block)
    ∧ ∀ chunks : List (List UInt8),
      (∀ d ∈ chunks, d.length < 2 ^ 32 - 64) →
      chunks.flatten.length < 2 ^ 61 →
      ∃ c, chunks.foldlM
          (fun c d => kernSha1UpdateAt c d (UInt32.ofNat d.length))
          kernSha1Init = some c
        ∧ c.count0.toNat + 2 ^ 32 * c.count1.toNat
          = 8 * chunks.flatten.length
        ∧ (kernSha1Final c).toList = sha1 chunks.flatten := by
  constructor
  · intro s block
    rw [kernSha1TransformCalls_eq]
    exact kernSha1Transform_hash s block
  · intro chunks hd htotal
    have hfed := fed_init.updates hd
    rw [List.nil_append] at hfed
    refine ⟨_, fed_init.updatesAt hd, ?_, hfed.final⟩
    rw [hfed.low, hfed.high]
    omega

/-- "abc", in three calls. -/
theorem sha1_three_chunks :
    ∃ c, ([[0x61], [], [0x62, 0x63]] : List (List UInt8)).foldlM
        (fun c d => kernSha1UpdateAt c d (UInt32.ofNat d.length))
        kernSha1Init = some c
      ∧ (kernSha1Final c).toList
        = [0xa9, 0x99, 0x3e, 0x36, 0x47, 0x06, 0x81, 0x6a, 0xba, 0x3e,
           0x25, 0x71, 0x78, 0x50, 0xc2, 0x6c, 0x9c, 0xd0, 0xd8, 0x9d] := by
  obtain ⟨c, hc, -, hdigest⟩ := sha1_every_chunking.2
    [[0x61], [], [0x62, 0x63]] (by decide) (by decide)
  exact ⟨c, hc, hdigest.trans (by decide +kernel)⟩

end Rtw88
