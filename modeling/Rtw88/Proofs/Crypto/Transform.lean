/-
The unrolled transform computes the compression function of FIPS 180-4.

Two simulations, one round at a time:

- the 80 calls over the named registers against `sha1Round`, which hands
  the registers on under new names: after `i` calls the register that
  plays `v` is `regOf (4 * i)`, and the others follow it round the ring
  of five (`view_call`);
- `sha1Round` with its sixteen-word ring against the 80-word schedule:
  before round `i` the ring holds the schedule's words `i - 16` to
  `i - 1` and, while there is one, the raw words from `i` on (`RingAt`).

The mixing functions differ in spelling only (`mix_ch`, `mix_maj`), and
`blk0` swaps the bytes of a word the host loaded low byte first
(`blk0_word`).
-/
import Rtw88.Crypto.Sha1Source
import Rtw88.Lib.Fips180

namespace Rtw88

open Fips180

-- ========================================================= bits of words

/-- The choice of the source is that of the standard. -/
private theorem mix_ch (w x y : UInt32) :
    (w &&& (x ^^^ y)) ^^^ y = ch w x y := by
  unfold ch
  apply UInt32.toBitVec_inj.1
  apply BitVec.eq_of_getLsbD_eq
  intro i hi
  simp only [UInt32.toBitVec_xor, UInt32.toBitVec_and, UInt32.toBitVec_not,
    BitVec.getLsbD_xor, BitVec.getLsbD_and, BitVec.getLsbD_not, hi]
  cases w.toBitVec.getLsbD i <;> simp

/-- And so is its majority. -/
private theorem mix_maj (w x y : UInt32) :
    ((w ||| x) &&& y) ||| (w &&& x) = maj w x y := by
  unfold maj
  apply UInt32.toBitVec_inj.1
  apply BitVec.eq_of_getLsbD_eq
  intro i _
  simp only [UInt32.toBitVec_xor, UInt32.toBitVec_and, UInt32.toBitVec_or,
    BitVec.getLsbD_xor, BitVec.getLsbD_and, BitVec.getLsbD_or]
  cases w.toBitVec.getLsbD i <;> cases x.toBitVec.getLsbD i <;> simp

/-- Swapping the bytes of a word read low byte first gives the word read
high byte first. -/
private theorem swap_word (a b c d : UInt8) :
    (rol (a.toUInt32 ||| (b.toUInt32 <<< 8) ||| (c.toUInt32 <<< 16)
        ||| (d.toUInt32 <<< 24)) 24 &&& (0xFF00FF00 : UInt32))
      ||| (rol (a.toUInt32 ||| (b.toUInt32 <<< 8) ||| (c.toUInt32 <<< 16)
        ||| (d.toUInt32 <<< 24)) 8 &&& (0x00FF00FF : UInt32))
      = (a.toUInt32 <<< 24) ||| (b.toUInt32 <<< 16)
        ||| (c.toUInt32 <<< 8) ||| d.toUInt32 := by
  have hodd : ∀ i < 32,
      (0xFF00FF00#32).getLsbD i = decide (8 ≤ i % 16) := by decide
  have heven : ∀ i < 32,
      (0x00FF00FF#32).getLsbD i = decide (i % 16 < 8) := by decide
  have h24 : (32 - 24 : UInt32) = 8 := by decide
  have h8 : (32 - 8 : UInt32) = 24 := by decide
  unfold rol
  rw [h24, h8]
  apply UInt32.toBitVec_inj.1
  apply BitVec.eq_of_getLsbD_eq
  intro i hi
  simp only [UInt32.toBitVec_or, UInt32.toBitVec_and,
    UInt32.toBitVec_shiftLeft, UInt32.toBitVec_shiftRight,
    UInt8.toBitVec_toUInt32, UInt32.toBitVec_ofNat, BitVec.ofNat_eq_ofNat,
    BitVec.reduceMod, BitVec.ushiftRight_eq', BitVec.toNat_ofNat,
    Nat.reducePow, Nat.reduceMod, BitVec.shiftLeft_eq', BitVec.getLsbD_or,
    BitVec.getLsbD_and, BitVec.getLsbD_setWidth, BitVec.getLsbD_shiftLeft,
    BitVec.getLsbD_ushiftRight]
  rw [hodd i hi, heven i hi]
  -- bit `i` comes from one of the four bytes
  have hbyte : i < 8 ∨ 8 ≤ i ∧ i < 16 ∨ 16 ≤ i ∧ i < 24 ∨ 24 ≤ i := by
    omega
  grind

/-- `blk0` on a raw word. -/
private theorem blk0_word {block : List UInt8} {l : ShaBlock} {i : Nat}
    (h : l.at i = le32At block (4 * i)) :
    (rol (l.at i) 24 &&& 0xFF00FF00) ||| (rol (l.at i) 8 &&& 0x00FF00FF)
      = wordAt block i := by
  rw [h]
  exact swap_word _ _ _ _

-- ===================================================== the calls' registers

theorem ShaVars.get_put (s : ShaVars) (r q : ShaReg) (x : UInt32) :
    (s.put r x).get q = if q = r then x else s.get q := by
  cases r <;> cases q <;> rfl

@[simp] theorem ShaVars.put_l (s : ShaVars) (r : ShaReg) (x : UInt32) :
    (s.put r x).l = s.l := by
  cases r <;> rfl

/-- The registers in the order of their ring. -/
def regOf (k : Nat) : ShaReg :=
  match k % 5 with
  | 0 => .a
  | 1 => .b
  | 2 => .c
  | 3 => .d
  | _ => .e

/-- Once round the ring. -/
private theorem regOf_add_five (k : Nat) : regOf (k + 5) = regOf k := by
  rw [regOf, regOf, Nat.add_mod_right]

/-- Different places of the ring are different registers. -/
private theorem regOf_ne {j k : Nat} (h : j % 5 ≠ k % 5) :
    regOf j ≠ regOf k := by
  have hinj : ∀ m < 5, ∀ n < 5, m ≠ n → regOf m ≠ regOf n := by decide
  have hmod : ∀ k, regOf k = regOf (k % 5) := by
    intro k
    rw [regOf, regOf, Nat.mod_mod]
  rw [hmod j, hmod k]
  exact hinj _ (Nat.mod_lt _ (by decide)) _ (Nat.mod_lt _ (by decide)) h

/-- The macro of call `i`. -/
def macroOf (i : Nat) :
    ShaReg → ShaReg → ShaReg → ShaReg → ShaReg → Nat → ShaVars → ShaVars :=
  if i < 16 then r0 else if i < 20 then r1 else if i < 40 then r2
  else if i < 60 then r3 else r4

/-- Call `i`: its macro on the registers from `regOf (4 * i)` on. -/
def nthCall (i : Nat) : ShaVars → ShaVars :=
  macroOf i (regOf (4 * i)) (regOf (4 * i + 1)) (regOf (4 * i + 2))
    (regOf (4 * i + 3)) (regOf (4 * i + 4)) i

/-- The calls of the source are these. -/
private theorem calls_eq :
    kernSha1Calls = (List.range 80).map nthCall := rfl

/-- What the registers hold before call `i`, under the names of the
renaming round. -/
def ShaVars.view (s : ShaVars) (i : Nat) : ShaRegs :=
  { v := s.get (regOf (4 * i))
    w := s.get (regOf (4 * i + 1))
    x := s.get (regOf (4 * i + 2))
    y := s.get (regOf (4 * i + 3))
    z := s.get (regOf (4 * i + 4))
    l := s.l }

/-- One macro on five neighbours of the ring is one renaming round. -/
private theorem view_macro {f : UInt32 → UInt32 → UInt32 → UInt32}
    {load : ShaBlock → Nat → ShaBlock} {k : UInt32} {i : Nat}
    (hmix : ∀ w x y, shaMix i w x y = f w x y + k)
    (hload : ∀ l, load l i = if i < 16 then blk0 l i else blk l i)
    (s : ShaVars) :
    (shaMacro f load k (regOf (4 * i)) (regOf (4 * i + 1))
        (regOf (4 * i + 2)) (regOf (4 * i + 3)) (regOf (4 * i + 4)) i
        s).view (i + 1)
      = sha1Round (s.view i) i := by
  -- the names of the next round
  have hv : regOf (4 * (i + 1)) = regOf (4 * i + 4) := rfl
  have hw : regOf (4 * (i + 1) + 1) = regOf (4 * i) :=
    regOf_add_five (4 * i)
  have hx : regOf (4 * (i + 1) + 2) = regOf (4 * i + 1) :=
    regOf_add_five (4 * i + 1)
  have hy : regOf (4 * (i + 1) + 3) = regOf (4 * i + 2) :=
    regOf_add_five (4 * i + 2)
  have hz : regOf (4 * (i + 1) + 4) = regOf (4 * i + 3) :=
    regOf_add_five (4 * i + 3)
  have hne : ∀ m n, m < 5 → n < 5 → m ≠ n →
      regOf (4 * i + m) ≠ regOf (4 * i + n) := by
    intro m n hm hn h
    apply regOf_ne
    omega
  have hzw := hne 4 1 (by decide) (by decide) (by decide)
  have hvw := hne 0 1 (by decide) (by decide) (by decide)
  have hvz := hne 0 4 (by decide) (by decide) (by decide)
  have hwz := hne 1 4 (by decide) (by decide) (by decide)
  have hxw := hne 2 1 (by decide) (by decide) (by decide)
  have hxz := hne 2 4 (by decide) (by decide) (by decide)
  have hyw := hne 3 1 (by decide) (by decide) (by decide)
  have hyz := hne 3 4 (by decide) (by decide) (by decide)
  rw [Nat.add_zero] at hvw hvz
  have hget : ∀ (l : ShaBlock) (r : ShaReg),
      ({ s with l := l } : ShaVars).get r = s.get r := by
    intro l r
    cases r <;> rfl
  unfold ShaVars.view shaMacro sha1Round
  simp only [hv, hw, hx, hy, hz, ShaVars.get_put, ShaVars.put_l, hget,
    hzw, hvw, hvz, hwz, hxw, hxz, hyw, hyz, if_true, if_false, ← hload,
    hmix]
  congr 1
  ac_rfl

/-- One call is one renaming round. -/
private theorem view_call (s : ShaVars) {i : Nat} (hi : i < 80) :
    (nthCall i s).view (i + 1) = sha1Round (s.view i) i := by
  unfold nthCall macroOf
  by_cases h16 : i < 16
  · rw [if_pos h16]
    apply view_macro
    · intro w x y
      rw [shaMix, if_pos (by omega)]
    · intro l
      rw [if_pos h16]
  · rw [if_neg h16]
    have hload : ∀ l, blk l i = if i < 16 then blk0 l i else blk l i := by
      intro l
      rw [if_neg h16]
    by_cases h20 : i < 20
    · rw [if_pos h20]
      refine view_macro (fun w x y => ?_) hload s
      rw [shaMix, if_pos h20]
    rw [if_neg h20]
    by_cases h40 : i < 40
    · rw [if_pos h40]
      refine view_macro (fun w x y => ?_) hload s
      rw [shaMix, if_neg h20, if_pos h40]
    rw [if_neg h40]
    by_cases h60 : i < 60
    · rw [if_pos h60]
      refine view_macro (fun w x y => ?_) hload s
      rw [shaMix, if_neg h20, if_neg h40, if_pos h60]
    · rw [if_neg h60]
      refine view_macro (fun w x y => ?_) hload s
      rw [shaMix, if_neg h20, if_neg h40, if_neg h60]

/-- The calls, as a fold of the renaming round. -/
private theorem view_calls (s : ShaVars) {n : Nat} (hn : n ≤ 80) :
    ((List.range n).foldl (fun s i => nthCall i s) s).view n
      = (List.range n).foldl sha1Round (s.view 0) := by
  induction n with
  | zero => rfl
  | succ n ih =>
      rw [List.range_succ, List.foldl_append, List.foldl_append,
        ← ih (by omega)]
      exact view_call _ (by omega)

/-- The transform as written is the transform with renaming rounds. -/
theorem kernSha1TransformCalls_eq (s : ShaState) (buffer : List UInt8) :
    kernSha1TransformCalls s buffer = kernSha1Transform s buffer := by
  let s₀ : ShaVars :=
    { a := s.h0, b := s.h1, c := s.h2, d := s.h3, e := s.h4
      l := Vector.ofFn fun i => le32At buffer (4 * i.val) }
  have hview := view_calls s₀ (Nat.le_refl 80)
  have hcalls : kernSha1Calls.foldl (fun s call => call s) s₀
      = (List.range 80).foldl (fun s i => nthCall i s) s₀ := by
    rw [calls_eq, List.foldl_map]
  -- after 80 calls the names are back where they began
  have hlast : ∀ r : ShaVars, r.view 80 = ⟨r.a, r.b, r.c, r.d, r.e, r.l⟩ :=
    fun _ => rfl
  rw [hlast] at hview
  have hfirst : s₀.view 0 = ⟨s.h0, s.h1, s.h2, s.h3, s.h4, s₀.l⟩ := rfl
  rw [hfirst] at hview
  have hrename : kernSha1Transform s buffer
      = (let r := (List.range 80).foldl sha1Round
          ⟨s.h0, s.h1, s.h2, s.h3, s.h4, s₀.l⟩
        ⟨s.h0 + r.v, s.h1 + r.w, s.h2 + r.x, s.h3 + r.y, s.h4 + r.z⟩) :=
    rfl
  have hnamed : kernSha1TransformCalls s buffer
      = (let r := kernSha1Calls.foldl (fun s call => call s) s₀
        ⟨s.h0 + r.a, s.h1 + r.b, s.h2 + r.c, s.h3 + r.d, s.h4 + r.e⟩) :=
    rfl
  rw [hrename, hnamed, hcalls, ← hview]

-- ======================================================= the schedule ring

theorem ShaBlock.at_put (l : ShaBlock) (i k : Nat) (x : UInt32) :
    (l.put i x).at k = if k % 16 = i % 16 then x else l.at k := by
  have hi : i % 16 < 16 := Nat.mod_lt _ (by decide)
  have hk : k % 16 < 16 := Nat.mod_lt _ (by decide)
  show (l.set (i % 16) x hi)[k % 16] = if _ then x else l[k % 16]
  by_cases h : k % 16 = i % 16
  · rw [if_pos h]
    simp only [h]
    exact Vector.getElem_set_self hi
  · rw [if_neg h]
    exact Vector.getElem_set_ne hi hk (fun heq => h heq.symm)

/-- Places of the ring sixteen apart are one place. -/
private theorem ShaBlock.at_congr (l : ShaBlock) {i k : Nat}
    (h : i % 16 = k % 16) : l.at i = l.at k := by
  unfold ShaBlock.at
  simp only [h]

/-- The ring before round `i`: the last sixteen schedule words, and the
raw words that no round has come to. -/
def RingAt (block : List UInt8) (i : Nat) (l : ShaBlock) : Prop :=
  (∀ k, k < i → i ≤ k + 16 → l.at k = schedule block k)
    ∧ ∀ k, i ≤ k → k < 16 → l.at k = le32At block (4 * k)

/-- The ring of a round. -/
private def nextRing (l : ShaBlock) (i : Nat) : ShaBlock :=
  if i < 16 then blk0 l i else blk l i

/-- The word that a round puts at its place. -/
private theorem nextRing_at {block : List UInt8} {i : Nat} {l : ShaBlock}
    (h : RingAt block i l) : (nextRing l i).at i = schedule block i := by
  unfold nextRing
  by_cases h16 : i < 16
  · rw [if_pos h16, blk0, ShaBlock.at_put, if_pos rfl,
      schedule_of_lt h16]
    exact blk0_word (h.2 i (Nat.le_refl i) h16)
  · have hold : ∀ k n, i = k + n → 0 < n → n ≤ 16 →
        l.at k = schedule block (i - n) := by
      intro k n hk hn h16
      rw [h.1 k (by omega) (by omega), hk, Nat.add_sub_cancel]
    have h3 : l.at (i + 13) = schedule block (i - 3) := by
      rw [ShaBlock.at_congr l (k := i - 3) (by omega)]
      exact hold _ 3 (by omega) (by omega) (by omega)
    have h8 : l.at (i + 8) = schedule block (i - 8) := by
      rw [ShaBlock.at_congr l (k := i - 8) (by omega)]
      exact hold _ 8 (by omega) (by omega) (by omega)
    have h14 : l.at (i + 2) = schedule block (i - 14) := by
      rw [ShaBlock.at_congr l (k := i - 14) (by omega)]
      exact hold _ 14 (by omega) (by omega) (by omega)
    have h0 : l.at i = schedule block (i - 16) := by
      rw [ShaBlock.at_congr l (k := i - 16) (by omega)]
      exact hold _ 16 (by omega) (by omega) (by omega)
    rw [if_neg h16, blk, ShaBlock.at_put, if_pos rfl, h3, h8, h14, h0,
      schedule_of_le (t := i) (by omega)]
    rfl

/-- A round leaves the other places alone. -/
private theorem nextRing_ne {l : ShaBlock} {i k : Nat}
    (h : k % 16 ≠ i % 16) : (nextRing l i).at k = l.at k := by
  unfold nextRing blk0 blk
  split
  · rw [ShaBlock.at_put, if_neg h]
  · rw [ShaBlock.at_put, if_neg h]

/-- A round keeps the ring's account. -/
private theorem RingAt.next {block : List UInt8} {i : Nat} {l : ShaBlock}
    (h : RingAt block i l) : RingAt block (i + 1) (nextRing l i) := by
  constructor
  · intro k hk hle
    by_cases heq : k = i
    · rw [heq]
      exact nextRing_at h
    · rw [nextRing_ne (by omega)]
      exact h.1 k (by omega) (by omega)
  · intro k hk h16
    rw [nextRing_ne (by omega)]
    exact h.2 k (by omega) h16

-- =============================================================== the rounds

/-- The working variables of the standard. -/
def ShaRegs.hash (r : ShaRegs) : Hash := ⟨r.v, r.w, r.x, r.y, r.z⟩

/-- The chaining value of the standard. -/
def ShaState.hash (s : ShaState) : Hash := ⟨s.h0, s.h1, s.h2, s.h3, s.h4⟩

/-- The mixing of a round is its function and its constant. -/
private theorem shaMix_eq (i : Nat) (w x y : UInt32) :
    shaMix i w x y = fT i w x y + kT i := by
  unfold shaMix fT kT
  split
  · rw [mix_ch]
  split
  · rfl
  split
  · rw [mix_maj]
  · rfl

/-- One round against the round of the standard. -/
private theorem round_refines {block : List UInt8} {i : Nat} {r : ShaRegs}
    (h : RingAt block i r.l) :
    (sha1Round r i).hash = round (schedule block) r.hash i
      ∧ RingAt block (i + 1) (sha1Round r i).l := by
  refine ⟨?_, h.next⟩
  have hword : (nextRing r.l i).at i = schedule block i := nextRing_at h
  have hv : (sha1Round r i).v
      = r.z + shaMix i r.w r.x r.y + (nextRing r.l i).at i + rol r.v 5 :=
    rfl
  have hsum : r.z + (fT i r.w r.x r.y + kT i) + schedule block i
        + rol r.v 5
      = rotl 5 r.v + fT i r.w r.x r.y + r.z + kT i + schedule block i := by
    show _ = rol r.v 5 + _ + _ + _ + _
    ac_rfl
  unfold ShaRegs.hash Fips180.round
  rw [hv, hword, shaMix_eq, hsum]
  rfl

/-- Any number of rounds. -/
private theorem rounds_refine {block : List UInt8} {r : ShaRegs}
    (h : RingAt block 0 r.l) (n : Nat) :
    ((List.range n).foldl sha1Round r).hash
        = (List.range n).foldl (round (schedule block)) r.hash
      ∧ RingAt block n ((List.range n).foldl sha1Round r).l := by
  induction n with
  | zero => exact ⟨rfl, h⟩
  | succ n ih =>
      obtain ⟨heq, hring⟩ := ih
      rw [List.range_succ, List.foldl_append, List.foldl_append, ← heq]
      exact round_refines hring

/-- The ring the transform begins with. -/
private theorem ringAt_zero (block : List UInt8) :
    RingAt block 0 (Vector.ofFn fun i => le32At block (4 * i.val)) := by
  constructor
  · intro k hk
    omega
  · intro k _ hk
    unfold ShaBlock.at
    simp only [Nat.mod_eq_of_lt hk]
    show (Vector.ofFn fun i : Fin 16 => le32At block (4 * i.val))[k] = _
    rw [Vector.getElem_ofFn]

/-- `kern_sha1_transform` is the compression function, on every block. -/
theorem kernSha1Transform_hash (s : ShaState) (block : List UInt8) :
    (kernSha1Transform s block).hash = compress s.hash block := by
  obtain ⟨heq, -⟩ := rounds_refine (r :=
    { v := s.h0, w := s.h1, x := s.h2, y := s.h3, z := s.h4
      l := Vector.ofFn fun i => le32At block (4 * i.val) })
    (ringAt_zero block) 80
  have hstart : ShaRegs.hash { v := s.h0, w := s.h1, x := s.h2, y := s.h3
                               z := s.h4
                               l := Vector.ofFn fun i =>
                                 le32At block (4 * i.val) } = s.hash := rfl
  rw [hstart] at heq
  rw [compress_eq, ← heq]
  rfl

end Rtw88
