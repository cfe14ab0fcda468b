/-
The searches of a bitmap: `searches_right_iff`.

A word that is not zero has its lowest set bit at `ffs` and nothing below
(`bitHit_isNext`); the loop goes over words that are zero
(`scanWords_isNext`). Both are said of the picked words, so that they
serve the twin searches alike. The number of words comes out right unless
rounding `size` up wraps around (`bitmapWords_eq`, `bitmapWords_wrap`).

A search from an offset masks the first word and goes on with the next
(`maskFrom_bit`), and one from the start is the case of offset zero
(`findFirst_eq`). What it reads beyond `size`, inside the last word, does
not change its answer (`findNext_congr`); a search reads no word beyond
that one (`findNext_reads`).

`for_each_set_bit` is the loop over the searches: from each set bit to
the next, until the search answers `size`. That it visits every set bit
once, in order, is an induction over what is left of the bitmap
(`setBitsVisited_eq`).
-/
import Rtw88.Spec.Bitops

namespace Rtw88

-- ================================================================== one word

/-- What a search is after: a bit of a picked word. -/
def Picked (pick : ULong → ULong) (addr : Bitmap) (p : Nat) : Prop :=
  (pick (addr (p / 64))).getLsbD (p % 64) = true

section
variable {pick : ULong → ULong} {addr : Bitmap} {size : ULong}

/-- `find_first_bit` picks the set bits. -/
theorem picked_id {p : Nat} : Picked id addr p ↔ addr.bit p = true := Iff.rfl

/-- `find_first_zero_bit` picks the others. -/
theorem picked_not {p : Nat} : Picked (~~~·) addr p ↔ addr.bit p = false := by
  have hin : p % 64 < 64 := Nat.mod_lt _ (by omega)
  simp [Picked, Bitmap.bit, hin]

/-- A bit of a word, as a bit of the bitmap. -/
theorem picked_word {i b : Nat} (hb : b < 64) :
    Picked pick addr (64 * i + b) ↔ (pick (addr i)).getLsbD b = true := by
  have hdiv : (64 * i + b) / 64 = i := by omega
  have hmod : (64 * i + b) % 64 = b := by omega
  rw [Picked, hdiv, hmod]

/-- A word that is not zero has its lowest set bit among the 64. -/
theorem ctz_lt {v : ULong} (hv : v ≠ 0) : v.ctz.toNat < 64 :=
  BitVec.ctz_lt_iff_ne_zero.2 hv

/-- On a word that is not zero the lowest set bit is the next, if the
word has no bit below `lo` and all the picked ones from there on. -/
theorem bitHit_isNext {i v : ULong} {lo : Nat} (hi : i.toNat < 2 ^ 58)
    (hlo : 64 * i.toNat ≤ lo) (hv : v ≠ 0)
    (hbits : ∀ b < 64, v.getLsbD b = true
      ↔ lo ≤ 64 * i.toNat + b ∧ Picked pick addr (64 * i.toNat + b)) :
    IsNext (Picked pick addr) lo size.toNat (bitHit size i v).toNat := by
  have hctz := ctz_lt hv
  have hbit : (i * bitsPerLong + ffs v).toNat
      = 64 * i.toNat + v.ctz.toNat := by
    have hword : bitsPerLong.toNat = 64 := rfl
    rw [BitVec.toNat_add, BitVec.toNat_mul, hword, ffs]
    omega
  have hval : (bitHit size i v).toNat
      = if 64 * i.toNat + v.ctz.toNat < size.toNat
        then 64 * i.toNat + v.ctz.toNat else size.toNat := by
    simp only [bitHit, BitVec.lt_def, apply_ite BitVec.toNat, hbit]
  obtain ⟨hfrom, hpicked⟩ :=
    (hbits _ hctz).1 (BitVec.getLsbD_true_ctz_of_ne_zero hv)
  rw [hval]
  refine IsNext.found hfrom hpicked fun p hp hbelow hpp => ?_
  have hfalse := BitVec.getLsbD_false_of_lt_ctz
    (show p - 64 * i.toNat < v.ctz.toNat by omega)
  have hsplit : 64 * i.toNat + (p - 64 * i.toNat) = p := by omega
  have htrue := (hbits (p - 64 * i.toNat) (by omega)).2
    (by rw [hsplit]; exact ⟨hp, hpp⟩)
  rw [hfalse] at htrue
  cases htrue

-- ================================================================== the loop

/-- The loop goes over the words that are zero. -/
theorem scanWords_isNext {n : Nat} {i : ULong}
    (hcover : size.toNat ≤ 64 * (i.toNat + n))
    (hbound : i.toNat + n ≤ 2 ^ 58) :
    IsNext (Picked pick addr) (64 * i.toNat) size.toNat
      (scanWords pick addr size n i).val.toNat := by
  induction n generalizing i with
  | zero => exact IsNext.none fun p hp hlt => by omega
  | succ n ih =>
      rw [scanWords]
      simp only [Touched.val_bind, Touched.val_ite, Touched.val_pure]
      have hword : (addr.word i).val = addr i.toNat := rfl
      rw [hword]
      split
      next hv =>
        exact bitHit_isNext (by omega) le_rfl hv fun b hb => by
          rw [picked_word hb]
          exact ⟨fun h => ⟨by omega, h⟩, fun h => h.2⟩
      next hv =>
        have hzero : pick (addr i.toNat) = 0 := not_not.1 hv
        have hsucc : (i + 1).toNat = i.toNat + 1 :=
          ULong.toNat_succ (by omega)
        have hrest := ih (i := i + 1) (by omega) (by omega)
        rw [hsucc] at hrest
        refine hrest.extend (by omega) fun p hp hlt hpp => ?_
        have hsplit : 64 * i.toNat + (p - 64 * i.toNat) = p := by omega
        rw [← hsplit, picked_word (by omega), hzero] at hpp
        simp at hpp

/-- It reads the words it goes over. -/
theorem scanWords_reads {n w : Nat} {i : ULong} (hn : i.toNat + n ≤ w)
    (hbound : w ≤ 2 ^ 58) :
    (scanWords pick addr size n i).Within fun _ => 8 * w := by
  induction n generalizing i with
  | zero => exact Touched.within_pure size
  | succ n ih =>
      rw [scanWords, Touched.within_bind]
      refine ⟨?_, ?_⟩
      · refine (Touched.within_bind _ _).2 ⟨?_, Touched.within_pure _⟩
        refine (Touched.within_access _).2 ?_
        show 8 * i.toNat + 8 ≤ 8 * w
        omega
      · simp only
        split
        next => exact Touched.within_pure _
        next =>
          have hsucc : (i + 1).toNat = i.toNat + 1 :=
            ULong.toNat_succ (by omega)
          exact ih (by omega)

-- ============================================================== the searches

/-- The count of words wraps with the addition in it. -/
theorem bitmapWords_toNat (size : ULong) :
    (bitmapWords size).toNat = (size.toNat + 63) % 2 ^ 64 / 64 := by
  have hword : bitsPerLong.toNat = 64 := rfl
  have hone : (1 : ULong).toNat = 1 := rfl
  rw [bitmapWords, BitVec.toNat_udiv, BitVec.toNat_sub, BitVec.toNat_add,
    hword, hone]
  omega

/-- `size` rounded up, … -/
theorem bitmapWords_eq (h : size.toNat + 63 < 2 ^ 64) :
    (bitmapWords size).toNat = (size.toNat + 63) / 64 := by
  rw [bitmapWords_toNat, Nat.mod_eq_of_lt h]

/-- … or nothing, if that wraps around. -/
theorem bitmapWords_wrap (h : 2 ^ 64 ≤ size.toNat + 63) :
    (bitmapWords size).toNat = 0 := by
  have hlt := size.isLt
  rw [bitmapWords_toNat]
  omega

/-- A wrapped count is less than what it should be. -/
theorem bitmapWords_le (size : ULong) :
    (bitmapWords size).toNat ≤ (size.toNat + 63) / 64 := by
  rw [bitmapWords_toNat]
  exact Nat.div_le_div_right (Nat.mod_le _ _)

/-- Where the count does not wrap the search finds the first picked bit, or
the size. -/
theorem findFirst_isNext (h : size.toNat + 63 < 2 ^ 64) :
    IsNext (Picked pick addr) 0 size.toNat
      (findFirst pick addr size).val.toNat := by
  have hwords := bitmapWords_eq h
  have hzero : (0 : ULong).toNat = 0 := rfl
  have hscan := @scanWords_isNext pick addr size (bitmapWords size).toNat 0
    (by omega) (by omega)
  rwa [hzero] at hscan

/-- The part of the first word from `start` on. -/
theorem maskFrom_bit {v : ULong} {start b : Nat} (hb : b < 64) :
    (v &&& (~~~(0 : ULong) <<< start)).getLsbD b = true
      ↔ start ≤ b ∧ v.getLsbD b = true := by
  have hones : (~~~(0 : ULong)).getLsbD (b - start) = true := by
    have hin : b - start < 64 := by omega
    rw [BitVec.getLsbD_not, decide_eq_true hin]
    exact congrArg (true && !·) BitVec.getLsbD_zero
  rw [BitVec.getLsbD_and, BitVec.getLsbD_shiftLeft, hones]
  simp [hb, and_comm]

/-- From an offset on it finds the next picked bit, or the size. -/
theorem findNext_isNext (h : size.toNat + 63 < 2 ^ 64) (offset : ULong) :
    IsNext (Picked pick addr) offset.toNat size.toNat
      (findNext pick addr size offset).val.toNat := by
  unfold findNext
  split
  next hge =>
    have hge := BitVec.le_def.1 hge
    exact IsNext.none fun p hp hlt => by omega
  next hlt =>
    have hlt : offset.toNat < size.toNat :=
      Nat.lt_of_not_le fun hle => hlt (BitVec.le_def.2 hle)
    have hwords := bitmapWords_eq h
    have hsize := size.isLt
    have hidx : (offset / bitsPerLong).toNat = offset.toNat / 64 :=
      BitVec.toNat_udiv
    have hstart : (offset % bitsPerLong).toNat = offset.toNat % 64 :=
      BitVec.toNat_umod
    have hsplit := Nat.div_add_mod offset.toNat 64
    simp only [Touched.val_bind, Touched.val_ite, Touched.val_pure]
    have hword : (addr.word (offset / bitsPerLong)).val
        = addr (offset / bitsPerLong).toNat := rfl
    rw [hword]
    split
    next hv =>
      refine bitHit_isNext (by omega) (by omega) hv fun b hb => ?_
      rw [maskFrom_bit hb, picked_word hb]
      refine and_congr_left fun _ => ?_
      omega
    next hv =>
      have hzero := not_not.1 hv
      have hsucc : (offset / bitsPerLong + 1).toNat
          = (offset / bitsPerLong).toNat + 1 := ULong.toNat_succ (by omega)
      have hrest := @scanWords_isNext pick addr size
        ((bitmapWords size).toNat - (offset / bitsPerLong + 1).toNat)
        (offset / bitsPerLong + 1) (by omega) (by omega)
      refine hrest.extend (by omega) fun p hp hbelow hpp => ?_
      -- a bit of the first word, from the offset on
      have hword : 64 * (offset / bitsPerLong).toNat
          + (p - 64 * (offset / bitsPerLong).toNat) = p := by omega
      have hb : p - 64 * (offset / bitsPerLong).toNat < 64 := by omega
      rw [← hword, picked_word hb] at hpp
      have hbit := (maskFrom_bit hb).2
        ⟨show (offset % bitsPerLong).toNat ≤ _ by omega, hpp⟩
      rw [hzero] at hbit
      simp at hbit

/-- The search reads words of the bitmap only. -/
theorem findFirst_reads :
    (findFirst pick addr size).Within (bitmapBytes size) := by
  have hle := bitmapWords_le size
  have hsize := size.isLt
  have hzero : (0 : ULong).toNat = 0 := rfl
  exact scanWords_reads (by omega) (by omega)

/-- The search from an offset reads words of the bitmap only. -/
theorem findNext_reads (offset : ULong) :
    (findNext pick addr size offset).Within (bitmapBytes size) := by
  unfold findNext
  split
  next => exact Touched.within_pure size
  next hlt =>
    have hlt : offset.toNat < size.toNat :=
      Nat.lt_of_not_le fun hle => hlt (BitVec.le_def.2 hle)
    have hle := bitmapWords_le size
    have hsize := size.isLt
    have hidx : (offset / bitsPerLong).toNat = offset.toNat / 64 :=
      BitVec.toNat_udiv
    have hsucc : (offset / bitsPerLong + 1).toNat
        = (offset / bitsPerLong).toNat + 1 := ULong.toNat_succ (by omega)
    refine (Touched.within_bind _ _).2 ⟨?_, ?_⟩
    · refine (Touched.within_bind _ _).2 ⟨?_, Touched.within_pure _⟩
      refine (Touched.within_access _).2 ?_
      show 8 * (offset / bitsPerLong).toNat + 8
        ≤ 8 * ((size.toNat + 63) / 64)
      omega
    · simp only
      split
      next => exact Touched.within_pure _
      next => exact scanWords_reads (by omega) (by omega)

/-- Without words to go over, nothing is found. -/
theorem findFirst_wrap (h : 2 ^ 64 ≤ size.toNat + 63) :
    (findFirst pick addr size).val = size := by
  rw [findFirst, bitmapWords_wrap h]
  rfl

/-- A search sees the bits below `size` only. -/
theorem findNext_congr {addr' : Bitmap} (h : size.toNat + 63 < 2 ^ 64)
    (hsame : ∀ p < size.toNat, Picked pick addr' p ↔ Picked pick addr p)
    (offset : ULong) :
    (findNext pick addr' size offset).val
      = (findNext pick addr size offset).val :=
  BitVec.eq_of_toNat_eq
    (((findNext_isNext h offset).congr hsame).unique
      (findNext_isNext h offset))

/-- Searching from the start is searching from offset zero. -/
theorem findFirst_eq (h : size.toNat + 63 < 2 ^ 64) :
    (findFirst pick addr size).val = (findNext pick addr size 0).val :=
  BitVec.eq_of_toNat_eq ((findFirst_isNext h).unique (findNext_isNext h 0))

end

-- ================================================================ the set bits

/-- `for_each_set_bit` walks from each set bit to the next. -/
theorem setBitsVisited_eq (addr : Bitmap) (size p : ULong) (n : Nat) :
    setBitsVisited addr size n p
      = walk (fun q => (findNextBit addr size (BitVec.ofNat 64 q)).val.toNat)
        size.toNat n p.toNat := by
  induction n generalizing p with
  | zero => rfl
  | succ n ih =>
      rw [setBitsVisited, walk]
      by_cases hp : p < size
      · have hlt := BitVec.lt_def.1 hp
        have hsize := size.isLt
        have hsucc : p + 1 = BitVec.ofNat 64 (p.toNat + 1) := by
          apply BitVec.eq_of_toNat_eq
          rw [ULong.toNat_succ (by omega), BitVec.toNat_ofNat,
            Nat.mod_eq_of_lt (by omega)]
        rw [if_pos hp, if_pos hlt, ih, hsucc]
      · rw [if_neg hp, if_neg fun hlt => hp (BitVec.lt_def.2 hlt)]

/-- It visits the set bits, each once and in order. -/
theorem setBits_visited {addr : Bitmap} {size : ULong} {n : Nat}
    (h : size.toNat + 63 < 2 ^ 64) (hn : size.toNat ≤ n) :
    setBitsVisited addr size n (findFirstBit addr size).val
      = (List.range size.toNat).filter addr.bit := by
  have hsize := size.isLt
  have hnext : ∀ q ≤ size.toNat, IsNext (addr.bit · = true) q size.toNat
      (findNextBit addr size (BitVec.ofNat 64 q)).val.toNat := by
    intro q hq
    have hq : (BitVec.ofNat 64 q).toNat = q := by
      rw [BitVec.toNat_ofNat, Nat.mod_eq_of_lt (by omega)]
    have hfound := @findNext_isNext id addr size h (BitVec.ofNat 64 q)
    rw [hq] at hfound
    exact hfound.congr fun p _ => picked_id
  have hfirst : IsNext (addr.bit · = true) 0 size.toNat
      (findFirstBit addr size).val.toNat :=
    (findFirst_isNext h).congr fun p _ => picked_id
  rw [setBitsVisited_eq, walk_eq hnext hfirst (Nat.zero_le _) hn,
    List.range_eq_range']
  rfl

-- ============================================================= all of them

/-- Whatever the bitmap, the searches of its bits below `size` meet their
specification exactly if `size` can be rounded up to whole words. -/
theorem searches_right_iff (addr : Bitmap) (size : ULong) :
    SearchesRight addr size ↔ size.toNat + 63 < 2 ^ 64 := by
  constructor
  · intro h
    by_contra hlt
    have hwrap : 2 ^ 64 ≤ size.toNat + 63 := Nat.le_of_not_lt hlt
    -- neither a set bit nor a clear one is found, so there is none
    have hset := h.next 0
    rw [← h.first, findFirstBit, findFirst_wrap hwrap] at hset
    have hclear := h.nextZero 0
    rw [← h.firstZero, findFirstZeroBit, findFirst_wrap hwrap] at hclear
    have hpos : 0 < size.toNat := by omega
    have hnot := hset.none_of le_rfl hpos
    exact hclear.none_of le_rfl hpos (Bool.eq_false_of_not_eq_true hnot)
  · intro h
    refine ⟨fun offset => ?_, fun offset => ?_, findFirst_eq h,
      findFirst_eq h, fun addr' hsame offset => ?_, fun offset => ?_,
      fun n hn => setBits_visited h hn⟩
    · exact (findNext_isNext h offset).congr fun p _ => picked_id
    · exact (findNext_isNext h offset).congr fun p _ => picked_not
    · have hset : ∀ p < size.toNat, Picked id addr' p ↔ Picked id addr p := by
        intro p hp
        rw [picked_id, picked_id, hsame p hp]
      have hclear : ∀ p < size.toNat,
          Picked (~~~·) addr' p ↔ Picked (~~~·) addr p := by
        intro p hp
        rw [picked_not, picked_not, hsame p hp]
      refine ⟨findNext_congr h hset offset, findNext_congr h hclear offset,
        ?_, ?_⟩
      · unfold findFirstBit
        rw [findFirst_eq h, findFirst_eq h, findNext_congr h hset 0]
      · unfold findFirstZeroBit
        rw [findFirst_eq h, findFirst_eq h, findNext_congr h hclear 0]
    · exact ⟨findNext_reads offset, findNext_reads offset, findFirst_reads,
        findFirst_reads⟩

/-- A word with bit 0 set, searched without a bound. -/
def lowestSet : Bitmap := fun _ => 1

/-- Over a size of 2⁶⁴ - 1 the count of words wraps to zero, and nothing is
found. -/
theorem unbounded_search_misses :
    lowestSet.bit 0 = true
      ∧ (findFirstBit lowestSet (BitVec.allOnes 64)).val = BitVec.allOnes 64
      ∧ ¬ ∀ addr size, SearchesRight addr size := by
  have hmiss : (findFirstBit lowestSet (BitVec.allOnes 64)).val
      = BitVec.allOnes 64 := findFirst_wrap (by decide)
  refine ⟨by decide, hmiss, fun h => ?_⟩
  have hfirst := (h lowestSet (BitVec.allOnes 64)).next 0
  rw [← (h lowestSet (BitVec.allOnes 64)).first, hmiss] at hfirst
  exact hfirst.none_of le_rfl (by decide) (by decide)

end Rtw88
