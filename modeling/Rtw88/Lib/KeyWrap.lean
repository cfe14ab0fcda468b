/-
The AES key wrap of RFC 3394, over any block cipher: the index-based
form, six passes over `n` eight-byte registers and an integrity register
that starts as the default initial value.

`wrapStep` is one step. `foldl_undo` is the rule for taking it back: a
run of steps is undone by running the inverses the other way round.
-/
import Rtw88.Lib.Bytes
import Mathlib.Data.List.GetD

namespace Rtw88

-- =================================================================== folds

/-- What undoes every step undoes a run of them, backwards, as long as
the steps keep what each needs. -/
theorem foldl_undo {σ ι : Type _} {f g : σ → ι → σ} {I : σ → Prop}
    {l : List ι} (hkeep : ∀ i ∈ l, ∀ s, I s → I (f s i))
    (hundo : ∀ i ∈ l, ∀ s, I s → g (f s i) i = s) {s : σ} (h : I s) :
    l.reverse.foldl g (l.foldl f s) = s := by
  induction l generalizing s with
  | nil => rfl
  | cons i l ih =>
      have hi := hkeep i List.mem_cons_self s h
      rw [List.foldl_cons, List.reverse_cons, List.foldl_append,
        ih (fun j hj => hkeep j (List.mem_cons_of_mem _ hj))
          (fun j hj => hundo j (List.mem_cons_of_mem _ hj)) hi]
      exact hundo i List.mem_cons_self s h

-- ==================================================================== steps

/-- `A = A ^ t`, the counter as 64 bits, the most significant first. -/
def xorCounter (a : Bytes 8) (t : Nat) : Bytes 8 :=
  ⟨List.zipWith (· ^^^ ·) a.toList (beBytes 8 t), by
    rw [List.length_zipWith, a.toList_length, beBytes_length]
    rfl⟩

/-- The counter drops out when it is added twice. -/
theorem xorCounter_xorCounter (a : Bytes 8) (t : Nat) :
    xorCounter (xorCounter a t) t = a := by
  apply List.Vector.eq
  show List.zipWith _ (List.zipWith _ a.toList (beBytes 8 t)) (beBytes 8 t)
    = a.toList
  apply List.ext_getElem
  · rw [List.length_zipWith, List.length_zipWith, a.toList_length,
      beBytes_length]
    rfl
  · intro i hi hi'
    rw [List.getElem_zipWith, List.getElem_zipWith, UInt8.xor_assoc,
      UInt8.xor_self, UInt8.xor_zero]

/-- Two halves as one block. -/
def joinBlock (a r : Bytes 8) : Bytes 16 := grab (a.toList ++ r.toList) 0 16

/-- The first eight bytes of a block. -/
def msb (b : Bytes 16) : Bytes 8 := grab b.toList 0 8

/-- The last eight. -/
def lsb (b : Bytes 16) : Bytes 8 := grab b.toList 8 8

/-- A block is its two halves in a row. -/
theorem joinBlock_toList (a r : Bytes 8) :
    (joinBlock a r).toList = a.toList ++ r.toList := by
  refine grab_of_drop (show _ = (a.toList ++ r.toList) ++ [] from ?_) ?_
  · rw [List.drop_zero, List.append_nil]
  · rw [List.length_append, a.toList_length, r.toList_length]

theorem msb_joinBlock (a r : Bytes 8) : msb (joinBlock a r) = a := by
  apply List.Vector.eq
  refine grab_of_drop (show _ = a.toList ++ r.toList from ?_) ?_
  · rw [List.drop_zero, joinBlock_toList]
  · exact a.toList_length

theorem lsb_joinBlock (a r : Bytes 8) : lsb (joinBlock a r) = r := by
  apply List.Vector.eq
  refine grab_of_drop (show _ = r.toList ++ [] from ?_) ?_
  · rw [joinBlock_toList, List.append_nil]
    exact List.drop_left' a.toList_length
  · exact r.toList_length

/-- A block from its own halves. -/
theorem joinBlock_halves (b : Bytes 16) : joinBlock (msb b) (lsb b) = b := by
  apply List.Vector.eq
  have hlen := b.toList_length
  have hmsb : (msb b).toList = (b.toList.drop 0).take 8 :=
    grab_eq_slice (by omega)
  have hlsb : (lsb b).toList = (b.toList.drop 8).take 8 :=
    grab_eq_slice (by omega)
  rw [joinBlock_toList, hmsb, hlsb, List.drop_zero,
    List.take_of_length_le (i := 8) (l := b.toList.drop 8),
    List.take_append_drop]
  rw [List.length_drop]
  omega

variable (enc dec : Bytes 16 → Bytes 16) (n : Nat)

/-- Step `t = n * j + i + 1`, on register `i` of pass `j`, both counted
from 0: `B = AES(K, A | R[i])`, `A = MSB(64, B) ^ t`,
`R[i] = LSB(64, B)`. -/
def wrapStep (ar : Bytes 8 × List (Bytes 8)) (ji : Nat × Nat) :
    Bytes 8 × List (Bytes 8) :=
  let b := enc (joinBlock ar.1 (ar.2.getD ji.2 (zeros 8)))
  (xorCounter (msb b) (n * ji.1 + ji.2 + 1), ar.2.set ji.2 (lsb b))

/-- The step taken back: `B = AES⁻¹(K, (A ^ t) | R[i])`. -/
def unwrapOne (ar : Bytes 8 × List (Bytes 8)) (ji : Nat × Nat) :
    Bytes 8 × List (Bytes 8) :=
  let b := dec (joinBlock (xorCounter ar.1 (n * ji.1 + ji.2 + 1))
    (ar.2.getD ji.2 (zeros 8)))
  (msb b, ar.2.set ji.2 (lsb b))

variable {enc dec n}

/-- A register reads as what was stored in it, … -/
theorem getD_set_self {r : List (Bytes 8)} {i : Nat} (hi : i < r.length)
    (x : Bytes 8) : (r.set i x).getD i (zeros 8) = x := by
  rw [List.getD_eq_getElem?_getD, List.getElem?_set_self hi, Option.getD_some]

/-- … and storing what it reads changes nothing. -/
theorem set_getD_self {r : List (Bytes 8)} {i : Nat} (hi : i < r.length) :
    r.set i (r.getD i (zeros 8)) = r := by
  rw [List.getD_eq_getElem _ _ hi, List.set_getElem_self]

/-- One step of the wrap undone. -/
theorem unwrapOne_wrapStep (h : ∀ b, dec (enc b) = b)
    {ar : Bytes 8 × List (Bytes 8)} {ji : Nat × Nat}
    (hi : ji.2 < ar.2.length) :
    unwrapOne dec n (wrapStep enc n ar ji) ji = ar := by
  obtain ⟨a, r⟩ := ar
  unfold unwrapOne wrapStep
  simp only [getD_set_self hi, xorCounter_xorCounter, joinBlock_halves, h,
    msb_joinBlock, lsb_joinBlock, List.set_set, set_getD_self hi]

/-- One step of the unwrap undone. -/
theorem wrapStep_unwrapOne (h : ∀ b, enc (dec b) = b)
    {ar : Bytes 8 × List (Bytes 8)} {ji : Nat × Nat}
    (hi : ji.2 < ar.2.length) :
    wrapStep enc n (unwrapOne dec n ar ji) ji = ar := by
  obtain ⟨a, r⟩ := ar
  unfold unwrapOne wrapStep
  simp only [getD_set_self hi, xorCounter_xorCounter, joinBlock_halves, h,
    msb_joinBlock, lsb_joinBlock, List.set_set, set_getD_self hi]

-- ================================================================= the wrap

/-- Six passes, each over all registers. -/
def wrapOrder (n : Nat) : List (Nat × Nat) :=
  (List.range 6).flatMap fun j => (List.range n).map fun i => (j, i)

/-- Every step names a register that exists. -/
theorem mem_wrapOrder {ji : Nat × Nat} (h : ji ∈ wrapOrder n) : ji.2 < n := by
  obtain ⟨j, -, hji⟩ := List.mem_flatMap.1 h
  obtain ⟨i, hi, rfl⟩ := List.mem_map.1 hji
  exact List.mem_range.1 hi

/-- The default initial value. -/
def wrapIv : Bytes 8 := List.Vector.replicate 8 0xa6

/-- The integrity register and the registers as bytes. -/
def wrapBytes (ar : Bytes 8 × List (Bytes 8)) : List UInt8 :=
  ar.1.toList ++ ar.2.flatMap fun b => b.toList

/-- The wrapping of a plaintext of 64-bit blocks. -/
def keyWrap (enc : Bytes 16 → Bytes 16) (plain : List (Bytes 8)) :
    List UInt8 :=
  wrapBytes ((wrapOrder plain.length).foldl (wrapStep enc plain.length)
    (wrapIv, plain))

/-- The steps keep the number of registers. -/
theorem wrapStep_length (ar : Bytes 8 × List (Bytes 8)) (ji : Nat × Nat) :
    (wrapStep enc n ar ji).2.length = ar.2.length := List.length_set

theorem unwrapOne_length (ar : Bytes 8 × List (Bytes 8)) (ji : Nat × Nat) :
    (unwrapOne dec n ar ji).2.length = ar.2.length := List.length_set

theorem foldl_wrapStep_length (ar : Bytes 8 × List (Bytes 8))
    (l : List (Nat × Nat)) :
    (l.foldl (wrapStep enc n) ar).2.length = ar.2.length := by
  induction l generalizing ar with
  | nil => rfl
  | cons ji l ih => exact (ih _).trans (wrapStep_length ar ji)

theorem foldl_unwrapOne_length (ar : Bytes 8 × List (Bytes 8))
    (l : List (Nat × Nat)) :
    (l.foldl (unwrapOne dec n) ar).2.length = ar.2.length := by
  induction l generalizing ar with
  | nil => rfl
  | cons ji l ih => exact (ih _).trans (unwrapOne_length ar ji)

/-- All steps taken back. -/
theorem unwrap_wrap (h : ∀ b, dec (enc b) = b)
    {ar : Bytes 8 × List (Bytes 8)} (hn : ar.2.length = n) :
    (wrapOrder n).reverse.foldl (unwrapOne dec n)
      ((wrapOrder n).foldl (wrapStep enc n) ar) = ar := by
  apply foldl_undo (I := fun ar => ar.2.length = n) _ _ hn
  · intro ji _ ar har
    exact (wrapStep_length ar ji).trans har
  · intro ji hji ar har
    exact unwrapOne_wrapStep h (har ▸ mem_wrapOrder hji)

/-- And taken again. -/
theorem wrap_unwrap (h : ∀ b, enc (dec b) = b)
    {ar : Bytes 8 × List (Bytes 8)} (hn : ar.2.length = n) :
    (wrapOrder n).foldl (wrapStep enc n)
      ((wrapOrder n).reverse.foldl (unwrapOne dec n) ar) = ar := by
  have hundo := @foldl_undo _ _ (unwrapOne dec n) (wrapStep enc n)
    (fun ar => ar.2.length = n) (wrapOrder n).reverse
    (fun ji _ ar har => (unwrapOne_length ar ji).trans har)
    (fun ji hji ar har => wrapStep_unwrapOne h
      (har ▸ mem_wrapOrder (List.mem_reverse.1 hji))) ar hn
  rwa [List.reverse_reverse] at hundo

end Rtw88
