/-
A flat byte memory, and what a copy into it leaves alone.

`readMem`/`writeMem` are a region's bytes and a copy over a region.
`Apart p n q k` says that two regions share no byte; a pointer that
aliases another is simply not `Apart` from it, so nothing here assumes
that two pointers differ.

`Keeps rs m m'` says that a computation from `m` to `m'` wrote only
inside the regions `rs`: it composes, and a region apart from all of
`rs` reads the same afterwards (`Keeps.read`).
-/
import Mathlib.Data.List.GetD
import Mathlib.Data.UInt
import Mathlib.Logic.Function.Basic

namespace Rtw88

/-- A byte at every address. -/
abbrev Memory := Nat → UInt8

/-- The `n` bytes from `p` on. -/
def readMem (m : Memory) (p n : Nat) : List UInt8 :=
  (List.range n).map fun i => m (p + i)

/-- `bs` copied to `p`. -/
def writeMem (m : Memory) (p : Nat) (bs : List UInt8) : Memory := fun a =>
  if p ≤ a ∧ a < p + bs.length then bs.getD (a - p) 0 else m a

/-- Two regions without a common byte. -/
def Apart (p n q k : Nat) : Prop := p + n ≤ q ∨ q + k ≤ p

instance (p n q k : Nat) : Decidable (Apart p n q k) :=
  inferInstanceAs (Decidable (_ ∨ _))

theorem Apart.symm {p n q k : Nat} (h : Apart p n q k) :
    Apart q k p n := Or.symm h

/-- A part of a region is apart from what the region is apart from. -/
theorem Apart.part {p n q k i l : Nat} (h : Apart p n q k)
    (hi : i + l ≤ n) : Apart (p + i) l q k := by
  unfold Apart at *
  omega

/-- And so is its front. -/
theorem Apart.front {p n q k l : Nat} (h : Apart p n q k) (hl : l ≤ n) :
    Apart p l q k := by
  unfold Apart at *
  omega

-- ================================================================ reading

@[simp] theorem readMem_length (m : Memory) (p n : Nat) :
    (readMem m p n).length = n := by
  simp [readMem]

/-- Regions behind one another read one behind the other. -/
theorem readMem_add (m : Memory) (p n k : Nat) :
    readMem m p (n + k) = readMem m p n ++ readMem m (p + n) k := by
  unfold readMem
  rw [List.range_add, List.map_append, List.map_map]
  congr 1
  apply List.map_congr_left
  intro i _
  show m (p + (n + i)) = m (p + n + i)
  rw [Nat.add_assoc]

/-- A shorter read is a front part. -/
theorem readMem_take (m : Memory) (p : Nat) {n k : Nat} (h : n ≤ k) :
    (readMem m p k).take n = readMem m p n := by
  obtain ⟨l, rfl⟩ := Nat.exists_eq_add_of_le h
  rw [readMem_add, List.take_left' (readMem_length m p n)]

/-- Memories that agree on a region read the same there. -/
theorem readMem_congr {m m' : Memory} {p n : Nat}
    (h : ∀ i < n, m' (p + i) = m (p + i)) :
    readMem m' p n = readMem m p n := by
  apply List.map_congr_left
  intro i hi
  exact h i (List.mem_range.1 hi)

-- ================================================================ writing

/-- What a copy wrote is read back, … -/
theorem readMem_writeMem {m : Memory} {p n : Nat} {bs : List UInt8}
    (h : bs.length = n) : readMem (writeMem m p bs) p n = bs := by
  apply List.ext_getElem
  · rw [readMem_length, h]
  · intro i h1 h2
    simp [readMem, writeMem, h2]

/-- … and a region apart from it reads as before. -/
theorem readMem_writeMem_apart {m : Memory} {p q k : Nat}
    {bs : List UInt8} (h : Apart p bs.length q k) :
    readMem (writeMem m p bs) q k = readMem m q k := by
  apply readMem_congr
  intro i hi
  unfold writeMem
  rw [if_neg (by unfold Apart at h; omega)]

/-- A byte of a copy from elsewhere. -/
theorem writeMem_readMem_byte (m m' : Memory) (p q : Nat) {n i : Nat}
    (hi : i < n) : writeMem m p (readMem m' q n) (p + i) = m' (q + i) := by
  unfold writeMem
  rw [readMem_length, if_pos (by omega), Nat.add_sub_cancel_left]
  unfold readMem
  rw [List.getD_eq_getElem _ _ (by simpa using hi), List.getElem_map,
    List.getElem_range]

/-- A second copy over the same bytes is the one that stays. -/
theorem writeMem_writeMem {m : Memory} {p : Nat} {as bs : List UInt8}
    (h : as.length = bs.length) :
    writeMem (writeMem m p as) p bs = writeMem m p bs := by
  funext a
  unfold writeMem
  split
  · rfl
  next hout =>
    rw [← h] at hout
    rw [if_neg hout]

/-- Two copies behind one another are one. -/
theorem writeMem_append (m : Memory) (p : Nat) (as bs : List UInt8) :
    writeMem (writeMem m p as) (p + as.length) bs
      = writeMem m p (as ++ bs) := by
  funext a
  unfold writeMem
  rw [List.length_append]
  by_cases hfirst : p ≤ a ∧ a < p + as.length
  · rw [if_neg (by omega), if_pos hfirst, if_pos (by omega)]
    rw [List.getD_append _ _ _ _ (by omega)]
  · by_cases hsecond : p + as.length ≤ a ∧ a < p + as.length + bs.length
    · rw [if_pos hsecond, if_pos (by omega),
        List.getD_append_right _ _ _ _ (by omega), Nat.sub_sub]
    · rw [if_neg hsecond, if_neg hfirst, if_neg (by omega)]

-- ================================================================= frames

/-- Only bytes of the regions `rs` differ. -/
def Keeps (rs : List (Nat × Nat)) (m m' : Memory) : Prop :=
  ∀ a, (∀ r ∈ rs, a < r.1 ∨ r.1 + r.2 ≤ a) → m' a = m a

theorem Keeps.refl (rs : List (Nat × Nat)) (m : Memory) : Keeps rs m m :=
  fun _ _ => rfl

theorem Keeps.trans {rs : List (Nat × Nat)} {m m' m'' : Memory}
    (h : Keeps rs m m') (h' : Keeps rs m' m'') : Keeps rs m m'' :=
  fun a ha => (h' a ha).trans (h a ha)

/-- A larger frame. -/
theorem Keeps.mono {rs rs' : List (Nat × Nat)} {m m' : Memory}
    (h : Keeps rs m m') (hrs : ∀ r ∈ rs, r ∈ rs') : Keeps rs' m m' :=
  fun a ha => h a fun r hr => ha r (hrs r hr)

/-- A copy inside a region of the frame. -/
theorem Keeps.write {rs : List (Nat × Nat)} {m : Memory} {p i q n : Nat}
    {bs : List UInt8} (hr : (p, n) ∈ rs) (hq : q = p + i)
    (hlen : i + bs.length ≤ n) : Keeps rs m (writeMem m q bs) := by
  intro a ha
  have hout : a < p ∨ p + n ≤ a := ha (p, n) hr
  unfold writeMem
  rw [if_neg (by omega)]

/-- A byte of the frame is written. -/
theorem Keeps.update {rs : List (Nat × Nat)} {p n i : Nat}
    (hr : (p, n) ∈ rs) (hi : i < n) (m : Memory) (x : UInt8) :
    Keeps rs m (Function.update m (p + i) x) := by
  intro a ha
  have hout : a < p ∨ p + n ≤ a := ha (p, n) hr
  apply Function.update_of_ne
  omega

/-- A byte apart from the frame is the same, … -/
theorem Keeps.byte {rs : List (Nat × Nat)} {m m' : Memory} {p n i : Nat}
    (h : Keeps rs m m') (hp : ∀ r ∈ rs, Apart r.1 r.2 p n) (hi : i < n) :
    m' (p + i) = m (p + i) := by
  apply h
  intro r hr
  have hapart := hp r hr
  unfold Apart at hapart
  omega

/-- … and what is apart from it reads the same. -/
theorem Keeps.read {rs : List (Nat × Nat)} {m m' : Memory} {p n : Nat}
    (h : Keeps rs m m') (hp : ∀ r ∈ rs, Apart r.1 r.2 p n) :
    readMem m' p n = readMem m p n :=
  readMem_congr fun _ hi => h.byte hp hi

end Rtw88
