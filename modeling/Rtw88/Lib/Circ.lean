/-
A bounded queue in a circular buffer of `n` cells with a read place
`tail` and a write place `head`: empty where they meet, so it holds at
most `n - 1` elements, and a write into a full one pushes the oldest out.

- `HoldsFrom n cells tail head xs`: from `tail` up to `head` the cells
  hold `xs`, oldest first.
- `HoldsFrom.put`: a write at `head`, and a step of `tail` if `head` runs
  into it, is a push onto the queue that keeps its newest `n - 1`.
- `HoldsFrom.get`: a read at `tail` is a pop.
- `HoldsFrom.meet_iff`: the places meet exactly when nothing is held, so
  full and empty are never taken for each other.
-/
import Mathlib.Data.List.DropRight
import Mathlib.Logic.Function.Basic

namespace Rtw88

variable {α : Type _}

-- ============================================================ the newest

/-- The newest of the newest. -/
theorem rtake_rtake (l : List α) {j k : Nat} (h : j ≤ k) :
    (l.rtake k).rtake j = l.rtake j := by
  rw [List.rtake_eq_reverse_take_reverse, List.rtake_eq_reverse_take_reverse,
    List.rtake_eq_reverse_take_reverse, List.reverse_reverse, List.take_take,
    Nat.min_eq_left h]

/-- To keep the newest after a push, only the newest before it matter. -/
theorem rtake_concat_rtake (l : List α) (x : α) (k : Nat) :
    (l.rtake k ++ [x]).rtake k = (l ++ [x]).rtake k := by
  cases k with
  | zero => rw [List.rtake_zero, List.rtake_zero]
  | succ j =>
      rw [List.rtake_concat_succ, List.rtake_concat_succ,
        rtake_rtake l (Nat.le_succ j)]

/-- What is no longer than the bound is kept whole. -/
theorem rtake_of_length_le {l : List α} {k : Nat} (h : l.length ≤ k) :
    l.rtake k = l := by
  unfold List.rtake
  rw [Nat.sub_eq_zero_of_le h, List.drop_zero]

theorem rtake_length (l : List α) (k : Nat) :
    (l.rtake k).length = min l.length k := by
  unfold List.rtake
  rw [List.length_drop]
  omega

-- ================================================================== places

/-- The place after `i`. -/
def nextSlot (n i : Nat) : Nat := (i + 1) % n

/-- A step around the buffer passes its end once at most. -/
theorem add_mod_cases {n a i : Nat} (ha : a < n) (hi : i ≤ n) :
    (a + i) % n = if a + i < n then a + i else a + i - n := by
  split
  next h => exact Nat.mod_eq_of_lt h
  next h =>
    rw [Nat.mod_eq_sub_mod (by omega), Nat.mod_eq_of_lt (by omega)]

theorem nextSlot_lt {n : Nat} (h : 0 < n) (i : Nat) : nextSlot n i < n :=
  Nat.mod_lt _ h

/-- From the next place it is one step less. -/
theorem nextSlot_add {n : Nat} (a i : Nat) :
    (nextSlot n a + i) % n = (a + (i + 1)) % n := by
  unfold nextSlot
  rw [Nat.mod_add_mod, Nat.add_assoc, Nat.add_comm 1 i]

-- ================================================================= contents

/-- The cells hold `xs` from `tail` up to `head`. -/
structure HoldsFrom (n : Nat) (cells : Nat → α) (tail head : Nat)
    (xs : List α) : Prop where
  tail_lt : tail < n
  room : xs.length < n
  head_eq : head = (tail + xs.length) % n
  cell : ∀ (i : Nat) (h : i < xs.length), cells ((tail + i) % n) = xs[i]

namespace HoldsFrom

variable {n : Nat} {cells : Nat → α} {tail head : Nat} {xs : List α}

theorem nil (h : tail < n) : HoldsFrom n cells tail tail [] := by
  refine ⟨h, by rw [List.length_nil]; omega, ?_, fun i hi => by cases hi⟩
  rw [List.length_nil, Nat.add_zero, Nat.mod_eq_of_lt h]

theorem head_lt (h : HoldsFrom n cells tail head xs) : head < n := by
  rw [h.head_eq]
  exact Nat.mod_lt _ (Nat.lt_of_le_of_lt (Nat.zero_le _) h.tail_lt)

/-- The places meet exactly when nothing is held. -/
theorem meet_iff (h : HoldsFrom n cells tail head xs) :
    head = tail ↔ xs = [] := by
  have htail := h.tail_lt
  have hroom := h.room
  have hhead := h.head_eq
  rw [add_mod_cases htail (by omega)] at hhead
  rw [← List.length_eq_zero_iff]
  split at hhead <;> omega

/-- A read at `tail` takes the oldest. -/
theorem get {x : α} (h : HoldsFrom n cells tail head (x :: xs)) :
    cells tail = x ∧ HoldsFrom n cells (nextSlot n tail) head xs := by
  have hroom := h.room
  rw [List.length_cons] at hroom
  have hfirst := h.cell 0 (by simp)
  rw [Nat.add_zero, Nat.mod_eq_of_lt h.tail_lt] at hfirst
  refine ⟨hfirst, nextSlot_lt (by omega) tail, by omega, ?_, fun i hi => ?_⟩
  · rw [h.head_eq, nextSlot_add, List.length_cons]
  · rw [nextSlot_add, h.cell (i + 1) (by rw [List.length_cons]; omega)]
    rfl

/-- A write at `head`, while there is room behind it. -/
theorem put_room (h : HoldsFrom n cells tail head xs)
    (x : α) (hroom : xs.length + 1 < n) :
    HoldsFrom n (Function.update cells head x) tail (nextSlot n head)
      (xs ++ [x]) := by
  have htail := h.tail_lt
  have hlen : (xs ++ [x]).length = xs.length + 1 := by simp
  refine ⟨htail, by omega, ?_, fun i hi => ?_⟩
  · rw [h.head_eq, hlen]
    unfold nextSlot
    rw [Nat.mod_add_mod, Nat.add_assoc]
  · by_cases hlast : i = xs.length
    · subst hlast
      rw [← h.head_eq, Function.update_self, List.getElem_concat_length]
      rfl
    · have hi' : i < xs.length := by omega
      -- an older element stands elsewhere
      have hne : (tail + i) % n ≠ head := by
        rw [h.head_eq, add_mod_cases htail (by omega),
          add_mod_cases htail (by omega)]
        split <;> split <;> omega
      rw [Function.update_of_ne hne, h.cell i hi',
        List.getElem_append_left hi']

/-- A write at `head` into a full buffer, which then starts one later. -/
theorem put_full {x : α} (h : HoldsFrom n cells tail head xs)
    (hfull : xs.length + 1 = n) :
    HoldsFrom n (Function.update cells head x) (nextSlot n tail)
      (nextSlot n head) (xs ++ [x]).tail := by
  have htail := h.tail_lt
  have hlen : (xs ++ [x]).tail.length = xs.length := by simp
  refine ⟨nextSlot_lt (by omega) tail, by omega, ?_, fun i hi => ?_⟩
  · rw [hlen, nextSlot_add, h.head_eq]
    unfold nextSlot
    rw [Nat.mod_add_mod, Nat.add_assoc]
  · rw [nextSlot_add, List.getElem_tail]
    by_cases hlast : i + 1 = xs.length
    · have hplace : (tail + (i + 1)) % n = head := by
        rw [hlast, ← h.head_eq]
      rw [hplace, Function.update_self]
      simp [hlast]
    · have hi' : i + 1 < xs.length := by omega
      have hne : (tail + (i + 1)) % n ≠ head := by
        rw [h.head_eq, add_mod_cases htail (by omega),
          add_mod_cases htail (by omega)]
        split <;> split <;> omega
      rw [Function.update_of_ne hne, h.cell (i + 1) hi',
        List.getElem_append_left hi']

/-- A write at `head` that pushes the oldest out where it must. -/
theorem put (h : HoldsFrom n cells tail head xs) (x : α) :
    HoldsFrom n (Function.update cells head x)
      (if nextSlot n head = tail then nextSlot n tail else tail)
      (nextSlot n head) ((xs ++ [x]).rtake (n - 1)) := by
  have htail := h.tail_lt
  have hroom := h.room
  have hnext : nextSlot n head = (tail + (xs.length + 1)) % n := by
    rw [h.head_eq]
    unfold nextSlot
    rw [Nat.mod_add_mod, Nat.add_assoc]
  by_cases hfull : xs.length + 1 = n
  · have hmeet : nextSlot n head = tail := by
      rw [hnext, hfull, Nat.add_mod_right, Nat.mod_eq_of_lt htail]
    have hkeep : (xs ++ [x]).rtake (n - 1) = (xs ++ [x]).tail := by
      unfold List.rtake
      rw [List.length_append, List.length_singleton, ← List.drop_one]
      congr 1
      omega
    rw [if_pos hmeet, hkeep]
    exact h.put_full hfull
  · have hapart : nextSlot n head ≠ tail := by
      rw [hnext, add_mod_cases htail (by omega)]
      split <;> omega
    have hkeep : (xs ++ [x]).rtake (n - 1) = xs ++ [x] := by
      apply rtake_of_length_le
      rw [List.length_append, List.length_singleton]
      omega
    rw [if_neg hapart, hkeep]
    exact h.put_room x (by omega)

end HoldsFrom

end Rtw88
