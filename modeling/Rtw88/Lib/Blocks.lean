/-
Iterated hashing: a step function folded over the whole blocks of a
string, and what is left over behind the last whole block.

`absorb f n s d` folds `f` over the blocks of `n` symbols of `d`,
`leftover n d` is the rest. The pair is what a buffered implementation
keeps between two calls, and `absorb_append`/`leftover_append` are why
it may: feeding a string in two parts, the second behind the leftover of
the first, is feeding it at once.
-/
import Mathlib.Data.List.Basic
import Mathlib.Algebra.Order.Ring.Nat

namespace Rtw88

universe u

variable {S A : Type u}

-- ================================================================= blocks

/-- The `k`-th block of `n` symbols. -/
def blockAt (n : Nat) (d : List A) (k : Nat) : List A :=
  (d.drop (k * n)).take n

/-- `f` folded over the whole blocks of `d`. -/
def absorb (f : S → List A → S) (n : Nat) (s : S) (d : List A) : S :=
  (List.range (d.length / n)).foldl (fun s k => f s (blockAt n d k)) s

/-- What stands behind the last whole block. -/
def leftover (n : Nat) (d : List A) : List A := d.drop (d.length / n * n)

section

variable {f : S → List A → S} {n : Nat} {s : S} {b d e : List A}

theorem leftover_length : (leftover n d).length = d.length % n := by
  have h := Nat.div_add_mod d.length n
  rw [Nat.mul_comm] at h
  rw [leftover, List.length_drop]
  omega

/-- Less than a block changes nothing … -/
theorem absorb_short (h : d.length < n) : absorb f n s d = s := by
  rw [absorb, Nat.div_eq_of_lt h]
  rfl

/-- … and is left over. -/
theorem leftover_short (h : d.length < n) : leftover n d = d := by
  rw [leftover, Nat.div_eq_of_lt h, Nat.zero_mul, List.drop_zero]

/-- A whole block more in front. -/
private theorem blocks_succ (hn : 0 < n) (hb : b.length = n) :
    (b ++ d).length / n = d.length / n + 1 := by
  rw [List.length_append, hb, Nat.add_comm n, Nat.add_div_right _ hn]

/-- A whole block in front is absorbed first … -/
theorem absorb_block (hn : 0 < n) (hb : b.length = n) :
    absorb f n s (b ++ d) = absorb f n (f s b) d := by
  have hfirst : blockAt n (b ++ d) 0 = b := by
    rw [blockAt, Nat.zero_mul, List.drop_zero, ← hb, List.take_left]
  have hrest : ∀ k, blockAt n (b ++ d) (k + 1) = blockAt n d k := by
    intro k
    have hk : (k + 1) * n = b.length + k * n := by
      rw [Nat.succ_mul, hb, Nat.add_comm]
    rw [blockAt, blockAt, hk, List.drop_length_add_append]
  rw [absorb, blocks_succ hn hb, List.range_succ_eq_map, List.foldl_cons,
    List.foldl_map, hfirst]
  simp only [Nat.succ_eq_add_one, hrest]
  rfl

/-- … and leaves what the rest leaves. -/
theorem leftover_block (hn : 0 < n) (hb : b.length = n) :
    leftover n (b ++ d) = leftover n d := by
  have hk : (d.length / n + 1) * n = b.length + d.length / n * n := by
    rw [Nat.succ_mul, hb, Nat.add_comm]
  rw [leftover, blocks_succ hn hb, hk, List.drop_length_add_append]
  rfl

/-- A string of at least a block, cut behind its first one. -/
private theorem cut_block (h : n ≤ d.length) :
    (d.take n).length = n ∧ d = d.take n ++ d.drop n :=
  ⟨by rw [List.length_take, Nat.min_eq_left h],
    (List.take_append_drop n d).symm⟩

/-- Absorbing in two parts, the second behind the leftover of the first,
is absorbing at once. -/
theorem absorb_append (hn : 0 < n) :
    absorb f n s (d ++ e) = absorb f n (absorb f n s d) (leftover n d ++ e)
      := by
  induction h : d.length using Nat.strong_induction_on generalizing d s with
  | _ m ih =>
    by_cases hlt : d.length < n
    · rw [absorb_short hlt, leftover_short hlt]
    · obtain ⟨hb, hd⟩ := cut_block (not_lt.1 hlt)
      have hless : (d.drop n).length < m := by
        rw [List.length_drop]
        omega
      -- both sides give up the first block of `d`
      rw [hd, List.append_assoc, absorb_block hn hb, absorb_block hn hb,
        leftover_block hn hb]
      exact ih _ hless rfl

/-- And so is what is left over. -/
theorem leftover_append (hn : 0 < n) :
    leftover n (d ++ e) = leftover n (leftover n d ++ e) := by
  induction h : d.length using Nat.strong_induction_on generalizing d with
  | _ m ih =>
    by_cases hlt : d.length < n
    · rw [leftover_short hlt]
    · obtain ⟨hb, hd⟩ := cut_block (not_lt.1 hlt)
      have hless : (d.drop n).length < m := by
        rw [List.length_drop]
        omega
      rw [hd, List.append_assoc, leftover_block hn hb,
        leftover_block hn hb]
      exact ih _ hless rfl

end

end Rtw88
