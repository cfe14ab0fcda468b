/-
Items of a fixed width, and lists of them.

A `Codec` writes an item as so many bytes and reads it back at an
offset; both laws are fields. A list is written item by item, and read
by a count. Reading undoes writing (`readN_of_drop`), and what was read
from inside a byte string writes the same bytes again
(`writeAll_readN`).
-/
import Rtw88.Lib.Bytes

namespace Rtw88

variable {α : Type}

/-- Items of `width` bytes. -/
structure Codec (α : Type) where
  width : Nat
  write : α → List UInt8
  read : List UInt8 → Nat → α
  write_length : ∀ x, (write x).length = width
  read_of_drop : ∀ {d rest : List UInt8} {i : Nat} {x : α},
    d.drop i = write x ++ rest → read d i = x
  write_read : ∀ {d : List UInt8} {i : Nat}, i + width ≤ d.length →
    write (read d i) = (d.drop i).take width

namespace Codec

variable (c : Codec α)

/-- `n` items from offset `i` on. -/
def readN (d : List UInt8) (i n : Nat) : List α :=
  (List.range n).map fun j => c.read d (i + j * c.width)

/-- The items of a list, one after the other. -/
def writeAll (l : List α) : List UInt8 := l.flatMap c.write

@[simp] theorem readN_length (d : List UInt8) (i n : Nat) :
    (c.readN d i n).length = n := by
  rw [readN, List.length_map, List.length_range]

theorem writeAll_length (l : List α) :
    (c.writeAll l).length = l.length * c.width := by
  induction l with
  | nil =>
      show 0 = 0 * c.width
      rw [Nat.zero_mul]
  | cons x l ih =>
      rw [writeAll] at ih ⊢
      rw [List.flatMap_cons, List.length_append, ih, c.write_length,
        List.length_cons, Nat.add_mul, Nat.one_mul, Nat.add_comm]

/-- The first item, and the others behind it. -/
theorem readN_succ (d : List UInt8) (i n : Nat) :
    c.readN d i (n + 1) = c.read d i :: c.readN d (i + c.width) n := by
  rw [readN, List.range_succ_eq_map, List.map_cons, List.map_map, Nat.zero_mul,
    Nat.add_zero, readN]
  congr 1
  refine List.map_congr_left fun j _ => ?_
  show c.read d (i + (j + 1) * c.width) = _
  rw [Nat.add_mul, Nat.one_mul, Nat.add_comm (j * c.width), Nat.add_assoc]

/-- Reading undoes writing. -/
theorem readN_of_drop {d rest : List UInt8} {i : Nat} {l : List α}
    (h : d.drop i = c.writeAll l ++ rest) : c.readN d i l.length = l := by
  induction l generalizing i with
  | nil => rfl
  | cons x l ih =>
      rw [writeAll, List.flatMap_cons, List.append_assoc] at h
      rw [List.length_cons, readN_succ, c.read_of_drop h,
        ih (drop_add_of_append h (c.write_length x))]

/-- What was read is what stands there. -/
theorem writeAll_readN {d : List UInt8} {i n : Nat}
    (h : i + n * c.width ≤ d.length) :
    c.writeAll (c.readN d i n) = (d.drop i).take (n * c.width) := by
  induction n generalizing i with
  | zero =>
      rw [Nat.zero_mul, List.take_zero]
      rfl
  | succ n ih =>
      rw [Nat.add_mul, Nat.one_mul] at h
      have htail := ih (i := i + c.width) (by omega)
      rw [writeAll] at htail ⊢
      rw [readN_succ, List.flatMap_cons, htail, c.write_read (by omega),
        Nat.add_mul, Nat.one_mul, Nat.add_comm (n * c.width), List.take_add,
        List.drop_drop]

end Codec

end Rtw88
