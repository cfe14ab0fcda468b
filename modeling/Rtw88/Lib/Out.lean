/-
Writing through a moving pointer: the C idiom `p[0] = a; p[1] = b;
memcpy(p + 2, ..); p += n`.

`Out` is the memory and the pointer. `set i bs` writes at `p + i` and
leaves the pointer, `advance n` moves it, and `put bs` is both: it
appends `bs`. Stores behind one another are one (`set_set`), stores
followed by a step over them are a `put` (`advance_set`), and `put`s
append (`put_put`), so a routine written with any mix of them comes down
to the bytes it appends.
-/
import Rtw88.Lib.Memory

namespace Rtw88

/-- The memory written so far, and the pointer. -/
structure Out where
  mem : Memory
  p : Nat

namespace Out

/-- `memcpy(p + i, bs, ..)`; a byte store is the case of one byte. -/
def set (o : Out) (i : Nat) (bs : List UInt8) : Out :=
  { o with mem := writeMem o.mem (o.p + i) bs }

/-- `p += n` -/
def advance (o : Out) (n : Nat) : Out := { o with p := o.p + n }

/-- Append `bs`. -/
def put (o : Out) (bs : List UInt8) : Out :=
  (o.set 0 bs).advance bs.length

/-- Stores behind one another are one store. -/
theorem set_set (o : Out) {i j : Nat} {as : List UInt8} (bs : List UInt8)
    (h : j = i + as.length) :
    (o.set i as).set j bs = o.set i (as ++ bs) := by
  unfold set
  rw [h, ← Nat.add_assoc, writeMem_append]

/-- A step over what was stored. -/
theorem advance_set (o : Out) {n : Nat} {bs : List UInt8}
    (h : n = bs.length) : (o.set 0 bs).advance n = o.put bs := by
  rw [h]
  rfl

theorem put_put (o : Out) (as bs : List UInt8) :
    (o.put as).put bs = o.put (as ++ bs) := by
  unfold put set advance
  dsimp only
  rw [Nat.add_zero, Nat.add_zero, writeMem_append, List.length_append,
    Nat.add_assoc]

@[simp] theorem put_nil (o : Out) : o.put [] = o := by
  have hmem : writeMem o.mem (o.p + 0) [] = o.mem := by
    funext a
    unfold writeMem
    rw [if_neg (by rw [List.length_nil]; omega)]
  unfold put set advance
  rw [hmem]
  rfl

theorem put_mem (o : Out) (bs : List UInt8) :
    (o.put bs).mem = writeMem o.mem o.p bs := rfl

theorem put_p (o : Out) (bs : List UInt8) :
    (o.put bs).p = o.p + bs.length := rfl

end Out

end Rtw88
