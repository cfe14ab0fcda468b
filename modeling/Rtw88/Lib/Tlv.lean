/-
Type-length-value lists: the element walk every 802.11 parser repeats.

`elems` is the loop "while two bytes remain, read an id and a length,
stop if the body runs past the end, else use it and step over it".

It undoes the concatenation of elements (`elems_flatMap`), and on any
bytes at all it shows only elements that stand in them
(`elems_within`).
-/
import Rtw88.Lib.Bytes

namespace Rtw88

/-- One element: its id and its body. -/
structure Elem where
  id : UInt8
  body : List UInt8
  deriving DecidableEq, Repr

/-- The element's bytes. -/
def Elem.bytes (e : Elem) : List UInt8 :=
  e.id :: UInt8.ofNat e.body.length :: e.body

/-- The walk, at most `fuel` elements. -/
def elemsUpTo : Nat → List UInt8 → List Elem
  | 0, _ => []
  | fuel + 1, id :: len :: rest =>
      if len.toNat ≤ rest.length then
        { id := id, body := rest.take len.toNat }
          :: elemsUpTo fuel (rest.drop len.toNat)
      else []
  | _ + 1, _ => []

/-- The elements of a byte string; each takes at least two bytes, so its
length is fuel enough. -/
def elems (d : List UInt8) : List Elem := elemsUpTo d.length d

-- =================================================================== grammar

theorem Elem.bytes_length (e : Elem) : e.bytes.length = 2 + e.body.length := by
  rw [Elem.bytes, List.length_cons, List.length_cons]
  omega

/-- The walk takes the element in front. -/
theorem elemsUpTo_cons {e : Elem} (h : e.body.length < 256) (fuel : Nat)
    (rest : List UInt8) :
    elemsUpTo (fuel + 1) (e.bytes ++ rest) = e :: elemsUpTo fuel rest := by
  have hlen : (UInt8.ofNat e.body.length).toNat = e.body.length := by
    rw [UInt8.toNat_ofNat']
    omega
  show elemsUpTo (fuel + 1)
    (e.id :: UInt8.ofNat e.body.length :: (e.body ++ rest)) = _
  rw [elemsUpTo, hlen, if_pos (by rw [List.length_append]; omega),
    List.take_left' rfl, List.drop_left' rfl]

/-- More fuel than bytes changes nothing. -/
theorem elemsUpTo_eq_elems {fuel : Nat} {d : List UInt8}
    (h : d.length ≤ fuel) : elemsUpTo fuel d = elems d := by
  suffices hboth : ∀ k l (d : List UInt8), d.length ≤ k → d.length ≤ l →
      elemsUpTo k d = elemsUpTo l d from
    hboth fuel d.length d h (Nat.le_refl _)
  intro k
  induction k with
  | zero =>
      intro l d hk _
      rw [List.length_eq_zero_iff.1 (Nat.le_zero.1 hk)]
      cases l <;> rfl
  | succ k ih =>
      intro l d hk hl
      match d, l with
      | [], 0 => rfl
      | [], _ + 1 => rfl
      | [_], 0 => cases hl
      | [_], _ + 1 => rfl
      | _ :: _ :: _, 0 => cases hl
      | id :: len :: rest, l + 1 =>
          simp only [List.length_cons] at hk hl
          rw [elemsUpTo, elemsUpTo]
          split
          · rw [ih l (rest.drop len.toNat)]
            · rw [List.length_drop]
              omega
            · rw [List.length_drop]
              omega
          · rfl

/-- The elements of a concatenation, then those of what follows it. -/
theorem elems_flatMap {es : List Elem} (h : ∀ e ∈ es, e.body.length < 256)
    (rest : List UInt8) :
    elems (es.flatMap Elem.bytes ++ rest) = es ++ elems rest := by
  induction es with
  | nil => rfl
  | cons e es ih =>
      rw [List.flatMap_cons, List.append_assoc, elems, List.length_append,
        e.bytes_length, show 2 + e.body.length
          + (es.flatMap Elem.bytes ++ rest).length
          = (1 + e.body.length + (es.flatMap Elem.bytes ++ rest).length) + 1
          from by omega,
        elemsUpTo_cons (h e List.mem_cons_self), elemsUpTo_eq_elems (by omega),
        ih fun e' he' => h e' (List.mem_cons_of_mem _ he')]
      rfl

/-- An element of the walk stands in the bytes, whole. -/
theorem elems_within {d : List UInt8} {e : Elem} (h : e ∈ elems d) :
    e.body.length < 256 ∧ ∃ before after, d = before ++ e.bytes ++ after := by
  suffices hany : ∀ fuel (d : List UInt8), e ∈ elemsUpTo fuel d →
      e.body.length < 256
        ∧ ∃ before after, d = before ++ e.bytes ++ after from
    hany d.length d h
  intro fuel
  induction fuel with
  | zero =>
      intro d hd
      cases hd
  | succ fuel ih =>
      intro d hd
      match d with
      | [] => cases hd
      | [_] => cases hd
      | id :: len :: rest =>
          rw [elemsUpTo] at hd
          split at hd
          next hin =>
            have hlen : (rest.take len.toNat).length = len.toNat := by
              rw [List.length_take]
              omega
            rcases List.mem_cons.1 hd with rfl | hd
            · refine ⟨by rw [hlen]; exact len.toNat_lt, [],
                rest.drop len.toNat, ?_⟩
              rw [List.nil_append, Elem.bytes, hlen, UInt8.ofNat_toNat,
                List.cons_append, List.cons_append, List.take_append_drop]
            · obtain ⟨hbody, before, after, heq⟩ := ih _ hd
              refine ⟨hbody, id :: len :: rest.take len.toNat ++ before,
                after, ?_⟩
              rw [List.append_assoc, List.append_assoc,
                ← List.append_assoc before, ← heq, List.cons_append,
                List.cons_append, List.take_append_drop]
          · cases hd

end Rtw88
