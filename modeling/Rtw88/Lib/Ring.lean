/-
Circular doubly linked lists: a head node and the nodes behind it, each
with a `next` and a `prev` pointer that live in the node itself.

The operations are the assignments an intrusive-list header makes, in
its order, on a heap of pointers; `none` is the null pointer, and an
operation that follows one answers `none`.

- `IsRing l h xs`: starting from the head `h` the heap `l` holds exactly
  the nodes `xs`, each once, and the pointers of every two neighbours
  agree.
- One rule an operation: on a ring that holds `xs` it does what the
  operation on the sequence `xs` does, and no other node's pointers
  change (`AgreesOff`).
- `IsRing.congr`: a ring only depends on the pointers of its nodes.
- `IsRing.unique`: a heap holds at most one sequence behind a head.
- `IsRing.closed`: the pointers of its nodes lead to its nodes.
-/
import Mathlib.Data.List.Chain
import Mathlib.Data.List.Nodup
import Mathlib.Logic.Function.Basic

namespace Rtw88

variable {α : Type _}

-- ================================================================= pointers

/-- The two pointers of every node. -/
structure Links (α : Type _) where
  next : α → Option α
  prev : α → Option α

section
variable [DecidableEq α]

/-- `a->next = b` -/
def Links.setNext (l : Links α) (a : α) (b : Option α) : Links α :=
  { l with next := Function.update l.next a b }

/-- `a->prev = b` -/
def Links.setPrev (l : Links α) (a : α) (b : Option α) : Links α :=
  { l with prev := Function.update l.prev a b }

@[simp] theorem Links.setNext_prev (l : Links α) (a : α) (b : Option α) :
    (l.setNext a b).prev = l.prev := rfl

@[simp] theorem Links.setPrev_next (l : Links α) (a : α) (b : Option α) :
    (l.setPrev a b).next = l.next := rfl

@[simp] theorem Links.setNext_next (l : Links α) (a : α) (b : Option α) :
    (l.setNext a b).next = Function.update l.next a b := rfl

@[simp] theorem Links.setPrev_prev (l : Links α) (a : α) (b : Option α) :
    (l.setPrev a b).prev = Function.update l.prev a b := rfl

/-- Make a node an empty list: both pointers to itself. -/
def Links.initListHead (l : Links α) (h : α) : Links α :=
  (l.setNext h (some h)).setPrev h (some h)

/-- Put `n` between two neighbours: `next->prev = n; n->next = next;
n->prev = prev; prev->next = n`. -/
def Links.listAddBetween (l : Links α) (n : α) (prev next : Option α) :
    Option (Links α) := do
  let b ← next
  let l := l.setPrev b (some n)
  let l := l.setNext n next
  let l := l.setPrev n prev
  let a ← prev
  return l.setNext a (some n)

/-- Put `n` at the end. -/
def Links.listAddTail (l : Links α) (n h : α) : Option (Links α) :=
  l.listAddBetween n (l.prev h) (some h)

/-- Put `n` at the front. -/
def Links.listAdd (l : Links α) (n h : α) : Option (Links α) :=
  l.listAddBetween n (some h) (l.next h)

/-- Take a node out: `e->prev->next = e->next; e->next->prev = e->prev`,
then both pointers null. -/
def Links.listDel (l : Links α) (e : α) : Option (Links α) := do
  let a ← l.prev e
  let l := l.setNext a (l.next e)
  let b ← l.next e
  let l := l.setPrev b (l.prev e)
  return (l.setNext e none).setPrev e none

/-- The list behind `h` is empty: `h->next == h`. -/
def Links.listEmpty (l : Links α) (h : α) : Bool := l.next h = some h

end

-- ==================================================================== rings

/-- Two neighbours: the pointers between them agree. -/
def Links.Linked (l : Links α) (a b : α) : Prop :=
  l.next a = some b ∧ l.prev b = some a

/-- The heap holds the nodes `xs` behind the head `h`. -/
structure IsRing (l : Links α) (h : α) (xs : List α) : Prop where
  nodup : (h :: xs).Nodup
  linked : List.IsChain l.Linked (h :: (xs ++ [h]))

/-- The two heaps agree on every node outside `cs`. -/
def Links.AgreesOff (l' l : Links α) (cs : List α) : Prop :=
  ∀ a, a ∉ cs → l'.next a = l.next a ∧ l'.prev a = l.prev a

/-- A chain of neighbours only depends on what its nodes point to
forwards, but for the last, and backwards, but for the first. -/
theorem isChain_linked_congr {l l' : Links α} {cs : List α}
    (hc : List.IsChain l.Linked cs)
    (hnext : ∀ a ∈ cs.dropLast, l'.next a = l.next a)
    (hprev : ∀ b ∈ cs.tail, l'.prev b = l.prev b) :
    List.IsChain l'.Linked cs := by
  induction cs with
  | nil => exact .nil
  | cons a cs ih =>
      cases cs with
      | nil => exact .singleton a
      | cons b cs =>
          obtain ⟨hab, hrest⟩ := List.isChain_cons_cons.1 hc
          refine List.isChain_cons_cons.2 ⟨⟨?_, ?_⟩, ih hrest ?_ ?_⟩
          · rw [hnext a (by simp)]
            exact hab.1
          · rw [hprev b (by simp)]
            exact hab.2
          · intro c hmem
            exact hnext c (by
              rw [List.dropLast_cons_of_ne_nil (List.cons_ne_nil b cs)]
              exact List.mem_cons_of_mem a hmem)
          · intro c hmem
            exact hprev c (by
              rw [List.tail_cons]
              exact List.mem_cons_of_mem b hmem)

/-- A ring only depends on the pointers of its nodes. -/
theorem IsRing.congr {l l' : Links α} {h : α} {xs : List α}
    (hr : IsRing l h xs)
    (heq : ∀ a ∈ h :: xs, l'.next a = l.next a ∧ l'.prev a = l.prev a) :
    IsRing l' h xs := by
  refine ⟨hr.nodup, isChain_linked_congr hr.linked ?_ ?_⟩
  · intro a hmem
    rw [← List.cons_append, List.dropLast_concat] at hmem
    exact (heq a hmem).1
  · intro b hmem
    rw [List.tail_cons] at hmem
    refine (heq b ?_).2
    rcases List.mem_append.1 hmem with hxs | hh
    · exact List.mem_cons_of_mem h hxs
    · rw [List.mem_singleton.1 hh]
      exact List.mem_cons_self

/-- A ring is unharmed by a change elsewhere. -/
theorem IsRing.of_agreesOff {l l' : Links α} {h : α} {xs cs : List α}
    (hr : IsRing l h xs) (hoff : l'.AgreesOff l cs)
    (hdisj : ∀ a ∈ h :: xs, a ∉ cs) : IsRing l' h xs :=
  hr.congr fun a hmem => hoff a (hdisj a hmem)

/-- The nodes behind a head are a matter of the heap alone. -/
theorem IsRing.unique {l : Links α} {h : α} {xs ys : List α}
    (hx : IsRing l h xs) (hy : IsRing l h ys) : xs = ys := by
  suffices hgen : ∀ (xs ys : List α) (a : α), h ∉ xs → h ∉ ys →
      List.IsChain l.Linked (a :: (xs ++ [h])) →
      List.IsChain l.Linked (a :: (ys ++ [h])) → xs = ys from
    hgen xs ys h (List.nodup_cons.1 hx.nodup).1 (List.nodup_cons.1 hy.nodup).1
      hx.linked hy.linked
  clear hx hy xs ys
  intro xs
  induction xs with
  | nil =>
      intro ys a _ hny hx hy
      cases ys with
      | nil => rfl
      | cons y ys =>
          -- the second list goes on where the first is back at the head
          have h1 := (List.isChain_cons_cons.1 hx).1.1
          have h2 := (List.isChain_cons_cons.1 hy).1.1
          rw [h1] at h2
          injection h2 with h2
          subst h2
          exact absurd List.mem_cons_self hny
  | cons x xs ih =>
      intro ys a hnx hny hx hy
      cases ys with
      | nil =>
          have h1 := (List.isChain_cons_cons.1 hx).1.1
          have h2 := (List.isChain_cons_cons.1 hy).1.1
          rw [h1] at h2
          injection h2 with h2
          subst h2
          exact absurd List.mem_cons_self hnx
      | cons y ys =>
          obtain ⟨hax, hx⟩ := List.isChain_cons_cons.1 hx
          obtain ⟨hay, hy⟩ := List.isChain_cons_cons.1 hy
          have hxy : x = y := by
            have h2 := hay.1
            rw [hax.1] at h2
            injection h2
          subst hxy
          rw [ih ys x (fun hm => hnx (List.mem_cons_of_mem x hm))
            (fun hm => hny (List.mem_cons_of_mem x hm)) hx hy]

-- =================================================================== queries

section
variable [DecidableEq α]

/-- A list is empty just when its head points to itself. -/
theorem IsRing.listEmpty_iff {l : Links α} {h : α} {xs : List α}
    (hr : IsRing l h xs) : l.listEmpty h = true ↔ xs = [] := by
  unfold Links.listEmpty
  rw [decide_eq_true_eq]
  constructor
  · intro hself
    cases xs with
    | nil => rfl
    | cons x xs =>
        have hx := (List.isChain_cons_cons.1 hr.linked).1.1
        rw [hself] at hx
        injection hx with hx
        subst hx
        exact absurd List.mem_cons_self (List.nodup_cons.1 hr.nodup).1
  · rintro rfl
    exact (List.isChain_cons_cons.1 hr.linked).1.1

end

/-- In a chain everything but the last has a successor, … -/
theorem exists_next_of_isChain {R : α → α → Prop} {cs : List α}
    (hc : List.IsChain R cs) {x : α} (hx : x ∈ cs.dropLast) :
    ∃ b ∈ cs.tail, R x b := by
  induction cs with
  | nil => cases hx
  | cons a cs ih =>
      cases cs with
      | nil => cases hx
      | cons b cs =>
          obtain ⟨hab, hrest⟩ := List.isChain_cons_cons.1 hc
          rw [List.dropLast_cons_of_ne_nil (List.cons_ne_nil b cs)] at hx
          rcases List.mem_cons.1 hx with rfl | hx
          · exact ⟨b, List.mem_cons_self, hab⟩
          · obtain ⟨c, hmem, hxc⟩ := ih hrest hx
            exact ⟨c, List.mem_cons_of_mem b hmem, hxc⟩

/-- … and everything but the first a predecessor. -/
theorem exists_prev_of_isChain {R : α → α → Prop} {cs : List α}
    (hc : List.IsChain R cs) {x : α} (hx : x ∈ cs.tail) :
    ∃ a ∈ cs.dropLast, R a x := by
  induction cs with
  | nil => cases hx
  | cons a cs ih =>
      cases cs with
      | nil => cases hx
      | cons b cs =>
          obtain ⟨hab, hrest⟩ := List.isChain_cons_cons.1 hc
          rw [List.dropLast_cons_of_ne_nil (List.cons_ne_nil b cs)]
          rcases List.mem_cons.1 hx with rfl | hx
          · exact ⟨a, List.mem_cons_self, hab⟩
          · obtain ⟨c, hmem, hcx⟩ := ih hrest hx
            exact ⟨c, List.mem_cons_of_mem a hmem, hcx⟩

/-- The pointers of a ring stay in it. -/
theorem IsRing.closed {l : Links α} {h x : α} {xs : List α}
    (hr : IsRing l h xs) (hx : x ∈ h :: xs) :
    (∃ a ∈ h :: xs, l.prev x = some a) ∧ ∃ b ∈ h :: xs, l.next x = some b := by
  have hfront : (h :: (xs ++ [h])).dropLast = h :: xs := by
    rw [← List.cons_append, List.dropLast_concat]
  have hback : ∀ y, y ∈ (h :: (xs ++ [h])).tail ↔ y ∈ h :: xs := by
    intro y
    rw [List.tail_cons, List.mem_append, List.mem_singleton, List.mem_cons,
      or_comm]
  constructor
  · obtain ⟨a, ha, hax⟩ :=
      exists_prev_of_isChain hr.linked ((hback x).2 hx)
    rw [hfront] at ha
    exact ⟨a, ha, hax.2⟩
  · rw [← hfront] at hx
    obtain ⟨b, hb, hxb⟩ := exists_next_of_isChain hr.linked hx
    exact ⟨b, (hback b).1 hb, hxb.1⟩

/-- What the head points to is the first node. -/
theorem IsRing.next_head {l : Links α} {h x : α} {xs : List α}
    (hr : IsRing l h (x :: xs)) : l.next h = some x :=
  (List.isChain_cons_cons.1 hr.linked).1.1

/-- Two parts of a list without repetitions have nothing in common. -/
private theorem ne_of_nodup_append {us vs : List α} (h : (us ++ vs).Nodup)
    {x y : α} (hx : x ∈ us) (hy : y ∈ vs) : x ≠ y :=
  (List.nodup_append.1 h).2.2 x hx y hy

/-- Around a ring, from the head back to it, every node occurs once if
the last is left out, or the first. -/
private theorem nodup_of_split {h : α} {xs us vs : List α}
    (hnd : (h :: xs).Nodup) (heq : h :: (xs ++ [h]) = us ++ vs)
    (hus : us ≠ []) (hvs : vs ≠ []) :
    (us ++ vs.dropLast).Nodup ∧ (us.tail ++ vs).Nodup := by
  constructor
  · have hfront : us ++ vs.dropLast = h :: xs := by
      rw [← List.dropLast_append_of_ne_nil hvs, ← heq, ← List.cons_append,
        List.dropLast_concat]
    rw [hfront]
    exact hnd
  · have hback : us.tail ++ vs = xs ++ [h] := by
      rw [← List.tail_append_of_ne_nil hus, ← heq, List.tail_cons]
    rw [hback]
    exact (List.perm_append_singleton h xs).nodup_iff.2 hnd

-- ================================================================ insertion

section
variable [DecidableEq α]

/-- Around a ring, `n` goes in between two neighbours. -/
theorem IsRing.listAddBetween {l : Links α} {h n a b : α}
    {xs ys us vs : List α} (hr : IsRing l h xs) (hn : n ∉ h :: xs)
    (hxs : h :: (xs ++ [h]) = us ++ a :: b :: vs)
    (hys : h :: (ys ++ [h]) = us ++ a :: n :: b :: vs)
    (hnd : (h :: ys).Nodup) :
    ∃ l', l.listAddBetween n (some a) (some b) = some l'
      ∧ IsRing l' h ys ∧ l'.AgreesOff l [a, n, b] := by
  refine ⟨(((l.setPrev b (some n)).setNext n (some b)).setPrev n
    (some a)).setNext a (some n), rfl, ⟨hnd, ?_⟩, ?_⟩
  · have hsplit : h :: (xs ++ [h]) = (us ++ [a]) ++ b :: vs := by
      rw [hxs, List.append_assoc]
      rfl
    obtain ⟨hfront, hback⟩ := nodup_of_split hr.nodup hsplit (by simp)
      (List.cons_ne_nil b vs)
    have hne : ∀ c ∈ us ++ a :: b :: vs, c ≠ n := by
      rintro c hc rfl
      rw [← hxs, ← List.cons_append] at hc
      rcases List.mem_append.1 hc with hc | hc
      · exact hn hc
      · rw [List.mem_singleton.1 hc] at hn
        exact hn List.mem_cons_self
    have hlinked := hr.linked
    rw [hxs] at hlinked
    obtain ⟨hl, hab, hv⟩ := List.isChain_append_cons_cons.1 hlinked
    have ha : a ≠ n := hne a (by simp)
    have hb : b ≠ n := hne b (by simp)
    rw [hys]
    refine List.isChain_append_cons_cons.2 ⟨?_, ⟨?_, ?_⟩,
      List.isChain_cons_cons.2 ⟨⟨?_, ?_⟩, ?_⟩⟩
    · -- up to `a`
      refine isChain_linked_congr hl ?_ ?_
      · intro c hc
        rw [List.dropLast_concat] at hc
        have hca : c ≠ a :=
          ne_of_nodup_append (List.nodup_append.1 hfront).1 hc (by simp)
        have hcn := hne c (by simp [hc])
        simp [hca, hcn]
      · intro c hc
        have hcb : c ≠ b := ne_of_nodup_append hback hc (by simp)
        have hcn := hne c (by
          have := List.mem_of_mem_tail hc
          simp only [List.mem_append, List.mem_singleton] at this
          rcases this with hcu | rfl <;> simp [*])
        simp [hcb, hcn]
    · simp
    · simp
    · simp [ha.symm]
    · simp [hb]
    · -- from `b` on
      refine isChain_linked_congr hv ?_ ?_
      · intro c hc
        have hca : c ≠ a :=
          (ne_of_nodup_append hfront (by simp) hc).symm
        have hcn := hne c (by
          have := (List.dropLast_sublist _).subset hc
          simp only [List.mem_cons] at this
          rcases this with rfl | hcv <;> simp [*])
        simp [hca, hcn]
      · intro c hc
        rw [List.tail_cons] at hc
        have hcb : c ≠ b := by
          rintro rfl
          exact (List.nodup_cons.1 (List.nodup_append.1 hback).2.1).1 hc
        have hcn := hne c (by simp [hc])
        simp [hcb, hcn]
  · intro c hc
    simp only [List.mem_cons, List.not_mem_nil, or_false, not_or] at hc
    obtain ⟨hca, hcn, hcb⟩ := hc
    simp [hca, hcn, hcb]

/-- At the end. -/
theorem IsRing.listAddTail {l : Links α} {h n : α} {xs : List α}
    (hr : IsRing l h xs) (hn : n ∉ h :: xs) :
    ∃ l', l.listAddTail n h = some l' ∧ IsRing l' h (xs ++ [n])
      ∧ l'.AgreesOff l (n :: h :: xs) := by
  obtain ⟨us, a, hus⟩ : ∃ us a, h :: xs = us ++ [a] :=
    ⟨_, _, (List.dropLast_append_getLast (List.cons_ne_nil h xs)).symm⟩
  have hxs : h :: (xs ++ [h]) = us ++ a :: h :: [] := by
    rw [← List.cons_append, hus, List.append_assoc]
    rfl
  have hys : h :: ((xs ++ [n]) ++ [h]) = us ++ a :: n :: h :: [] := by
    rw [List.append_assoc, ← List.cons_append, hus, List.append_assoc]
    rfl
  have hprev : l.prev h = some a := by
    have hlinked := hr.linked
    rw [hxs] at hlinked
    exact (List.isChain_append_cons_cons.1 hlinked).2.1.2
  have hnd : (h :: (xs ++ [n])).Nodup := by
    rw [← List.cons_append]
    exact (List.perm_append_singleton n (h :: xs)).nodup_iff.2
      (List.nodup_cons.2 ⟨hn, hr.nodup⟩)
  obtain ⟨l', hadd, hring, hoff⟩ := hr.listAddBetween hn hxs hys hnd
  refine ⟨l', ?_, hring, fun c hc => hoff c fun hmem => hc ?_⟩
  · unfold Links.listAddTail
    rw [hprev]
    exact hadd
  · have ha : a ∈ h :: xs := by
      rw [hus]
      simp
    simp only [List.mem_cons, List.not_mem_nil, or_false] at hmem ha ⊢
    rcases hmem with rfl | rfl | rfl
    · exact Or.inr ha
    · exact Or.inl rfl
    · exact Or.inr (Or.inl rfl)

/-- At the front. -/
theorem IsRing.listAdd {l : Links α} {h n : α} {xs : List α}
    (hr : IsRing l h xs) (hn : n ∉ h :: xs) :
    ∃ l', l.listAdd n h = some l' ∧ IsRing l' h (n :: xs)
      ∧ l'.AgreesOff l (n :: h :: xs) := by
  obtain ⟨b, vs, hvs⟩ : ∃ b vs, xs ++ [h] = b :: vs := by
    cases xs with
    | nil => exact ⟨h, [], rfl⟩
    | cons x xs => exact ⟨x, xs ++ [h], rfl⟩
  have hxs : h :: (xs ++ [h]) = [] ++ h :: b :: vs := by
    rw [hvs]
    rfl
  have hys : h :: ((n :: xs) ++ [h]) = [] ++ h :: n :: b :: vs := by
    rw [List.cons_append, hvs]
    rfl
  have hnext : l.next h = some b := by
    have hlinked := hr.linked
    rw [hvs] at hlinked
    exact (List.isChain_cons_cons.1 hlinked).1.1
  have hnd : (h :: n :: xs).Nodup :=
    (List.Perm.swap h n xs).nodup_iff.1 (List.nodup_cons.2 ⟨hn, hr.nodup⟩)
  obtain ⟨l', hadd, hring, hoff⟩ := hr.listAddBetween hn hxs hys hnd
  refine ⟨l', ?_, hring, fun c hc => hoff c fun hmem => hc ?_⟩
  · unfold Links.listAdd
    rw [hnext]
    exact hadd
  · have hb : b ∈ h :: xs := by
      have : b ∈ xs ++ [h] := by
        rw [hvs]
        exact List.mem_cons_self
      simp only [List.mem_append, List.mem_singleton] at this
      exact List.mem_cons.2 this.symm
    simp only [List.mem_cons, List.not_mem_nil, or_false] at hmem hb ⊢
    rcases hmem with rfl | rfl | rfl
    · exact Or.inr (Or.inl rfl)
    · exact Or.inl rfl
    · exact Or.inr hb

-- ================================================================== removal

/-- From anywhere in the list. -/
theorem IsRing.listDel {l : Links α} {h x : α} {xs ys : List α}
    (hr : IsRing l h (xs ++ x :: ys)) :
    ∃ l', l.listDel x = some l' ∧ IsRing l' h (xs ++ ys)
      ∧ l'.AgreesOff l (h :: (xs ++ x :: ys))
      ∧ l'.next x = none ∧ l'.prev x = none := by
  obtain ⟨us, a, hus⟩ : ∃ us a, h :: xs = us ++ [a] :=
    ⟨_, _, (List.dropLast_append_getLast (List.cons_ne_nil h xs)).symm⟩
  obtain ⟨b, vs, hvs⟩ : ∃ b vs, ys ++ [h] = b :: vs := by
    cases ys with
    | nil => exact ⟨h, [], rfl⟩
    | cons y ys => exact ⟨y, ys ++ [h], rfl⟩
  have hcells : h :: ((xs ++ x :: ys) ++ [h]) = us ++ a :: x :: b :: vs := by
    rw [List.append_assoc, ← List.cons_append, hus, List.cons_append, hvs,
      List.append_assoc]
    rfl
  have hrest : h :: ((xs ++ ys) ++ [h]) = us ++ a :: b :: vs := by
    rw [List.append_assoc, ← List.cons_append, hus, hvs, List.append_assoc]
    rfl
  have hnd : (h :: (xs ++ ys)).Nodup := by
    have hsub : (h :: (xs ++ ys)).Sublist (h :: (xs ++ x :: ys)) :=
      ((List.sublist_cons_self x ys).append_left xs).cons_cons h
    exact hsub.nodup hr.nodup
  -- the three nodes around the gap
  have hlinked := hr.linked
  rw [hcells] at hlinked
  obtain ⟨hl, hax, hrest'⟩ := List.isChain_append_cons_cons.1 hlinked
  obtain ⟨hxb, hv⟩ := List.isChain_cons_cons.1 hrest'
  have hsplit : h :: ((xs ++ x :: ys) ++ [h])
      = (us ++ [a]) ++ x :: b :: vs := by
    rw [hcells, List.append_assoc]
    rfl
  obtain ⟨hfront, hback⟩ := nodup_of_split hr.nodup hsplit (by simp)
    (List.cons_ne_nil x (b :: vs))
  have hxa : x ≠ a :=
    (ne_of_nodup_append hfront (by simp) (by simp)).symm
  have hxvs : x ∉ b :: vs :=
    (List.nodup_cons.1 (List.nodup_append.1 hback).2.1).1
  refine ⟨(((l.setNext a (some b)).setPrev b (some a)).setNext x none).setPrev
    x none, ?_, ⟨hnd, ?_⟩, ?_, ?_, ?_⟩
  · unfold Links.listDel
    simp [hax.2, hxb.1, hxa]
  · rw [hrest]
    refine List.isChain_append_cons_cons.2 ⟨?_, ⟨?_, ?_⟩, ?_⟩
    · -- up to `a`
      refine isChain_linked_congr hl ?_ ?_
      · intro c hc
        rw [List.dropLast_concat] at hc
        have hca : c ≠ a :=
          ne_of_nodup_append (List.nodup_append.1 hfront).1 hc (by simp)
        have hcx : c ≠ x :=
          ne_of_nodup_append hfront (by simp [hc]) (by simp)
        simp [hca, hcx]
      · intro c hc
        have hcb : c ≠ b := ne_of_nodup_append hback hc (by simp)
        have hcx : c ≠ x := ne_of_nodup_append hback hc (by simp)
        simp [hcb, hcx]
    · simp [hxa.symm]
    · have hbx : b ≠ x := fun h => hxvs (by simp [h])
      simp [hbx]
    · -- from `b` on
      refine isChain_linked_congr hv ?_ ?_
      · intro c hc
        have hfar : c ∈ (x :: b :: vs).dropLast := by
          rw [List.dropLast_cons_of_ne_nil (List.cons_ne_nil b vs)]
          exact List.mem_cons_of_mem x hc
        have hca : c ≠ a := (ne_of_nodup_append hfront (by simp) hfar).symm
        have hcx : c ≠ x := by
          rintro rfl
          exact hxvs ((List.dropLast_sublist _).subset hc)
        simp [hca, hcx]
      · intro c hc
        rw [List.tail_cons] at hc
        have hnd' := (List.nodup_append.1 hback).2.1
        have hcb : c ≠ b := by
          rintro rfl
          exact (List.nodup_cons.1 (List.nodup_cons.1 hnd').2).1 hc
        have hcx : c ≠ x := by
          rintro rfl
          exact hxvs (List.mem_cons_of_mem b hc)
        simp [hcb, hcx]
  · intro c hc
    have hmem : ∀ d ∈ us ++ a :: x :: b :: vs, c ≠ d := by
      rintro d hd rfl
      rw [← hcells, ← List.cons_append] at hd
      rcases List.mem_append.1 hd with hd | hd
      · exact hc hd
      · rw [List.mem_singleton.1 hd] at hc
        exact hc List.mem_cons_self
    have hca := hmem a (by simp)
    have hcx := hmem x (by simp)
    have hcb := hmem b (by simp)
    simp [hca, hcx, hcb]
  · simp
  · simp

/-- A fresh head is an empty ring. -/
theorem IsRing.init {l : Links α} {h : α} :
    IsRing (l.initListHead h) h [] := by
  refine ⟨List.nodup_singleton h, List.isChain_cons_cons.2 ⟨⟨?_, ?_⟩,
    .singleton h⟩⟩
  · simp [Links.initListHead]
  · simp [Links.initListHead]

end

end Rtw88
