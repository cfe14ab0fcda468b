/-
Singly linked lists in memory: cells with a value and a `next` pointer,
`none` the null pointer, and a cell that was freed or never allocated
answering `none`.

`Seg m p l q` says that following `next` from `p` passes exactly the
cells `l` (each with its address and value) and comes to `q`.

The five things a program does with such a list, each with its rule:

- search it (`findFrom`, `findFrom_seg`);
- put a cell in front (`Seg.push`), overwrite one in place
  (`Seg.replace`);
- rewrite every value (`mapFrom`, `mapFrom_seg`);
- unlink the first cell that passes a test, keeping the cell itself
  (`unlinkFrom`, `unlinkFrom_hit`, `unlinkFrom_miss`);
- remove what a test rejects, through a pointer to the pointer that
  leads to the current cell (`sweepFrom`, `sweepFrom_seg`).

Loops take a bound on their turns and answer `none` when they run out of
it or meet a cell that is not there; the rules say that on a list of
fewer cells they do neither.
-/
import Mathlib.Data.List.Nodup
import Mathlib.Logic.Function.Basic

namespace Rtw88

universe u

variable {A β : Type u}

-- =============================================================== segments

/-- A cell: its value and the cell behind it. -/
structure Cell (A β : Type u) where
  val : β
  next : Option A

/-- From `p` the cells of `l`, and then `q`. -/
def Seg (m : A → Option (Cell A β)) :
    Option A → List (A × β) → Option A → Prop
  | p, [], q => p = q
  | p, x :: l, q => p = some x.1 ∧ ∃ n, m x.1 = some ⟨x.2, n⟩ ∧ Seg m n l q

/-- The addresses of a segment. -/
def addrs (l : List (A × β)) : List A := l.map Prod.fst

namespace Seg

variable {m m' : A → Option (Cell A β)} {p q : Option A} {l : List (A × β)}

/-- A segment only depends on its own cells. -/
theorem congr (h : ∀ a ∈ addrs l, m' a = m a) (hs : Seg m p l q) :
    Seg m' p l q := by
  induction l generalizing p with
  | nil => exact hs
  | cons x l ih =>
      obtain ⟨hp, n, hx, hrest⟩ := hs
      refine ⟨hp, n, ?_, ih (fun a ha => h a ?_) hrest⟩
      · rw [h x.1 List.mem_cons_self]
        exact hx
      · exact List.mem_cons_of_mem _ ha

/-- The cells say which segment leads to the end. -/
theorem unique {l' : List (A × β)} (h : Seg m p l none)
    (h' : Seg m p l' none) : l = l' := by
  induction l generalizing p l' with
  | nil =>
      cases l' with
      | nil => rfl
      | cons y l' =>
          rw [show p = none from h] at h'
          cases h'.1
  | cons x l ih =>
      obtain ⟨hp, n, hx, hl⟩ := h
      cases l' with
      | nil =>
          rw [hp] at h'
          cases h'
      | cons y l' =>
          obtain ⟨hp', n', hy, hl'⟩ := h'
          have haddr : x.1 = y.1 := Option.some.inj (hp.symm.trans hp')
          rw [haddr, hy] at hx
          obtain ⟨hval, hnext⟩ := (Cell.mk.injEq ..).mp (Option.some.inj hx)
          rw [ih hl (hnext ▸ hl'), Prod.ext haddr hval.symm]

/-- Segments compose. -/
theorem append {l₂ : List (A × β)} {r : Option A} (h : Seg m p l q)
    (h₂ : Seg m q l₂ r) : Seg m p (l ++ l₂) r := by
  induction l generalizing p with
  | nil =>
      have hpq : p = q := h
      rw [hpq]
      exact h₂
  | cons x l ih =>
      obtain ⟨hp, n, hx, hrest⟩ := h
      exact ⟨hp, n, hx, ih hrest⟩

/-- And can be cut anywhere. -/
theorem split {l₂ : List (A × β)} {r : Option A} (h : Seg m p (l ++ l₂) r) :
    ∃ q, Seg m p l q ∧ Seg m q l₂ r := by
  induction l generalizing p with
  | nil => exact ⟨p, rfl, h⟩
  | cons x l ih =>
      obtain ⟨hp, n, hx, hrest⟩ := h
      obtain ⟨q, hq, hq₂⟩ := ih hrest
      exact ⟨q, ⟨hp, n, hx, hq⟩, hq₂⟩

/-- Every cell of a segment is there, with its value. -/
theorem cell_of_mem (h : Seg m p l q) {x : A × β} (hx : x ∈ l) :
    ∃ n, m x.1 = some ⟨x.2, n⟩ := by
  induction l generalizing p with
  | nil => cases hx
  | cons y l ih =>
      obtain ⟨-, n, hy, hrest⟩ := h
      rcases List.mem_cons.1 hx with rfl | hx
      · exact ⟨n, hy⟩
      · exact ih hrest hx

variable [DecidableEq A]

/-- A store to another cell keeps a segment. -/
theorem update_off {a : A} {c : Option (Cell A β)} (ha : a ∉ addrs l)
    (h : Seg m p l q) : Seg (Function.update m a c) p l q := by
  refine h.congr fun b hb => ?_
  have hne : b ≠ a := fun hba => ha (hba ▸ hb)
  exact Function.update_of_ne hne _ _

/-- A new cell in front. -/
theorem push {a : A} (v : β) (ha : a ∉ addrs l) (h : Seg m p l q) :
    Seg (Function.update m a (some ⟨v, p⟩)) (some a) ((a, v) :: l) q :=
  ⟨rfl, p, Function.update_self .., h.update_off ha⟩

/-- A cell overwritten, its `next` kept: the value changes in place. -/
theorem replace {a : A} {v : β} {n : Option A} {c : Cell A β}
    (hc : m a = some c) (hn : n = c.next) (h : Seg m p l q) :
    Seg (Function.update m a (some ⟨v, n⟩)) p
      (l.map fun x => if x.1 = a then (a, v) else x) q := by
  induction l generalizing p with
  | nil => exact h
  | cons x l ih =>
      obtain ⟨hp, n', hx, hrest⟩ := h
      rw [List.map_cons]
      by_cases hxa : x.1 = a
      · rw [if_pos hxa]
        rw [hxa, hc] at hx
        have hnext : n = n' := by rw [hn, Option.some.inj hx]
        refine ⟨by rw [hp, hxa], n, Function.update_self .., ih ?_⟩
        rw [hnext]
        exact hrest
      · rw [if_neg hxa]
        refine ⟨hp, n', ?_, ih hrest⟩
        rw [Function.update_of_ne hxa]
        exact hx

end Seg

-- ================================================================= search

/-- The first cell from `p` whose value passes the test, null if none
does. -/
def findFrom (m : A → Option (Cell A β)) (test : β → Bool) :
    Nat → Option A → Option (Option A)
  | 0, _ => none
  | _ + 1, none => some none
  | k + 1, some a => do
      let c ← m a
      if test c.val then return some a else findFrom m test k c.next

theorem findFrom_seg {m : A → Option (Cell A β)} (test : β → Bool) {k : Nat}
    {p : Option A} {l : List (A × β)} (h : Seg m p l none)
    (hk : l.length < k) :
    findFrom m test k p
      = some ((l.find? fun x => test x.2).map Prod.fst) := by
  induction l generalizing p k with
  | nil =>
      obtain ⟨k, rfl⟩ : ∃ k', k = k' + 1 := ⟨k - 1, by
        rw [List.length_nil] at hk
        omega⟩
      have hp : p = none := h
      rw [hp]
      rfl
  | cons x l ih =>
      obtain ⟨k, rfl⟩ : ∃ k', k = k' + 1 := ⟨k - 1, by omega⟩
      obtain ⟨hp, n, hx, hrest⟩ := h
      rw [hp, findFrom, hx, List.find?_cons]
      show (if test x.2 then some (some x.1) else findFrom m test k n) = _
      cases htest : test x.2 with
      | true => rfl
      | false =>
          rw [List.length_cons] at hk
          exact ih hrest (by omega)

-- ================================================================ rewrite

variable [DecidableEq A]

/-- Rewrite the value of every cell from `p` on. -/
def mapFrom (f : β → β) : Nat → Option A → (A → Option (Cell A β)) →
    Option (A → Option (Cell A β))
  | 0, _, _ => none
  | _ + 1, none, m => some m
  | k + 1, some a, m => do
      let c ← m a
      mapFrom f k c.next (Function.update m a (some ⟨f c.val, c.next⟩))

theorem mapFrom_seg (f : β → β) {k : Nat} {m : A → Option (Cell A β)}
    {p : Option A} {l : List (A × β)} (h : Seg m p l none)
    (hnd : (addrs l).Nodup) (hk : l.length < k) :
    ∃ m', mapFrom f k p m = some m'
      ∧ Seg m' p (l.map fun x => (x.1, f x.2)) none
      ∧ (∀ a, a ∉ addrs l → m' a = m a) := by
  induction l generalizing p k m with
  | nil =>
      obtain ⟨k, rfl⟩ : ∃ k', k = k' + 1 := ⟨k - 1, by
        rw [List.length_nil] at hk
        omega⟩
      have hp : p = none := h
      rw [hp]
      exact ⟨m, rfl, rfl, fun _ _ => rfl⟩
  | cons x l ih =>
      obtain ⟨k, rfl⟩ : ∃ k', k = k' + 1 := ⟨k - 1, by omega⟩
      obtain ⟨hp, n, hx, hrest⟩ := h
      obtain ⟨hnotin, hnd'⟩ := List.nodup_cons.1 hnd
      rw [List.length_cons] at hk
      obtain ⟨m', heq, hseg, hoff⟩ :=
        @ih k (Function.update m x.1 (some ⟨f x.2, n⟩)) n
          (hrest.update_off hnotin) hnd' (by omega)
      refine ⟨m', ?_, ⟨hp, n, ?_, hseg⟩, ?_⟩
      · rw [hp, mapFrom, hx]
        exact heq
      · rw [hoff x.1 hnotin, Function.update_self]
      · intro a ha
        obtain ⟨hne, hni⟩ := not_or.1 fun hor => ha (List.mem_cons.2 hor)
        rw [hoff a hni, Function.update_of_ne hne]

-- ================================================================== sweep

/-- The memory of a list: its cells and the pointer to its first. -/
structure Chain (A β : Type u) where
  cell : A → Option (Cell A β)
  head : Option A

/-- A pointer to a pointer of the list. -/
inductive Cursor (A : Type u)
  | head
  | next (a : A)

/-- `*cur` -/
def Cursor.read (c : Chain A β) : Cursor A → Option (Option A)
  | .head => some c.head
  | .next a => (c.cell a).map Cell.next

/-- `*cur = p` -/
def Cursor.write (p : Option A) (c : Chain A β) :
    Cursor A → Option (Chain A β)
  | .head => some { c with head := p }
  | .next a => (c.cell a).map fun x =>
      { c with cell := Function.update c.cell a (some ⟨x.val, p⟩) }

/-- Remove and free the cells whose value fails the test, counting down
for each. -/
def sweepFrom (keep : β → Bool) : Nat → Cursor A → Chain A β × Nat →
    Option (Chain A β × Nat)
  | 0, _, _ => none
  | k + 1, cur, (c, count) => do
      match ← cur.read c with
      | none => return (c, count)
      | some a =>
          let b ← c.cell a
          if keep b.val then sweepFrom keep k (.next a) (c, count)
          else
            let c ← cur.write b.next c
            sweepFrom keep k cur
              ({ c with cell := Function.update c.cell a none }, count - 1)

/-- The pointer that leads out of a segment from the head. -/
def cursorAfter : List (A × β) → Cursor A
  | [] => .head
  | [x] => .next x.1
  | _ :: y :: l => cursorAfter (y :: l)

omit [DecidableEq A] in
theorem cursorAfter_append (l : List (A × β)) (x : A × β) :
    cursorAfter (l ++ [x]) = .next x.1 := by
  induction l with
  | nil => rfl
  | cons y l ih =>
      cases l with
      | nil => rfl
      | cons z l => exact ih

omit [DecidableEq A] in
/-- It holds where the segment leads to. -/
theorem cursorAfter_read {c : Chain A β} {l : List (A × β)} {q : Option A}
    (h : Seg c.cell c.head l q) : (cursorAfter l).read c = some q := by
  rcases List.eq_nil_or_concat' l with rfl | ⟨l, x, rfl⟩
  · exact congrArg some h
  · obtain ⟨r, -, hr⟩ := h.split
    obtain ⟨-, n, hx, hn⟩ := hr
    have hnq : n = q := hn
    rw [cursorAfter_append, Cursor.read, hx, hnq]
    rfl

/-- Writing it makes the segment lead elsewhere, and changes no cell off
the segment. -/
theorem cursorAfter_write {c : Chain A β} {l : List (A × β)} {q : Option A}
    (h : Seg c.cell c.head l q) (hnd : (addrs l).Nodup) (p : Option A) :
    ∃ c', (cursorAfter l).write p c = some c' ∧ Seg c'.cell c'.head l p
      ∧ ∀ a, a ∉ addrs l → c'.cell a = c.cell a := by
  rcases List.eq_nil_or_concat' l with rfl | ⟨l, x, rfl⟩
  · exact ⟨{ c with head := p }, rfl, rfl, fun _ _ => rfl⟩
  · obtain ⟨r, hl, hr⟩ := h.split
    obtain ⟨hrx, n, hx, -⟩ := hr
    have hnotin : x.1 ∉ addrs l := by
      rw [addrs, List.map_append, List.nodup_append] at hnd
      intro hmem
      exact hnd.2.2 x.1 hmem x.1 List.mem_cons_self rfl
    refine ⟨_, by rw [cursorAfter_append, Cursor.write, hx]; rfl, ?_, ?_⟩
    · refine (hl.update_off hnotin).append ?_
      exact ⟨hrx, p, Function.update_self .., rfl⟩
    · intro a ha
      refine Function.update_of_ne (fun hax => ha ?_) _ _
      rw [hax, addrs, List.map_append]
      exact List.mem_append_right _ List.mem_cons_self

/-- The sweep of a list behind a part already swept: it removes exactly
the cells that fail the test, frees them, counts them, and touches no
cell that is not on the list. -/
theorem sweepFrom_seg (keep : β → Bool) {k : Nat} {c : Chain A β}
    {pre l : List (A × β)} (count : Nat)
    (h : Seg c.cell c.head (pre ++ l) none)
    (hnd : (addrs (pre ++ l)).Nodup) (hk : l.length < k) :
    ∃ c', sweepFrom keep k (cursorAfter pre) (c, count)
        = some (c', count - (l.length - (l.filter fun x => keep x.2).length))
      ∧ Seg c'.cell c'.head (pre ++ l.filter fun x => keep x.2) none
      ∧ (∀ a, a ∉ addrs (pre ++ l) → c'.cell a = c.cell a)
      ∧ ∀ x ∈ l, keep x.2 = false → c'.cell x.1 = none := by
  induction l generalizing k c pre count with
  | nil =>
      obtain ⟨k, rfl⟩ : ∃ k', k = k' + 1 := ⟨k - 1, by
        rw [List.length_nil] at hk
        omega⟩
      rw [List.append_nil] at h
      refine ⟨c, ?_, by simpa using h, fun _ _ => rfl, by simp⟩
      rw [sweepFrom, cursorAfter_read h]
      rfl
  | cons x l ih =>
      obtain ⟨k, rfl⟩ : ∃ k', k = k' + 1 := ⟨k - 1, by omega⟩
      rw [List.length_cons] at hk
      obtain ⟨q, hpre, hq⟩ := h.split
      obtain ⟨hqx, n, hx, hrest⟩ := hq
      have hread := cursorAfter_read hpre
      rw [hqx] at hread
      have hassoc : pre ++ x :: l = pre ++ [x] ++ l := by simp
      cases hkeep : keep x.2 with
      | true =>
          -- on to the next cell
          rw [hassoc] at h hnd
          obtain ⟨c', heq, hseg, hoff, hgone⟩ :=
            @ih k c (pre ++ [x]) count h hnd (by omega)
          refine ⟨c', ?_, ?_, ?_, ?_⟩
          · rw [sweepFrom, hread]
            show (c.cell x.1).bind _ = _
            rw [hx]
            show (if keep x.2 = true then
              sweepFrom keep k (.next x.1) (c, count) else _) = _
            rw [if_pos hkeep, ← cursorAfter_append pre x, heq,
              List.filter_cons_of_pos (p := fun y : A × β => keep y.2) hkeep]
            simp only [List.length_cons, Nat.add_sub_add_right]
          · rw [List.filter_cons_of_pos (p := fun x : A × β => keep x.2)
              hkeep]
            simpa using hseg
          · rw [hassoc]
            exact hoff
          · intro y hy hyk
            rcases List.mem_cons.1 hy with rfl | hy
            · rw [hkeep] at hyk
              cases hyk
            · exact hgone y hy hyk
      | false =>
          -- the pointer before it now leads past it
          rw [addrs, List.map_append, List.map_cons] at hnd
          obtain ⟨hndpre, hndx, hdisj⟩ := List.nodup_append.1 hnd
          obtain ⟨hxl, hndl⟩ := List.nodup_cons.1 hndx
          have hxpre : x.1 ∉ addrs pre := fun hmem =>
            hdisj x.1 hmem x.1 List.mem_cons_self rfl
          obtain ⟨c₁, hwrite, hpre₁, hoff₁⟩ := cursorAfter_write hpre hndpre n
          have hrest₁ : Seg c₁.cell n l none := by
            refine hrest.congr fun a ha => hoff₁ a fun hmem => ?_
            exact hdisj a hmem a (List.mem_cons_of_mem _ ha) rfl
          have hboth : Seg (Function.update c₁.cell x.1 none) c₁.head
              (pre ++ l) none :=
            (hpre₁.update_off hxpre).append (hrest₁.update_off hxl)
          have hnd₁ : (addrs (pre ++ l)).Nodup := by
            rw [addrs, List.map_append]
            refine List.nodup_append.2 ⟨hndpre, hndl, fun a ha b hb => ?_⟩
            exact hdisj a ha b (List.mem_cons_of_mem _ hb)
          obtain ⟨c', heq, hseg, hoff, hgone⟩ :=
            @ih k { c₁ with cell := Function.update c₁.cell x.1 none } pre
              (count - 1) hboth hnd₁ (by omega)
          have hfilter : (x :: l).filter (fun y : A × β => keep y.2)
              = l.filter fun y => keep y.2 :=
            List.filter_cons_of_neg (by simp [hkeep])
          have hfle := List.length_filter_le (fun y : A × β => keep y.2) l
          have hxoff : x.1 ∉ addrs (pre ++ l) := by
            rw [addrs, List.map_append]
            intro hmem
            rcases List.mem_append.1 hmem with hmem | hmem
            · exact hxpre hmem
            · exact hxl hmem
          refine ⟨c', ?_, ?_, ?_, ?_⟩
          · rw [sweepFrom, hread]
            show (c.cell x.1).bind _ = _
            rw [hx]
            show (if keep x.2 = true then _ else
              ((cursorAfter pre).write n c).bind _) = _
            rw [if_neg (by simp [hkeep]), hwrite]
            refine heq.trans ?_
            rw [hfilter, List.length_cons]
            congr 2
            omega
          · rw [hfilter]
            exact hseg
          · intro a ha
            have hsplit : a ≠ x.1 ∧ a ∉ addrs (pre ++ l) ∧ a ∉ addrs pre := by
              rw [addrs, List.map_append, List.map_cons] at ha
              refine ⟨fun hax => ha ?_, fun hmem => ha ?_, fun hmem => ha ?_⟩
              · rw [hax]
                exact List.mem_append_right _ List.mem_cons_self
              · rw [addrs, List.map_append] at hmem
                rcases List.mem_append.1 hmem with hmem | hmem
                · exact List.mem_append_left _ hmem
                · exact List.mem_append_right _ (List.mem_cons_of_mem _ hmem)
              · exact List.mem_append_left _ hmem
            rw [hoff a hsplit.2.1]
            show Function.update c₁.cell x.1 none a = c.cell a
            rw [Function.update_of_ne hsplit.1, hoff₁ a hsplit.2.2]
          · intro y hy hyk
            rcases List.mem_cons.1 hy with rfl | hy
            · rw [hoff _ hxoff]
              exact Function.update_self ..
            · exact hgone y hy hyk

-- ================================================================= unlink

/-- Unlink the first cell from `p` whose value passes the test; the cell
stays, with its stale `next`. -/
def unlinkFrom (test : β → Bool) : Nat → Cursor A → Option A → Chain A β →
    Option (Option A × Chain A β)
  | 0, _, _, _ => none
  | _ + 1, _, none, c => some (none, c)
  | k + 1, prev, some a, c => do
      let x ← c.cell a
      if test x.val then
        let c ← prev.write x.next c
        return (some a, c)
      else unlinkFrom test k (.next a) x.next c

/-- The walk on a list behind the part already passed: the first cell
that passes the test leaves the list and keeps its value, and no cell off
the list changes. -/
theorem unlinkFrom_hit {test : β → Bool} {k : Nat} {c : Chain A β}
    {pre l : List (A × β)} {p : Option A} {x : A × β}
    (h : Seg c.cell c.head (pre ++ l) none) (hp : Seg c.cell p l none)
    (hnd : (addrs (pre ++ l)).Nodup) (hk : l.length < k)
    (hx : l.find? (fun y => test y.2) = some x) :
    ∃ c' n, unlinkFrom test k (cursorAfter pre) p c = some (some x.1, c')
      ∧ Seg c'.cell c'.head (pre ++ l.eraseP fun y => test y.2) none
      ∧ c'.cell x.1 = some ⟨x.2, n⟩
      ∧ ∀ a, a ∉ addrs (pre ++ l) → c'.cell a = c.cell a := by
  induction l generalizing k pre p with
  | nil => cases hx
  | cons y l ih =>
      obtain ⟨k, rfl⟩ : ∃ k', k = k' + 1 := ⟨k - 1, by omega⟩
      rw [List.length_cons] at hk
      obtain ⟨hpy, n, hy, hrest⟩ := hp
      have hassoc : pre ++ y :: l = pre ++ [y] ++ l := by simp
      rw [List.find?_cons] at hx
      cases htest : test y.2 with
      | true =>
          -- the pointer before it now leads past it
          rw [htest] at hx
          obtain rfl : y = x := Option.some.inj hx
          obtain ⟨q, hpre, -⟩ := h.split
          rw [addrs, List.map_append, List.map_cons] at hnd
          obtain ⟨hndpre, hndy, hdisj⟩ := List.nodup_append.1 hnd
          obtain ⟨hyl, -⟩ := List.nodup_cons.1 hndy
          have hypre : y.1 ∉ addrs pre := fun hmem =>
            hdisj y.1 hmem y.1 List.mem_cons_self rfl
          obtain ⟨c', hwrite, hpre', hoff⟩ :=
            cursorAfter_write hpre hndpre n
          have hrest' : Seg c'.cell n l none := by
            refine hrest.congr fun a ha => hoff a fun hmem => ?_
            exact hdisj a hmem a (List.mem_cons_of_mem _ ha) rfl
          refine ⟨c', n, ?_, ?_, ?_, fun a ha => hoff a fun hmem => ha ?_⟩
          · rw [hpy, unlinkFrom, hy]
            show (if test y.2 = true then
              ((cursorAfter pre).write n c).bind _ else _) = _
            rw [if_pos htest, hwrite]
            rfl
          · rw [List.eraseP_cons_of_pos (p := fun z : A × β => test z.2)
              htest]
            exact hpre'.append hrest'
          · rw [hoff y.1 hypre]
            exact hy
          · rw [addrs, List.map_append]
            exact List.mem_append_left _ hmem
      | false =>
          -- on to the next cell
          rw [htest] at hx
          rw [hassoc] at h hnd
          obtain ⟨c', n', heq, hseg, hcell, hoff⟩ :=
            @ih k (pre ++ [y]) n h hrest hnd (by omega) hx
          refine ⟨c', n', ?_, ?_, hcell, ?_⟩
          · rw [hpy, unlinkFrom, hy]
            show (if test y.2 = true then _ else
              unlinkFrom test k (.next y.1) n c) = _
            rw [if_neg (by simp [htest]), ← cursorAfter_append pre y]
            exact heq
          · rw [List.eraseP_cons_of_neg (p := fun z : A × β => test z.2)
              (by simp [htest])]
            simpa using hseg
          · rw [hassoc]
            exact hoff

/-- Where no cell passes the test the walk changes nothing. -/
theorem unlinkFrom_miss {test : β → Bool} {k : Nat} {c : Chain A β}
    {l : List (A × β)} {p : Option A} {prev : Cursor A}
    (hp : Seg c.cell p l none) (hk : l.length < k)
    (hx : ∀ x ∈ l, test x.2 = false) :
    unlinkFrom test k prev p c = some (none, c) := by
  induction l generalizing k prev p with
  | nil =>
      obtain ⟨k, rfl⟩ : ∃ k', k = k' + 1 := ⟨k - 1, by
        rw [List.length_nil] at hk
        omega⟩
      have hnone : p = none := hp
      rw [hnone]
      rfl
  | cons y l ih =>
      obtain ⟨k, rfl⟩ : ∃ k', k = k' + 1 := ⟨k - 1, by omega⟩
      rw [List.length_cons] at hk
      obtain ⟨hpy, n, hy, hrest⟩ := hp
      rw [hpy, unlinkFrom, hy]
      show (if test y.2 = true then _ else
        unlinkFrom test k (.next y.1) n c) = _
      rw [if_neg (by simp [hx y List.mem_cons_self])]
      exact ih hrest (by omega) fun x hmem =>
        hx x (List.mem_cons_of_mem _ hmem)

end Rtw88
