/-
No DMA buffer is lost and none is released twice: `dma_entries_placed`.

# Exactly one

`Places` gives all descriptors as one list without a repetition, cut at
the places. Which of them a buffer is in is then an index, and there is
one (`Places.exactly_one`).

# The frees

A free of a live address takes that buffer off the list, and no other.
So while nothing is allocated the list shrinks by what the frees asked
for (`Places.frees`), and a free for every buffer leaves none
(`FreesAll.foldl_leaves`). Nothing here keeps two buffers from having one
address, and a free takes the first of them; so what empties the list is
as many frees by an address as there are buffers that have it
(`countP_foldl_leaves`).

# The end

With an empty list and no free in progress, what is not released is on
the list of those put off, and a drain takes all of it
(`drained_released`). Others may drain at the same time; each releases
what it took.
-/
import Rtw88.Proofs.Dma.Places
import Mathlib.Data.List.Flatten

namespace Rtw88

variable {s : DmaSys} {live pending : List DmaNode}
variable {held : List (List DmaNode)}

-- ============================================================ exactly one

/-- The descriptors at every place: the two lists, the released ones, then
each call's. -/
private def placeLists (s : DmaSys) (live pending : List DmaNode)
    (held : List (List DmaNode)) : List (List Nat) :=
  descsOf live :: descsOf pending :: s.dma.released :: held.map descsOf

/-- Which of `placeLists` a place is. -/
private def Place.index : Place → Nat
  | .dmaList => 0
  | .dmaPendingFree => 1
  | .released => 2
  | .call i => i + 3

private theorem sitsAt_iff (d : Nat) (p : Place) :
    SitsAt s live pending held d p
      ↔ ∃ l, (placeLists s live pending held)[p.index]? = some l
        ∧ d ∈ l := by
  cases p with
  | dmaList => simp [SitsAt, placeLists, Place.index]
  | dmaPendingFree => simp [SitsAt, placeLists, Place.index]
  | released => simp [SitsAt, placeLists, Place.index]
  | call i => simp [SitsAt, placeLists, Place.index]

private theorem Place.of_index {p q : Place} (h : p.index = q.index) :
    p = q := by
  cases p <;> cases q <;> simp_all [Place.index]

private theorem Place.index_surj (k : Nat) : ∃ p : Place, p.index = k := by
  match k with
  | 0 => exact ⟨.dmaList, rfl⟩
  | 1 => exact ⟨.dmaPendingFree, rfl⟩
  | 2 => exact ⟨.released, rfl⟩
  | i + 3 => exact ⟨.call i, rfl⟩

/-- Lists without a common member or a repetition have each member in one
of them. -/
private theorem getElem?_inj_of_mem {α : Type _} {ls : List (List α)}
    (hnd : ls.flatten.Nodup) {i j : Nat} {l l' : List α} {a : α}
    (hi : ls[i]? = some l) (hj : ls[j]? = some l') (ha : a ∈ l)
    (ha' : a ∈ l') : i = j := by
  have hpair := (List.nodup_flatten.1 hnd).2
  obtain ⟨hil, rfl⟩ := List.getElem?_eq_some_iff.1 hi
  obtain ⟨hjl, rfl⟩ := List.getElem?_eq_some_iff.1 hj
  rcases Nat.lt_trichotomy i j with hlt | heq | hgt
  · exact absurd ha' (List.pairwise_iff_getElem.1 hpair i j hil hjl hlt ha)
  · exact heq
  · exact absurd ha (List.pairwise_iff_getElem.1 hpair j i hjl hil hgt ha')

/-- Every buffer ever made is in exactly one place. -/
theorem Places.exactly_one (h : Places s live pending held) {d : Nat}
    (hd : d < s.dma.descs) : ∃! p, SitsAt s live pending held d p := by
  have hperm : (placeLists s live pending held).flatten.Perm
      (List.range s.dma.descs) := by
    refine List.Perm.trans ?_ h.once
    show (descsOf live ++ (descsOf pending ++ (s.dma.released
      ++ (held.map descsOf).flatten))).Perm _
    have hmap : (held.map descsOf).flatten = descsOf held.flatten :=
      List.map_flatten.symm
    rw [hmap, descsOf_append, descsOf_append, List.append_assoc,
      List.append_assoc]
    exact (List.perm_append_comm.append_left _).append_left _
  have hnd := hperm.nodup_iff.2 List.nodup_range
  obtain ⟨l, hl, hdl⟩ := List.mem_flatten.1
    (hperm.mem_iff.2 (List.mem_range.2 hd))
  obtain ⟨k, hk⟩ := List.mem_iff_getElem?.1 hl
  obtain ⟨p, rfl⟩ := Place.index_surj k
  refine ⟨p, (sitsAt_iff d p).2 ⟨l, hk, hdl⟩, fun q hq => ?_⟩
  obtain ⟨l', hl', hdl'⟩ := (sitsAt_iff d q).1 hq
  exact Place.of_index (getElem?_inj_of_mem hnd hl' hk hdl' hdl)

/-- And none is released twice. -/
theorem Places.released_nodup (h : Places s live pending held) :
    s.dma.released.Nodup :=
  (List.nodup_append.1 (h.once.nodup_iff.2 List.nodup_range)).2.1

-- ==================================================================== runs

/-- From a state in which every buffer has its place, no section
faults. -/
theorem Places.run (h : Places s live pending held) (es : List DmaEvent) :
    ∃ s', es.foldlM dmaStep s = some s'
      ∧ ∃ live' pending' held', Places s' live' pending' held' := by
  induction es generalizing s live pending held with
  | nil => exact ⟨s, rfl, live, pending, held, h⟩
  | cons e es ih =>
      obtain ⟨s₁, heq, live₁, pending₁, held₁, h₁, -⟩ := h.step e
      obtain ⟨s', heq', h'⟩ := ih h₁
      refine ⟨s', ?_, h'⟩
      rw [List.foldlM_cons, heq]
      exact heq'

theorem Places.init : Places DmaSys.init [] [] [] where
  onList := rfl
  onPending := rfl
  perCall := rfl
  byCall i c l hc := by cases hc
  apart := List.nodup_nil
  once := List.Perm.refl _

-- ================================================================== the frees

/-- While nothing is allocated, a run leaves on the list what its frees
did not ask for. -/
theorem Places.frees (h : Places s live pending held) (hset : s.Settled)
    {gs : List DmaEvent} (hgs : ∀ e ∈ gs, e.allocates = false) :
    ∃ s' pending' held', gs.foldlM dmaStep s = some s'
      ∧ Places s' (gs.foldl (fun l e => e.leaves l) live) pending'
        held' := by
  induction gs generalizing s live pending held with
  | nil => exact ⟨s, pending, held, rfl, h⟩
  | cons e gs ih =>
      obtain ⟨s₁, heq, live₁, pending₁, held₁, h₁, hkeep⟩ := h.step e
      obtain ⟨hset₁, rfl⟩ := hkeep (hgs e List.mem_cons_self) hset
      obtain ⟨s', pending', held', heq', h'⟩ := ih h₁ hset₁
        fun e' he' => hgs e' (List.mem_cons_of_mem _ he')
      refine ⟨s', pending', held', ?_, h'⟩
      rw [List.foldlM_cons, heq]
      exact heq'

theorem DmaEvent.leaves_sublist (e : DmaEvent) (l : List DmaNode) :
    (e.leaves l).Sublist l := by
  unfold DmaEvent.leaves
  split
  · exact List.eraseP_sublist
  · exact List.Sublist.refl l

theorem foldl_leaves_sublist (gs : List DmaEvent) (l : List DmaNode) :
    (gs.foldl (fun l e => e.leaves l) l).Sublist l := by
  induction gs generalizing l with
  | nil => exact List.Sublist.refl l
  | cons e gs ih => exact (ih _).trans (e.leaves_sublist l)

/-- As many frees by a test as there are nodes that pass it leave none. -/
theorem countP_foldl_leaves {test : DMAEntry → Bool}
    {asks : DmaEvent → Bool}
    (hasks : ∀ e, asks e = true → e.test = some test)
    {gs : List DmaEvent} {l : List DmaNode}
    (h : (l.countP fun x => test x.2) ≤ gs.countP asks) :
    ((gs.foldl (fun l e => e.leaves l) l).countP fun x => test x.2) = 0 := by
  induction gs generalizing l with
  | nil => exact Nat.le_zero.1 h
  | cons e gs ih =>
      refine ih ?_
      rw [List.countP_cons] at h
      by_cases he : asks e = true
      · rw [if_pos he] at h
        have hleaves : e.leaves l = l.eraseP fun x => test x.2 := by
          unfold DmaEvent.leaves
          rw [hasks e he]
        show ((e.leaves l).countP fun x => test x.2) ≤ _
        rw [hleaves]
        rcases List.exists_or_eq_self_of_eraseP (fun x => test x.2) l with
          heq | ⟨x, l₁, l₂, -, hx, rfl, heq⟩
        · have hno : (l.countP fun x => test x.2) = 0 := by
            by_contra hne
            obtain ⟨x, hx, htest⟩ :=
              List.countP_pos_iff.1 (Nat.pos_of_ne_zero hne)
            have hlen := List.length_eraseP_of_mem
              (p := fun x : DmaNode => test x.2) hx htest
            rw [heq] at hlen
            have hpos := List.length_pos_of_mem hx
            omega
          rw [heq, hno]
          exact Nat.zero_le _
        · rw [heq, List.countP_append]
          rw [List.countP_append, List.countP_cons_of_pos
            (p := fun x : DmaNode => test x.2) hx] at h
          omega
      · rw [if_neg he] at h
        exact Nat.le_trans (e.leaves_sublist l).countP_le h

/-- A free of every buffer empties the list. -/
theorem FreesAll.foldl_leaves {gs : List DmaEvent}
    (h : FreesAll live gs) :
    gs.foldl (fun l e => e.leaves l) live = [] := by
  refine List.eq_nil_iff_forall_not_mem.2 fun x hx => ?_
  have hlive := (foldl_leaves_sublist gs live).subset hx
  have hvirt : ∀ (v : Nat) (e : DmaEvent), e.freesVirt v = true →
      e.test = some (DMAEntry.atVirt v) := by
    intro v e he
    cases e with
    | freeCoherent size virt phys =>
        rw [← beq_iff_eq.1 he]
        rfl
    | _ => cases he
  have hphys : ∀ (p : Nat) (e : DmaEvent), e.freesPhys p = true →
      e.test = some (DMAEntry.atPhys p) := by
    intro p e he
    cases e with
    | freeCoherentByPhys phys =>
        rw [← beq_iff_eq.1 he]
        rfl
    | _ => cases he
  rcases h x hlive with hle | hle
  · have hnone := List.countP_eq_zero.1
      (countP_foldl_leaves (hvirt x.2.virt) hle) x hx
    exact hnone (beq_self_eq_true _)
  · have hnone := List.countP_eq_zero.1
      (countP_foldl_leaves (hphys x.2.phys) hle) x hx
    exact hnone (beq_self_eq_true _)

-- ============================================================== at the end

/-- Every buffer was freed and no free or allocation is in progress. -/
private def Drained (s : DmaSys) : Prop :=
  s.dma.dmaList = none ∧ ∀ c ∈ s.calls, c.drains = true

/-- A drain's steps keep it so, and put nothing on the pending list. -/
private theorem Drained.step {s' : DmaSys} {e : DmaEvent} (h : Drained s)
    (he : e.drains = true) (hs' : dmaStep s e = some s') :
    Drained s' ∧ (s.dma.dmaPendingFree = none →
      s'.dma.dmaPendingFree = none) := by
  cases e with
  | allocCoherent size ans => cases he
  | freeCoherent size virt phys => cases he
  | freeCoherentByPhys phys => cases he
  | drainPendingFree =>
      obtain rfl := Option.some.inj hs'
      refine ⟨⟨h.1, fun c hc => ?_⟩, fun _ => rfl⟩
      rcases List.mem_append.1 hc with hc | hc
      · exact h.2 c hc
      · rw [List.mem_singleton.1 hc]
        rfl
  | next i preemption =>
      rw [dmaStep] at hs'
      cases hi : s.calls[i]? with
      | none =>
          rw [hi] at hs'
          obtain rfl := Option.some.inj hs'
          exact ⟨h, id⟩
      | some c =>
          rw [hi] at hs'
          have hc := h.2 c (List.mem_of_getElem? hi)
          -- the call's own place, and the others'
          have hset : ∀ c' : DmaCall, c'.drains = true →
              ∀ c'' ∈ s.calls.set i c', c''.drains = true := by
            intro c' hc' c'' hmem
            rcases List.mem_or_eq_of_mem_set hmem with hmem | rfl
            · exact h.2 c'' hmem
            · exact hc'
          cases c with
          | linking e => cases hc
          | freeing e => cases hc
          | done =>
              obtain rfl := Option.some.inj hs'
              exact ⟨h, id⟩
          | draining e =>
              cases e with
              | none =>
                  obtain rfl := Option.some.inj hs'
                  exact ⟨⟨h.1, hset .done rfl⟩, id⟩
              | some e =>
                  change (s.dma.cell e).bind (fun c =>
                    ((s.dma.release e).bind fun d =>
                      some { dma := d
                             calls := s.calls.set i (.draining c.next) }))
                    = some s' at hs'
                  rw [Dma.release] at hs'
                  cases hcell : s.dma.cell e with
                  | none =>
                      rw [hcell] at hs'
                      cases hs'
                  | some x =>
                      rw [hcell] at hs'
                      obtain rfl := Option.some.inj hs'
                      exact ⟨⟨h.1, hset (.draining x.next) rfl⟩, id⟩

/-- Any number of them does. -/
private theorem Drained.run {s' : DmaSys} {fs : List DmaEvent}
    (h : Drained s) (hfs : ∀ e ∈ fs, e.drains = true)
    (hs' : fs.foldlM dmaStep s = some s') :
    Drained s' ∧ (s.dma.dmaPendingFree = none →
      s'.dma.dmaPendingFree = none) := by
  induction fs generalizing s with
  | nil =>
      obtain rfl := Option.some.inj hs'
      exact ⟨h, id⟩
  | cons e fs ih =>
      rw [List.foldlM_cons] at hs'
      obtain ⟨s₁, hs₁, hrest⟩ := Option.bind_eq_some_iff.1 hs'
      obtain ⟨h₁, hp₁⟩ := h.step (hfs e List.mem_cons_self) hs₁
      obtain ⟨h₂, hp₂⟩ := ih h₁
        (fun e he => hfs e (List.mem_cons_of_mem _ he)) hrest
      exact ⟨h₂, fun hp => hp₂ (hp₁ hp)⟩

/-- With nothing on a list and every call over, all is released. -/
theorem Places.all_released (h : Places s live pending held)
    (hlist : s.dma.dmaList = none) (hpending : s.dma.dmaPendingFree = none)
    (hdone : ∀ c ∈ s.calls, c = .done) :
    s.dma.released.Perm (List.range s.dma.descs) := by
  have hlive : live = [] := by
    cases hl : live with
    | nil => rfl
    | cons x l =>
        have hseg := h.onList
        rw [hl, hlist] at hseg
        cases hseg.1
  have hpend : pending = [] := by
    cases hl : pending with
    | nil => rfl
    | cons x l =>
        have hseg := h.onPending
        rw [hl, hpending] at hseg
        cases hseg.1
  have hheld : held.flatten = [] := by
    refine List.flatten_eq_nil_iff.2 fun l hl => ?_
    obtain ⟨i, hi⟩ := List.mem_iff_getElem?.1 hl
    have hlt : i < s.calls.length := by
      rw [← h.perCall]
      exact (List.getElem?_eq_some_iff.1 hi).1
    have hbc := h.byCall i s.calls[i] l (List.getElem?_eq_getElem hlt) hi
    rw [hdone _ (List.getElem_mem hlt)] at hbc
    exact hbc
  have honce := h.once
  rw [hlive, hpend, hheld] at honce
  exact honce

/-- A drain that starts with an empty list and no free in progress
releases, once it and its like are over, all there ever was. -/
private theorem drained_released {es fs : List DmaEvent} {s' : DmaSys}
    (hs : dmaRun es = some s) (hd : Drained s)
    (hfs : ∀ e ∈ fs, e.drains = true)
    (hs' : dmaRun (es ++ .drainPendingFree :: fs) = some s')
    (hdone : ∀ c ∈ s'.calls, c = .done) :
    s'.dma.released.Perm (List.range s'.dma.descs) := by
  obtain ⟨s₂, hs₂, live', pending', held', h'⟩ :=
    Places.init.run (es ++ .drainPendingFree :: fs)
  obtain rfl : s' = s₂ := Option.some.inj (hs'.symm.trans hs₂)
  rw [dmaRun, List.foldlM_append] at hs'
  obtain ⟨s₀, hs₀, hrest⟩ := Option.bind_eq_some_iff.1 hs'
  obtain rfl : s = s₀ := Option.some.inj (hs.symm.trans hs₀)
  -- the drain takes the pending nodes, and no more come
  rw [List.foldlM_cons] at hrest
  obtain ⟨s₁, hs₁, hrun⟩ := Option.bind_eq_some_iff.1 hrest
  obtain ⟨hd₁, -⟩ := hd.step (e := .drainPendingFree) rfl hs₁
  have hp₁ : s₁.dma.dmaPendingFree = none := by
    obtain rfl := Option.some.inj hs₁
    rfl
  obtain ⟨hd', hp'⟩ := hd₁.run hfs hrun
  exact h'.all_released hd'.1 (hp' hp₁) hdone

-- ================================================================== result

/-- In every run no section meets a freed node, and every buffer made is
in exactly one place: on `_dmaList`, on `_dmaPendingFree`, with one call
in progress, or released, once. The lists end and share no node. A free
of an address that a buffer has takes the first such buffer off the list
and to itself; a free of one that none has changes nothing. And when no
allocation is in progress, a free for every buffer on the list, in any
order with other frees and with drains, and behind them a drain that
starts with no free in progress, end with every buffer released. -/
theorem dma_entries_placed (es : List DmaEvent) :
    ∃ s live pending held, dmaRun es = some s
      ∧ Places s live pending held
      ∧ (∀ d < s.dma.descs, ∃! p, SitsAt s live pending held d p)
      ∧ s.dma.released.Nodup
      ∧ (∀ e test x, e.test = some test →
        live.find? (fun y => test y.2) = some x →
        ∃ s', dmaStep s e = some s' ∧ s'.calls = s.calls ++ [.freeing x.1]
          ∧ Places s' (live.eraseP fun y => test y.2) pending
            (held ++ [[x]]))
      ∧ (∀ size virt phys, (∀ x ∈ live, x.2.virt ≠ virt) →
        dmaStep s (.freeCoherent size virt phys) = some s)
      ∧ (∀ phys, (∀ x ∈ live, x.2.phys ≠ phys) →
        dmaStep s (.freeCoherentByPhys phys) = some s)
      ∧ (s.Settled → ∀ gs : List DmaEvent,
        (∀ e ∈ gs, e.allocates = false) → FreesAll live gs →
        ∀ t, dmaRun (es ++ gs) = some t →
        (∀ c ∈ t.calls, c.drains = true) →
        ∀ fs : List DmaEvent, (∀ e ∈ fs, e.drains = true) →
        ∀ s', dmaRun (es ++ gs ++ .drainPendingFree :: fs) = some s' →
        (∀ c ∈ s'.calls, c = .done) →
        s'.dma.released.Perm (List.range s'.dma.descs)) := by
  obtain ⟨s, hs, live, pending, held, h⟩ := Places.init.run es
  refine ⟨s, live, pending, held, hs, h, fun d hd => h.exactly_one hd,
    h.released_nodup, fun e test x htest hx => ?_,
    fun size virt phys hno => h.free_miss fun x hx => ?_,
    fun phys hno => h.free_miss fun x hx => ?_, ?_⟩
  · cases e with
    | freeCoherent size virt phys =>
        obtain rfl := Option.some.inj htest
        exact h.free_hit hx
    | freeCoherentByPhys phys =>
        obtain rfl := Option.some.inj htest
        exact h.free_hit hx
    | _ => cases htest
  · simpa [DMAEntry.atVirt] using hno x hx
  · simpa [DMAEntry.atPhys] using hno x hx
  · intro hset gs hgs hall t ht hcalls fs hfs s' hs' hdone
    -- the frees empty the list
    obtain ⟨t₀, pending₁, held₁, ht₀, h₁⟩ := h.frees hset hgs
    rw [hall.foldl_leaves] at h₁
    have hrun : dmaRun (es ++ gs) = some t₀ := by
      rw [dmaRun, List.foldlM_append, ← dmaRun,
        show dmaRun es = some s from hs]
      exact ht₀
    obtain rfl : t = t₀ := Option.some.inj (ht.symm.trans hrun)
    exact drained_released ht ⟨h₁.onList, hcalls⟩ hfs hs' hdone

/-- Two buffers: the first freed by its address with preemption disabled,
the second by its physical address, and a drain. -/
theorem sample_entries_placed :
    let es : List DmaEvent :=
      [.allocCoherent 64 ⟨some (16, 32), some 4⟩, .next 0 true,
        .allocCoherent 64 ⟨some (96, 128), some 5⟩, .next 1 true]
    let gs : List DmaEvent :=
      [.freeCoherent 64 16 32, .freeCoherentByPhys 128, .next 2 false,
        .next 3 true]
    ∃ t s', dmaRun (es ++ gs) = some t ∧ t.dma.released = [1]
      ∧ dmaRun (es ++ gs ++ [.drainPendingFree, .next 4 true, .next 4 true])
        = some s'
      ∧ s'.dma.released.Perm (List.range 2) := by
  intro es gs
  obtain ⟨s, live, pending, held, hs, h, -, -, -, -, -, hend⟩ :=
    dma_entries_placed es
  obtain rfl := Option.some.inj hs
  have hlive : live = [(5, ⟨1, 96, 128, 64, 0⟩), (4, ⟨0, 16, 32, 64, 0⟩)] :=
    h.onList.unique ⟨rfl, _, rfl, rfl, _, rfl, rfl⟩
  subst hlive
  refine ⟨_, _, rfl, rfl, rfl, ?_⟩
  exact hend (by decide) gs (by decide) (by decide) _ rfl (by decide)
    [.next 4 true, .next 4 true] (by decide) _ rfl (by decide)

end Rtw88
