/-
Every section keeps every DMA buffer in one place, and no section meets a
node that was freed: `dma_entries_placed`.

A section moves nodes from one list to another (`Places.move`) or
releases one that a call has to itself (`Places.release`); `split_perm`
takes what a call holds out of all the rest.

# Places

A node is on the list of live buffers, on the list of those whose
release is put off, in the hands of one call in progress, or released.
`Places` says that the nodes of all these together are the nodes ever
made, each once, and that the cells of memory are theirs; the two lists
are linked lists, walked and unlinked by pointer. The calls are those of
all threads: each stands between two sections of its function, and what
it holds there is its own.

# Sections

A section under the lock is one step, and there is one lemma a section
(`Places.link`, `Places.defer`, `Places.takePending`, …). It has three
things to show: that the pointers it follows lead to nodes, that the
lists are lists afterwards, and that the nodes are the same up to order.
The third is a permutation, with the call's own nodes in front.

A free looks for the first node that passes its test. Where one does, it
goes from the list to the call, and the others stay in their order
(`Places.free_hit`); where none does nothing changes (`Places.free_miss`).
`DmaEvent.leaves` is that said of the descriptors, for a step that
allocates nothing.
-/
import Rtw88.Spec.Dma

namespace Rtw88

variable {s : DmaSys} {live pending : List DmaNode}
variable {held : List (List DmaNode)}

-- =================================================================== lists

/-- Every call's nodes, with one call's replaced. -/
theorem flatten_set_perm {α : Type _} {ls : List (List α)} {i : Nat}
    {l l' : List α} (hi : ls[i]? = some l) :
    (l ++ (ls.set i l').flatten).Perm (l' ++ ls.flatten) := by
  induction ls generalizing i with
  | nil => cases hi
  | cons l₀ ls ih =>
      cases i with
      | zero =>
          obtain rfl : l₀ = l := Option.some.inj hi
          rw [List.set_cons_zero, List.flatten_cons, List.flatten_cons]
          exact List.perm_append_comm_assoc l₀ l' _
      | succ i =>
          rw [List.set_cons_succ, List.flatten_cons, List.flatten_cons]
          have hrec : (l ++ (ls.set i l').flatten).Perm (l' ++ ls.flatten) :=
            ih hi
          exact (List.perm_append_comm_assoc l l₀ _).trans
            ((hrec.append_left l₀).trans (List.perm_append_comm_assoc l₀ l' _))

theorem addrs_perm {l l' : List DmaNode} (h : l.Perm l') :
    (addrs l).Perm (addrs l') := h.map _

theorem descsOf_perm {l l' : List DmaNode} (h : l.Perm l') :
    (descsOf l).Perm (descsOf l') := h.map _

@[simp] theorem descsOf_append (l l' : List DmaNode) :
    descsOf (l ++ l') = descsOf l ++ descsOf l' := List.map_append

@[simp] theorem addrs_append (l l' : List DmaNode) :
    addrs (l ++ l') = addrs l ++ addrs l' := List.map_append

@[simp] theorem descsOf_cons (x : DmaNode) (l : List DmaNode) :
    descsOf (x :: l) = x.2.desc :: descsOf l := rfl

@[simp] theorem addrs_cons (x : DmaNode) (l : List DmaNode) :
    addrs (x :: l) = x.1 :: addrs l := rfl

/-- What a call holds only depends on its own nodes. -/
theorem DmaCall.Holds.congr {m m' : Nat → Option (Cell Nat DMAEntry)}
    {c : DmaCall} {l : List DmaNode} (h : c.Holds m l)
    (heq : ∀ a ∈ addrs l, m' a = m a) : c.Holds m' l := by
  cases c with
  | linking e =>
      obtain ⟨x, n, hx, rfl⟩ := h
      exact ⟨x, n, (heq e List.mem_cons_self).trans hx, rfl⟩
  | freeing e =>
      obtain ⟨x, n, hx, rfl⟩ := h
      exact ⟨x, n, (heq e List.mem_cons_self).trans hx, rfl⟩
  | draining e => exact Seg.congr heq h
  | done => exact h

/-- Every node a call holds has its cell. -/
theorem DmaCall.Holds.cell {m : Nat → Option (Cell Nat DMAEntry)}
    {c : DmaCall} {l : List DmaNode} (h : c.Holds m l) {x : DmaNode}
    (hx : x ∈ l) : ∃ n, m x.1 = some ⟨x.2, n⟩ := by
  cases c with
  | linking e =>
      obtain ⟨y, n, hy, rfl⟩ := h
      rw [List.mem_singleton.1 hx]
      exact ⟨n, hy⟩
  | freeing e =>
      obtain ⟨y, n, hy, rfl⟩ := h
      rw [List.mem_singleton.1 hx]
      exact ⟨n, hy⟩
  | draining e => exact Seg.cell_of_mem h hx
  | done =>
      have hl : l = [] := h
      rw [hl] at hx
      cases hx

-- ============================================================ moving a node

/-- All nodes, with those of one call in front. -/
theorem split_perm (live pending : List DmaNode) {i : Nat}
    {l : List DmaNode} (hi : held[i]? = some l) (l' : List DmaNode) :
    (l' ++ (live ++ pending ++ held.flatten)).Perm
      (l ++ (live ++ pending ++ (held.set i l').flatten)) := by
  have hset := @flatten_set_perm _ held i l l' hi
  refine (List.perm_append_comm_assoc l' (live ++ pending) _).trans ?_
  refine (hset.symm.append_left (live ++ pending)).trans ?_
  exact List.perm_append_comm_assoc (live ++ pending) l _

/-- A node of one call is none of the lists', and none of another's. -/
theorem Places.off_others (h : Places s live pending held) {i : Nat}
    {x : DmaNode} {l : List DmaNode} (hi : held[i]? = some (x :: l)) :
    x.1 ∉ addrs live ∧ x.1 ∉ addrs pending ∧ x.1 ∉ addrs l
      ∧ ∀ (j : Nat) (l' : List DmaNode), j ≠ i → held[j]? = some l' →
        x.1 ∉ addrs l' := by
  have hperm := addrs_perm (split_perm live pending hi [])
  rw [List.nil_append] at hperm
  have hnd := hperm.nodup_iff.1 h.apart
  rw [List.cons_append, addrs_cons, List.nodup_cons] at hnd
  have hout := hnd.1
  simp only [addrs_append, List.mem_append, not_or] at hout
  refine ⟨hout.2.1.1, hout.2.1.2, hout.1, fun j l' hj hl' hmem => ?_⟩
  refine hout.2.2 ?_
  have hset : (held.set i [])[j]? = some l' := by
    rw [List.getElem?_set_ne (Ne.symm hj)]
    exact hl'
  obtain ⟨y, hy, hyx⟩ := List.mem_map.1 hmem
  refine List.mem_map.2 ⟨y, ?_, hyx⟩
  exact List.mem_flatten.2 ⟨l', List.mem_of_getElem? hset, hy⟩

/-- The parts of a state after a step that moved nodes about and made and
released none. -/
theorem Places.move (h : Places s live pending held) {s' : DmaSys}
    {live' pending' : List DmaNode} {held' : List (List DmaNode)}
    (hperm : (live ++ pending ++ held.flatten).Perm
      (live' ++ pending' ++ held'.flatten))
    (hdescs : s'.dma.descs = s.dma.descs)
    (hrel : s'.dma.released = s.dma.released)
    (hlive : Seg s'.dma.cell s'.dma.dmaList live' none)
    (hpending : Seg s'.dma.cell s'.dma.dmaPendingFree pending' none)
    (hlen : held'.length = s'.calls.length)
    (hcalls : ∀ (i : Nat) (c : DmaCall) (l : List DmaNode),
      s'.calls[i]? = some c → held'[i]? = some l → c.Holds s'.dma.cell l) :
    Places s' live' pending' held' where
  onList := hlive
  onPending := hpending
  perCall := hlen
  byCall := hcalls
  apart := (addrs_perm hperm).nodup_iff.1 h.apart
  once := by
    rw [hdescs, hrel]
    exact ((descsOf_perm hperm).symm.append_right _).trans h.once

/-- A call gets other nodes and a store hits none but its old ones: the
other calls hold what they held. -/
theorem Places.others (h : Places s live pending held) {i : Nat}
    {c : DmaCall} {l : List DmaNode} {x : DmaNode} {rest : List DmaNode}
    {m : Nat → Option (Cell Nat DMAEntry)}
    (hi : held[i]? = some (x :: rest))
    (hoff : ∀ a, a ≠ x.1 → m a = s.dma.cell a) (hc : c.Holds m l) :
    ∀ (j : Nat) (c' : DmaCall) (l' : List DmaNode),
      (s.calls.set i c)[j]? = some c' → (held.set i l)[j]? = some l' →
      c'.Holds m l' := by
  intro j c' l' hc' hl'
  obtain ⟨-, -, -, hothers⟩ := h.off_others hi
  by_cases hj : j = i
  · subst hj
    have hlt : j < held.length := (List.getElem?_eq_some_iff.1 hi).1
    rw [List.getElem?_set_self (h.perCall ▸ hlt)] at hc'
    rw [List.getElem?_set_self hlt] at hl'
    rw [← Option.some.inj hc', ← Option.some.inj hl']
    exact hc
  · rw [List.getElem?_set_ne (Ne.symm hj)] at hc' hl'
    refine (h.byCall j c' l' hc' hl').congr fun a ha => hoff a fun hax => ?_
    exact hothers j l' hj hl' (hax ▸ ha)

-- ================================================================= sections

/-- What call `i` holds. -/
theorem Places.holds (h : Places s live pending held) {i : Nat}
    {c : DmaCall} (hi : s.calls[i]? = some c) :
    ∃ l, held[i]? = some l ∧ c.Holds s.dma.cell l := by
  have hlt : i < held.length := by
    rw [h.perCall]
    exact (List.getElem?_eq_some_iff.1 hi).1
  exact ⟨held[i], List.getElem?_eq_getElem hlt,
    h.byCall i c _ hi (List.getElem?_eq_getElem hlt)⟩

/-- The release of the first node a call holds. -/
theorem Places.release (h : Places s live pending held) {i : Nat}
    {x : DmaNode} {rest : List DmaNode} {n : Option Nat} {c : DmaCall}
    (hi : held[i]? = some (x :: rest)) (hx : s.dma.cell x.1 = some ⟨x.2, n⟩)
    (hc : ∀ m, (∀ a, a ≠ x.1 → m a = s.dma.cell a) → c.Holds m rest) :
    ∃ d, s.dma.release x.1 = some d
      ∧ Places { dma := d, calls := s.calls.set i c } live pending
        (held.set i rest) := by
  obtain ⟨hlive, hpending, -, -⟩ := h.off_others hi
  have hoff : ∀ a, a ≠ x.1 →
      Function.update s.dma.cell x.1 none a = s.dma.cell a :=
    fun a ha => Function.update_of_ne ha _ _
  refine ⟨_, by rw [Dma.release, hx]; rfl, ?_⟩
  -- the node leaves the lists, and its descriptor joins the released ones
  have hperm := split_perm live pending hi rest
  have hall : (live ++ pending ++ held.flatten).Perm
      (x :: (live ++ pending ++ (held.set i rest).flatten)) := by
    have hcons : (rest ++ (live ++ pending ++ held.flatten)).Perm
        (rest ++ x :: (live ++ pending ++ (held.set i rest).flatten)) :=
      hperm.trans List.perm_middle.symm
    exact (List.perm_append_left_iff rest).1 hcons
  have hnd := (addrs_perm hall).nodup_iff.1 h.apart
  exact {
    onList := h.onList.update_off hlive
    onPending := h.onPending.update_off hpending
    perCall := by
      rw [List.length_set, h.perCall]
      exact List.length_set.symm
    byCall := h.others hi hoff (hc _ hoff)
    apart := (List.nodup_cons.1 hnd).2
    once := by
      refine List.Perm.trans ?_ h.once
      refine List.perm_middle.trans ?_
      exact ((descsOf_perm hall).symm.append_right _) }

/-- The node a free has unlinked goes to the pending ones. -/
theorem Places.defer (h : Places s live pending held) {i : Nat}
    {x : DmaNode} {n : Option Nat} (hi : held[i]? = some [x])
    (hx : s.dma.cell x.1 = some ⟨x.2, n⟩) :
    ∃ d, s.dma.defer x.1 = some d
      ∧ Places { dma := d, calls := s.calls.set i .done } live
        (x :: pending) (held.set i []) := by
  obtain ⟨hlive, hpending, -, -⟩ := h.off_others hi
  have hoff : ∀ a, a ≠ x.1 →
      Function.update s.dma.cell x.1 (some ⟨x.2, s.dma.dmaPendingFree⟩) a
        = s.dma.cell a :=
    fun a ha => Function.update_of_ne ha _ _
  refine ⟨_, by rw [Dma.defer, hx]; rfl, ?_⟩
  have hperm : (live ++ pending ++ held.flatten).Perm
      (live ++ x :: pending ++ (held.set i []).flatten) := by
    have hmid : (x :: (live ++ (pending ++ (held.set i []).flatten))).Perm
        (live ++ x :: (pending ++ (held.set i []).flatten)) :=
      List.perm_middle.symm
    refine (split_perm live pending hi []).trans ?_
    simpa only [List.append_assoc, List.cons_append, List.nil_append]
      using hmid
  refine h.move hperm rfl rfl (h.onList.update_off hlive)
    (h.onPending.push x.2 hpending) ?_ (h.others hi hoff rfl)
  rw [List.length_set, h.perCall]
  exact List.length_set.symm

/-- The node an allocation has filled in goes to the list. -/
theorem Places.link (h : Places s live pending held) {i : Nat}
    {x : DmaNode} {n : Option Nat} (hi : held[i]? = some [x])
    (hx : s.dma.cell x.1 = some ⟨x.2, n⟩) :
    ∃ d, s.dma.link x.1 = some d
      ∧ Places { dma := d, calls := s.calls.set i .done } (x :: live)
        pending (held.set i []) := by
  obtain ⟨hlive, hpending, -, -⟩ := h.off_others hi
  have hoff : ∀ a, a ≠ x.1 →
      Function.update s.dma.cell x.1 (some ⟨x.2, s.dma.dmaList⟩) a
        = s.dma.cell a :=
    fun a ha => Function.update_of_ne ha _ _
  refine ⟨_, by rw [Dma.link, hx]; rfl, ?_⟩
  refine h.move (split_perm live pending hi [])
    rfl rfl (h.onList.push x.2 hlive) (h.onPending.update_off hpending) ?_
    (h.others hi hoff rfl)
  rw [List.length_set, h.perCall]
  exact List.length_set.symm

/-- A new call with nodes none of the others has. -/
theorem Places.newCall (h : Places s live pending held)
    {m : Nat → Option (Cell Nat DMAEntry)} {c : DmaCall} {l : List DmaNode}
    (hoff : ∀ a ∈ addrs held.flatten, m a = s.dma.cell a)
    (hc : c.Holds m l) :
    ∀ (j : Nat) (c' : DmaCall) (l' : List DmaNode),
      (s.calls ++ [c])[j]? = some c' → (held ++ [l])[j]? = some l' →
      c'.Holds m l' := by
  intro j c' l' hc' hl'
  by_cases hj : j < s.calls.length
  · rw [List.getElem?_append_left hj] at hc'
    rw [List.getElem?_append_left (h.perCall ▸ hj)] at hl'
    refine (h.byCall j c' l' hc' hl').congr fun a ha => hoff a ?_
    obtain ⟨y, hy, hya⟩ := List.mem_map.1 ha
    exact List.mem_map.2
      ⟨y, List.mem_flatten.2 ⟨l', List.mem_of_getElem? hl', hy⟩, hya⟩
  · have hle : s.calls.length ≤ j := Nat.le_of_not_lt hj
    rw [List.getElem?_append_right hle] at hc'
    rw [List.getElem?_append_right (h.perCall ▸ hle), h.perCall] at hl'
    cases hk : j - s.calls.length with
    | zero =>
        rw [hk] at hc' hl'
        rw [← Option.some.inj hc', ← Option.some.inj hl']
        exact hc
    | succ k =>
        rw [hk] at hc'
        cases hc'

/-- The lists with a call's nodes added behind the others. -/
private theorem newCall_perm (live pending : List DmaNode)
    (held : List (List DmaNode)) (l : List DmaNode) :
    (live ++ pending ++ (held ++ [l]).flatten).Perm
      (l ++ (live ++ pending ++ held.flatten)) := by
  rw [List.flatten_append, List.flatten_singleton, ← List.append_assoc]
  exact List.perm_append_comm

/-- The list is never longer than the number of descriptors. -/
theorem Places.live_length (h : Places s live pending held) :
    live.length < s.dma.descs + 1 := by
  have hle := h.once.length_eq
  simp only [List.length_append, List.length_range, descsOf,
    List.length_map] at hle
  omega

/-- A free up to the end of its section, where a node passes its test. -/
theorem Places.free_hit (h : Places s live pending held)
    {test : DMAEntry → Bool} {x : DmaNode}
    (hx : live.find? (fun y => test y.2) = some x) :
    ∃ s', s.free test = some s' ∧ s'.calls = s.calls ++ [.freeing x.1]
      ∧ Places s' (live.eraseP fun y => test y.2) pending
        (held ++ [[x]]) := by
  have hapart := h.apart
  rw [List.append_assoc, addrs_append] at hapart
  obtain ⟨hnd, -, hdisj⟩ := List.nodup_append.1 hapart
  -- what is on the list is neither pending nor with a call
  have hoffs : ∀ a, a ∈ addrs pending ∨ a ∈ addrs held.flatten →
      a ∉ addrs live := by
    intro a ha hlive
    refine hdisj a hlive a ?_ rfl
    rw [addrs_append]
    exact List.mem_append.2 ha
  obtain ⟨c', n, heq, hseg, hcell, hoff⟩ :=
    @unlinkFrom_hit _ _ _ _ _ ⟨s.dma.cell, s.dma.dmaList⟩ [] live _ x
      h.onList h.onList hnd h.live_length hx
  refine ⟨{ dma := { s.dma with cell := c'.cell, dmaList := c'.head }
            calls := s.calls ++ [.freeing x.1] }, ?_, rfl, ?_⟩
  · rw [DmaSys.free, Dma.unlink]
    rw [show unlinkFrom test (s.dma.descs + 1) .head s.dma.dmaList
      ⟨s.dma.cell, s.dma.dmaList⟩ = some (some x.1, c') from heq]
    rfl
  · have hmem : x ∈ live := List.mem_of_find?_eq_some hx
    have hsplit : live.Perm (x :: live.eraseP fun y => test y.2) := by
      obtain ⟨htest, l₁, l₂, rfl, hno⟩ := List.find?_eq_some_iff_append.1 hx
      rw [List.eraseP_append_right, List.eraseP_cons_of_pos]
      · exact List.perm_middle
      · exact htest
      · intro y hy
        simpa using hno y hy
    refine h.move ?_ rfl rfl hseg ?_ ?_ ?_
    · refine List.Perm.trans ?_ (newCall_perm _ pending held [x]).symm
      rw [List.append_assoc, List.append_assoc]
      exact hsplit.append_right _
    · exact h.onPending.congr fun a ha => hoff a (hoffs a (.inl ha))
    · rw [List.length_append, List.length_append, h.perCall]
      rfl
    · refine h.newCall (fun a ha => hoff a (hoffs a (.inr ha))) ?_
      exact ⟨x.2, n, hcell, rfl⟩

/-- And where none does: nothing changes. -/
theorem Places.free_miss (h : Places s live pending held)
    {test : DMAEntry → Bool} (hx : ∀ x ∈ live, test x.2 = false) :
    s.free test = some s := by
  rw [DmaSys.free, Dma.unlink]
  rw [show unlinkFrom test (s.dma.descs + 1) .head s.dma.dmaList
    ⟨s.dma.cell, s.dma.dmaList⟩
      = some (none, ⟨s.dma.cell, s.dma.dmaList⟩) from
    unlinkFrom_miss h.onList h.live_length hx]
  rfl

/-- What a step that allocates nothing leaves on the list. -/
def DmaEvent.leaves (e : DmaEvent) (live : List DmaNode) : List DmaNode :=
  match e.test with
  | some test => live.eraseP fun x => test x.2
  | none => live

/-- A new call that is no allocation. -/
private theorem DmaSys.Settled.push (h : s.Settled) {s' : DmaSys}
    {c : DmaCall} (hcalls : s'.calls = s.calls ++ [c])
    (hc : c.allocates = false) : s'.Settled := by
  intro c' hc'
  rw [hcalls] at hc'
  rcases List.mem_append.1 hc' with hc' | hc'
  · exact h c' hc'
  · rw [List.mem_singleton.1 hc']
    exact hc

/-- And a call that goes on as one. -/
private theorem DmaSys.Settled.set (h : s.Settled) {s' : DmaSys} {i : Nat}
    {c : DmaCall} (hcalls : s'.calls = s.calls.set i c)
    (hc : c.allocates = false) : s'.Settled := by
  intro c' hc'
  rw [hcalls] at hc'
  rcases List.mem_or_eq_of_mem_set hc' with hc' | rfl
  · exact h c' hc'
  · exact hc

/-- Every free goes through its first section. -/
theorem Places.free (h : Places s live pending held)
    (test : DMAEntry → Bool) :
    ∃ s', s.free test = some s' ∧ (s.Settled → s'.Settled)
      ∧ ∃ held', Places s' (live.eraseP fun y => test y.2) pending
        held' := by
  cases hx : live.find? fun y => test y.2 with
  | none =>
      have hno := List.find?_eq_none.1 hx
      have hmiss : ∀ x ∈ live, test x.2 = false := by
        intro x hmem
        simpa using hno x hmem
      refine ⟨s, h.free_miss hmiss, id, held, ?_⟩
      rw [List.eraseP_of_forall_not hno]
      exact h
  | some x =>
      obtain ⟨s', heq, hcalls, h'⟩ := h.free_hit hx
      exact ⟨s', heq, fun hset => hset.push hcalls rfl, _, h'⟩

/-- A new node is no other's, and its descriptor is a new one. -/
theorem Places.newEntry (h : Places s live pending held) {e : Nat}
    (hfree : s.dma.cell e = none) {x : DMAEntry}
    (hx : x.desc = s.dma.descs) :
    Places
      { dma := { s.dma with
          cell := Function.update s.dma.cell e (some ⟨x, none⟩)
          descs := s.dma.descs + 1 }
        calls := s.calls ++ [.linking e] }
      live pending (held ++ [[(e, x)]]) := by
  -- every node of the lists has its cell, so the new one is none of them
  have hnew : e ∉ addrs (live ++ pending ++ held.flatten) := by
    simp only [addrs_append, List.mem_append, not_or]
    refine ⟨⟨fun hmem => ?_, fun hmem => ?_⟩, fun hmem => ?_⟩
    · obtain ⟨y, hy, rfl⟩ := List.mem_map.1 hmem
      obtain ⟨n, hn⟩ := h.onList.cell_of_mem hy
      rw [hfree] at hn
      cases hn
    · obtain ⟨y, hy, rfl⟩ := List.mem_map.1 hmem
      obtain ⟨n, hn⟩ := h.onPending.cell_of_mem hy
      rw [hfree] at hn
      cases hn
    · obtain ⟨y, hy, rfl⟩ := List.mem_map.1 hmem
      obtain ⟨l, hl, hyl⟩ := List.mem_flatten.1 hy
      obtain ⟨i, hi⟩ := List.mem_iff_getElem?.1 hl
      have hlt : i < s.calls.length := by
        rw [← h.perCall]
        exact (List.getElem?_eq_some_iff.1 hi).1
      obtain ⟨n, hn⟩ := DmaCall.Holds.cell
        (h.byCall i s.calls[i] l (List.getElem?_eq_getElem hlt) hi) hyl
      rw [hfree] at hn
      cases hn
  have hout := hnew
  simp only [addrs_append, List.mem_append, not_or] at hout
  have hperm := newCall_perm live pending held [(e, x)]
  exact {
    onList := h.onList.update_off hout.1.1
    onPending := h.onPending.update_off hout.1.2
    perCall := by
      rw [List.length_append, List.length_append, h.perCall]
      rfl
    byCall := by
      refine h.newCall (fun a ha => Function.update_of_ne ?_ _ _) ?_
      · intro hae
        exact hout.2 (hae ▸ ha)
      · exact ⟨x, none, Function.update_self .., rfl⟩
    apart := by
      refine (addrs_perm hperm).nodup_iff.2 ?_
      exact List.nodup_cons.2 ⟨hnew, h.apart⟩
    once := by
      refine ((descsOf_perm hperm).append_right _).trans ?_
      show (x.desc :: (descsOf _ ++ s.dma.released)).Perm _
      rw [hx, List.range_succ]
      exact (h.once.cons _).trans (List.perm_append_singleton _ _).symm }

/-- An allocation up to its section. -/
theorem Places.allocEntry (h : Places s live pending held) (size : Nat)
    (ans : DmaAnswer) :
    ∃ s', dmaStep s (.allocCoherent size ans) = some s'
      ∧ ∃ live' pending' held', Places s' live' pending' held' := by
  cases hdesc : ans.desc with
  | none =>
      refine ⟨s, ?_, live, pending, held, h⟩
      simp only [dmaStep, Dma.allocEntry, hdesc]
  | some at_ =>
      obtain ⟨virt, phys⟩ := at_
      cases hnode : ans.node with
      | none =>
          -- the descriptor is released at once
          refine ⟨{ s with dma := { s.dma with
              descs := s.dma.descs + 1
              released := s.dma.descs :: s.dma.released } }, ?_,
            live, pending, held, { h with once := ?_ }⟩
          · simp only [dmaStep, Dma.allocEntry, hdesc, hnode]
          · show (_ ++ s.dma.descs :: s.dma.released).Perm _
            rw [List.range_succ]
            refine List.perm_middle.trans ((h.once.cons _).trans ?_)
            exact (List.perm_append_singleton _ _).symm
      | some e =>
          cases hcell : s.dma.cell e with
          | some c =>
              refine ⟨s, ?_, live, pending, held, h⟩
              simp [dmaStep, Dma.allocEntry, hdesc, hnode, hcell]
          | none =>
              have hnew := h.newEntry hcell
                (x := ⟨s.dma.descs, virt, phys, size, 0⟩) rfl
              refine ⟨_, ?_, live, pending, _, hnew⟩
              simp [dmaStep, Dma.allocEntry, hdesc, hnode, hcell]

/-- A drain takes the pending nodes to itself. -/
theorem Places.takePending (h : Places s live pending held) :
    Places
      { dma := s.dma.takePending.2
        calls := s.calls ++ [.draining s.dma.takePending.1] }
      live [] (held ++ [pending]) := by
  refine h.move ?_ rfl rfl h.onList rfl ?_ ?_
  · refine List.Perm.trans ?_ (newCall_perm live [] held pending).symm
    rw [List.append_nil, List.append_assoc]
    exact List.perm_append_comm_assoc live pending _
  · rw [List.length_append, List.length_append, h.perCall]
    rfl
  · exact h.newCall (fun _ _ => rfl) h.onPending

/-- A call that is over goes on to nothing. -/
theorem Places.finish (h : Places s live pending held) {i : Nat}
    (hi : held[i]? = some []) :
    Places { s with calls := s.calls.set i .done } live pending held where
  onList := h.onList
  onPending := h.onPending
  perCall := by
    rw [h.perCall]
    exact List.length_set.symm
  byCall := by
    intro j c l hc hl
    by_cases hj : j = i
    · subst hj
      have hlt := (List.getElem?_eq_some_iff.1 hi).1
      rw [List.getElem?_set_self (h.perCall ▸ hlt)] at hc
      rw [hi] at hl
      rw [← Option.some.inj hc, ← Option.some.inj hl]
      rfl
    · rw [List.getElem?_set_ne (Ne.symm hj)] at hc
      exact h.byCall j c l hc hl
  apart := h.apart
  once := h.once

/-- What a call in progress does next. -/
theorem Places.goOn (h : Places s live pending held) {i : Nat}
    (preemption : Bool) {c : DmaCall} (hi : s.calls[i]? = some c) :
    ∃ s', s.goOn i preemption c = some s'
      ∧ ∃ live' pending' held', Places s' live' pending' held'
        ∧ (s.Settled → s'.Settled ∧ live' = live) := by
  obtain ⟨l, hl, hholds⟩ := h.holds hi
  cases c with
  | linking e =>
      obtain ⟨x, n, hx, rfl⟩ := hholds
      obtain ⟨d, heq, h'⟩ := h.link hl hx
      refine ⟨_, ?_, _, _, _, h', fun hset => ?_⟩
      rotate_left
      · cases hset _ (List.mem_of_getElem? hi)
      show (s.dma.link e).bind _ = _
      rw [heq]
      rfl
  | freeing e =>
      obtain ⟨x, n, hx, rfl⟩ := hholds
      cases preemption with
      | true =>
          obtain ⟨d, heq, h'⟩ := h.release (c := .done) hl hx
            fun _ _ => rfl
          refine ⟨_, ?_, _, _, _, h', fun hset => ⟨hset.set rfl rfl, rfl⟩⟩
          show (s.dma.release e).bind _ = _
          rw [heq]
          rfl
      | false =>
          obtain ⟨d, heq, h'⟩ := h.defer hl hx
          refine ⟨_, ?_, _, _, _, h', fun hset => ⟨hset.set rfl rfl, rfl⟩⟩
          show (s.dma.defer e).bind _ = _
          rw [heq]
          rfl
  | draining e =>
      cases l with
      | nil =>
          have he : e = none := hholds
          subst he
          exact ⟨_, rfl, _, _, _, h.finish hl,
            fun hset => ⟨hset.set rfl rfl, rfl⟩⟩
      | cons x rest =>
          obtain ⟨he, n, hx, hrest⟩ := hholds
          subst he
          obtain ⟨-, -, hout, -⟩ := h.off_others hl
          obtain ⟨d, heq, h'⟩ := h.release (c := .draining n) hl hx
            fun m hm => hrest.congr fun a ha =>
              hm a fun hax => hout (hax ▸ ha)
          refine ⟨_, ?_, _, _, _, h', fun hset => ⟨hset.set rfl rfl, rfl⟩⟩
          show (s.dma.cell x.1).bind (fun c => (s.dma.release x.1).bind _) = _
          rw [hx, heq]
          rfl
  | done => exact ⟨s, rfl, _, _, _, h, fun hset => ⟨hset, rfl⟩⟩

/-- Every section, whatever the state of the others. While nothing is
allocated only a free changes the list: it takes off what it asks for. -/
theorem Places.step (h : Places s live pending held) (e : DmaEvent) :
    ∃ s', dmaStep s e = some s'
      ∧ ∃ live' pending' held', Places s' live' pending' held'
        ∧ (e.allocates = false → s.Settled →
          s'.Settled ∧ live' = e.leaves live) := by
  cases e with
  | allocCoherent size ans =>
      obtain ⟨s', heq, live', pending', held', h'⟩ := h.allocEntry size ans
      exact ⟨s', heq, live', pending', held', h', fun hno => by cases hno⟩
  | freeCoherent size virt phys =>
      obtain ⟨s', heq, hset, held', h'⟩ := h.free (DMAEntry.atVirt virt)
      exact ⟨s', heq, _, _, held', h', fun _ hs => ⟨hset hs, rfl⟩⟩
  | freeCoherentByPhys phys =>
      obtain ⟨s', heq, hset, held', h'⟩ := h.free (DMAEntry.atPhys phys)
      exact ⟨s', heq, _, _, held', h', fun _ hs => ⟨hset hs, rfl⟩⟩
  | drainPendingFree =>
      exact ⟨_, rfl, _, _, _, h.takePending,
        fun _ hset => ⟨hset.push rfl rfl, rfl⟩⟩
  | next i preemption =>
      cases hc : s.calls[i]? with
      | none =>
          exact ⟨s, by rw [dmaStep, hc], _, _, _, h,
            fun _ hset => ⟨hset, rfl⟩⟩
      | some c =>
          obtain ⟨s', heq, live', pending', held', h', hset⟩ :=
            h.goOn preemption hc
          exact ⟨s', by rw [dmaStep, hc]; exact heq, live', pending', held',
            h', fun _ => hset⟩

end Rtw88
