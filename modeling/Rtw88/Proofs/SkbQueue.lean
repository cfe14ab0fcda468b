/-
A queue of buffers stays what it should be as long as no write to a
control block reaches past it: `skb_queue_integrity`.

The list operations on memory do what the operations of Lib/Ring.lean do
on a heap of pointers, and change nothing but list heads
(`listAddBetween_holds`, `listDel_holds`); from that each queue operation
is its operation on the sequence. The list head of a buffer lies right
behind `cb`, which is shorter than `struct ieee80211_tx_info`.

# Memory and heap

Memory is flat bytes, the library's heap is a function from nodes to
nodes. A node is the address of a list head, and a pointer is read from
and written to its eight bytes. The two agree as long as the heads do
not overlap, which is what `Placed` says of a queue and its buffers;
`IsHead` are the addresses where a store is one to a pointer.

`QueueHolds` is the refinement: the ring of the queue in memory is the
sequence, and `qlen` is its length. An operation changes list heads only,
and then stores `qlen`; that ending is `QueueHolds.of_store`, shared by
all of them.

# Writes beside the list

The other half is about what is written while buffers are queued. A
region that meets no list head and not `qlen` does not matter
(`QueueHolds.keeps`), and a write that stays in `cb` is one of those
(`cbWrite_holds`). A write of the size of the info structure is not: its
last bytes are the buffer's own list head
(`cleared_info_breaks_queue`).
-/
import Rtw88.Spec.SkbQueue

namespace Rtw88

-- ==================================================================== layout

theorem skbList_eq (skb : Nat) : skbList skb = skb + 120 := rfl

theorem qlenAt_eq (list : Nat) : qlenAt list = list + 24 := rfl

/-- The list heads of a queue and of the buffers. -/
def IsHead (list : Nat) (live : List Nat) (a : Nat) : Prop :=
  a = list + skbHeadLayout.offset .list ∨ ∃ p ∈ live, a = skbList p

theorem Placed.heads {list : Nat} {live : List Nat} (h : Placed list live) :
    Heads (IsHead list live) := by
  have hhead : skbHeadLayout.sizeOf = 32 := rfl
  have hskb : skbLayout.sizeOf = 152 := rfl
  refine ⟨?_, ?_⟩
  · rintro a b (rfl | ⟨p, hp, rfl⟩) (rfl | ⟨p', hp', rfl⟩) hne
    · exact absurd rfl hne
    · have hap := h.head_apart p' hp'
      rw [hhead, hskb] at hap
      rw [skbList_eq]
      unfold Apart at *
      omega
    · have hap := h.head_apart p hp
      rw [hhead, hskb] at hap
      rw [skbList_eq]
      unfold Apart at *
      omega
    · have hap := h.skb_apart p hp p' hp' (fun heq => hne (by rw [heq]))
      rw [hskb] at hap
      rw [skbList_eq, skbList_eq]
      unfold Apart at *
      omega
  · rintro a (rfl | ⟨p, hp, rfl⟩)
    · obtain ⟨hpos, htop⟩ := h.head
      rw [hhead] at htop
      omega
    · obtain ⟨hpos, htop⟩ := h.skb p hp
      rw [hskb] at htop
      rw [skbList_eq]
      omega

-- ================================================================ list heads

section
variable {N : Nat → Prop} {m : Memory} {l l' : Links Nat} {n : Nat}

/-- `__list_add` on memory. -/
theorem listAddBetween_holds {prev next : Option Nat} (hN : Heads N)
    (h : HeadsHold N m l) (hn : N n) (hprev : ∀ a, prev = some a → N a)
    (hnext : ∀ b, next = some b → N b)
    (heq : l.listAddBetween n prev next = some l') :
    ∃ m', listAddBetween m n prev next = some m' ∧ HeadsHold N m' l'
      ∧ HeadsOnly N m m' := by
  cases next with
  | none => cases heq
  | some b =>
      cases prev with
      | none => cases heq
      | some a =>
          have ha := hprev a rfl
          have hb := hnext b rfl
          have hptr : ∀ x, N x → IsPtr (some x) := by
            intro x hx y hy
            cases hy
            exact hN.addr x hx
          refine ⟨_, rfl, ?_, ?_⟩
          · rw [← Option.some.inj heq]
            exact (((h.setPrev hN hb (hptr n hn)).setNext hN hn
              (hptr b hb)).setPrev hN hn (hptr a ha)).setNext hN ha (hptr n hn)
          · have hstore : ∀ (m : Memory) x i p, N x → i ≤ 8 →
                HeadsOnly N m (storePtr m (x + i) p) :=
              fun m x i p hx hi => .storePtr hx hi
            exact (((hstore m b 8 _ hb (by omega)).trans
              (hstore _ n 0 _ hn (by omega))).trans
              (hstore _ n 8 _ hn (by omega))).trans
              (hstore _ a 0 _ ha (by omega))

/-- `list_del` on memory. -/
theorem listDel_holds (hN : Heads N) (h : HeadsHold N m l) (hn : N n)
    (hprev : ∀ a, l.prev n = some a → N a)
    (hnext : ∀ b, l.next n = some b → N b)
    (heq : l.listDel n = some l') :
    ∃ m', listDel m n = some m' ∧ HeadsHold N m' l'
      ∧ HeadsOnly N m m' := by
  -- what is stored at the predecessor is what the node pointed to
  have hsame : ∀ a, (l.setNext a (l.next n)).next n = l.next n := by
    intro a
    rw [Links.setNext_next]
    by_cases han : n = a
    · rw [han, Function.update_self]
    · rw [Function.update_of_ne han]
  have hptr : ∀ p : Option Nat, (∀ x, p = some x → N x) → IsPtr p :=
    fun p hp x hx => hN.addr x (hp x hx)
  have hnull : IsPtr none := fun x hx => by cases hx
  unfold Links.listDel at heq
  cases hp : l.prev n with
  | none =>
      rw [hp] at heq
      cases heq
  | some a =>
      cases hq : l.next n with
      | none =>
          simp only [hp, Option.bind_eq_bind, Option.bind_some, hsame] at heq
          rw [hq] at heq
          cases heq
      | some b =>
          have ha := hprev a hp
          have hb := hnext b hq
          simp only [hp, Option.bind_eq_bind, Option.bind_some, hsame] at heq
          have h₁ := h.setNext hN ha (hptr _ hnext)
          have h₂ := h₁.setPrev hN hb (hptr (l.prev n) hprev)
          have h₃ := (h₂.setNext hN hn hnull).setPrev hN hn hnull
          have hnext₁ : loadPtr (storePtr m a (l.next n)) n = some b := by
            rw [h₁.next n hn, hsame, hq]
          have hprev₁ : loadPtr (storePtr m a (l.next n)) (n + 8)
              = l.prev n := by
            rw [h₁.prev n hn, Links.setNext_prev]
          have hm : listDel m n = some (storePtr (storePtr (storePtr
              (storePtr m a (l.next n)) (b + 8) (l.prev n)) n none)
              (n + 8) none) := by
            unfold listDel
            rw [h.prev n hn, hp, Option.bind_eq_bind, Option.bind_some,
              h.next n hn]
            simp only [hnext₁, hprev₁, hp, Option.bind_some]
            rfl
          refine ⟨_, hm, ?_, ?_⟩
          · rw [hq] at heq
            rw [← Option.some.inj heq, ← hq]
            exact h₃
          · exact (((HeadsOnly.storePtr (i := 0) ha (by omega)).trans
              (HeadsOnly.storePtr hb (by omega))).trans
              (HeadsOnly.storePtr (i := 0) hn (by omega))).trans
              (HeadsOnly.storePtr hn (by omega))

end

-- ==================================================================== queues

section
variable {list : Nat} {live queue : List Nat} {m : Memory}

theorem Placed.qlen_apart (hp : Placed list live) {a : Nat}
    (ha : IsHead list live a) : Apart a 16 (qlenAt list) 4 := by
  rw [qlenAt_eq]
  rcases ha with heq | ⟨p, hmem, rfl⟩
  · rw [heq]
    exact .inl (show list + 0 + 16 ≤ list + 24 by omega)
  · have hap := hp.head_apart p hmem
    rw [show skbHeadLayout.sizeOf = 32 from rfl,
      show skbLayout.sizeOf = 152 from rfl] at hap
    rw [skbList_eq]
    unfold Apart at *
    omega

/-- The nodes of a queue are list heads. -/
theorem isHead_of_mem (hsub : ∀ p ∈ queue, p ∈ live) {a : Nat}
    (ha : a ∈ (list + skbHeadLayout.offset .list) :: queue.map skbList) :
    IsHead list live a := by
  rcases List.mem_cons.1 ha with rfl | ha
  · exact .inl rfl
  · obtain ⟨p, hp, rfl⟩ := List.mem_map.1 ha
    exact .inr ⟨p, hsub p hp, rfl⟩

/-- The end of every operation: the list is right, and `qlen` is stored. -/
theorem QueueHolds.of_store {l : Links Nat} {v : Nat}
    (hp : Placed list live) (hsub : ∀ p ∈ queue, p ∈ live)
    (h : HeadsHold (IsHead list live) m l)
    (hr : IsRing l (list + skbHeadLayout.offset .list) (queue.map skbList))
    (hv : v % 2 ^ 32 = queue.length % 2 ^ 32) :
    QueueHolds list (storeLe m (qlenAt list) 4 v) queue := by
  have hkeep : Keeps [(qlenAt list, 4)] m (storeLe m (qlenAt list) 4 v) :=
    Keeps.write List.mem_cons_self (Nat.add_zero _).symm
      (by rw [leBytes_length])
  have hholds := h.keeps hkeep fun a ha r hr => by
    rw [List.mem_singleton.1 hr]
    exact (hp.qlen_apart ha).symm
  refine ⟨hholds.ring hr fun a ha => isHead_of_mem hsub ha, ?_⟩
  rw [loadLe_storeLe]
  exact hv

/-- An operation on the list leaves `qlen`. -/
theorem qlen_of_headsOnly {m' : Memory} (hp : Placed list live)
    (h : HeadsOnly (IsHead list live) m m') :
    loadLe m' (qlenAt list) 4 = loadLe m (qlenAt list) 4 := by
  rw [loadLe, loadLe, h.read fun a ha => hp.qlen_apart ha]

theorem skbList_not_mem {skb : Nat} (hp : Placed list live)
    (hskb : skb ∈ live) (hq : skb ∉ queue) :
    skbList skb
      ∉ (list + skbHeadLayout.offset .list) :: queue.map skbList := by
  intro hmem
  rcases List.mem_cons.1 hmem with heq | hmem
  · have hap := hp.head_apart skb hskb
    have hoff : list + skbHeadLayout.offset .list = list := rfl
    rw [show skbHeadLayout.sizeOf = 32 from rfl,
      show skbLayout.sizeOf = 152 from rfl] at hap
    rw [skbList_eq, hoff] at heq
    unfold Apart at hap
    omega
  · obtain ⟨p, hpq, heq⟩ := List.mem_map.1 hmem
    rw [skbList_eq, skbList_eq] at heq
    obtain rfl : p = skb := by omega
    exact hq hpq

/-- `skb_queue_tail`. -/
theorem skbQueueTail_holds {skb : Nat} (hp : Placed list live)
    (hsub : ∀ p ∈ queue, p ∈ live) (h : QueueHolds list m queue)
    (hskb : skb ∈ live) (hq : skb ∉ queue) :
    ∃ m', skbQueueTail m list skb = some m'
      ∧ QueueHolds list m' (queue ++ [skb]) := by
  obtain ⟨l', hadd, hring, -⟩ :=
    h.ring.listAddTail (skbList_not_mem hp hskb hq)
  obtain ⟨⟨a, ha, hprev⟩, -⟩ := h.ring.closed List.mem_cons_self
  obtain ⟨m', hm', hholds, honly⟩ := listAddBetween_holds hp.heads
    (HeadsHold.links _ m) (.inr ⟨skb, hskb, rfl⟩)
    (fun x hx => by
      rw [hprev] at hx
      cases hx
      exact isHead_of_mem hsub ha)
    (fun x hx => by
      cases hx
      exact .inl rfl) hadd
  refine ⟨qlenInc m' list, ?_, ?_⟩
  · unfold skbQueueTail listAddTail
    rw [links_prev] at hm'
    rw [hm']
    rfl
  · refine QueueHolds.of_store hp ?_ hholds ?_ ?_
    · intro p hmem
      rcases List.mem_append.1 hmem with hmem | hmem
      · exact hsub p hmem
      · rw [List.mem_singleton.1 hmem]
        exact hskb
    · rw [List.map_append]
      exact hring
    · rw [qlen_of_headsOnly hp honly, h.qlen, List.length_append,
        List.length_singleton, Nat.mod_add_mod]

/-- `skb_queue_head`. -/
theorem skbQueueHead_holds {skb : Nat} (hp : Placed list live)
    (hsub : ∀ p ∈ queue, p ∈ live) (h : QueueHolds list m queue)
    (hskb : skb ∈ live) (hq : skb ∉ queue) :
    ∃ m', skbQueueHead m list skb = some m'
      ∧ QueueHolds list m' (skb :: queue) := by
  obtain ⟨l', hadd, hring, -⟩ :=
    h.ring.listAdd (skbList_not_mem hp hskb hq)
  obtain ⟨-, b, hb, hnext⟩ := h.ring.closed List.mem_cons_self
  obtain ⟨m', hm', hholds, honly⟩ := listAddBetween_holds hp.heads
    (HeadsHold.links _ m) (.inr ⟨skb, hskb, rfl⟩)
    (fun x hx => by
      cases hx
      exact .inl rfl)
    (fun x hx => by
      rw [hnext] at hx
      cases hx
      exact isHead_of_mem hsub hb) hadd
  refine ⟨qlenInc m' list, ?_, ?_⟩
  · unfold skbQueueHead listAdd
    rw [links_next] at hm'
    rw [hm']
    rfl
  · refine QueueHolds.of_store hp ?_ hholds hring ?_
    · intro p hmem
      rcases List.mem_cons.1 hmem with rfl | hmem
      · exact hskb
      · exact hsub p hmem
    · rw [qlen_of_headsOnly hp honly, h.qlen, List.length_cons,
        Nat.mod_add_mod]

/-- No buffer is on the queue twice. -/
theorem QueueHolds.nodup (h : QueueHolds list m queue) : queue.Nodup :=
  List.Nodup.of_map _ (List.nodup_cons.1 h.ring.nodup).2

/-- `skb_unlink`. -/
theorem skbUnlink_holds {skb : Nat} (hp : Placed list live)
    (hsub : ∀ p ∈ queue, p ∈ live) (h : QueueHolds list m queue)
    (hq : skb ∈ queue) :
    ∃ m', skbUnlink m skb list = some m'
      ∧ QueueHolds list m' (queue.erase skb) := by
  obtain ⟨xs, ys, rfl⟩ := List.append_of_mem hq
  have hnot : skb ∉ xs := fun hmem =>
    (List.nodup_append.1 h.nodup).2.2 skb hmem skb List.mem_cons_self rfl
  have hring := h.ring
  rw [List.map_append, List.map_cons] at hring
  obtain ⟨l', hdel, hring', -, -, -⟩ := hring.listDel
  have hnode : skbList skb ∈ (list + skbHeadLayout.offset .list)
      :: (xs ++ skb :: ys).map skbList :=
    List.mem_cons_of_mem _ (List.mem_map_of_mem hq)
  obtain ⟨⟨a, ha, hprev⟩, b, hb, hnext⟩ := h.ring.closed hnode
  obtain ⟨m', hm', hholds, honly⟩ := listDel_holds hp.heads
    (HeadsHold.links _ m) (isHead_of_mem hsub hnode)
    (fun x hx => by
      rw [hprev] at hx
      cases hx
      exact isHead_of_mem hsub ha)
    (fun x hx => by
      rw [hnext] at hx
      cases hx
      exact isHead_of_mem hsub hb) hdel
  have herase : (xs ++ skb :: ys).erase skb = xs ++ ys := by
    rw [List.erase_append_right _ hnot, List.erase_cons_head]
  rw [herase]
  refine ⟨qlenDec m' list, ?_, ?_⟩
  · unfold skbUnlink
    rw [hm']
    rfl
  · refine QueueHolds.of_store hp ?_ hholds ?_ ?_
    · intro p hmem
      refine hsub p (List.mem_append.2 ?_)
      exact (List.mem_append.1 hmem).imp_right (List.mem_cons_of_mem skb)
    · rw [List.map_append]
      exact hring'
    · rw [qlen_of_headsOnly hp honly, h.qlen, List.length_append,
        List.length_append, List.length_cons]
      omega

/-- `skb_dequeue`. -/
theorem skbDequeue_holds (hp : Placed list live)
    (hsub : ∀ p ∈ queue, p ∈ live) (h : QueueHolds list m queue) :
    ∃ m', skbDequeue m list = some (m', queue.head?)
      ∧ QueueHolds list m' queue.tail := by
  have hempty := h.ring.listEmpty_iff
  unfold Links.listEmpty at hempty
  rw [links_next, List.map_eq_nil_iff] at hempty
  unfold skbDequeue listEmpty
  cases hqueue : queue with
  | nil =>
      rw [if_pos (hempty.2 hqueue)]
      rw [hqueue] at h
      exact ⟨m, rfl, h⟩
  | cons skb rest =>
      have hne : queue ≠ [] := by
        rw [hqueue]
        exact List.cons_ne_nil skb rest
      rw [if_neg fun hnil => hne (hempty.1 hnil)]
      have hring := h.ring
      rw [hqueue, List.map_cons] at hring
      have hfirst := hring.next_head
      rw [links_next] at hfirst
      have hskb : skbOfList (skbList skb) = skb := Nat.add_sub_cancel _ _
      obtain ⟨m', hm', hholds⟩ := skbUnlink_holds hp hsub h
        (show skb ∈ queue by rw [hqueue]; exact List.mem_cons_self)
      rw [hqueue, List.erase_cons_head] at hholds
      refine ⟨m', ?_, hholds⟩
      rw [hfirst, Option.bind_eq_bind, Option.bind_some, hskb, hm']
      rfl

/-- `skb_queue_purge`, with more turns than buffers. -/
theorem skbQueuePurge_holds (hp : Placed list live) {fuel : Nat}
    (hsub : ∀ p ∈ queue, p ∈ live) (h : QueueHolds list m queue)
    (hfuel : queue.length < fuel) :
    ∃ m', skbQueuePurge fuel m list = some (m', queue)
      ∧ QueueHolds list m' [] := by
  induction queue generalizing m fuel with
  | nil =>
      cases fuel with
      | zero => cases hfuel
      | succ fuel =>
          obtain ⟨m', hm', hholds⟩ := skbDequeue_holds hp hsub h
          refine ⟨m', ?_, hholds⟩
          rw [skbQueuePurge, hm']
          rfl
  | cons skb rest ih =>
      cases fuel with
      | zero => cases hfuel
      | succ fuel =>
          obtain ⟨m₁, hm₁, hholds₁⟩ := skbDequeue_holds hp hsub h
          obtain ⟨m', hm', hholds⟩ := ih
            (fun p hmem => hsub p (List.mem_cons_of_mem skb hmem)) hholds₁
            (Nat.lt_of_succ_lt_succ hfuel)
          refine ⟨m', ?_, hholds⟩
          rw [skbQueuePurge, hm₁]
          show (skbQueuePurge fuel m₁ list >>= fun rest =>
            some (rest.1, skb :: rest.2)) = _
          rw [hm']
          rfl

-- ==================================================================== writes

/-- A change to a region without list heads and without `qlen`. -/
theorem QueueHolds.keeps {m' : Memory} {a n : Nat}
    (hsub : ∀ p ∈ queue, p ∈ live) (h : QueueHolds list m queue)
    (hk : Keeps [(a, n)] m m')
    (hheads : ∀ x, IsHead list live x → Apart a n x 16)
    (hqlen : Apart a n (qlenAt list) 4) : QueueHolds list m' queue := by
  have hholds := (HeadsHold.links (IsHead list live) m).keeps hk
    fun x hx r hr => by
      rw [List.mem_singleton.1 hr]
      exact hheads x hx
  refine ⟨hholds.ring h.ring fun x hx => isHead_of_mem hsub hx, ?_⟩
  rw [← h.qlen, loadLe, loadLe, hk.read fun r hr => by
    rw [List.mem_singleton.1 hr]
    exact hqlen]

/-- A region apart from the objects is apart from the heads in them, … -/
theorem Placed.heads_apart {a n : Nat}
    (hhead : Apart a n list skbHeadLayout.sizeOf)
    (hskb : ∀ p ∈ live, Apart a n p skbLayout.sizeOf) :
    ∀ x, IsHead list live x → Apart a n x 16 := by
  rintro x (hx | ⟨p, hmem, rfl⟩)
  · rw [hx]
    exact (hhead.symm.part (i := 0) (l := 16) (by decide)).symm
  · exact ((hskb p hmem).symm.part (i := 120) (l := 16) (by decide)).symm

/-- … and from `qlen`. -/
theorem Placed.apart_qlen {a n : Nat}
    (hhead : Apart a n list skbHeadLayout.sizeOf) :
    Apart a n (qlenAt list) 4 :=
  (hhead.symm.part (i := 24) (l := 4) (by decide)).symm

theorem cbWrite_keeps {skb off : Nat} {bs : List UInt8}
    (hcb : off + bs.length ≤ skbLayout.size .cb) :
    Keeps [(skb + skbLayout.offset .cb, skbLayout.size .cb)] m
      (cbWrite m skb off bs) :=
  Keeps.write List.mem_cons_self rfl hcb

/-- A write that stays in `cb`. -/
theorem cbWrite_holds {skb off : Nat} {bs : List UInt8}
    (hp : Placed list live) (hsub : ∀ p ∈ queue, p ∈ live)
    (h : QueueHolds list m queue) (hskb : skb ∈ live)
    (hcb : off + bs.length ≤ skbLayout.size .cb) :
    QueueHolds list (cbWrite m skb off bs) queue := by
  have hin : ∀ q n, Apart skb skbLayout.sizeOf q n →
      Apart (skb + skbLayout.offset .cb) (skbLayout.size .cb) q n :=
    fun q n hap => hap.part (by decide)
  have hhead := (hp.head_apart skb hskb).symm
  refine h.keeps hsub (cbWrite_keeps hcb) ?_
    (Placed.apart_qlen (hin _ _ hhead))
  rintro x (hx | ⟨p, hmem, rfl⟩)
  · rw [hx]
    exact ((hin _ _ hhead).symm.part (i := 0) (l := 16) (by decide)).symm
  · by_cases heq : skb = p
    · -- the list head starts where `cb` ends
      rw [heq]
      exact .inl (show p + 56 + 64 ≤ p + 120 by omega)
    · have hap := hin _ _ (hp.skb_apart skb hskb p hmem heq)
      exact (hap.symm.part (i := 120) (l := 16) (by decide)).symm

/-- A member lies in its buffer. -/
theorem skbField_in (f : SkbField) :
    skbLayout.offset f + skbLayout.size f ≤ skbLayout.sizeOf := by
  cases f <;> decide

/-- And it changes no other member. -/
theorem cbWrite_only {skb off : Nat} {bs : List UInt8}
    (hp : Placed list live) (hskb : skb ∈ live)
    (hcb : off + bs.length ≤ skbLayout.size .cb) :
    OnlyCb live skb m (cbWrite m skb off bs) := by
  intro p hmem f hf
  have hmembers : ∀ f : SkbField, f ∈ skbLayout.members := by
    intro f
    cases f <;> decide
  have halign : ∀ f : SkbField, 0 < skbLayout.align f := by
    intro f
    cases f <;> decide
  refine (cbWrite_keeps hcb).read fun r hr => ?_
  rw [List.mem_singleton.1 hr]
  by_cases heq : p = skb
  · rw [heq]
    have hap := CStruct.apart halign (hmembers f) (hmembers .cb) (hf heq)
    unfold Apart at *
    omega
  · have hap := hp.skb_apart skb hskb p hmem (Ne.symm heq)
    exact ((hap.part (skbField_in .cb)).symm.part (skbField_in f)).symm

/-- `alloc_skb` writes its buffer. -/
theorem allocSkb_keeps (data skb size : Nat) :
    Keeps [(skb, skbLayout.sizeOf)] m (allocSkb m data skb size) := by
  have hfield : ∀ (m : Memory) f v,
      Keeps [(skb, skbLayout.sizeOf)] m (setField m skb f v) := by
    intro m f v
    exact Keeps.write List.mem_cons_self rfl
      (by rw [leBytes_length]; exact skbField_in f)
  have hptr : ∀ (m : Memory) i p, i + 8 ≤ skbLayout.sizeOf →
      Keeps [(skb, skbLayout.sizeOf)] m (storePtr m (skb + i) p) := by
    intro m i p hi
    exact Keeps.write List.mem_cons_self rfl
      (by rw [leBytes_length]; exact hi)
  have hzero : Keeps [(skb, skbLayout.sizeOf)] m
      (writeMem m skb (List.replicate skbLayout.sizeOf 0)) :=
    Keeps.write List.mem_cons_self (Nat.add_zero skb).symm
      (by rw [List.length_replicate, Nat.zero_add])
  exact (((((((hzero.trans (hfield _ .head _)).trans (hfield _ .data _)).trans
    (hfield _ .tail _)).trans (hfield _ .endPtr _)).trans
    (hfield _ .len _)).trans (hptr _ 120 _ (by decide))).trans
    (hptr _ 128 _ (by decide)))

/-- Distinct addresses: fewer than there are. -/
theorem QueueHolds.short (hp : Placed list live)
    (hsub : ∀ p ∈ queue, p ∈ live) (h : QueueHolds list m queue) :
    queue.length < 2 ^ 64 := by
  have hrange : ∀ n, (∀ p ∈ queue, p < n) → queue.length ≤ n := by
    intro n hn
    have hle := (List.subperm_of_subset h.nodup
      (fun p hmem => List.mem_range.2 (hn p hmem))).length_le
    rwa [List.length_range] at hle
  have hlt := hrange (2 ^ 64 - 1) fun p hmem => by
    obtain ⟨-, htop⟩ := hp.skb p (hsub p hmem)
    rw [show skbLayout.sizeOf = 152 from rfl] at htop
    omega
  omega

end

-- ====================================================================== runs

/-- What holds between two operations. -/
structure QueueInv (list : Nat) (m : Memory) (q : SkbQueue) : Prop where
  placed : Placed list q.live
  sub : ∀ p ∈ q.queue, p ∈ q.live
  holds : QueueHolds list m q.queue

variable {list : Nat} {m : Memory} {q : SkbQueue}

/-- One operation. -/
theorem skbStep_inv {op : SkbOp} (h : QueueInv list m q)
    (hallowed : q.Allowed list op) (hcb : op.InCb) :
    ∃ m', skbStep list m op = some (m', q.out op)
      ∧ QueueInv list m' (q.step op) := by
  cases op with
  | skbQueueTail skb =>
      obtain ⟨m', hm', hholds⟩ :=
        skbQueueTail_holds h.placed h.sub h.holds hallowed.1 hallowed.2
      refine ⟨m', by rw [skbStep, hm']; rfl, h.placed, ?_, hholds⟩
      intro p hmem
      rcases List.mem_append.1 hmem with hmem | hmem
      · exact h.sub p hmem
      · rw [List.mem_singleton.1 hmem]
        exact hallowed.1
  | skbQueueHead skb =>
      obtain ⟨m', hm', hholds⟩ :=
        skbQueueHead_holds h.placed h.sub h.holds hallowed.1 hallowed.2
      refine ⟨m', by rw [skbStep, hm']; rfl, h.placed, ?_, hholds⟩
      intro p hmem
      rcases List.mem_cons.1 hmem with rfl | hmem
      · exact hallowed.1
      · exact h.sub p hmem
  | skbDequeue =>
      obtain ⟨m', hm', hholds⟩ := skbDequeue_holds h.placed h.sub h.holds
      refine ⟨m', by rw [skbStep, hm']; rfl, h.placed, ?_, hholds⟩
      exact fun p hmem => h.sub p (List.mem_of_mem_tail hmem)
  | skbUnlink skb =>
      obtain ⟨m', hm', hholds⟩ :=
        skbUnlink_holds h.placed h.sub h.holds hallowed
      refine ⟨m', by rw [skbStep, hm']; rfl, h.placed, ?_, hholds⟩
      exact fun p hmem => h.sub p (List.mem_of_mem_erase hmem)
  | skbQueuePurge =>
      obtain ⟨m', hm', hholds⟩ := skbQueuePurge_holds h.placed h.sub h.holds
        (h.holds.short h.placed h.sub)
      have hlive : ∀ p, p ∈ (q.step .skbQueuePurge).live → p ∈ q.live :=
        fun p hmem => (List.mem_filter.1 hmem).1
      refine ⟨m', hm', ⟨h.placed.head, ?_, ?_, ?_⟩, ?_, hholds⟩
      · exact fun p hmem => h.placed.skb p (hlive p hmem)
      · exact fun p hmem => h.placed.head_apart p (hlive p hmem)
      · exact fun p hmem p' hmem' =>
          h.placed.skb_apart p (hlive p hmem) p' (hlive p' hmem')
      · intro p hmem
        cases hmem
  | cbWrite skb off bs =>
      exact ⟨_, rfl, h.placed, h.sub,
        cbWrite_holds h.placed h.sub h.holds hallowed.1 hcb⟩
  | allocSkb data skb size =>
      obtain ⟨hnew, hplaced⟩ := hallowed
      have hhead := (hplaced.head_apart skb List.mem_cons_self).symm
      have hskb : ∀ p ∈ q.live,
          Apart skb skbLayout.sizeOf p skbLayout.sizeOf := by
        intro p hmem
        refine hplaced.skb_apart skb List.mem_cons_self p
          (List.mem_cons_of_mem skb hmem) ?_
        rintro rfl
        exact hnew hmem
      refine ⟨_, rfl, hplaced, ?_, ?_⟩
      · exact fun p hmem => List.mem_cons_of_mem skb (h.sub p hmem)
      · exact h.holds.keeps h.sub (allocSkb_keeps data skb size)
          (Placed.heads_apart hhead hskb) (Placed.apart_qlen hhead)
  | other a bs =>
      obtain ⟨hhead, hskb⟩ := hallowed
      refine ⟨_, rfl, h.placed, h.sub, ?_⟩
      have hkeep : Keeps [(a, bs.length)] m (writeMem m a bs) :=
        Keeps.write List.mem_cons_self (Nat.add_zero a).symm
          (by rw [Nat.zero_add])
      exact h.holds.keeps h.sub hkeep
        (Placed.heads_apart hhead hskb) (Placed.apart_qlen hhead)

/-- `skb_queue_head_init` makes an empty queue. -/
theorem skbQueueHeadInit_inv {live : List Nat} (hp : Placed list live)
    (lock : Nat) (m : Memory) :
    QueueInv list (skbQueueHeadInit list lock m)
      { live := live, queue := [] } := by
  have hnode : IsHead list live (list + skbHeadLayout.offset .list) := .inl rfl
  have hself : IsPtr (some (list + skbHeadLayout.offset .list)) := by
    intro x hx
    cases hx
    exact hp.heads.addr _ hnode
  have hlist := ((HeadsHold.links (IsHead list live) m).setNext hp.heads hnode
    hself).setPrev hp.heads hnode hself
  have hkeep : ∀ m : Memory,
      Keeps [(list + 16, 8)] m (storeLe m (list + 16) 8 lock) :=
    fun m => Keeps.write List.mem_cons_self (Nat.add_zero _).symm
      (by rw [leBytes_length])
  have hlock := hlist.keeps (hkeep _) fun a ha r hr => by
    rw [List.mem_singleton.1 hr]
    rcases ha with heq | ⟨p, hmem, rfl⟩
    · rw [heq]
      exact .inr (Nat.le_refl (list + 16))
    · have hap := (hp.head_apart p hmem).part (i := 16) (l := 8) (by decide)
      exact (hap.symm.part (i := 120) (l := 16) (by decide)).symm
  have hnone : ∀ p ∈ ([] : List Nat), p ∈ live := by
    intro p hmem
    cases hmem
  exact ⟨hp, hnone, QueueHolds.of_store hp hnone hlock IsRing.init rfl⟩

/-- A run of them. -/
theorem skbRun_inv {ops : List SkbOp} (h : QueueInv list m q)
    (hallowed : Along SkbQueue.step (SkbQueue.Allowed list) q ops)
    (hcb : ∀ op ∈ ops, op.InCb) :
    ∃ m', skbRun list m ops = some (m', q.outs ops)
      ∧ QueueInv list m' (runFrom SkbQueue.step q ops) := by
  induction ops generalizing m q with
  | nil => exact ⟨m, rfl, h⟩
  | cons op ops ih =>
      obtain ⟨m₁, hm₁, hinv₁⟩ :=
        skbStep_inv h hallowed.1 (hcb op List.mem_cons_self)
      obtain ⟨m', hm', hinv⟩ := ih hinv₁ hallowed.2
        fun op' hmem => hcb op' (List.mem_cons_of_mem op hmem)
      refine ⟨m', ?_, hinv⟩
      rw [skbRun, hm₁]
      show (skbRun list m₁ ops >>= fun rest =>
        some (rest.1, q.out op ++ rest.2)) = _
      rw [hm']
      rfl

/-- As long as every write to a control block stays in `cb`, the queue is
a circular doubly linked list of what was put on it, in order, with its
length in `qlen`; what is taken off is what the sequence says; and a
write to a control block changes no other member of any buffer. -/
theorem skb_queue_integrity {live : List Nat} {lock : Nat} {m : Memory}
    {ops : List SkbOp} (hplaced : Placed list live)
    (hallowed : Along SkbQueue.step (SkbQueue.Allowed list)
      { live := live, queue := [] } ops)
    (hcb : ∀ op ∈ ops, op.InCb) :
    let q := runFrom SkbQueue.step { live := live, queue := [] } ops
    ∃ m', skbRun list (skbQueueHeadInit list lock m) ops
        = some (m', SkbQueue.outs { live := live, queue := [] } ops)
      ∧ QueueHolds list m' q.queue
      ∧ ∀ skb off bs, skb ∈ q.live → (SkbOp.cbWrite skb off bs).InCb →
        OnlyCb q.live skb m' (cbWrite m' skb off bs) := by
  intro q
  obtain ⟨m', hm', hinv⟩ := skbRun_inv
    (skbQueueHeadInit_inv hplaced lock m) hallowed hcb
  exact ⟨m', hm', hinv.holds, fun skb off bs hskb hin =>
    cbWrite_only hinv.placed hskb hin⟩

-- =================================================================== samples

/-- A queue at 0x1000 and buffers at 0x2000 and 0x3000. -/
theorem samplePlaced : Placed 0x1000 [0x2000, 0x3000] where
  head := by unfold InSpace; decide
  skb := by unfold InSpace; decide
  head_apart := by decide
  skb_apart := by decide

/-- Both are queued, and `info->flags` is written. -/
def sampleOps : List SkbOp :=
  [.skbQueueTail 0x2000, .skbQueueTail 0x3000,
    .cbWrite 0x2000 0 [1, 0, 0, 0], .skbDequeue]

theorem sample_queue_integrity :
    ∃ m', skbRun 0x1000 (skbQueueHeadInit 0x1000 0 fun _ => 0) sampleOps
        = some (m', [0x2000]) ∧ QueueHolds 0x1000 m' [0x3000] := by
  have hallowed : Along SkbQueue.step (SkbQueue.Allowed 0x1000)
      { live := [0x2000, 0x3000], queue := [] } sampleOps := by
    refine ⟨⟨?_, ?_⟩, ⟨?_, ?_⟩, ⟨?_, ?_⟩, trivial, trivial⟩ <;> decide
  have hcb : ∀ op ∈ sampleOps, op.InCb := by
    intro op hmem
    simp only [sampleOps, List.mem_cons, List.not_mem_nil, or_false] at hmem
    rcases hmem with rfl | rfl | rfl | rfl
    · exact trivial
    · exact trivial
    · show 0 + 4 ≤ skbLayout.size .cb
      decide
    · exact trivial
  obtain ⟨m', hm', hholds, -⟩ := skb_queue_integrity samplePlaced hallowed hcb
  exact ⟨m', hm', hholds⟩

/-- Both are queued, and the first one's `info` is cleared. -/
def clearOps : List SkbOp :=
  [.skbQueueTail 0x2000, .skbQueueTail 0x3000,
    .cbWrite 0x2000 0 (List.replicate txInfoLayout.sizeOf 0)]

/-- `memset(info, 0, sizeof(*info))` takes a queued buffer off its list. -/
theorem cleared_info_breaks_queue :
    Placed 0x1000 [0x2000, 0x3000]
      ∧ Along SkbQueue.step (SkbQueue.Allowed 0x1000)
        { live := [0x2000, 0x3000], queue := [] } clearOps
      ∧ ∃ r, skbRun 0x1000 (skbQueueHeadInit 0x1000 0 fun _ => 0) clearOps
          = some r
        ∧ ¬ QueueHolds 0x1000 r.1 [0x2000, 0x3000] := by
  have hnext : (skbRun 0x1000 (skbQueueHeadInit 0x1000 0 fun _ => 0)
      clearOps).map (fun r => loadLe r.1 (skbList 0x2000) 8) = some 0 := by
    decide +kernel
  refine ⟨samplePlaced, ?_, ?_⟩
  · refine ⟨⟨?_, ?_⟩, ⟨?_, ?_⟩, ⟨?_, ?_⟩, trivial⟩ <;> decide
  · obtain ⟨r, hr, hload⟩ := Option.map_eq_some_iff.1 hnext
    refine ⟨r, hr, fun h => ?_⟩
    obtain ⟨-, b, -, hb⟩ := h.ring.closed
      (List.mem_cons_of_mem _ List.mem_cons_self)
    rw [links_next, loadPtr, if_pos hload] at hb
    cases hb

end Rtw88
