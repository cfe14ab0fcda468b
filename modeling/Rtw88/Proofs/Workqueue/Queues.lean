/-
The queues and their sequences.

`WqInv s js`: the heap holds the sequences `js`, item for item, and the
records agree with them. `QueueOp.run_inv` carries it through every
operation, `js` going the way of the abstract queues: this is where the
code refines them. The one operation with a condition is the clearing of
a pending flag, which must find it clear.

From the invariant:

- no two items of a list meet (`Intact`), and each waits for the
  invocation the abstract queue has for it;
- a thread asleep has nothing to do (`asleep`): no wake-up is lost;
- a thread that has left ran all that was accepted before (`late`).

# Lists and threads

The heap is one function from nodes to nodes, shared by all queues, so
the lists need a frame: an item is in one list at most, and linking it at
the end of one, or taking out the first of one, leaves the others alone
(`Intact.link`, `Intact.unlink`, over Lib/Chain.lean). What keeps an
item from being linked twice is its pending flag (`not_linked`).

A thread goes to sleep under the lock, with its list empty, and whoever
appends to the list wakes it up under the same lock. So `wakeup` touches
nothing but the thread of its queue, and the lemmas about it say what it
leaves of each field.

# Operations and events

An event is a stretch of one thread. `wqStep_queues` says which operation
of the queues it is, if any, and `wqStep_inv` is the step lemma for runs,
used in Proofs/Workqueue/Runs.lean and Sync.lean.
-/
import Rtw88.Spec.Workqueue

namespace Rtw88

variable {Q W : Type}

-- ================================================================= invariant

/-- The state holds the sequences `js`. -/
structure WqInv (s : WorkQueues Q W) (js : Q → List (WqJob Q W)) : Prop where
  intact : Intact s fun q => (js q).map WqJob.item
  job : ∀ q, ∀ j ∈ js q, s.jobOf j.item = j
  log : ∀ q, s.accepted q = s.started q ++ (s.worker q).waits ++ js q
  ran : ∀ q, s.started q = s.finished q ++ (s.worker q).runs
  asleep : ∀ q, s.worker q = .asleep → js q = [] ∧ s.running q = true
  left : ∀ q, s.done q = true → s.worker q = .exited
  gone : ∀ q, s.freed q = true → s.done q = true
  ticket : ∀ q, ∀ j ∈ s.accepted q, j.queued < s.clock
  late : ∀ q, s.worker q = .exited →
    s.doneAt q ≤ s.clock ∧ ∀ j ∈ js q, s.doneAt q ≤ j.queued

/-- All queues are empty. -/
theorem WqInv.init (sys : Q) :
    WqInv (WorkQueues.init sys : WorkQueues Q W) fun _ => [] := by
  refine ⟨⟨?_, ?_, ?_, ?_⟩, ?_, ?_, ?_, ?_, ?_, ?_, ?_, ?_⟩
  · intro q
    exact ⟨List.nodup_singleton _,
      List.isChain_cons_cons.2 ⟨⟨rfl, rfl⟩, .singleton _⟩⟩
  · intro q r w hw
    exact absurd hw (by simp)
  · intro w
    simp [WorkQueues.init]
  · simp [WorkQueues.init]
  all_goals simp [WorkQueues.init, WorkerAt.waits, WorkerAt.runs]

/-- An item is pending just when an invocation of it is queued. -/
theorem WqInv.pending_iff {s : WorkQueues Q W} {js : Q → List (WqJob Q W)}
    (h : WqInv s js) (w : W) :
    s.pending w = true ↔ ∃ q, ∃ j ∈ js q, j.item = w := by
  rw [h.intact.pending_iff w]
  simp only [List.mem_map]

/-- What is not pending is in no list. -/
theorem WqInv.not_linked {s : WorkQueues Q W} {js : Q → List (WqJob Q W)}
    (h : WqInv s js) {w : W} (hw : s.pending w = false) (q : Q) :
    w ∉ (js q).map WqJob.item := by
  intro hmem
  have := (h.intact.pending_iff w).2 ⟨q, hmem⟩
  rw [hw] at this
  cases this

-- =================================================================== wake-up

section Wakeup

variable [DecidableEq Q] (s : WorkQueues Q W) (q : Q)

/-- A wake-up touches nothing but the thread. -/
theorem wakeup_fields :
    (s.wakeup q).links = s.links ∧ (s.wakeup q).pending = s.pending
      ∧ (s.wakeup q).running = s.running ∧ (s.wakeup q).done = s.done
      ∧ (s.wakeup q).freed = s.freed ∧ (s.wakeup q).fault = s.fault
      ∧ (s.wakeup q).clock = s.clock ∧ (s.wakeup q).jobOf = s.jobOf
      ∧ (s.wakeup q).accepted = s.accepted
      ∧ (s.wakeup q).started = s.started
      ∧ (s.wakeup q).finished = s.finished
      ∧ (s.wakeup q).doneAt = s.doneAt := by
  unfold WorkQueues.wakeup
  split <;> exact ⟨rfl, rfl, rfl, rfl, rfl, rfl, rfl, rfl, rfl, rfl, rfl, rfl⟩

/-- A thread is where it was, but that the one of `q` no longer sleeps. -/
theorem wakeup_worker (r : Q) :
    (s.wakeup q).worker r = s.worker r
      ∨ r = q ∧ s.worker r = .asleep ∧ (s.wakeup q).worker r = .loop := by
  unfold WorkQueues.wakeup
  split
  next hw =>
    by_cases hr : r = q
    · subst hr
      exact Or.inr ⟨rfl, hw, Function.update_self ..⟩
    · exact Or.inl (Function.update_of_ne hr ..)
  next => exact Or.inl rfl

theorem wakeup_waits (r : Q) :
    ((s.wakeup q).worker r).waits = (s.worker r).waits := by
  rcases wakeup_worker s q r with h | ⟨-, h1, h2⟩
  · rw [h]
  · rw [h1, h2]
    rfl

theorem wakeup_runs (r : Q) :
    ((s.wakeup q).worker r).runs = (s.worker r).runs := by
  rcases wakeup_worker s q r with h | ⟨-, h1, h2⟩
  · rw [h]
  · rw [h1, h2]
    rfl

theorem wakeup_asleep {r : Q} (h : (s.wakeup q).worker r = .asleep) :
    r ≠ q ∧ s.worker r = .asleep := by
  rcases wakeup_worker s q r with heq | ⟨-, -, h2⟩
  · refine ⟨?_, heq ▸ h⟩
    rintro rfl
    have hw : s.worker r = .asleep := heq ▸ h
    unfold WorkQueues.wakeup at h
    rw [hw] at h
    simp at h
  · rw [h2] at h
    cases h

theorem wakeup_exited {r : Q} :
    (s.wakeup q).worker r = .exited ↔ s.worker r = .exited := by
  rcases wakeup_worker s q r with h | ⟨-, h1, h2⟩
  · rw [h]
  · rw [h1, h2]
    constructor <;> intro h <;> cases h

end Wakeup

-- ===================================================================== lists

section Lists

variable [DecidableEq Q] [DecidableEq W] {s : WorkQueues Q W}
  {items : Q → List W}

omit [DecidableEq Q] [DecidableEq W] in
/-- The nodes of two lists are different ones. -/
theorem Intact.disjoint (h : Intact s items) {q r : Q} (hne : r ≠ q) :
    ∀ a ∈ WqNode.head r :: (items r).map WqNode.entry,
      a ∉ WqNode.head q :: (items q).map WqNode.entry := by
  intro a ha ha'
  simp only [List.mem_cons, List.mem_map] at ha ha'
  rcases ha with rfl | ⟨x, hx, rfl⟩ <;> rcases ha' with heq | ⟨y, hy, heq⟩
  · injection heq with heq
    exact hne heq
  · cases heq
  · cases heq
  · injection heq with heq
    subst heq
    exact hne (h.apart r q y hx hy)

/-- An item that is in no list can be linked at the end of one. -/
theorem Intact.link (h : Intact s items) {w : W}
    (hw : ∀ r, w ∉ items r) (q : Q) :
    ∃ links, s.links.listAddTail (.entry w) (.head q) = some links
      ∧ ∀ r, IsRing links (.head r)
        ((Function.update items q (items q ++ [w]) r).map .entry) := by
  have hnew : WqNode.entry w
      ∉ WqNode.head q :: (items q).map WqNode.entry := by
    simp only [List.mem_cons, List.mem_map, reduceCtorEq, false_or]
    rintro ⟨x, hx, heq⟩
    injection heq with heq
    subst heq
    exact hw q hx
  obtain ⟨links, hadd, hring, hoff⟩ := (h.ring q).listAddTail hnew
  refine ⟨links, hadd, fun r => ?_⟩
  by_cases hr : r = q
  · subst hr
    rw [Function.update_self, List.map_append]
    exact hring
  · rw [Function.update_of_ne hr]
    refine (h.ring r).of_agreesOff hoff fun a ha hmem => ?_
    rcases List.mem_cons.1 hmem with rfl | hmem
    · simp only [List.mem_cons, List.mem_map, reduceCtorEq, false_or] at ha
      obtain ⟨x, hx, heq⟩ := ha
      injection heq with heq
      subst heq
      exact hw r hx
    · exact h.disjoint hr a ha hmem

/-- The first item of a list can be taken out. -/
theorem Intact.unlink (h : Intact s items) {q : Q} {w : W} {ws : List W}
    (hq : items q = w :: ws) :
    s.links.next (.head q) = some (.entry w)
      ∧ ∃ links, s.links.listDel (.entry w) = some links
        ∧ ∀ r, IsRing links (.head r)
          ((Function.update items q ws r).map .entry) := by
  have hring := h.ring q
  rw [hq, List.map_cons] at hring
  obtain ⟨links, hdel, hrest, hoff, -⟩ := (show IsRing _ _ ([] ++ _ :: _) from hring).listDel
  refine ⟨hring.next_head, links, hdel, fun r => ?_⟩
  by_cases hr : r = q
  · subst hr
    rw [Function.update_self]
    exact hrest
  · rw [Function.update_of_ne hr]
    refine (h.ring r).of_agreesOff hoff fun a ha hmem => ?_
    refine h.disjoint hr a ha ?_
    rw [hq, List.map_cons]
    exact hmem

end Lists

-- ================================================================ operations

section Operations

variable [DecidableEq Q] [DecidableEq W] {s : WorkQueues Q W}
  {js : Q → List (WqJob Q W)}

/-- What was appended to one list is the only new thing in any. -/
theorem mem_update_concat {α : Type*} {l : Q → List α} {q r : Q} {a b : α}
    (h : a ∈ Function.update l q (l q ++ [b]) r) : a ∈ l r ∨ a = b := by
  by_cases hr : r = q
  · subst hr
    rw [Function.update_self] at h
    simpa using h
  · rw [Function.update_of_ne hr] at h
    exact Or.inl h

/-- What `queue_work` can do: refuse, for a queued item; accept; or touch
a freed queue. -/
theorem queueWork_cases (h : WqInv s js) (q : Q) (w : W) (wq : Q)
    (time : Nat) :
    (s.freed q = true
        ∧ queueWork s q w wq time = (false, { s with fault := some .freed }))
      ∨ (s.freed q = false ∧ s.pending w = true
        ∧ queueWork s q w wq time = (false, s))
      ∨ (s.freed q = false ∧ s.pending w = false
        ∧ ∃ links, (∀ r, IsRing links (.head r)
            ((Function.update (fun r => (js r).map WqJob.item) q
              ((js q).map WqJob.item ++ [w]) r).map .entry))
          ∧ queueWork s q w wq time = (true, WorkQueues.wakeup
            { s with
              pending := Function.update s.pending w true
              links := links
              clock := s.clock + 1
              jobOf := Function.update s.jobOf w
                { item := w, wq := wq, submitted := time, queued := s.clock }
              accepted := Function.update s.accepted q (s.accepted q
                ++ [{ item := w, wq := wq, submitted := time,
                      queued := s.clock }]) } q)) := by
  cases hf : s.freed q with
  | true => exact Or.inl ⟨rfl, by simp [queueWork, hf]⟩
  | false =>
      refine Or.inr ?_
      cases hp : s.pending w with
      | true => exact Or.inl ⟨rfl, rfl, by simp [queueWork, hf, hp]⟩
      | false =>
          obtain ⟨links, hadd, hrings⟩ :=
            h.intact.link (fun r => h.not_linked hp r) q
          exact Or.inr ⟨rfl, rfl, links, hrings,
            by simp only [queueWork, hf, hp, hadd]; rfl⟩

omit [DecidableEq W] in
/-- Which items are where after one went to the end of `q`. -/
private theorem mem_appended {jobs : Q → List (WqJob Q W)} {q r : Q}
    {j : WqJob Q W} {w : W} :
    w ∈ (Function.update jobs q (jobs q ++ [j]) r).map WqJob.item
      ↔ w ∈ (jobs r).map WqJob.item ∨ r = q ∧ w = j.item := by
  by_cases hr : r = q
  · subst hr
    rw [Function.update_self]
    simp only [List.map_append, List.mem_append, List.map_cons, List.map_nil,
      List.mem_singleton, true_and]
  · rw [Function.update_of_ne hr]
    simp [hr]

/-- `queue_work` appends to the sequence. -/
theorem queueWork_inv (h : WqInv s js) (q : Q) (w : W) (wq : Q)
    (time : Nat) :
    WqInv (queueWork s q w wq time).2
      ((QueueOp.enqueue q w wq time).jobs s js) := by
  rcases queueWork_cases h q w wq time with ⟨hf, heq⟩ | ⟨hf, hp, heq⟩
    | ⟨hf, hp, links, hrings, heq⟩
  · rw [heq]
    simp only [QueueOp.jobs, hf, Bool.true_or, if_true]
    exact { h with intact := { h.intact with sound := by simp } }
  · rw [heq]
    simp only [QueueOp.jobs, hf, hp, Bool.or_true, if_true]
    exact h
  · rw [heq]
    simp only [QueueOp.jobs, hf, hp, Bool.or_self, Bool.false_eq_true,
      if_false]
    obtain ⟨job, hjob⟩ : ∃ job, WqJob.mk w wq time s.clock = job := ⟨_, rfl⟩
    rw [hjob]
    have hitem : job.item = w := by rw [← hjob]
    have hqueued : job.queued = s.clock := by rw [← hjob]
    generalize hs' : ({ s with
      pending := Function.update s.pending w true
      links := links
      clock := s.clock + 1
      jobOf := Function.update s.jobOf w job
      accepted := Function.update s.accepted q (s.accepted q ++ [job]) } :
      WorkQueues Q W) = s'
    obtain ⟨hlinks, hpend, hrun, hdone, hfreed, hfault, hclock, hjobOf,
      hacc, hstart, hfin, hat⟩ := wakeup_fields s' q
    subst hs'
    refine ⟨⟨?_, ?_, ?_, ?_⟩, ?_, ?_, ?_, ?_, ?_, ?_, ?_, ?_⟩
    · intro r
      rw [hlinks]
      have hring := hrings r
      by_cases hr : r = q
      · subst hr
        rw [Function.update_self] at hring
        rw [Function.update_self, List.map_append, List.map_singleton, hitem]
        exact hring
      · rw [Function.update_of_ne hr] at hring
        rw [Function.update_of_ne hr]
        exact hring
    · intro r r' x hx hx'
      rw [mem_appended, hitem] at hx hx'
      rcases hx with hx | ⟨hr, hxw⟩ <;> rcases hx' with hx' | ⟨hr', hxw'⟩
      · exact h.intact.apart r r' x hx hx'
      · rw [hxw'] at hx
        exact absurd hx (h.not_linked hp r)
      · rw [hxw] at hx'
        exact absurd hx' (h.not_linked hp r')
      · rw [hr, hr']
    · intro x
      rw [hpend]
      simp only [mem_appended, hitem]
      by_cases hx : x = w
      · subst hx
        rw [Function.update_self]
        exact iff_of_true rfl ⟨q, Or.inr ⟨rfl, rfl⟩⟩
      · rw [Function.update_of_ne hx, h.intact.pending_iff x]
        simp [hx]
    · rw [hfault]
      exact h.intact.sound
    · intro r j hj
      rw [hjobOf]
      rcases mem_update_concat hj with hj | rfl
      · have hne : j.item ≠ w := by
          intro heq'
          refine h.not_linked hp r ?_
          rw [← heq']
          exact List.mem_map_of_mem hj
        show Function.update s.jobOf w job j.item = j
        rw [Function.update_of_ne hne]
        exact h.job r j hj
      · show Function.update s.jobOf w j j.item = j
        rw [hitem, Function.update_self]
    · intro r
      rw [hacc, hstart, wakeup_waits]
      show Function.update s.accepted q (s.accepted q ++ [job]) r
        = s.started r ++ (s.worker r).waits
          ++ Function.update js q (js q ++ [job]) r
      by_cases hr : r = q
      · subst hr
        rw [Function.update_self, Function.update_self, h.log r,
          List.append_assoc]
      · rw [Function.update_of_ne hr, Function.update_of_ne hr]
        exact h.log r
    · intro r
      rw [hstart, hfin, wakeup_runs]
      exact h.ran r
    · intro r hr
      obtain ⟨hne, hsleep⟩ := wakeup_asleep _ _ hr
      rw [hrun, Function.update_of_ne hne]
      exact h.asleep r hsleep
    · intro r hd
      rw [hdone] at hd
      rw [wakeup_exited]
      exact h.left r hd
    · intro r hfr
      rw [hfreed] at hfr
      rw [hdone]
      exact h.gone r hfr
    · intro r j hj
      rw [hclock]
      rw [hacc] at hj
      rcases mem_update_concat hj with hj | rfl
      · exact Nat.lt_succ_of_lt (h.ticket r j hj)
      · rw [hqueued]
        exact Nat.lt_succ_self _
    · intro r hex
      rw [wakeup_exited] at hex
      obtain ⟨hle, hlate⟩ := h.late r hex
      rw [hat, hclock]
      refine ⟨Nat.le_succ_of_le hle, fun j hj => ?_⟩
      rcases mem_update_concat hj with hj | rfl
      · exact hlate j hj
      · rw [hqueued]
        exact hle

/-- What the section that takes the first item does, when there is one. -/
theorem takeWork_eq (h : WqInv s js) {q : Q} {j : WqJob Q W}
    {rest : List (WqJob Q W)} (hq : js q = j :: rest) :
    ∃ links, (∀ r, IsRing links (.head r)
        ((Function.update (fun r => (js r).map WqJob.item) q
          (rest.map WqJob.item) r).map .entry))
      ∧ takeWork s q = { s with
          links := links
          pending := Function.update s.pending j.item false
          worker := Function.update s.worker q (.taken j) } := by
  have hitems : (fun r => (js r).map WqJob.item) q
      = j.item :: rest.map WqJob.item := by
    show (js q).map WqJob.item = _
    rw [hq, List.map_cons]
  obtain ⟨hnext, links, hdel, hrings⟩ := h.intact.unlink hitems
  have hjob : s.jobOf j.item = j := h.job q j (by
    rw [hq]
    exact List.mem_cons_self)
  refine ⟨links, hrings, ?_⟩
  unfold takeWork
  simp only [hnext, hdel, hjob]

/-- A queue is empty, to the code, when its sequence is. -/
theorem WqInv.listEmpty_iff (h : WqInv s js) (q : Q) :
    s.links.listEmpty (.head q) = true ↔ js q = [] := by
  have hempty := (h.intact.ring q).listEmpty_iff
  rw [List.map_eq_nil_iff, List.map_eq_nil_iff] at hempty
  exact hempty

/-- With something queued, the loop of the thread goes on to take it. -/
theorem wqThreadFn_loop_cons (h : WqInv s js) {q : Q} {j : WqJob Q W}
    {rest : List (WqJob Q W)} (hw : s.worker q = .loop)
    (hq : js q = j :: rest) : wqThreadFn s q = takeWork s q := by
  have hne : s.links.listEmpty (.head q) = false := by
    rw [Bool.eq_false_iff]
    intro hemp
    rw [(h.listEmpty_iff q).1 hemp] at hq
    cases hq
  simp only [wqThreadFn, hw, hne, Bool.not_false, Bool.or_true, if_true,
    Bool.false_eq_true, if_false]

/-- The thread takes the first of its sequence. -/
private theorem takeWork_inv (h : WqInv s js) {q : Q} {j : WqJob Q W}
    {rest : List (WqJob Q W)} (hw : s.worker q = .loop)
    (hq : js q = j :: rest) :
    WqInv (takeWork s q) (Function.update js q rest) := by
  obtain ⟨links, hrings, heq⟩ := takeWork_eq h hq
  rw [heq]
  have hmem : ∀ r, ∀ k ∈ Function.update js q rest r, k ∈ js r := by
    intro r k hk
    by_cases hr : r = q
    · subst hr
      rw [Function.update_self] at hk
      rw [hq]
      exact List.mem_cons_of_mem j hk
    · rw [Function.update_of_ne hr] at hk
      exact hk
  -- the first item occurs nowhere else
  have hfirst : ∀ r, j.item ∉ (Function.update js q rest r).map WqJob.item := by
    intro r hj
    by_cases hr : r = q
    · subst hr
      rw [Function.update_self] at hj
      have hnd := (List.nodup_cons.1 (h.intact.ring r).nodup).2
      rw [hq, List.map_cons, List.map_cons] at hnd
      exact (List.nodup_cons.1 hnd).1 (List.mem_map_of_mem hj)
    · rw [Function.update_of_ne hr] at hj
      refine hr (h.intact.apart r q j.item hj ?_)
      show j.item ∈ (js q).map WqJob.item
      rw [hq]
      exact List.mem_cons_self
  refine ⟨⟨?_, ?_, ?_, h.intact.sound⟩, ?_, ?_, ?_, ?_, ?_, h.gone, h.ticket,
    ?_⟩
  · intro r
    have hring := hrings r
    by_cases hr : r = q
    · subst hr
      rw [Function.update_self] at hring
      rw [Function.update_self]
      exact hring
    · rw [Function.update_of_ne hr] at hring
      rw [Function.update_of_ne hr]
      exact hring
  · intro r r' x hx hx'
    obtain ⟨k, hk, hkx⟩ := List.mem_map.1 hx
    obtain ⟨k', hk', hkx'⟩ := List.mem_map.1 hx'
    exact h.intact.apart r r' x (List.mem_map.2 ⟨k, hmem r k hk, hkx⟩)
      (List.mem_map.2 ⟨k', hmem r' k' hk', hkx'⟩)
  · intro x
    show Function.update s.pending j.item false x = true ↔ _
    by_cases hx : x = j.item
    · subst hx
      rw [Function.update_self]
      exact iff_of_false Bool.false_ne_true fun ⟨r, hr⟩ => hfirst r hr
    · rw [Function.update_of_ne hx, h.intact.pending_iff x]
      refine exists_congr fun r => ?_
      by_cases hr : r = q
      · subst hr
        rw [Function.update_self, hq, List.map_cons, List.mem_cons]
        exact or_iff_right hx
      · rw [Function.update_of_ne hr]
  · intro r k hk
    exact h.job r k (hmem r k hk)
  · intro r
    show s.accepted r = s.started r
      ++ (Function.update s.worker q (.taken j) r).waits
      ++ Function.update js q rest r
    by_cases hr : r = q
    · subst hr
      rw [Function.update_self, Function.update_self, h.log r, hw, hq]
      simp [WorkerAt.waits]
    · rw [Function.update_of_ne hr, Function.update_of_ne hr]
      exact h.log r
  · intro r
    show s.started r = s.finished r
      ++ (Function.update s.worker q (.taken j) r).runs
    by_cases hr : r = q
    · subst hr
      rw [Function.update_self, h.ran r, hw]
      rfl
    · rw [Function.update_of_ne hr]
      exact h.ran r
  · intro r hsleep
    have hr : r ≠ q := by
      rintro rfl
      have : WorkerAt.taken j = .asleep := by
        simpa only [Function.update_self] using hsleep
      cases this
    have hsleep' : s.worker r = .asleep := by
      simpa only [Function.update_of_ne hr] using hsleep
    rw [Function.update_of_ne hr]
    exact h.asleep r hsleep'
  · intro r hd
    show Function.update s.worker q (.taken j) r = .exited
    have hex := h.left r hd
    have hr : r ≠ q := by
      rintro rfl
      rw [hw] at hex
      cases hex
    rw [Function.update_of_ne hr]
    exact hex
  · intro r hex
    have hr : r ≠ q := by
      rintro rfl
      have : WorkerAt.taken j = .exited := by
        simpa only [Function.update_self] using hex
      cases this
    have hex' : s.worker r = .exited := by
      simpa only [Function.update_of_ne hr] using hex
    rw [Function.update_of_ne hr]
    exact h.late r hex'

omit [DecidableEq W] in
/-- Moving a thread on that takes nothing up. -/
private theorem moveWorker_inv (h : WqInv s js) (q : Q) (at_ : WorkerAt Q W)
    (started finished : List (WqJob Q W))
    (hold : s.worker q ≠ .exited)
    (hlog : s.started q ++ (s.worker q).waits = started ++ at_.waits)
    (hran : started = finished ++ at_.runs)
    (hsleep : at_ = .asleep → js q = [] ∧ s.running q = true)
    (hex : at_ ≠ .exited) :
    WqInv { s with
      worker := Function.update s.worker q at_
      started := Function.update s.started q started
      finished := Function.update s.finished q finished } js := by
  refine ⟨⟨h.intact.ring, h.intact.apart, h.intact.pending_iff,
    h.intact.sound⟩, h.job, ?_, ?_, ?_, ?_, h.gone, h.ticket, ?_⟩
  · intro r
    show s.accepted r = Function.update s.started q started r
      ++ (Function.update s.worker q at_ r).waits ++ js r
    by_cases hr : r = q
    · subst hr
      rw [Function.update_self, Function.update_self, ← hlog]
      exact h.log r
    · rw [Function.update_of_ne hr, Function.update_of_ne hr]
      exact h.log r
  · intro r
    show Function.update s.started q started r
      = Function.update s.finished q finished r
        ++ (Function.update s.worker q at_ r).runs
    by_cases hr : r = q
    · subst hr
      rw [Function.update_self, Function.update_self, Function.update_self]
      exact hran
    · rw [Function.update_of_ne hr, Function.update_of_ne hr,
        Function.update_of_ne hr]
      exact h.ran r
  · intro r hr'
    have hr'' : Function.update s.worker q at_ r = .asleep := hr'
    by_cases hr : r = q
    · subst hr
      rw [Function.update_self] at hr''
      exact hsleep hr''
    · rw [Function.update_of_ne hr] at hr''
      exact h.asleep r hr''
  · intro r hd
    show Function.update s.worker q at_ r = .exited
    have hr : r ≠ q := by
      rintro rfl
      exact hold (h.left r hd)
    rw [Function.update_of_ne hr]
    exact h.left r hd
  · intro r hr'
    have hr'' : Function.update s.worker q at_ r = .exited := hr'
    by_cases hr : r = q
    · subst hr
      rw [Function.update_self] at hr''
      exact absurd hr'' hex
    · rw [Function.update_of_ne hr] at hr''
      exact h.late r hr''

omit [DecidableEq W] in
/-- The thread leaves its loop, its sequence being empty. -/
private theorem leaveLoop_inv (h : WqInv s js) {q : Q}
    (hw : s.worker q = .loop) (hq : js q = []) :
    WqInv { s with
      done := Function.update s.done q true
      worker := Function.update s.worker q .exited
      doneAt := Function.update s.doneAt q s.clock } js := by
  refine ⟨⟨h.intact.ring, h.intact.apart, h.intact.pending_iff,
    h.intact.sound⟩, h.job, ?_, ?_, ?_, ?_, ?_, h.ticket, ?_⟩
  · intro r
    show s.accepted r = s.started r
      ++ (Function.update s.worker q .exited r).waits ++ js r
    by_cases hr : r = q
    · subst hr
      rw [Function.update_self, h.log r, hw]
      rfl
    · rw [Function.update_of_ne hr]
      exact h.log r
  · intro r
    show s.started r = s.finished r
      ++ (Function.update s.worker q .exited r).runs
    by_cases hr : r = q
    · subst hr
      rw [Function.update_self, h.ran r, hw]
      rfl
    · rw [Function.update_of_ne hr]
      exact h.ran r
  · intro r hr'
    have hr'' : Function.update s.worker q .exited r
        = .asleep := hr'
    by_cases hr : r = q
    · subst hr
      rw [Function.update_self] at hr''
      cases hr''
    · rw [Function.update_of_ne hr] at hr''
      exact h.asleep r hr''
  · intro r hd
    show Function.update s.worker q .exited r = .exited
    have hd' : Function.update s.done q true r = true := hd
    by_cases hr : r = q
    · subst hr
      exact Function.update_self ..
    · rw [Function.update_of_ne hr] at hd' ⊢
      exact h.left r hd'
  · intro r hf
    show Function.update s.done q true r = true
    by_cases hr : r = q
    · subst hr
      exact Function.update_self ..
    · rw [Function.update_of_ne hr]
      exact h.gone r hf
  · intro r hr'
    have hr'' : Function.update s.worker q .exited r
        = .exited := hr'
    show Function.update s.doneAt q s.clock r ≤ s.clock
      ∧ ∀ j ∈ js r, Function.update s.doneAt q s.clock r ≤ j.queued
    by_cases hr : r = q
    · subst hr
      rw [Function.update_self, hq]
      exact ⟨le_rfl, fun j hj => absurd hj List.not_mem_nil⟩
    · rw [Function.update_of_ne hr] at hr'' ⊢
      exact h.late r hr''

/-- A stretch of the thread. -/
theorem wqThreadFn_inv (h : WqInv s js) (q : Q) :
    WqInv (wqThreadFn s q) ((QueueOp.thread q).jobs s js) := by
  cases hw : s.worker q with
  | loop =>
      simp only [QueueOp.jobs, hw]
      cases hq : js q with
      | nil =>
          simp only [wqThreadFn, hw]
          rw [(h.listEmpty_iff q).2 hq, List.tail_nil, ← hq, Function.update_eq_self]
          simp only [Bool.not_true, Bool.or_false, if_true]
          cases hrun : s.running q with
          | true =>
              simp only [if_true]
              have hmove := moveWorker_inv h q .asleep (s.started q)
                (s.finished q)
                (by rw [hw]; exact nofun) (by rw [hw]; rfl)
                (by rw [h.ran q, hw]; rfl) (fun _ => ⟨hq, hrun⟩) nofun
              rw [Function.update_eq_self, Function.update_eq_self] at hmove
              exact hmove
          | false =>
              simp only [Bool.false_eq_true, if_false]
              exact leaveLoop_inv h hw hq
      | cons j rest =>
          rw [List.tail_cons, wqThreadFn_loop_cons h hw hq]
          exact takeWork_inv h hw hq
  | asleep => simpa only [QueueOp.jobs, wqThreadFn, hw] using h
  | taken j =>
      simp only [QueueOp.jobs, wqThreadFn, hw]
      have hmove := moveWorker_inv h q (.run j) (s.started q ++ [j])
        (s.finished q)
        (by rw [hw]; exact nofun)
        (by rw [hw]; simp [WorkerAt.waits])
        (by rw [h.ran q, hw]; simp [WorkerAt.runs]) nofun nofun
      rw [Function.update_eq_self] at hmove
      exact hmove
  | run j =>
      simp only [QueueOp.jobs, wqThreadFn, hw]
      have hmove := moveWorker_inv h q .loop (s.started q)
        (s.finished q ++ [j])
        (by rw [hw]; exact nofun) (by rw [hw]; rfl)
        (by rw [h.ran q, hw]; simp [WorkerAt.runs]) nofun nofun
      rw [Function.update_eq_self] at hmove
      exact hmove
  | exited => simpa only [QueueOp.jobs, wqThreadFn, hw] using h

omit [DecidableEq W] in
/-- `destroy_workqueue` wakes the thread, which then sees its queue is no
longer running. -/
theorem destroyWorkqueue_inv (h : WqInv s js) (q : Q) :
    WqInv (destroyWorkqueue s q) js := by
  unfold destroyWorkqueue
  split
  · exact h
  · generalize hs' : ({ s with
      destroying := Function.update s.destroying q true
      running := Function.update s.running q false } : WorkQueues Q W) = s'
    obtain ⟨hlinks, hpend, hrun, hdone, hfreed, hfault, hclock, hjobOf,
      hacc, hstart, hfin, hat⟩ := wakeup_fields s' q
    subst hs'
    refine ⟨⟨?_, h.intact.apart, ?_, ?_⟩, ?_, ?_, ?_, ?_, ?_, ?_, ?_, ?_⟩
    · rw [hlinks]
      exact h.intact.ring
    · rw [hpend]
      exact h.intact.pending_iff
    · rw [hfault]
      exact h.intact.sound
    · rw [hjobOf]
      exact h.job
    · intro r
      rw [hacc, hstart, wakeup_waits]
      exact h.log r
    · intro r
      rw [hstart, hfin, wakeup_runs]
      exact h.ran r
    · intro r hr
      obtain ⟨hne, hsleep⟩ := wakeup_asleep _ _ hr
      rw [hrun]
      show js r = [] ∧ Function.update s.running q false r = true
      rw [Function.update_of_ne hne]
      exact h.asleep r hsleep
    · intro r hd
      rw [hdone] at hd
      rw [wakeup_exited]
      exact h.left r hd
    · intro r hf
      rw [hfreed] at hf
      rw [hdone]
      exact h.gone r hf
    · intro r j hj
      rw [hacc] at hj
      rw [hclock]
      exact h.ticket r j hj
    · intro r hex
      rw [wakeup_exited] at hex
      rw [hat, hclock]
      exact h.late r hex

omit [DecidableEq W] in
/-- It returns once the thread has left. -/
theorem destroyReturn_inv (h : WqInv s js) (q : Q) :
    WqInv (destroyReturn s q) js := by
  unfold destroyReturn
  split
  next hd =>
    refine ⟨⟨h.intact.ring, h.intact.apart, h.intact.pending_iff,
      h.intact.sound⟩, h.job, h.log, h.ran, h.asleep, h.left, ?_, h.ticket,
      h.late⟩
    intro r hf
    have hf' : Function.update s.freed q true r = true := hf
    by_cases hr : r = q
    · subst hr
      rw [Bool.and_eq_true] at hd
      exact hd.2
    · rw [Function.update_of_ne hr] at hf'
      exact h.gone r hf'
  next => exact h

omit [DecidableEq Q] in
/-- Clearing a clear flag. -/
theorem clearPending_eq {w : W} (hw : s.pending w = false) :
    clearPending s w = s := by
  unfold clearPending
  rw [← hw, Function.update_eq_self]

/-- The operation clears no queued item's flag. -/
def QueueOp.Idle (op : QueueOp Q W) (s : WorkQueues Q W) : Prop :=
  ∀ w, op = .clear w → s.pending w = false

/-- The code refines the abstract queues. -/
theorem QueueOp.run_inv (h : WqInv s js) {op : QueueOp Q W}
    (hidle : op.Idle s) : WqInv (op.run s) (op.jobs s js) := by
  cases op with
  | idle => exact h
  | tick =>
      exact { h with
        intact := { h.intact with }
        ticket := fun q j hj => Nat.lt_succ_of_lt (h.ticket q j hj)
        late := fun q hq =>
          ⟨Nat.le_succ_of_le (h.late q hq).1, (h.late q hq).2⟩ }
  | enqueue q w wq time => exact queueWork_inv h q w wq time
  | thread q => exact wqThreadFn_inv h q
  | clear w =>
      show WqInv (clearPending s w) js
      rw [clearPending_eq (hidle w rfl)]
      exact h
  | destroy q => exact destroyWorkqueue_inv h q
  | destroyReturn q => exact destroyReturn_inv h q
  | useFreed => exact { h with intact := { h.intact with sound := nofun } }

end Operations

-- ==================================================================== events

section Events

variable [DecidableEq Q] [DecidableEq W] (sys : Q)

/-- What a stretch of a thread does to the queues is its operation. -/
theorem wqStep_queues (s : WqState Q W) (e : WqEvent Q W) :
    (wqStep sys s e).queues = (e.op sys s).run s.queues := by
  unfold wqStep WqEvent.op
  split
  · rfl
  · cases e with
    | queueDelayedWork q w delay =>
        show (queueDelayedWork s q w delay).queues = _
        unfold queueDelayedWork
        by_cases hd : delay = 0
        · simp only [hd, if_true]
          rfl
        · simp only [hd, if_false]
          rfl
    | modTimer k =>
        simp only [wqEvent]
        cases s.arming[k]? with
        | none => rfl
        | some p => rfl
    | timerFires w =>
        simp only [wqEvent]
        split <;> rfl
    | timerCallFn k =>
        simp only [wqEvent]
        cases s.firings[k]? with
        | none => rfl
        | some f =>
            simp only [timerCallFn]
            cases f.at_ with
            | entered =>
                simp only
                split <;> rfl
            | active wq time => rfl
            | cleared wq time => rfl
    | cancelStep k =>
        simp only [wqEvent]
        cases s.cancels[k]? with
        | none => rfl
        | some c =>
            simp only [cancelStep]
            cases c.waited with
            | true => rfl
            | false =>
                simp only [Bool.false_eq_true, if_false]
                split <;> rfl
    | flushTurn k =>
        simp only [wqEvent]
        cases s.flushes[k]? with
        | none => rfl
        | some f =>
            simp only [flushTurn]
            by_cases hturns : f.turns < f.limit
            · simp only [hturns, if_true, true_and]
              cases s.queues.gone f.target with
              | true => rfl
              | false =>
                  simp only [Bool.false_eq_true, if_false]
                  split <;> rfl
            · simp only [hturns, if_false, false_and]
              rfl
    | _ => rfl

omit [DecidableEq Q] [DecidableEq W] in
/-- The condition on cancels, on the operation. -/
theorem cancelsIdle_iff (s : WqState Q W) (e : WqEvent Q W) :
    CancelsIdle sys s e ↔ (e.op sys s).Idle s.queues := by
  unfold CancelsIdle WqEvent.cancels QueueOp.Idle
  cases e.op sys s with
  | clear w => simp
  | _ => simp

/-- One stretch of one thread. -/
theorem wqStep_inv {s : WqState Q W} {js : Q → List (WqJob Q W)}
    (h : WqInv s.queues js) {e : WqEvent Q W} (he : CancelsIdle sys s e) :
    WqInv (wqStep sys s e).queues ((e.op sys s).jobs s.queues js) := by
  rw [wqStep_queues]
  exact QueueOp.run_inv h ((cancelsIdle_iff sys s e).1 he)

omit [DecidableEq Q] [DecidableEq W] in
/-- Who makes an operation: a queue's own thread runs it; a direct
submission is queued where it was submitted to, one that comes out of a
timer on `system_wq`; only cancels clear flags. -/
theorem op_spec (s : WqState Q W) (e : WqEvent Q W) :
    match e.op sys s with
    | .thread q => e = .wqThreadFn q
    | .enqueue q w wq time => (wq = q ∧ time = s.queues.clock)
        ∨ q = sys ∧ ∃ f ∈ s.firings, f.item = w ∧ (wq, time) ∈ f.submission
    | .clear _ => e.isCancel = true
    | _ => True := by
  unfold WqEvent.op
  by_cases hf : s.queues.fault.isSome
  · rw [if_pos hf]
    trivial
  · rw [if_neg hf]
    cases e with
    | queueWork q w => exact Or.inl ⟨rfl, rfl⟩
    | queueDelayedWork q w delay =>
        by_cases hd : delay = 0
        · simp only [hd, if_true]
          exact Or.inl ⟨trivial, trivial⟩
        · simp only [hd, if_false]
    | modTimer k =>
        simp only
        by_cases hk : s.arming[k]?.isSome
        · rw [if_pos hk]
          trivial
        · rw [if_neg hk]
          trivial
    | timerCallFn k =>
        simp only
        cases hk : s.firings[k]? with
        | none => trivial
        | some f =>
            simp only
            cases hat : f.at_ with
            | cleared wq time =>
                refine Or.inr ⟨rfl, f, List.mem_of_getElem? hk, rfl, ?_⟩
                rw [Firing.submission, hat]
                exact rfl
            | _ => trivial
    | cancelStep k =>
        simp only
        cases s.cancels[k]? with
        | none => trivial
        | some c =>
            simp only
            cases c.waited with
            | true => rfl
            | false => trivial
    | flushTurn k =>
        simp only
        cases s.flushes[k]? with
        | none => trivial
        | some f =>
            simp only
            by_cases hg : f.turns < f.limit ∧ s.queues.gone f.target = true
            · rw [if_pos hg]
              trivial
            · rw [if_neg hg]
              trivial
    | cancelWorkSync w => rfl
    | clearPending w => rfl
    | wqThreadFn q => rfl
    | _ => trivial

omit [DecidableEq Q] [DecidableEq W] in
/-- An event that is none of a cancel clears no flag. -/
theorem cancelsIdle_of_not_cancel {e : WqEvent Q W}
    (he : e.isCancel = false) (s : WqState Q W) : CancelsIdle sys s e := by
  rw [cancelsIdle_iff]
  intro w hop
  have hspec := op_spec sys s e
  rw [hop] at hspec
  rw [he] at hspec
  cases hspec

end Events

end Rtw88
