/-
Whole runs of the work queues.

- `queues_intact_iff`: the lists stay intact, along a run, exactly if no
  cancel in it clears the flag of a queued item. After one that does, the
  flag no longer guards the list node, and the next `queue_work` links it
  a second time.
- `queues_accounted`: without cancels every accepted invocation is run
  once and in order. What `destroy_workqueue` leaves in the queue was
  accepted after the thread had left; `late_work_stranded` is such a run.

The first is an equivalence, so each step is taken in both directions. A
step that clears no queued item's flag keeps the invariant
(`wqStep_inv`), and with it the lists. A step that clears one leaves a
linked item that is not pending, and that already is what `Intact` rules
out; nothing need be known of the run beyond it.

For the second the records are read at the end of the run: what was
accepted into a queue is what its thread ran, then what it holds, then
what is still in the list, in that order.
-/
import Rtw88.Proofs.Workqueue.Queues

namespace Rtw88

variable {Q W : Type} [DecidableEq Q] [DecidableEq W]

-- =================================================================== leaving

/-- An invocation leaves its sequence by being taken up. -/
theorem QueueOp.jobs_leave {s : WorkQueues Q W} {js : Q → List (WqJob Q W)}
    (h : WqInv s js) (op : QueueOp Q W) {q : Q} {j : WqJob Q W}
    (hj : j ∈ js q) :
    j ∈ op.jobs s js q
      ∨ op = .thread q ∧ (op.run s).worker q = .taken j := by
  cases op with
  | enqueue r w wq time =>
      refine Or.inl ?_
      simp only [QueueOp.jobs]
      split
      · exact hj
      · by_cases hr : q = r
        · subst hr
          rw [Function.update_self]
          exact List.mem_append_left _ hj
        · rw [Function.update_of_ne hr]
          exact hj
  | thread r =>
      cases hw : s.worker r with
      | loop =>
          simp only [QueueOp.jobs, hw]
          by_cases hr : q = r
          · subst hr
            rw [Function.update_self]
            cases hq : js q with
            | nil =>
                rw [hq] at hj
                cases hj
            | cons k rest =>
                rw [hq] at hj
                rcases List.mem_cons.1 hj with rfl | hmem
                · -- the first one
                  obtain ⟨links, -, htake⟩ := takeWork_eq h hq
                  refine Or.inr ⟨rfl, ?_⟩
                  show (wqThreadFn s q).worker q = _
                  rw [wqThreadFn_loop_cons h hw hq, htake]
                  exact Function.update_self ..
                · exact Or.inl hmem
          · rw [Function.update_of_ne hr]
            exact Or.inl hj
      | _ => exact Or.inl (by simpa only [QueueOp.jobs, hw] using hj)
  | _ => exact Or.inl hj

-- ================================================================= integrity

variable (sys : Q)

/-- A step that clears no queued item's flag keeps the lists. -/
private theorem keepsQueues_of_idle {s : WqState Q W} {e : WqEvent Q W}
    {js : Q → List (WqJob Q W)} (h : WqInv s.queues js)
    (he : CancelsIdle sys s e) : KeepsQueues sys s e := by
  refine ⟨_, _, h.intact, (wqStep_inv sys h he).intact, ?_⟩
  intro q w hw
  obtain ⟨j, hj, hjw⟩ := List.mem_map.1 hw
  rcases QueueOp.jobs_leave h (e.op sys s) hj with hstay | ⟨hop, htaken⟩
  · exact Or.inl (List.mem_map.2 ⟨j, hstay, hjw⟩)
  · refine Or.inr (Or.inl ⟨?_, j, ?_, hjw⟩)
    · have hspec := op_spec sys s e
      rw [hop] at hspec
      exact hspec
    · rw [wqStep_queues]
      exact htaken

/-- A step that keeps the lists clears no queued item's flag: the item
would still be linked. -/
private theorem idle_of_keepsQueues {s : WqState Q W} {e : WqEvent Q W}
    (h : KeepsQueues sys s e) : CancelsIdle sys s e := by
  obtain ⟨items, items', hbefore, hafter, -⟩ := h
  rw [cancelsIdle_iff]
  intro w hop
  rw [wqStep_queues, hop] at hafter
  rw [Bool.eq_false_iff]
  intro hpend
  obtain ⟨q, hq⟩ := (hbefore.pending_iff w).1 hpend
  -- the heap is as it was, so both lists of `q` are the same
  have hsame : (items q).map (WqNode.entry (Q := Q))
      = (items' q).map WqNode.entry := (hbefore.ring q).unique (hafter.ring q)
  have hlinked : w ∈ items' q := by
    have hnode : WqNode.entry (Q := Q) w ∈ (items' q).map WqNode.entry := by
      rw [← hsame]
      exact List.mem_map_of_mem hq
    obtain ⟨x, hx, heq⟩ := List.mem_map.1 hnode
    injection heq with heq
    rw [← heq]
    exact hx
  have hset := (hafter.pending_iff w).2 ⟨q, hlinked⟩
  have hclear : ((QueueOp.clear w : QueueOp Q W).run s.queues).pending w
      = false := Function.update_self ..
  rw [hclear] at hset
  cases hset

/-- Along any run, the lists stay intact at every step if and only if no
cancel clears the flag of a queued item. -/
theorem queues_intact_iff (es : List (WqEvent Q W)) :
    Along (wqStep sys) (KeepsQueues sys) (WqState.init sys) es
      ↔ Along (wqStep sys) (CancelsIdle sys) (WqState.init sys) es := by
  constructor
  · exact Along.mono fun s e h => idle_of_keepsQueues sys h
  · refine along_of_inv (I := fun s => ∃ js, WqInv s.queues js) ?_
      ⟨_, WqInv.init sys⟩
    rintro s e ⟨js, h⟩ he
    exact ⟨⟨_, wqStep_inv sys h he⟩, keepsQueues_of_idle sys h he⟩

/-- Two items queued, the first cancelled and queued again: the second can
no longer be reached from the head, and when the thread comes back for
the first it follows a null pointer. -/
theorem cancelled_linked_twice :
    let es : List (WqEvent Unit Bool) := [.queueWork () true,
      .queueWork () false, .cancelWorkSync true, .queueWork () true]
    let s := runFrom (wqStep ()) (WqState.init ()) es
    s.queues.links.next (.head ()) = some (.entry true)
      ∧ s.queues.links.next (.entry true) = some (.head ())
      ∧ s.queues.pending false = true
      ∧ (runFrom (wqStep ()) s [.wqThreadFn (), .wqThreadFn (),
          .wqThreadFn (), .wqThreadFn ()]).queues.fault = some .wild
      ∧ ¬Along (wqStep ()) (KeepsQueues ()) (WqState.init ()) es := by
  refine ⟨by decide +kernel, by decide +kernel, by decide +kernel,
    by decide +kernel, fun hkeep => ?_⟩
  have hidle := hkeep.mono fun s e h => idle_of_keepsQueues () h
  revert hidle
  decide +kernel

-- ================================================================ accounting

/-- What the sequences say about the records. -/
theorem WqInv.accounted {s : WorkQueues Q W} {js : Q → List (WqJob Q W)}
    (h : WqInv s js) : Accounted s fun q => (js q).map WqJob.item := by
  refine ⟨?_, ?_, ?_, ?_, ?_⟩
  · intro q w
    have hnd : ((js q).map WqJob.item).Nodup :=
      (List.nodup_cons.1 (h.intact.ring q).nodup).2.of_map _
    have hone : (js q).countP (·.item = w)
        = if w ∈ (js q).map WqJob.item then 1 else 0 := by
      rw [← hnd.count, List.count, List.countP_map]
      refine List.countP_congr fun j _ => ?_
      simp
    rw [h.log q, List.countP_append, List.countP_append, hone]
  · intro q
    rw [h.log q, List.append_assoc]
    exact List.prefix_append _ _
  · intro q w wq time hf
    rw [← h.intact.pending_iff w]
    rcases queueWork_cases h q w wq time with ⟨hf', -⟩ | ⟨-, hp, heq⟩
      | ⟨-, hp, links, -, heq⟩
    · rw [hf] at hf'
      cases hf'
    · rw [heq, hp]
      exact iff_of_true rfl rfl
    · rw [heq, hp]
      exact iff_of_false nofun nofun
  · intro q hq
    obtain ⟨hnil, hrun⟩ := h.asleep q hq
    exact ⟨by rw [hnil]; rfl, hrun⟩
  · intro q hf
    have hex := h.left q (h.gone q hf)
    refine ⟨hex, fun j hj hbefore => ?_⟩
    have hlog := h.log q
    rw [h.ran q, hex] at hlog
    rw [hlog] at hj
    simp only [WorkerAt.runs, WorkerAt.waits, List.append_nil,
      List.mem_append] at hj
    rcases hj with hfin | hjs
    · exact hfin
    · exact absurd hbefore (Nat.not_lt.2 ((h.late q hex).2 j hjs))

/-- In every run without cancels the lists are intact and every accepted
invocation is accounted for. -/
theorem queues_accounted {es : List (WqEvent Q W)}
    (h : ∀ e ∈ es, e.isCancel = false) :
    ∃ items, Intact (runFrom (wqStep sys) (WqState.init sys) es).queues items
      ∧ Accounted (runFrom (wqStep sys) (WqState.init sys) es).queues
          items := by
  have hidle : Along (wqStep sys) (CancelsIdle sys) (WqState.init sys) es := by
    generalize WqState.init sys = s
    induction es generalizing s with
    | nil => trivial
    | cons e es ih =>
        refine ⟨cancelsIdle_of_not_cancel sys (h e List.mem_cons_self) s, ?_⟩
        exact ih (fun e he => h e (List.mem_cons_of_mem _ he)) _
  obtain ⟨js, hinv⟩ := inv_of_along
    (I := fun s : WqState Q W => ∃ js, WqInv s.queues js)
    (fun s e ⟨js, hs⟩ he => ⟨_, wqStep_inv sys hs he⟩)
    ⟨_, WqInv.init sys⟩ hidle
  exact ⟨_, hinv.intact, hinv.accounted⟩

/-- The thread sleeps and is woken, two items are queued and the first is
run; `destroy_workqueue` waits until the second has been run too. -/
theorem sample_accounted :
    let s := (runFrom (wqStep ()) (WqState.init ()) [.wqThreadFn (),
      .queueWork () true, .queueWork () false, .wqThreadFn (),
      .wqThreadFn (), .destroy (), .destroyReturn (), .wqThreadFn (),
      .wqThreadFn (), .wqThreadFn (), .wqThreadFn (), .wqThreadFn (),
      .destroyReturn ()]).queues
    (∃ items : Unit → List Bool, Intact s items ∧ Accounted s items)
      ∧ (s.finished ()).map WqJob.item = [true, false]
      ∧ s.freed () = true :=
  ⟨queues_accounted () (by decide), by decide, by decide⟩

/-- An item taken up is neither queued nor started yet; and one queued
after the thread has left stays in the queue when it is freed. -/
theorem late_work_stranded :
    let taken := runFrom (wqStep ()) (WqState.init ())
      ([.queueWork () (), .wqThreadFn ()] : List (WqEvent Unit Unit))
    let late := runFrom (wqStep ()) (WqState.init ())
      ([.destroy (), .wqThreadFn (), .queueWork () (), .destroyReturn ()]
        : List (WqEvent Unit Unit))
    ((taken.queues.accepted ()).length = 1
        ∧ (taken.queues.started ()).length = 0
        ∧ taken.queues.pending () = false)
      ∧ late.queues.freed () = true ∧ late.queues.pending () = true
      ∧ late.queues.links.listEmpty (.head ()) = false := by
  decide +kernel

end Rtw88
