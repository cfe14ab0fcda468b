/-
Cancel and flush.

The thread takes an item off its queue and clears the pending flag before
it calls the callback, with the lock dropped. So neither "not pending" nor
"queue empty" says that nothing is running, and `cancel_work_sync` does
not even look. `cancels_and_flushes_synchronise` has the condition under
which they do what their names say: nobody is in that stretch with an
invocation that is to be waited for.

# The marks

A cancel that returns leaves a mark, the clock of that moment, and the
records stamp every submission with the clock too. `SyncInv` carries the
marks of the cancels that have returned: whatever a thread holds, a queue
holds or a timer has yet to queue was queued, or submitted, after them.

- A new mark is met because the cancel found nothing before it: that is
  its condition (`cancelled_kept`, `cancelledDelayed_kept`).
- An old one is met because jobs only move, from the timer to the queue
  and from the queue to the thread, and what is new is stamped with a
  clock that has run on (`QueueOp.run_jobs`, `QueueOp.clock_le`).

A flush needs no mark. It looks at one moment, and what it is to wait for
was accepted before that (`flushKept_of_idle`).
-/
import Rtw88.Proofs.Workqueue.Timers

namespace Rtw88

variable {Q W : Type} [DecidableEq Q] [DecidableEq W]

-- ====================================================================== jobs

section Jobs

variable {s : WorkQueues Q W} {js : Q → List (WqJob Q W)}

omit [DecidableEq W] in
private theorem wakeup_held (s : WorkQueues Q W) (q r : Q) :
    ((s.wakeup q).worker r).held = (s.worker r).held := by
  rcases wakeup_worker s q r with h | ⟨-, h1, h2⟩
  · rw [h]
  · rw [h1, h2]
    rfl

/-- What a thread holds or a queue holds it held before, unless it has
just been accepted. -/
theorem QueueOp.run_jobs (h : WqInv s js) (op : QueueOp Q W)
    (hidle : op.Idle s) {q : Q} {j : WqJob Q W}
    (hj : j ∈ ((op.run s).worker q).held ∨ j ∈ op.jobs s js q) :
    (j ∈ (s.worker q).held ∨ j ∈ js q)
      ∨ ∃ w wq time, op = .enqueue q w wq time
        ∧ j = ⟨w, wq, time, s.clock⟩ := by
  cases op with
  | enqueue r w wq time =>
      simp only [QueueOp.run, QueueOp.jobs] at hj
      rcases queueWork_cases h r w wq time with ⟨hf, heq⟩ | ⟨hf, hp, heq⟩
        | ⟨hf, hp, links, -, heq⟩
      · rw [heq, hf] at hj
        exact Or.inl hj
      · rw [heq, hf, hp] at hj
        exact Or.inl hj
      · rw [heq, hf, hp, wakeup_held] at hj
        rcases hj with hheld | hjs
        · exact Or.inl (Or.inl hheld)
        · simp only [Bool.or_self, Bool.false_eq_true, if_false] at hjs
          by_cases hr : q = r
          · subst hr
            rw [Function.update_self] at hjs
            rcases List.mem_append.1 hjs with hjs | hjs
            · exact Or.inl (Or.inr hjs)
            · exact Or.inr ⟨w, wq, time, rfl, List.mem_singleton.1 hjs⟩
          · rw [Function.update_of_ne hr] at hjs
            exact Or.inl (Or.inr hjs)
  | thread r =>
      refine Or.inl ?_
      by_cases hr : q = r
      · subst hr
        simp only [QueueOp.run, QueueOp.jobs] at hj
        cases hw : s.worker q with
        | loop =>
            simp only [hw] at hj
            cases hq : js q with
            | nil =>
                -- to sleep, or out of the loop
                have hempty := (h.listEmpty_iff q).2 hq
                simp only [wqThreadFn, hw, hempty, hq, List.tail_nil,
                  Function.update_self, Bool.not_true, Bool.or_false,
                  if_true] at hj
                split at hj <;>
                  simp [WorkerAt.held, Function.update_self] at hj
            | cons k rest =>
                obtain ⟨links, -, htake⟩ := takeWork_eq h hq
                rw [wqThreadFn_loop_cons h hw hq, htake, hq] at hj
                simp only [Function.update_self, List.tail_cons,
                  WorkerAt.held] at hj
                refine Or.inr ?_
                rcases hj with hk | hrest
                · rw [List.mem_singleton.1 hk]
                  exact List.mem_cons_self
                · exact List.mem_cons_of_mem k hrest
        | run k =>
            simp only [hw, wqThreadFn, Function.update_self, WorkerAt.held,
              List.not_mem_nil, false_or] at hj
            exact Or.inr hj
        | _ =>
            simpa only [hw, wqThreadFn, Function.update_self, WorkerAt.held,
              List.not_mem_nil, false_or, or_false] using hj
      · have hsame : ((wqThreadFn s r).worker q) = s.worker q := by
          unfold wqThreadFn takeWork
          split
          · simp only
            split
            · split
              · exact Function.update_of_ne hr ..
              · split
                · split
                  · exact Function.update_of_ne hr ..
                  · rfl
                · rfl
            · exact Function.update_of_ne hr ..
          · rfl
          · exact Function.update_of_ne hr ..
          · exact Function.update_of_ne hr ..
          · rfl
        rcases hj with hheld | hjs
        · left
          rw [← hsame]
          exact hheld
        · right
          simp only [QueueOp.jobs] at hjs
          cases hw : s.worker r with
          | loop =>
              rw [hw] at hjs
              simp only [Function.update_of_ne hr] at hjs
              exact hjs
          | _ =>
              rw [hw] at hjs
              exact hjs
  | clear w =>
      refine Or.inl ?_
      simp only [QueueOp.run, QueueOp.jobs, clearPending_eq (hidle w rfl)]
        at hj
      exact hj
  | destroy r =>
      refine Or.inl ?_
      simp only [QueueOp.run, QueueOp.jobs, destroyWorkqueue] at hj
      split at hj
      · exact hj
      · rw [wakeup_held] at hj
        exact hj
  | destroyReturn r =>
      refine Or.inl ?_
      simp only [QueueOp.run, QueueOp.jobs, Rtw88.destroyReturn] at hj
      split at hj <;> exact hj
  | _ => exact Or.inl hj

/-- The clock runs on. -/
theorem QueueOp.clock_le (h : WqInv s js) (op : QueueOp Q W) :
    s.clock ≤ (op.run s).clock := by
  cases op with
  | tick => exact Nat.le_succ _
  | enqueue r w wq time =>
      simp only [QueueOp.run]
      rcases queueWork_cases h r w wq time with ⟨-, heq⟩ | ⟨-, -, heq⟩
        | ⟨-, -, links, -, heq⟩
      · rw [heq]
      · rw [heq]
      · rw [heq, (wakeup_fields _ r).2.2.2.2.2.2.1]
        exact Nat.le_succ _
  | thread r =>
      simp only [QueueOp.run]
      unfold wqThreadFn takeWork
      split
      · simp only
        split
        · split
          · exact le_rfl
          · split
            · split <;> exact le_rfl
            · exact le_rfl
        · exact le_rfl
      all_goals exact le_rfl
  | destroy r =>
      simp only [QueueOp.run, destroyWorkqueue]
      split
      · exact le_rfl
      · rw [(wakeup_fields _ r).2.2.2.2.2.2.1]
  | destroyReturn r =>
      simp only [QueueOp.run, Rtw88.destroyReturn]
      split <;> exact le_rfl
  | _ => exact le_rfl

end Jobs

-- ===================================================================== marks

/-- What is held, queued, or yet to be queued by a timer comes after the
cancels that have returned. -/
structure SyncInv (s : WqState Q W) (js : Q → List (WqJob Q W)) : Prop where
  marks : ∀ w, s.cancelled w ≤ s.queues.clock
    ∧ s.cancelledDelayed w ≤ s.queues.clock
  calls : ∀ c ∈ s.cancels, c.mark ≤ s.queues.clock
  jobs : ∀ q j, j ∈ (s.queues.worker q).held ∨ j ∈ js q →
    s.cancelled j.item ≤ j.queued ∧ s.cancelledDelayed j.item ≤ j.submitted
  firings : ∀ f ∈ s.firings, ∀ p ∈ f.submission,
    s.cancelledDelayed f.item ≤ p.2
  timers : ∀ w, s.active w = true →
    s.cancelledDelayed w ≤ (s.submission w).2
  pending : ∀ c ∈ s.cancels, s.active c.item = true →
    c.mark ≤ (s.submission c.item).2

omit [DecidableEq Q] [DecidableEq W] in
theorem SyncInv.init (sys : Q) :
    SyncInv (WqState.init sys : WqState Q W) fun _ => [] := by
  refine ⟨fun w => ⟨le_rfl, le_rfl⟩, ?_, ?_, ?_, nofun, ?_⟩
  · exact fun c hc => absurd hc List.not_mem_nil
  · intro q j hj
    rcases hj with hj | hj <;> exact absurd hj List.not_mem_nil
  · exact fun f hf => absurd hf List.not_mem_nil
  · exact fun c hc => absurd hc List.not_mem_nil

section Step

variable {sys : Q} {s : WqState Q W} {js : Q → List (WqJob Q W)}
  {e : WqEvent Q W}

/-- The mark of a `cancel_work_sync` that returns now is met by whatever
the item still has under way: nothing. -/
private theorem cancelled_kept (hinv : WqInv s.queues js)
    (hfault : s.queues.fault = none) {w : W} (he : e = .cancelWorkSync w)
    (hidle : SyncsIdle sys s e) {q : Q} {j : WqJob Q W}
    (hj : j ∈ (s.queues.worker q).held ∨ j ∈ js q) : j.item ≠ w := by
  subst he
  obtain ⟨hcancel, hheld⟩ := hidle
  have hpend : s.queues.pending w = false :=
    (cancelsIdle_iff sys s _).1 hcancel w (by simp [WqEvent.op, hfault])
  rintro rfl
  rcases hj with hj | hj
  · exact hheld q j hj rfl
  · exact hinv.not_linked hpend q (List.mem_map_of_mem hj)

/-- The same for a `cancel_delayed_work_sync`. -/
private theorem cancelledDelayed_kept (hinv : WqInv s.queues js)
    (hfault : s.queues.fault = none) {k : Nat} {c : Cancel W}
    (he : e = .cancelStep k) (hk : s.cancels[k]? = some c)
    (hw : c.waited = true) (hidle : SyncsIdle sys s e) :
    (∀ q j, j ∈ (s.queues.worker q).held ∨ j ∈ js q → j.item = c.item →
        c.mark ≤ j.submitted)
      ∧ ∀ f ∈ s.firings, f.item = c.item → ∀ p ∈ f.submission,
          c.mark ≤ p.2 := by
  subst he
  obtain ⟨hcancel, hrest⟩ := hidle
  have hpend : s.queues.pending c.item = false :=
    (cancelsIdle_iff sys s _).1 hcancel c.item
      (by simp [WqEvent.op, hfault, hk, hw])
  obtain ⟨hheld, hfire⟩ := hrest c hk hw
  refine ⟨fun q j hj hitem => ?_, hfire⟩
  rcases hj with hj | hj
  · exact Nat.not_lt.1 fun hlt => hheld q j hj ⟨hitem, hlt⟩
  · have hmem : j.item ∈ (js q).map WqJob.item := List.mem_map_of_mem hj
    rw [hitem] at hmem
    exact absurd hmem (hinv.not_linked hpend q)

/-- The marks are kept. -/
theorem SyncInv.step (hinv : WqInv s.queues js) (h : SyncInv s js)
    (hidle : SyncsIdle sys s e) :
    SyncInv (wqStep sys s e) ((e.op sys s).jobs s.queues js) := by
  by_cases hfault : s.queues.fault = none
  case neg =>
    -- nothing goes on after a fault
    have hsome : s.queues.fault.isSome = true :=
      Option.isSome_iff_ne_none.2 hfault
    have hstep : wqStep sys s e = s := if_pos hsome
    have hop : e.op sys s = .idle := if_pos hsome
    rw [hstep, hop]
    exact h
  have hm := wqStep_moves sys s e
  have hclock : s.queues.clock ≤ (wqStep sys s e).queues.clock := by
    rw [wqStep_queues]
    exact QueueOp.clock_le hinv _
  -- the new mark of an item, if there is one
  have hmarkD : ∀ w, (wqStep sys s e).cancelledDelayed w ≤ s.queues.clock := by
    intro w
    rcases hm.cancelledDelayed w with heq | ⟨k, c, -, hk, -, -, heq⟩
    · rw [heq]
      exact (h.marks w).2
    · rw [heq]
      exact max_le (h.marks w).2 (h.calls c (List.mem_of_getElem? hk))
  have hmark : ∀ w, (wqStep sys s e).cancelled w ≤ s.queues.clock := by
    intro w
    rcases hm.cancelled w with heq | ⟨-, heq⟩
    · rw [heq]
      exact (h.marks w).1
    · rw [heq]
  refine ⟨fun w => ⟨(hmark w).trans hclock, (hmarkD w).trans hclock⟩, ?_, ?_,
    ?_, ?_, ?_⟩
  · intro c hc
    rcases hm.cancels hc with ⟨d, hd, -, hmk⟩ | ⟨hmk, -⟩
    · rw [← hmk]
      exact (h.calls d hd).trans hclock
    · rw [hmk]
      exact hclock
  · intro q j hj
    rw [wqStep_queues] at hj
    rcases QueueOp.run_jobs hinv _ ((cancelsIdle_iff sys s e).1 hidle.1) hj
      with hold | ⟨w, wq, time, hop, rfl⟩
    · obtain ⟨h1, h2⟩ := h.jobs q j hold
      constructor
      · rcases hm.cancelled j.item with heq | ⟨he, heq⟩
        · rw [heq]
          exact h1
        · exact absurd rfl (cancelled_kept hinv hfault he hidle hold)
      · rcases hm.cancelledDelayed j.item with heq
          | ⟨k, c, he, hk, hw, hitem, heq⟩
        · rw [heq]
          exact h2
        · rw [heq]
          have hkept := cancelledDelayed_kept hinv hfault he hk hw hidle
          exact max_le h2 (hkept.1 q j hold hitem.symm)
    · refine ⟨hmark w, ?_⟩
      have hspec := op_spec sys s e
      rw [hop] at hspec
      rcases hspec with ⟨-, htime⟩ | ⟨-, f, hf, hitem, hp⟩
      · show (wqStep sys s e).cancelledDelayed w ≤ time
        rw [htime]
        exact hmarkD w
      · -- a timer queues it, past its test
        show (wqStep sys s e).cancelledDelayed w ≤ time
        rcases hm.cancelledDelayed w with heq | ⟨k, c, he, hk, hw, hc, heq⟩
        · rw [heq, ← hitem]
          exact h.firings f hf _ hp
        · rw [heq, ← hitem]
          have hkept := cancelledDelayed_kept hinv hfault he hk hw hidle
          exact max_le (h.firings f hf _ hp)
            (hkept.2 f hf (hitem.trans hc.symm) _ hp)
  · intro f hf p hp
    rcases hm.firing hf hp with ⟨g, hg, hitem, hp'⟩ | ⟨hact, rfl⟩
    · rcases hm.cancelledDelayed f.item with heq
        | ⟨k, c, he, hk, hw, hc, heq⟩
      · rw [heq, ← hitem]
        exact h.firings g hg p hp'
      · rw [heq, ← hitem]
        have hkept := cancelledDelayed_kept hinv hfault he hk hw hidle
        exact max_le (h.firings g hg p hp')
          (hkept.2 g hg (hitem.trans hc.symm) p hp')
    · rcases hm.cancelledDelayed f.item with heq
        | ⟨k, c, he, hk, hw, hc, heq⟩
      · rw [heq]
        exact h.timers f.item hact
      · rw [heq]
        refine max_le (h.timers f.item hact) ?_
        rw [← hc] at hact ⊢
        exact h.pending c (List.mem_of_getElem? hk) hact
  · intro w hw
    rcases hm.active hw with ⟨hact, hsub⟩ | hsub
    · rw [hsub]
      rcases hm.cancelledDelayed w with heq | ⟨k, c, he, hk, -, hc, heq⟩
      · rw [heq]
        exact h.timers w hact
      · rw [heq]
        refine max_le (h.timers w hact) ?_
        rw [← hc] at hact ⊢
        exact h.pending c (List.mem_of_getElem? hk) hact
    · rw [hsub]
      exact hmarkD w
  · intro c hc hact
    rcases hm.cancels hc with ⟨d, hd, hitem, hmk⟩ | ⟨-, hoff⟩
    · rw [← hmk]
      rcases hm.active hact with ⟨hact', hsub⟩ | hsub
      · rw [hsub]
        rw [← hitem] at hact' ⊢
        exact h.pending d hd hact'
      · rw [hsub]
        exact h.calls d hd
    · rw [hoff] at hact
      cases hact

end Step

-- ==================================================================== result

/-- A flush that reads that it is done, with nobody between taking up an
invocation it waits for and the end of its callback, has waited for all
of them. -/
theorem flushKept_of_idle {sys : Q} {s : WqState Q W}
    {js : Q → List (WqJob Q W)} {e : WqEvent Q W} (h : WqInv s.queues js)
    (hidle : SyncsIdle sys s e) : FlushKept s e := by
  rintro k f rfl hfault hk hret q j hj hcov hbefore
  have hheld := hidle.2 f hk hret
  unfold Flush.returns at hret
  simp only [Bool.and_eq_true] at hret
  rw [h.log q, h.ran q] at hj
  simp only [List.mem_append] at hj
  rcases hj with ((hfin | hruns) | hwaits) | hjs
  · exact hfin
  · refine absurd ⟨hcov, hbefore⟩ (hheld q j ?_)
    cases hw : s.queues.worker q with
    | run i =>
        rw [hw] at hruns
        exact hruns
    | _ =>
        rw [hw] at hruns
        cases hruns
  · refine absurd ⟨hcov, hbefore⟩ (hheld q j ?_)
    cases hw : s.queues.worker q with
    | taken i =>
        rw [hw] at hwaits
        exact hwaits
    | _ =>
        rw [hw] at hwaits
        cases hwaits
  · -- it would still be linked
    exfalso
    have hclear := hret.2
    unfold WorkQueues.clear at hclear
    unfold Flush.covers at hcov
    cases ht : f.target with
    | work w =>
        rw [ht] at hclear hcov
        simp only at hclear hcov
        have hpend := (h.pending_iff w).2 ⟨q, j, hjs, hcov⟩
        rw [hpend] at hclear
        cases hclear
    | workqueue r =>
        rw [ht] at hclear hcov
        simp only at hclear hcov
        subst hcov
        rw [(h.listEmpty_iff q).1 hclear] at hjs
        cases hjs

/-- In every run in which cancels return, and flushes read that they are
done, only while nobody is between taking up an invocation that is to be
waited for and the end of its callback (and no cancel clears the flag of
a queued item), they do wait for it. -/
theorem cancels_and_flushes_synchronise (sys : Q) {es : List (WqEvent Q W)}
    (h : Along (wqStep sys) (SyncsIdle sys) (WqState.init sys) es) :
    Along (wqStep sys) (Synchronises sys) (WqState.init sys) es := by
  refine along_of_inv
    (I := fun s => ∃ js, WqInv s.queues js ∧ SyncInv s js) ?_
    ⟨_, WqInv.init sys, SyncInv.init sys⟩ h
  rintro s e ⟨js, hinv, hsync⟩ hidle
  have hinv' := wqStep_inv sys hinv hidle.1
  have hsync' := hsync.step hinv hidle
  refine ⟨⟨_, hinv', hsync'⟩, ?_, flushKept_of_idle hinv hidle⟩
  intro q j hrun
  refine hsync'.jobs q j (Or.inl ?_)
  rw [hrun]
  exact List.mem_singleton.2 rfl

/-- Work run to its end, delayed work whose timer goes off while it is
cancelled, and a flush behind them. -/
theorem sample_synchronises :
    Along (wqStep ()) (Synchronises ()) (WqState.init ())
      ([.queueWork () true, .wqThreadFn (), .wqThreadFn (), .wqThreadFn (),
        .cancelWorkSync true, .queueDelayedWork () false 5, .modTimer 0,
        .timerFires false, .cancelDelayedWorkSync false, .timerCallFn 0,
        .cancelStep 0, .cancelStep 0, .cancelStep 0, .flush (.workqueue ()),
        .flushTurn 0]
        : List (WqEvent Unit Bool)) :=
  cancels_and_flushes_synchronise () (by decide +kernel)

/-- The thread has an item in its hands when `cancel_work_sync` and
`flush_work` return, and calls its callback after them. -/
theorem cancelled_work_runs :
    let es : List (WqEvent Unit Unit) := [.queueWork () (), .flush (.work ()),
      .wqThreadFn (), .cancelWorkSync (), .flushTurn 0, .wqThreadFn ()]
    let s := runFrom (wqStep ()) (WqState.init ()) es
    s.queues.worker () = .run ⟨(), (), 0, 0⟩ ∧ s.cancelled () = 1
      ∧ s.flushes = [] ∧ s.queues.finished () = []
      ∧ ¬Along (wqStep ()) (Synchronises ()) (WqState.init ()) es := by
  refine ⟨by decide +kernel, by decide +kernel, by decide +kernel,
    by decide +kernel, fun h => ?_⟩
  -- the callback begins in the last step
  have hlast := h.2.2.2.2.2.1.1 () ⟨(), (), 0, 0⟩ (by decide +kernel)
  exact absurd hlast.1 (by decide +kernel)

end Rtw88
