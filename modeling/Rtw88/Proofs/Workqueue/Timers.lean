/-
The timers of the delayed work, and the threads in the middle of a call.

`WqMoves` lists what an event can do outside of the queues, one constructor
a way; `wqStep_moves` says that there are no others. The lemmas behind it
read off one field each: where a timer callback has its submission from,
what a timer was last set for, which cancels are under way.

# Where delayed work goes

`queue_delayed_work` notes the queue it was given nowhere: with a delay it
sets the timer, and the timer's callback queues on `system_wq`. With
delayed work submitted to `system_wq` alone, a timer queues where the
work was submitted to. That is `OnSystem`: what is under way, set or
accepted carries the queue of its submission, and every field that a
submission passes through on its way is in the invariant. With
`WqInv.accepted_of_held` for the last step, `runs_where_submitted`
follows: a queue's thread runs the queue's invocations, and no others.

`delayed_work_misplaced` is the run with a delay and another queue.
-/
import Rtw88.Proofs.Workqueue.Runs

namespace Rtw88

variable {Q W : Type} [DecidableEq Q] [DecidableEq W]

-- ===================================================================== moves

/-- What an event can do outside of the queues. -/
inductive WqMoves (s : WqState Q W) : WqEvent Q W → WqState Q W → Prop
  | quiet (e : WqEvent Q W) (qs : WorkQueues Q W) (fs : List (Flush Q W)) :
      WqMoves s e { s with queues := qs, flushes := fs }
  | setup (q : Q) (w : W) (delay : Nat) (hd : delay ≠ 0) :
      WqMoves s (.queueDelayedWork q w delay)
        { timerSetup s w with arming := s.arming ++ [(q, w)] }
  | arm (k : Nat) (q : Q) (w : W) (hk : s.arming[k]? = some (q, w)) :
      WqMoves s (.modTimer k)
        (modTimer { s with arming := s.arming.eraseIdx k } q w)
  | fires (w : W) :
      WqMoves s (.timerFires w) { s with
        armed := Function.update s.armed w false
        firings := s.firings ++
          [{ item := w, call := s.call w, at_ := .entered }] }
  | tested (k : Nat) (f : Firing Q W) (hk : s.firings[k]? = some f)
      (hact : s.active f.item = true) :
      WqMoves s (.timerCallFn k) { s with
        firings := s.firings.set k { f with
          at_ := .active (s.submission f.item).1 (s.submission f.item).2 } }
  | cleared (k : Nat) (f : Firing Q W) (wq : Q) (time : Nat)
      (hk : s.firings[k]? = some f) (hat : f.at_ = .active wq time) :
      WqMoves s (.timerCallFn k) { s with
        active := Function.update s.active f.item false
        firings := s.firings.set k { f with at_ := .cleared wq time } }
  | ends (k : Nat) (qs : WorkQueues Q W) :
      WqMoves s (.timerCallFn k) { s with
        queues := qs
        firings := s.firings.eraseIdx k }
  | cancelWork (w : W) :
      WqMoves s (.cancelWorkSync w) { s with
        queues := clearPending s.queues w
        cancelled := Function.update s.cancelled w s.queues.clock }
  | unarm (e : WqEvent Q W) (w : W) :
      WqMoves s e { s with armed := Function.update s.armed w false }
  | deactivate (w : W) :
      WqMoves s (.deactivate w) { s with
        active := Function.update s.active w false }
  | cancel (w : W) :
      WqMoves s (.cancelDelayedWorkSync w) { s with
        active := Function.update s.active w false
        cancels := s.cancels ++
          [{ item := w, mark := s.queues.clock, delaying := false
             waited := false }] }
  | delays (k : Nat) (c : Cancel W) (hk : s.cancels[k]? = some c) :
      WqMoves s (.cancelStep k) { s with
        armed := Function.update s.armed c.item false
        cancels := s.cancels.set k { c with delaying := true } }
  | waited (k : Nat) (c : Cancel W) (hk : s.cancels[k]? = some c) :
      WqMoves s (.cancelStep k) { s with
        armed := Function.update s.armed c.item false
        call := Function.update s.call c.item (s.call c.item + 1)
        cancels := s.cancels.set k { c with waited := true } }
  | returns (k : Nat) (c : Cancel W) (hk : s.cancels[k]? = some c)
      (hw : c.waited = true) :
      WqMoves s (.cancelStep k) { s with
        queues := clearPending s.queues c.item
        cancels := s.cancels.eraseIdx k
        cancelledDelayed := Function.update s.cancelledDelayed c.item
          (max (s.cancelledDelayed c.item) c.mark) }

/-- There are no others. -/
theorem wqStep_moves (sys : Q) (s : WqState Q W) (e : WqEvent Q W) :
    WqMoves s e (wqStep sys s e) := by
  unfold wqStep
  split
  · exact .quiet e s.queues s.flushes
  · cases e with
    | queueDelayedWork q w delay =>
        show WqMoves s _ (queueDelayedWork s q w delay)
        unfold queueDelayedWork
        by_cases hd : delay = 0
        · rw [if_pos hd]
          exact .quiet _ _ s.flushes
        · rw [if_neg hd]
          exact .setup q w delay hd
    | modTimer k =>
        simp only [wqEvent]
        cases hk : s.arming[k]? with
        | none => exact .quiet _ s.queues s.flushes
        | some p => exact .arm k p.1 p.2 hk
    | timerFires w =>
        simp only [wqEvent]
        split
        · exact .fires w
        · exact .quiet _ s.queues s.flushes
    | timerCallFn k =>
        simp only [wqEvent]
        cases hk : s.firings[k]? with
        | none => exact .quiet _ s.queues s.flushes
        | some f =>
            simp only [timerCallFn]
            cases hat : f.at_ with
            | entered =>
                simp only
                by_cases hact : s.active f.item = true
                · rw [if_pos hact]
                  exact .tested k f hk hact
                · rw [if_neg hact]
                  exact .ends k s.queues
            | active wq time => exact .cleared k f wq time hk hat
            | cleared wq time => exact .ends k _
    | cancelWorkSync w => exact .cancelWork w
    | cancelCall w => exact .unarm _ w
    | deactivate w => exact .deactivate w
    | cancelDelayedWorkSync w => exact .cancel w
    | cancelStep k =>
        simp only [wqEvent]
        cases hk : s.cancels[k]? with
        | none => exact .quiet _ s.queues s.flushes
        | some c =>
            simp only [cancelStep]
            by_cases hw : c.waited = true
            · rw [if_pos hw]
              exact .returns k c hk hw
            · rw [if_neg hw]
              split
              · exact .waited k c hk
              · exact .delays k c hk
    | flushTurn k =>
        simp only [wqEvent]
        cases s.flushes[k]? with
        | none => exact .quiet _ s.queues s.flushes
        | some f =>
            simp only [flushTurn]
            split
            · split
              · exact .quiet _ _ s.flushes
              · split
                · exact .quiet _ s.queues _
                · exact .quiet _ s.queues _
            · exact .quiet _ s.queues _
    | _ => exact .quiet _ _ _

-- ==================================================================== fields

section Fields

omit [DecidableEq Q] in
private theorem of_update_false {f : W → Bool} {x w : W}
    (h : Function.update f x false w = true) : f w = true := by
  by_cases hw : w = x
  · subst hw
    rw [Function.update_self] at h
    cases h
  · rwa [Function.update_of_ne hw] at h

variable {s s' : WqState Q W} {e : WqEvent Q W}

omit [DecidableEq Q] in
/-- A callback has its submission from before, or from the timer, which it
found active. -/
theorem WqMoves.firing (hm : WqMoves s e s') {f : Firing Q W}
    (hf : f ∈ s'.firings) {p : Q × Nat} (hp : p ∈ f.submission) :
    (∃ f' ∈ s.firings, f'.item = f.item ∧ p ∈ f'.submission)
      ∨ s.active f.item = true ∧ p = s.submission f.item := by
  cases hm with
  | fires w =>
      rcases List.mem_append.1 hf with hf | hf
      · exact Or.inl ⟨f, hf, rfl, hp⟩
      · rw [List.mem_singleton.1 hf] at hp
        cases hp
  | tested k g hk hact =>
      rcases List.mem_or_eq_of_mem_set hf with hf | rfl
      · exact Or.inl ⟨f, hf, rfl, hp⟩
      · refine Or.inr ⟨hact, ?_⟩
        injection hp with hp
        exact hp.symm
  | cleared k g wq time hk hat =>
      rcases List.mem_or_eq_of_mem_set hf with hf | rfl
      · exact Or.inl ⟨f, hf, rfl, hp⟩
      · refine Or.inl ⟨g, List.mem_of_getElem? hk, rfl, ?_⟩
        rw [Firing.submission, hat]
        exact hp
  | ends k qs => exact Or.inl ⟨f, List.mem_of_mem_eraseIdx hf, rfl, hp⟩
  | _ => exact Or.inl ⟨f, hf, rfl, hp⟩

omit [DecidableEq Q] in
/-- What a timer is set for is what it was set for, or the submission of a
call that has come to `mod_timer`. -/
theorem WqMoves.submission (hm : WqMoves s e s') (w : W) :
    s'.submission w = s.submission w
      ∨ ∃ q, (q, w) ∈ s.arming ∧ s'.submission w = (q, s.queues.clock) := by
  cases hm with
  | arm k q x hk =>
      by_cases hw : w = x
      · subst hw
        exact Or.inr ⟨q, List.mem_of_getElem? hk, Function.update_self ..⟩
      · exact Or.inl (Function.update_of_ne hw ..)
  | _ => exact Or.inl rfl

omit [DecidableEq Q] in
/-- A call on its way to `mod_timer` is a `queue_delayed_work` with a
delay. -/
theorem WqMoves.arming (hm : WqMoves s e s') {p : Q × W} (hp : p ∈ s'.arming) :
    p ∈ s.arming
      ∨ ∃ delay, delay ≠ 0 ∧ e = .queueDelayedWork p.1 p.2 delay := by
  cases hm with
  | setup q w delay hd =>
      rcases List.mem_append.1 hp with hp | hp
      · exact Or.inl hp
      · rw [List.mem_singleton.1 hp]
        exact Or.inr ⟨delay, hd, rfl⟩
  | arm k q w hk => exact Or.inl (List.mem_of_mem_eraseIdx hp)
  | _ => exact Or.inl hp

omit [DecidableEq Q] in
/-- An active timer was so before, for the same submission, or has just
been set. -/
theorem WqMoves.active (hm : WqMoves s e s') {w : W} (hw : s'.active w = true) :
    (s.active w = true ∧ s'.submission w = s.submission w)
      ∨ (s'.submission w).2 = s.queues.clock := by
  cases hm with
  | arm k q x hk =>
      by_cases hx : w = x
      · subst hx
        refine Or.inr ?_
        show (Function.update s.submission w (q, s.queues.clock) w).2 = _
        rw [Function.update_self]
      · refine Or.inl ⟨?_, Function.update_of_ne hx ..⟩
        have hw' : Function.update s.active x true w = true := hw
        rwa [Function.update_of_ne hx] at hw'
  | setup q x delay hd =>
      have hw' : Function.update s.active x false w = true := hw
      exact Or.inl ⟨of_update_false hw', rfl⟩
  | cleared k f wq time hk hat =>
      have hw' : Function.update s.active f.item false w = true := hw
      exact Or.inl ⟨of_update_false hw', rfl⟩
  | deactivate x =>
      have hw' : Function.update s.active x false w = true := hw
      exact Or.inl ⟨of_update_false hw', rfl⟩
  | cancel x =>
      have hw' : Function.update s.active x false w = true := hw
      exact Or.inl ⟨of_update_false hw', rfl⟩
  | _ => exact Or.inl ⟨hw, rfl⟩

omit [DecidableEq Q] in
/-- A cancel under way was so before, or has just been called, and made
its timer inactive. -/
theorem WqMoves.cancels (hm : WqMoves s e s') {c : Cancel W}
    (hc : c ∈ s'.cancels) :
    (∃ c' ∈ s.cancels, c'.item = c.item ∧ c'.mark = c.mark)
      ∨ c.mark = s.queues.clock ∧ s'.active c.item = false := by
  cases hm with
  | cancel w =>
      rcases List.mem_append.1 hc with hc | hc
      · exact Or.inl ⟨c, hc, rfl, rfl⟩
      · rw [List.mem_singleton.1 hc]
        exact Or.inr ⟨rfl, Function.update_self ..⟩
  | delays k d hk | waited k d hk =>
      rcases List.mem_or_eq_of_mem_set hc with hc | rfl
      · exact Or.inl ⟨c, hc, rfl, rfl⟩
      · exact Or.inl ⟨d, List.mem_of_getElem? hk, rfl, rfl⟩
  | returns k d hk hw =>
      exact Or.inl ⟨c, List.mem_of_mem_eraseIdx hc, rfl, rfl⟩
  | _ => exact Or.inl ⟨c, hc, rfl, rfl⟩

omit [DecidableEq Q] in
/-- Only a `cancel_work_sync` of an item changes its mark. -/
theorem WqMoves.cancelled (hm : WqMoves s e s') (w : W) :
    s'.cancelled w = s.cancelled w
      ∨ e = .cancelWorkSync w ∧ s'.cancelled w = s.queues.clock := by
  cases hm with
  | cancelWork x =>
      by_cases hx : w = x
      · subst hx
        exact Or.inr ⟨rfl, Function.update_self ..⟩
      · exact Or.inl (Function.update_of_ne hx ..)
  | _ => exact Or.inl rfl

omit [DecidableEq Q] in
/-- Only the return of a `cancel_delayed_work_sync` does. -/
theorem WqMoves.cancelledDelayed (hm : WqMoves s e s') (w : W) :
    s'.cancelledDelayed w = s.cancelledDelayed w
      ∨ ∃ k c, e = .cancelStep k ∧ s.cancels[k]? = some c ∧ c.waited = true
        ∧ c.item = w
        ∧ s'.cancelledDelayed w = max (s.cancelledDelayed w) c.mark := by
  cases hm with
  | returns k c hk hw =>
      by_cases hx : w = c.item
      · subst hx
        exact Or.inr ⟨k, c, rfl, hk, hw, rfl, Function.update_self ..⟩
      · exact Or.inl (Function.update_of_ne hx ..)
  | _ => exact Or.inl rfl

end Fields

-- ================================================================ submission

/-- `queue_work` accepts at most the one invocation. -/
private theorem queueWork_accepted (s : WorkQueues Q W) (r : Q) (w : W)
    (wq : Q) (time : Nat) (q : Q) :
    (queueWork s r w wq time).2.accepted q = s.accepted q
      ∨ q = r ∧ (queueWork s r w wq time).2.accepted q
        = s.accepted q ++ [⟨w, wq, time, s.clock⟩] := by
  unfold queueWork
  split
  · exact Or.inl rfl
  · split
    · exact Or.inl rfl
    · split
      · exact Or.inl rfl
      · simp only [(wakeup_fields _ r).2.2.2.2.2.2.2.2.1]
        by_cases hq : q = r
        · subst hq
          exact Or.inr ⟨rfl, Function.update_self ..⟩
        · exact Or.inl (Function.update_of_ne hq ..)

/-- The thread accepts nothing. -/
private theorem wqThreadFn_accepted (s : WorkQueues Q W) (q : Q) :
    (wqThreadFn s q).accepted = s.accepted := by
  have htake : (takeWork s q).accepted = s.accepted := by
    unfold takeWork
    split
    · split <;> rfl
    · rfl
  unfold wqThreadFn
  split
  · simp only
    split
    · split
      · rfl
      · exact htake
    · rfl
  all_goals rfl

/-- An operation accepts at most one invocation, the one it queues. -/
theorem QueueOp.run_accepted (op : QueueOp Q W) (s : WorkQueues Q W)
    (q : Q) :
    (op.run s).accepted q = s.accepted q
      ∨ ∃ w wq time, op = .enqueue q w wq time
        ∧ (op.run s).accepted q = s.accepted q ++ [⟨w, wq, time, s.clock⟩] := by
  cases op with
  | enqueue r w wq time =>
      rcases queueWork_accepted s r w wq time q with hsame | ⟨rfl, hnew⟩
      · exact Or.inl hsame
      · exact Or.inr ⟨w, wq, time, rfl, hnew⟩
  | thread r => exact Or.inl (congrFun (wqThreadFn_accepted s r) q)
  | destroy r =>
      refine Or.inl ?_
      show (destroyWorkqueue s r).accepted q = _
      unfold destroyWorkqueue
      split
      · rfl
      · rw [(wakeup_fields _ r).2.2.2.2.2.2.2.2.1]
  | destroyReturn r =>
      refine Or.inl ?_
      show (Rtw88.destroyReturn s r).accepted q = _
      unfold Rtw88.destroyReturn
      split <;> rfl
  | _ => exact Or.inl rfl

/-- Everything under way was submitted to `system_wq`, and what a queue
accepted was submitted to it. -/
structure OnSystem (sys : Q) (s : WqState Q W) : Prop where
  submission : ∀ w, (s.submission w).1 = sys
  arming : ∀ p ∈ s.arming, p.1 = sys
  firings : ∀ f ∈ s.firings, ∀ p ∈ f.submission, p.1 = sys
  accepted : ∀ q, ∀ j ∈ s.queues.accepted q, j.wq = q

/-- An event keeps it that submits delayed work to `system_wq` only. -/
theorem OnSystem.step {sys : Q} {s : WqState Q W} (h : OnSystem sys s)
    {e : WqEvent Q W} (he : DelaysOnSystem sys e) :
    OnSystem sys (wqStep sys s e) := by
  have hm := wqStep_moves sys s e
  refine ⟨?_, ?_, ?_, ?_⟩
  · intro w
    rcases hm.submission w with heq | ⟨q, hq, heq⟩
    · rw [heq]
      exact h.submission w
    · rw [heq]
      exact h.arming _ hq
  · intro p hp
    rcases hm.arming hp with hp | ⟨delay, hd, rfl⟩
    · exact h.arming p hp
    · exact he.resolve_left hd
  · intro f hf p hp
    rcases hm.firing hf hp with ⟨g, hg, -, hp'⟩ | ⟨-, rfl⟩
    · exact h.firings g hg p hp'
    · exact h.submission _
  · intro q j hj
    rw [wqStep_queues] at hj
    rcases QueueOp.run_accepted (e.op sys s) s.queues q with hsame
      | ⟨w, wq, time, hop, hnew⟩
    · rw [hsame] at hj
      exact h.accepted q j hj
    · rw [hnew] at hj
      rcases List.mem_append.1 hj with hj | hj
      · exact h.accepted q j hj
      · -- queued directly, or by a timer
        rw [List.mem_singleton.1 hj]
        have hspec := op_spec sys s e
        rw [hop] at hspec
        rcases hspec with ⟨hwq, -⟩ | ⟨hq, f, hf, -, hp⟩
        · exact hwq
        · rw [hq]
          exact h.firings f hf _ hp

omit [DecidableEq Q] [DecidableEq W] in
/-- What a thread runs its queue has accepted. -/
theorem WqInv.accepted_of_held {s : WorkQueues Q W}
    {js : Q → List (WqJob Q W)} (h : WqInv s js) {q : Q} {j : WqJob Q W}
    (hj : j ∈ (s.worker q).held) : j ∈ s.accepted q := by
  rw [h.log q, h.ran q]
  cases hw : s.worker q with
  | taken k =>
      rw [hw] at hj
      simp only [WorkerAt.waits, List.mem_append]
      exact Or.inl (Or.inr hj)
  | run k =>
      rw [hw] at hj
      simp only [WorkerAt.runs, List.mem_append]
      exact Or.inl (Or.inl (Or.inr hj))
  | _ =>
      rw [hw] at hj
      cases hj

/-- In every run that submits delayed work to `system_wq` only, and
cancels nothing queued, every callback runs on the thread of the queue it
was submitted to. -/
theorem runs_where_submitted (sys : Q) {es : List (WqEvent Q W)}
    (h : Along (wqStep sys)
      (fun s e => CancelsIdle sys s e ∧ DelaysOnSystem sys e)
      (WqState.init sys) es) :
    Along (wqStep sys)
      (fun s e => RunsWhereSubmitted (wqStep sys s e).queues)
      (WqState.init sys) es := by
  refine along_of_inv
    (I := fun s => OnSystem sys s ∧ ∃ js, WqInv s.queues js) ?_ ?_ h
  · rintro s e ⟨hon, js, hinv⟩ ⟨hidle, hdelay⟩
    have hon' := hon.step hdelay
    have hinv' := wqStep_inv sys hinv hidle
    refine ⟨⟨hon', _, hinv'⟩, ?_⟩
    have hrun : ∀ q j, (wqStep sys s e).queues.worker q = .run j →
        j.wq = q := by
      intro q j hj
      refine hon'.accepted q j (hinv'.accepted_of_held ?_)
      rw [hj]
      exact List.mem_singleton.2 rfl
    refine ⟨hrun, fun q r j k hj hk hjk => ?_⟩
    rw [← hrun q j hj, hjk]
    exact hrun r k hk
  · refine ⟨⟨fun w => rfl, ?_, ?_, ?_⟩, _, WqInv.init sys⟩
    · exact fun p hp => absurd hp List.not_mem_nil
    · exact fun f hf => absurd hf List.not_mem_nil
    · exact fun q j hj => absurd hj List.not_mem_nil

/-- Delayed work for `system_wq`, and work for another queue beside it. -/
theorem sample_runs_where_submitted :
    Along (wqStep false)
      (fun s e => RunsWhereSubmitted (wqStep false s e).queues)
      (WqState.init false)
      ([.queueDelayedWork false true 5, .modTimer 0, .queueWork true false,
        .timerFires true, .timerCallFn 0, .timerCallFn 0, .timerCallFn 0,
        .wqThreadFn false, .wqThreadFn false, .wqThreadFn true,
        .wqThreadFn true] : List (WqEvent Bool Bool)) :=
  runs_where_submitted false (by decide +kernel)

/-- Work submitted with a delay to another queue runs on the thread of
`system_wq`, and at the same time as work submitted to that queue at
once. -/
theorem delayed_work_misplaced :
    let s := runFrom (wqStep false) (WqState.init false)
      ([.queueDelayedWork true true 5, .modTimer 0, .queueWork true false,
        .timerFires true, .timerCallFn 0, .timerCallFn 0, .timerCallFn 0,
        .wqThreadFn false, .wqThreadFn false, .wqThreadFn true,
        .wqThreadFn true] : List (WqEvent Bool Bool))
    (s.queues.worker false).runs.map (fun j => (j.item, j.wq)) = [(true, true)]
      ∧ (s.queues.worker true).runs.map (fun j => (j.item, j.wq))
        = [(false, true)]
      ∧ ¬RunsWhereSubmitted s.queues := by
  refine ⟨by decide +kernel, by decide +kernel, fun h => ?_⟩
  have hrun := h.1 false ⟨true, true, 0, 2⟩ (by decide +kernel)
  cases hrun

end Rtw88
