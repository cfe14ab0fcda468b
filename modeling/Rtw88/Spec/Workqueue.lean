/-
What the work queues are for: each queue is a first-in first-out sequence
of the invocations it has accepted and not yet taken up, and its thread
runs them one after the other.

`QueueOp` is what an event does to the queues, and `QueueOp.jobs` what
that means for the sequences. `Intact` ties the list nodes and the
pending flags to the sequences; the properties below it are what a caller
relies on.
-/
import Mathlib.Data.Fintype.Basic
import Rtw88.Model.Workqueue

namespace Rtw88

variable {Q W : Type}

-- ================================================================ operations

/-- What an event does to the queues. -/
inductive QueueOp (Q W : Type)
  | idle
  | tick
  | enqueue (q : Q) (w : W) (wq : Q) (time : Nat)
  | thread (q : Q)
  | clear (w : W)
  | destroy (q : Q)
  | destroyReturn (q : Q)
  | useFreed
  deriving DecidableEq

section
variable [DecidableEq Q] [DecidableEq W]

/-- The code of an operation. -/
def QueueOp.run (op : QueueOp Q W) (s : WorkQueues Q W) : WorkQueues Q W :=
  match op with
  | .idle => s
  | .tick => { s with clock := s.clock + 1 }
  | .enqueue q w wq time => (Rtw88.queueWork s q w wq time).2
  | .thread q => Rtw88.wqThreadFn s q
  | .clear w => Rtw88.clearPending s w
  | .destroy q => destroyWorkqueue s q
  | .destroyReturn q => Rtw88.destroyReturn s q
  | .useFreed => { s with fault := some .freed }

/-- The sequences after an operation. -/
def QueueOp.jobs (op : QueueOp Q W) (s : WorkQueues Q W)
    (js : Q → List (WqJob Q W)) : Q → List (WqJob Q W) :=
  match op with
  | .enqueue q w wq time =>
      if s.freed q || s.pending w then js
      else
        Function.update js q
          (js q ++ [{ item := w, wq := wq, submitted := time,
                      queued := s.clock }])
  | .thread q =>
      match s.worker q with
      | .loop => Function.update js q (js q).tail
      | _ => js
  | _ => js

/-- What one stretch of a thread does to the queues. -/
def WqEvent.op (sys : Q) (s : WqState Q W) (e : WqEvent Q W) :
    QueueOp Q W :=
  if s.queues.fault.isSome then .idle
  else
    match e with
    | .queueWork q w => .enqueue q w q s.queues.clock
    | .queueDelayedWork q w delay =>
        if delay = 0 then .enqueue q w q s.queues.clock else .idle
    | .modTimer k => if s.arming[k]?.isSome then .tick else .idle
    | .timerCallFn k =>
        match s.firings[k]? with
        | some f =>
            match f.at_ with
            | .cleared wq time => .enqueue sys f.item wq time
            | _ => .idle
        | none => .idle
    | .wqThreadFn q => .thread q
    | .cancelWorkSync w => .clear w
    | .clearPending w => .clear w
    | .cancelStep k =>
        match s.cancels[k]? with
        | some c => if c.waited then .clear c.item else .idle
        | none => .idle
    | .flushTurn k =>
        match s.flushes[k]? with
        | some f =>
            if f.turns < f.limit ∧ s.queues.gone f.target then .useFreed
            else .idle
        | none => .idle
    | .destroy q => .destroy q
    | .destroyReturn q => .destroyReturn q
    | _ => .idle

end

-- ================================================================= the lists

/-- The heap holds exactly the lists `items`, the pending flags say which
work items are linked, and no stray pointer was followed. -/
structure Intact (s : WorkQueues Q W) (items : Q → List W) : Prop where
  ring : ∀ q, IsRing s.links (.head q) ((items q).map .entry)
  apart : ∀ q r w, w ∈ items q → w ∈ items r → q = r
  pending_iff : ∀ w, s.pending w = true ↔ ∃ q, w ∈ items q
  sound : s.fault ≠ some .wild

section
variable [DecidableEq Q] [DecidableEq W]

/-- The item whose pending flag a cancel clears. -/
def WqEvent.cancels (sys : Q) (s : WqState Q W) (e : WqEvent Q W) :
    Option W :=
  match e.op sys s with
  | .clear w => some w
  | _ => none

/-- The lists stay intact, and no item leaves its list but to be run or
because it is cancelled. -/
def KeepsQueues (sys : Q) (s : WqState Q W) (e : WqEvent Q W) : Prop :=
  ∃ items items', Intact s.queues items
    ∧ Intact (wqStep sys s e).queues items'
    ∧ ∀ q, ∀ w ∈ items q, w ∈ items' q
        ∨ (e = .wqThreadFn q
            ∧ ∃ j, (wqStep sys s e).queues.worker q = .taken j ∧ j.item = w)
        ∨ e.cancels sys s = some w

/-- No cancel clears the flag of a queued item. -/
def CancelsIdle (sys : Q) (s : WqState Q W) (e : WqEvent Q W) : Prop :=
  ∀ w ∈ e.cancels sys s, s.queues.pending w = false

instance (sys : Q) (s : WqState Q W) (e : WqEvent Q W) :
    Decidable (CancelsIdle sys s e) :=
  inferInstanceAs (Decidable (∀ w ∈ e.cancels sys s, _))

/-- The event is one of a cancel. -/
def WqEvent.isCancel (e : WqEvent Q W) : Bool :=
  match e with
  | .cancelWorkSync _ | .cancelCall _ | .deactivate _ | .clearPending _
  | .cancelDelayedWorkSync _ | .cancelStep _ => true
  | _ => false

end

-- ================================================================== accounts

section
variable [DecidableEq W]

/-- Every invocation that was accepted has started, is about to, or is
queued, exactly once and in this order; `queue_work` refuses exactly the
queued items; a thread sleeps only when nothing is queued; a queue that
`destroy_workqueue` has returned for has no callback running and ran all
it accepted before its thread left. -/
structure Accounted [DecidableEq Q] (s : WorkQueues Q W)
    (items : Q → List W) : Prop where
  count : ∀ q w, (s.accepted q).countP (·.item = w)
    = (s.started q).countP (·.item = w)
      + (s.worker q).waits.countP (·.item = w)
      + if w ∈ items q then 1 else 0
  order : ∀ q, s.started q <+: s.accepted q
  answer : ∀ q w wq time, s.freed q = false →
    ((queueWork s q w wq time).1 = false ↔ ∃ r, w ∈ items r)
  awake : ∀ q, s.worker q = .asleep → items q = [] ∧ s.running q = true
  destroyed : ∀ q, s.freed q = true → s.worker q = .exited
    ∧ ∀ j ∈ s.accepted q, j.queued < s.doneAt q → j ∈ s.finished q

end

-- ================================================================ submission

/-- Delayed work is submitted to `system_wq`. -/
def DelaysOnSystem (sys : Q) (e : WqEvent Q W) : Prop :=
  match e with
  | .queueDelayedWork q _ delay => delay = 0 ∨ q = sys
  | _ => True

instance [DecidableEq Q] (sys : Q) (e : WqEvent Q W) :
    Decidable (DelaysOnSystem sys e) :=
  match e with
  | .queueDelayedWork q _ delay =>
      inferInstanceAs (Decidable (delay = 0 ∨ q = sys))
  | .queueWork _ _ | .modTimer _ | .timerFires _ | .timerCallFn _
  | .wqThreadFn _ | .cancelWorkSync _ | .cancelCall _ | .deactivate _
  | .clearPending _ | .cancelDelayedWorkSync _ | .cancelStep _ | .flush _
  | .flushTurn _ | .destroy _ | .destroyReturn _ => .isTrue trivial

/-- Every callback runs on the thread of the queue it was submitted to,
so no two submitted to one queue run at once. -/
def RunsWhereSubmitted (s : WorkQueues Q W) : Prop :=
  (∀ q j, s.worker q = .run j → j.wq = q)
    ∧ ∀ q r j k, s.worker q = .run j → s.worker r = .run k →
        j.wq = k.wq → q = r

-- ================================================================== waiting

/-- A flush waits for the invocation. -/
def Flush.covers (f : Flush Q W) (q : Q) (j : WqJob Q W) : Prop :=
  match f.target with
  | .work w => j.item = w
  | .workqueue r => q = r

/-- No callback runs that was queued before a `cancel_work_sync` of its
item which has returned, or submitted before such a
`cancel_delayed_work_sync`. -/
def CancelsKept (s : WqState Q W) : Prop :=
  ∀ q j, s.queues.worker q = .run j →
    s.cancelled j.item ≤ j.queued ∧ s.cancelledDelayed j.item ≤ j.submitted

section
variable [DecidableEq Q] [DecidableEq W]

/-- When a flush returns because of what it read, the invocations it waits
for, queued before it was called, have finished. -/
def FlushKept (s : WqState Q W) (e : WqEvent Q W) : Prop :=
  ∀ k f, e = .flushTurn k → s.queues.fault = none →
    s.flushes[k]? = some f → f.returns s.queues = true →
    ∀ q, ∀ j ∈ s.queues.accepted q, f.covers q j → j.queued < f.mark →
      j ∈ s.queues.finished q

/-- Cancel and flush synchronise. -/
def Synchronises (sys : Q) (s : WqState Q W) (e : WqEvent Q W) : Prop :=
  CancelsKept (wqStep sys s e) ∧ FlushKept s e

/-- The worker of a queue is not between taking up an invocation `P` and
the end of its callback. -/
def NoneHeld (s : WorkQueues Q W) (P : Q → WqJob Q W → Prop) : Prop :=
  ∀ q, ∀ j ∈ (s.worker q).held, ¬P q j

/-- A cancel returns, and a flush reads that it is done, only while no
thread is between taking up an invocation that is to be waited for and
the end of its callback; a timer callback past its test is waited for,
too. -/
def WaitsIdle (s : WqState Q W) (e : WqEvent Q W) : Prop :=
  match e with
  | .cancelWorkSync w => NoneHeld s.queues fun _ j => j.item = w
  | .cancelStep k => ∀ c ∈ s.cancels[k]?, c.waited = true →
      NoneHeld s.queues (fun _ j => j.item = c.item ∧ j.submitted < c.mark)
      ∧ ∀ f ∈ s.firings, f.item = c.item →
          ∀ p ∈ f.submission, c.mark ≤ p.2
  | .flushTurn k => ∀ f ∈ s.flushes[k]?, f.returns s.queues = true →
      NoneHeld s.queues fun q j => f.covers q j ∧ j.queued < f.mark
  | _ => True

/-- The same, and no cancel clears the flag of a queued item. -/
def SyncsIdle (sys : Q) (s : WqState Q W) (e : WqEvent Q W) : Prop :=
  CancelsIdle sys s e ∧ WaitsIdle s e

end

section
variable [DecidableEq Q] [DecidableEq W] [Fintype Q]

instance (f : Flush Q W) (q : Q) (j : WqJob Q W) :
    Decidable (f.covers q j) :=
  match ht : f.target with
  | .work w => decidable_of_iff (j.item = w) (by rw [Flush.covers, ht])
  | .workqueue r => decidable_of_iff (q = r) (by rw [Flush.covers, ht])

instance (s : WorkQueues Q W) (P : Q → WqJob Q W → Prop)
    [∀ q j, Decidable (P q j)] : Decidable (NoneHeld s P) :=
  inferInstanceAs (Decidable (∀ q, ∀ j ∈ (s.worker q).held, ¬P q j))

instance (s : WqState Q W) : (e : WqEvent Q W) → Decidable (WaitsIdle s e)
  | .cancelWorkSync w =>
      inferInstanceAs (Decidable (NoneHeld s.queues fun _ j => j.item = w))
  | .cancelStep k =>
      inferInstanceAs (Decidable (∀ c ∈ s.cancels[k]?, c.waited = true →
        NoneHeld s.queues (fun _ j => j.item = c.item ∧ j.submitted < c.mark)
        ∧ ∀ f ∈ s.firings, f.item = c.item →
            ∀ p ∈ f.submission, c.mark ≤ p.2))
  | .flushTurn k =>
      inferInstanceAs (Decidable (∀ f ∈ s.flushes[k]?,
        f.returns s.queues = true →
          NoneHeld s.queues fun q j => f.covers q j ∧ j.queued < f.mark))
  | .queueWork _ _ | .queueDelayedWork _ _ _ | .modTimer _ | .timerFires _
  | .timerCallFn _ | .wqThreadFn _ | .cancelCall _ | .deactivate _
  | .clearPending _ | .cancelDelayedWorkSync _ | .flush _ | .destroy _
  | .destroyReturn _ => .isTrue trivial

instance (sys : Q) (s : WqState Q W) (e : WqEvent Q W) :
    Decidable (SyncsIdle sys s e) :=
  inferInstanceAs (Decidable (_ ∧ _))

end

end Rtw88
