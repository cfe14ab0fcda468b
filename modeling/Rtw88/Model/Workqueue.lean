/-
The work queues of the compatibility layer (`rtw88_compat.c`): any number
of work queues `Q`, each with its thread `wq_thread_fn`, and any number
of work items `W`, with the timers of those that are delayed work.

One step is one stretch of one thread: a section under `wq->lock`, one
access outside of it, or the call and the return of a callback. Sections
are atomic, those of two queues to each other as well. What threads stand
in the middle of a call (`queue_delayed_work`, a timer callback,
`cancel_delayed_work_sync`, the two flushes) is part of the state, so a
run is any interleaving of all of them.

Work items are initialised (`INIT_WORK`, with a function) and the queues
allocated when a run begins; `sys` is `system_wq` as `rtw88_compat_init`
leaves it. Null arguments, which every function answers at once, are left
out.

The fields of `WorkQueues` from `clock` on, the marks and the submissions
record what happened; what the code does never depends on them.
-/
import Rtw88.Lib.Ring
import Rtw88.Lib.Trace

namespace Rtw88

variable {Q W : Type}

-- =================================================================== state

/-- The list nodes: `wq->queue` and `work->entry`. -/
inductive WqNode (Q W : Type)
  | head (q : Q)
  | entry (w : W)
  deriving DecidableEq

/-- One invocation of a work item's callback: the item, the queue it was
submitted to, when it was submitted and when it was queued. -/
structure WqJob (Q W : Type) where
  item : W
  wq : Q
  submitted : Nat
  queued : Nat
  deriving DecidableEq

/-- Where `wq_thread_fn` stands. -/
inductive WorkerAt (Q W : Type)
  /-- About to test the condition of its loop, with the lock. -/
  | loop
  /-- In `IOLockSleep(wq->lock, &wq->queue)`. -/
  | asleep
  /-- The lock dropped, `work->func` not called yet. -/
  | taken (job : WqJob Q W)
  /-- In `work->func(work)`. -/
  | run (job : WqJob Q W)
  /-- Past `wq->done = 1`. -/
  | exited
  deriving DecidableEq

/-- What the worker took from its queue and has not finished. -/
def WorkerAt.held : WorkerAt Q W → List (WqJob Q W)
  | .taken j => [j]
  | .run j => [j]
  | _ => []

/-- What the worker took and has not started. -/
def WorkerAt.waits : WorkerAt Q W → List (WqJob Q W)
  | .taken j => [j]
  | _ => []

/-- What the worker runs. -/
def WorkerAt.runs : WorkerAt Q W → List (WqJob Q W)
  | .run j => [j]
  | _ => []

/-- Undefined behaviour: a queue used after `destroy_workqueue` freed it,
or a pointer followed that is null or not a work item's. -/
inductive WqFault
  | freed | wild
  deriving DecidableEq

/-- The queues and the `work_struct`s. -/
structure WorkQueues (Q W : Type) where
  links : Links (WqNode Q W)
  pending : W → Bool
  running : Q → Bool
  done : Q → Bool
  worker : Q → WorkerAt Q W
  destroying : Q → Bool
  freed : Q → Bool
  fault : Option WqFault
  clock : Nat
  /-- The last invocation each item was accepted for. -/
  jobOf : W → WqJob Q W
  accepted : Q → List (WqJob Q W)
  started : Q → List (WqJob Q W)
  finished : Q → List (WqJob Q W)
  /-- When each worker left its loop. -/
  doneAt : Q → Nat

section
variable [DecidableEq Q] [DecidableEq W]

/-- Every queue allocated, every item initialised. -/
def WorkQueues.init (sys : Q) : WorkQueues Q W :=
  { links := { next := some, prev := some }
    pending := fun _ => false
    running := fun _ => true
    done := fun _ => false
    worker := fun _ => .loop
    destroying := fun _ => false
    freed := fun _ => false
    fault := none
    clock := 0
    jobOf := fun w => { item := w, wq := sys, submitted := 0, queued := 0 }
    accepted := fun _ => []
    started := fun _ => []
    finished := fun _ => []
    doneAt := fun _ => 0 }

/-- `IOLockWakeup(wq->lock, &wq->queue, false)` -/
def WorkQueues.wakeup (s : WorkQueues Q W) (q : Q) : WorkQueues Q W :=
  match s.worker q with
  | .asleep => { s with worker := Function.update s.worker q .loop }
  | _ => s

/-- `queue_work(wq, work)`, with its answer. The invocation it accepts
was submitted to `wq` at `time`. -/
def queueWork (s : WorkQueues Q W) (q : Q) (w : W) (wq : Q) (time : Nat) :
    Bool × WorkQueues Q W :=
  if s.freed q then (false, { s with fault := some .freed })
  else if s.pending w then (false, s)
  else
    match s.links.listAddTail (.entry w) (.head q) with
    | none => (false, { s with fault := some .wild })
    | some links =>
        let job := { item := w, wq := wq, submitted := time, queued := s.clock }
        let s := { s with
          pending := Function.update s.pending w true
          links := links
          clock := s.clock + 1
          jobOf := Function.update s.jobOf w job
          accepted := Function.update s.accepted q (s.accepted q ++ [job]) }
        (true, s.wakeup q)

/-- The section of `wq_thread_fn` that takes the first item:
`list_del(&work->entry); work->pending = 0`, and the lock dropped. -/
def takeWork (s : WorkQueues Q W) (q : Q) : WorkQueues Q W :=
  match s.links.next (.head q) with
  | some (.entry w) =>
      match s.links.listDel (.entry w) with
      | some links =>
          { s with
            links := links
            pending := Function.update s.pending w false
            worker := Function.update s.worker q (.taken (s.jobOf w)) }
      | none => { s with fault := some .wild }
  | _ => { s with fault := some .wild }

/-- The next stretch of `wq_thread_fn`. -/
def wqThreadFn (s : WorkQueues Q W) (q : Q) : WorkQueues Q W :=
  match s.worker q with
  | .loop =>
      let empty := s.links.listEmpty (.head q)
      if s.running q || !empty then
        if empty then
          { s with worker := Function.update s.worker q .asleep }
        else takeWork s q
      else
        { s with
          done := Function.update s.done q true
          worker := Function.update s.worker q .exited
          doneAt := Function.update s.doneAt q s.clock }
  | .asleep => s
  | .taken j =>
      { s with
        worker := Function.update s.worker q (.run j)
        started := Function.update s.started q (s.started q ++ [j]) }
  | .run j =>
      { s with
        worker := Function.update s.worker q .loop
        finished := Function.update s.finished q (s.finished q ++ [j]) }
  | .exited => s

/-- `work->pending = 0`, outside of any lock. -/
def clearPending (s : WorkQueues Q W) (w : W) : WorkQueues Q W :=
  { s with pending := Function.update s.pending w false }

/-- `destroy_workqueue(wq)` up to its wait: `wq->running = 0` and the
wake-up. A queue is destroyed once. -/
def destroyWorkqueue (s : WorkQueues Q W) (q : Q) : WorkQueues Q W :=
  if s.destroying q then s
  else
    WorkQueues.wakeup
      { s with
        destroying := Function.update s.destroying q true
        running := Function.update s.running q false } q

/-- Its return: `wq->done` is set, and the queue is freed. -/
def destroyReturn (s : WorkQueues Q W) (q : Q) : WorkQueues Q W :=
  if s.destroying q && s.done q then
    { s with freed := Function.update s.freed q true }
  else s

end

-- ================================================================== threads

/-- Where a thread stands in `timer_call_fn`. Past the test of
`timer->active` it carries the submission the timer was set for. -/
inductive FiringAt (Q : Type)
  /-- Entered. -/
  | entered
  /-- `timer->active` was read as set. -/
  | active (wq : Q) (time : Nat)
  /-- `timer->active = 0` is done. -/
  | cleared (wq : Q) (time : Nat)
  deriving DecidableEq

/-- A timer callback under way, and the thread call it came from. -/
structure Firing (Q W : Type) where
  item : W
  call : Nat
  at_ : FiringAt Q
  deriving DecidableEq

/-- The submission a callback under way will queue. -/
def Firing.submission (f : Firing Q W) : Option (Q × Nat) :=
  match f.at_ with
  | .entered => none
  | .active wq time => some (wq, time)
  | .cleared wq time => some (wq, time)

/-- A call of `cancel_delayed_work_sync`: since when, whether
`thread_call_cancel_wait` is at its delay, and whether `del_timer_sync`
has returned. -/
structure Cancel (W : Type) where
  item : W
  mark : Nat
  delaying : Bool
  waited : Bool
  deriving DecidableEq

/-- What a flush waits for. -/
inductive FlushTarget (Q W : Type)
  | work (w : W)
  | workqueue (q : Q)
  deriving DecidableEq

/-- A call of `flush_work` or `flush_workqueue`: since when, and how many
turns its loop has made. -/
structure Flush (Q W : Type) where
  target : FlushTarget Q W
  turns : Nat
  mark : Nat
  deriving DecidableEq

/-- The bound of the loop. -/
def Flush.limit (f : Flush Q W) : Nat :=
  match f.target with
  | .work _ => 200
  | .workqueue _ => 1000

/-- The queues, the timers of the delayed work, and the threads in the
middle of a call. -/
structure WqState (Q W : Type) where
  queues : WorkQueues Q W
  /-- `timer->active`. -/
  active : W → Bool
  /-- Which thread call `timer->call` is, and whether it is scheduled. -/
  call : W → Nat
  armed : W → Bool
  /-- The last submission each timer was set for. -/
  submission : W → Q × Nat
  /-- `queue_delayed_work` between `timer_setup` and `mod_timer`. -/
  arming : List (Q × W)
  firings : List (Firing Q W)
  cancels : List (Cancel W)
  flushes : List (Flush Q W)
  /-- The last call of `cancel_work_sync` that returned, and of
  `cancel_delayed_work_sync`. -/
  cancelled : W → Nat
  cancelledDelayed : W → Nat

/-- What the threads do. -/
inductive WqEvent (Q W : Type)
  /-- `queue_work(q, w)`; `schedule_work(w)` is `queue_work(system_wq, w)`. -/
  | queueWork (q : Q) (w : W)
  /-- `queue_delayed_work(q, w, delay)` up to `mod_timer`. -/
  | queueDelayedWork (q : Q) (w : W) (delay : Nat)
  /-- `mod_timer` in the `k`-th such call. -/
  | modTimer (k : Nat)
  /-- The thread call of a timer goes off. -/
  | timerFires (w : W)
  /-- The next stretch of the `k`-th timer callback. -/
  | timerCallFn (k : Nat)
  /-- The next stretch of a queue's thread. -/
  | wqThreadFn (q : Q)
  /-- `cancel_work_sync(w)`. -/
  | cancelWorkSync (w : W)
  /-- The three writes of `cancel_delayed_work(w)`. -/
  | cancelCall (w : W)
  | deactivate (w : W)
  | clearPending (w : W)
  /-- `cancel_delayed_work_sync(w)` up to `thread_call_cancel_wait`, and the
  next stretch of the `k`-th such call. -/
  | cancelDelayedWorkSync (w : W)
  | cancelStep (k : Nat)
  /-- `flush_work(w)`, `flush_workqueue(q)`, and the next turn of the `k`-th
  such call. -/
  | flush (target : FlushTarget Q W)
  | flushTurn (k : Nat)
  /-- `destroy_workqueue(q)`, and its return. -/
  | destroy (q : Q)
  | destroyReturn (q : Q)
  deriving DecidableEq

section
variable [DecidableEq Q] [DecidableEq W]

/-- Nothing has happened. -/
def WqState.init (sys : Q) : WqState Q W :=
  { queues := WorkQueues.init sys
    active := fun _ => false
    call := fun _ => 0
    armed := fun _ => false
    submission := fun _ => (sys, 0)
    arming := []
    firings := []
    cancels := []
    flushes := []
    cancelled := fun _ => 0
    cancelledDelayed := fun _ => 0 }

/-- `timer_setup(&dwork->timer, delayed_work_timer_fn, 0)`: what was set
before is cancelled, and a new thread call allocated. -/
def timerSetup (s : WqState Q W) (w : W) : WqState Q W :=
  { s with
    active := Function.update s.active w false
    armed := Function.update s.armed w false
    call := Function.update s.call w (s.call w + 1) }

/-- `mod_timer` for a submission to `q`. -/
def modTimer (s : WqState Q W) (q : Q) (w : W) : WqState Q W :=
  { s with
    active := Function.update s.active w true
    armed := Function.update s.armed w true
    submission := Function.update s.submission w (q, s.queues.clock)
    queues := { s.queues with clock := s.queues.clock + 1 } }

/-- `queue_delayed_work(wq, dwork, delay)` up to `mod_timer`. -/
def queueDelayedWork (s : WqState Q W) (q : Q) (w : W) (delay : Nat) :
    WqState Q W :=
  if delay = 0 then
    { s with queues := (queueWork s.queues q w q s.queues.clock).2 }
  else
    let s := timerSetup s w
    { s with arming := s.arming ++ [(q, w)] }

/-- `delayed_work_timer_fn`: `queue_work(system_wq, &dwork->work)`. -/
def delayedWorkTimerFn (sys : Q) (s : WqState Q W) (w : W) (wq : Q)
    (time : Nat) : WqState Q W :=
  { s with queues := (queueWork s.queues sys w wq time).2 }

/-- The next stretch of `timer_call_fn` in the `k`-th callback. -/
def timerCallFn (sys : Q) (s : WqState Q W) (k : Nat) (f : Firing Q W) :
    WqState Q W :=
  match f.at_ with
  | .entered =>
      if s.active f.item then
        let (wq, time) := s.submission f.item
        { s with
          firings := s.firings.set k { f with at_ := .active wq time } }
      else { s with firings := s.firings.eraseIdx k }
  | .active wq time =>
      { s with
        active := Function.update s.active f.item false
        firings := s.firings.set k { f with at_ := .cleared wq time } }
  | .cleared wq time =>
      delayedWorkTimerFn sys { s with firings := s.firings.eraseIdx k } f.item
        wq time

/-- The next stretch of a `cancel_delayed_work_sync`: the first
`thread_call_cancel` of `thread_call_cancel_wait`; behind its delay, which
is not one until the callback is over, the second, and
`thread_call_free`; then `work->pending = 0` and the return. -/
def cancelStep (s : WqState Q W) (k : Nat) (c : Cancel W) : WqState Q W :=
  if c.waited then
    { s with
      queues := clearPending s.queues c.item
      cancels := s.cancels.eraseIdx k
      cancelledDelayed := Function.update s.cancelledDelayed c.item
        (max (s.cancelledDelayed c.item) c.mark) }
  else
    let s := { s with armed := Function.update s.armed c.item false }
    if c.delaying then
      { s with
        call := Function.update s.call c.item (s.call c.item + 1)
        cancels := s.cancels.set k { c with waited := true } }
    else { s with cancels := s.cancels.set k { c with delaying := true } }

/-- What a flush reads: `!work->pending`, or `list_empty(&wq->queue)`. -/
def WorkQueues.clear (s : WorkQueues Q W) (target : FlushTarget Q W) :
    Bool :=
  match target with
  | .work w => !s.pending w
  | .workqueue q => s.links.listEmpty (.head q)

/-- What it reads is freed. -/
def WorkQueues.gone (s : WorkQueues Q W) (target : FlushTarget Q W) : Bool :=
  match target with
  | .work _ => false
  | .workqueue q => s.freed q

/-- The flush is over, because of what it read. -/
def Flush.returns (f : Flush Q W) (s : WorkQueues Q W) : Bool :=
  f.turns < f.limit && !s.gone f.target && s.clear f.target

/-- The next turn of a flush. -/
def flushTurn (s : WqState Q W) (k : Nat) (f : Flush Q W) : WqState Q W :=
  if f.turns < f.limit then
    if s.queues.gone f.target then
      { s with queues := { s.queues with fault := some .freed } }
    else if s.queues.clear f.target then
      { s with flushes := s.flushes.eraseIdx k }
    else
      { s with flushes := s.flushes.set k { f with turns := f.turns + 1 } }
  else { s with flushes := s.flushes.eraseIdx k }

/-- One stretch of one thread. -/
def wqEvent (sys : Q) (s : WqState Q W) (e : WqEvent Q W) : WqState Q W :=
  match e with
  | .queueWork q w =>
      { s with queues := (queueWork s.queues q w q s.queues.clock).2 }
  | .queueDelayedWork q w delay => queueDelayedWork s q w delay
  | .modTimer k =>
      match s.arming[k]? with
      | some (q, w) => modTimer { s with arming := s.arming.eraseIdx k } q w
      | none => s
  | .timerFires w =>
      if s.armed w then
        { s with
          armed := Function.update s.armed w false
          firings := s.firings ++
            [{ item := w, call := s.call w, at_ := .entered }] }
      else s
  | .timerCallFn k =>
      match s.firings[k]? with
      | some f => timerCallFn sys s k f
      | none => s
  | .wqThreadFn q => { s with queues := wqThreadFn s.queues q }
  | .cancelWorkSync w =>
      { s with
        queues := clearPending s.queues w
        cancelled := Function.update s.cancelled w s.queues.clock }
  | .cancelCall w => { s with armed := Function.update s.armed w false }
  | .deactivate w => { s with active := Function.update s.active w false }
  | .clearPending w => { s with queues := clearPending s.queues w }
  | .cancelDelayedWorkSync w =>
      { s with
        active := Function.update s.active w false
        cancels := s.cancels ++
          [{ item := w, mark := s.queues.clock, delaying := false
             waited := false }] }
  | .cancelStep k =>
      match s.cancels[k]? with
      | some c => cancelStep s k c
      | none => s
  | .flush target =>
      { s with
        flushes := s.flushes ++
          [{ target := target, turns := 0, mark := s.queues.clock }] }
  | .flushTurn k =>
      match s.flushes[k]? with
      | some f => flushTurn s k f
      | none => s
  | .destroy q => { s with queues := destroyWorkqueue s.queues q }
  | .destroyReturn q => { s with queues := destroyReturn s.queues q }

/-- The same, until something undefined has happened. -/
def wqStep (sys : Q) (s : WqState Q W) (e : WqEvent Q W) : WqState Q W :=
  if s.queues.fault.isSome then s else wqEvent sys s e

end

end Rtw88
