/-
What a completion promises over a run of its calls.

`CompletionRun` counts, since the start or the last `reinit_completion`,
the calls of `complete` and the waits that succeeded, and remembers
whether `complete_all` was called.
-/
import Rtw88.Lib.Trace
import Rtw88.Model.Completion

namespace Rtw88

-- ===================================================================== runs

/-- The completion and its history since it was last made new. -/
structure CompletionRun where
  c : Completion
  all : Bool
  completes : Nat
  waits : Nat

/-- After `init_completion`. -/
def CompletionRun.init : CompletionRun :=
  { c := Completion.init, all := false, completes := 0, waits := 0 }

/-- A call, or the next step of a thread that waits. -/
inductive CompletionEvent
  | complete
  | completeAll
  | reinit
  | wait
  | waitTimeout
  | resume (i : Nat)
  | expire (i : Nat)

/-- The step of the waiting thread, if it is one. -/
def CompletionEvent.waiting (c : Completion) :
    CompletionEvent → WaitAnswer × Completion
  | .wait => c.waitForCompletion
  | .waitTimeout => c.waitForCompletionTimeout
  | .resume i => c.resume i
  | .expire i => c.expire i
  | _ => (.idle, c)

/-- The event is a waiting thread's look at `done`. -/
def CompletionEvent.looks (c : Completion) : CompletionEvent → Prop
  | .wait | .waitTimeout => True
  | .resume i => c.waiters[i]? = some .awake ∨ c.waiters[i]? = some .polling
  | _ => False

/-- One event. A call counts when it gets the lock. -/
def completionStep (v : CompletionRun) (e : CompletionEvent) :
    CompletionRun :=
  match e with
  | .complete =>
      { v with
        c := v.c.complete
        completes := if v.c.held then v.completes else v.completes + 1 }
  | .completeAll =>
      { v with c := v.c.completeAll, all := v.all || !v.c.held }
  | .reinit =>
      if v.c.held then v
      else { c := v.c.reinit, all := false, completes := 0, waits := 0 }
  | e =>
      let r := e.waiting v.c
      { v with
        c := r.2
        waits := if r.1 = .completed then v.waits + 1 else v.waits }

-- ================================================================= promises

/-- Every wait that looks now succeeds, and every thread gets to look. -/
structure Open (c : Completion) : Prop where
  wait : c.waitForCompletion.1 = .completed
  waitTimeout : c.waitForCompletionTimeout.1 = .completed
  resume : ∀ i, i < c.waiters.length → (c.resume i).1 = .completed

/-- After `complete_all` every wait succeeds; without it no more waits
than completes do, and `done` is the difference. -/
structure CompletionKept (v : CompletionRun) : Prop where
  released : v.all = true → Open v.c
  bounded : v.all = false → v.waits ≤ v.completes
  counted : v.all = false → v.c.done.toNat = v.completes - v.waits

/-- A step is right: no wait of a released completion fails, and what is
promised still holds. -/
structure CompletionSound (v : CompletionRun) (e : CompletionEvent) :
    Prop where
  succeeds : v.all = true →
    (e.waiting v.c).1 = .idle ∨ (e.waiting v.c).1 = .completed
  kept : CompletionKept (completionStep v e)

/-- The marker and the count stay apart: nothing is added to the marker,
nobody takes from a count that looks like it, and no deadline passes
between `complete_all` and the next look of a polling thread. -/
def KeepsApart (v : CompletionRun) (e : CompletionEvent) : Prop :=
  match e with
  | .complete => v.c.held = false → v.c.done ≠ Completion.allOnes
  | .expire i => v.c.waiters[i]? = some .polling → v.all = false
  | e => e.looks v.c → v.c.held = false → v.c.done = Completion.allOnes →
      v.all = true

end Rtw88
