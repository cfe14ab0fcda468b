/-
completion.h: a counter under a lock, and the threads that wait for it.

Every section between `IOLockLock` and `IOLockUnlock` is one step. A call
that finds the lock held for good stays in `IOLockLock` and changes
nothing. A waiting thread is one of three:

- asleep in `IOLockSleep`, which gave the lock up; only `IOLockWakeup`
  gets it out, and `complete` and `complete_all` wake every one;
- awake, about to take the lock again and look at `done`;
- polling, between the two locks of `wait_for_completion_timeout`.

Whether the deadline has passed is the environment's choice.
-/
import Rtw88.Lib.Bytes

namespace Rtw88

/-- Where a waiting thread stands. -/
inductive WaitPc
  | asleep
  | awake
  | polling
  deriving DecidableEq

/-- `struct completion`, with whether a call returned and kept the lock,
and the threads that wait. -/
structure Completion where
  done : UInt32
  held : Bool
  waiters : List WaitPc
  deriving DecidableEq

/-- What a step means to the caller: no thread took one, its call goes
on, or it returned (`wait_for_completion_timeout`: with 1 or 0). -/
inductive WaitAnswer
  | idle
  | pending
  | completed
  | timedOut
  deriving DecidableEq

namespace Completion

/-- `~0u`. -/
def allOnes : UInt32 := 0xffffffff

/-- `init_completion`. -/
def init : Completion := { done := 0, held := false, waiters := [] }

/-- `IOLockWakeup(c->lock, c, false)`. -/
def wakeup (c : Completion) : Completion :=
  { c with
    waiters := c.waiters.map fun t => if t = .asleep then .awake else t }

/-- `complete`. -/
def complete (c : Completion) : Completion :=
  if c.held then c else { c with done := c.done + 1 }.wakeup

/-- `complete_all`. -/
def completeAll (c : Completion) : Completion :=
  if c.held then c else { c with done := allOnes }.wakeup

/-- `reinit_completion`. -/
def reinit (c : Completion) : Completion :=
  if c.held then c else { c with done := 0 }

/-- `if (c->done != ~0u) c->done--`. -/
def take (c : Completion) : Completion :=
  if c.done ≠ allOnes then { c with done := c.done - 1 } else c

/-- A look at `done`, under the lock, of a thread that goes on waiting as
`pc`; `leave` takes it out of the waiters, `stay` leaves it there. -/
def look (c leave stay : Completion) : WaitAnswer × Completion :=
  if c.held then (.pending, c)
  else if c.done = 0 then (.pending, stay)
  else (.completed, leave.take)

/-- `wait_for_completion`, up to its first sleep. -/
def waitForCompletion (c : Completion) : WaitAnswer × Completion :=
  c.look c { c with waiters := c.waiters ++ [.asleep] }

/-- `wait_for_completion_timeout`, up to where it gives the lock up. -/
def waitForCompletionTimeout (c : Completion) : WaitAnswer × Completion :=
  c.look c { c with waiters := c.waiters ++ [.polling] }

/-- Thread `i` takes the lock again and looks. -/
def resume (i : Nat) (c : Completion) : WaitAnswer × Completion :=
  match c.waiters[i]? with
  | some .awake =>
      c.look { c with waiters := c.waiters.eraseIdx i }
        { c with waiters := c.waiters.set i .asleep }
  | some .polling => c.look { c with waiters := c.waiters.eraseIdx i } c
  | _ => (.idle, c)

/-- The deadline of thread `i` has passed: it takes the lock and returns
0. -/
def expire (i : Nat) (c : Completion) : WaitAnswer × Completion :=
  match c.waiters[i]? with
  | some .polling =>
      if c.held then (.pending, c)
      else
        (.timedOut,
          { c with held := true, waiters := c.waiters.eraseIdx i })
  | _ => (.idle, c)

end Completion

end Rtw88
