/-
What several threads share, and what one waits for: the counters of
linux/atomic.h, the semaphore of linux/mutex.h, and the register polls of
linux/iopoll.h on the clock of linux/jiffies.h.

A `__sync_*` call is one step, and so is every section of the semaphore
between `IOLockLock` and the next call that gives the lock up. The
counters are `int`, and wrap around at its ends.
-/
import Rtw88.Lib.CasLoop

namespace Rtw88

-- ================================================================== counters

/-- `atomic_dec_if_positive`, from its look at `c` on. -/
def atomicDecIfPositive : CasOp Int32 Int32 :=
  { quit := fun c => if c ≤ 0 then some (c - 1) else none
    next := fun c => c - 1
    answer := fun c => c - 1 }

/-- A call of `atomic_dec_if_positive` goes on, or somebody calls
`atomic_inc`, or `atomic_add_return`. -/
inductive CounterEvent
  | dec (i : Nat)
  | inc
  | add (i : Int32)
  deriving DecidableEq

/-- The event as one at the cell. -/
def CounterEvent.cas : CounterEvent → CasEvent Int32
  | .dec i => .thread i
  | .inc => .update (· + 1)
  | .add i => .update (· + i)

/-- What it is asked to add. -/
def CounterEvent.added : CounterEvent → Int
  | .dec _ => 0
  | .inc => 1
  | .add i => i.toInt

/-- A counter at `k`, with `n` calls of `atomic_dec_if_positive` to come,
and a run of them. -/
def counterRun (k : Int32) (n : Nat) (es : List CounterEvent) :
    CasState Int32 Int32 :=
  runFrom (casStep atomicDecIfPositive)
    { cell := k, threads := List.replicate n .start } (es.map (·.cas))

-- ================================================================= semaphore

/-- Where a thread in `down` stands: in `IOLockSleep`, or awake and about
to take the lock again. -/
inductive SemPc
  | asleep
  | awake
  deriving DecidableEq

/-- `struct semaphore`, and the threads that wait in `down`. `taken` and
`given` are marks of the model: how many calls of `down` and
`down_trylock` got through, and how many there were of `up`. -/
structure Semaphore where
  count : Int32
  waiters : List SemPc
  taken : Nat
  given : Nat
  deriving DecidableEq

/-- `sema_init`. -/
def semaInit (val : Int32) : Semaphore :=
  { count := val, waiters := [], taken := 0, given := 0 }

/-- The `k`-th of the sleeping threads is woken. -/
def wakeNth : Nat → List SemPc → List SemPc
  | _, [] => []
  | 0, .asleep :: ts => .awake :: ts
  | k + 1, .asleep :: ts => .asleep :: wakeNth k ts
  | k, .awake :: ts => .awake :: wakeNth k ts

/-- `IOLockWakeup(sem->lock, &sem->count, true)`: one sleeping thread, if
there is one; which, is for the kernel to say. -/
def wakeOne (k : Nat) (ts : List SemPc) : List SemPc :=
  wakeNth (k % ts.count .asleep) ts

/-- `sem->count--`, and the call returns. -/
def Semaphore.take (s : Semaphore) : Semaphore :=
  { s with count := s.count - 1, taken := s.taken + 1 }

/-- What happens next. `resume` names a thread by its place, `up` the
one it wakes. -/
inductive SemEvent
  | down
  | tryDown
  | resume (i : Nat)
  | up (k : Nat)
  deriving DecidableEq

/-- The event is a call of `up`. -/
def SemEvent.isUp : SemEvent → Bool
  | .up _ => true
  | _ => false

/-- One section. -/
def semStep (s : Semaphore) : SemEvent → Semaphore
  | .down =>
      if s.count ≤ 0 then { s with waiters := s.waiters ++ [.asleep] }
      else s.take
  | .tryDown => if 0 < s.count then s.take else s
  | .resume i =>
      match s.waiters[i]? with
      | some .awake =>
          if s.count ≤ 0 then { s with waiters := s.waiters.set i .asleep }
          else { s with waiters := s.waiters.eraseIdx i }.take
      | _ => s
  | .up k =>
      { s with
        count := s.count + 1, given := s.given + 1
        waiters := wakeOne k s.waiters }

-- ===================================================================== polls

/-- `rtw88_get_jiffies`, at a time in nanoseconds. -/
def getJiffies (nsecs : UInt64) : UInt64 := nsecs / 1000000

/-- `usecs_to_jiffies`. -/
def usecsToJiffies (usecs : UInt32) : UInt64 :=
  ((usecs + 999) / 1000).toUInt64

/-- `time_after`. -/
def timeAfter (a b : UInt64) : Bool := (b - a).toInt64 < 0

/-- `-ETIMEDOUT`. -/
def etimedout : Int := -110

section Poll

variable {α : Type} (cond : α → Bool) (timeoutUs : UInt32) (start : UInt64)
  (val : Nat → α) (nsecs : Nat → UInt64)

/-- The loop of `read_poll_timeout` from read `k` on: what it returns, and
the number of its last read. `val k` is what read `k` finds, and
`nsecs k` the time at the look at the clock behind it. -/
def pollLoop : Nat → Nat → Option (Int × Nat)
  | 0, _ => none
  | fuel + 1, k =>
      if cond (val k) then some (0, k)
      else if timeoutUs ≠ 0
          ∧ timeAfter (getJiffies (nsecs k))
            (start + usecsToJiffies timeoutUs) then
        if cond (val (k + 1)) then some (0, k + 1)
        else some (etimedout, k + 1)
      else pollLoop fuel (k + 1)

end Poll

/-- `read_poll_timeout`, started at the time `t0`. -/
def readPollTimeout {α : Type} (cond : α → Bool) (timeoutUs : UInt32)
    (t0 : UInt64) (val : Nat → α) (nsecs : Nat → UInt64) (fuel : Nat) :
    Option (Int × Nat) :=
  pollLoop cond timeoutUs (getJiffies t0) val nsecs fuel 0

end Rtw88
