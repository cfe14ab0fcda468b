/-
What the counters, the semaphore and the register polls promise, in any
order of the threads' steps.

- `atomic_dec_if_positive` never takes a counter below zero, and the
  counter is what was put in less the calls that got through
  (`counter_accounts`); no call can be kept from its end but by others
  that reach theirs (`counter_lock_free`).
- A semaphore's permits are accounted for, and none lies unused while
  every waiting thread sleeps (`semaphore_accounts`).
- `read_poll_timeout` returns zero exactly for a read that meets the
  condition, and gives up only after the time it was given
  (`read_poll_timeout_sound`), but then it does (`read_poll_timeout_ends`).

# At the ends of `int`

Counter and permits are an `int`, and their additions wrap. As long as
what is put in stays below 2^31 the wrap is never met: the lemmas under
"int" take a sum or a difference over to the integers, and behind them
the invariants are statements about integers. The bound is on the run, on
the start value and all that is added, since calls that take something
away may come before or after.

# Steps

A call of `atomic_dec_if_positive` is a read and then compare-and-swaps,
each a step with others in between. Lib/CasLoop.lean reduces its run to
the one of its successful swaps, in which every call is one step
(`CounterKept` is invariant there). A semaphore's calls are sections
under the lock, and a thread that sleeps is woken by an `up` and then
looks again; `SemHolds` has as many threads awake as there are permits to
be had, or nobody asleep.

# Polls

The clock is in milliseconds and the timeout in microseconds, rounded up
after an addition that wraps. `time_after` compares modulo the range of
the clock, so it is right for times less than half of that apart
(`timeAfter_iff`). The loop is an induction over the reads.
-/
import Mathlib
import Rtw88.Model.Sync

namespace Rtw88

-- ====================================================================== int

/-- A sum of two `int`s that is one. -/
theorem int32_toInt_add {a b : Int32}
    (hlo : -2 ^ 31 ≤ a.toInt + b.toInt) (hhi : a.toInt + b.toInt < 2 ^ 31) :
    (a + b).toInt = a.toInt + b.toInt := by
  rw [Int32.toInt_add]
  apply Int.bmod_eq_of_le <;> omega

/-- A positive `int` less one. -/
theorem int32_toInt_sub_one {a : Int32} (h : -2 ^ 31 < a.toInt) :
    (a - 1).toInt = a.toInt - 1 := by
  have hlt := Int32.toInt_lt a
  have hone : (1 : Int32).toInt = 1 := rfl
  rw [Int32.toInt_sub, hone]
  apply Int.bmod_eq_of_le <;> omega

/-- The comparisons with zero, on integers. -/
theorem int32_le_zero {a : Int32} : a ≤ 0 ↔ a.toInt ≤ 0 :=
  Int32.le_iff_toInt_le

theorem int32_zero_le {a : Int32} : 0 ≤ a ↔ 0 ≤ a.toInt :=
  Int32.le_iff_toInt_le

theorem int32_zero_lt {a : Int32} : 0 < a ↔ 0 < a.toInt :=
  Int32.lt_iff_toInt_lt

-- ================================================================== counters

/-- The answer of a call that got through: what it left. -/
def gotThrough : Option Int32 → Bool
  | some r => 0 ≤ r
  | none => false

/-- How many calls got through. -/
def CasState.taken (s : CasState Int32 Int32) : Nat :=
  s.threads.countP fun pc => gotThrough (pc.bound atomicDecIfPositive)

/-- What was put in. -/
def addedBy (es : List CounterEvent) : Int := (es.map (·.added)).sum

/-- What holds of a counter whose calls are one step each. -/
private structure CounterKept (total : Int)
    (s : AtomicState Int32 Int32) : Prop where
  nonneg : 0 ≤ s.cell.toInt
  sum : s.cell.toInt + s.answers.countP gotThrough = total
  answers : ∀ r, some r ∈ s.answers → -1 ≤ r.toInt

private theorem CounterKept.dec {total : Int} {s : AtomicState Int32 Int32}
    (h : CounterKept total s) (i : Nat) :
    CounterKept total (atomicStep atomicDecIfPositive s (.thread i)) := by
  simp only [atomicStep]
  split
  next hi =>
    obtain ⟨hlt, hval⟩ := List.getElem?_eq_some_iff.1 hi
    obtain ⟨hnonneg, hsum, hanswers⟩ := h
    have hmem {r a : Int32} (hr : some r ∈ s.answers.set i (some a)) :
        some r ∈ s.answers ∨ r = a := by
      rcases List.mem_or_eq_of_mem_set hr with hr | hr
      · exact .inl hr
      · exact .inr (Option.some.inj hr)
    have hless : (s.cell - 1).toInt = s.cell.toInt - 1 :=
      int32_toInt_sub_one (by omega)
    simp only [CasOp.apply, atomicDecIfPositive]
    by_cases hzero : s.cell ≤ 0
    · have hle := int32_le_zero.1 hzero
      simp only [if_pos hzero]
      refine ⟨hnonneg, ?_, fun r hr => ?_⟩
      · have hneg : ¬0 ≤ s.cell - 1 := by
          rw [int32_zero_le, hless]
          omega
        simp only [List.countP_set hlt, hval, gotThrough, hneg,
          decide_false, Bool.false_eq_true, if_false]
        push_cast
        omega
      · rcases hmem hr with hr | rfl
        · exact hanswers r hr
        · omega
    · have hgt : ¬s.cell.toInt ≤ 0 := fun hle => hzero (int32_le_zero.2 hle)
      simp only [if_neg hzero]
      refine ⟨by dsimp only; omega, ?_, fun r hr => ?_⟩
      · have hpos : 0 ≤ s.cell - 1 := by
          rw [int32_zero_le, hless]
          omega
        simp only [List.countP_set hlt, hval, gotThrough, hpos,
          decide_true, if_true, Bool.false_eq_true, if_false]
        push_cast
        omega
      · rcases hmem hr with hr | rfl
        · exact hanswers r hr
        · omega
  · exact h

/-- An addition below the end of `int`. -/
private theorem CounterKept.add {total : Int} {s : AtomicState Int32 Int32}
    (h : CounterKept total s) {i : Int32} (hi : 0 ≤ i.toInt)
    (hfits : total + i.toInt < 2 ^ 31) :
    CounterKept (total + i.toInt) { s with cell := s.cell + i } := by
  obtain ⟨hnonneg, hsum, hanswers⟩ := h
  have hadd : (s.cell + i).toInt = s.cell.toInt + i.toInt :=
    int32_toInt_add (by omega) (by omega)
  exact ⟨by dsimp only; omega, by dsimp only; omega, hanswers⟩

private theorem addedBy_nonneg {es : List CounterEvent}
    (h : ∀ e ∈ es, 0 ≤ e.added) : 0 ≤ addedBy es :=
  List.sum_nonneg fun x hx => by
    obtain ⟨e, he, rfl⟩ := List.mem_map.1 hx
    exact h e he

private theorem CounterKept.run {total : Int} {s : AtomicState Int32 Int32}
    (h : CounterKept total s) {es : List CounterEvent}
    (hes : ∀ e ∈ es, 0 ≤ e.added) (hfits : total + addedBy es < 2 ^ 31) :
    CounterKept (total + addedBy es)
      (runFrom (atomicStep atomicDecIfPositive) s (es.map (·.cas))) := by
  induction es generalizing s total with
  | nil => simpa [addedBy] using h
  | cons e es ih =>
      have he := hes e List.mem_cons_self
      have hrest : ∀ e ∈ es, 0 ≤ e.added :=
        fun e' he' => hes e' (List.mem_cons_of_mem _ he')
      have hnonneg := addedBy_nonneg hrest
      have hsum : total + addedBy (e :: es)
          = total + e.added + addedBy es := by
        rw [addedBy, List.map_cons, List.sum_cons, ← Int.add_assoc]
        rfl
      rw [List.map_cons, runFrom_cons, hsum]
      rw [hsum] at hfits
      refine ih ?_ hrest hfits
      cases e with
      | dec i =>
          rw [CounterEvent.added, Int.add_zero]
          exact h.dec i
      | inc => exact h.add (i := 1) he (by
          have hone : (1 : Int32).toInt = CounterEvent.inc.added := rfl
          omega)
      | add i => exact h.add he (by
          have hsame : i.toInt = (CounterEvent.add i).added := rfl
          omega)

/-- Only updates add. -/
private theorem addedBy_filter (es : List CounterEvent) :
    addedBy (es.filter fun e => e.cas.isUpdate) = addedBy es := by
  induction es with
  | nil => rfl
  | cons e es ih =>
      cases e with
      | dec i => simpa [addedBy, CounterEvent.cas, CasEvent.isUpdate,
          CounterEvent.added] using ih
      | inc | add n => simpa [addedBy, CounterEvent.cas, CasEvent.isUpdate,
          CounterEvent.added] using ih

/-- In every interleaving of any number of calls, increments and
additions that together stay below the end of `int`, the counter never
goes below zero, and it is what was put in less the calls that got
through; the others answer -1. -/
theorem counter_accounts {k : Int32} (hk : 0 ≤ k.toInt) (n : Nat)
    {es : List CounterEvent} (hes : ∀ e ∈ es, 0 ≤ e.added)
    (hfits : k.toInt + addedBy es < 2 ^ 31) :
    let s := counterRun k n es
    0 ≤ s.cell.toInt ∧ s.cell.toInt + s.taken = k.toInt + addedBy es
      ∧ ∀ r, CasPc.done r ∈ s.threads → -1 ≤ r.toInt := by
  obtain ⟨fs, hsub, hupd, hrun⟩ := cas_linearizable atomicDecIfPositive
    { cell := k, threads := List.replicate n .start } (es.map (·.cas))
  obtain ⟨gs, hgs, rfl⟩ := List.sublist_map_iff.1 hsub
  have hsame : gs.filter (fun e => e.cas.isUpdate)
      = es.filter (fun e => e.cas.isUpdate) := by
    apply (hgs.filter _).eq_of_length
    have hlen := congrArg List.length hupd
    rw [List.filter_map, List.filter_map, List.length_map,
      List.length_map] at hlen
    exact hlen
  have hadded : addedBy gs = addedBy es := by
    rw [← addedBy_filter gs, hsame, addedBy_filter]
  have hstart : CounterKept k.toInt
      (CasState.view atomicDecIfPositive
        { cell := k, threads := List.replicate n .start }) := by
    refine ⟨hk, ?_, fun r hr => ?_⟩
    · simp [CasState.view, CasPc.bound, List.countP_replicate, gotThrough]
    · simp [CasState.view, CasPc.bound] at hr
  have hend := hstart.run (fun e he => hes e (hgs.subset he))
    (by rw [hadded]; exact hfits)
  rw [← hrun, hadded] at hend
  refine ⟨hend.nonneg, ?_, fun r hr => hend.answers r ?_⟩
  · rw [← hend.sum, CasState.view, List.countP_map]
    rfl
  · exact List.mem_map.2 ⟨_, hr, rfl⟩

/-- Up to the end of `int`: two calls for one, an increment, and what is
left of the range. -/
theorem sample_counter_accounts :
    let s := counterRun 1 2 [.dec 0, .dec 1, .dec 0, .dec 1, .inc, .dec 1,
      .add 2147483645, .dec 1, .dec 1]
    0 ≤ s.cell.toInt ∧ s.cell.toInt + s.taken = 2147483647
      ∧ ∀ r, CasPc.done r ∈ s.threads → -1 ≤ r.toInt :=
  counter_accounts (by decide) 2 (by decide) (by decide)

private theorem threadSteps_cas (i : Nat) (es : List CounterEvent) :
    threadSteps i (es.map (·.cas)) = es.count (.dec i) := by
  induction es with
  | nil => rfl
  | cons e es ih =>
      rw [List.map_cons, List.count_cons, ← ih]
      cases e with
      | dec j =>
          have hsame : (CounterEvent.dec j == .dec i) = (j == i) := by
            simp [BEq.beq]
          rw [hsame, Nat.add_comm]
          simp only [CounterEvent.cas, threadSteps, beq_iff_eq]
      | inc | add n => rfl

/-- Whatever the others do: a call that is given two steps, and one more
for every time the counter was changed, has returned. -/
theorem counter_lock_free {k : Int32} {n i : Nat}
    {es : List CounterEvent} (hi : i < n)
    (h : 2 + cellChanges atomicDecIfPositive
        { cell := k, threads := List.replicate n .start } (es.map (·.cas))
      ≤ es.count (.dec i)) :
    ∃ r, (counterRun k n es).threads[i]? = some (.done r) := by
  have hstart : (List.replicate n (CasPc.start : CasPc Int32 Int32))[i]?
      = some .start := by simp [hi]
  refine cas_lock_free atomicDecIfPositive hstart ?_
  rw [threadSteps_cas]
  exact h

/-- Two calls for one, and an increment in between. -/
theorem sample_counter_lock_free :
    ∃ r, (counterRun 1 2 [.dec 0, .dec 1, .dec 0, .dec 1, .inc, .dec 1,
      .dec 1, .dec 1]).threads[1]? = some (.done r) :=
  counter_lock_free (by decide) (by decide)

-- ================================================================ semaphore

/-- What holds of a semaphore: its permits are accounted for, and as many
threads are awake as there are permits, unless none sleeps. -/
structure SemHolds (val : Int) (s : Semaphore) : Prop where
  sum : s.count.toInt + s.taken = val + s.given
  nonneg : 0 ≤ s.count.toInt
  woken : .asleep ∈ s.waiters → s.count.toInt ≤ s.waiters.count .awake

/-- Waking one of them. -/
private theorem wakeNth_counts {ts : List SemPc} {k : Nat}
    (h : k < ts.count .asleep) :
    (wakeNth k ts).count .awake = ts.count .awake + 1 := by
  induction ts generalizing k with
  | nil => cases h
  | cons t ts ih =>
      cases t with
      | asleep =>
          cases k with
          | zero => simp [wakeNth]
          | succ k =>
              have hk : k < ts.count .asleep := by
                simpa [List.count_cons] using h
              simpa [wakeNth, List.count_cons] using ih hk
      | awake =>
          have hk : k < ts.count .asleep := by
            simpa [List.count_cons] using h
          simpa [wakeNth, List.count_cons] using ih hk

/-- Nobody falls asleep by it. -/
private theorem mem_wakeNth {ts : List SemPc} {k : Nat}
    (h : .asleep ∈ wakeNth k ts) : .asleep ∈ ts := by
  induction ts generalizing k with
  | nil => cases h
  | cons t ts ih =>
      cases t with
      | asleep => exact List.mem_cons_self
      | awake =>
          cases k with
          | zero | succ k =>
              simp only [wakeNth, List.mem_cons, reduceCtorEq,
                false_or] at h
              exact List.mem_cons_of_mem _ (ih h)

/-- A permit is taken; if a thread came awake for it, it is gone. -/
private theorem take_holds {val : Int} {s : Semaphore}
    (hsum : s.count.toInt + s.taken = val + s.given)
    (hpos : 0 < s.count.toInt)
    (hwoken : .asleep ∈ s.waiters →
      s.count.toInt ≤ s.waiters.count .awake + 1) :
    SemHolds val s.take := by
  have hless : s.take.count.toInt = s.count.toInt - 1 :=
    int32_toInt_sub_one (by omega)
  have htaken : s.take.taken = s.taken + 1 := rfl
  have hgiven : s.take.given = s.given := rfl
  have hwaiters : s.take.waiters = s.waiters := rfl
  refine ⟨by omega, by omega, fun hin => ?_⟩
  have hle := hwoken hin
  rw [hwaiters]
  omega

/-- One section, below the end of `int`. -/
theorem semStep_holds {val : Int} {s : Semaphore} (h : SemHolds val s)
    {e : SemEvent}
    (hfits : (if e.isUp then s.count.toInt + 1 else 0) < 2 ^ 31) :
    SemHolds val (semStep s e) := by
  obtain ⟨hsum, hnonneg, hwoken⟩ := h
  have hbarge (hpos : 0 < s.count.toInt) : SemHolds val s.take :=
    take_holds hsum hpos fun hin => by
      have hle := hwoken hin
      omega
  cases e with
  | down =>
      simp only [semStep, int32_le_zero]
      split
      · exact ⟨hsum, hnonneg, fun _ => by dsimp only; omega⟩
      next hpos => exact hbarge (by omega)
  | tryDown =>
      simp only [semStep, int32_zero_lt]
      split
      next hpos => exact hbarge hpos
      · exact ⟨hsum, hnonneg, hwoken⟩
  | resume i =>
      simp only [semStep, int32_le_zero]
      split
      next hi =>
        obtain ⟨hlt, hval⟩ := List.getElem?_eq_some_iff.1 hi
        split
        · exact ⟨hsum, hnonneg, fun _ => by dsimp only; omega⟩
        next hpos =>
          refine take_holds hsum (by dsimp only; omega) fun hin => ?_
          have hle := hwoken (List.mem_of_mem_eraseIdx hin)
          have hperm := (List.getElem_cons_eraseIdx_perm hlt).count_eq
            SemPc.awake
          rw [hval, List.count_cons_self] at hperm
          dsimp only
          omega
      · exact ⟨hsum, hnonneg, hwoken⟩
  | up k =>
      have hmore : (s.count + 1).toInt = s.count.toInt + 1 :=
        int32_toInt_add (b := 1)
          (by rw [show (1 : Int32).toInt = 1 from rfl]; omega) hfits
      refine ⟨?_, ?_, fun hin => ?_⟩
      · simp only [semStep, hmore]
        push_cast
        omega
      · simp only [semStep, hmore]
        omega
      · have hthere : SemPc.asleep ∈ s.waiters := mem_wakeNth hin
        have hpos : 0 < s.waiters.count .asleep := List.count_pos_iff.2 hthere
        have hle := hwoken hthere
        have hcount := wakeNth_counts (Nat.mod_lt k hpos)
        simp only [semStep, wakeOne, hcount, hmore]
        omega

/-- How many permits a step gives. -/
private theorem semStep_given (s : Semaphore) (e : SemEvent) :
    (semStep s e).given = s.given + if e.isUp then 1 else 0 := by
  cases e with
  | down => simp only [semStep]; split <;> rfl
  | tryDown => simp only [semStep]; split <;> rfl
  | resume i =>
      simp only [semStep]
      split
      · split <;> rfl
      · rfl
  | up k => rfl

/-- A run that gives no more permits than fit an `int`. -/
theorem SemHolds.run {val : Int} {s : Semaphore} (h : SemHolds val s)
    {es : List SemEvent}
    (hfits : val + s.given + es.countP (·.isUp) < 2 ^ 31) :
    SemHolds val (runFrom semStep s es) := by
  induction es generalizing s with
  | nil => exact h
  | cons e es ih =>
      have hgiven := semStep_given s e
      simp only [List.countP_cons] at hfits
      have hsum := h.sum
      refine ih (semStep_holds h ?_) ?_
      · cases hup : e.isUp with
        | false =>
            rw [if_neg Bool.false_ne_true]
            decide
        | true =>
            rw [hup, if_pos rfl] at hfits
            rw [if_pos rfl]
            push_cast at hfits
            omega
      · rw [hgiven]
        push_cast at hfits ⊢
        omega

/-- In every run of any number of threads that gives no more permits than
fit an `int`: the permits are accounted for, none is handed out that is
not there, and while a thread sleeps there are as many awake on their way
as there are permits left. So where one sleeps and nobody is on the way,
there is none. -/
theorem semaphore_accounts {val : Int32} (hval : 0 ≤ val.toInt)
    {es : List SemEvent}
    (hfits : val.toInt + es.countP (·.isUp) < 2 ^ 31) :
    let s := runFrom semStep (semaInit val) es
    s.count.toInt + s.taken = val.toInt + s.given ∧ 0 ≤ s.count.toInt
      ∧ (.asleep ∈ s.waiters →
        s.count.toInt ≤ s.waiters.count .awake) := by
  have hstart : SemHolds val.toInt (semaInit val) := by
    refine ⟨rfl, hval, fun hin => ?_⟩
    cases hin
  have hzero : val.toInt + (semaInit val).given + es.countP (·.isUp)
      < 2 ^ 31 := by
    rw [show (semaInit val).given = 0 from rfl]
    push_cast
    omega
  obtain ⟨hsum, hnonneg, hwoken⟩ := hstart.run hzero
  exact ⟨hsum, hnonneg, hwoken⟩

/-- Two threads sleep; one is woken, and a third call takes its permit. -/
theorem sample_semaphore_accounts :
    let s := runFrom semStep (semaInit 0)
      [.down, .down, .up 1, .tryDown, .resume 1]
    s.count.toInt + s.taken = 0 + s.given ∧ 0 ≤ s.count.toInt
      ∧ (.asleep ∈ s.waiters → s.count.toInt ≤ s.waiters.count .awake) :=
  semaphore_accounts (by decide) (by decide)

-- ===================================================================== polls

/-- `time_after`, for times less than half the range apart. -/
theorem timeAfter_iff {a b : UInt64} (ha : a.toNat < 2 ^ 63)
    (hb : b.toNat < 2 ^ 63) : timeAfter a b = true ↔ b.toNat < a.toNat := by
  have hsub : (b - a).toNat = (2 ^ 64 - a.toNat + b.toNat) % 2 ^ 64 :=
    UInt64.toNat_sub ..
  have hneg : (b - a).toInt64 < 0 ↔ 2 ^ 64 ≤ 2 * (b - a).toNat := by
    rw [Int64.lt_iff_toInt_lt]
    exact BitVec.toInt_neg_iff
  unfold timeAfter
  rw [decide_eq_true_iff, hneg, hsub]
  omega

/-- `usecs_to_jiffies` rounds up, after an addition that wraps. -/
theorem usecsToJiffies_toNat (usecs : UInt32) :
    (usecsToJiffies usecs).toNat = (usecs.toNat + 999) % 2 ^ 32 / 1000 := by
  have hadd : (usecs + 999).toNat = (usecs.toNat + 999) % 2 ^ 32 :=
    UInt32.toNat_add ..
  rw [usecsToJiffies, UInt32.toNat_toUInt64, UInt32.toNat_div, hadd]
  rfl

/-- The test of the clock, on milliseconds. -/
theorem poll_timeAfter_iff (usecs : UInt32) (t0 t : UInt64) :
    timeAfter (getJiffies t) (getJiffies t0 + usecsToJiffies usecs) = true
      ↔ t0.toNat / 1000000 + (usecs.toNat + 999) % 2 ^ 32 / 1000
        < t.toNat / 1000000 := by
  have ht := UInt64.toNat_lt t
  have ht0 := UInt64.toNat_lt t0
  have hj : (getJiffies t).toNat = t.toNat / 1000000 := UInt64.toNat_div ..
  have hj0 : (getJiffies t0).toNat = t0.toNat / 1000000 :=
    UInt64.toNat_div ..
  have hsum : (getJiffies t0 + usecsToJiffies usecs).toNat
      = t0.toNat / 1000000 + (usecs.toNat + 999) % 2 ^ 32 / 1000 := by
    rw [UInt64.toNat_add, hj0, usecsToJiffies_toNat]
    omega
  rw [timeAfter_iff (by omega) (by omega), hsum, hj]

/-- It passes only after the timeout, where that does not wrap. -/
theorem poll_timeAfter_late {usecs : UInt32} {t0 t : UInt64}
    (h : usecs.toNat + 999 < 2 ^ 32)
    (hafter : timeAfter (getJiffies t)
      (getJiffies t0 + usecsToJiffies usecs) = true) :
    usecs.toNat * 1000 < t.toNat - t0.toNat := by
  rw [poll_timeAfter_iff] at hafter
  omega

/-- Two milliseconds past the timeout it does, wrapped or not. -/
theorem poll_timeAfter_of_late {usecs : UInt32} {t0 t : UInt64}
    (h : t0.toNat + usecs.toNat * 1000 + 2000000 ≤ t.toNat) :
    timeAfter (getJiffies t) (getJiffies t0 + usecsToJiffies usecs)
      = true := by
  rw [poll_timeAfter_iff]
  omega

section Poll

variable {α : Type} {cond : α → Bool} {usecs : UInt32} {t0 start : UInt64}
  {val : Nat → α} {nsecs : Nat → UInt64}

/-- Where the loop ends, from read `k` on: at the first read that meets
the condition, or one read after the clock has run out. -/
private theorem pollLoop_sound {fuel k j : Nat} {ret : Int}
    (h : pollLoop cond usecs start val nsecs fuel k = some (ret, j)) :
    (∀ i, k ≤ i → i < j → cond (val i) = false)
      ∧ ((ret = 0 ∧ cond (val j) = true)
        ∨ (ret = etimedout ∧ cond (val j) = false ∧ usecs ≠ 0
          ∧ ∃ i, j = i + 1 ∧ timeAfter (getJiffies (nsecs i))
            (start + usecsToJiffies usecs) = true)) := by
  induction fuel generalizing k with
  | zero => cases h
  | succ fuel ih =>
      rw [pollLoop] at h
      split at h
      next hcond =>
        cases h
        exact ⟨fun i hk hj => by omega, .inl ⟨rfl, hcond⟩⟩
      next hcond =>
        have hk : cond (val k) = false := by simpa using hcond
        split at h
        next hlate =>
          have hone : ∀ i, k ≤ i → i < k + 1 → cond (val i) = false :=
            fun i hge hlt => by
              rw [show i = k by omega]
              exact hk
          split at h
          next hnext =>
            cases h
            exact ⟨hone, .inl ⟨rfl, hnext⟩⟩
          next hnext =>
            cases h
            exact ⟨hone, .inr ⟨rfl, by simpa using hnext, hlate.1, k, rfl,
              hlate.2⟩⟩
        · obtain ⟨hbefore, hend⟩ := ih h
          refine ⟨fun i hge hlt => ?_, hend⟩
          by_cases hi : i = k
          · rw [hi]
            exact hk
          · exact hbefore i (by omega) hlt

/-- The loop does not go past a read that meets the condition, nor two
past a look at the clock that finds it run out. -/
private theorem pollLoop_ends {fuel k n : Nat} (hk : k ≤ n)
    (hfuel : n < fuel + k)
    (hend : cond (val n) = true
      ∨ (usecs ≠ 0 ∧ timeAfter (getJiffies (nsecs n))
        (start + usecsToJiffies usecs) = true)) :
    ∃ ret j, pollLoop cond usecs start val nsecs fuel k = some (ret, j)
      ∧ j ≤ n + 1 := by
  induction fuel generalizing k with
  | zero => omega
  | succ fuel ih =>
      rw [pollLoop]
      split
      · exact ⟨0, k, rfl, by omega⟩
      next hcond =>
        split
        · split
          · exact ⟨0, k + 1, rfl, by omega⟩
          · exact ⟨etimedout, k + 1, rfl, by omega⟩
        next hlate =>
          have hne : k ≠ n := by
            intro heq
            subst heq
            exact hend.elim hcond hlate
          exact ih (by omega) (by omega)

/-- `read_poll_timeout` returns zero for the first read that meets the
condition. Else it returns `-ETIMEDOUT`, after one more read that does
not: never for a timeout of zero, and never before the timeout is over. -/
theorem read_poll_timeout_sound {fuel j : Nat} {ret : Int}
    (hus : usecs.toNat + 999 < 2 ^ 32)
    (h : readPollTimeout cond usecs t0 val nsecs fuel = some (ret, j)) :
    (∀ i < j, cond (val i) = false)
      ∧ ((ret = 0 ∧ cond (val j) = true)
        ∨ (ret = etimedout ∧ cond (val j) = false ∧ usecs ≠ 0
          ∧ ∃ i, j = i + 1
            ∧ usecs.toNat * 1000 < (nsecs i).toNat - t0.toNat)) := by
  obtain ⟨hbefore, hend⟩ := pollLoop_sound h
  refine ⟨fun i hi => hbefore i (Nat.zero_le i) hi, ?_⟩
  rcases hend with hzero | ⟨hret, hcond, hne, i, hj, hlate⟩
  · exact .inl hzero
  · exact .inr ⟨hret, hcond, hne, i, hj, poll_timeAfter_late hus hlate⟩

/-- And it returns: at a read that meets the condition, or at the latest
one read after a look at the clock two milliseconds past the timeout. -/
theorem read_poll_timeout_ends {fuel n : Nat} (hfuel : n < fuel)
    (hend : cond (val n) = true
      ∨ (usecs ≠ 0
        ∧ t0.toNat + usecs.toNat * 1000 + 2000000 ≤ (nsecs n).toNat)) :
    ∃ ret j, readPollTimeout cond usecs t0 val nsecs fuel = some (ret, j)
      ∧ j ≤ n + 1 :=
  pollLoop_ends (Nat.zero_le n) hfuel
    (hend.imp_right fun h => ⟨h.1, poll_timeAfter_of_late h.2⟩)

end Poll

/-- A bit that is never set, and a clock that gains a millisecond at
every look. -/
theorem sample_read_poll_timeout_sound :
    (∀ i < 12, id ((fun _ => false) i) = false)
      ∧ ((etimedout = 0 ∧ id ((fun _ => false) 12) = true)
        ∨ (etimedout = etimedout ∧ id ((fun _ => false) 12) = false
          ∧ (10000 : UInt32) ≠ 0
          ∧ ∃ i, 12 = i + 1 ∧ (10000 : UInt32).toNat * 1000
            < ((fun n => UInt64.ofNat (n * 1000000)) i).toNat
              - (0 : UInt64).toNat)) := by
  have hrun : readPollTimeout id 10000 0 (fun _ => false)
      (fun n => UInt64.ofNat (n * 1000000)) 20 = some (etimedout, 12) := by
    decide +kernel
  exact read_poll_timeout_sound (by decide) hrun

theorem sample_read_poll_timeout_ends :
    ∃ ret j, readPollTimeout id 10000 0 (fun _ => false)
        (fun n => UInt64.ofNat (n * 1000000)) 20 = some (ret, j)
      ∧ j ≤ 12 + 1 :=
  read_poll_timeout_ends (by decide) (.inr (by decide))

end Rtw88
