/-
Compare-and-swap loops: any number of threads that each load a cell and
then try to replace what they loaded, and others that change it at once.

An operation is what a loop computes from one look at the cell: it quits,
or it says what the cell becomes and what it answers. The loop is
linearizable (`cas_linearizable`): a run of it is a run of some of the
same events in the same order, in which each thread's operation happens
in one step. The step that counts is the thread's own: its last load, if
it quits, else the swap that succeeds.

And it is lock-free (`cas_lock_free`): a thread that is given more steps
than the cell was changed, and two, is through. A swap fails only where
somebody else's succeeded.
-/
import Rtw88.Lib.Trace

namespace Rtw88

-- =================================================================== threads

/-- What a loop does with what it loaded. -/
structure CasOp (α ρ : Type _) where
  quit : α → Option ρ
  next : α → α
  answer : α → ρ

/-- Where a thread stands: before its first load, with what it loaded
last, or back with its answer. -/
inductive CasPc (α ρ : Type _)
  | start
  | loaded (c : α)
  | done (r : ρ)
  deriving DecidableEq

/-- The cell, and the threads at it. -/
structure CasState (α ρ : Type _) where
  cell : α
  threads : List (CasPc α ρ)

/-- A thread goes on, or the cell is changed by somebody else. -/
inductive CasEvent (α : Type _)
  | thread (i : Nat)
  | update (f : α → α)

/-- The event is somebody else's. -/
def CasEvent.isUpdate {α : Type _} : CasEvent α → Bool
  | .thread _ => false
  | .update _ => true

variable {α ρ : Type _} [DecidableEq α] (op : CasOp α ρ)

/-- Thread `i` goes on: it loads, or it looks at what it loaded and quits
or swaps. A swap that fails loads. -/
def CasState.stepThread (i : Nat) (s : CasState α ρ) : CasState α ρ :=
  match s.threads[i]? with
  | some .start => { s with threads := s.threads.set i (.loaded s.cell) }
  | some (.loaded c) =>
      match op.quit c with
      | some r => { s with threads := s.threads.set i (.done r) }
      | none =>
          if s.cell = c then
            { cell := op.next c
              threads := s.threads.set i (.done (op.answer c)) }
          else { s with threads := s.threads.set i (.loaded s.cell) }
  | some (.done _) => s
  | none => s

/-- One event. -/
def casStep (s : CasState α ρ) : CasEvent α → CasState α ρ
  | .thread i => s.stepThread op i
  | .update f => { s with cell := f s.cell }

-- ==================================================================== atomic

/-- The operation in one step: its answer, and the cell behind it. -/
def CasOp.apply (c : α) : ρ × α :=
  match op.quit c with
  | some r => (r, c)
  | none => (op.answer c, op.next c)

/-- The cell, and the answers that were given. -/
structure AtomicState (α ρ : Type _) where
  cell : α
  answers : List (Option ρ)

/-- One event, where every operation is one step. -/
def atomicStep (s : AtomicState α ρ) : CasEvent α → AtomicState α ρ
  | .thread i =>
      match s.answers[i]? with
      | some none =>
          { cell := (op.apply s.cell).2
            answers := s.answers.set i (some (op.apply s.cell).1) }
      | _ => s
  | .update f => { s with cell := f s.cell }

/-- The answer a thread is bound to give. -/
def CasPc.bound : CasPc α ρ → Option ρ
  | .start => none
  | .loaded c => op.quit c
  | .done r => some r

/-- A state as the atomic one sees it. -/
def CasState.view (s : CasState α ρ) : AtomicState α ρ :=
  { cell := s.cell, answers := s.threads.map (·.bound op) }

-- ============================================================ linearizable

omit [DecidableEq α] in
/-- A thread that moves on, as the atomic state sees it. -/
private theorem view_set (s : CasState α ρ) (c : α) (i : Nat)
    (pc : CasPc α ρ) :
    CasState.view op { cell := c, threads := s.threads.set i pc }
      = { cell := c, answers := (s.view op).answers.set i (pc.bound op) } := by
  simp only [CasState.view, List.map_set]

/-- A place that stays what it is. -/
private theorem set_same {β : Type _} {l : List β} {i : Nat} {b : β}
    (h : l[i]? = some b) : l.set i b = l := by
  obtain ⟨hi, hb⟩ := List.getElem?_eq_some_iff.1 h
  rw [← hb]
  exact List.set_getElem_self hi

omit [DecidableEq α] in
/-- A load counts as the whole operation if the thread quits on it, and
as nothing if it does not. -/
private theorem view_load {s : CasState α ρ} {i : Nat}
    (h : (s.view op).answers[i]? = some none) :
    let s' := { s with threads := s.threads.set i (.loaded s.cell) }
    s'.view op = s.view op
      ∨ s'.view op = atomicStep op (s.view op) (.thread i) := by
  have hcell : (s.view op).cell = s.cell := rfl
  dsimp only
  rw [view_set]
  cases hquit : op.quit s.cell with
  | none =>
      left
      rw [CasPc.bound, hquit, set_same h]
      rfl
  | some r =>
      right
      simp only [atomicStep, h, CasOp.apply, hcell, hquit, CasPc.bound]

/-- A step is the whole operation at once, or nothing. -/
theorem casStep_view (s : CasState α ρ) (e : CasEvent α) :
    (casStep op s e).view op = atomicStep op (s.view op) e
      ∨ (∃ i, e = .thread i) ∧ (casStep op s e).view op = s.view op := by
  cases e with
  | update f => exact .inl rfl
  | thread i =>
      simp only [casStep, CasState.stepThread]
      split
      next hpc =>
        have hnone : (s.view op).answers[i]? = some none := by
          simp [CasState.view, hpc, CasPc.bound]
        rcases view_load op hnone with h | h
        · exact .inr ⟨⟨i, rfl⟩, h⟩
        · exact .inl h
      next c hpc =>
        have hbound : (s.view op).answers[i]? = some (op.quit c) := by
          simp [CasState.view, hpc, CasPc.bound]
        split
        next r hquit =>
          right
          refine ⟨⟨i, rfl⟩, ?_⟩
          rw [hquit] at hbound
          rw [view_set, CasPc.bound, set_same hbound]
          rfl
        next hquit =>
          rw [hquit] at hbound
          split
          next hcell =>
            left
            have hcell' : (s.view op).cell = c := hcell
            rw [view_set]
            simp only [atomicStep, hbound, CasOp.apply, hcell', hquit,
              CasPc.bound]
          · rcases view_load op hbound with h | h
            · exact .inr ⟨⟨i, rfl⟩, h⟩
            · exact .inl h
      · exact .inr ⟨⟨i, rfl⟩, rfl⟩
      · exact .inr ⟨⟨i, rfl⟩, rfl⟩

/-- Every run is one of some of its events, in their order and with all
the updates of others, where each operation is one step. -/
theorem cas_linearizable (s : CasState α ρ) (es : List (CasEvent α)) :
    ∃ fs : List (CasEvent α), fs.Sublist es
      ∧ fs.filter CasEvent.isUpdate = es.filter CasEvent.isUpdate
      ∧ (runFrom (casStep op) s es).view op
        = runFrom (atomicStep op) (s.view op) fs := by
  induction es generalizing s with
  | nil => exact ⟨[], List.Sublist.refl _, rfl, rfl⟩
  | cons e es ih =>
      obtain ⟨fs, hsub, hupd, hrun⟩ := ih (casStep op s e)
      rcases casStep_view op s e with h | ⟨⟨i, rfl⟩, h⟩
      · refine ⟨e :: fs, hsub.cons_cons e, ?_, ?_⟩
        · rw [List.filter_cons, List.filter_cons, hupd]
        · rw [runFrom_cons, runFrom_cons, hrun, h]
      · exact ⟨fs, hsub.cons _, hupd, by rw [runFrom_cons, hrun, h]⟩

-- ================================================================ lock-free

/-- How often a run changes the cell. -/
def cellChanges (s : CasState α ρ) : List (CasEvent α) → Nat
  | [] => 0
  | e :: es =>
      (if (casStep op s e).cell = s.cell then 0 else 1)
        + cellChanges (casStep op s e) es

/-- How many steps a run gives thread `i`. -/
def threadSteps (i : Nat) : List (CasEvent α) → Nat
  | [] => 0
  | .thread j :: es => (if j = i then 1 else 0) + threadSteps i es
  | .update _ :: es => threadSteps i es

/-- The steps a thread still needs at most, if nobody changes the cell. -/
def CasPc.left (cell : α) : CasPc α ρ → Nat
  | .start => 2
  | .loaded c => if cell = c then 1 else 2
  | .done _ => 0

/-- A thread that is through stays so. -/
theorem casStep_done {s : CasState α ρ} {i : Nat} {r : ρ}
    (h : s.threads[i]? = some (.done r)) (e : CasEvent α) :
    (casStep op s e).threads[i]? = some (.done r) := by
  cases e with
  | update f => exact h
  | thread j =>
      by_cases hj : j = i
      · subst hj
        simp only [casStep, CasState.stepThread, h]
      · simp only [casStep, CasState.stepThread]
        split
        · rw [List.getElem?_set_ne hj, h]
        · split
          · rw [List.getElem?_set_ne hj, h]
          · split <;> rw [List.getElem?_set_ne hj, h]
        · exact h
        · exact h

theorem runFrom_done {s : CasState α ρ} {i : Nat} {r : ρ}
    (h : s.threads[i]? = some (.done r)) (es : List (CasEvent α)) :
    (runFrom (casStep op) s es).threads[i]? = some (.done r) :=
  runFrom_inv
    (I := fun s : CasState α ρ => s.threads[i]? = some (CasPc.done r))
    (fun _ e h => casStep_done op h e) h es

/-- A step of another leaves a thread where it is, and costs it a step at
most, if the cell was changed. -/
private theorem step_left_other {s : CasState α ρ} {i : Nat}
    {pc : CasPc α ρ} (h : s.threads[i]? = some pc) {e : CasEvent α}
    (he : e ≠ .thread i) :
    (casStep op s e).threads[i]? = some pc
      ∧ pc.left (casStep op s e).cell
        ≤ pc.left s.cell + if (casStep op s e).cell = s.cell then 0 else 1 := by
  refine ⟨?_, ?_⟩
  · cases e with
    | update f => exact h
    | thread j =>
        have hj : j ≠ i := fun hj => he (hj ▸ rfl)
        simp only [casStep, CasState.stepThread]
        split
        · rw [List.getElem?_set_ne hj, h]
        · split
          · rw [List.getElem?_set_ne hj, h]
          · split <;> rw [List.getElem?_set_ne hj, h]
        · exact h
        · exact h
  · split
    next hsame => exact hsame ▸ Nat.le_refl _
    · cases pc with
      | start => exact Nat.le_add_right ..
      | loaded c =>
          simp only [CasPc.left]
          split <;> split <;> omega
      | done r => exact Nat.zero_le _

/-- A thread's own step brings it nearer to its end. -/
private theorem step_left_own {s : CasState α ρ} {i : Nat} {pc : CasPc α ρ}
    (h : s.threads[i]? = some pc) :
    ∃ pc', (casStep op s (.thread i)).threads[i]? = some pc'
      ∧ pc'.left (casStep op s (.thread i)).cell ≤ pc.left s.cell - 1 := by
  obtain ⟨hi, -⟩ := List.getElem?_eq_some_iff.1 h
  have hput (pc' : CasPc α ρ) :
      (s.threads.set i pc')[i]? = some pc' := List.getElem?_set_self hi
  simp only [casStep, CasState.stepThread, h]
  cases pc with
  | start => exact ⟨_, hput _, by simp [CasPc.left]⟩
  | loaded c =>
      dsimp only
      split
      · exact ⟨_, hput _, Nat.zero_le _⟩
      · split
        · exact ⟨_, hput _, Nat.zero_le _⟩
        next hcell =>
          refine ⟨_, hput _, ?_⟩
          simp only [CasPc.left, if_true, if_neg hcell]
          omega
  | done r => exact ⟨_, h, Nat.zero_le _⟩

/-- A thread is through once it was given as many steps as it needed and
the cell was changed. -/
theorem cas_lock_free {s : CasState α ρ} {i : Nat} {pc : CasPc α ρ}
    (hpc : s.threads[i]? = some pc) {es : List (CasEvent α)}
    (h : pc.left s.cell + cellChanges op s es ≤ threadSteps i es) :
    ∃ r, (runFrom (casStep op) s es).threads[i]? = some (.done r) := by
  induction es generalizing s pc with
  | nil =>
      simp only [cellChanges, threadSteps] at h
      cases pc with
      | start => simp [CasPc.left] at h
      | loaded c =>
          simp only [CasPc.left] at h
          split at h <;> omega
      | done r => exact ⟨r, hpc⟩
  | cons e es ih =>
      rw [runFrom_cons]
      by_cases hdone : ∃ r, pc = .done r
      · obtain ⟨r, rfl⟩ := hdone
        exact ⟨r, runFrom_done op (casStep_done op hpc e) es⟩
      · have hpos : 0 < pc.left s.cell := by
          cases pc with
          | start => simp [CasPc.left]
          | loaded c =>
              simp only [CasPc.left]
              split <;> omega
          | done r => exact absurd ⟨r, rfl⟩ hdone
        by_cases he : e = .thread i
        · subst he
          obtain ⟨pc', hpc', hleft⟩ := step_left_own op hpc
          refine ih hpc' ?_
          simp only [cellChanges, threadSteps, if_true] at h
          omega
        · obtain ⟨hpc', hleft⟩ := step_left_other op hpc he
          refine ih hpc' ?_
          have hsteps : threadSteps i (e :: es) = threadSteps i es := by
            cases e with
            | update f => rfl
            | thread j =>
                have hj : j ≠ i := fun hj => he (hj ▸ rfl)
                simp only [threadSteps, if_neg hj, Nat.zero_add]
          rw [hsteps, cellChanges] at h
          omega

end Rtw88
