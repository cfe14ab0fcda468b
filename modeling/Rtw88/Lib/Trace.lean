/-
Deterministic systems driven by an environment: a step function
`σ → ε → σ` over states `σ` and events `ε`, and what holds along every
finite run of it.

The environment's choices (which event comes next, what an allocation
or a driver call answers) are all inside the event, so a run is a list
of events and "every interleaving" is "every list".

- `runFrom step s es`: the state after the events.
- `Along step C s es`: every event of the run meets `C` in the state it
  is taken in. The same predicate serves as a hypothesis on a run
  ("every step meets the condition") and as a conclusion about it.
- `along_of_inv`: the rule that joins the two. An invariant that holds
  initially, that every step under `C` preserves, and that yields `P`
  at each such step, gives `P` along the run.
- `along_iff_of_inv`, `along_map`: two conditions that an invariant makes
  equivalent, and a condition read through a simulation.
- `runFrom_reaches`: the variant rule. What no event raises and some
  events lower has run out once enough of those have come.
-/
import Mathlib.Logic.Basic

namespace Rtw88

variable {σ ε : Type _}

-- ================================================================ runs

/-- The state a list of events leads to. -/
def runFrom (step : σ → ε → σ) (s : σ) (es : List ε) : σ :=
  es.foldl step s

@[simp] theorem runFrom_nil (step : σ → ε → σ) (s : σ) :
    runFrom step s [] = s := rfl

@[simp] theorem runFrom_cons (step : σ → ε → σ) (s : σ) (e : ε)
    (es : List ε) :
    runFrom step s (e :: es) = runFrom step (step s e) es := rfl

theorem runFrom_append (step : σ → ε → σ) (s : σ) (es fs : List ε) :
    runFrom step s (es ++ fs) = runFrom step (runFrom step s es) fs := by
  simp [runFrom]

/-- An invariant of every step is an invariant of every run. -/
theorem runFrom_inv {step : σ → ε → σ} {I : σ → Prop}
    (hstep : ∀ s e, I s → I (step s e)) {s : σ} (h : I s)
    (es : List ε) : I (runFrom step s es) := by
  induction es generalizing s with
  | nil => exact h
  | cons e es ih => exact ih (hstep s e h)

/-- The variant rule: until `P` holds, no event raises `m`, and those
that help lower it; so `P` holds at the latest when more of them have
come than `m` was at the start. -/
theorem runFrom_reaches {step : σ → ε → σ} {I P : σ → Prop} {m : σ → Nat}
    {helps : ε → Bool}
    (hstep : ∀ s e, I s → ¬P s → P (step s e)
      ∨ I (step s e) ∧ m (step s e) + (if helps e then 1 else 0) ≤ m s)
    {s : σ} (h : I s) {es : List ε} (hm : m s < es.countP helps) :
    ∃ fs, fs <+: es ∧ P (runFrom step s fs) := by
  induction es generalizing s with
  | nil => exact absurd hm (Nat.not_lt_zero _)
  | cons e es ih =>
      by_cases hp : P s
      · exact ⟨[], List.nil_prefix, hp⟩
      · rcases hstep s e h hp with hp' | ⟨hinv, hle⟩
        · exact ⟨[e], by simp, hp'⟩
        · rw [List.countP_cons] at hm
          obtain ⟨fs, hfs, hreach⟩ := ih hinv (by omega)
          exact ⟨e :: fs, List.cons_prefix_cons.2 ⟨rfl, hfs⟩, hreach⟩

-- ======================================================= along a run

/-- Every event of the run meets `C` in the state it is taken in. -/
def Along (step : σ → ε → σ) (C : σ → ε → Prop) : σ → List ε → Prop
  | _, [] => True
  | s, e :: es => C s e ∧ Along step C (step s e) es

instance Along.decidable (step : σ → ε → σ) (C : σ → ε → Prop)
    [∀ s e, Decidable (C s e)] :
    ∀ (s : σ) (es : List ε), Decidable (Along step C s es)
  | _, [] => isTrue trivial
  | s, e :: es =>
      have := Along.decidable step C (step s e) es
      inferInstanceAs (Decidable (C s e ∧ Along step C (step s e) es))

/-- A condition that every step meets holds along every run. -/
theorem Along.of_forall {step : σ → ε → σ} {C : σ → ε → Prop}
    (h : ∀ s e, C s e) (s : σ) (es : List ε) : Along step C s es := by
  induction es generalizing s with
  | nil => trivial
  | cons e es ih => exact ⟨h s e, ih _⟩

/-- A weaker condition holds along the same run. -/
theorem Along.mono {step : σ → ε → σ} {C D : σ → ε → Prop}
    (h : ∀ s e, C s e → D s e) {s : σ} {es : List ε}
    (hc : Along step C s es) : Along step D s es := by
  induction es generalizing s with
  | nil => trivial
  | cons e es ih => exact ⟨h s e hc.1, ih hc.2⟩

/-- Two conditions at once. -/
theorem along_and {step : σ → ε → σ} {C D : σ → ε → Prop} {s : σ}
    {es : List ε} : Along step (fun s e => C s e ∧ D s e) s es
      ↔ Along step C s es ∧ Along step D s es := by
  induction es generalizing s with
  | nil => exact ⟨fun _ => ⟨trivial, trivial⟩, fun _ => trivial⟩
  | cons e es ih =>
      refine ⟨fun h => ?_, fun h => ⟨⟨h.1.1, h.2.1⟩, ?_⟩⟩
      · obtain ⟨hc, hd⟩ := ih.1 h.2
        exact ⟨⟨h.1.1, hc⟩, h.1.2, hd⟩
      · exact ih.2 ⟨h.1.2, h.2.2⟩

/-- What holds along a run holds at its last step. -/
theorem Along.last {step : σ → ε → σ} {C : σ → ε → Prop} {s : σ}
    {es : List ε} {e : ε} (h : Along step C s (es ++ [e])) :
    C (runFrom step s es) e := by
  induction es generalizing s with
  | nil => exact h.1
  | cons e' es ih => exact ih h.2

/-- And a run may be carried on by one more such step. -/
theorem Along.concat {step : σ → ε → σ} {C : σ → ε → Prop} {s : σ}
    {es : List ε} {e : ε} (h : Along step C s es)
    (hc : C (runFrom step s es) e) : Along step C s (es ++ [e]) := by
  induction es generalizing s with
  | nil => exact ⟨hc, trivial⟩
  | cons e' es ih => exact ⟨h.1, ih h.2 hc⟩

/-- The invariant rule: an invariant preserved by the steps that meet
`C`, from which each such step draws `P`, gives `P` along the run. -/
theorem along_of_inv {step : σ → ε → σ} {C P : σ → ε → Prop}
    {I : σ → Prop}
    (hstep : ∀ s e, I s → C s e → I (step s e) ∧ P s e)
    {s : σ} (h : I s) {es : List ε} (hc : Along step C s es) :
    Along step P s es := by
  induction es generalizing s with
  | nil => trivial
  | cons e es ih =>
      obtain ⟨hce, hces⟩ := hc
      obtain ⟨hinv, hp⟩ := hstep s e h hce
      exact ⟨hp, ih hinv hces⟩

/-- An invariant of every step gives what it implies along every run. -/
theorem along_of_always {step : σ → ε → σ} {P : σ → ε → Prop} {I : σ → Prop}
    (hstep : ∀ s e, I s → I (step s e)) (hp : ∀ s e, I s → P s e)
    {s : σ} (h : I s) (es : List ε) : Along step P s es := by
  induction es generalizing s with
  | nil => trivial
  | cons e es ih => exact ⟨hp s e h, ih (hstep s e h)⟩

/-- An invariant of the steps that meet `C` holds where a run of such
steps ends. -/
theorem inv_of_along {step : σ → ε → σ} {C : σ → ε → Prop}
    {I : σ → Prop}
    (hstep : ∀ s e, I s → C s e → I (step s e))
    {s : σ} (h : I s) {es : List ε} (hc : Along step C s es) :
    I (runFrom step s es) := by
  induction es generalizing s with
  | nil => exact h
  | cons e es ih => exact ih (hstep s e h hc.1) hc.2

/-- Where an invariant makes two conditions on a step equivalent, and
either keeps the invariant, they hold along the same runs. -/
theorem along_iff_of_inv {step : σ → ε → σ} {C P : σ → ε → Prop}
    {I : σ → Prop} (hiff : ∀ s e, I s → (P s e ↔ C s e))
    (hstep : ∀ s e, I s → C s e → I (step s e))
    {s : σ} (h : I s) (es : List ε) :
    Along step P s es ↔ Along step C s es := by
  induction es generalizing s with
  | nil => exact Iff.rfl
  | cons e es ih =>
      refine ⟨fun hp => ?_, fun hc => ?_⟩
      · have hce := (hiff s e h).1 hp.1
        exact ⟨hce, (ih (hstep s e h hce)).1 hp.2⟩
      · exact ⟨(hiff s e h).2 hc.1, (ih (hstep s e h hc.1)).2 hc.2⟩

/-- Along a functional simulation a condition on the image is a
condition on the source. -/
theorem along_map {τ δ : Type _} {step : σ → ε → σ} {step' : τ → δ → τ}
    {v : σ → τ} {f : ε → δ} (hsim : ∀ s e, step' (v s) (f e) = v (step s e))
    (C : τ → δ → Prop) (s : σ) (es : List ε) :
    Along step' C (v s) (es.map f)
      ↔ Along step (fun s e => C (v s) (f e)) s es := by
  induction es generalizing s with
  | nil => exact Iff.rfl
  | cons e es ih =>
      refine and_congr_right fun _ => ?_
      rw [hsim]
      exact ih (step s e)

end Rtw88
