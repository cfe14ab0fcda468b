/-
Programs of atomic actions, to be interleaved with whatever else touches
the state.

A `Prog α σ` is a tree: it ends, does one action of `α`, or asks one
question of the state `σ` and goes on by the answer. What an action does
is a parameter `f : α → σ → σ`.

- `run f p`: the program left alone, from start to end.
- `step f p`: one action or one question, and the program that is left.
- `Paired a b`: in the program, action `b` comes exactly where action `a`
  has just been done.

Nothing here is about any particular actions.
-/
import Mathlib.Logic.Function.Iterate

namespace Rtw88

/-- A program of atomic actions. -/
inductive Prog (α σ : Type)
  | done
  | act (a : α) (k : Prog α σ)
  | test (c : σ → Bool) (yes no : Prog α σ)

namespace Prog

variable {α σ : Type}

-- ============================================================= composition

/-- One program after another. -/
def seq : Prog α σ → Prog α σ → Prog α σ
  | .done, q => q
  | .act a k, q => .act a (k.seq q)
  | .test c yes no, q => .test c (yes.seq q) (no.seq q)

/-- One action after another. -/
def acts (l : List α) : Prog α σ := l.foldr .act .done

/-- A program that is passed over unless `c` holds. -/
def whenever (c : σ → Bool) (p : Prog α σ) : Prog α σ := .test c p .done

-- ================================================================ execution

/-- The program left alone. -/
def run (f : α → σ → σ) : Prog α σ → σ → σ
  | .done, s => s
  | .act a k, s => k.run f (f a s)
  | .test c yes no, s => if c s then yes.run f s else no.run f s

/-- One action or one question. -/
def step (f : α → σ → σ) : Prog α σ → σ → Prog α σ × σ
  | .done, s => (.done, s)
  | .act a k, s => (k, f a s)
  | .test c yes no, s => (if c s then yes else no, s)

variable {f : α → σ → σ}

@[simp] theorem run_done (s : σ) : (done : Prog α σ).run f s = s := rfl

@[simp] theorem run_seq (p q : Prog α σ) (s : σ) :
    (p.seq q).run f s = q.run f (p.run f s) := by
  induction p generalizing s with
  | done => rfl
  | act a k ih => exact ih (f a s)
  | test c yes no ihyes ihno =>
      simp only [seq, run]
      split
      · exact ihyes s
      · exact ihno s

@[simp] theorem run_acts (l : List α) (s : σ) :
    (acts l : Prog α σ).run f s = l.foldl (fun s a => f a s) s := by
  induction l generalizing s with
  | nil => rfl
  | cons a l ih => exact ih (f a s)

@[simp] theorem run_whenever (c : σ → Bool) (p : Prog α σ) (s : σ) :
    (whenever c p).run f s = if c s then p.run f s else s := rfl

-- =================================================================== pairs

/-- Action `b` comes exactly where action `a` has just been done; `after`
says whether it has. -/
def Paired (a b : α) : Prop → Prog α σ → Prop
  | after, .done => ¬after
  | after, .act x k => (after ↔ x = b) ∧ k.Paired a b (x = a)
  | after, .test _ yes no =>
      ¬after ∧ yes.Paired a b False ∧ no.Paired a b False

variable {a b : α} {after : Prop}

theorem Paired.seq {p q : Prog α σ} (hp : p.Paired a b after)
    (hq : q.Paired a b False) : (p.seq q).Paired a b after := by
  induction p generalizing after with
  | done =>
      have hafter : after = False := eq_false hp
      rw [hafter]
      exact hq
  | act x k ih => exact ⟨hp.1, ih hp.2⟩
  | test c yes no ihyes ihno =>
      exact ⟨hp.1, ihyes hp.2.1, ihno hp.2.2⟩

theorem Paired.whenever {p : Prog α σ} (hp : p.Paired a b False)
    (c : σ → Bool) : (p.whenever c).Paired a b False :=
  ⟨id, hp, id⟩

/-- Actions that are neither keep to it. -/
theorem Paired.acts {l : List α} (ha : a ∉ l) (hb : b ∉ l) :
    (Prog.acts l : Prog α σ).Paired a b False := by
  induction l with
  | nil => exact id
  | cons x l ih =>
      have hxa : (x = a) = False :=
        eq_false fun heq => ha (heq ▸ List.mem_cons_self)
      have hxb : ¬x = b := fun heq => hb (heq ▸ List.mem_cons_self)
      refine ⟨⟨False.elim, hxb⟩, ?_⟩
      rw [hxa]
      exact ih (fun h => ha (List.mem_cons_of_mem _ h))
        (fun h => hb (List.mem_cons_of_mem _ h))

/-- A program tells whether `a` has just been done. -/
theorem Paired.after_iff {p : Prog α σ} {after after' : Prop}
    (h : p.Paired a b after) (h' : p.Paired a b after') :
    after ↔ after' := by
  cases p with
  | done => exact ⟨fun hc => absurd hc h, fun hc => absurd hc h'⟩
  | act x k => exact h.1.trans h'.1.symm
  | test c yes no => exact ⟨fun hc => absurd hc h.1, fun hc => absurd hc h'.1⟩

/-- The pair itself. -/
theorem Paired.pair (hne : b ≠ a) :
    (Prog.acts [a, b] : Prog α σ).Paired a b False :=
  ⟨⟨False.elim, fun heq => hne heq.symm⟩, ⟨fun _ => rfl, fun _ => rfl⟩, hne⟩

end Prog

end Rtw88
