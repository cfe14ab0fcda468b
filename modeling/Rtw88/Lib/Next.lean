/-
The next number with a property: from `lo` on, and below `hi`.

`IsNext P lo hi r` says that `r` is the least number from `lo` on with
`P`, or `hi` when there is none below `hi`. There is one such number
(`IsNext.unique`), and it shows nothing of `P` from `hi` on
(`IsNext.congr`).

A loop that goes from one such number to the next comes by all of them,
in order: `walk_eq`.
-/
import Mathlib.Data.List.Range
import Mathlib.Order.Basic

namespace Rtw88

/-- The least number in `[lo, hi)` with `P`; `hi` for none. -/
structure IsNext (P : Nat → Prop) (lo hi r : Nat) : Prop where
  le : r ≤ hi
  before : ∀ p, lo ≤ p → p < r → ¬ P p
  here : r < hi → lo ≤ r ∧ P r

namespace IsNext

variable {P Q : Nat → Prop} {lo lo' hi r r' : Nat}

/-- None is left. -/
theorem none (h : ∀ p, lo ≤ p → p < hi → ¬ P p) : IsNext P lo hi hi :=
  ⟨le_rfl, h, fun hlt => absurd hlt (Nat.lt_irrefl hi)⟩

/-- One was found, below `hi` or not. -/
theorem found (hlo : lo ≤ r) (hr : P r) (h : ∀ p, lo ≤ p → p < r → ¬ P p) :
    IsNext P lo hi (if r < hi then r else hi) := by
  split
  next hlt => exact ⟨Nat.le_of_lt hlt, h, fun _ => ⟨hlo, hr⟩⟩
  next hge =>
    exact none fun p hp hphi => h p hp (by omega)

/-- Starting earlier, where there is none. -/
theorem extend (hnext : IsNext P lo' hi r) (hle : lo ≤ lo')
    (h : ∀ p, lo ≤ p → p < lo' → ¬ P p) : IsNext P lo hi r := by
  refine ⟨hnext.le, fun p hp hpr => ?_, fun hlt => ?_⟩
  · rcases Nat.lt_or_ge p lo' with hlt | hge
    · exact h p hp hlt
    · exact hnext.before p hge hpr
  · obtain ⟨hlo, hr⟩ := hnext.here hlt
    exact ⟨hle.trans hlo, hr⟩

/-- What is so from `hi` on does not matter. -/
theorem congr (h : ∀ p < hi, P p ↔ Q p) (hnext : IsNext P lo hi r) :
    IsNext Q lo hi r := by
  refine ⟨hnext.le, fun p hp hpr hq => ?_, fun hlt => ?_⟩
  · exact hnext.before p hp hpr ((h p (hpr.trans_le hnext.le)).2 hq)
  · obtain ⟨hlo, hr⟩ := hnext.here hlt
    exact ⟨hlo, (h r hlt).1 hr⟩

theorem le_of (h : IsNext P lo hi r) (h' : IsNext P lo hi r') : r ≤ r' := by
  by_contra hlt
  have hlt : r' < r := Nat.lt_of_not_le hlt
  obtain ⟨hlo, hr'⟩ := h'.here (hlt.trans_le h.le)
  exact h.before r' hlo hlt hr'

theorem unique (h : IsNext P lo hi r) (h' : IsNext P lo hi r') : r = r' :=
  Nat.le_antisymm (h.le_of h') (h'.le_of h)

/-- There is none below `hi` if the search ends there. -/
theorem none_of (h : IsNext P lo hi hi) {p : Nat} (hlo : lo ≤ p)
    (hp : p < hi) : ¬ P p := h.before p hlo hp

end IsNext

-- =================================================================== walking

/-- `for (p = ..; p < hi; p = next(p + 1))`, for `n` turns at most: the
numbers it comes by from `p` on. -/
def walk (next : Nat → Nat) (hi : Nat) : Nat → Nat → List Nat
  | 0, _ => []
  | n + 1, p => if p < hi then p :: walk next hi n (next (p + 1)) else []

section
variable {P : Nat → Bool} {next : Nat → Nat} {lo hi : Nat}

/-- The numbers with `P` from `lo` on begin with the next one. -/
theorem filter_range'_next {p n : Nat} (h : IsNext (P · = true) lo hi p)
    (hn : lo + n = hi) :
    (List.range' lo n).filter P
      = if p < hi then p :: (List.range' (p + 1) (hi - (p + 1))).filter P
        else [] := by
  induction n generalizing lo with
  | zero =>
      have hge : ¬ p < hi := fun hlt => by
        have hlo := (h.here hlt).1
        omega
      rw [if_neg hge]
      rfl
  | succ n ih =>
      rw [List.range'_succ]
      cases hP : P lo with
      | true =>
          have hp : p = lo := by
            by_contra hne
            have hle : lo ≤ p := by
              rcases Nat.lt_or_ge p hi with hlt | hge
              · exact (h.here hlt).1
              · omega
            exact h.before lo le_rfl (by omega) hP
          have hlt : p < hi := by omega
          have hlen : hi - (p + 1) = n := by omega
          rw [List.filter_cons_of_pos hP, if_pos hlt, hlen, hp]
      | false =>
          have hno : ¬ P lo = true := by
            rw [hP]
            exact Bool.false_ne_true
          rw [List.filter_cons_of_neg hno]
          refine ih ⟨h.le, fun q hq hqp => h.before q (by omega) hqp,
            fun hlt => ?_⟩ (by omega)
          obtain ⟨hle, hPp⟩ := h.here hlt
          have hne : p ≠ lo := fun heq => hno (heq ▸ hPp)
          exact ⟨by omega, hPp⟩

/-- The walk comes by every number with `P` below `hi`, and by no other,
in order. -/
theorem walk_eq (hnext : ∀ q ≤ hi, IsNext (P · = true) q hi (next q))
    {p n : Nat} (hp : IsNext (P · = true) lo hi p) (hle : lo ≤ hi)
    (hn : hi - lo ≤ n) :
    walk next hi n p = (List.range' lo (hi - lo)).filter P := by
  induction n generalizing lo p with
  | zero =>
      have hzero : hi - lo = 0 := Nat.le_zero.1 hn
      rw [hzero]
      rfl
  | succ n ih =>
      rw [filter_range'_next hp (Nat.add_sub_cancel' hle), walk]
      split
      next hlt =>
        have hlo := (hp.here hlt).1
        rw [ih (hnext (p + 1) hlt) hlt (by omega)]
      next => rfl

end

end Rtw88
