/-
Handles lent to another party: each is taken by it once, given back by
it, and the memory behind it is freed.

A log lists what happened to the handles of one kind, newest first.

- `outstanding log`: the handles taken and not given back.
- `Tidy log`: at every entry, a handle that is taken was never taken
  before, one that is given back is held, one that is freed is not.
- `Tidy.count_give`: in a tidy log a handle is given back once if it was
  taken and is no longer held, and never otherwise.
- `Lent own log`: a tidy log after which exactly the handles `own` are
  held. One rule an entry: `Lent.take`, `.give`, `.free`.
-/
import Mathlib.Data.List.Nodup
import Mathlib.Data.List.Perm.Basic

namespace Rtw88

variable {α : Type _}

/-- What happens to a handle. -/
inductive HandleAct (α : Type _)
  | take (a : α)
  | give (a : α)
  | free (a : α)
  deriving DecidableEq, Repr

section
variable [DecidableEq α]

-- ==================================================================== the log

/-- The handles taken and not given back. -/
def outstanding : List (HandleAct α) → List α
  | [] => []
  | .take a :: log => a :: outstanding log
  | .give a :: log => (outstanding log).erase a
  | .free _ :: log => outstanding log

/-- Every entry of the log was in order when it was made. -/
def Tidy : List (HandleAct α) → Prop
  | [] => True
  | .take a :: log => .take a ∉ log ∧ Tidy log
  | .give a :: log => a ∈ outstanding log ∧ Tidy log
  | .free a :: log => a ∉ outstanding log ∧ Tidy log

instance Tidy.decidable : ∀ log : List (HandleAct α), Decidable (Tidy log)
  | [] => isTrue trivial
  | .take _ :: log | .give _ :: log | .free _ :: log =>
      have := Tidy.decidable log
      inferInstanceAs (Decidable (_ ∧ _))

/-- What is held was taken. -/
theorem taken_of_outstanding {a : α} {log : List (HandleAct α)}
    (h : a ∈ outstanding log) : .take a ∈ log := by
  induction log with
  | nil => cases h
  | cons act log ih =>
      cases act with
      | take b =>
          rcases List.mem_cons.1 h with rfl | h
          · exact List.mem_cons_self
          · exact List.mem_cons_of_mem _ (ih h)
      | give b => exact List.mem_cons_of_mem _ (ih (List.mem_of_mem_erase h))
      | free b => exact List.mem_cons_of_mem _ (ih h)

/-- A handle is held once. -/
theorem Tidy.nodup {log : List (HandleAct α)} (h : Tidy log) :
    (outstanding log).Nodup := by
  induction log with
  | nil => exact List.nodup_nil
  | cons act log ih =>
      cases act with
      | take a =>
          have hfresh : a ∉ outstanding log := fun ha => h.1 (taken_of_outstanding ha)
          exact List.nodup_cons.2 ⟨hfresh, ih h.2⟩
      | give a => exact (ih h.2).erase a
      | free a => exact ih h.2

-- ==================================================================== counting

/-- Every handle taken was given back or is held. -/
theorem Tidy.balance {log : List (HandleAct α)} (h : Tidy log) (a : α) :
    log.count (.give a) + (outstanding log).count a = log.count (.take a) := by
  induction log with
  | nil => rfl
  | cons act log ih =>
      cases act with
      | take b =>
          have hrest := ih h.2
          simp only [outstanding, List.count_cons, beq_iff_eq, reduceCtorEq,
            if_false, HandleAct.take.injEq]
          omega
      | give b =>
          have hrest := ih h.2
          have hone : a = b → 0 < (outstanding log).count a := fun heq =>
            List.count_pos_iff.2 (heq ▸ h.1)
          simp only [outstanding, List.count_cons, List.count_erase, beq_iff_eq,
            reduceCtorEq, if_false, HandleAct.give.injEq, eq_comm (a := b)]
          split
          next heq =>
            have := hone heq
            omega
          next => omega
      | free b =>
          have hrest := ih h.2
          simp only [outstanding, List.count_cons, beq_iff_eq, reduceCtorEq,
            if_false]
          omega

/-- A handle is taken at most once. -/
theorem Tidy.count_take {log : List (HandleAct α)} (h : Tidy log) (a : α) :
    log.count (.take a) ≤ 1 := by
  induction log with
  | nil => exact Nat.zero_le 1
  | cons act log ih =>
      cases act with
      | take b =>
          have hrest := ih h.2
          by_cases heq : b = a
          · subst heq
            have hnone := List.count_eq_zero.2 h.1
            rw [List.count_cons_self]
            omega
          · rw [List.count_cons_of_ne (by simpa using heq)]
            exact hrest
      | give b =>
          rw [List.count_cons_of_ne (by simp)]
          exact ih h.2
      | free b =>
          rw [List.count_cons_of_ne (by simp)]
          exact ih h.2

/-- How often a handle is given back. -/
theorem Tidy.count_give {log : List (HandleAct α)} (h : Tidy log) (a : α) :
    log.count (.give a)
      = if .take a ∈ log ∧ a ∉ outstanding log then 1 else 0 := by
  have hbalance := h.balance a
  have hmost := h.count_take a
  split
  next hgone =>
    have htaken := List.count_pos_iff.2 hgone.1
    rw [List.count_eq_zero.2 hgone.2] at hbalance
    omega
  next hnot =>
    by_cases htaken : .take a ∈ log
    · have hheld : a ∈ outstanding log := by
        by_contra hfree
        exact hnot ⟨htaken, hfree⟩
      have := List.count_pos_iff.2 hheld
      omega
    · rw [List.count_eq_zero.2 htaken] at hbalance
      omega

-- ====================================================================== rules

/-- A tidy log after which exactly `own` is held. -/
structure Lent (own : List α) (log : List (HandleAct α)) : Prop where
  tidy : Tidy log
  mem : ∀ a, a ∈ outstanding log ↔ a ∈ own

theorem Lent.nil : Lent ([] : List α) [] := ⟨trivial, fun _ => Iff.rfl⟩

/-- A new handle is taken. -/
theorem Lent.take {own : List α} {log : List (HandleAct α)}
    (h : Lent own log) {a : α} (hfresh : .take a ∉ log) :
    Lent (a :: own) (.take a :: log) where
  tidy := ⟨hfresh, h.tidy⟩
  mem b := by
    rw [outstanding, List.mem_cons, List.mem_cons, h.mem b]

/-- One that is held is given back. -/
theorem Lent.give {own own' : List α} {log : List (HandleAct α)}
    (h : Lent own log) {a : α} (hmem : a ∈ own)
    (hown : ∀ b, b ∈ own' ↔ b ∈ own ∧ b ≠ a) :
    Lent own' (.give a :: log) where
  tidy := ⟨(h.mem a).2 hmem, h.tidy⟩
  mem b := by
    rw [outstanding, h.tidy.nodup.mem_erase_iff, hown, h.mem b, and_comm]

/-- One that is not held is freed. -/
theorem Lent.free {own : List α} {log : List (HandleAct α)}
    (h : Lent own log) {a : α} (hmem : a ∉ own) :
    Lent own (.free a :: log) where
  tidy := ⟨fun hheld => hmem ((h.mem a).1 hheld), h.tidy⟩
  mem b := h.mem b

/-- Only which handles are held counts. -/
theorem Lent.congr {own own' : List α} {log : List (HandleAct α)}
    (h : Lent own log) (hown : ∀ a, a ∈ own' ↔ a ∈ own) : Lent own' log :=
  ⟨h.tidy, fun a => (h.mem a).trans (hown a).symm⟩

end

end Rtw88
