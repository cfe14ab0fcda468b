/-
Following links: `while (not stop(a)) a = next(a)`.

`chase stop next n a` looks at `n` places of the orbit of `a` at most,
and answers what `stop` says at the first where it says anything.

- `chase_eq_some_iff`: it answers exactly where the orbit first stops,
  with any number of looks that goes as far.
- `chase_ends_iff`: some number of looks is enough exactly if the orbit
  stops somewhere.
- `orbit_early`: an orbit inside a finite set passes all its places in
  the first few steps, so whether it stops can be seen there.
-/
import Mathlib.Data.Finset.Card
import Mathlib.Data.Nat.Find
import Mathlib.Logic.Function.Iterate

namespace Rtw88

variable {α β : Type _}

/-- Look at no more than `n` places from `a` on. -/
def chase (stop : α → Option β) (next : α → α) : Nat → α → Option β
  | 0, _ => none
  | n + 1, a =>
      match stop a with
      | some b => some b
      | none => chase stop next n (next a)

section
variable {stop : α → Option β} {next : α → α}

theorem chase_stop {n : Nat} {a : α} {b : β} (h : stop a = some b) :
    chase stop next (n + 1) a = some b := by
  unfold chase
  rw [h]

theorem chase_next {n : Nat} {a : α} (h : stop a = none) :
    chase stop next (n + 1) a = chase stop next n (next a) := by
  rw [chase, h]

/-- The answer is that of the first place with one. -/
theorem chase_eq_some_iff {n : Nat} {a : α} {b : β} :
    chase stop next n a = some b
      ↔ ∃ i < n, (∀ j < i, stop (next^[j] a) = none)
        ∧ stop (next^[i] a) = some b := by
  induction n generalizing a with
  | zero =>
      constructor
      · intro h
        cases h
      · rintro ⟨i, hi, -⟩
        omega
  | succ n ih =>
      cases hstop : stop a with
      | some b' =>
          rw [chase_stop hstop]
          constructor
          · intro h
            refine ⟨0, Nat.zero_lt_succ n, fun j hj => by omega, ?_⟩
            rw [← h]
            exact hstop
          · rintro ⟨i, -, hbefore, hi⟩
            cases i with
            | zero => exact hstop.symm.trans hi
            | succ i =>
                have hzero : stop a = none := hbefore 0 (Nat.zero_lt_succ i)
                rw [hstop] at hzero
                cases hzero
      | none =>
          rw [chase_next hstop, ih]
          constructor
          · rintro ⟨i, hi, hbefore, heq⟩
            refine ⟨i + 1, Nat.succ_lt_succ hi, fun j hj => ?_, heq⟩
            cases j with
            | zero => exact hstop
            | succ j => exact hbefore j (by omega)
          · rintro ⟨i, hi, hbefore, heq⟩
            cases i with
            | zero =>
                have hzero : stop a = some b := heq
                rw [hstop] at hzero
                cases hzero
            | succ i =>
                exact ⟨i, by omega, fun j hj => hbefore (j + 1) (by omega),
                  heq⟩

/-- It ends exactly if the orbit stops somewhere. -/
theorem chase_ends_iff {a : α} :
    (∃ n b, chase stop next n a = some b)
      ↔ ∃ i, (stop (next^[i] a)).isSome = true := by
  constructor
  · rintro ⟨n, b, h⟩
    obtain ⟨i, -, -, hi⟩ := chase_eq_some_iff.1 h
    refine ⟨i, ?_⟩
    rw [hi]
    rfl
  · intro h
    classical
    have hfirst := Nat.find_spec h
    obtain ⟨b, hb⟩ := Option.isSome_iff_exists.1 hfirst
    refine ⟨Nat.find h + 1, b, chase_eq_some_iff.2
      ⟨Nat.find h, Nat.lt_succ_self _, fun j hj => ?_, hb⟩⟩
    have hno := Nat.find_min h hj
    rwa [Option.not_isSome_iff_eq_none] at hno

end

/-- In a finite set an orbit is through with new places after as many
steps as the set has members. -/
theorem orbit_early {next : α → α} {a : α} {s : Finset α}
    (hs : ∀ n, next^[n] a ∈ s) (n : Nat) :
    ∃ m < s.card, next^[n] a = next^[m] a := by
  induction n using Nat.strong_induction_on with
  | _ n ih =>
      by_cases hn : n < s.card
      · exact ⟨n, hn, rfl⟩
      · -- one place comes twice in the first steps, so cut that loop out
        obtain ⟨i, hi, j, hj, hij, heq⟩ :=
          Finset.exists_ne_map_eq_of_card_lt_of_maps_to
            (s := Finset.range (s.card + 1)) (t := s)
            (f := fun k => next^[k] a) (by simp) (fun k _ => hs k)
        have hcut : ∀ i j, i < j → j ≤ s.card →
            next^[i] a = next^[j] a →
            ∃ m < s.card, next^[n] a = next^[m] a := by
          intro i j hlt hle hsame
          obtain ⟨m, hm, hmeq⟩ := ih (n - j + i) (by omega)
          refine ⟨m, hm, ?_⟩
          rw [← hmeq, Function.iterate_add_apply, hsame,
            ← Function.iterate_add_apply]
          congr 1
          omega
        rw [Finset.mem_range] at hi hj
        rcases Nat.lt_or_gt_of_ne hij with hlt | hgt
        · exact hcut i j hlt (by omega) heq
        · exact hcut j i hgt (by omega) heq.symm

end Rtw88
