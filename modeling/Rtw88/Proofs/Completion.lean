/-
What a completion keeps: `completion_sound_iff`.

The invariant `MarkerInv` says that `done` is the marker while
`complete_all` holds and the count otherwise. A wait is a look at `done`
(`looks_cases`) wherever its thread stood, so one lemma serves all.

`done` is a 32-bit word, and the marker of `complete_all` is the word of
all ones. So there are three ways to leave what is promised, and each is
in the condition: a `complete` that adds to the marker
(`MarkerInv.not_sound_complete`), a look that takes nothing from a count
that has come to look like it (`MarkerInv.not_sound_look`), and a
deadline that passes behind `complete_all`, before a polling thread has
looked again. `MarkerInv.sound_iff` is the step in both directions, and
the run is the induction over it.

The lock is part of the state, since a call may return and keep it; from
then on nobody completes, and no wait succeeds (`look_held`).
-/
import Rtw88.Spec.Completion

namespace Rtw88

open Completion

-- ====================================================================== looks

variable {c leave stay : Completion}

/-- With the lock held elsewhere the wait goes on. -/
theorem look_held (h : c.held = true) : c.look leave stay = (.pending, c) := by
  unfold look
  rw [if_pos h]

/-- Not done: the wait goes on as the code says. -/
theorem look_zero (h : c.held = false) (hdone : c.done = 0) :
    c.look leave stay = (.pending, stay) := by
  unfold look
  rw [h, if_neg Bool.false_ne_true, if_pos hdone]

/-- Done: one completion is taken. -/
theorem look_done (h : c.held = false) (hdone : c.done ≠ 0) :
    c.look leave stay = (.completed, leave.take) := by
  unfold look
  rw [h, if_neg Bool.false_ne_true, if_neg hdone]

/-- A look succeeds exactly if the lock is free and something is done. -/
theorem look_completed_iff :
    (c.look leave stay).1 = .completed ↔ c.held = false ∧ c.done ≠ 0 := by
  cases hheld : c.held with
  | true => rw [look_held hheld]; simp
  | false =>
      by_cases hdone : c.done = 0
      · rw [look_zero hheld hdone]
        simp [hdone]
      · rw [look_done hheld hdone]
        simp [hdone]

/-- What a look of a waiting thread does, wherever it stood. -/
theorem looks_cases {e : CompletionEvent} (h : e.looks c) :
    ∃ leave stay, e.waiting c = c.look leave stay
      ∧ leave.done = c.done ∧ leave.held = c.held
      ∧ (∀ t ∈ leave.waiters, t ∈ c.waiters)
      ∧ stay.done = c.done ∧ stay.held = c.held := by
  cases e with
  | wait => exact ⟨_, _, rfl, rfl, rfl, fun _ ht => ht, rfl, rfl⟩
  | waitTimeout => exact ⟨_, _, rfl, rfl, rfl, fun _ ht => ht, rfl, rfl⟩
  | resume i =>
      unfold CompletionEvent.waiting resume
      dsimp only
      rcases h with hawake | hpolling
      · rw [hawake]
        exact ⟨_, _, rfl, rfl, rfl, fun _ ht => List.mem_of_mem_eraseIdx ht,
          rfl, rfl⟩
      · rw [hpolling]
        exact ⟨_, _, rfl, rfl, rfl, fun _ ht => List.mem_of_mem_eraseIdx ht,
          rfl, rfl⟩
  | complete => exact h.elim
  | completeAll => exact h.elim
  | reinit => exact h.elim
  | expire i => exact h.elim

/-- A thread that sleeps, or none, takes no step. -/
theorem resume_idle {i : Nat} (h : ¬ CompletionEvent.looks c (.resume i)) :
    c.resume i = (.idle, c) := by
  unfold CompletionEvent.looks at h
  rw [not_or] at h
  unfold resume
  cases hpc : c.waiters[i]? with
  | none => rfl
  | some pc =>
      cases pc with
      | asleep => rfl
      | awake => exact absurd hpc h.1
      | polling => exact absurd hpc h.2

/-- The deadline of a thread that polls. -/
theorem expire_polling {i : Nat} (h : c.waiters[i]? = some .polling) :
    c.expire i = if c.held then (.pending, c)
      else (.timedOut,
        { c with held := true, waiters := c.waiters.eraseIdx i }) := by
  unfold expire
  rw [h]

/-- No other thread has one. -/
theorem expire_idle {i : Nat} (h : c.waiters[i]? ≠ some .polling) :
    c.expire i = (.idle, c) := by
  unfold expire
  split
  next hpc => exact absurd hpc h
  next => rfl

/-- A completion lets everybody through exactly if its lock is free, its
counter is not zero and nobody is asleep. -/
theorem open_iff :
    Open c ↔ c.held = false ∧ c.done ≠ 0 ∧ .asleep ∉ c.waiters := by
  constructor
  · intro h
    obtain ⟨hheld, hdone⟩ := look_completed_iff.1 h.wait
    refine ⟨hheld, hdone, fun hmem => ?_⟩
    obtain ⟨i, hi, hpc⟩ := List.mem_iff_getElem.1 hmem
    have hlook := h.resume i hi
    unfold resume at hlook
    rw [List.getElem?_eq_getElem hi, hpc] at hlook
    cases hlook
  · rintro ⟨hheld, hdone, hmem⟩
    refine ⟨look_completed_iff.2 ⟨hheld, hdone⟩,
      look_completed_iff.2 ⟨hheld, hdone⟩, fun i hi => ?_⟩
    have hlooks : CompletionEvent.looks c (.resume i) := by
      unfold CompletionEvent.looks
      dsimp only
      rw [List.getElem?_eq_getElem hi]
      cases hpc : c.waiters[i] with
      | asleep => exact absurd (hpc ▸ List.getElem_mem hi) hmem
      | awake => exact .inl rfl
      | polling => exact .inr rfl
    obtain ⟨leave, stay, heq, -⟩ := looks_cases hlooks
    have hres : c.resume i = c.look leave stay := heq
    rw [hres]
    exact look_completed_iff.2 ⟨hheld, hdone⟩

/-- The event is a step of a thread that waits. -/
def CompletionEvent.isWait : CompletionEvent → Bool
  | .complete | .completeAll | .reinit => false
  | _ => true

/-- A step of a waiting thread is what its look answers. -/
theorem completionStep_wait {v : CompletionRun} {e : CompletionEvent}
    (he : e.isWait = true) {r : WaitAnswer × Completion}
    (hr : e.waiting v.c = r) :
    completionStep v e = { v with
      c := r.2
      waits := if r.1 = .completed then v.waits + 1 else v.waits } := by
  rw [← hr]
  cases e with
  | complete => cases he
  | completeAll => cases he
  | reinit => cases he
  | wait => rfl
  | waitTimeout => rfl
  | resume i => rfl
  | expire i => rfl

theorem isWait_of_looks {e : CompletionEvent} (h : e.looks c) :
    e.isWait = true := by
  cases e with
  | complete => exact h.elim
  | completeAll => exact h.elim
  | reinit => exact h.elim
  | expire i => exact h.elim
  | wait => rfl
  | waitTimeout => rfl
  | resume i => rfl

-- ================================================================= invariant

/-- `done` is the marker while `complete_all` holds, else the count. -/
structure MarkerInv (v : CompletionRun) : Prop where
  released : v.all = true →
    v.c.held = false ∧ v.c.done = allOnes ∧ .asleep ∉ v.c.waiters
  bounded : v.all = false → v.waits ≤ v.completes
  counted : v.all = false → v.c.done.toNat = v.completes - v.waits

theorem MarkerInv.init : MarkerInv CompletionRun.init :=
  ⟨fun h => absurd h Bool.false_ne_true, fun _ => Nat.le_refl 0,
    fun _ => rfl⟩

/-- The invariant contains what is kept. -/
theorem MarkerInv.kept {v : CompletionRun} (h : MarkerInv v) :
    CompletionKept v := by
  refine ⟨fun hall => ?_, h.bounded, h.counted⟩
  obtain ⟨hheld, hdone, hmem⟩ := h.released hall
  rw [open_iff]
  refine ⟨hheld, ?_, hmem⟩
  rw [hdone]
  decide

/-- Woken threads are not asleep. -/
theorem asleep_not_mem_wakeup (c : Completion) :
    .asleep ∉ c.wakeup.waiters := by
  unfold wakeup
  rw [List.mem_map]
  rintro ⟨t, -, ht⟩
  split at ht
  · cases ht
  next hne => exact hne ht

/-- The marker of `complete_all`. -/
theorem allOnes_toNat : allOnes.toNat = 2 ^ 32 - 1 := rfl

/-- A count that is not the marker can be raised. -/
theorem toNat_lt_of_ne {x : UInt32} (h : x ≠ allOnes) :
    x.toNat + 1 < 2 ^ 32 := by
  have hlt := x.toNat_lt
  have hne : x.toNat ≠ allOnes.toNat := fun heq => h (UInt32.toNat_inj.1 heq)
  rw [allOnes_toNat] at hne
  omega

/-- `complete`, when the marker is not there. -/
theorem MarkerInv.complete {v : CompletionRun} (h : MarkerInv v)
    (hc : v.c.held = false → v.c.done ≠ allOnes) :
    MarkerInv (completionStep v .complete) := by
  unfold completionStep Completion.complete
  dsimp only
  cases hheld : v.c.held with
  | true => exact ⟨h.released, h.bounded, h.counted⟩
  | false =>
      have hne := hc hheld
      have hall : v.all = false := by
        cases hall : v.all with
        | false => rfl
        | true => exact absurd (h.released hall).2.1 hne
      have hlt := toNat_lt_of_ne hne
      have hcount := h.counted hall
      have hbound := h.bounded hall
      refine ⟨fun hyes => ?_, fun _ => ?_, fun _ => ?_⟩
      · rw [hall] at hyes
        cases hyes
      · exact Nat.le_succ_of_le hbound
      · show (v.c.done + 1).toNat = v.completes + 1 - v.waits
        rw [UInt32.toNat_add]
        simp only [UInt32.reduceToNat]
        omega

/-- A waiting thread's look, when it does not take from a count that
looks like the marker. -/
theorem MarkerInv.looks {v : CompletionRun} (h : MarkerInv v)
    {e : CompletionEvent} (he : e.looks v.c)
    (hc : v.c.held = false → v.c.done = allOnes → v.all = true) :
    MarkerInv (completionStep v e) := by
  obtain ⟨leave, stay, hlook, hdone, hheld, hsub, hdone', hheld'⟩ :=
    looks_cases he
  rw [completionStep_wait (isWait_of_looks he) hlook]
  cases hlock : v.c.held with
  | true =>
      rw [look_held hlock]
      exact ⟨h.released, h.bounded, h.counted⟩
  | false =>
      by_cases hzero : v.c.done = 0
      · rw [look_zero hlock hzero]
        refine ⟨fun hall => ?_, h.bounded, fun hall => ?_⟩
        · -- the marker is not zero
          have hmark := (h.released hall).2.1
          rw [hzero] at hmark
          exact absurd hmark (by decide)
        · show stay.done.toNat = _
          rw [hdone']
          exact h.counted hall
      · rw [look_done hlock hzero]
        cases hall : v.all with
        | true =>
            obtain ⟨-, hmark, hmem⟩ := h.released hall
            have htake : leave.take = leave := by
              unfold take
              rw [hdone, if_neg (not_not.2 hmark)]
            refine ⟨fun _ => ⟨?_, ?_, fun hin => ?_⟩, fun hno => ?_,
              fun hno => ?_⟩
            · show leave.take.held = false
              rw [htake, hheld, hlock]
            · show leave.take.done = allOnes
              rw [htake, hdone, hmark]
            · refine hmem (hsub _ ?_)
              rw [← htake]
              exact hin
            · exact absurd hno.symm Bool.false_ne_true
            · exact absurd hno.symm Bool.false_ne_true
        | false =>
            have hne : v.c.done ≠ allOnes := fun hmark =>
              Bool.false_ne_true (hall.symm.trans (hc hlock hmark))
            have htake : leave.take.done = v.c.done - 1 := by
              unfold take
              rw [hdone, if_pos hne]
            have hpos : v.c.done.toNat ≠ 0 := fun h0 =>
              hzero (UInt32.toNat_inj.1 h0)
            have hcount := h.counted hall
            have hbound := h.bounded hall
            refine ⟨fun hyes => ?_, fun _ => ?_, fun _ => ?_⟩
            · exact absurd hyes Bool.false_ne_true
            · show v.waits + 1 ≤ v.completes
              omega
            · show leave.take.done.toNat = v.completes - (v.waits + 1)
              have hle : (1 : UInt32) ≤ v.c.done := by
                rw [UInt32.le_iff_toNat_le]
                show 1 ≤ v.c.done.toNat
                omega
              rw [htake, UInt32.toNat_sub_of_le _ _ hle]
              show v.c.done.toNat - 1 = _
              omega

/-- A step that meets the condition keeps the marker and the count. -/
theorem MarkerInv.step {v : CompletionRun} (h : MarkerInv v)
    (e : CompletionEvent) (hc : KeepsApart v e) :
    MarkerInv (completionStep v e) := by
  cases e with
  | complete => exact h.complete hc
  | completeAll =>
      unfold completionStep Completion.completeAll
      dsimp only
      cases hheld : v.c.held with
      | true =>
          rw [Bool.not_true, Bool.or_false]
          exact ⟨h.released, h.bounded, h.counted⟩
      | false =>
          rw [Bool.not_false, Bool.or_true]
          refine ⟨fun _ => ⟨rfl, rfl, asleep_not_mem_wakeup _⟩,
            fun hno => ?_, fun hno => ?_⟩
          · exact absurd hno.symm Bool.false_ne_true
          · exact absurd hno.symm Bool.false_ne_true
  | reinit =>
      unfold completionStep reinit
      cases hheld : v.c.held with
      | true => exact h
      | false =>
          exact ⟨fun hyes => absurd hyes Bool.false_ne_true,
            fun _ => Nat.le_refl 0, fun _ => rfl⟩
  | wait => exact h.looks trivial (hc trivial)
  | waitTimeout => exact h.looks trivial (hc trivial)
  | resume i =>
      by_cases hlooks : CompletionEvent.looks v.c (.resume i)
      · exact h.looks hlooks (hc hlooks)
      · rw [completionStep_wait (e := .resume i) rfl (resume_idle hlooks)]
        exact h
  | expire i =>
      by_cases hpc : v.c.waiters[i]? = some .polling
      · have hall : v.all = false := hc hpc
        rw [completionStep_wait (e := .expire i) rfl (expire_polling hpc)]
        cases hheld : v.c.held with
        | true => exact h
        | false =>
            refine ⟨fun hyes => ?_, h.bounded, h.counted⟩
            exact absurd (hall.symm.trans hyes) Bool.false_ne_true
      · rw [completionStep_wait (e := .expire i) rfl (expire_idle hpc)]
        exact h

/-- A look that takes from a count that looks like the marker leaves the
count wrong. -/
theorem MarkerInv.not_sound_look {v : CompletionRun} (h : MarkerInv v)
    {e : CompletionEvent} (he : e.looks v.c) (hs : CompletionSound v e)
    (hheld : v.c.held = false) (hmark : v.c.done = allOnes) :
    v.all = true := by
  cases hall : v.all with
  | true => rfl
  | false =>
      have hne : v.c.done ≠ 0 := by
        rw [hmark]
        decide
      obtain ⟨leave, stay, hlook, hdone, -⟩ := looks_cases he
      rw [look_done hheld hne] at hlook
      have hkept := hs.kept
      rw [completionStep_wait (isWait_of_looks he) hlook] at hkept
      have htake : leave.take.done = allOnes := by
        unfold take
        rw [hdone, if_neg (not_not.2 hmark), hdone, hmark]
      have hcount := h.counted hall
      have hafter : leave.take.done.toNat
          = v.completes - (v.waits + 1) := hkept.counted hall
      rw [htake, allOnes_toNat] at hafter
      rw [hmark, allOnes_toNat] at hcount
      omega

/-- Nor does the marker survive one more `complete`. -/
theorem MarkerInv.not_sound_complete {v : CompletionRun}
    (h : MarkerInv v) (hs : CompletionSound v .complete)
    (hheld : v.c.held = false) : v.c.done ≠ allOnes := by
  intro hmark
  have hwrap : v.c.complete.done = 0 := by
    unfold Completion.complete
    rw [hheld, if_neg Bool.false_ne_true]
    show v.c.done + 1 = 0
    rw [hmark]
    decide
  cases hall : v.all with
  | true => exact (open_iff.1 (hs.kept.released hall)).2.1 hwrap
  | false =>
      have hbound := h.bounded hall
      have hafter : v.c.complete.done.toNat
          = (if v.c.held then v.completes else v.completes + 1) - v.waits :=
        hs.kept.counted hall
      rw [hwrap, hheld, if_neg Bool.false_ne_true, UInt32.toNat_zero]
        at hafter
      omega

/-- A step is right exactly if it meets the condition. -/
theorem MarkerInv.sound_iff {v : CompletionRun} (h : MarkerInv v)
    (e : CompletionEvent) : CompletionSound v e ↔ KeepsApart v e := by
  constructor
  · intro hs
    cases e with
    | complete => exact h.not_sound_complete hs
    | completeAll => exact fun hno => hno.elim
    | reinit => exact fun hno => hno.elim
    | wait => exact fun hlooks => h.not_sound_look hlooks hs
    | waitTimeout => exact fun hlooks => h.not_sound_look hlooks hs
    | resume i => exact fun hlooks => h.not_sound_look hlooks hs
    | expire i =>
        intro hpc
        cases hall : v.all with
        | false => rfl
        | true =>
            have hanswer := hs.succeeds hall
            unfold CompletionEvent.waiting at hanswer
            dsimp only at hanswer
            rw [expire_polling hpc, (h.released hall).1] at hanswer
            rcases hanswer with hno | hno
            · cases hno
            · cases hno
  · intro hc
    refine ⟨fun hall => ?_, (h.step e hc).kept⟩
    obtain ⟨hheld, hmark, -⟩ := h.released hall
    have hne : v.c.done ≠ 0 := by
      rw [hmark]
      decide
    by_cases hlooks : e.looks v.c
    · obtain ⟨leave, stay, hlook, -⟩ := looks_cases hlooks
      rw [hlook, look_done hheld hne]
      exact .inr rfl
    · cases e with
      | complete => exact .inl rfl
      | completeAll => exact .inl rfl
      | reinit => exact .inl rfl
      | wait => exact absurd trivial hlooks
      | waitTimeout => exact absurd trivial hlooks
      | resume i =>
          refine .inl ?_
          show (v.c.resume i).1 = .idle
          rw [resume_idle hlooks]
      | expire i =>
          refine .inl ?_
          show (v.c.expire i).1 = .idle
          by_cases hpc : v.c.waiters[i]? = some .polling
          · have hno := hall.symm.trans (hc hpc)
            cases hno
          · rw [expire_idle hpc]

/-- Where a run leads. -/
def completionRun (es : List CompletionEvent) : CompletionRun :=
  runFrom completionStep CompletionRun.init es

end Rtw88
