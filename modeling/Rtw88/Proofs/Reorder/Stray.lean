/-
Frames that are not part of a BlockAck agreement's sequence space, and
the reorder buffer they are sent to all the same.

`processRxData` picks the buffer by the QoS bit and the TID alone, so a
QoS Null frame or a group-addressed one goes through `rxReorderInput`
with whatever number it carries. It leaves the window as it was exactly
when that number reads as stale, or as a duplicate of a frame that
stands in the window while nothing waits at the head
(`stray_harmless_iff`).

Nothing is asked of the window: a head that moved `j` places, with
`1 ≤ j < 4096`, is not where it was (`iterate_snNext_ne`), and one input
moves it at most by the distance to slide and the 64 frames the array
can take.
-/
import Mathlib.Logic.Function.Iterate
import Rtw88.Proofs.Reorder.Balance
import Rtw88.Spec.AccessPoint
import Rtw88.Spec.HeadSlot

namespace Rtw88

variable {α : Type} {hw : Hw} {env : Env}

-- ============================================================= statements

/-- The sequence number `processRxData` reads. -/
def rxSn (skb : SkBuff) : Nat :=
  ((seqCtrl skb.mem &&& 0xFFF0) >>> 4).toNat

/-- A QoS Null frame. -/
def isQosNull (fc : UInt16) : Bool := fc &&& 0x00fc == 0x00c8

/-- The group bit of an address. -/
def isGroup (a : Bytes 6) : Bool := peek a.toList 0 &&& 0x01 != 0

/-- A frame that takes no number of the agreement: a QoS Null frame
without a body, or one addressed to a group. -/
def OutsideAgreement (skb : SkBuff) : Prop :=
  (isQosNull (frameControl skb.mem) = true
      ∧ skb.data.length = hdrlen (frameControl skb.mem))
    ∨ isGroup (addr1 skb.mem) = true

/-- The frame leaves the windows as they were, and nothing but the frame
itself is handed on or freed. -/
def LeavesWindows (hw : Hw) (env : Env) (skb : SkBuff) (s : Mlme) : Prop :=
  let r := processRxData hw env skb s
  r.1.rxBa = s.rxBa
    ∧ (r.1 = s ∨ r.1 = kfreeSkb skb s)
    ∧ ∀ p, r.2 = some p → p.out = [] ∨ p.out = [skb]

/-- The number is stale, or the window need not slide for it, its cell is
taken, and no frame waits at the head. (No setup makes a window of size
0, the only one that could ask for a slide of 2048.) -/
def RxReorder.Ignores (r : RxReorder α) (sn : Nat) : Prop :=
  2048 ≤ snSub sn r.headSn
    ∨ ((r.slideBy sn = 0 ∨ 2048 ≤ r.slideBy sn)
      ∧ (r.buf (cellOf sn)).isSome
      ∧ (r.stored = 0 ∨ r.buf (cellOf r.headSn) = none))

-- =========================================================== moving heads

/-- A head that moves comes to rest elsewhere. -/
private theorem iterate_snNext_ne {j n : Nat} (h0 : 1 ≤ j) (hj : j < 4096) :
    snNext^[j] n ≠ n := by
  have hgen : ∀ i n, 1 ≤ i → snNext^[i] n = (n + i) % 4096 := by
    intro i
    induction i with
    | zero => omega
    | succ i ih =>
        intro n _
        rw [Function.iterate_succ_apply]
        cases i with
        | zero => rfl
        | succ i =>
            rw [ih _ (by omega), snNext]
            omega
  rw [hgen j n h0]
  omega

theorem RxReorder.advance_headSn (r : RxReorder α) :
    r.advance.1.headSn = snNext r.headSn := by
  rw [RxReorder.advance]
  split <;> rfl

/-- `slide` moves the head at most as often as it turns. -/
private theorem slide_headSn (newHead k : Nat) (r : RxReorder α)
    (out : List α) : ∃ j, j ≤ k
      ∧ (slide newHead k (r, out)).1.headSn = snNext^[j] r.headSn := by
  induction k generalizing r out with
  | zero => exact ⟨0, le_refl 0, rfl⟩
  | succ k ih =>
      rw [slide]
      split
      · obtain ⟨j, hj, heq⟩ := ih r.advance.1 (out ++ r.advance.2)
        refine ⟨j + 1, by omega, ?_⟩
        rw [heq, RxReorder.advance_headSn]
        rfl
      · exact ⟨0, by omega, rfl⟩

/-- `release` does nothing, or moves the head up, once for every entry it
fills. -/
private theorem release_headSn (k : Nat) (r : RxReorder α) (out : List α)
    (hout : out.length ≤ 64) :
    release k (r, out) = (r, out)
      ∨ ∃ j, 1 ≤ j ∧ j + out.length ≤ 64
        ∧ (release k (r, out)).1.headSn = snNext^[j] r.headSn := by
  induction k generalizing r out with
  | zero => exact .inl rfl
  | succ k ih =>
      rw [release]
      split
      next hc =>
        obtain ⟨x, hx⟩ := Option.isSome_iff_exists.1 hc.2.2
        have hone : (out ++ r.advance.2).length = out.length + 1 := by
          rw [RxReorder.advance, hx, List.length_append,
            List.length_singleton]
        have hlt := hc.2.1
        rw [kRxBaMaxBuf] at hlt
        refine .inr ?_
        rcases ih r.advance.1 (out ++ r.advance.2) (by omega) with
          hsame | ⟨j, h0, hj, heq⟩
        · refine ⟨1, le_refl 1, by omega, ?_⟩
          rw [hsame]
          exact r.advance_headSn
        · refine ⟨j + 1, by omega, by omega, ?_⟩
          rw [heq, RxReorder.advance_headSn]
          rfl
      next => exact .inl rfl

/-- Where the loop that releases may turn, it does. -/
private theorem release_moves {k : Nat} {r : RxReorder α}
    (hk : r.stored = k) (hpos : 0 < r.stored)
    (hhead : (r.buf (cellOf r.headSn)).isSome) :
    release k (r, []) ≠ (r, []) := by
  obtain ⟨k, rfl⟩ : ∃ k', k = k' + 1 := ⟨k - 1, by omega⟩
  obtain ⟨x, hx⟩ := Option.isSome_iff_exists.1 hhead
  have hone : r.advance.2 = [x] := by
    rw [RxReorder.advance, hx]
  rw [release, if_pos ⟨hpos, Nat.zero_lt_succ 63, hhead⟩]
  intro heq
  have hlen := congrArg (fun ro => ro.1.headSn) heq
  simp only at hlen
  rcases release_headSn k r.advance.1 ([] ++ r.advance.2)
    (by simp [hone]) with hsame | ⟨j, h0, hj, hmv⟩
  · rw [hsame, RxReorder.advance_headSn] at hlen
    exact iterate_snNext_ne (le_refl 1) (by omega) hlen
  · rw [hmv, RxReorder.advance_headSn] at hlen
    refine @iterate_snNext_ne (j + 1) r.headSn (by omega) ?_ hlen
    rw [hone, List.nil_append, List.length_singleton] at hj
    omega

-- ============================================================= one window

/-- `insert` does not move the head. -/
private theorem insert_headSn (r : RxReorder α) (skb : α) (sn : Nat) :
    (r.insert skb sn).1.headSn = r.headSn := by
  rw [RxReorder.insert]
  split <;> rfl

/-- With a short way to go, `slide` turns at least once. -/
private theorem slide_moves {r : RxReorder α} {newHead k : Nat}
    (hk : snSub newHead r.headSn = k) (h0 : 1 ≤ k) (hlt : k < 2048) :
    ∃ j, 1 ≤ j ∧ j ≤ k
      ∧ (slide newHead k (r, [])).1.headSn = snNext^[j] r.headSn := by
  obtain ⟨k, rfl⟩ : ∃ k', k = k' + 1 := ⟨k - 1, by omega⟩
  rw [slide, if_pos ⟨by omega, by omega, Nat.zero_lt_succ 63⟩]
  obtain ⟨j, hj, heq⟩ :=
    slide_headSn newHead k r.advance.1 ([] ++ r.advance.2)
  refine ⟨j + 1, by omega, by omega, ?_⟩
  rw [heq, RxReorder.advance_headSn]
  rfl

/-- The slide phase of `accept`. -/
private def slid (r : RxReorder α) (sn : Nat) : RxReorder α × List α :=
  if r.bufSize ≤ snSub sn r.headSn then
    slide ((sn + 1 + 4096 - r.bufSize) % 4096)
      (snSub ((sn + 1 + 4096 - r.bufSize) % 4096) r.headSn) (r, [])
  else (r, [])

private theorem slid_out_le (r : RxReorder α) (sn : Nat) :
    (slid r sn).2.length ≤ 64 := by
  rw [slid]
  split
  · exact slide_out_le _ _ _ (Nat.zero_le _)
  · exact Nat.zero_le _

/-- The slide phase moves the head, unless there is nothing to slide or
the way is no way up. -/
private theorem slid_cases (r : RxReorder α) {sn : Nat}
    (hrel : snSub sn r.headSn < 2048) :
    (slid r sn = (r, []) ∧ (r.slideBy sn = 0 ∨ 2048 ≤ r.slideBy sn))
      ∨ (¬ (r.slideBy sn = 0 ∨ 2048 ≤ r.slideBy sn)
        ∧ ∃ j, 1 ≤ j ∧ j < 2048
          ∧ (slid r sn).1.headSn = snNext^[j] r.headSn) := by
  rw [slid, RxReorder.slideBy]
  by_cases hbeyond : r.bufSize ≤ snSub sn r.headSn
  · have hk : snSub ((sn + 1 + 4096 - r.bufSize) % 4096) r.headSn
        = snSub sn r.headSn + 1 - r.bufSize := by
      simp only [snSub, modSub] at hrel hbeyond ⊢
      omega
    rw [if_pos hbeyond, hk]
    by_cases hway : snSub sn r.headSn + 1 - r.bufSize < 2048
    · obtain ⟨j, h0, hj, heq⟩ := slide_moves hk (by omega) hway
      exact .inr ⟨by omega, j, h0, by omega, heq⟩
    · refine .inl ⟨?_, by omega⟩
      obtain ⟨k, hk'⟩ : ∃ k, snSub sn r.headSn + 1 - r.bufSize = k + 1 :=
        ⟨snSub sn r.headSn - r.bufSize, by omega⟩
      rw [hk', slide, hk, if_neg (fun hc => hway hc.2.1)]
  · rw [if_neg hbeyond]
    exact .inl ⟨rfl, by omega⟩

/-- `accept` leaves the window as it was exactly when it need not slide,
the frame's cell is taken, and nothing waits at the head; and then it
lets nothing go but the frame. -/
private theorem accept_same_iff (r : RxReorder α) (skb : α) {sn : Nat}
    (hrel : snSub sn r.headSn < 2048) :
    ((r.accept skb sn).1 = r
      ↔ (r.slideBy sn = 0 ∨ 2048 ≤ r.slideBy sn)
        ∧ (r.buf (cellOf sn)).isSome
        ∧ (r.stored = 0 ∨ r.buf (cellOf r.headSn) = none))
      ∧ ((r.accept skb sn).1 = r → (r.accept skb sn).2 = ([], [skb])) := by
  have hacc : r.accept skb sn
      = ((release ((slid r sn).1.insert skb sn).1.stored
            (((slid r sn).1.insert skb sn).1, (slid r sn).2)).1,
          (release ((slid r sn).1.insert skb sn).1.stored
            (((slid r sn).1.insert skb sn).1, (slid r sn).2)).2,
          ((slid r sn).1.insert skb sn).2) := rfl
  -- a head that has moved settles both questions
  have hmoved : ∀ j, 1 ≤ j → j < 4096 →
      (r.accept skb sn).1.headSn = snNext^[j] r.headSn →
      (r.accept skb sn).1 ≠ r := by
    intro j h0 hj hhead heq
    rw [heq] at hhead
    exact iterate_snNext_ne h0 hj hhead.symm
  rcases slid_cases r hrel with ⟨hslid, hway⟩ | ⟨hway, i, hi0, hi, hhead⟩
  · rw [hslid] at hacc
    cases hcell : r.buf (cellOf sn) with
    | some y =>
        have hins : r.insert skb sn = (r, [skb]) := by
          rw [RxReorder.insert, hcell]
        rw [hins] at hacc
        by_cases hquiet : r.stored = 0 ∨ r.buf (cellOf r.headSn) = none
        · have hrel' : release r.stored (r, []) = (r, []) := by
            cases hst : r.stored with
            | zero => rfl
            | succ k =>
                rw [release, if_neg]
                rintro ⟨-, -, hsome⟩
                rcases hquiet with h0 | hnone
                · omega
                · rw [hnone] at hsome
                  cases hsome
          rw [hacc, hrel']
          exact ⟨iff_of_true rfl ⟨hway, rfl, hquiet⟩, fun _ => rfl⟩
        · obtain ⟨hpos, hsome⟩ := not_or.1 hquiet
          have hmv := release_moves (rfl : r.stored = r.stored)
            (Nat.pos_of_ne_zero hpos) (Option.isSome_iff_ne_none.2 hsome)
          rcases release_headSn r.stored r [] (Nat.zero_le _) with
            hsame | ⟨j, h0, hj, heq⟩
          · exact absurd hsame hmv
          · have hne := hmoved j h0 (by omega) (by rw [hacc]; exact heq)
            exact ⟨iff_of_false hne fun hc => hquiet hc.2.2,
              fun heq => absurd heq hne⟩
    | none =>
        -- the frame is stored: the count or the head has changed
        have hne : (r.accept skb sn).1 ≠ r := by
          have hins : (r.insert skb sn).1.stored = r.stored + 1 := by
            rw [RxReorder.insert, hcell]
          rcases release_headSn (r.insert skb sn).1.stored
            (r.insert skb sn).1 [] (Nat.zero_le _) with
            hsame | ⟨j, h0, hj, heq⟩
          · intro heq
            rw [hacc, hsame] at heq
            have hst := congrArg RxReorder.stored heq
            simp only at hst
            omega
          · refine hmoved j h0 (by omega) ?_
            rw [insert_headSn] at heq
            rw [hacc]
            exact heq
        exact ⟨iff_of_false hne fun hc => by simp at hc,
          fun heq => absurd heq hne⟩
  · have hne : (r.accept skb sn).1 ≠ r := by
      rcases release_headSn ((slid r sn).1.insert skb sn).1.stored
        ((slid r sn).1.insert skb sn).1 (slid r sn).2 (slid_out_le r sn) with
        hsame | ⟨j, h0, hj, heq⟩
      · refine hmoved i hi0 (by omega) ?_
        rw [hacc, hsame]
        exact (insert_headSn _ skb sn).trans hhead
      · refine hmoved (j + i) (by omega) (by omega) ?_
        rw [hacc, Function.iterate_add_apply, ← hhead,
          ← insert_headSn (slid r sn).1 skb sn]
        exact heq
    exact ⟨iff_of_false hne fun hc => hway hc.1, fun heq => absurd heq hne⟩

-- ================================================================ frames

/-- Freeing frames leaves the windows alone. -/
private theorem kfreeAll_windows (l : List SkBuff) (s : Mlme) :
    (kfreeAll l s).rxBa = s.rxBa := by
  induction l generalizing s with
  | nil => rfl
  | cons skb l ih => exact (ih (kfreeSkb skb s)).trans rfl

/-- `processRxData` on a frame that goes to the buffer of `tid`. -/
private theorem processRxData_reorder {skb : SkBuff} {s : Mlme}
    {tid : Fin 8} (hconn : rxConnected s = true)
    (htid : reorderTid skb s = some tid) :
    processRxData hw env skb s
      = (kfreeAll (rxReorderInput tid skb (rxSn skb) s.rxBa).freed
            { s with
              rxBa := (rxReorderInput tid skb (rxSn skb) s.rxBa).rxBa },
          some
            { out := (rxReorderInput tid skb (rxSn skb) s.rxBa).out
              needTimer :=
                (rxReorderInput tid skb (rxSn skb) s.rxBa).needTimer }) := by
  rw [processRxData, hconn, htid]
  rfl

/-- The frame's TID has an active window. -/
private theorem reorderTid_active {skb : SkBuff} {s : Mlme} {tid : Fin 8}
    (htid : reorderTid skb s = some tid) :
    ∃ r, s.rxBa tid = some r ∧ r.active = true := by
  simp only [reorderTid] at htid
  split at htid
  · cases htid
  · split at htid
    · split at htid
      next r hr =>
        split at htid
        next hact =>
          rw [← Option.some.inj htid]
          exact ⟨r, hr, hact⟩
        · cases htid
      · cases htid
    · cases htid

/-- Any frame that reaches the buffer of `tid` leaves the windows as they
were exactly when its number is one the window ignores. -/
theorem input_leaves_iff {skb : SkBuff} {s : Mlme} {tid : Fin 8}
    {r : RxReorder SkBuff} (hconn : rxConnected s = true)
    (htid : reorderTid skb s = some tid) (hr : s.rxBa tid = some r) :
    LeavesWindows hw env skb s ↔ r.Ignores (rxSn skb) := by
  have hact : ¬ r.active = false := by
    obtain ⟨r', hr', hact⟩ := reorderTid_active htid
    have heq := Option.some.inj (hr.symm.trans hr')
    rw [heq, hact]
    decide
  simp only [LeavesWindows, processRxData_reorder hconn htid]
  by_cases hstale : 2048 ≤ snSub (rxSn skb) r.headSn
  · -- before the window: freed, and nothing else
    have ho : rxReorderInput tid skb (rxSn skb) s.rxBa
        = { rxBa := s.rxBa, out := [], freed := [skb]
            needTimer := false } := by
      rw [rxReorderInput, hr]
      simp only
      rw [if_neg hact, if_pos hstale]
    rw [ho]
    refine iff_of_true ⟨rfl, .inr rfl, ?_⟩ (.inl hstale)
    rintro p ⟨⟩
    exact .inl rfl
  · have ho : rxReorderInput tid skb (rxSn skb) s.rxBa
        = { rxBa := Function.update s.rxBa tid
              (some (r.accept skb (rxSn skb)).1)
            out := (r.accept skb (rxSn skb)).2.1
            freed := (r.accept skb (rxSn skb)).2.2
            needTimer := 0 < (r.accept skb (rxSn skb)).1.stored } := by
      rw [rxReorderInput, hr]
      simp only
      rw [if_neg hact, if_neg hstale]
    obtain ⟨hiff, hgo⟩ := accept_same_iff r skb
      (Nat.lt_of_not_le hstale)
    rw [ho]
    constructor
    · rintro ⟨hrx, -, -⟩
      rw [kfreeAll_windows] at hrx
      have hself := congrFun hrx tid
      simp only [Function.update_self, hr, Option.some.injEq] at hself
      exact .inr (hiff.1 hself)
    · intro hign
      have hsame := hiff.2 (hign.resolve_left hstale)
      have hupd : Function.update s.rxBa tid (some r) = s.rxBa := by
        rw [← hr, Function.update_eq_self]
      simp only [hgo hsame, hsame, hupd]
      refine ⟨rfl, .inr rfl, ?_⟩
      rintro p ⟨⟩
      exact .inl rfl

-- ================================================================ result

/-- No frame from outside the agreement that reaches an open window
disturbs it. -/
def StrayHarmless (hw : Hw) (env : Env) (skb : SkBuff) (s : Mlme) : Prop :=
  ∀ tid, reorderTid skb s = some tid → OutsideAgreement skb →
    LeavesWindows hw env skb s

/-- Such a frame comes while data frames are dropped, or its number is
one the window ignores. -/
def StrayIgnored (skb : SkBuff) (s : Mlme) : Prop :=
  ∀ tid r, reorderTid skb s = some tid → s.rxBa tid = some r →
    OutsideAgreement skb →
    rxConnected s = false ∨ r.Ignores (rxSn skb)

/-- A received frame from outside the agreement of its TID leaves the
reorder buffers as they were, in whatever state it comes, exactly when
the window ignores its number. -/
theorem stray_harmless_iff (hw : Hw) (env : Env) (skb : SkBuff)
    (s : Mlme) :
    StrayHarmless hw env skb s ↔ StrayIgnored skb s := by
  constructor
  · intro h tid r htid hr hout
    cases hconn : rxConnected s with
    | false => exact .inl rfl
    | true => exact .inr ((input_leaves_iff hconn htid hr).1 (h tid htid hout))
  · intro h tid htid hout
    obtain ⟨r, hr, -⟩ := reorderTid_active htid
    cases hconn : rxConnected s with
    | false =>
        -- data frames are dropped in this state
        rw [LeavesWindows, processRxData, hconn]
        refine ⟨rfl, .inr rfl, ?_⟩
        intro p hp
        cases hp
    | true =>
        refine (input_leaves_iff hconn htid hr).2 ?_
        rcases h tid r htid hr hout with hoff | hign
        · rw [hconn] at hoff
          cases hoff
        · exact hign

/-- A QoS Null frame of the sample network's AP on TID 0, with sequence
number 100. -/
def strayNull : SkBuff :=
  { data := [0xC8, 0x02, 0, 0] ++ sampleMac.toList ++ sampleAp.toList
      ++ sampleAp.toList ++ [0x40, 0x06, 0, 0] }

/-- A link with a window of 64 open on TID 0, its head at 0. -/
def openWindow : Mlme :=
  { Mlme.init true with
    state := .connected
    rxBa := (rxBaSetup true 0 0 64 RxBa.empty).rxBa }

/-- The QoS Null frame slides the window from 0 to 37 and takes a cell in
it. -/
theorem null_frame_slides_window :
    ¬ StrayHarmless (sampleHw samplePrims) {} strayNull openWindow := by
  intro h
  have hkeep := (h 0 (by decide) (.inl (by decide))).1
  have hhead := congrArg (fun r => r.map RxReorder.headSn)
    (congrFun hkeep 0)
  exact absurd hhead (by decide)

end Rtw88
