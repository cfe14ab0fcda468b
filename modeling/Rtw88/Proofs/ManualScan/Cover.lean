/-
Every accepted scan covers its own channels, where the fields are reset
only when no pass is in its loop.

The invariant (`CoverInv`) is that the locals and the record of every
pass agree with the statement it stands at (`Stands`), and that a pass in
its loop belongs to the scan accepted last. Its fields are its own: the
other threads only raise the abort flag, and that is recorded
(`sysStep_manual`); what the tail of an earlier pass writes comes when no
pass is there to read it.

# A pass on its own

`AtStatement` says of each statement of the loop what the locals are
there and which channels have been visited: those below the index, and at
the statements behind the visit the one at the index too. `Stands.step`
carries it from one statement to the next, `Stands.last` reads off at the
end of the loop that nothing is left: every channel was visited, or the
scan was asked to stop.

# Beside the others

What another thread does between two statements has to leave this
standing (`Stands.frame`, `Stands.ask`), and so does a statement of
another pass (`CoverInv.rest`). The passes are a list from which one is
taken out and put back changed, so the invariant is stated up to a
permutation (`perm_takeOut`).

The run at the end shows what the condition is for: a `cmdScan` accepted
between the last statements of the pass before it has its fields reset
under it.
-/
import Rtw88.Proofs.ManualScan.Passes

namespace Rtw88

variable {hw : Hw}

-- ============================================================ where it stands

/-- The fields of the manual scan are those of scan `n`. -/
private def Own (hw : Hw) (asked : List Nat) (n : Nat) (s : Mlme) : Prop :=
  ∃ abort, manual s
      = (enabledChannels hw, (enabledChannels hw).length, abort)
    ∧ (abort = true ↔ n ∈ asked)

/-- The pass visited every channel, or has an excuse. -/
private def PassCovered (hw : Hw) (asked : List Nat) (p : Pass) : Prop :=
  p.visited = enabledChannels hw ∨ p.scan ∈ asked ∨ p.gone = true

/-- What the locals and the record of a pass are at its statement. -/
private def AtStatement (hw : Hw) (p : Pass) : Prop :=
  let chans := enabledChannels hw
  match p.pc with
  | .entry | .readCount => p.visited = []
  | .readReturn count | .start count _ =>
      count = chans.length ∧ p.visited = []
  | .head i count _ => count = chans.length ∧ p.visited = chans.take i
  | .fetch i count _ =>
      count = chans.length ∧ i < count ∧ p.visited = chans.take i
  | .offHome chan i count _ | .leave chan i count _ | .tune chan i count _
  | .switch chan i count _ =>
      count = chans.length ∧ chans[i]? = some chan
        ∧ p.visited = chans.take i
  | .probe _ i count _ | .dwell i count _ =>
      count = chans.length ∧ p.visited = chans.take (i + 1)
  | _ => True

/-- Up to the end of its loop a pass has its own fields; then it has
covered its channels. -/
private structure Stands (hw : Hw) (asked : List Nat) (s : Mlme) (p : Pass) :
    Prop where
  own : p.pc.inLoop = true → Own hw asked p.scan s
  place : AtStatement hw p
  covered : p.pc.inLoop = false → PassCovered hw asked p

/-- There are at most 256 channels. -/
private theorem enabledChannels_length :
    (enabledChannels hw).length ≤ 256 := by
  rw [enabledChannels, List.length_take]
  exact Nat.min_le_left _ _

/-- Inside the loop the fields are read as the pass's own. -/
private theorem Own.reads {asked : List Nat} {n : Nat} {s : Mlme}
    (h : Own hw asked n s) :
    s.manualScanChannels = enabledChannels hw
      ∧ s.manualScanChannelCount = (enabledChannels hw).length
      ∧ (s.manualScanAbort = true ↔ n ∈ asked) := by
  obtain ⟨abort, heq, hiff⟩ := h
  obtain ⟨hchans, hrest⟩ := Prod.mk.inj heq
  obtain ⟨hcount, habort⟩ := Prod.mk.inj hrest
  rw [← habort] at hiff
  exact ⟨hchans, hcount, hiff⟩

/-- No statement of the loop writes the fields. -/
private theorem Own.step {asked : List Nat} {n : Nat} {s : Mlme}
    (h : Own hw asked n s) (env : Env) {pc : PassPc}
    (hpc : pc.inLoop = true) : Own hw asked n (passStep hw env pc s).2 := by
  have hsame : manual (passStep hw env pc s).2 = manual s := by
    rw [passStep_manual]
    cases pc <;> first | rfl | cases hpc
  rw [Own, hsame]
  exact h

/-- One statement, and the pass goes on. -/
private theorem Stands.step {asked : List Nat} {s : Mlme} {p : Pass}
    (h : Stands hw asked s p) (env : Env) {pc' : PassPc}
    (hr : (passStep hw env p.pc s).1 = some pc') :
    Stands hw asked (passStep hw env p.pc s).2
      { p.record s with pc := pc' } := by
  obtain ⟨pc, n, visited, gone⟩ := p
  obtain ⟨hown, hat, hcov⟩ := h
  have hkeep : pc.inLoop = true → Own hw asked n (passStep hw env pc s).2 :=
    fun hpc => (hown hpc).step env hpc
  -- behind the loop only the cover counts
  have hafter : ∀ pc', pc.inLoop = false → pc'.inLoop = false →
      AtStatement hw { pc := pc', scan := n, visited, gone } →
      Stands hw asked (passStep hw env pc s).2
        { pc := pc', scan := n, visited, gone } := by
    intro pc' hpc hpc' hat'
    refine ⟨fun hin => ?_, hat', fun _ => hcov hpc⟩
    rw [hpc'] at hin
    cases hin
  cases pc with
  | entry =>
      have hpc : (if s.up then PassPc.readCount else .goneDone) = pc' :=
        Option.some.inj hr
      cases hup : s.up with
      | true =>
          rw [hup, if_pos rfl] at hpc
          subst hpc
          exact ⟨fun _ => hkeep rfl, hat, (fun h => by cases h)⟩
      | false =>
          rw [hup, if_neg Bool.false_ne_true] at hpc
          subst hpc
          refine ⟨(fun h => by cases h), trivial, fun _ => .inr (.inr ?_)⟩
          show (!s.up) = true
          rw [hup]
          rfl
  | readCount =>
      obtain rfl := Option.some.inj hr
      obtain ⟨-, hcount, -⟩ := (hown rfl).reads
      refine ⟨fun _ => hkeep rfl, ⟨?_, hat⟩, (fun h => by cases h)⟩
      rw [hcount, Nat.min_eq_left enabledChannels_length]
  | readReturn count =>
      obtain rfl := Option.some.inj hr
      exact ⟨fun _ => hkeep rfl, hat, (fun h => by cases h)⟩
  | start count connectedScan =>
      obtain rfl := Option.some.inj hr
      exact ⟨fun _ => hkeep rfl, ⟨hat.1, hat.2⟩, (fun h => by cases h)⟩
  | head i count connectedScan =>
      obtain ⟨hcount, hvisited⟩ := hat
      obtain ⟨-, -, habort⟩ := (hown rfl).reads
      obtain rfl := Option.some.inj hr
      by_cases hgo : (i < count && !s.manualScanAbort) = true
      · simp only [if_pos hgo]
        have hlt : i < count := of_decide_eq_true (Bool.and_eq_true_iff.1 hgo).1
        exact ⟨fun _ => hkeep rfl, ⟨hcount, hlt, hvisited⟩,
          (fun h => by cases h)⟩
      · simp only [if_neg hgo]
        refine ⟨(fun h => by cases h), trivial, fun _ => ?_⟩
        -- every channel was visited, or the abort flag is up
        by_cases hlt : i < count
        · refine .inr (.inl (habort.1 ?_))
          cases hab : s.manualScanAbort with
          | true => rfl
          | false =>
              rw [hab, decide_eq_true hlt] at hgo
              exact absurd rfl hgo
        · refine .inl (hvisited.trans (List.take_of_length_le ?_))
          omega
  | fetch i count connectedScan =>
      obtain ⟨hcount, hlt, hvisited⟩ := hat
      obtain ⟨hchans, -, -⟩ := (hown rfl).reads
      have hget : s.manualScanChannels[i]?
          = some ((enabledChannels hw).get ⟨i, hcount ▸ hlt⟩) := by
        rw [hchans]
        exact List.getElem?_eq_getElem _
      obtain rfl := Option.some.inj hr
      simp only [hget]
      exact ⟨fun _ => hkeep rfl,
        ⟨hcount, List.getElem?_eq_getElem _, hvisited⟩, (fun h => by cases h)⟩
  | offHome chan i count connectedScan =>
      obtain rfl := Option.some.inj hr
      exact ⟨fun _ => hkeep rfl, hat, (fun h => by cases h)⟩
  | leave chan i count connectedScan =>
      obtain rfl := Option.some.inj hr
      exact ⟨fun _ => hkeep rfl, hat, (fun h => by cases h)⟩
  | tune chan i count connectedScan =>
      obtain rfl := Option.some.inj hr
      exact ⟨fun _ => hkeep rfl, hat, (fun h => by cases h)⟩
  | switch chan i count connectedScan =>
      obtain ⟨hcount, hget, htake⟩ := hat
      have hvisited : visited = (enabledChannels hw).take i := htake
      obtain rfl := Option.some.inj hr
      refine ⟨fun _ => hkeep rfl, ⟨hcount, ?_⟩, (fun h => by cases h)⟩
      show visited ++ [chan] = _
      rw [hvisited, List.take_add_one, hget]
      rfl
  | probe chan i count connectedScan =>
      obtain rfl := Option.some.inj hr
      exact ⟨fun _ => hkeep rfl, hat, (fun h => by cases h)⟩
  | dwell i count connectedScan =>
      obtain rfl := Option.some.inj hr
      exact ⟨fun _ => hkeep rfl, hat, (fun h => by cases h)⟩
  | goneCount => cases hr
  | clearCount => cases hr
  | goneDone =>
      obtain rfl := Option.some.inj hr
      exact hafter _ rfl rfl trivial
  | loopEnd connectedScan =>
      obtain rfl := Option.some.inj hr
      exact hafter _ rfl rfl trivial
  | complete connectedScan =>
      obtain rfl := Option.some.inj hr
      exact hafter _ rfl rfl trivial
  | back connectedScan =>
      obtain rfl := Option.some.inj hr
      exact hafter _ rfl rfl trivial
  | done =>
      obtain rfl := Option.some.inj hr
      exact hafter _ rfl rfl trivial
  | clearAbort =>
      obtain rfl := Option.some.inj hr
      exact hafter _ rfl rfl trivial

/-- The last statement: the channels are covered. -/
private theorem Stands.last {asked : List Nat} {s : Mlme} {p : Pass}
    (h : Stands hw asked s p) (env : Env)
    (hr : (passStep hw env p.pc s).1 = none) :
    PassCovered hw asked (p.record s) := by
  obtain ⟨pc, n, visited, gone⟩ := p
  cases pc with
  | goneCount => exact h.covered rfl
  | clearCount => exact h.covered rfl
  | _ => cases hr

/-- The fields are as they were. -/
private theorem Stands.frame {asked : List Nat} {s s' : Mlme} {p : Pass}
    (h : Stands hw asked s p)
    (heq : p.pc.inLoop = true → manual s' = manual s) :
    Stands hw asked s' p := by
  refine ⟨fun hin => ?_, h.place, h.covered⟩
  rw [Own, heq hin]
  exact h.own hin

/-- A scan that was asked to stop stays so. -/
private theorem PassCovered.mono {asked asked' : List Nat} {p : Pass}
    (hsub : ∀ n ∈ asked, n ∈ asked') (h : PassCovered hw asked p) :
    PassCovered hw asked' p :=
  h.imp_right (Or.imp_left (hsub _))

/-- The scan accepted last is asked to stop; a pass in its loop is that
scan's. -/
private theorem Stands.ask {asked : List Nat} {s s' : Mlme} {p : Pass}
    {n : Nat} (h : Stands hw asked s p)
    (heq : manual s'
      = (s.manualScanChannels, s.manualScanChannelCount, true))
    (hn : p.pc.inLoop = true → p.scan = n) : Stands hw (n :: asked) s' p := by
  refine ⟨fun hin => ?_, h.place, fun hout =>
    (h.covered hout).mono fun _ => List.mem_cons_of_mem _⟩
  obtain ⟨hchans, hcount, -⟩ := (h.own hin).reads
  rw [hchans, hcount] at heq
  refine ⟨true, heq, fun _ => ?_, fun _ => rfl⟩
  rw [hn hin]
  exact List.mem_cons_self ..

/-- A pass that `cmdScan` has queued. -/
private theorem Stands.queued {asked : List Nat} {s : Mlme} {n : Nat}
    (heq : manual s
      = (enabledChannels hw, (enabledChannels hw).length, false))
    (hn : n ∉ asked) : Stands hw asked s (Pass.queued n) :=
  ⟨fun _ => ⟨false, heq, (fun h => by cases h), fun h => absurd h hn⟩, rfl,
    (fun h => by cases h)⟩

-- ============================================================== the invariant

/-- Every pass stands as it should, and one in its loop is that of the
scan accepted last; every scan is accounted for. -/
private structure CoverInv (hw : Hw) (st : ScanSys) : Prop where
  scans : st.sys.scans = []
  stands : ∀ p ∈ st.passes, Stands hw st.asked st.sys.mlme p
  last : ∀ p ∈ st.passes, p.pc.inLoop = true → p.scan + 1 = st.accepted
  onePass : ((st.passes ++ st.ended).map Pass.scan).Perm
    (List.range st.accepted)
  covered : ∀ p ∈ st.ended, PassCovered hw st.asked p
  asked : ∀ n ∈ st.asked, n < st.accepted
  first : st.accepted = 0 → st.sys.mlme.manualScanChannelCount = 0

/-- It says what is to be shown. -/
private theorem CoverInv.covers {st : ScanSys} (h : CoverInv hw st) :
    ScansCovered hw st :=
  ⟨h.onePass, h.covered, fun p hp hin => (h.stands p hp).own hin⟩

private theorem CoverInv.init (powered : Bool) :
    CoverInv hw (ScanSys.init powered) :=
  ⟨rfl, fun _ h => (by cases h), fun _ h => (by cases h), List.Perm.refl _,
    fun _ h => (by cases h), fun _ h => (by cases h), fun _ => rfl⟩

-- ========================================================= a statement

/-- The record of a pass is that of the same scan. -/
private theorem record_scan (p : Pass) (s : Mlme) :
    (p.record s).scan = p.scan := by
  rw [Pass.record]
  split <;> rfl

/-- No pass enters its loop again. -/
private theorem inLoop_of_next {env : Env} {pc pc' : PassPc} {s : Mlme}
    (hr : (passStep hw env pc s).1 = some pc') (hin : pc'.inLoop = true) :
    pc.inLoop = true := by
  cases pc <;> first
    | rfl
    | (obtain rfl := Option.some.inj hr; cases hin)
    | cases hr

/-- A statement that resets nothing leaves the fields. -/
private theorem passStep_keeps {env : Env} {pc : PassPc} (s : Mlme)
    (h : pc.resets = false) : manual (passStep hw env pc s).2 = manual s := by
  rw [passStep_manual]
  cases pc <;> first | rfl | cases h

/-- What a statement of one pass leaves of another. -/
private theorem CoverInv.rest {st : ScanSys} (h : CoverInv hw st) {i : Nat}
    {env : Env} {p : Pass} (hi : st.passes[i]? = some p)
    (hc : ResetsAlone hw st (.pass i env)) :
    ∀ q ∈ st.passes, Stands hw st.asked
      (passStep hw env p.pc st.sys.mlme).2 q := by
  intro q hq
  refine (h.stands q hq).frame fun hin => ?_
  apply passStep_keeps
  cases hreset : p.pc.resets with
  | false => rfl
  | true =>
      rw [hc p hi hreset q hq] at hin
      cases hin

/-- Taking pass `i` out leaves the others. -/
private theorem perm_takeOut {ps : List Pass} {i : Nat} {p : Pass}
    (hi : ps[i]? = some p) : (p :: ps.eraseIdx i).Perm ps := by
  obtain ⟨hlt, rfl⟩ := List.getElem?_eq_some_iff.1 hi
  exact List.getElem_cons_eraseIdx_perm hlt

/-- A statement of a pass. -/
private theorem CoverInv.pass {st : ScanSys} (h : CoverInv hw st) (i : Nat)
    (env : Env) (hc : ResetsAlone hw st (.pass i env)) :
    CoverInv hw (stepPass hw i env st) := by
  rw [stepPass]
  cases hi : st.passes[i]? with
  | none => exact h
  | some p =>
      have hp : p ∈ st.passes := List.mem_of_getElem? hi
      have hrest := h.rest hi hc
      have hscan := record_scan p st.sys.mlme
      have hfirst : st.accepted = 0 →
          (passStep hw env p.pc st.sys.mlme).2.manualScanChannelCount = 0 := by
        intro hzero
        have hcount := congrArg (fun m => m.2.1)
          (@passStep_manual hw env p.pc st.sys.mlme)
        refine hcount.trans ?_
        split
        · rfl
        · rfl
        · exact h.first hzero
        · exact h.first hzero
      simp only
      cases hr : (passStep hw env p.pc st.sys.mlme).1 with
      | some pc' =>
          refine ⟨h.scans, fun q hq => ?_, fun q hq hin => ?_, ?_, h.covered,
            h.asked, hfirst⟩
          · rcases List.mem_or_eq_of_mem_set hq with hq | rfl
            · exact hrest q hq
            · exact (h.stands p hp).step env hr
          · rcases List.mem_or_eq_of_mem_set hq with hq | rfl
            · exact h.last q hq hin
            · exact (congrArg (· + 1) hscan).trans
                (h.last p hp (inLoop_of_next hr hin))
          · have hsame : (st.passes.set i
                { p.record st.sys.mlme with pc := pc' }).map Pass.scan
                = st.passes.map Pass.scan := by
              obtain ⟨hlt, rfl⟩ := List.getElem?_eq_some_iff.1 hi
              rw [List.map_set]
              show (st.passes.map Pass.scan).set i (Pass.record _ _).scan = _
              rw [hscan, ← List.getElem_map Pass.scan
                (h := by rw [List.length_map]; exact hlt)]
              exact List.set_getElem_self _
            rw [List.map_append, hsame, ← List.map_append]
            exact h.onePass
      | none =>
          refine ⟨h.scans, fun q hq => hrest q (List.mem_of_mem_eraseIdx hq),
            fun q hq => h.last q (List.mem_of_mem_eraseIdx hq), ?_,
            fun q hq => ?_, h.asked, hfirst⟩
          · have hout := (perm_takeOut hi).map Pass.scan
            refine List.Perm.trans ?_ h.onePass
            simp only [List.map_append, List.map_cons, List.map_nil, hscan]
            rw [← List.append_assoc]
            exact (List.perm_append_singleton _ _).trans
              (hout.append_right _)
          · rcases List.mem_append.1 hq with hq | hq
            · exact h.covered q hq
            · rw [List.mem_singleton.1 hq]
              exact (h.stands p hp).last env hr

-- ============================================== an event of the other threads

/-- A `cmdScan` that enters the thread came in IDLE and makes a manual
scan; no call is pending then. -/
private theorem startsPass_alone {st : ScanSys} {e : Event}
    (hc : ResetsAlone hw st (.sys e))
    (h : startsPass hw st.sys.mlme e = true) :
    (∀ q ∈ st.passes, q.pc.inLoop = false)
      ∧ enterPass st.accepted st.passes
        = st.passes ++ [Pass.queued st.accepted] := by
  have hout : ∀ q ∈ st.passes, q.pc.inLoop = false := by
    cases e with
    | cmdScan env =>
        obtain ⟨hidle, hup, hsoft⟩ := cmdScan_enters h
        exact hc hidle hup hsoft
    | _ => cases h
  refine ⟨hout, if_neg fun hany => ?_⟩
  obtain ⟨q, hq, hentry⟩ := List.any_eq_true.1 hany
  have hin := hout q hq
  rw [beq_iff_eq.1 hentry] at hin
  cases hin

/-- Only a scan that has a count is asked to stop. -/
private theorem asksAbort_count {s : Sys} {e : Event}
    (h : asksAbort s e = true) : s.mlme.manualScanChannelCount ≠ 0 := by
  intro hcount
  rw [asksAbort, hcount, bne_self_eq_false, Bool.and_false] at h
  cases h

/-- It starts a scan. -/
private theorem CoverInv.starts {st : ScanSys} (h : CoverInv hw st)
    {e : Event} (hc : ResetsAlone hw st (.sys e))
    (hstart : startsPass hw st.sys.mlme e = true) :
    CoverInv hw (stepOther hw e st) := by
  obtain ⟨hout, henter⟩ := startsPass_alone hc hstart
  have hmanual := @sysStep_manual hw st.sys h.scans e
  rw [hstart, if_pos rfl] at hmanual
  have hask : asksAbort st.sys e = false := by
    cases e <;> first | rfl | cases hstart
  have hstep : stepOther hw e st
      = { sys := { sysStep hw st.sys e with scans := [] }
          passes := st.passes ++ [Pass.queued st.accepted]
          offloaded := offloadedAfter hw st.sys e st.offloaded
          accepted := st.accepted + 1
          asked := st.asked
          ended := st.ended } := by
    simp only [stepOther, hstart, henter, hask, if_true]
    rfl
  have hfresh : st.accepted ∉ st.asked := fun hin =>
    Nat.lt_irrefl _ (h.asked _ hin)
  rw [hstep]
  refine ⟨rfl, fun q hq => ?_, fun q hq hin => ?_, ?_, h.covered,
    fun n hn => Nat.lt_succ_of_lt (h.asked n hn), (fun hz => by cases hz)⟩
  · rcases List.mem_append.1 hq with hq | hq
    · refine (h.stands q hq).frame fun hin => ?_
      rw [hout q hq] at hin
      cases hin
    · rw [List.mem_singleton.1 hq]
      exact .queued hmanual hfresh
  · rcases List.mem_append.1 hq with hq | hq
    · rw [hout q hq] at hin
      cases hin
    · rw [List.mem_singleton.1 hq]
      rfl
  · rw [List.range_succ, List.append_assoc, List.map_append]
    simp only [List.map_append, List.map_cons, List.map_nil]
    have hmid := (@List.perm_append_comm _ [(Pass.queued st.accepted).scan]
      (st.ended.map Pass.scan)).append_left (st.passes.map Pass.scan)
    refine hmid.trans ?_
    rw [← List.append_assoc, ← List.map_append]
    exact h.onePass.append_right _

/-- It asks the scan accepted last to stop. -/
private theorem CoverInv.asks {st : ScanSys} (h : CoverInv hw st)
    {e : Event} (hstart : startsPass hw st.sys.mlme e = false)
    (hask : asksAbort st.sys e = true) :
    CoverInv hw (stepOther hw e st) := by
  have hmanual := @sysStep_manual hw st.sys h.scans e
  rw [hstart, hask, if_neg Bool.false_ne_true, if_pos rfl] at hmanual
  have hstep : stepOther hw e st
      = { sys := { sysStep hw st.sys e with scans := [] }
          passes := st.passes
          offloaded := offloadedAfter hw st.sys e st.offloaded
          accepted := st.accepted
          asked := (st.accepted - 1) :: st.asked
          ended := st.ended } := by
    simp only [stepOther, hstart, hask]
    rfl
  have hsome : st.accepted ≠ 0 := fun hzero =>
    asksAbort_count hask (h.first hzero)
  rw [hstep]
  refine ⟨rfl, fun q hq => (h.stands q hq).ask hmanual fun hin => ?_, h.last,
    h.onePass, fun q hq => (h.covered q hq).mono fun _ =>
      List.mem_cons_of_mem _, fun n hn => ?_, fun hzero => absurd hzero hsome⟩
  · have hlast := h.last q hq hin
    omega
  · rcases List.mem_cons.1 hn with rfl | hn
    · exact Nat.sub_one_lt hsome
    · exact h.asked n hn

/-- An event of the other threads. -/
private theorem CoverInv.other {st : ScanSys} (h : CoverInv hw st) (e : Event)
    (hc : ResetsAlone hw st (.sys e)) : CoverInv hw (stepOther hw e st) := by
  cases hstart : startsPass hw st.sys.mlme e with
  | true => exact h.starts hc hstart
  | false =>
      cases hask : asksAbort st.sys e with
      | true => exact h.asks hstart hask
      | false =>
          -- the fields stay
          have hmanual := @sysStep_manual hw st.sys h.scans e
          rw [hstart, hask, if_neg Bool.false_ne_true,
            if_neg Bool.false_ne_true] at hmanual
          have hstep : stepOther hw e st
              = { st with
                  sys := { sysStep hw st.sys e with scans := [] }
                  offloaded := offloadedAfter hw st.sys e st.offloaded } := by
            simp only [stepOther, hstart, hask]
            rfl
          rw [hstep]
          exact ⟨rfl, fun q hq => (h.stands q hq).frame fun _ => hmanual,
            h.last, h.onePass, h.covered, h.asked, fun hzero =>
              (congrArg (fun m => m.2.1) hmanual).trans (h.first hzero)⟩

private theorem CoverInv.step {st : ScanSys} {e : ScanEvent}
    (h : CoverInv hw st) (hc : ResetsAlone hw st e) :
    CoverInv hw (scanStep hw st e) := by
  cases e with
  | sys e => exact h.other e hc
  | pass i env => exact h.pass i env hc

-- =================================================================== the runs

/-- In every run in which the fields are reset only when no pass is in
its loop, and no manual scan is started then, every accepted scan has one
pass, which covers the channels its `cmdScan` stored. -/
theorem scans_covered (powered : Bool) (es : List ScanEvent)
    (hes : Along (scanStep hw) (ResetsAlone hw) (ScanSys.init powered) es) :
    ScansCovered hw (scanRun hw powered es) :=
  (inv_of_along (fun _ _ hinv hc => hinv.step hc) (CoverInv.init powered)
    hes).covers

/-- A scan and its pass to the end, and another one. -/
theorem two_scans_covered :
    ScansCovered manualHw (scanRun manualHw true
      (scannedEvents ++ passEvents 2 ++ scannedEvents ++ passEvents 2)) :=
  scans_covered true _ (by decide +kernel)

/-- The second `cmdScan` comes when `scanDone` of the first pass has made
the state IDLE; the tail of that pass clears the count before the second
pass has read it, which then visits no channel and ends. -/
theorem tail_loses_scan :
    ¬ ScansCovered manualHw (scanRun manualHw true
      (scannedEvents ++ [.sys (.cmdScan {})] ++ passEvents 13)) := by
  intro h
  have hended : (scanRun manualHw true
      (scannedEvents ++ [.sys (.cmdScan {})] ++ passEvents 13)).ended[1]?
      = some { pc := .clearCount, scan := 1, visited := [], gone := false } := by
    decide +kernel
  rcases h.covered _ (List.mem_of_getElem? hended) with hall | hasked | hgone
  · exact absurd hall (by decide +kernel)
  · exact absurd hasked (by decide +kernel)
  · cases hgone

end Rtw88
