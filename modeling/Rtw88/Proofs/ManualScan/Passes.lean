/-
One pass of the manual scan, statement by statement.

Left alone from one sleep to the next it does what `runManualScan` of
the model does (`runManualScan_stretch`), and only its last statements
write the fields of the manual scan (`passStep_manual`).

The rest of the model has the pass in stretches, cut where it sleeps,
since nothing else needs more. Whether two scans run into each other is
decided between two statements, so there the pass is cut at each, and the
stretch lemma is the bridge between the two: for each place at which a
stretch begins it runs the statements to the next sleep.
-/
import Rtw88.Proofs.ManualScan.Frame

namespace Rtw88

variable {hw : Hw} {env : Env}

/-- `k` statements of a pass, or fewer if it returns. -/
def passSteps (hw : Hw) (env : Env) :
    Nat → PassPc → Mlme → Option PassPc × Mlme
  | 0, pc, s => (some pc, s)
  | k + 1, pc, s =>
      match passStep hw env pc s with
      | (some pc, s) => passSteps hw env k pc s
      | (none, s) => (none, s)

/-- The statement behind the sleep a pass is in. -/
def ScanPc.statement : ScanPc → PassPc
  | .entry => .entry
  | .chan i count connectedScan => .head i count connectedScan
  | .leave c i count => .tune c i count true
  | .dwell i count connectedScan => .dwell i count connectedScan

private theorem passSteps_succ {k : Nat} {pc pc' : PassPc} {s s' : Mlme}
    (h : passStep hw env pc s = (some pc', s')) :
    passSteps hw env (k + 1) pc s = passSteps hw env k pc' s' := by
  rw [passSteps, h]

/-- Where the loop goes on. -/
private theorem passStep_head_on {i count : Nat} {connectedScan : Bool}
    {s : Mlme} (h : (i < count && !s.manualScanAbort) = true) :
    passStep hw env (.head i count connectedScan) s
      = (some (.fetch i count connectedScan), s) := by
  rw [passStep, if_pos h]

/-- Where it ends. -/
private theorem passStep_head_off {i count : Nat} {connectedScan : Bool}
    {s : Mlme} (h : ¬ (i < count && !s.manualScanAbort) = true) :
    passStep hw env (.head i count connectedScan) s
      = (some (.loopEnd connectedScan), s) := by
  rw [passStep, if_neg h]

/-- From one sleep to the next a pass left alone does what the model's
`runManualScan` does. -/
theorem runManualScan_stretch (pc : ScanPc) (s : Mlme) :
    ∃ k, passSteps hw env k pc.statement s
      = ((runManualScan hw env pc s).1.map ScanPc.statement,
        (runManualScan hw env pc s).2) := by
  cases pc with
  | entry =>
      rw [ScanPc.statement, runManualScan]
      cases hup : s.up with
      | false =>
          refine ⟨3, ?_⟩
          have hstep : passStep hw env .entry s = (some .goneDone, s) := by
            simp only [passStep, hup]
            rfl
          rw [passSteps_succ hstep]
          rfl
      | true =>
          refine ⟨4, ?_⟩
          have hstep : passStep hw env .entry s = (some .readCount, s) := by
            simp only [passStep, hup, if_true]
          rw [passSteps_succ hstep]
          rfl
  | chan i count connectedScan =>
      rw [ScanPc.statement, runManualScan]
      by_cases hgo : (i < count && !s.manualScanAbort) = true
      · rw [if_pos hgo]
        cases hchan : s.manualScanChannels[i]? with
        | none =>
            refine ⟨2, ?_⟩
            have hnext : passStep hw env (.fetch i count connectedScan) s
                = (some (.head (i + 1) count connectedScan), s) := by
              rw [passStep, hchan]
            rw [passSteps_succ (passStep_head_on hgo), passSteps_succ hnext]
            rfl
        | some chan =>
            have hfetch : passStep hw env (.fetch i count connectedScan) s
                = (some (.offHome chan i count connectedScan), s) := by
              rw [passStep, hchan]
            cases connectedScan with
            | true =>
                refine ⟨4, ?_⟩
                rw [passSteps_succ (passStep_head_on hgo),
                  passSteps_succ hfetch]
                rfl
            | false =>
                refine ⟨7, ?_⟩
                rw [passSteps_succ (passStep_head_on hgo),
                  passSteps_succ hfetch]
                rfl
      · rw [if_neg hgo]
        refine ⟨7, ?_⟩
        rw [passSteps_succ (passStep_head_off hgo)]
        rfl
  | leave chan i count => exact ⟨3, rfl⟩
  | dwell i count connectedScan => exact ⟨1, rfl⟩

/-- Only the last statements write the fields of the manual scan. -/
theorem passStep_manual (pc : PassPc) (s : Mlme) :
    manual (passStep hw env pc s).2
      = match pc with
        | .goneCount | .clearCount =>
            (s.manualScanChannels, 0, s.manualScanAbort)
        | .clearAbort =>
            (s.manualScanChannels, s.manualScanChannelCount, false)
        | _ => manual s := by
  have hhome : ∀ (b : Bool) (t : Mlme),
      manual (setOnHomeChannel b t) = manual t := fun _ _ => rfl
  cases pc with
  | goneDone => exact manual_scanDone true s
  | leave chan i count connectedScan =>
      cases connectedScan with
      | true => exact manual_eq (scanPart_visitHome true s)
      | false => rfl
  | probe chan i count connectedScan =>
      show manual (if _ then _ else _) = manual s
      split
      · rfl
      · exact manual_eq (scanPart_txProbeRequest s)
  | dwell i count connectedScan =>
      show manual (if _ then _ else _) = manual s
      split
      · rw [hhome, manual_eq (scanPart_visitHome _ _)]
      · rfl
  | back connectedScan =>
      cases connectedScan with
      | true => exact manual_eq (scanPart_visitHome false s)
      | false => rfl
  | done => exact manual_scanDone _ s
  | _ => rfl

end Rtw88
