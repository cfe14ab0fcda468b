/-
Who writes the fields of the manual scan: `cmdScan` when it enters the
thread, whoever asks a scan to stop, and the passes. Everything else
leaves them (`sysStep_manual`).

The fields are a few of the object's (`manual`), and most functions write
others; for these the equation is `rfl` or follows from the ones of the
functions they call. Left are three events with a branch in which the
fields do change, and for each the equation says in which: a `cmdScan`
that scans in software with the driver up (`cmdScan_enters`), a command
that begins to wait (`manual_startWait`), and a timeout in a scan
(`manual_onTimer`).
-/
import Rtw88.Proofs.ScanFrame

namespace Rtw88

variable {hw : Hw} {env : Env}

-- ==================================================================== scans

theorem manual_scanDone (aborted : Bool) (s : Mlme) :
    manual (scanDone hw aborted s) = manual s := by
  rw [manual_eq (scanPart_scanDone aborted s)]
  split <;> rfl

theorem manual_rxFrame (skb : SkBuff) (s : Mlme) :
    manual (rxFrame hw env skb s).1 = manual s := by
  have hresult : manual (processScanResult env skb s) = manual s := by
    rw [processScanResult]
    split
    · rfl
    · simp only
      split <;> rfl
  rw [manual_eq (scanPart_rxFrame skb s |>.trans (apply_ite scanPart _ _ _).symm)]
  split
  · exact hresult
  · rfl

-- =================================================================== events

/-- `cmdScan` hands the enabled channels to the thread, or leaves the
fields. -/
theorem manual_cmdScan (s : Mlme) :
    manual (cmdScan hw env s).2.2
      = if (cmdScan hw env s).2.1
        then (enabledChannels hw, (enabledChannels hw).length, false)
        else manual s := by
  have hgen : manual (nextGeneration s) = manual s := by
    simp only [nextGeneration]
    split <;> rfl
  simp only [cmdScan]
  split
  · rfl
  · split
    · rfl
    · split
      · exact hgen
      · split
        · rfl
        · split
          · rfl
          · exact hgen

/-- A `cmdScan` that enters the thread came in IDLE, with the driver up,
and scans in software. -/
theorem cmdScan_enters {s : Mlme} (h : (cmdScan hw env s).2.1 = true) :
    s.state = .idle ∧ s.up = true
      ∧ (hw.hwScanSupported && env.hwScan) = false := by
  simp only [cmdScan] at h
  split at h
  · cases h
  next hstate =>
    split at h
    · cases h
    next hup =>
      refine ⟨not_not.1 hstate, by simpa using hup, ?_⟩
      split at h
      · cases h
      · split at h
        next hsup =>
          rw [(Bool.not_eq_true' _).mp hsup]
          rfl
        · split at h
          next hno =>
            rw [(Bool.not_eq_true' _).mp hno, Bool.and_false]
          · cases h

/-- A wait begins by asking a manual scan to stop. -/
private theorem manual_startWait (cmd : WaitCmd) (s : Sys) :
    manual (startWait cmd s).mlme
      = if s.mlme.manualScanChannelCount ≠ 0
        then (s.mlme.manualScanChannels, s.mlme.manualScanChannelCount, true)
        else manual s.mlme := by
  show manual (abortScanStart s.mlme) = _
  rw [abortScanStart]
  split
  · rfl
  · split <;> rfl

private theorem manual_runConnect (ssid : Option (List UInt8))
    (password : List UInt8) (s : Sys) :
    manual (runConnect ssid password s).mlme = manual s.mlme := by
  simp only [runConnect]
  split <;> exact manual_eq (scanPart_connectTo _ _ _)

private theorem manual_resumeWait (i : Nat) (s : Sys) :
    manual (resumeWait hw i env s).mlme = manual s.mlme := by
  rw [resumeWait]
  split
  · rfl
  next w _ =>
    split
    · rfl
    · obtain ⟨cmd, ret, turn⟩ := w
      cases cmd with
      | powerOff =>
          exact manual_eq
            ((scanPart_finishPowerOff _).trans (scanPart_abortScanFinish _ _))
      | connect ssid password =>
          simp only [runWaiter]
          split
          · exact (manual_runConnect _ _ _).trans
              (manual_eq (scanPart_abortScanFinish _ _))
          · exact manual_eq (scanPart_abortScanFinish _ _)

/-- A timeout asks a manual scan to stop; else it leaves the fields. -/
private theorem manual_onTimer (s : Mlme) :
    manual (onTimer hw env s).2
      = if s.state = .scanning ∧ s.manualScanChannelCount ≠ 0
        then (s.manualScanChannels, s.manualScanChannelCount, true)
        else manual s := by
  have hleave : ∀ (st : RTW88State) (t : Mlme),
      manual (leaveScanning st t) = manual t := fun _ _ => rfl
  have habort : manual (abortScanStart s)
      = if s.manualScanChannelCount ≠ 0
        then (s.manualScanChannels, s.manualScanChannelCount, true)
        else manual s := by
    rw [abortScanStart]
    split
    · rfl
    · split <;> rfl
  rw [onTimer]
  cases hstate : s.state with
  | scanning =>
      simp only [true_and]
      split
      next hcount =>
        rw [habort, if_pos hcount]
      next hcount =>
        rw [hleave, ← if_neg (c := s.manualScanChannelCount ≠ 0) hcount
          (t := (s.manualScanChannels, s.manualScanChannelCount, true))
          (e := manual s), ← habort]
        split
        · exact manual_eq (scanPart_restoreConnectedChannel _)
        · rfl
  | idle => rfl
  | authenticating => rfl
  | associating => rfl
  | handshaking => exact manual_eq (scanPart_doDisconnect s)
  | connected => rfl
  | disconnecting => rfl

/-- What every event of the other threads does to the fields of the
manual scan. -/
theorem sysStep_manual {s : Sys} (hscans : s.scans = []) (e : Event) :
    manual (sysStep hw s e).mlme
      = if startsPass hw s.mlme e
        then (enabledChannels hw, (enabledChannels hw).length, false)
        else if asksAbort s e
        then (s.mlme.manualScanChannels, s.mlme.manualScanChannelCount, true)
        else manual s.mlme := by
  cases e with
  | cmdScan env =>
      show manual (cmdScan hw env s.mlme).2.2 = _
      rw [manual_cmdScan]
      rfl
  | cmdConnect ssid password =>
      simp only [sysStep, startsPass, asksAbort, abortsScan]
      by_cases hstate : s.mlme.state = .scanning
      · rw [if_pos hstate, manual_startWait]
        simp [hstate]
      · rw [if_neg hstate, manual_runConnect]
        simp [hstate]
  | cmdPowerOff env =>
      simp only [sysStep, startsPass, asksAbort, abortsScan]
      by_cases hstate : s.mlme.state = .scanning
      · rw [if_pos hstate, manual_startWait]
        simp [hstate]
      · rw [if_neg hstate, manual_eq (scanPart_finishPowerOff _)]
        simp [hstate]
  | timer env =>
      simp only [sysStep, startsPass, asksAbort, abortsScan, fireTimer]
      by_cases hidle : (s.mlme.timer.isNone || s.auths.any (·.onTimer)) = true
      · rw [if_pos hidle]
        simp [hidle]
      · have hfire : manual (onTimer hw env s.mlme.cancelTimer).2
            = if s.mlme.state = .scanning
                ∧ s.mlme.manualScanChannelCount ≠ 0
              then (s.mlme.manualScanChannels,
                s.mlme.manualScanChannelCount, true)
              else manual s.mlme := manual_onTimer s.mlme.cancelTimer
        rw [if_neg hidle]
        simp only [hidle]
        split <;> simpa using hfire
  | resume i env => exact manual_resumeWait i s
  | rx env skb =>
      have hfile : ∀ (p : Option Pending) (t : Sys),
          (addPending p t).mlme = t.mlme := by
        intro p t
        cases p <;> rfl
      show manual (addPending _ _).mlme = manual s.mlme
      rw [hfile]
      exact manual_rxFrame skb s.mlme
  | deliver i env =>
      show manual (deliverNext hw i env s).mlme = manual s.mlme
      rw [deliverNext]
      split
      · rfl
      · split
        · show manual (if _ then _ else _) = _
          split <;> rfl
        · exact manual_eq (scanPart_deliverDataFrame _ _)
  | reorderTimer =>
      show manual (fireReorderTimer s).mlme = manual s.mlme
      rw [fireReorderTimer]
      split <;> rfl
  | auth i env scanning =>
      show manual (stepAuth hw i env scanning s).mlme = manual s.mlme
      rw [stepAuth]
      split
      · rfl
      · exact manual_eq (scanPart_doAuthenticate _ _ _)
  | scan i env =>
      show manual (stepScan hw i env s).mlme = manual s.mlme
      rw [stepScan, hscans]
      rfl
  | cmdDisconnect env => exact manual_eq (scanPart_cmdDisconnect s.mlme)
  | cmdPowerOn env => exact manual_eq (scanPart_cmdPowerOn s.mlme)
  | powerOn env => exact manual_eq (scanPart_powerOn s.mlme)
  | powerOff => exact manual_eq (scanPart_powerOff s.mlme)
  | scanDone aborted => exact manual_scanDone aborted s.mlme
  | output env m => exact manual_eq (scanPart_outputPacket m s.mlme)
  | stop env => exact manual_eq (scanPart_stop s.mlme)

end Rtw88
