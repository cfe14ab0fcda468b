/-
What scanning does to the link: the scan list stays classified, and a
scan starts in IDLE and ends there.

An entry is classified by the elements it is built from, one at a time:
an RSN element that is accepted means CCMP and PSK, a WPA element TKIP
and PSK where nothing is set yet (`scanField_classified`). So whatever
the order, an entry with PSK has one of the two ciphers, and an update in
place brings nothing else in (`updateBss_mem`).

The second half holds because `cmdScan` refuses every state but IDLE, so
`_scanReturnState` is IDLE throughout; the branches of the source for a
scan out of CONNECTED are never taken.
-/
import Rtw88.Proofs.Link.Frames

namespace Rtw88

variable {hw : Hw} {env : Env} {P : Allow}

-- ============================================================ classification

/-- An entry with the same cipher and AKM is classified alike. -/
private theorem Classified.copy {b b' : RTW88BSS} (h : Classified b)
    (hakm : b'.akm = b.akm) (hcipher : b'.cipher = b.cipher) :
    Classified b' := by
  intro hpsk
  rw [hcipher]
  exact h (hakm ▸ hpsk)

/-- An accepted RSN element means CCMP. -/
theorem rtw88RsnSelectCcmpPsk_pairwise {body : List UInt8}
    {pairwise group : UInt32}
    (h : rtw88RsnSelectCcmpPsk body = some (pairwise, group)) :
    pairwise = cipherCcmp := by
  simp only [rtw88RsnSelectCcmpPsk] at h
  split_ifs at h <;> exact (Prod.mk.inj (Option.some.inj h)).1.symm

/-- An element leaves the classification right. -/
private theorem scanField_classified {bss : RTW88BSS} (h : Classified bss)
    (e : Elem) : Classified (scanField bss e) := by
  simp only [scanField]
  split
  · exact h.copy rfl rfl
  · split
    · exact h.copy rfl rfl
    · split
      · exact h.copy rfl rfl
      · split
        · split
          next hsel =>
            exact fun _ => .inl (rtw88RsnSelectCcmpPsk_pairwise hsel)
          next => exact h
        · split
          · exact fun _ => .inr rfl
          · exact h

/-- The copy of the elements beside it leaves it right too. -/
private theorem scanElem_classified {bss : RTW88BSS} (h : Classified bss)
    (e : Elem) : Classified (scanElem bss e) := by
  simp only [scanElem]
  split
  · exact (scanField_classified h e).copy rfl rfl
  · exact scanField_classified h e

/-- The entry of a beacon is classified. -/
theorem scanEntry_classified (skb : SkBuff) (generation : UInt32) :
    Classified (scanEntry skb generation) := by
  have hwalk : ∀ (es : List Elem) (bss : RTW88BSS), Classified bss →
      Classified (es.foldl scanElem bss) := by
    intro es
    induction es with
    | nil => exact fun _ h => h
    | cons e es ih => exact fun _ h => ih _ (scanElem_classified h e)
  have hstart : Classified { RTW88BSS.zero with bssid := addr3 skb.data } := by
    intro hpsk
    exact absurd (show (0 : UInt32) = akmPsk from hpsk) (by decide)
  have hentry := hwalk (elems (skb.data.drop 36)) _ hstart
  simp only [scanEntry]
  split
  · exact hentry.copy rfl rfl
  · exact hentry.copy rfl rfl

/-- Updating an entry in place brings nothing else in. -/
private theorem updateBss_mem {bss : RTW88BSS} :
    ∀ {l l' : List RTW88BSS}, updateBss bss l = some l' →
      ∀ b ∈ l', b = bss ∨ b ∈ l
  | [], _, h, _, _ => by cases h
  | e :: es, l', h, b, hb => by
      rw [updateBss] at h
      split at h
      · rw [← Option.some.inj h] at hb
        rcases List.mem_cons.1 hb with hb | hb
        · exact .inl hb
        · exact .inr (List.mem_cons_of_mem _ hb)
      · obtain ⟨m, hm, rfl⟩ := Option.map_eq_some_iff.1 h
        rcases List.mem_cons.1 hb with hb | hb
        · exact .inr (hb ▸ List.mem_cons_self)
        · rcases updateBss_mem hm b hb with hb | hb
          · exact .inl hb
          · exact .inr (List.mem_cons_of_mem _ hb)

theorem processScanResult_moves (skb : SkBuff) (s : Mlme) :
    Moves hw P (view s) (view (processScanResult env skb s)) := by
  rw [processScanResult]
  split
  · exact .none (view_kfreeSkb skb s)
  · have hentry := scanEntry_classified skb s.scanGeneration
    simp only
    split
    next l hl =>
      rw [view_kfreeSkb]
      refine .one (.entries (view s) l fun hold b hb => ?_)
      rcases updateBss_mem hl b hb with rfl | hb
      · exact hentry
      · exact hold b hb
    next =>
      rw [view_kfreeSkb]
      refine .one (.entries (view s) (_ :: s.bssList) fun hold b hb => ?_)
      rcases List.mem_cons.1 hb with rfl | hb
      · exact hentry
      · exact hold b hb

-- =============================================================== end of scan

/-- A scan that returns to IDLE. -/
private theorem toIdle (v : Link) :
    Moves hw P v { v with state := .idle, ret := .idle } :=
  .one (.idle v .idle (.inl rfl))

theorem ageBssList_moves (s : Mlme) :
    Moves hw P (view s) (view (ageBssList s)) := by
  rw [view_ageBssList]
  exact .one (.entries _ _ fun hold b hb => hold b (List.mem_filter.1 hb).1)

/-- The end of a scan, with no link to return to. -/
theorem scanDone_moves {s : Mlme} (hret : s.scanReturnState = .idle)
    (aborted : Bool) :
    Moves hw P (view s) (view (scanDone hw aborted s)) := by
  have hage : Moves hw P (view s)
      (view (if aborted then s else ageBssList s)) := by
    split
    · exact .refl
    · exact ageBssList_moves s
  have hret' : (if aborted then s else ageBssList s).scanReturnState
      = .idle := by
    split
    · exact hret
    · exact hret
  rw [scanDone]
  generalize (if aborted = true then s else ageBssList s) = t at hage hret' ⊢
  refine hage.trans ?_
  split
  · exact .refl
  · rw [hret', if_neg (by simp), view_leaveScan]
    exact toIdle _

/-- One that was asked to stop. -/
theorem abortScanFinish_moves {s : Mlme} :
    Moves hw P (view s) (view (abortScanFinish hw .idle s).2) := by
  rw [abortScanFinish]
  split
  · exact .refl
  · split
    · exact .refl
    · simp only
      rw [if_neg (by decide), view_leaveScan]
      exact toIdle _

-- =================================================================== cmdScan

/-- A new generation of the list. -/
theorem nextGeneration_moves (s : Mlme) :
    Moves hw P (view s) (view (nextGeneration s)) := by
  simp only [nextGeneration]
  split
  · refine .one (.entries (view s) (s.bssList.map fun b =>
      { b with lastSeenScan := 1 }) fun hold b hb => ?_)
    obtain ⟨b', hb', rfl⟩ := List.mem_map.1 hb
    exact (hold b' hb').copy rfl rfl
  · exact .refl

theorem cmdScan_moves (hP : P.scan) (s : Mlme) :
    Moves hw P (view s) (view (cmdScan hw env s).2.2) := by
  rw [cmdScan]
  split
  · exact .refl
  next hidle =>
    have hidle : s.state = .idle := not_not.1 hidle
    split
    · exact .refl
    · have hgen := @nextGeneration_moves hw P s
      have hstate : (view (nextGeneration s)).state = .idle := by
        simp only [nextGeneration]
        split <;> exact hidle
      have hscan : Moves hw P (view s) { view (nextGeneration s) with
          state := .scanning, ret := .idle } :=
        hgen.tail (.scanning _ hstate hP)
      simp only [hidle, if_neg (show ¬ RTW88State.idle = .connected by decide)]
      split
      · exact hscan.trans (toIdle _)
      · split
        · exact hscan
        · split
          · rw [view_startManualScan, view_emit_off _ _ (by simp [Obs.onTrail])]
            exact hscan
          · rw [view_armTimer, view_emit_off _ _ (by simp [Obs.onTrail])]
            exact hscan

-- ======================================================= manual scan thread

/-- A visit home is not seen, with no link to visit. -/
@[simp] theorem view_visitHome {s : Mlme} (h : s.scanReturnState = .idle)
    (powerSave : Bool) : view (visitHome hw env powerSave s) = view s := by
  rw [visitHome, view_txNullFunc, restoreConnectedChannel_of_ne (by simp [h])]

theorem endManualScan_moves {s : Mlme} (hret : s.scanReturnState = .idle)
    (connectedScan : Bool) :
    Moves hw P (view s) (view (endManualScan hw env connectedScan s)) := by
  have hoff : view ((setOnHomeChannel false s).emit .swScanComplete)
      = view s := by
    rw [view_emit_off _ _ (by simp [Obs.onTrail]), view_setOnHomeChannel]
  have hhome : view (if connectedScan
      then visitHome hw env false
        ((setOnHomeChannel false s).emit .swScanComplete)
      else (setOnHomeChannel false s).emit .swScanComplete) = view s := by
    split
    · rw [view_visitHome (s := (setOnHomeChannel false s).emit
        .swScanComplete) hret, hoff]
    · exact hoff
  rw [endManualScan, view_clearManualScan]
  refine (Moves.none hhome).trans (scanDone_moves ?_ _)
  exact (congrArg Link.ret hhome).trans hret

/-- Every activation of its thread. -/
theorem runManualScan_moves {s : Mlme} (hret : s.scanReturnState = .idle)
    (pc : ScanPc) :
    Moves hw P (view s) (view (runManualScan hw env pc s).2) := by
  cases pc with
  | entry =>
      simp only [runManualScan]
      split
      · rw [view_clearManualScanCount]
        exact scanDone_moves hret true
      · exact .none (view_emit_off _ _ (by simp [Obs.onTrail]))
  | chan i count connectedScan =>
      simp only [runManualScan]
      split
      · split
        · exact .refl
        · split
          · refine .none ?_
            exact (view_visitHome (s := setOnHomeChannel false s) hret
              true).trans (view_setOnHomeChannel false s)
          · refine .none ?_
            rw [view_tuneScanChannel, view_setOnHomeChannel]
      · exact endManualScan_moves hret connectedScan
  | leave chan i count => exact .none (view_tuneScanChannel chan s)
  | dwell i count connectedScan =>
      simp only [runManualScan]
      split
      · refine .none ?_
        rw [view_setOnHomeChannel, view_visitHome hret]
      · exact .refl

end Rtw88
