/-
Every function of the source against the books: which are `Plain`, and
which frames the others take over.

# Three relations

A piece of the source is a state before and a state after. It is

- `Plain` if it frees no frame and leaves the power and the windows
  alone;
- `Steady` if it leaves the keys and the station alone too;
- `Accounts skbs` if it takes the frames `skbs` over: with what was
  freed and what the windows held before, they are what is freed and what
  the windows hold afterwards.

All three compose, and the rules at the top say how: a plain piece
before or behind another changes no account (`Accounts.before`,
`Accounts.after`), and two accounts in a row add up.

# The functions

Then one lemma a function, in the order in which the source's functions
call one another. A frame is in the books of exactly one of them: the
dispatch hands it to a function that frees it, or the dispatch frees it
itself, or a reorder window keeps it. No lemma looks at when a function
is called, so they hold of every state; what a run makes of them is in
Proofs/Custody.lean and Proofs/Lifecycle.
-/
import Rtw88.Proofs.Reorder.Balance
import Rtw88.Spec.Ledger

namespace Rtw88

variable {hw : Hw} {env : Env} {s t u : Mlme} {as bs : List SkBuff}

-- ==================================================================== rules

theorem Plain.refl (s : Mlme) : Plain s s :=
  ⟨rfl, rfl, rfl, [], rfl, fun _ ho => by cases ho⟩

/-- Plain pieces compose: what is appended to the log is the two pieces'
appendices. -/
theorem Plain.trans (h : Plain s t) (h' : Plain t u) : Plain s u := by
  obtain ⟨hp, hup, hrx, new, hlog, hnew⟩ := h
  obtain ⟨hp', hup', hrx', new', hlog', hnew'⟩ := h'
  refine ⟨hp'.trans hp, hup'.trans hup, hrx'.trans hrx, new' ++ new, ?_,
    fun o ho => ?_⟩
  · rw [hlog', hlog, List.append_assoc]
  · rcases List.mem_append.1 ho with ho | ho
    · exact hnew' o ho
    · exact hnew o ho

/-- One more observation that is not in the books. -/
theorem Plain.emit (h : Plain s t) (o : Obs) (hpower : o.isPower = false)
    (hfreed : o.freedSkb = none) : Plain s (t.emit o) := by
  refine h.trans ⟨rfl, rfl, rfl, [o], rfl, fun o' ho => ?_⟩
  rw [List.mem_singleton.1 ho]
  exact ⟨hpower, hfreed⟩

/-- The frames freed in two stretches of the log. -/
theorem freedSkbs_append (new log : List Obs) :
    freedSkbs (new ++ log) = freedSkbs new ++ freedSkbs log :=
  List.filterMap_append

/-- A plain piece takes nothing over. -/
theorem Plain.accounts (h : Plain s t) : Accounts [] s t := by
  obtain ⟨hp, hup, hrx, new, hlog, hnew⟩ := h
  refine ⟨hp, hup, ⟨new, hlog, fun o ho => (hnew o ho).1⟩, ?_⟩
  have hnil : freedSkbs new = [] :=
    List.filterMap_eq_nil_iff.2 fun o ho => (hnew o ho).2
  rw [hlog, freedSkbs_append, hnil, hrx]
  exact List.Perm.refl _

/-- The books of two pieces in a row: the second's frames come in front, as
the log grows. -/
theorem Accounts.trans (h : Accounts as s t) (h' : Accounts bs t u) :
    Accounts (bs ++ as) s u := by
  obtain ⟨hp, hup, ⟨new, hlog, hnew⟩, hperm⟩ := h
  obtain ⟨hp', hup', ⟨new', hlog', hnew'⟩, hperm'⟩ := h'
  refine ⟨hp'.trans hp, hup'.trans hup, ⟨new' ++ new, ?_, fun o ho => ?_⟩, ?_⟩
  · rw [hlog', hlog, List.append_assoc]
  · rcases List.mem_append.1 ho with ho | ho
    · exact hnew' o ho
    · exact hnew o ho
  · rw [List.append_assoc]
    exact hperm'.trans (hperm.append_left bs)

/-- Behind a plain piece. -/
theorem Accounts.after (h : Plain s t) (h' : Accounts as t u) :
    Accounts as s u := by
  simpa using h.accounts.trans h'

/-- Before a plain piece. -/
theorem Accounts.before (h : Accounts as s t) (h' : Plain t u) :
    Accounts as s u := h.trans h'.accounts

/-- A release. -/
theorem kfreeSkb_accounts (skb : SkBuff) (s : Mlme) :
    Accounts [skb] s (kfreeSkb skb s) := by
  refine ⟨rfl, rfl, ⟨[.kfreeSkb skb], rfl, fun o ho => ?_⟩, ?_⟩
  · rw [List.mem_singleton.1 ho]
    rfl
  · exact List.Perm.refl _

/-- Nothing allocated and nothing freed. -/
theorem SameObjects.refl (s : Mlme) : SameObjects s s :=
  ⟨rfl, rfl, rfl, rfl, rfl, rfl, fun _ h => h, [], rfl, fun _ ho => by cases ho⟩

/-- Two pieces that touch no key and no station. -/
theorem SameObjects.trans (h : SameObjects s t) (h' : SameObjects t u) :
    SameObjects s u := by
  obtain ⟨hup, hp, hptk, hgtk, hsta, hnext, hd, new, hlog, hnew⟩ := h
  obtain ⟨hup', hp', hptk', hgtk', hsta', hnext', hd', new', hlog', hnew'⟩ := h'
  refine ⟨hup'.trans hup, hp'.trans hp, hptk'.trans hptk, hgtk'.trans hgtk,
    hsta'.trans hsta, hnext'.trans hnext,
    fun hdown hs => hd' (hup.trans hdown) (hd hdown hs), new' ++ new, ?_,
    fun o ho => ?_⟩
  · rw [hlog', hlog, List.append_assoc]
  · rcases List.mem_append.1 ho with ho | ho
    · exact hnew' o ho
    · exact hnew o ho

/-- One more observation that is of no key and no station. -/
theorem SameObjects.emit (h : SameObjects s t) (o : Obs)
    (hobject : o.isObject = false) : SameObjects s (t.emit o) := by
  refine h.trans ⟨rfl, rfl, rfl, rfl, rfl, rfl, fun _ h => h, [o], rfl,
    fun o' ho => ?_⟩
  rw [List.mem_singleton.1 ho]
  exact hobject

/-- Writes of the state that wait for no association response. -/
theorem SameObjects.moveTo (h : SameObjects s t) (st ret : RTW88State)
    (hst : s.up = false → Dormant s → st ≠ .associating)
    (hret : s.up = false → Dormant s → ret ≠ .associating) :
    SameObjects s { t with state := st, scanReturnState := ret } := by
  obtain ⟨hup, hp, hptk, hgtk, hsta, hnext, -, hgrows⟩ := h
  exact ⟨hup, hp, hptk, hgtk, hsta, hnext,
    fun hdown hs => ⟨hst hdown hs, hret hdown hs⟩, hgrows⟩

theorem Steady.refl (s : Mlme) : Steady s s := ⟨.refl s, .refl s⟩

theorem Steady.trans (h : Steady s t) (h' : Steady t u) : Steady s u :=
  ⟨h.1.trans h'.1, h.2.trans h'.2⟩

/-- One more observation that no account mentions. -/
theorem Steady.emit (h : Steady s t) (o : Obs) (hpower : o.isPower = false)
    (hfreed : o.freedSkb = none) (hobject : o.isObject = false) :
    Steady s (t.emit o) :=
  ⟨h.1.emit o hpower hfreed, h.2.emit o hobject⟩

/-- A move to other states: with the driver down and at rest, neither may be
ASSOCIATING. -/
theorem Steady.moveTo (h : Steady s t) (st ret : RTW88State)
    (hst : s.up = false → Dormant s → st ≠ .associating)
    (hret : s.up = false → Dormant s → ret ≠ .associating) :
    Steady s { t with state := st, scanReturnState := ret } :=
  ⟨h.1, h.2.moveTo st ret hst hret⟩

/-- `setState` alone, for which the state it returns to stays. -/
theorem Steady.setState (h : Steady s t) {st : RTW88State}
    (hst : s.up = false → st ≠ .associating) : Steady s (t.setState st) :=
  h.moveTo st t.scanReturnState (fun hdown _ => hst hdown) fun hdown hs =>
    (h.2.2.2.2.2.2.2.1 hdown hs).2

/-- A steady piece takes no frame over. -/
theorem Steady.accounts (h : Steady s t) : Accounts [] s t := h.1.accounts

/-- A plain piece, then a release. -/
theorem Plain.kfreeSkb (h : Plain s t) (skb : SkBuff) :
    Accounts [skb] s (kfreeSkb skb t) := (kfreeSkb_accounts skb t).after h

-- ========================================================== keys and station

/-- Disabling the hardware keys frees no frame. -/
theorem disableKeys_plain (s : Mlme) : Plain s (disableKeys s) := by
  have hkey : ∀ (k : Option KeyConf) (t : Mlme), Plain t (disableKey k t) := by
    intro k t
    cases k with
    | none => exact .refl t
    | some k => exact (Plain.refl t).emit _ rfl rfl
  rw [disableKeys]
  split
  · exact (hkey _ _).trans (hkey _ _)
  · exact .refl s

/-- Disabling one of them frees none either. -/
theorem disableKey_plain (k : Option KeyConf) (s : Mlme) :
    Plain s (disableKey k s) := by
  cases k with
  | none => exact .refl s
  | some k => exact (Plain.refl s).emit _ rfl rfl

/-- Dropping the pairwise key frees an object, not a frame. -/
theorem dropPtkConf_plain (s : Mlme) : Plain s (dropPtkConf s) := by
  rw [dropPtkConf]
  split
  · exact (show Plain s { s with ptkConf := none } from .refl s).emit _ rfl rfl
  · exact .refl s

/-- Dropping the group key is the same. -/
theorem dropGtkConf_plain (s : Mlme) : Plain s (dropGtkConf s) := by
  rw [dropGtkConf]
  split
  · exact (show Plain s { s with gtkConf := none } from .refl s).emit _ rfl rfl
  · exact .refl s

/-- `clearKeys` is those two after `disableKeys`. -/
theorem clearKeys_plain (s : Mlme) : Plain s (clearKeys s) :=
  (disableKeys_plain s).trans
    ((dropPtkConf_plain _).trans (dropGtkConf_plain _))

/-- Installing the pairwise key takes no frame, whether `IOMalloc` and
`set_key` succeed or not. -/
theorem installPairwise_plain (alloc set : Bool) (keyidx : UInt8)
    (cipher : UInt32) (tk : List UInt8) (s : Mlme) :
    Plain s (installPairwise alloc set keyidx cipher tk s).2 := by
  have hdrop : Plain s (dropPtkConf (disableKey s.ptkConf s)) :=
    (disableKey_plain _ s).trans (dropPtkConf_plain _)
  rw [installPairwise]
  split
  · exact .refl s
  · split
    · exact hdrop
    · have hset := hdrop.emit (.setKey (newKeyConf
        (dropPtkConf (disableKey s.ptkConf s)).nextAddr true keyidx cipher tk)
        set) rfl rfl
      split
      · exact hset.emit (.freeKey _) rfl rfl
      · exact hset

/-- Installing the group key takes none either. -/
theorem installGroup_plain (alloc set : Bool) (keyidx : UInt8)
    (cipher : UInt32) (tk : List UInt8) (s : Mlme) :
    Plain s (installGroup alloc set keyidx cipher tk s).2 := by
  have hdrop : Plain s (dropGtkConf (disableKey s.gtkConf s)) :=
    (disableKey_plain _ s).trans (dropGtkConf_plain _)
  rw [installGroup]
  split
  · exact .refl s
  · split
    · exact hdrop
    · have hset := hdrop.emit (.setKey (newKeyConf
        (dropGtkConf (disableKey s.gtkConf s)).nextAddr false keyidx cipher tk)
        set) rfl rfl
      split
      · exact hset.emit (.freeKey _) rfl rfl
      · exact hset

-- ============================================================ transmission

/-- A management frame is sent or dropped; nothing else moves. -/
theorem txMgmtFrame_steady (frame : List UInt8) (s : Mlme) :
    Steady s (txMgmtFrame env frame s) := by
  rw [txMgmtFrame]
  split
  · exact .refl s
  · exact (Steady.refl s).emit _ rfl rfl rfl

/-- An ADDBA request is one such frame, and a counter. -/
theorem sendAddbaRequest_steady (tid : UInt8) (s : Mlme) :
    Steady s (sendAddbaRequest hw env tid s) := by
  simp only [sendAddbaRequest]
  exact txMgmtFrame_steady _ _

theorem sendAddbaResponse_steady (tid dialog : UInt8)
    (reqParam baTimeout : UInt16) (s : Mlme) :
    Steady s (sendAddbaResponse hw env tid dialog reqParam baTimeout s) := by
  simp only [sendAddbaResponse]
  exact txMgmtFrame_steady _ _

/-- Asking for aggregation sends at most that request. -/
theorem startTxAggregation_steady (s : Mlme) :
    Steady s (startTxAggregation hw env s) := by
  rw [startTxAggregation]
  split
  · exact .refl s
  · split
    · exact .refl s
    · split
      · exact .refl s
      · split
        · exact .refl s
        · exact sendAddbaRequest_steady _ _

/-- The counters of a data frame are in no book. -/
theorem txCounters_steady (key : Option KeyConf) (s : Mlme) :
    Steady s (txCounters key s) := by
  have hseq : Steady s (takeSeq s) := by
    rw [takeSeq]
    split <;> exact .refl s
  rw [txCounters]
  split <;> exact hseq

/-- A data frame is handed to the driver or dropped with its copy. -/
theorem txDataFrame_steady (m : List UInt8) (s : Mlme) :
    Steady s (txDataFrame hw env m s).2 := by
  rw [txDataFrame]
  split
  · exact .refl s
  · split
    · exact .refl s
    · simp only
      split
      · exact txCounters_steady _ s
      · exact (txCounters_steady _ s).emit _ rfl rfl rfl

/-- Either way the gate of `outputPacket` goes. -/
theorem outputPacket_steady (m : List UInt8) (s : Mlme) :
    Steady s (outputPacket hw env m s).2 := by
  simp only [outputPacket]
  split
  · exact .refl s
  · exact txDataFrame_steady m s

/-- A null-data frame is built and sent at once. -/
theorem txNullFunc_steady (powerSave : Bool) (s : Mlme) :
    Steady s (txNullFunc hw env powerSave s) := by
  rw [txNullFunc]
  split
  · exact .refl s
  · split
    · exact .refl s
    · exact (show Steady s { s with txSeq := s.txSeq + 1 } from .refl s).emit
        _ rfl rfl rfl

theorem txProbeRequest_steady (s : Mlme) :
    Steady s (txProbeRequest hw env s) := by
  rw [txProbeRequest]
  split
  · exact .refl s
  · exact txMgmtFrame_steady _ _

/-- An answer of the handshake goes out as a data frame. -/
theorem sendEAPOLKey_steady (step : Nat) (replay : Bytes 8)
    (install ack mic : Bool) (s : Mlme) :
    Steady s (sendEAPOLKey hw env step replay install ack mic s) := by
  simp only [sendEAPOLKey]
  split
  · exact .refl s
  · exact txDataFrame_steady _ s

-- ===================================================================== scan

/-- Tuning to the target's channel is not in the books. -/
theorem setTargetChandef_steady (s : Mlme) :
    Steady s (setTargetChandef hw s) := by
  rw [setTargetChandef]
  split <;> exact .refl s

theorem restoreConnectedChannel_steady (s : Mlme) :
    Steady s (restoreConnectedChannel hw s) := by
  rw [restoreConnectedChannel]
  split
  · exact .refl s
  · exact (setTargetChandef_steady s).emit (.restoreConnectedHw _) rfl rfl rfl

/-- Ageing the scan list allocates and frees entries, not frames. -/
theorem ageBssList_steady (s : Mlme) : Steady s (ageBssList s) := .refl s

/-- The end of a scan goes back to `_scanReturnState`, which at rest is not
ASSOCIATING. -/
theorem scanDone_steady (aborted : Bool) (s : Mlme) :
    Steady s (scanDone hw aborted s) := by
  have hage : Steady s (if aborted then s else ageBssList s) := by
    split
    · exact .refl s
    · exact ageBssList_steady s
  rw [scanDone]
  refine hage.trans ?_
  generalize (if aborted = true then s else ageBssList s) = t
  split
  · exact .refl t
  · have hrest : Steady t (if t.scanReturnState == .connected
        && t.manualScanChannelCount != 0 then restoreConnectedChannel hw t
        else t) := by
      split
      · exact restoreConnectedChannel_steady t
      · exact .refl t
    exact hrest.moveTo t.scanReturnState .idle (fun _ hs => hs.2)
      fun _ _ => by decide

/-- Asking a scan to stop sets a flag. -/
theorem abortScanStart_steady (s : Mlme) : Steady s (abortScanStart s) := by
  rw [abortScanStart]
  split
  · exact .refl s
  · split
    · exact (Steady.refl s).emit _ rfl rfl rfl
    · exact .refl s

/-- What follows the wait of `abortActiveScan`; whether it is steady too
depends on the state the command had read. -/
theorem abortScanFinish_plain (returnState : RTW88State) (s : Mlme) :
    Plain s (abortScanFinish hw returnState s).2 := by
  rw [abortScanFinish]
  split
  · exact .refl s
  · split
    · exact .refl s
    · simp only
      split
      · exact (restoreConnectedChannel_steady s).1
      · exact .refl s

/-- The same of the keys and the station, where the command had not read
ASSOCIATING. -/
theorem abortScanFinish_sameObjects {returnState : RTW88State}
    (h : returnState ≠ .associating) (s : Mlme) :
    SameObjects s (abortScanFinish hw returnState s).2 := by
  rw [abortScanFinish]
  split
  · exact .refl s
  · split
    · exact .refl s
    · have hrest : SameObjects s (clearManualScanCount
          (if returnState = .connected then restoreConnectedChannel hw s
            else s)) := by
        split
        · exact (restoreConnectedChannel_steady s).2
        · exact .refl s
      exact hrest.moveTo returnState .idle (fun _ _ => h) fun _ _ => by decide

/-- A new generation of the scan list. -/
theorem nextGeneration_steady (s : Mlme) : Steady s (nextGeneration s) := by
  simp only [nextGeneration]
  split <;> exact .refl s

/-- Starting a scan moves to SCANNING. -/
theorem cmdScan_steady (s : Mlme) : Steady s (cmdScan hw env s).2.2 := by
  have hgen := nextGeneration_steady s
  rw [cmdScan]
  split
  · exact .refl s
  · split
    · exact .refl s
    · simp only
      have henter : Steady s { nextGeneration s with
          scanReturnState := if s.state = .connected then s.state else .idle
          state := .scanning } := by
        refine hgen.moveTo _ _ (fun _ _ => by decide) fun _ hs => ?_
        split
        · exact hs.1
        · decide
      split
      · exact henter.moveTo s.state .idle (fun _ hs => hs.1)
          fun _ _ => by decide
      · split
        · exact henter
        · have hscan := henter.emit .hwScan rfl rfl rfl
          split
          · exact hscan
          · exact hscan

/-- Tuning to a scanned channel and probing there. -/
theorem tuneScanChannel_steady (chan : Channel) (s : Mlme) :
    Steady s (tuneScanChannel hw env chan s) := by
  have hset : Steady s ((setScanChandef chan s).emit .swScanSwitchChannel) :=
    (show Steady s (setScanChandef chan s) from .refl s).emit _ rfl rfl rfl
  rw [tuneScanChannel]
  split
  · exact hset
  · exact hset.trans (txProbeRequest_steady _)

/-- Going back to the channel of the link between two scanned ones. -/
theorem visitHome_steady (powerSave : Bool) (s : Mlme) :
    Steady s (visitHome hw env powerSave s) :=
  (restoreConnectedChannel_steady s).trans (txNullFunc_steady powerSave _)

/-- The end of a manual scan, connected or not. -/
theorem endManualScan_steady (connectedScan : Bool) (s : Mlme) :
    Steady s (endManualScan hw env connectedScan s) := by
  have hend : Steady s ((setOnHomeChannel false s).emit .swScanComplete) :=
    (show Steady s (setOnHomeChannel false s) from .refl s).emit _ rfl rfl rfl
  have hhome : Steady s (if connectedScan
      then visitHome hw env false ((setOnHomeChannel false s).emit
        .swScanComplete)
      else (setOnHomeChannel false s).emit .swScanComplete) := by
    split
    · exact hend.trans (visitHome_steady false _)
    · exact hend
  exact hhome.trans (scanDone_steady _ _)

/-- Whatever the thread of a manual scan does in one activation. -/
theorem runManualScan_steady (pc : ScanPc) (s : Mlme) :
    Steady s (runManualScan hw env pc s).2 := by
  cases pc with
  | entry =>
      rw [runManualScan]
      split
      · exact scanDone_steady true s
      · exact (Steady.refl s).emit _ rfl rfl rfl
  | chan i count connectedScan =>
      simp only [runManualScan]
      split
      · split
        · exact .refl s
        · split
          · exact visitHome_steady true (setOnHomeChannel false s)
          · exact tuneScanChannel_steady _ (setOnHomeChannel false s)
      · exact endManualScan_steady connectedScan s
  | leave chan i count => exact tuneScanChannel_steady chan s
  | dwell i count connectedScan =>
      simp only [runManualScan]
      split
      · exact visitHome_steady false s
      · exact .refl s

-- ================================================================ handshake

/-- Message 1 is answered; no object is made. -/
theorem handleM1_steady (data : List UInt8) (s : Mlme) :
    Steady s (handleM1 hw env data s) := by
  have htake : Steady s ((takeM1 hw env data s).emit
      (.m1 (grab data 17 32) env.snonce)) :=
    (show Steady s (takeM1 hw env data s) from .refl s).emit _ rfl rfl rfl
  exact htake.trans (sendEAPOLKey_steady _ _ _ _ _ _)

/-- The end of message 3 moves to CONNECTED. -/
theorem finishM3_steady (s : Mlme) : Steady s (finishM3 hw env s) := by
  have hsend := @sendEAPOLKey_steady hw env 4 s.replayCtr false false true s
  simp only [finishM3]
  generalize sendEAPOLKey hw env 4 s.replayCtr false false true s = t at hsend ⊢
  have hmark : Steady s ((t.setState .connected).emit (.m3 t.ptk)) :=
    (hsend.setState fun _ => by decide).emit _ rfl rfl rfl
  have hlink : Steady s ((((t.setState .connected).emit
      (.m3 t.ptk)).cancelTimer).emit (.setLinkStatus true)) :=
    Steady.emit hmark _ rfl rfl rfl
  exact hlink.trans (startTxAggregation_steady _)

/-- The group key of message 3 is an object, so the piece is only plain. -/
theorem acceptGtk_plain (keyData : List UInt8) (s : Mlme) :
    Plain s (acceptGtk hw env keyData s) := by
  rw [acceptGtk]
  split
  · exact (finishM3_steady s).1
  · split
    · exact (finishM3_steady s).1
    · simp only
      split
      · exact installGroup_plain _ _ _ _ _ s
      · exact (installGroup_plain _ _ _ _ _ s).trans (finishM3_steady _).1

/-- What installs both keys is plain too. -/
theorem acceptM3_plain (data keyData : List UInt8) (s : Mlme) :
    Plain s (acceptM3 hw env data keyData s) := by
  have hset : Plain s (setReplayCtr (grab data 9 8) s) := .refl s
  simp only [acceptM3]
  split
  · exact hset.trans (installPairwise_plain _ _ _ _ _ _)
  · exact (hset.trans (installPairwise_plain _ _ _ _ _ _)).trans
      (acceptGtk_plain _ _)

/-- The whole of `handleEAPOL` is plain. -/
theorem handleEAPOL_plain (data : List UInt8) (s : Mlme) :
    Plain s (handleEAPOL hw env data s) := by
  rw [handleEAPOL]
  split
  · exact .refl s
  · split
    · exact (handleM1_steady data s).1
    · split
      · split
        · exact .refl s
        · exact acceptM3_plain data _ s
      · exact .refl s

-- ============================================================== association

/-- Sending the association request moves to ASSOCIATING, with the driver up.
-/
theorem doAssociate_steady (s : Mlme) : Steady s (doAssociate hw env s) := by
  rw [doAssociate]
  split
  · exact .refl s
  next hup =>
    have hsend : Steady s (txMgmtFrame env (buildAssocReq hw s).1
        (buildAssocReq hw s).2) :=
      (show Steady s (buildAssocReq hw s).2 from .refl s).trans
        (txMgmtFrame_steady _ _)
    exact hsend.setState fun hdown => absurd hdown (by simpa using hup)

/-- A station is an object, not a frame. -/
theorem addSta_plain (aid : UInt16) (s : Mlme) :
    Plain s (addSta hw env aid s) := by
  rw [addSta]
  split
  · exact .refl s
  · exact (show Plain s { s with
        sta := some (newSta hw aid s), nextAddr := s.nextAddr + 1 }
      from .refl s).emit _ rfl rfl

/-- Telling the driver of the association. -/
theorem notifyAssoc_steady (aid : UInt16) (s : Mlme) :
    Steady s (notifyAssoc aid s) :=
  (Steady.refl s).emit (.bssInfoChanged true) rfl rfl rfl

/-- Entering the link moves to HANDSHAKING or CONNECTED. -/
theorem enterLink_steady (s : Mlme) : Steady s (enterLink hw env s) := by
  have hmark := (Steady.refl s).emit .associated rfl rfl rfl
  simp only [enterLink]
  split
  · have hwait : Steady s ((s.emit .associated).setState .handshaking) :=
      hmark.setState fun _ => by decide
    exact hwait
  · have hlink : Steady s (((s.emit .associated).setState .connected).emit
        (.setLinkStatus true)) :=
      (hmark.setState fun _ => by decide).emit _ rfl rfl rfl
    exact hlink.trans (startTxAggregation_steady _)

-- ==================================================================== connect

/-- What `doAuthenticate` sets up before its first wait. -/
theorem connectSetup_steady (s : Mlme) : Steady s (connectSetup hw s) :=
  (setTargetChandef_steady s).emit (.connectHwSetup _) rfl rfl rfl

/-- Every stretch of `doAuthenticate`; its last write is AUTHENTICATING,
whatever the state was. -/
theorem doAuthenticate_steady (scanning : Bool) (pc : AuthPc) (s : Mlme) :
    Steady s (doAuthenticate hw env scanning pc s).2 := by
  cases pc with
  | entry =>
      rw [doAuthenticate]
      split <;> exact .refl s
  | waitScan i =>
      rw [doAuthenticate]
      split <;> exact .refl s
  | settle =>
      rw [doAuthenticate]
      split
      · exact .refl s
      · exact connectSetup_steady s
  | transmit =>
      exact (show Steady s (buildAuthReq hw s).2 from .refl s).trans
        (txMgmtFrame_steady _ _)
  | finish =>
      have hback : Steady s (s.setState .authenticating) :=
        (Steady.refl s).setState fun _ => by decide
      exact hback

-- ================================================================ the windows

/-- Releasing frames that were no one's. -/
theorem kfreeAll_log (skbs : List SkBuff) (s : Mlme) :
    ∃ new, kfreeAll skbs s = { s with log := new ++ s.log }
      ∧ (∀ o ∈ new, o.isPower = false)
      ∧ (freedSkbs new).Perm skbs := by
  induction skbs generalizing s with
  | nil => exact ⟨[], rfl, fun _ ho => (by cases ho), List.Perm.refl _⟩
  | cons skb skbs ih =>
      obtain ⟨new, heq, hnew, hperm⟩ := ih (kfreeSkb skb s)
      refine ⟨new ++ [.kfreeSkb skb], ?_, fun o ho => ?_, ?_⟩
      · rw [kfreeAll, List.foldl_cons]
        rw [kfreeAll] at heq
        rw [heq, List.append_assoc]
        rfl
      · rcases List.mem_append.1 ho with ho | ho
        · exact hnew o ho
        · rw [List.mem_singleton.1 ho]
          rfl
      · rw [freedSkbs_append]
        exact List.perm_append_comm.trans (hperm.cons skb)

/-- A piece that changes the windows and releases what they lose, and
what it was given. -/
private theorem windows_accounts {rx : RxBa SkBuff} {freed : List SkBuff}
    (h : (freed ++ rx.held).Perm (as ++ s.rxBa.held)) :
    Accounts as s (kfreeAll freed { s with rxBa := rx }) := by
  obtain ⟨new, heq, hnew, hperm⟩ := kfreeAll_log freed { s with rxBa := rx }
  rw [heq]
  refine ⟨rfl, rfl, ⟨new, rfl, hnew⟩, ?_⟩
  simp only [freedSkbs_append]
  rw [List.perm_iff_count] at h hperm ⊢
  intro x
  have h1 := h x
  have h2 := hperm x
  simp only [List.count_append] at h1 h2 ⊢
  omega

/-- A reorder window torn down frees the frames it held, which were in the
books. -/
theorem Mlme.rxBaTeardown_accounts (tid : Nat) (s : Mlme) :
    Accounts [] s (s.rxBaTeardown tid) :=
  windows_accounts (rxBaTeardown_balance tid s.rxBa)

/-- One that is set up tears the old one down first. -/
theorem Mlme.rxBaSetup_accounts (tid ssn bufsize : Nat) (s : Mlme) :
    Accounts [] s (s.rxBaSetup env tid ssn bufsize) :=
  windows_accounts (rxBaSetup_balance env.baAlloc tid ssn bufsize s.rxBa)

theorem rxBaTeardownAll_accounts (s : Mlme) :
    Accounts [] s (rxBaTeardownAll s) := by
  have hfold : ∀ (tids : List Nat) (s : Mlme),
      Accounts [] s (tids.foldl (fun s tid => s.rxBaTeardown tid) s) := by
    intro tids
    induction tids with
    | nil => exact fun s => (Plain.refl s).accounts
    | cons tid tids ih =>
        exact fun s => (s.rxBaTeardown_accounts tid).trans (ih _)
  exact hfold _ s

/-- Releasing the station tears the windows down and removes it. -/
theorem releaseSta_accounts (s : Mlme) : Accounts [] s (releaseSta s) := by
  rw [releaseSta]
  split
  next => exact (Plain.refl s).accounts
  next sta hsta =>
    have hremove : Plain s (if s.up then s.emit (.staRemove sta.addr)
        else s) := by
      split
      · exact (Plain.refl s).emit _ rfl rfl
      · exact .refl s
    have hforget : Plain s (forgetSta ((if s.up
        then s.emit (.staRemove sta.addr) else s).emit (.freeSta sta.addr))) :=
      hremove.emit (.freeSta sta.addr) rfl rfl
    exact (rxBaTeardownAll_accounts _).after hforget

/-- The keys and the station go. -/
theorem releaseAll_accounts (s : Mlme) :
    Accounts [] s (releaseSta (clearKeys s)) :=
  (releaseSta_accounts _).after (clearKeys_plain s)

/-- Leaving a link: a deauthentication frame, then the release. -/
theorem doDisconnect_accounts (s : Mlme) :
    Accounts [] s (doDisconnect hw env s) := by
  rw [doDisconnect]
  split
  · exact (show Plain s s.setIdle from .refl s).accounts
  · have hsend : Plain s (txMgmtFrame env (deauthFrame hw (clearKeys s))
        (clearKeys s)) :=
      (clearKeys_plain s).trans (txMgmtFrame_steady _ _).1
    simp only
    generalize txMgmtFrame env (deauthFrame hw (clearKeys s)) (clearKeys s) = t
      at hsend ⊢
    have htold : Plain s ((clearBssAssoc t).emit (.bssInfoChanged false)) :=
      (show Plain s (clearBssAssoc t) from hsend).emit _ rfl rfl
    have hrelease := (releaseSta_accounts _).after htold
    generalize releaseSta ((clearBssAssoc t).emit (.bssInfoChanged false)) = u
      at hrelease ⊢
    exact hrelease.before ((show Plain u u.setIdle.cancelTimer from
      .refl u).emit (.setLinkStatus false) rfl rfl)

/-- The command is `doDisconnect` unless there is nothing to leave. -/
theorem cmdDisconnect_accounts (s : Mlme) :
    Accounts [] s (cmdDisconnect hw env s).2 := by
  rw [cmdDisconnect]
  split
  · exact (Plain.refl s).accounts
  · exact doDisconnect_accounts s

/-- `connectTo` releases what a former link left. -/
theorem connectTo_accounts (ssid : Option (List UInt8))
    (password : List UInt8) (s : Mlme) :
    Accounts [] s (connectTo ssid password s).2.2 := by
  unfold connectTo
  split
  · exact (Plain.refl s).accounts
  · split
    · exact (Plain.refl s).accounts
    · have hclear := releaseAll_accounts s
      generalize releaseSta (clearKeys s) = t at hclear ⊢
      simp only
      split
      · exact hclear
      next target _ =>
        exact hclear.before ((show Plain t (setTarget target
          ((cStr password).take 63) t) from .refl t).emit _ rfl rfl)

/-- Either timeout: a scan that ends, or an attempt that is given up. -/
theorem onTimer_accounts (s : Mlme) : Accounts [] s (onTimer hw env s).2 := by
  rw [onTimer]
  split
  · split
    · exact (abortScanStart_steady s).accounts
    · have hstart := abortScanStart_steady s
      simp only
      generalize abortScanStart s = t at hstart ⊢
      have hrest : Plain t (if t.scanReturnState = .connected
          then restoreConnectedChannel hw t else t) := by
        split
        · exact (restoreConnectedChannel_steady t).1
        · exact .refl t
      exact (hstart.1.trans hrest).accounts
  · exact (Plain.refl s).accounts
  · exact (show Plain s (s.setState .idle) from .refl s).accounts
  · exact doDisconnect_accounts s
  · exact (Plain.refl s).accounts

-- ======================================================== received frames

/-- A beacon is freed by the function that reads it. -/
theorem processScanResult_accounts (skb : SkBuff) (s : Mlme) :
    Accounts [skb] s (processScanResult env skb s) := by
  rw [processScanResult]
  split
  · exact kfreeSkb_accounts skb s
  · simp only
    split
    · exact (show Plain s { s with bssList := _ } from .refl s).kfreeSkb skb
    · exact (show Plain s { s with
          bssList := _, bssCount := s.bssCount + 1 } from .refl s).kfreeSkb skb

/-- An association response is freed on each of its paths. -/
theorem processAssocResponse_accounts (skb : SkBuff) (s : Mlme) :
    Accounts [skb] s (processAssocResponse hw env skb s) := by
  have hfree := kfreeSkb_accounts skb s
  rw [processAssocResponse]
  split
  · exact hfree
  · simp only
    generalize kfreeSkb skb s = t at hfree ⊢
    have hidle : Plain t (t.setState .idle) := .refl t
    split
    · exact hfree.before hidle
    · split
      · exact hfree.before hidle
      · generalize le16At (env.freed.getD skb.mem) 28 &&& 0x3FFF = aid
        have haid : Plain t (setAid aid t) := .refl t
        exact hfree.before (haid.trans ((addSta_plain aid _).trans
          ((notifyAssoc_steady aid _).1.trans (enterLink_steady _).1)))

/-- A block-ack action frame is only looked at here; its caller frees it. -/
theorem handleBackAction_accounts (b : List UInt8) (s : Mlme) :
    Accounts [] s (handleBackAction hw env b s) := by
  have hsame := (Plain.refl s).accounts
  have htxBa : ∀ v, Plain s (setTxBa v s) := fun _ => .refl s
  rw [handleBackAction]
  split
  · exact hsame
  · split
    · split
      · exact hsame
      · exact (s.rxBaSetup_accounts _ _ _).before
          (sendAddbaResponse_steady _ _ _ _ _).1
    · split
      · split
        · exact hsame
        · simp only
          split
          · exact (htxBa true).accounts
          · exact hsame
      · split
        · split
          · exact hsame
          · simp only
            generalize hinit : ((le16At b 2 &&& 0x0800 != 0) : Bool) = initiator
            generalize ((le16At b 2 >>> 12) &&& 0xf).toUInt8 = tid
            have hdel : Plain s (if !initiator && tid == baTid
                then setTxBa false s else s) := by
              split
              · exact htxBa false
              · exact .refl s
            split
            · exact (Mlme.rxBaTeardown_accounts _ _).after hdel
            · exact hdel.accounts
        · exact hsame

/-- A deauthentication releases the station. -/
theorem leaveOnDeauth_accounts (s : Mlme) :
    Accounts [] s (leaveOnDeauth s) := by
  have hclear : Plain s (setTxBa false (clearKeys s)) := clearKeys_plain s
  have hdown := (rxBaTeardownAll_accounts _).after hclear
  rw [leaveOnDeauth]
  generalize rxBaTeardownAll (setTxBa false (clearKeys s)) = t at hdown ⊢
  exact hdown.before ((show Plain t t.setIdle from .refl t).emit
    (.setLinkStatus false) rfl rfl)

/-- A management frame is freed on every path of the dispatch. -/
theorem processRxMgmt_accounts (skb : SkBuff) (s : Mlme) :
    Accounts [skb] s (processRxMgmt hw env skb s) := by
  have hfree := kfreeSkb_accounts skb s
  have hassoc := (@doAssociate_steady hw env s).1.kfreeSkb skb
  simp only [processRxMgmt]
  split
  · split
    · exact processScanResult_accounts skb s
    · exact hfree
  · split
    · split
      · exact hfree
      · split
        · exact hfree
        · split
          · exact hassoc
          · split
            · exact hassoc
            · exact (show Plain s (s.setState .idle) from
                .refl s).kfreeSkb skb
    · split
      · split
        · exact processAssocResponse_accounts skb s
        · exact hfree
      · split
        · split
          · split
            · exact hfree
            · exact (leaveOnDeauth_accounts s).trans (kfreeSkb_accounts skb _)
          · exact hfree
        · split
          · split
            · exact (handleBackAction_accounts _ s).trans
                (kfreeSkb_accounts skb _)
            · exact hfree
          · exact hfree

/-- What goes to the stack is a copy in an mbuf. -/
theorem deliverEthernet_steady (pos : Nat) (f : EthFrame) (s : Mlme) :
    Steady s (deliverEthernet env pos f s) := by
  rw [deliverEthernet]
  split
  · exact (Steady.refl s).emit _ rfl rfl rfl
  · exact .refl s

/-- A delivered frame is released, once. -/
theorem deliverDataFrame_accounts (skb : SkBuff) (s : Mlme) :
    Accounts [skb] s (deliverDataFrame hw env skb s) := by
  have hmany : ∀ (msdus : List (Nat × EthFrame)) (s : Mlme),
      Plain s (msdus.foldl (fun s m => deliverEthernet env m.1 m.2 s) s) := by
    intro msdus
    induction msdus with
    | nil => exact fun s => .refl s
    | cons m msdus ih =>
        exact fun s => (deliverEthernet_steady m.1 m.2 s).1.trans (ih _)
  rw [deliverDataFrame]
  split
  · exact kfreeSkb_accounts skb s
  · exact (hmany _ s).kfreeSkb skb
  · split
    · exact (handleEAPOL_plain _ s).kfreeSkb skb
    · exact (deliverEthernet_steady 0 _ s).1.kfreeSkb skb

end Rtw88
