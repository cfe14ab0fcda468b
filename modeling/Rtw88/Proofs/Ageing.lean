/-
The scan list ages as it should: `scan_list_ages`.

What an event does to the list is read off the frame equations
(`sysStep_listPart`): a beacon goes into it, an accepted `cmdScan` takes
the next generation, the end of a scan ages it, and nothing else touches
it. So the generation is always that of an entry's last sighting plus
the scans since (`AgeInv.age`), and the source's unsigned difference is
the record.

# The wrap

The generation is a 32-bit counter that skips zero and wraps in a long
run. Where it wraps every entry is made to look just seen, and the record
of the run takes every entry for heard there. So the sum of an entry's
last sighting and the scans since is the generation as a number, without
a wrap (`AgesFit`), and a start of a scan keeps it in both cases
(`AgesFit.next`).

# Without a channel

A `cmdScan` without an enabled channel takes a generation and starts no
scan. Then no scan ever starts, and the list stays empty
(`AgeInv.idle`). So the generations taken by such commands are never
counted against an entry.
-/
import Rtw88.Proofs.BssList
import Rtw88.Proofs.Link.Step
import Rtw88.Proofs.ScanFrame

namespace Rtw88

variable {hw : Hw} {env : Env}

-- =================================================================== the list

private theorem BssIntact.of_listPart {s t : Mlme} (h : BssIntact s)
    (heq : listPart t = listPart s) : BssIntact t := by
  obtain ⟨hl, hrest⟩ := Prod.mk.inj heq
  obtain ⟨hc, hg⟩ := Prod.mk.inj hrest
  exact h.same hl hc hg

theorem listPart_cmdScan (s : Mlme) :
    listPart (cmdScan hw env s).2.2
      = listPart (if s.state ≠ .idle ∨ s.up = false then s
        else nextGeneration s) := by
  obtain ⟨hl, hc, hg⟩ := cmdScan_bss hw env s
  rw [listPart, hl, hc, hg]
  rfl

theorem listPart_abortScanStart (s : Mlme) :
    listPart (abortScanStart s) = listPart s := by
  rw [abortScanStart]
  split
  · rfl
  · split <;> rfl

theorem listPart_onTimer (s : Mlme) :
    listPart (onTimer hw env s).2 = listPart s := by
  have hleave : ∀ (st : RTW88State) (t : Mlme),
      listPart (leaveScanning st t) = listPart t := fun _ _ => rfl
  rw [onTimer]
  cases s.state with
  | scanning =>
      simp only
      split
      · exact listPart_abortScanStart s
      · rw [hleave]
        split
        · rw [listPart_eq (scanPart_restoreConnectedChannel _)]
          exact listPart_abortScanStart s
        · exact listPart_abortScanStart s
  | idle => rfl
  | authenticating => rfl
  | associating => rfl
  | handshaking => exact listPart_eq (scanPart_doDisconnect s)
  | connected => rfl
  | disconnecting => rfl

/-- The list where a scan ends, or goes on. -/
def agedBy (ended : Option Bool) (s : Mlme) : Mlme :=
  if ended = some false then ageBssList s else s

/-- Ageing depends on the link and the list. -/
theorem listPart_agedBy {s t : Mlme} (hview : view t = view s)
    (hlist : listPart t = listPart s) (ended : Option Bool) :
    listPart (agedBy ended t) = listPart (agedBy ended s) := by
  have hstate : t.state = s.state := congrArg Link.state hview
  have hret : t.scanReturnState = s.scanReturnState := congrArg Link.ret hview
  have htarget : t.targetBSS = s.targetBSS := congrArg Link.target hview
  obtain ⟨hl, hrest⟩ := Prod.mk.inj hlist
  obtain ⟨hc, hg⟩ := Prod.mk.inj hrest
  have hkeeps : keepsBss t = keepsBss s := by
    funext b
    rw [keepsBss, keepsBss, hstate, hret, htarget, hg]
  unfold agedBy
  split
  · show (t.bssList.filter (keepsBss t), t.bssCount - (t.bssList.length
      - (t.bssList.filter (keepsBss t)).length), t.scanGeneration) = _
    rw [hkeeps, hl, hc, hg]
    rfl
  · exact hlist

theorem listPart_scanDone (aborted : Bool) (s : Mlme) :
    listPart (scanDone hw aborted s) = listPart (agedBy (some aborted) s) := by
  rw [listPart_eq (scanPart_scanDone aborted s |>.trans rfl), agedBy]
  cases aborted <;> rfl

/-- The end of the manual scan. -/
private theorem listPart_endManualScan {s : Mlme}
    (hret : s.scanReturnState = .idle) (connectedScan : Bool) :
    listPart (endManualScan hw env connectedScan s)
      = listPart (agedBy (some s.manualScanAbort) s) := by
  have hoff : ∀ t : Mlme, listPart (clearManualScan t) = listPart t :=
    fun _ => rfl
  have hhome : ∀ t : Mlme,
      t = (setOnHomeChannel false s).emit .swScanComplete →
      view (if connectedScan then visitHome hw env false t else t) = view s
        ∧ scanPart (if connectedScan then visitHome hw env false t else t)
          = scanPart s := by
    rintro t rfl
    have hview : view ((setOnHomeChannel false s).emit .swScanComplete)
        = view s := by
      rw [view_emit_off _ _ (by simp [Obs.onTrail]), view_setOnHomeChannel]
    cases connectedScan with
    | false => exact ⟨hview, rfl⟩
    | true =>
        refine ⟨?_, scanPart_visitHome _ _⟩
        rw [if_pos rfl, view_visitHome (s := (setOnHomeChannel false s).emit
          .swScanComplete) hret, hview]
  obtain ⟨hview, hpart⟩ := hhome _ rfl
  rw [endManualScan, hoff, listPart_scanDone,
    listPart_agedBy hview (listPart_eq hpart)]
  have habort := congrArg (fun m => m.2.2) (manual_eq hpart)
  exact congrArg (fun b => listPart (agedBy (some b) s)) habort

/-- The manual scan thread touches the list where it ends. -/
theorem listPart_runManualScan {s : Mlme} (hret : s.scanReturnState = .idle)
    (pc : ScanPc) :
    listPart (runManualScan hw env pc s).2
      = listPart (agedBy (pc.ends s) s) := by
  have hclear : ∀ t : Mlme, listPart (clearManualScanCount t) = listPart t :=
    fun _ => rfl
  have htune : ∀ (chan : Channel) (t : Mlme),
      listPart (tuneScanChannel hw env chan t) = listPart t := by
    intro chan t
    rw [tuneScanChannel]
    split
    · rfl
    · exact listPart_eq (scanPart_txProbeRequest _)
  cases pc with
  | entry =>
      cases hup : s.up with
      | true =>
          simp [runManualScan, ScanPc.ends, hup, agedBy]
          rfl
      | false =>
          simp [runManualScan, ScanPc.ends, hup, hclear, listPart_scanDone]
  | chan i count connectedScan =>
      by_cases hgo : (i < count && !s.manualScanAbort) = true
      · simp only [runManualScan, ScanPc.ends, hgo, if_true]
        split
        · rfl
        · split
          · exact listPart_eq (scanPart_visitHome _ _)
          · exact htune _ _
      · simp only [runManualScan, ScanPc.ends, hgo]
        exact listPart_endManualScan hret connectedScan
  | leave chan i count => exact htune chan s
  | dwell i count connectedScan =>
      simp only [runManualScan]
      split
      · exact listPart_eq (scanPart_visitHome _ _)
      · rfl

/-- The state whose list is that after the event. -/
def listStep (s : Sys) : Event → Mlme
  | .cmdScan _ =>
      if s.mlme.state ≠ .idle ∨ s.mlme.up = false then s.mlme
      else nextGeneration s.mlme
  | .rx env skb =>
      if isMgmt (frameControl skb.mem) = true ∧ scanReply skb s.mlme
      then processScanResult env skb s.mlme else s.mlme
  | e => agedBy (s.endsScan e) s.mlme

private theorem listPart_runConnect (ssid : Option (List UInt8))
    (password : List UInt8) (s : Sys) :
    listPart (runConnect ssid password s).mlme = listPart s.mlme := by
  simp only [runConnect]
  split <;> exact listPart_eq (scanPart_connectTo _ _ _)

private theorem listPart_resumeWait (i : Nat) (s : Sys) :
    listPart (resumeWait hw i env s).mlme = listPart s.mlme := by
  rw [resumeWait]
  split
  · rfl
  next w _ =>
    split
    · rfl
    · obtain ⟨cmd, ret, turn⟩ := w
      cases cmd with
      | powerOff =>
          exact listPart_eq
            ((scanPart_finishPowerOff _).trans (scanPart_abortScanFinish _ _))
      | connect ssid password =>
          simp only [runWaiter]
          split
          · exact (listPart_runConnect _ _ _).trans
              (listPart_eq (scanPart_abortScanFinish _ _))
          · exact listPart_eq (scanPart_abortScanFinish _ _)

/-- What every event does to the scan list. -/
theorem sysStep_listPart {s : Sys} (h : NoLinkScan s) (e : Event) :
    listPart (sysStep hw s e).mlme = listPart (listStep s e) := by
  cases e with
  | cmdScan env => exact listPart_cmdScan s.mlme
  | cmdConnect ssid password =>
      simp only [sysStep]
      split
      · exact listPart_abortScanStart s.mlme
      · exact listPart_runConnect _ _ _
  | cmdPowerOff env =>
      simp only [sysStep]
      split
      · exact listPart_abortScanStart s.mlme
      · exact listPart_eq (scanPart_finishPowerOff s.mlme)
  | resume i env => exact listPart_resumeWait i s
  | rx env skb =>
      have hfile : ∀ (p : Option Pending) (t : Sys),
          (addPending p t).mlme = t.mlme := by
        intro p t
        cases p <;> rfl
      show listPart (addPending _ _).mlme = _
      rw [hfile]
      exact listPart_eq ((scanPart_rxFrame skb s.mlme).trans
        (apply_ite scanPart _ _ _).symm)
  | deliver i env =>
      show listPart (deliverNext hw i env s).mlme = listPart s.mlme
      rw [deliverNext]
      split
      · rfl
      · split
        · show listPart (if _ then _ else _) = _
          split <;> rfl
        · exact listPart_eq (scanPart_deliverDataFrame _ _)
  | scanDone aborted => exact listPart_scanDone aborted s.mlme
  | timer env =>
      show listPart (fireTimer hw env s).mlme = listPart s.mlme
      rw [fireTimer]
      split
      · rfl
      · have hfire := @listPart_onTimer hw env s.mlme.cancelTimer
        simp only
        split <;> exact hfire
  | reorderTimer =>
      show listPart (fireReorderTimer s).mlme = listPart s.mlme
      rw [fireReorderTimer]
      split <;> rfl
  | auth i env scanning =>
      show listPart (stepAuth hw i env scanning s).mlme = listPart s.mlme
      rw [stepAuth]
      split
      · rfl
      · exact listPart_eq (scanPart_doAuthenticate _ _ _)
  | scan i env =>
      show listPart (stepScan hw i env s).mlme
        = listPart (agedBy (s.scans[i]?.bind (ScanPc.ends s.mlme)) s.mlme)
      rw [stepScan]
      cases s.scans[i]? with
      | none => rfl
      | some pc => exact listPart_runManualScan h.ret pc
  | cmdDisconnect env => exact listPart_eq (scanPart_cmdDisconnect s.mlme)
  | cmdPowerOn env => exact listPart_eq (scanPart_cmdPowerOn s.mlme)
  | powerOn env => exact listPart_eq (scanPart_powerOn s.mlme)
  | powerOff => exact listPart_eq (scanPart_powerOff s.mlme)
  | output env m => exact listPart_eq (scanPart_outputPacket m s.mlme)
  | stop env => exact listPart_eq (scanPart_stop s.mlme)

-- ================================================================ the entries

/-- The last sighting of every entry, and the scans since, make up the
generation. -/
def AgesFit (s : Mlme) (since : Bytes 6 → Nat) : Prop :=
  ∀ b ∈ s.bssList,
    b.lastSeenScan.toNat + since b.bssid = s.scanGeneration.toNat

private theorem AgesFit.of_listPart {s t : Mlme} {since : Bytes 6 → Nat}
    (h : AgesFit s since) (heq : listPart t = listPart s) :
    AgesFit t since := by
  obtain ⟨hl, hrest⟩ := Prod.mk.inj heq
  obtain ⟨-, hg⟩ := Prod.mk.inj hrest
  unfold AgesFit
  rw [hl, hg]
  exact h

/-- A beacon that is taken in is heard now. -/
private theorem AgesFit.hear {s : Mlme} {since : Bytes 6 → Nat}
    (h : AgesFit s since) (hs : BssIntact s) {skb : SkBuff}
    (hroom : ¬ (skb.data.length < 30 + 12 || !env.bssAlloc) = true) :
    AgesFit (processScanResult env skb s)
      (Function.update since (addr3 skb.data) 0) := by
  obtain ⟨hid, hseen⟩ := scanEntry_seen skb s.scanGeneration
  have hnew : (scanEntry skb s.scanGeneration).lastSeenScan.toNat
      + Function.update since (addr3 skb.data) 0
        (scanEntry skb s.scanGeneration).bssid
      = s.scanGeneration.toNat := by
    rw [hid, hseen, Function.update_self, Nat.add_zero]
  have hold : ∀ b ∈ s.bssList, b.bssid ≠ addr3 skb.data →
      b.lastSeenScan.toNat
        + Function.update since (addr3 skb.data) 0 b.bssid
        = s.scanGeneration.toNat := by
    intro b hb hne
    rw [Function.update_of_ne hne]
    exact h b hb
  simp only [processScanResult]
  rw [if_neg hroom]
  rcases updateBss_cases (scanEntry skb s.scanGeneration) s.bssList with
    ⟨l₁, b, l₂, hl, hb, heq⟩ | ⟨hnone, hni⟩
  · rw [heq]
    -- no other entry has this BSSID
    have hnd := hs.nodup
    rw [hl, List.map_append, List.map_cons] at hnd
    have hmid := (List.nodup_middle.1 hnd)
    intro x hx
    have hx : x ∈ l₁ ++ scanEntry skb s.scanGeneration :: l₂ := hx
    have hother : x ∈ l₁ ++ l₂ → x.bssid ≠ addr3 skb.data := by
      intro hmem hsame
      refine (List.nodup_cons.1 hmid).1 ?_
      rw [hb, hid, ← hsame, ← List.map_append]
      exact List.mem_map_of_mem hmem
    rcases List.mem_append.1 hx with hx | hx
    · refine hold x ?_ (hother (List.mem_append_left _ hx))
      rw [hl]
      exact List.mem_append_left _ hx
    · rcases List.mem_cons.1 hx with rfl | hx
      · exact hnew
      · refine hold x ?_ (hother (List.mem_append_right _ hx))
        rw [hl]
        exact List.mem_append_right _ (List.mem_cons_of_mem _ hx)
  · rw [hnone]
    intro x hx
    have hx : x ∈ scanEntry skb s.scanGeneration :: s.bssList := hx
    rcases List.mem_cons.1 hx with rfl | hx
    · exact hnew
    · refine hold x hx fun hsame => hni ?_
      rw [hid, ← hsame]
      exact List.mem_map_of_mem hx

/-- A scan starts: everyone was heard one scan longer ago, or now. -/
private theorem AgesFit.next {s : Mlme} {since : Bytes 6 → Nat}
    (h : AgesFit s since) :
    AgesFit (nextGeneration s)
      (if s.scanGeneration + 1 = 0 then fun _ => 0
        else fun bssid => since bssid + 1) := by
  unfold nextGeneration
  simp only
  by_cases hwrap : s.scanGeneration + 1 = 0
  · rw [if_pos hwrap, if_pos hwrap]
    intro b hb
    obtain ⟨b', -, rfl⟩ := List.mem_map.1 hb
    rfl
  · rw [if_neg hwrap, if_neg hwrap]
    intro b hb
    have hb : b.lastSeenScan.toNat + since b.bssid
        = s.scanGeneration.toNat := h b hb
    have hlt := s.scanGeneration.toNat_lt
    have hsum : (s.scanGeneration + 1).toNat
        = (s.scanGeneration.toNat + 1) % 2 ^ 32 := UInt32.toNat_add _ _
    have hne : (s.scanGeneration + 1).toNat ≠ 0 :=
      fun h0 => hwrap (UInt32.toNat_inj.1 h0)
    show b.lastSeenScan.toNat + (since b.bssid + 1)
      = (s.scanGeneration + 1).toNat
    omega

/-- So the unsigned difference is the record. -/
theorem AgesFit.keeps {a : Aged} (h : AgesFit a.sys.mlme a.since)
    {b : RTW88BSS} (hb : b ∈ a.sys.mlme.bssList) :
    keepsBss a.sys.mlme b = !decide (Stale a b) := by
  have hfit := h b hb
  have hsub : (a.sys.mlme.scanGeneration - b.lastSeenScan).toNat
      = a.since b.bssid := by
    rw [UInt32.toNat_sub_of_le _ _ (by
      rw [UInt32.le_iff_toNat_le]; omega)]
    omega
  have hage : (3 < a.sys.mlme.scanGeneration - b.lastSeenScan)
      ↔ 3 < a.since b.bssid := by
    rw [UInt32.lt_iff_toNat_lt, hsub]
    rfl
  unfold keepsBss Stale IsLinkTarget
  simp only [hage]
  by_cases hold : 3 < a.since b.bssid
  · simp [hold]
    rfl
  · simp [hold]

-- ============================================================= the invariant

/-- A scan does not start by itself. -/
private theorem Move.not_scanning {P : Allow} {v w : Link} (hP : ¬ P.scan)
    (h : Move hw P v w) (hv : v.state ≠ .scanning) : w.state ≠ .scanning := by
  cases h with
  | scanning h hscan => exact absurd hscan hP
  | idle | connect | authWrite | assocReq | handshake | openLink | m3 =>
      intro hst
      cases hst
  | _ => exact hv

/-- Every entry's age is on record; and where no channel is enabled there
is no scan and no entry. -/
structure AgeInv (hw : Hw) (a : Aged) : Prop where
  noLink : NoLinkScan a.sys
  intact : BssIntact a.sys.mlme
  ages : AgesFit a.sys.mlme a.since
  idle : enabledChannels hw = [] →
    a.sys.mlme.state ≠ .scanning ∧ a.sys.mlme.bssList = []

/-- Without a channel every `cmdScan` ends at once. -/
private theorem cmdScan_idle (hno : enabledChannels hw = []) {s : Mlme}
    (h : s.state ≠ .scanning) :
    (cmdScan hw env s).2.2.state ≠ .scanning := by
  rw [cmdScan]
  split
  · exact h
  next hidle =>
    have hidle : s.state = .idle := not_not.1 hidle
    split
    · exact h
    · simp only [hno, List.length_nil, if_true]
      show s.state ≠ .scanning
      exact h

/-- And so there is no scan and no entry after any event. -/
private theorem sysStep_no_scan {s : Sys} (hnl : NoLinkScan s)
    (hno : enabledChannels hw = [])
    (h : s.mlme.state ≠ .scanning ∧ s.mlme.bssList = []) (e : Event) :
    (sysStep hw s e).mlme.state ≠ .scanning
      ∧ (sysStep hw s e).mlme.bssList = [] := by
  refine ⟨?_, ?_⟩
  · by_cases hscan : e.isCmdScan = true
    · cases e with
      | cmdScan env => exact cmdScan_idle hno h.1
      | _ => cases hscan
    · have hallowed : Allowed hw { Allow.all with scan := False } s e :=
        { Allowed.all hw s e with scan := fun h => absurd h hscan }
      exact (sysStep_moves hnl hallowed).inv
        (I := fun v => v.state ≠ .scanning)
        (Move.not_scanning not_false) h.1
  · have hlist := congrArg Prod.fst (@sysStep_listPart hw s hnl e)
    have haged : ∀ ended, (agedBy ended s.mlme).bssList = [] := by
      intro ended
      unfold agedBy
      split
      · show s.mlme.bssList.filter _ = []
        rw [h.2]
        rfl
      · exact h.2
    refine hlist.trans ?_
    cases e with
    | cmdScan env =>
        show (if _ then _ else _ : Mlme).bssList = []
        split
        · exact h.2
        · unfold nextGeneration
          simp only
          split
          · show s.mlme.bssList.map _ = []
            rw [h.2]
            rfl
          · exact h.2
    | rx env skb =>
        have hreply : ¬ (isMgmt (frameControl skb.mem) = true
            ∧ scanReply skb s.mlme) := fun hr => h.1 hr.2.2
        show (if _ then _ else _ : Mlme).bssList = []
        rw [if_neg hreply]
        exact h.2
    | _ => exact haged _

/-- The list after an event is intact. -/
private theorem listStep_intact {s : Sys} (h : BssIntact s.mlme) (e : Event) :
    BssIntact (listStep s e) := by
  have haged : ∀ ended, BssIntact (agedBy ended s.mlme) := by
    intro ended
    unfold agedBy
    split
    · exact ageBssList_intact h
    · exact h
  cases e with
  | cmdScan env =>
      show BssIntact (if _ then _ else _)
      split
      · exact h
      · exact nextGeneration_intact h
  | rx env skb =>
      show BssIntact (if _ then _ else _)
      split
      · exact processScanResult_intact h env skb
      · exact h
  | _ => exact haged _

/-- The record where a BSSID is heard, … -/
private theorem since_heard {a : Aged} {e : Event} {bssid : Bytes 6}
    (h : hears a.sys.mlme e = some bssid) :
    (agedStep hw a e).since = Function.update a.since bssid 0 := by
  simp only [agedStep, h]

/-- … and where none is. -/
private theorem since_deaf {a : Aged} {e : Event}
    (h : hears a.sys.mlme e = none) :
    (agedStep hw a e).since = if startsScan hw a.sys.mlme e then
        if a.sys.mlme.scanGeneration + 1 = 0 then fun _ => 0
        else fun bssid => a.since bssid + 1
      else a.since := by
  simp only [agedStep, h]

/-- Its ages are on record. -/
private theorem listStep_ages {a : Aged} (h : AgeInv hw a) (e : Event) :
    AgesFit (listStep a.sys e) (agedStep hw a e).since := by
  have haged : ∀ ended, AgesFit (agedBy ended a.sys.mlme) a.since := by
    intro ended
    unfold agedBy
    split
    · exact fun b hb => h.ages b (List.mem_filter.1 hb).1
    · exact h.ages
  cases e with
  | cmdScan env =>
      rw [since_deaf rfl]
      show AgesFit (if _ then _ else _) _
      by_cases hrefused : a.sys.mlme.state ≠ .idle ∨ a.sys.mlme.up = false
      · have hno : startsScan hw a.sys.mlme (.cmdScan env) = false := by
          rcases hrefused with hst | hup
          · simp [startsScan, hst]
          · simp [startsScan, hup]
        rw [if_pos hrefused, hno]
        exact h.ages
      · rw [if_neg hrefused]
        by_cases hchans : enabledChannels hw = []
        · -- there is no entry whose age could be wrong
          intro b hb
          have hnone : (nextGeneration a.sys.mlme).bssList = [] := by
            unfold nextGeneration
            simp only
            split
            · show a.sys.mlme.bssList.map _ = []
              rw [(h.idle hchans).2]
              rfl
            · exact (h.idle hchans).2
          rw [hnone] at hb
          cases hb
        · have hstarts : startsScan hw a.sys.mlme (.cmdScan env) = true := by
            rw [not_or, not_not, Bool.not_eq_false] at hrefused
            simp [startsScan, hrefused.1, hrefused.2, hchans]
          rw [hstarts]
          exact h.ages.next
  | rx env skb =>
      show AgesFit (if _ then _ else _) _
      by_cases hreply : isMgmt (frameControl skb.mem) = true
          ∧ scanReply skb a.sys.mlme
      · rw [if_pos hreply]
        by_cases hroom : (skb.data.length < 30 + 12 || !env.bssAlloc) = true
        · have hdeaf : hears a.sys.mlme (.rx env skb) = none :=
            if_neg fun hears => hears.2.2 hroom
          rw [since_deaf hdeaf, processScanResult, if_pos hroom]
          exact h.ages
        · have hheard : hears a.sys.mlme (.rx env skb)
              = some (addr3 skb.data) :=
            if_pos ⟨hreply.1, hreply.2, hroom⟩
          rw [since_heard hheard]
          exact h.ages.hear h.intact hroom
      · have hdeaf : hears a.sys.mlme (.rx env skb) = none :=
          if_neg fun hears => hreply ⟨hears.1, hears.2.1⟩
        rw [if_neg hreply, since_deaf hdeaf]
        exact h.ages
  | _ => exact haged _

/-- Every event keeps the invariant. -/
private theorem agedStep_inv {a : Aged} (h : AgeInv hw a) (e : Event) :
    AgeInv hw (agedStep hw a e) where
  noLink := sysStep_noLinkScan h.noLink e
  intact := (listStep_intact h.intact e).of_listPart
    (sysStep_listPart h.noLink e)
  ages := (listStep_ages h e).of_listPart (sysStep_listPart h.noLink e)
  idle hno := sysStep_no_scan h.noLink hno (h.idle hno) e

-- ==================================================================== result

/-- Under the invariant the end of a scan does the right thing. -/
private theorem AgeInv.agesRightly {a : Aged} (h : AgeInv hw a) (e : Event) :
    AgesRightly hw a e := by
  intro aborted hends
  have hlist : (sysStep hw a.sys e).mlme.bssList
      = (agedBy (some aborted) a.sys.mlme).bssList := by
    refine (congrArg Prod.fst (sysStep_listPart h.noLink e)).trans ?_
    rw [Option.mem_def] at hends
    rw [← hends]
    cases e with
    | scanDone aborted' => rfl
    | scan i env => rfl
    | _ => cases hends
  cases aborted with
  | true =>
      simp only [Bool.true_or, List.filter_true]
      exact ⟨hlist, fun m l hm _ => ⟨m, rfl, hm⟩⟩
  | false =>
      simp only [Bool.false_or]
      refine ⟨hlist.trans (List.filter_congr fun b hb => h.ages.keeps hb),
        fun m l hm hl => ?_⟩
      obtain ⟨m', heq, hm'⟩ := scanDoneMem_holds hm a.sys.mlme
      refine ⟨m', heq, ?_⟩
      have hsame : (l.filter fun x => keepsBss a.sys.mlme x.2)
          = l.filter fun x => !decide (Stale a x.2) := by
        refine List.filter_congr fun x hx => h.ages.keeps ?_
        rw [← hl]
        exact List.mem_map_of_mem hx
      rwa [hsame] at hm'

/-- In every run, with any events and threads in any order and however
often `_scanGeneration` wraps around: a scan that ends takes exactly
those entries out of the list that are not the target of a link and were
last heard more than three scans ago, an aborted one takes none; the
others stay, in order and as they were. In memory too. -/
theorem scan_list_ages (hw : Hw) (powered : Bool) (es : List Event) :
    Along (agedStep hw) (AgesRightly hw) (Aged.init powered) es := by
  refine along_of_always (I := AgeInv hw) (fun a e h => agedStep_inv h e)
    (fun a e h => h.agesRightly e) ?_ es
  refine ⟨NoLinkScan.init powered, ⟨List.nodup_nil, rfl, ?_⟩, ?_, ?_⟩
  · intro b hb
    cases hb
  · intro b hb
    cases hb
  · exact fun _ => ⟨fun hst => (by cases hst), rfl⟩

end Rtw88
