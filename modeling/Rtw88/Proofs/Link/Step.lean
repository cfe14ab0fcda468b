/-
Every event of the system is a chain of moves: `sysStep_moves`, and what
follows for runs.

The premises are that no scan was started from a link (`NoLinkScan`,
itself an invariant) and that the event keeps to the allowance.
`sysRun_inv` is the rule the results about runs use: an invariant of the
moves is an invariant of every run whose events keep to the allowance.

# What an invariant has to do

A result about the link states its invariant of `Link`, the part of the
object that keys, station and state make up, and proves it for each
`Move`. There are few of those, and no function of the source is unfolded
again. The guards of a move are what the source has tested on the way to
it, so an invariant may use them.

The allowance is for what happens in some runs only: a new attempt, an
accepted association, an M3 that verifies under a PTK of zeros. A result
about all runs allows everything, and one about the rest of an
association forbids what would end it. That is asked of the event, and
has to be handed on to the function that makes the move, for EAPOL bodies
through the frame that carries them (`Allowed.eapol`).

# Waits

A command that finds a scan in progress goes on in a later step. What it
saw before the wait is on record with it, and `sysStep_waiters` says that
a turn keeps that; with `NoLinkScan` it never saw a link.
-/
import Rtw88.Proofs.Link.Scans

namespace Rtw88

variable {hw : Hw} {env : Env} {P : Allow}

-- ================================================================= receive

/-- A move of the link that a `kfree_skb` follows. -/
private theorem thenFree {s t : Mlme} (skb : SkBuff)
    (h : Moves hw P (view s) (view t)) :
    Moves hw P (view s) (view (kfreeSkb skb t)) := by
  rw [view_kfreeSkb]
  exact h

/-- A management frame moves the link only as its association response may.
-/
theorem processRxMgmt_moves {skb : SkBuff} {s : Mlme}
    (hP : (frameControl skb.mem &&& 0x00f0 = 0x0010
        ∨ frameControl skb.mem &&& 0x00f0 = 0x0030) →
      s.state = .associating → assocOk env skb s = true → P.assoc) :
    Moves hw P (view s) (view (processRxMgmt hw env skb s)) := by
  have hfree : Moves hw P (view s) (view (kfreeSkb skb s)) :=
    thenFree skb .refl
  simp only [processRxMgmt]
  split
  · split
    · exact processScanResult_moves skb s
    · exact hfree
  · split
    · split
      · exact hfree
      next hauth =>
        have hauth : s.state = .authenticating := not_not.1 hauth
        split
        · exact hfree
        · split
          · exact thenFree skb (doAssociate_moves hauth)
          · split
            · exact thenFree skb (doAssociate_moves hauth)
            · exact thenFree skb (fallIdle_moves s)
    · split
      next hstype =>
        split
        next hassoc =>
          exact processAssocResponse_moves hassoc (hP hstype hassoc)
        next => exact hfree
      · split
        · split
          · split
            · exact hfree
            · exact thenFree skb (leaveOnDeauth_moves s)
          · exact hfree
        · split
          · split
            next hback =>
              exact thenFree skb (handleBackAction_moves hback.1 _)
            next => exact hfree
          · exact hfree

/-- A delivery to the network stack leaves the frame on the trail. -/
private theorem deliverEthernet_moves {f : EthFrame} (hP : P.hands f)
    (pos : Nat) (s : Mlme) :
    Moves hw P (view s) (view (deliverEthernet env pos f s)) := by
  rw [deliverEthernet]
  split
  · rw [view_emit_on _ _ rfl]
    exact .one (.inject _ f hP)
  · exact .refl

/-- A data frame moves it only as its EAPOL frame may. -/
theorem deliverDataFrame_moves {skb : SkBuff} {s : Mlme}
    (h : ∀ msdu, decap skb = .single msdu → msdu.ethertype = ethPPae →
      s.state = .handshaking → EapolAllowed hw env P s msdu.payload)
    (hP : ∀ f ∈ skb.msdus s.state, P.hands f) :
    Moves hw P (view s) (view (deliverDataFrame hw env skb s)) := by
  rw [deliverDataFrame]
  rw [SkBuff.msdus] at hP
  split
  next => exact thenFree skb .refl
  next msdus hmsdus =>
    simp only [hmsdus] at hP
    have hall : ∀ (l : List (Nat × EthFrame)) (t : Mlme),
        (∀ f ∈ l.map Prod.snd, P.hands f) → Moves hw P (view t)
          (view (l.foldl (fun t m => deliverEthernet env m.1 m.2 t) t)) := by
      intro l
      induction l with
      | nil => exact fun _ _ => .refl
      | cons m l ih =>
          intro t hl
          have hm := hl m.2 List.mem_cons_self
          exact (deliverEthernet_moves hm m.1 t).trans
            (ih _ fun f hf => hl f (List.mem_cons_of_mem _ hf))
    exact thenFree skb (hall msdus s hP)
  next msdu hmsdu =>
    simp only [hmsdu] at hP
    split
    next heapol =>
      exact thenFree skb (handleEAPOL_moves heapol.2
        (h msdu hmsdu heapol.1 heapol.2))
    next heapol =>
      rw [if_neg heapol] at hP
      exact thenFree skb
        (deliverEthernet_moves (hP msdu List.mem_cons_self) 0 s)

/-- A received frame opens no reorder window. -/
private theorem rxReorderInput_none (tid : Fin 8) (skb : SkBuff) (sn : Nat)
    (rx : RxBa SkBuff) (i : Fin 8) (h : rx i = none) :
    (rxReorderInput tid skb sn rx).rxBa i = none := by
  rw [rxReorderInput]
  cases hr : rx tid with
  | none => exact h
  | some r =>
      simp only
      split
      · exact h
      · split
        · exact h
        · have hne : i ≠ tid := fun heq => by
            rw [heq, hr] at h
            cases h
          exact (Function.update_of_ne hne _ rx).trans h

/-- Nor does the flush. -/
private theorem rxReorderFlushStale_none (rx : RxBa SkBuff) (i : Fin 8)
    (h : rx i = none) : (rxReorderFlushStale rx).rxBa i = none := by
  have hturn : ∀ (acc : RxBa SkBuff × List SkBuff × Bool) (tid : Fin 8),
      acc.1 i = none → (flushTid acc tid).1 i = none := by
    rintro ⟨rx, out, again⟩ tid h
    rw [flushTid]
    cases hr : rx tid with
    | none => exact h
    | some r =>
        simp only
        split
        · exact h
        · have hne : i ≠ tid := fun heq => by
            have hr' : some r = none := hr.symm.trans (heq ▸ h)
            cases hr'
          exact (Function.update_of_ne hne _ rx).trans h
  have hfold : ∀ (l : List (Fin 8)) (acc : RxBa SkBuff × List SkBuff × Bool),
      acc.1 i = none → (l.foldl flushTid acc).1 i = none := by
    intro l
    induction l with
    | nil => exact fun _ h => h
    | cons tid l ih => exact fun acc h => ih _ (hturn acc tid h)
  exact hfold (List.finRange 8) (rx, [], false) h

/-- A frame that is not kept for reordering moves it no more than that. -/
theorem processRxData_moves {skb : SkBuff} {s : Mlme}
    (h : rxConnected s = true → reorderTid skb s = none →
      ∀ msdu, decap skb = .single msdu → msdu.ethertype = ethPPae →
      s.state = .handshaking → EapolAllowed hw env P s msdu.payload)
    (htakes : rxConnected s = true → (reorderTid skb s).isSome →
      P.takes skb)
    (hP : rxConnected s = true → reorderTid skb s = none →
      ∀ f ∈ skb.msdus s.state, P.hands f) :
    Moves hw P (view s) (view (processRxData hw env skb s).1) := by
  rw [processRxData]
  split
  · exact thenFree skb .refl
  next hconn =>
    have hconn : rxConnected s = true := by simpa using hconn
    split
    next tid htid =>
      simp only [view_kfreeAll]
      exact .one (.rxBa (view s) _
        (.inr (rxReorderInput_none tid skb _ s.rxBa)) fun Q htake hold =>
          (rxReorderInput_all hold (htake skb
            (htakes hconn (Option.isSome_of_eq_some htid))) tid _).1)
    next htid => exact deliverDataFrame_moves (h hconn htid) (hP hconn htid)

-- ================================================================ commands

theorem connectTo_moves {s : Mlme} {ssid : Option (List UInt8)}
    {password : List UInt8}
    (hP : ∀ n b, s.state = .idle → ssid = some n →
      findBss n s.bssList = some b → P.connect) :
    Moves hw P (view s) (view (connectTo ssid password s).2.2) := by
  unfold connectTo
  split
  · exact .refl
  next hidle =>
    have hidle : s.state = .idle := not_not.1 hidle
    split
    · exact .refl
    next n =>
      have hclear : Moves hw P (view s) (view (releaseSta (clearKeys s))) :=
        (clearKeys_moves hidle).trans (releaseSta_moves _)
      -- what the clearing leaves
      obtain ⟨hstate, hptk, hconf, hlist⟩ :
          (view (releaseSta (clearKeys s))).state = .idle
          ∧ (view (releaseSta (clearKeys s))).ptk = zeros 64
          ∧ (view (releaseSta (clearKeys s))).ptkConf = none
          ∧ (view (releaseSta (clearKeys s))).entries = s.bssList := by
        have hkeys := view_clearKeys s
        cases hsta : (clearKeys s).sta with
        | none =>
            rw [releaseSta_none hsta, hkeys]
            exact ⟨hidle, rfl, rfl, rfl⟩
        | some sta =>
            rw [view_releaseSta_some hsta, hkeys]
            exact ⟨hidle, rfl, rfl, rfl⟩
      simp only
      split
      next => exact hclear
      next target hfind =>
        have hfind' : findBss n s.bssList = some target := by
          rw [← hlist]
          exact hfind
        have hset : ∀ (p : List UInt8) (t : Mlme), view (setTarget target p t)
            = { view t with
                target := target, password := p
                wpa2 := target.cipher == cipherCcmp
                state := .authenticating } := fun _ _ => rfl
        rw [view_emit_on _ _ rfl, hset]
        refine hclear.tail (.connect _ target _ hstate hptk hconf ?_
          (hP n target hidle rfl hfind'))
        rw [hlist]
        exact List.mem_of_find?_eq_some hfind'

theorem cmdPowerOn_moves (s : Mlme) :
    Moves hw P (view s) (view (cmdPowerOn env s).2) := by
  have hon := @Moves.none hw P _ _ (@view_powerOn env s)
  rw [cmdPowerOn]
  split
  · exact hon.trans (fallIdle_moves _)
  · exact hon

/-- A stretch of `doAuthenticate`, of which the last writes the state. -/
theorem doAuthenticate_moves {pc : AuthPc} (hP : pc = .finish → P.authWrite)
    (scanning : Bool) (s : Mlme) :
    Moves hw P (view s) (view (doAuthenticate hw env scanning pc s).2) := by
  cases pc with
  | entry =>
      simp only [doAuthenticate]
      split <;> exact .refl
  | waitScan i =>
      simp only [doAuthenticate]
      split <;> exact .refl
  | settle =>
      simp only [doAuthenticate]
      split
      · exact .refl
      · rw [view_connectSetup]
        exact .one (.bssDown _)
  | transmit => exact .none (view_txMgmtFrame _ _)
  | finish => exact .one (.authWrite (view s) (hP rfl))

theorem onTimer_moves {s : Mlme} (hret : s.scanReturnState = .idle) :
    Moves hw P (view s) (view (onTimer hw env s).2) := by
  have hstart := @Moves.none hw P _ _ (view_abortScanStart s)
  rw [onTimer]
  split
  next =>
    split
    · exact hstart
    · have hret' : (abortScanStart s).scanReturnState = .idle :=
        (congrArg Link.ret (view_abortScanStart s)).trans hret
      simp only [hret', if_neg (show ¬ RTW88State.idle = .connected by decide)]
      rw [view_leaveScanning]
      exact hstart.tail (.idle _ _ (.inl rfl))
  next => exact .refl
  next => exact fallIdle_moves s
  next => exact doDisconnect_moves s
  next => exact .refl

-- ============================================================== the system

/-- No scan was started from a link, and no waiting command saw one. -/
structure NoLinkScan (s : Sys) : Prop where
  ret : s.mlme.scanReturnState = .idle
  waiters : ∀ w ∈ s.waiters, w.returnState = .idle

/-- What the allowance says about the EAPOL body of an event. -/
theorem Allowed.eapol {s : Sys} {e : Event} {data : List UInt8}
    (ha : Allowed hw P s e) (h : s.eapol e = some (env, data)) :
    EapolAllowed hw env P s.mlme data where
  zero hz hver := ha.zeroKey ⟨(env, data), h, hz, hver⟩
  fresh hused hver := ha.reuseTk ⟨(env, data), h, hused, hver⟩

/-- The EAPOL body of an event that delivers one. -/
theorem Sys.eapol_of_delivers {s : Sys} {e : Event} {skb : SkBuff}
    {msdu : EthFrame} (h : s.delivers e = some (env, skb))
    (hmsdu : decap skb = .single msdu) (htype : msdu.ethertype = ethPPae)
    (hstate : s.mlme.state = .handshaking) :
    s.eapol e = some (env, msdu.payload) := by
  simp only [Sys.eapol, h, hmsdu, htype, hstate, and_self, if_true]

/-- The connect command, with its thread. -/
theorem runConnect_moves {s : Sys} {ssid : Option (List UInt8)}
    {password : List UInt8}
    (hP : ∀ n b, s.mlme.state = .idle → ssid = some n →
      findBss n s.mlme.bssList = some b → P.connect) :
    Moves hw P (view s.mlme) (view (runConnect ssid password s).mlme) := by
  have h := @connectTo_moves hw _ _ _ password hP
  simp only [runConnect]
  split <;> exact h

/-- The list a command finds behind `abortActiveScan` is the old one. -/
private theorem abortScanFinish_bssList (s : Mlme) :
    (abortScanFinish hw .idle s).2.bssList = s.bssList := by
  rw [abortScanFinish]
  split
  · rfl
  · split <;> rfl

/-- A command that waited goes on. -/
private theorem resumeWait_moves {s : Sys} {i : Nat} (h : NoLinkScan s)
    (ha : Allowed hw P s (.resume i env)) :
    Moves hw P (view s.mlme) (view (resumeWait hw i env s).mlme) := by
  rw [resumeWait]
  cases hw' : s.waiters[i]? with
  | none => exact .refl
  | some w =>
      have hidle : w.returnState = .idle :=
        h.waiters w (List.mem_of_getElem? hw')
      simp only
      split
      · exact .refl
      next hturn =>
        have habort := @abortScanFinish_moves hw P s.mlme
        obtain ⟨cmd, ret, turn⟩ := w
        obtain rfl : ret = .idle := hidle
        cases cmd with
        | powerOff => exact habort.trans (finishPowerOff_moves _)
        | connect ssid password =>
            simp only [runWaiter]
            split
            next hok =>
              refine habort.trans (runConnect_moves (s := { s with
                  mlme := (abortScanFinish hw .idle s.mlme).2
                  waiters := s.waiters.eraseIdx i })
                fun n b hst hssid hfind => ha.connect ⟨n, ?_, ?_⟩)
              · have hst' : (abortScanFinish hw .idle s.mlme).2.state
                    = .idle := hst
                simp only [Sys.looksUp, hw', hst', hok]
                rw [if_neg (by simpa using hturn)]
                exact hssid
              · rw [← @abortScanFinish_bssList hw]
                exact Option.isSome_of_eq_some hfind
            next => exact habort

/-- One event is a chain of moves. -/
theorem sysStep_moves {s : Sys} {e : Event} (h : NoLinkScan s)
    (ha : Allowed hw P s e) :
    Moves hw P (view s.mlme) (view (sysStep hw s e).mlme) := by
  cases e with
  | cmdScan env => exact cmdScan_moves (ha.scan rfl) s.mlme
  | cmdConnect ssid password =>
      simp only [sysStep]
      split
      · exact .none (view_abortScanStart s.mlme)
      · refine runConnect_moves fun n b hst hssid hfind =>
          ha.connect ⟨n, ?_, Option.isSome_of_eq_some hfind⟩
        simp only [Sys.looksUp, hst, if_true, hssid, Option.mem_def]
  | cmdDisconnect env =>
      simp only [sysStep, cmdDisconnect]
      split
      · exact .refl
      · exact doDisconnect_moves s.mlme
  | cmdPowerOn env => exact cmdPowerOn_moves s.mlme
  | cmdPowerOff env =>
      simp only [sysStep]
      split
      · exact .none (view_abortScanStart s.mlme)
      · exact finishPowerOff_moves s.mlme
  | resume i env => exact resumeWait_moves h ha
  | powerOn env => exact .none (view_powerOn s.mlme)
  | powerOff => exact .none (view_powerOff s.mlme)
  | rx env skb =>
      have hview : ∀ (p : Option Pending) (t : Sys),
          (addPending p t).mlme = t.mlme := by
        intro p t
        cases p <;> rfl
      simp only [sysStep, hview, rxFrame]
      split
      next hmgmt =>
        exact processRxMgmt_moves fun hstype hstate hok =>
          ha.assoc ⟨(env, skb), if_pos hmgmt, hstype, hstate, hok⟩
      next hmgmt =>
        split
        next hdata =>
          have hdelivers : rxConnected s.mlme = true →
              reorderTid skb s.mlme = none →
              s.delivers (.rx env skb) = some (env, skb) := by
            intro hconn htid
            simp [Sys.delivers, hmgmt, hdata, hconn, htid]
          refine processRxData_moves
            (fun hconn htid msdu hmsdu htype hst => ha.eapol
              (Sys.eapol_of_delivers (hdelivers hconn htid) hmsdu htype hst))
            (fun hconn htid => ha.takes skb ?_)
            (fun hconn htid => ?_)
          · simp [Sys.takes, hmgmt, hdata, hconn, htid]
          · have hP := ha.hands
            simp only [Sys.hands, hdelivers hconn htid] at hP
            exact hP
        next => exact .none (view_kfreeSkb skb s.mlme)
  | deliver i env =>
      simp only [sysStep, deliverNext]
      cases hp : s.pending[i]? with
      | none => exact .refl
      | some p =>
          obtain ⟨out, needTimer⟩ := p
          cases out with
          | nil =>
              simp only
              split <;> exact .refl
          | cons skb rest =>
              have hdelivers : s.delivers (.deliver i env)
                  = some (env, skb) := by
                simp [Sys.delivers, hp]
              have hP := ha.hands
              simp only [Sys.hands, hdelivers] at hP
              exact deliverDataFrame_moves (fun msdu hmsdu htype hst =>
                ha.eapol (Sys.eapol_of_delivers hdelivers hmsdu htype hst)) hP
  | scanDone aborted => exact scanDone_moves h.ret aborted
  | timer env =>
      have hfire := @onTimer_moves hw env P
        s.mlme.cancelTimer h.ret
      simp only [sysStep, fireTimer]
      split
      · exact .refl
      · split <;> exact hfire
  | reorderTimer =>
      simp only [sysStep, fireReorderTimer]
      split
      · exact .refl
      · exact .one (.rxBa (view s.mlme) _
          (.inr (rxReorderFlushStale_none s.mlme.rxBa))
          fun Q _ hold => (rxReorderFlushStale_all hold).1)
  | output env m =>
      exact outputPacket_moves h.ret
        (fun hp hend => ha.pnWrap ⟨(env, m), rfl, hp, hend⟩)
        (fun hp hzero hlen hcopy =>
          ha.lostPn ⟨(env, m), rfl, hp, hzero, hlen, hcopy⟩)
  | auth i env scanning =>
      simp only [sysStep, stepAuth]
      cases ht : s.auths[i]? with
      | none => exact .refl
      | some t =>
          refine doAuthenticate_moves (fun hpc => ha.authWrite ?_) scanning
            s.mlme
          simp [Sys.finishing, ht, hpc]
  | scan i env =>
      simp only [sysStep, stepScan]
      cases s.scans[i]? with
      | none => exact .refl
      | some pc => exact runManualScan_moves h.ret pc
  | stop env => exact stop_moves (ha.stop rfl) s.mlme

-- ==================================================================== runs

/-- No move brings a scan out of a link about. -/
theorem Move.ret_idle {v w : Link} (h : Move hw P v w)
    (hret : v.ret = .idle) : w.ret = .idle := by
  cases h with
  | idle r hr =>
      rcases hr with hr | hr
      · exact hr
      · exact hr.trans hret
  | scanning => rfl
  | _ => exact hret

/-- An invariant of the moves is one of their chains. -/
theorem Moves.inv {I : Link → Prop}
    (hmove : ∀ {v w}, Move hw P v w → I v → I w) {v w : Link}
    (h : Moves hw P v w) (hv : I v) : I w := by
  induction h with
  | refl => exact hv
  | tail _ hmv ih => exact hmove hmv ih

/-- Only the two commands that wait add a waiter, and a turn keeps what
it saw. -/
private theorem sysStep_waiters {s : Sys} {e : Event} {w : Waiter}
    (hw' : w ∈ (sysStep hw s e).waiters) :
    (∃ w' ∈ s.waiters, w.returnState = w'.returnState)
      ∨ w.returnState = s.mlme.scanReturnState := by
  have hkeep : ∀ w ∈ s.waiters, (∃ w' ∈ s.waiters,
      w.returnState = w'.returnState)
        ∨ w.returnState = s.mlme.scanReturnState :=
    fun w hw => .inl ⟨w, hw, rfl⟩
  have hstart : ∀ cmd, w ∈ (startWait cmd s).waiters →
      (∃ w' ∈ s.waiters, w.returnState = w'.returnState)
        ∨ w.returnState = s.mlme.scanReturnState := by
    intro cmd hmem
    rcases List.mem_append.1 hmem with hmem | hmem
    · exact hkeep w hmem
    · obtain rfl := List.mem_singleton.1 hmem
      exact .inr rfl
  have hconnect : ∀ (ssid : Option (List UInt8)) (password : List UInt8)
      (t : Sys), (runConnect ssid password t).waiters = t.waiters := by
    intro ssid password t
    simp only [runConnect]
    split <;> rfl
  cases e with
  | cmdConnect ssid password =>
      simp only [sysStep] at hw'
      split at hw'
      · exact hstart _ hw'
      · rw [hconnect] at hw'
        exact hkeep w hw'
  | cmdPowerOff env =>
      simp only [sysStep] at hw'
      split at hw'
      · exact hstart _ hw'
      · exact hkeep w hw'
  | resume i env =>
      simp only [sysStep, resumeWait] at hw'
      cases hi : s.waiters[i]? with
      | none =>
          rw [hi] at hw'
          exact hkeep w hw'
      | some u =>
          simp only [hi] at hw'
          split at hw'
          · rcases List.mem_or_eq_of_mem_set hw' with hmem | rfl
            · exact hkeep w hmem
            · exact .inl ⟨u, List.mem_of_getElem? hi, rfl⟩
          · refine hkeep w (List.mem_of_mem_eraseIdx (i := i) ?_)
            obtain ⟨cmd, ret, turn⟩ := u
            cases cmd with
            | powerOff => exact hw'
            | connect ssid password =>
                simp only [runWaiter] at hw'
                split at hw'
                · rw [hconnect] at hw'
                  exact hw'
                · exact hw'
  | rx env skb =>
      have hfile : ∀ (p : Option Pending) (t : Sys),
          (addPending p t).waiters = t.waiters := by
        intro p t
        cases p <;> rfl
      simp only [sysStep, hfile] at hw'
      exact hkeep w hw'
  | deliver i env =>
      simp only [sysStep, deliverNext] at hw'
      split at hw'
      · exact hkeep w hw'
      · split at hw' <;> exact hkeep w hw'
  | timer env =>
      simp only [sysStep, fireTimer] at hw'
      split at hw'
      · exact hkeep w hw'
      · split at hw' <;> exact hkeep w hw'
  | reorderTimer =>
      simp only [sysStep, fireReorderTimer] at hw'
      split at hw' <;> exact hkeep w hw'
  | auth i env scanning =>
      simp only [sysStep, stepAuth] at hw'
      split at hw' <;> exact hkeep w hw'
  | scan i env =>
      simp only [sysStep, stepScan] at hw'
      split at hw' <;> exact hkeep w hw'
  | _ => exact hkeep w hw'

/-- No step leaves a scan to return to a link from. -/
theorem sysStep_noLinkScan {s : Sys} (h : NoLinkScan s) (e : Event) :
    NoLinkScan (sysStep hw s e) where
  ret := (sysStep_moves h (Allowed.all hw s e)).inv
    (I := fun v => v.ret = .idle) Move.ret_idle h.ret
  waiters w hw' := by
    rcases sysStep_waiters hw' with ⟨w', hmem, heq⟩ | heq
    · exact heq.trans (h.waiters w' hmem)
    · exact heq.trans h.ret

/-- At the start there is no such scan. -/
theorem NoLinkScan.init (powered : Bool) : NoLinkScan (Sys.init powered) :=
  ⟨rfl, fun _ h => by cases h⟩

/-- It holds in every state reached. -/
theorem sysRun_noLinkScan (powered : Bool) (es : List Event) :
    NoLinkScan (sysRun hw powered es) :=
  runFrom_inv (I := NoLinkScan)
    (fun _ e h => sysStep_noLinkScan h e) (NoLinkScan.init powered) es

/-- An invariant of the moves is an invariant of every event within the
allowance. -/
theorem sysStep_inv {I : Link → Prop}
    (hmove : ∀ {v w}, Move hw P v w → I v → I w) {s : Sys} {e : Event}
    (h : NoLinkScan s ∧ I (view s.mlme)) (ha : Allowed hw P s e) :
    NoLinkScan (sysStep hw s e) ∧ I (view (sysStep hw s e).mlme) :=
  ⟨sysStep_noLinkScan h.1 e, (sysStep_moves h.1 ha).inv hmove h.2⟩

/-- And so of every run. -/
theorem sysRun_inv {I : Link → Prop}
    (hmove : ∀ {v w}, Move hw P v w → I v → I w) {powered : Bool}
    (hinit : I (view (Mlme.init powered))) {es : List Event}
    (ha : Along (sysStep hw) (Allowed hw P) (Sys.init powered) es) :
    NoLinkScan (sysRun hw powered es)
      ∧ I (view (sysRun hw powered es).mlme) :=
  inv_of_along (I := fun s => NoLinkScan s ∧ I (view s.mlme))
    (fun _ _ h ha => sysStep_inv hmove h ha)
    ⟨NoLinkScan.init powered, hinit⟩ ha

end Rtw88
