/-
Custody of received frames: every frame handed to `rxFrame` is released
once, or it is still in a window or in a list that is being delivered.

The bookkeeping is that of Proofs/Ledger.lean, taken to the events of the
system. It asks nothing of the state, so it holds in every run.

# The lists in delivery

An input or a flush lets go of several frames, and they are delivered
one at a time with other events in between. Until its turn comes a frame
is on a pending list, which is part of the system and not of the object
(`pendingOut`, `deliverNext_books`): the books of the object say that it
left the windows, and those of the system that it is still there.

# Power

The account of a piece says that the power stays, as the results about
the power need it. Events that switch the power are taken apart
(`SameFrames`, `KeepsFrames`): they touch no frame, or release those of
the windows with the link they end. `sysStep_conserves` joins the two
kinds, and the run adds them up.
-/
import Mathlib.Data.List.Induction
import Rtw88.Proofs.Ledger

namespace Rtw88

variable {hw : Hw} {env : Env}

-- ================================================================== one frame

/-- The frames a reorder operation let go, if there was one. -/
def pendingOut (p : Option Pending) : List SkBuff :=
  match p with
  | some p => p.out
  | none => []

/-- A frame handed to `rxFrame` is released, or it is in a window, or it
is let go to be delivered; and so is every frame that was in a window. -/
theorem rxFrame_accounts (skb : SkBuff) (s : Mlme) :
    (rxFrame hw env skb s).1.powered = s.powered
      ∧ (rxFrame hw env skb s).1.up = s.up
      ∧ Grows (fun o => o.isPower = false) s (rxFrame hw env skb s).1
      ∧ (freedSkbs (rxFrame hw env skb s).1.log
        ++ ((rxFrame hw env skb s).1.rxBa.held
          ++ pendingOut (rxFrame hw env skb s).2)).Perm
        (skb :: (freedSkbs s.log ++ s.rxBa.held)) := by
  have hone : ∀ t : Mlme, Accounts [skb] s t →
      t.powered = s.powered ∧ t.up = s.up
        ∧ Grows (fun o => o.isPower = false) s t
        ∧ (freedSkbs t.log ++ (t.rxBa.held ++ pendingOut none)).Perm
          (skb :: (freedSkbs s.log ++ s.rxBa.held)) := by
    intro t h
    rw [pendingOut, List.append_nil]
    exact h
  simp only [rxFrame]
  split
  · exact hone _ (processRxMgmt_accounts skb s)
  · split
    · rw [processRxData]
      split
      · exact hone _ (kfreeSkb_accounts skb s)
      · split
        next tid _ =>
          -- the windows take it, and let others go
          have hbal := rxReorderInput_balance tid skb
            ((seqCtrl skb.mem &&& 0xFFF0) >>> 4).toNat s.rxBa
          simp only
          generalize rxReorderInput tid skb
            ((seqCtrl skb.mem &&& 0xFFF0) >>> 4).toNat s.rxBa = o at hbal ⊢
          obtain ⟨new, heq, hnew, hfreed⟩ :=
            kfreeAll_log o.freed { s with rxBa := o.rxBa }
          rw [heq]
          refine ⟨rfl, rfl, ⟨new, rfl, hnew⟩, ?_⟩
          simp only [freedSkbs_append, pendingOut]
          rw [List.perm_iff_count] at hbal hfreed ⊢
          intro x
          have h1 := hbal x
          have h2 := hfreed x
          simp only [List.count_append, List.count_cons] at h1 h2 ⊢
          omega
        next => exact hone _ (deliverDataFrame_accounts skb s)
    · exact hone _ (kfreeSkb_accounts skb s)

-- ==================================================================== events

/-- The event switches the power: a power command, at once or after its
wait, an interface that is brought up or down, or `stop`. -/
def Sys.switches (s : Sys) : Event → Bool
  | .cmdPowerOn _ | .cmdPowerOff _ | .powerOn _ | .powerOff | .stop _ => true
  | .resume i _ =>
      match s.waiters[i]? with
      | some w => w.cmd == .powerOff
      | none => false
  | _ => false

/-- The frames `skbs` are taken over, and no frame of the object is
lost. -/
def Conserves (skbs : List SkBuff) (s t : Sys) : Prop :=
  (freedSkbs t.mlme.log ++ t.kept).Perm
    (skbs ++ (freedSkbs s.mlme.log ++ s.kept))

/-- The books of an event that does not switch the power. -/
structure Books (skbs : List SkBuff) (s t : Sys) : Prop where
  conserves : Conserves skbs s t
  powered : t.mlme.powered = s.mlme.powered
  up : t.mlme.up = s.mlme.up
  grows : Grows (fun o => o.isPower = false) s.mlme t.mlme

/-- What is let go is what it was: the object's own books are enough. -/
theorem Accounts.conserves {skbs : List SkBuff} {s t : Sys}
    (h : Accounts skbs s.mlme t.mlme) (hpending : t.pending = s.pending) :
    Conserves skbs s t := by
  have hperm := h.2.2.2
  rw [Conserves, Sys.kept, Sys.kept, hpending, ← List.append_assoc]
  exact (hperm.append_right _).trans (by simp only [List.append_assoc,
    List.Perm.refl])

theorem Accounts.books {skbs : List SkBuff} {s t : Sys}
    (h : Accounts skbs s.mlme t.mlme) (hpending : t.pending = s.pending) :
    Books skbs s t :=
  ⟨h.conserves hpending, h.1, h.2.1, h.2.2.1⟩

/-- A `cmdConnect` from where no scan is in its way. -/
private theorem runConnect_accounts (ssid : Option (List UInt8))
    (password : List UInt8) (s : Sys) :
    Accounts [] s.mlme (runConnect ssid password s).mlme
      ∧ (runConnect ssid password s).pending = s.pending := by
  have h := connectTo_accounts ssid password s.mlme
  simp only [runConnect]
  split <;> exact ⟨h, rfl⟩

/-- A frame that was let go is delivered, and released. -/
private theorem deliverNext_books (i : Nat) (s : Sys) :
    Books [] s (deliverNext hw i env s) := by
  simp only [deliverNext]
  split
  next => exact (Plain.refl s.mlme).accounts.books rfl
  next p hp =>
    have hsplit : ∀ p', (s.pending.set i p').flatMap (·.out)
        = (s.pending.take i).flatMap (·.out) ++ (p'.out
          ++ (s.pending.drop (i + 1)).flatMap (·.out)) := by
      intro p'
      obtain ⟨hi, -⟩ := List.getElem?_eq_some_iff.1 hp
      rw [List.set_eq_take_append_cons_drop, if_pos hi]
      simp
    have hself : s.pending.flatMap (·.out)
        = (s.pending.take i).flatMap (·.out) ++ (p.out
          ++ (s.pending.drop (i + 1)).flatMap (·.out)) := by
      rw [← hsplit p]
      obtain ⟨hi, hpi⟩ := List.getElem?_eq_some_iff.1 hp
      rw [← hpi, List.set_getElem_self]
    cases hout : p.out with
    | nil =>
        simp only
        have harm : Plain s.mlme (if p.needTimer
            then s.mlme.setReorderTimer true else s.mlme) := by
          split <;> exact .refl s.mlme
        have herase : (s.pending.eraseIdx i).flatMap (·.out)
            = s.pending.flatMap (·.out) := by
          rw [hself, hout, List.eraseIdx_eq_take_drop_succ]
          simp
        refine ⟨?_, harm.accounts.1, harm.accounts.2.1, harm.accounts.2.2.1⟩
        have hperm := harm.accounts.2.2.2
        simp only [Conserves, Sys.kept, herase, ← List.append_assoc]
        exact hperm.append_right _
    | cons skb rest =>
        have hacc := @deliverDataFrame_accounts hw env skb s.mlme
        refine ⟨?_, hacc.1, hacc.2.1, hacc.2.2.1⟩
        have hperm := hacc.2.2.2
        simp only [Conserves, Sys.kept, hsplit, hself, hout]
        rw [List.perm_iff_count] at hperm ⊢
        intro x
        have h1 := hperm x
        simp only [List.count_append, List.count_cons] at h1 ⊢
        omega

/-- The end of a wait, but for the command behind it. -/
private theorem resumeWait_books {i : Nat} {s : Sys}
    (h : s.switches (.resume i env) = false) :
    Books [] s (resumeWait hw i env s) := by
  simp only [resumeWait]
  split
  next => exact (Plain.refl s.mlme).accounts.books rfl
  next w hw' =>
    have hcmd : w.cmd ≠ .powerOff := by
      intro heq
      rw [Sys.switches, hw'] at h
      simp [heq] at h
    split
    · refine Accounts.books (Plain.refl s.mlme).accounts rfl
    · have hfinish := @abortScanFinish_plain hw w.returnState s.mlme
      generalize abortScanFinish hw w.returnState s.mlme = r at hfinish ⊢
      cases hc : w.cmd with
      | powerOff => exact absurd hc hcmd
      | connect ssid password =>
          simp only [runWaiter]
          split
          · obtain ⟨hacc, hpending⟩ := runConnect_accounts ssid password
              { s with mlme := r.2, waiters := s.waiters.eraseIdx i }
            exact (hacc.after hfinish).books hpending
          · exact hfinish.accounts.books rfl

/-- An event that does not switch the power. -/
theorem sysStep_books {s : Sys} {e : Event} (h : s.switches e = false) :
    Books (received [e]) s (sysStep hw s e) := by
  have hsame : Books [] s s := (Plain.refl s.mlme).accounts.books rfl
  cases e with
  | cmdScan env => exact (cmdScan_steady s.mlme).accounts.books rfl
  | cmdConnect ssid password =>
      simp only [sysStep]
      split
      · exact (abortScanStart_steady s.mlme).accounts.books rfl
      · obtain ⟨hacc, hpending⟩ := runConnect_accounts ssid password s
        exact hacc.books hpending
  | cmdDisconnect env => exact (cmdDisconnect_accounts s.mlme).books rfl
  | resume i env => exact resumeWait_books h
  | rx env skb =>
      obtain ⟨hp, hup, hgrows, hperm⟩ := @rxFrame_accounts hw env skb s.mlme
      simp only [sysStep]
      generalize rxFrame hw env skb s.mlme = r at hp hup hgrows hperm ⊢
      have hmlme : (addPending r.2 { s with mlme := r.1 }).mlme = r.1 := by
        cases hr : r.2 <;> rfl
      have hpending : (addPending r.2 { s with mlme := r.1 }).pending.flatMap
          (·.out) = s.pending.flatMap (·.out) ++ pendingOut r.2 := by
        cases hr : r.2 <;> simp [addPending, pendingOut]
      generalize addPending r.2 { s with mlme := r.1 } = t at hmlme hpending ⊢
      rw [← hmlme] at hp hup hgrows hperm
      refine ⟨?_, hp, hup, hgrows⟩
      simp only [Conserves, Sys.kept, hpending, received,
        List.filterMap_cons, List.filterMap_nil]
      rw [List.perm_iff_count] at hperm ⊢
      intro x
      have h1 := hperm x
      simp only [List.count_append, List.count_cons, List.count_nil]
        at h1 ⊢
      omega
  | deliver i env => exact deliverNext_books i s
  | scanDone aborted => exact (scanDone_steady aborted s.mlme).accounts.books rfl
  | timer env =>
      have hcancel : Plain s.mlme s.mlme.cancelTimer := .refl s.mlme
      have hacc := (@onTimer_accounts hw env s.mlme.cancelTimer).after hcancel
      simp only [sysStep, fireTimer]
      split
      · exact hsame
      · split
        · exact hacc.books rfl
        · exact hacc.books rfl
  | reorderTimer =>
      have hbal := rxReorderFlushStale_balance s.mlme.rxBa
      simp only [sysStep, fireReorderTimer]
      split
      · exact hsame
      · generalize rxReorderFlushStale s.mlme.rxBa = o at hbal ⊢
        refine ⟨?_, rfl, rfl, ⟨[], rfl, fun _ ho => (by cases ho)⟩⟩
        rw [List.perm_iff_count] at hbal
        refine List.perm_iff_count.2 fun x => ?_
        have h1 := hbal x
        simp only [Sys.kept, List.count_append, List.flatMap_append,
          List.flatMap_cons, List.flatMap_nil, List.count_nil,
          received, List.filterMap_cons, List.filterMap_nil] at h1 ⊢
        show List.count x (freedSkbs s.mlme.log) + _ = _
        omega
  | output env m => exact (outputPacket_steady m s.mlme).accounts.books rfl
  | auth i env scanning =>
      simp only [sysStep, stepAuth]
      split
      · exact hsame
      · exact (doAuthenticate_steady scanning _ s.mlme).accounts.books rfl
  | scan i env =>
      simp only [sysStep, stepScan]
      split
      · exact hsame
      · exact (runManualScan_steady _ s.mlme).accounts.books rfl
  | _ => cases h

-- ================================================================ power events

/-- The frames of the object after a piece that switches the power. -/
private def SameFrames (s t : Mlme) : Prop :=
  freedSkbs t.log = freedSkbs s.log ∧ t.rxBa = s.rxBa

private theorem powerOff_sameFrames (s : Mlme) :
    SameFrames s (powerOff s) := by
  rw [powerOff]
  split
  · exact ⟨rfl, rfl⟩
  · split <;> exact ⟨rfl, rfl⟩

private theorem powerOn_sameFrames (s : Mlme) :
    SameFrames s (powerOn env s).2 := by
  rw [powerOn]
  split
  · exact ⟨rfl, rfl⟩
  · split
    · exact ⟨rfl, rfl⟩
    · simp only
      split <;> exact ⟨rfl, rfl⟩

private theorem cmdPowerOn_sameFrames (s : Mlme) :
    SameFrames s (cmdPowerOn env s).2 := by
  simp only [cmdPowerOn]
  split
  · exact powerOn_sameFrames s
  · exact powerOn_sameFrames s

/-- The books of the object, without its power. -/
private def KeepsFrames (s t : Mlme) : Prop :=
  (freedSkbs t.log ++ t.rxBa.held).Perm (freedSkbs s.log ++ s.rxBa.held)

private theorem SameFrames.keeps {s t : Mlme} (h : SameFrames s t) :
    KeepsFrames s t := by
  rw [KeepsFrames, h.1, h.2]

private theorem finishPowerOff_keepsFrames (s : Mlme) :
    KeepsFrames s (finishPowerOff hw env s) := by
  have hleave : Accounts [] s (if s.state = .connected
      ∨ s.state = .authenticating ∨ s.state = .associating
      ∨ s.state = .handshaking then doDisconnect hw env s
      else releaseSta (clearKeys s)) := by
    split
    · exact doDisconnect_accounts s
    · exact releaseAll_accounts s
  simp only [finishPowerOff]
  generalize (if s.state = .connected ∨ s.state = .authenticating
    ∨ s.state = .associating ∨ s.state = .handshaking
    then doDisconnect hw env s else releaseSta (clearKeys s)) = t at hleave ⊢
  have hoff : SameFrames t
      ((powerOff t).setIdle.emit (.setLinkStatus false)) :=
    powerOff_sameFrames t
  exact hoff.keeps.trans hleave.2.2.2

private theorem stop_keepsFrames (s : Mlme) :
    KeepsFrames s (stop hw env s) := by
  have hcancel : Plain s s.cancelTimer := .refl s
  have hleave : Accounts [] s (if (s.cancelTimer.state = .connected
        ∨ (s.cancelTimer.state = .scanning
          ∧ s.cancelTimer.scanReturnState = .connected))
      ∧ s.cancelTimer.powered
      then doDisconnect hw env s.cancelTimer
      else releaseSta (clearKeys s.cancelTimer)) := by
    split
    · exact (doDisconnect_accounts _).after hcancel
    · exact (releaseAll_accounts _).after hcancel
  simp only [stop]
  generalize (if (s.cancelTimer.state = .connected
      ∨ (s.cancelTimer.state = .scanning
        ∧ s.cancelTimer.scanReturnState = .connected))
    ∧ s.cancelTimer.powered
    then doDisconnect hw env s.cancelTimer
    else releaseSta (clearKeys s.cancelTimer)) = t at hleave ⊢
  have hoff : SameFrames t (setDown (if !t.up then t
      else (if t.powered then setPowered false (t.emit .hwStop)
        else t).emit .removeInterface).setIdle) := by
    split
    · exact ⟨rfl, rfl⟩
    · split <;> exact ⟨rfl, rfl⟩
  exact hoff.keeps.trans hleave.2.2.2

/-- No event loses or doubles a frame. -/
theorem sysStep_conserves (s : Sys) (e : Event) :
    Conserves (received [e]) s (sysStep hw s e) := by
  have hone : ∀ t : Sys, KeepsFrames s.mlme t.mlme → t.pending = s.pending →
      Conserves [] s t := by
    intro t h hpending
    rw [Conserves, Sys.kept, Sys.kept, hpending, ← List.append_assoc]
    exact (h.append_right _).trans (by simp only [List.append_assoc,
      List.nil_append, List.Perm.refl])
  cases hsw : s.switches e with
  | false => exact (sysStep_books hsw).conserves
  | true =>
      cases e with
      | cmdPowerOn env => exact hone _ (cmdPowerOn_sameFrames s.mlme).keeps rfl
      | cmdPowerOff env =>
          simp only [sysStep]
          split
          · exact hone _ (abortScanStart_steady s.mlme).accounts.2.2.2 rfl
          · exact hone _ (finishPowerOff_keepsFrames s.mlme) rfl
      | powerOn env => exact hone _ (powerOn_sameFrames s.mlme).keeps rfl
      | powerOff => exact hone _ (powerOff_sameFrames s.mlme).keeps rfl
      | stop env => exact hone _ (stop_keepsFrames s.mlme) rfl
      | resume i env =>
          simp only [sysStep, resumeWait]
          split
          next => exact hone _ (List.Perm.refl _) rfl
          next w hget =>
            have hcmd : w.cmd = .powerOff := by
              rw [Sys.switches, hget] at hsw
              exact beq_iff_eq.1 hsw
            split
            · exact hone _ (List.Perm.refl _) rfl
            · have hfinish :=
                (@abortScanFinish_plain hw w.returnState s.mlme).accounts.2.2.2
              simp only [hcmd, runWaiter]
              exact hone _ ((finishPowerOff_keepsFrames _).trans hfinish) rfl
      | _ => cases hsw

theorem Conserves.trans {as bs : List SkBuff} {s t u : Sys}
    (h : Conserves as s t) (h' : Conserves bs t u) :
    Conserves (as ++ bs) s u := by
  rw [Conserves] at h h' ⊢
  exact h'.trans ((h.append_left bs).trans
    (by rw [← List.append_assoc]; exact List.perm_append_comm.append_right _))

/-- No stretch of a run does. -/
theorem runFrom_conserves (s : Sys) (es : List Event) :
    Conserves (received es) s (runFrom (sysStep hw) s es) := by
  induction es using List.reverseRecOn with
  | nil => exact List.Perm.refl _
  | append_singleton es e ih =>
      rw [runFrom_append, show received (es ++ [e])
        = received es ++ received [e] from List.filterMap_append]
      exact ih.trans (sysStep_conserves _ e)

/-- In every run: the frames received are those released and those the
object still has, each as often. -/
theorem sysRun_conserves (powered : Bool) (es : List Event) :
    (freedSkbs (sysRun hw powered es).mlme.log
      ++ (sysRun hw powered es).kept).Perm (received es) := by
  have h := @runFrom_conserves hw (Sys.init powered) es
  rw [Conserves, show freedSkbs (Sys.init powered).mlme.log
    ++ (Sys.init powered).kept = [] from rfl, List.append_nil] at h
  exact h

end Rtw88
