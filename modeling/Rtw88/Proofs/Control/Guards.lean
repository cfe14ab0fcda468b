/-
What the source has checked when an event acts on the control side
(`Sys.act_guard`), and what an event does to the activations of
`doAuthenticate` (`sysStep_authStep`).

`sysStep_ctl` says which action an event is; an invariant about the
control side also needs that the action was allowed there. Each guard is
read off the tests the source makes before it acts: there is a station
where aggregation is asked for, the scan list has the target where
`cmdConnect` goes on, the state is the one the response answers.

The activations of the connect thread are a list of program counters.
`AuthStep` lists what an event can do to it: nothing; one more at the
entry, for a `cmdConnect` that connects or for a timeout with retries
left; one that goes on; one that ends, with the final write of `_state`
or without.
-/
import Rtw88.Proofs.Control.Step

namespace Rtw88

variable {hw : Hw} {env : Env}

-- ================================================================== guards

/-- Nothing is asked for without a station. -/
theorem asks_sta {s : Mlme} (h : (asks env s).isSome = true) :
    s.sta.isSome = true := by
  unfold asks at h
  split at h
  · cases h
  · split at h
    next => cases h
    next sta hsta => rw [hsta]; rfl

private theorem addSta_sta {aid : UInt16} {s : Mlme}
    (h : (addSta hw env aid s).sta.isSome = true) :
    (s.sta.isSome || env.staAlloc) = true := by
  have hctl := congrArg Ctl.hasSta (@ctl_addSta hw env aid s)
  exact hctl.symm.trans h

/-- A `cmdConnect` whose act is to connect finds its target. -/
theorem connectAct_connect {ssid : Option (List UInt8)} {s : Mlme}
    (h : connectAct ssid s = .connect) :
    s.state = .idle ∧ ∃ n, ssid = some n ∧ (findBss n s.bssList).isSome := by
  unfold connectAct at h
  split at h
  · cases h
  next hidle =>
    split at h
    · cases h
    next n =>
      split at h
      next hfind => exact ⟨not_not.1 hidle, n, rfl, hfind⟩
      next => cases h

private theorem connectAct_release {ssid : Option (List UInt8)} {s : Mlme}
    (h : connectAct ssid s = .release) : s.state = .idle := by
  unfold connectAct at h
  split at h
  · cases h
  next hidle => exact not_not.1 hidle

/-- The end of the wait keeps the list, and ends in IDLE only from there
or from a scan. -/
private theorem abortScanFinish_idle {ret : RTW88State} {s : Mlme}
    (h : (abortScanFinish hw ret s).2.state = .idle) :
    (s.state = .idle ∨ s.state = .scanning)
      ∧ (abortScanFinish hw ret s).2.bssList = s.bssList := by
  rw [abortScanFinish] at h ⊢
  split at h
  next hstate =>
    rw [if_pos hstate]
    exact ⟨.inl h, rfl⟩
  next hstate =>
    have hscan : s.state = .scanning := not_not.1 hstate
    split at h
    next => rw [hscan] at h; cases h
    next hcount =>
      rw [if_neg hstate, if_neg hcount]
      refine ⟨.inr hscan, ?_⟩
      have hlist : ∀ t : Mlme,
          (if ret = RTW88State.connected then restoreConnectedChannel hw t
            else t).bssList = t.bssList := by
        intro t
        split
        · simp only [restoreConnectedChannel]
          split
          · rfl
          · simp only [setTargetChandef, Mlme.emit]
            split <;> rfl
        · rfl
      exact hlist s

private theorem authAct_guard {s : Sys} {e : Event} (skb : SkBuff) :
    (authAct skb s.mlme).Guard hw s e := by
  unfold authAct
  split
  · exact True.intro
  next hgate =>
    have hstate : s.mlme.state = .authenticating :=
      not_not.1 fun hne => hgate (.inl hne)
    have hgo : ∀ (p : Prop) [Decidable p], Act.Guard hw s e
        (if p then if s.mlme.up then .associate else .quiet
          else .refuse) := by
      intro p _
      split
      · split
        next hup => exact ⟨hstate, hup⟩
        next => exact True.intro
      · exact .inl hstate
    exact hgo _

private theorem mgmtAct_guard {s : Sys} {e : Event} (skb : SkBuff) :
    (mgmtAct hw env skb s.mlme).Guard hw s e := by
  simp only [mgmtAct]
  split
  · exact True.intro
  · split
    · exact authAct_guard skb
    · split
      · -- association
        rw [assocAct]
        split
        · exact True.intro
        next hgate =>
          have hstate : s.mlme.state = .associating :=
            not_not.1 fun hne => hgate (.inl hne)
          split
          · exact .inr hstate
          · split
            · exact hstate
            · exact ⟨hstate, fun hask => addSta_sta (asks_sta hask)⟩
      · split
        · split <;> exact True.intro
        · split
          · split
            next hback =>
              -- BlockAck
              rw [backAct]
              split
              · exact True.intro
              · split
                · exact True.intro
                · split
                  · split
                    · exact hback.1
                    · exact True.intro
                  · split
                    · split
                      · exact hback.1
                      · exact True.intro
                    · exact True.intro
            next => exact True.intro
          · exact True.intro

private theorem dataAct_guard {s : Sys} {e : Event}
    (d : Option (Env × SkBuff)) : (dataAct hw d s.mlme).Guard hw s e := by
  unfold dataAct
  split
  · exact True.intro
  · split
    · split
      next hwant =>
        unfold eapolAct
        split
        · exact True.intro
        · split
          · exact hwant.2
          · split
            · split
              · exact True.intro
              · split
                · exact ⟨hwant.2, fun hask => asks_sta hask⟩
                · exact True.intro
            · exact True.intro
      next => exact True.intro
    · exact True.intro

private theorem waiterAct_guard {s : Sys} {i : Nat} {env : Env} {w : Waiter}
    (hi : s.waiters[i]? = some w)
    (hwait : ¬ (w.turn < 40 ∧ s.mlme.state = .scanning)) :
    (waiterAct hw w s.mlme).Guard hw s (.resume i env) := by
  obtain ⟨cmd, ret, turn⟩ := w
  cases cmd with
  | powerOff => exact True.intro
  | connect ssid password =>
      simp only [waiterAct]
      split
      · exact True.intro
      next hok =>
        have hok : (abortScanFinish hw ret s.mlme).1 = true := by
          simpa using hok
        split
        next =>
          split
          next hscan => exact hscan
          next => exact True.intro
        next hne =>
          rcases connectAct_cases ssid (abortScanFinish hw ret s.mlme).2
            with hact | hact | hact
          · exact absurd hact hne
          · rw [hact]
            obtain ⟨hidle, n, hn, hfind⟩ := connectAct_connect hact
            obtain ⟨hfrom, hlist⟩ := abortScanFinish_idle hidle
            refine ⟨⟨n, ?_, hlist ▸ hfind⟩, hfrom⟩
            simp only [Sys.looksUp, hi, hok, hidle]
            rw [if_neg (by simpa using hwait)]
            exact hn
          · rw [hact]
            exact (abortScanFinish_idle (connectAct_release hact)).1

/-- Every action is guarded. -/
theorem Sys.act_guard (s : Sys) (e : Event) : (s.act hw e).Guard hw s e := by
  cases e with
  | cmdScan env =>
      simp only [Sys.act]
      split
      next h => exact h.1
      next => exact True.intro
  | cmdConnect ssid password =>
      simp only [Sys.act]
      rcases connectAct_cases ssid s.mlme with hact | hact | hact
      · rw [hact]
        exact True.intro
      · rw [hact]
        obtain ⟨hidle, n, hn, hfind⟩ := connectAct_connect hact
        refine ⟨⟨n, ?_, hfind⟩, .inl hidle⟩
        simp only [Sys.looksUp, hidle, if_true]
        exact hn
      · rw [hact]
        exact .inl (connectAct_release hact)
  | resume i env =>
      simp only [Sys.act]
      split
      · exact True.intro
      next w hi =>
        split
        · exact True.intro
        next hwait => exact waiterAct_guard hi hwait
  | rx env skb =>
      simp only [Sys.act]
      split
      · exact mgmtAct_guard _
      · exact dataAct_guard _
  | deliver i env => exact dataAct_guard _
  | scanDone aborted =>
      simp only [Sys.act]
      split
      next h => exact h
      next => exact True.intro
  | timer env =>
      simp only [Sys.act]
      split
      next hdue =>
        rw [timerAct]
        split
        next hstate =>
          split
          · exact ⟨rfl, hdue⟩
          · exact ⟨rfl, hdue, .inl hstate⟩
        next hstate => exact ⟨rfl, hdue, .inr hstate⟩
        next hstate => exact ⟨rfl, hdue, hstate⟩
        next => exact ⟨rfl, hdue⟩
      next => exact True.intro
  | auth i env scanning =>
      simp only [Sys.act]
      split
      next t ht => exact Option.isSome_of_eq_some ht
      next => exact True.intro
  | scan i env =>
      have hends : ∀ b : Bool, Act.Guard hw s (.scan i env)
          (if b && s.mlme.state == .scanning then .endScan else .quiet) := by
        intro b
        split
        next h =>
          rw [Bool.and_eq_true, beq_iff_eq] at h
          exact h.2
        next => exact True.intro
      simp only [Sys.act]
      split
      next => exact True.intro
      next pc hpc => exact hends _
  | stop env => rfl
  | cmdDisconnect env => simp only [Sys.act]; split <;> exact True.intro
  | cmdPowerOn env => simp only [Sys.act]; split <;> exact True.intro
  | cmdPowerOff env => simp only [Sys.act]; split <;> exact True.intro
  | powerOn env => simp only [Sys.act]; split <;> exact True.intro
  | powerOff => exact True.intro
  | reorderTimer => exact True.intro
  | output env m => exact True.intro

-- ====================================================== the driver is up

/-- Where the driver must be up: from the association request on. -/
def RTW88State.joining (st : RTW88State) : Bool :=
  st == .associating || st == .handshaking || st == .connected

/-- The driver stays up from the association request on. -/
theorem sysStep_joining {s : Sys} {e : Event} (h : NoLinkScan s)
    (hup : s.mlme.state.joining = true → s.mlme.up = true)
    (hst : (sysStep hw s e).mlme.state.joining = true) :
    (sysStep hw s e).mlme.up = true := by
  have hctl := @sysStep_ctl hw s h e
  have hguard := @Sys.act_guard hw s e
  have hstate := (congrArg (fun c : Ctl => c.state.joining) hctl).symm.trans hst
  refine (congrArg Ctl.up hctl).trans ?_
  have hbefore : s.mlme.state.joining = true → (ctl s.mlme).up = true :=
    hup
  cases hact : s.act hw e with
  | associate =>
      rw [hact] at hguard
      exact hguard.2
  | handshake alloc =>
      rw [hact] at hguard
      exact hbefore (by rw [show s.mlme.state = _ from hguard]; rfl)
  | openLink alloc ask =>
      rw [hact] at hguard
      simp only [Act.run, Ctl.aggregate_up]
      exact hbefore (by rw [hguard.1]; rfl)
  | linkUp ask =>
      rw [hact] at hguard
      simp only [Act.run, Ctl.aggregate_up]
      exact hbefore (by rw [hguard.1]; rfl)
  | ready =>
      rw [hact] at hstate
      simp only [Act.run] at hstate
      split at hstate
      · cases hstate
      · exact hbefore hstate
  | dropHandshake =>
      rw [hact] at hstate
      simp [Act.run, RTW88State.joining] at hstate
  | disconnect =>
      rw [hact] at hstate
      simp [Act.run, RTW88State.joining] at hstate
  | quiet => rw [hact] at hstate; exact hbefore hstate
  | power on => rw [hact] at hstate; exact hbefore hstate
  | expire => rw [hact] at hstate; exact hbefore hstate
  | rekey => rw [hact] at hstate; exact hbefore hstate
  | agree token => rw [hact] at hstate; exact hbefore hstate
  | delba => rw [hact] at hstate; exact hbefore hstate
  | _ => rw [hact] at hstate; cases hstate

-- ============================================================= activations

/-- What an event does to the activations of `doAuthenticate` and the
number of the attempt. -/
inductive AuthStep (hw : Hw) (s : Sys) (e : Event) :
    List AuthThread → Nat → Prop
  /-- Nothing. -/
  | keep (hfin : s.finishing e = none) :
      AuthStep hw s e s.auths s.attempt
  /-- A `cmdConnect` enters the connect thread call. -/
  | connect (hfin : s.finishing e = none) (h : s.act hw e = .connect) :
      AuthStep hw s e (enterConnect (s.attempt + 1) s.auths) (s.attempt + 1)
  /-- The authentication timeout goes on into `doAuthenticate`. -/
  | retry (hfin : s.finishing e = none) (he : e.isTimer = true)
      (hdue : s.timerDue = true) (hstate : s.mlme.state = .authenticating) :
      AuthStep hw s e (s.auths
        ++ [{ pc := .entry, attempt := s.attempt, onTimer := true }]) s.attempt
  /-- An activation goes on. -/
  | move (hfin : s.finishing e = none) (i : Nat) (t : AuthThread)
      (pc : AuthPc) (ht : s.auths[i]? = some t) (hpc : pc ≠ .entry) :
      AuthStep hw s e (s.auths.set i { t with pc := pc }) s.attempt
  /-- An activation ends, with the final write or without. -/
  | done (i : Nat) (t : AuthThread) (ht : s.auths[i]? = some t)
      (hfin : ∀ u ∈ s.finishing e, u = t) :
      AuthStep hw s e (s.auths.eraseIdx i) s.attempt

/-- `cmdConnect` enters the connect thread call when it connects. -/
private theorem connectTo_entered (ssid : Option (List UInt8))
    (password : List UInt8) (s : Mlme) :
    (connectTo ssid password s).2.1 = true ↔ connectAct ssid s = .connect := by
  unfold connectTo connectAct
  split
  · simp
  · cases ssid with
    | none => simp
    | some ssid =>
        simp only [bssList_releaseSta_clearKeys]
        cases findBss ssid s.bssList <;> simp

private theorem runConnect_authStep {s t : Sys} {e : Event}
    {ssid : Option (List UInt8)} {password : List UInt8}
    (hauths : t.auths = s.auths) (hattempt : t.attempt = s.attempt)
    (hfin : s.finishing e = none)
    (hact : connectAct ssid t.mlme = .connect → s.act hw e = .connect) :
    AuthStep hw s e (runConnect ssid password t).auths
      (runConnect ssid password t).attempt := by
  simp only [runConnect]
  split
  next hok =>
    simp only [hauths, hattempt]
    exact .connect hfin (hact ((connectTo_entered _ _ _).1 hok))
  next =>
    simp only [hauths, hattempt]
    exact .keep hfin

/-- Where a retry comes from. -/
private theorem onTimer_retries {s : Mlme}
    (h : (onTimer hw env s.cancelTimer).1 = true) :
    s.state = .authenticating := by
  rw [onTimer] at h
  split at h
  · split at h <;> cases h
  next hstate => exact hstate
  all_goals cases h

/-- An activation that goes on has left its entry. -/
private theorem doAuthenticate_pc {scanning : Bool} {pc pc' : AuthPc}
    {s : Mlme} (h : (doAuthenticate hw env scanning pc s).1 = some pc') :
    pc' ≠ .entry ∧ pc ≠ .finish := by
  cases pc with
  | entry =>
      simp only [doAuthenticate] at h
      split at h
      · cases h
      · cases h
        exact ⟨by decide, by decide⟩
  | waitScan i =>
      simp only [doAuthenticate] at h
      split at h <;> (cases h; exact ⟨by simp, by simp⟩)
  | settle =>
      simp only [doAuthenticate] at h
      split at h
      · cases h
      · cases h
        exact ⟨by decide, by decide⟩
  | transmit =>
      cases h
      exact ⟨by decide, by decide⟩
  | finish => cases h

/-- What one event does to the activations. -/
theorem sysStep_authStep (s : Sys) (e : Event) :
    AuthStep hw s e (sysStep hw s e).auths (sysStep hw s e).attempt := by
  cases e with
  | cmdConnect ssid password =>
      simp only [sysStep]
      split
      · exact .keep rfl
      · exact runConnect_authStep rfl rfl rfl id
  | cmdPowerOff env =>
      simp only [sysStep]
      split <;> exact .keep rfl
  | resume i env =>
      simp only [sysStep, resumeWait]
      cases hi : s.waiters[i]? with
      | none => exact .keep rfl
      | some w =>
          simp only
          split
          · exact .keep rfl
          next hwait =>
            obtain ⟨cmd, ret, turn⟩ := w
            cases cmd with
            | powerOff => exact .keep rfl
            | connect ssid password =>
                simp only [runWaiter]
                split
                next hok =>
                  have hresume : connectAct ssid
                      (abortScanFinish hw ret s.mlme).2 = .connect →
                      s.act hw (.resume i env) = .connect := by
                    intro hact
                    simp only [Sys.act, hi, if_neg hwait, waiterAct, hok,
                      Bool.not_true, Bool.false_eq_true, if_false, hact]
                  exact runConnect_authStep (s := s) rfl rfl rfl hresume
                next => exact .keep rfl
  | rx env skb =>
      have hfile : ∀ (p : Option Pending) (t : Sys),
          (addPending p t).auths = t.auths
            ∧ (addPending p t).attempt = t.attempt := by
        intro p t
        cases p <;> exact ⟨rfl, rfl⟩
      simp only [sysStep, hfile]
      exact .keep rfl
  | deliver i env =>
      simp only [sysStep, deliverNext]
      split
      · exact .keep rfl
      · split <;> exact .keep rfl
  | timer env =>
      have hdue : ¬ (s.mlme.timer.isNone || s.auths.any (·.onTimer)) = true →
          s.timerDue = true := by
        rw [Sys.timerDue]
        cases s.mlme.timer <;> cases s.auths.any (·.onTimer) <;> simp
      simp only [sysStep, fireTimer]
      split
      · exact .keep rfl
      next hgo =>
        split
        next hretry => exact .retry rfl rfl (hdue hgo) (onTimer_retries hretry)
        next => exact .keep rfl
  | reorderTimer =>
      simp only [sysStep, fireReorderTimer]
      split <;> exact .keep rfl
  | auth i env scanning =>
      simp only [sysStep, stepAuth]
      cases ht : s.auths[i]? with
      | none =>
          refine .keep ?_
          simp only [Sys.finishing, ht]
      | some t =>
          simp only
          cases hnext : (doAuthenticate hw env scanning t.pc s.mlme).1 with
          | none =>
              refine .done i t ht fun u hu => ?_
              simp only [Sys.finishing, ht, Option.mem_def] at hu
              split at hu
              · exact (Option.some.inj hu).symm
              · cases hu
          | some pc =>
              obtain ⟨hpc, hrun⟩ := doAuthenticate_pc hnext
              refine .move ?_ i t pc ht hpc
              simp only [Sys.finishing, ht, if_neg hrun]
  | scan i env =>
      simp only [sysStep, stepScan]
      split <;> exact .keep rfl
  | _ => exact .keep rfl

end Rtw88
