/-
A timeout acts on the phase that armed it, where the timer is minded:
`minded_timeouts_own`.

The invariant is `VisitInv`: in a timed phase a pending deadline belongs
to the present visit, and in AUTHENTICATING it is pending only when no
activation of the current attempt is left.

# Visits

There is one timer for all phases. A visit is numbered when a phase is
entered, and the record keeps the number of the visit that armed the
timer; the timeout is the phase's own if the two agree when it goes off.
Which events arm the timer is read off the action
(`Act.run_arms`), and does not depend on what is pending
(`act_arms`): an armed timer is armed over.

# Leaving a phase

Most ways out of a phase cancel the timer or arm it for the next. The
end of a scan does not, so a deadline can be left over in IDLE; it does
harm if a `cmdConnect` enters AUTHENTICATING over it, since that does not
arm the timer itself (`Act.run_waits`). So the first half of minding the
timer is that no `cmdConnect` finds its target while a deadline is
pending, and `step_own` is the step of the invariant for it.

# The activations

In AUTHENTICATING the deadline is armed by the activation that
transmits, with its final write. So before that there is none, and after
it no activation of the attempt is left, which is why the timer's retry
does not run beside the one it retries (`FewAuths`, `step_free`). The
second half of minding is for the activations of an earlier attempt: none
makes its final write while one of the current attempt is in progress.
-/
import Rtw88.Spec.Timeout
import Rtw88.Spec.AccessPoint
import Rtw88.Proofs.Control.Guards
import Mathlib.Data.List.Perm.Basic

namespace Rtw88

variable {hw : Hw}

-- =============================================================== the timer

/-- `doDisconnect` leaves no deadline, or the one there was. -/
theorem Ctl.disconnect_timer (c : Ctl) :
    c.disconnect.timer = none ∨ c.disconnect.timer = c.timer := by
  rw [Ctl.disconnect]
  split
  · exact .inr rfl
  · exact .inl rfl

/-- From no deadline, one is pending after the actions that arm. -/
theorem Act.run_arms (a : Act) {c : Ctl} (h : c.timer = none) :
    (a.run c).timer.isSome = a.arms := by
  have hdisc : ∀ d : Ctl, d.timer = none → d.disconnect.timer = none :=
    fun d hd => d.disconnect_timer.elim id fun heq => heq.trans hd
  cases a with
  | dropHandshake => simp [Act.run, Act.arms, hdisc]
  | disconnect => simp [Act.run, Act.arms, hdisc c h]
  | powerDown =>
      simp only [Act.run, Act.arms]
      split
      · rw [hdisc c h]
        rfl
      · rw [Ctl.release_timer, h]
        rfl
  | stop =>
      simp only [Act.run, Act.arms]
      split
      · rw [hdisc _ rfl]
        rfl
      · rw [Ctl.release_timer]
        rfl
  | _ => simp [Act.run, Act.arms, h]

/-- An action that does not arm, but ends in a timed phase with a
deadline pending: `cmdConnect`, or one that leaves phase and deadline. -/
theorem Act.run_waits {a : Act} {c : Ctl} (harm : a.arms = false)
    (hstate : (a.run c).state.timed = true)
    (htimer : (a.run c).timer.isSome = true) :
    c.timer.isSome = true ∧ (a = .connect ∨ (a.run c).state = c.state) := by
  cases a with
  | quiet => exact ⟨htimer, .inr rfl⟩
  | power on => exact ⟨htimer, .inr rfl⟩
  | ready =>
      refine ⟨htimer, .inr ?_⟩
      simp only [Act.run] at hstate ⊢
      split at hstate
      · cases hstate
      next hne => rw [if_neg hne]
  | connect =>
      simp only [Act.run, Ctl.release_timer] at htimer
      exact ⟨htimer, .inl rfl⟩
  | agree token => exact ⟨htimer, .inr rfl⟩
  | delba => exact ⟨htimer, .inr rfl⟩
  | expire => cases htimer
  | scan ms => cases harm
  | authWrite => cases harm
  | associate => cases harm
  | handshake alloc => cases harm
  | rekey => cases harm
  | endScan => cases hstate
  | giveUp => cases hstate
  | refuse => cases hstate
  | deauth => cases hstate
  | release => cases hstate
  | powerDown => cases hstate
  | stop => cases hstate
  | dropHandshake => simp [Act.run, RTW88State.timed] at hstate
  | disconnect => simp [Act.run, RTW88State.timed] at hstate
  | openLink alloc ask => simp [Act.run] at htimer
  | linkUp ask => simp [Act.run] at htimer

-- ==================================================== which events arm it

section Disarmed

variable {env : Env}

private theorem connectAct_arms (ssid : Option (List UInt8)) (s : Mlme) :
    (connectAct ssid s).arms = false := by
  rcases connectAct_cases ssid s with h | h | h <;> (rw [h]; rfl)

private theorem waiterAct_arms (w : Waiter) (s : Mlme) :
    (waiterAct hw w s).arms = false := by
  obtain ⟨cmd, ret, turn⟩ := w
  cases cmd with
  | powerOff => rfl
  | connect ssid password =>
      simp only [waiterAct]
      split
      · rfl
      · split
        · split <;> rfl
        · exact connectAct_arms _ _

/-- A management frame arms the timer whatever deadline is pending. -/
private theorem mgmtAct_arms (skb : SkBuff) (s : Mlme) :
    (mgmtAct hw env skb s.cancelTimer).arms
      = (mgmtAct hw env skb s).arms := by
  have hassoc : (assocAct hw env skb s.cancelTimer).arms
      = (assocAct hw env skb s).arms := by
    have hok : assocOk env skb s.cancelTimer = assocOk env skb s := rfl
    have hstate : s.cancelTimer.state = s.state := rfl
    have hbssid : s.cancelTimer.targetBSS = s.targetBSS := rfl
    have hwpa : s.cancelTimer.wpa2 = s.wpa2 := rfl
    rw [assocAct, assocAct, hok, hstate, hbssid, hwpa]
    split
    · rfl
    · split
      · rfl
      · split <;> rfl
  have hauth : authAct skb s.cancelTimer = authAct skb s := rfl
  have hdeauth : deauthAccepted hw skb s.cancelTimer
      = deauthAccepted hw skb s := rfl
  have hstate : s.cancelTimer.state = s.state := rfl
  have hbssid : s.cancelTimer.targetBSS = s.targetBSS := rfl
  simp only [mgmtAct, hauth, hdeauth, hstate, hbssid]
  split
  · rfl
  · split
    · rfl
    · split
      · exact hassoc
      · rfl

/-- So does a data frame, in the handshake. -/
private theorem dataAct_arms (d : Option (Env × SkBuff)) (s : Mlme) :
    (dataAct hw d s.cancelTimer).arms = (dataAct hw d s).arms := by
  have heapol : ∀ (env : Env) (data : List UInt8),
      (eapolAct hw env data s.cancelTimer).arms
        = (eapolAct hw env data s).arms := by
    intro env data
    have hptk : s.cancelTimer.ptk = s.ptk := rfl
    have hlink : ∀ (p : Prop) [Decidable p] (ask : Option Bool),
        (if p then Act.linkUp ask else .quiet).arms = false := by
      intro p _ ask
      split <;> rfl
    unfold eapolAct
    rw [hptk]
    split
    · rfl
    · split
      · rfl
      · split
        · split
          · rfl
          · rw [hlink, hlink]
        · rfl
  have hstate : s.cancelTimer.state = s.state := rfl
  unfold dataAct
  rw [hstate]
  split
  · rfl
  · split
    · split
      · exact heapol _ _
      · rfl
    · rfl

/-- Whether an event arms the timer does not depend on the timer. -/
private theorem act_arms (s : Sys) (e : Event) :
    (s.disarmed.act hw e).arms = (s.act hw e).arms := by
  cases e with
  | cmdConnect ssid password =>
      exact (connectAct_arms _ _).trans (connectAct_arms _ _).symm
  | resume i env =>
      simp only [Sys.act]
      have hwaiters : s.disarmed.waiters = s.waiters := rfl
      have hstate : s.disarmed.mlme.state = s.mlme.state := rfl
      rw [hwaiters, hstate]
      split
      · rfl
      · split
        · rfl
        · rw [waiterAct_arms, waiterAct_arms]
  | rx env skb =>
      simp only [Sys.act]
      split
      · exact mgmtAct_arms _ s.mlme
      · exact dataAct_arms _ s.mlme
  | deliver i env => exact dataAct_arms _ s.mlme
  | timer env =>
      have hoff : s.disarmed.act hw (.timer env) = .quiet := rfl
      rw [hoff]
      simp only [Sys.act]
      split
      · rw [timerAct]
        split
        · split <;> rfl
        all_goals rfl
      · rfl
  | _ => rfl

end Disarmed

theorem NoLinkScan.disarmed {s : Sys} (h : NoLinkScan s) :
    NoLinkScan s.disarmed := ⟨h.ret, h.waiters⟩

/-- The events that arm the timer are those whose action does. -/
theorem Sys.arms_eq {s : Sys} (h : NoLinkScan s) (e : Event) :
    s.arms hw e = (s.act hw e).arms := by
  have hstep := congrArg Ctl.timer (@sysStep_ctl hw _ h.disarmed e)
  have hnone : (ctl s.disarmed.mlme).timer = none := rfl
  calc s.arms hw e
      = (ctl (sysStep hw s.disarmed e).mlme).timer.isSome := rfl
    _ = (s.disarmed.act hw e).arms := by
        rw [hstep, Act.run_arms _ hnone]
    _ = (s.act hw e).arms := act_arms s e

-- ========================================================= the activations

/-- An activation that the connect thread call has not started yet. -/
def AuthThread.waits (t : AuthThread) : Bool := t.pc == .entry && !t.onTimer

/-- Of the activations, at most one waits at its entry, and at most one
is of the current attempt; none is of a later one. -/
structure FewAuths (auths : List AuthThread) (attempt : Nat) : Prop where
  bound : ∀ t ∈ auths, t.attempt ≤ attempt
  waiting : auths.countP AuthThread.waits ≤ 1
  current : auths.countP (·.attempt == attempt) ≤ 1

private theorem perm_at {l : List AuthThread} {i : Nat} {t : AuthThread}
    (ht : l[i]? = some t) : (t :: l.eraseIdx i).Perm l := by
  obtain ⟨hi, rfl⟩ := List.getElem?_eq_some_iff.1 ht
  exact List.getElem_cons_eraseIdx_perm hi

/-- What an activation is counted for, the one in its place is. -/
private theorem auths_countP_set_le {l : List AuthThread} {i : Nat}
    {t u : AuthThread} (ht : l[i]? = some t) {p : AuthThread → Bool}
    (hp : p u = true → p t = true) :
    (l.set i u).countP p ≤ l.countP p := by
  obtain ⟨hi, -⟩ := List.getElem?_eq_some_iff.1 ht
  rw [(List.set_perm_cons_eraseIdx hi u).countP_eq, ← (perm_at ht).countP_eq,
    List.countP_cons, List.countP_cons]
  by_cases hu : p u = true
  · rw [if_pos hu, if_pos (hp hu)]
  · rw [if_neg hu]
    omega

/-- Where no activation is of the current attempt, none is counted. -/
private theorem countP_none {l : List AuthThread} {n : Nat}
    (h : ∀ t ∈ l, t.attempt ≠ n) : l.countP (·.attempt == n) = 0 := by
  rw [List.countP_eq_zero]
  intro t ht heq
  exact h t ht (by simpa using heq)

/-- The connect thread call entered for a new attempt. -/
private theorem FewAuths.enter {auths : List AuthThread} {n : Nat}
    (h : FewAuths auths n) :
    FewAuths (enterConnect (n + 1) auths) (n + 1) := by
  have hlater : ∀ t ∈ auths, t.attempt ≠ n + 1 := fun t ht heq => by
    have := h.bound t ht
    omega
  have hmark : ∀ t : AuthThread,
      (t.pc == .entry && !t.onTimer) = t.waits := fun _ => rfl
  simp only [enterConnect, hmark]
  split
  next hany =>
    refine ⟨fun t ht => ?_, ?_, ?_⟩
    · obtain ⟨u, hu, rfl⟩ := List.mem_map.1 ht
      have := h.bound u hu
      split
      · exact le_rfl
      · omega
    · rw [List.countP_map]
      refine le_trans (le_of_eq (List.countP_congr fun t _ => ?_)) h.waiting
      show AuthThread.waits (if t.waits = true then _ else _) = true ↔ _
      split <;> exact Iff.rfl
    · -- the ones entered are those that waited
      rw [List.countP_map]
      refine le_trans (le_of_eq (List.countP_congr fun t ht => ?_)) h.waiting
      show ((if t.waits then { t with attempt := n + 1 } else t).attempt
        == n + 1) = true ↔ _
      split
      next hw => simp [hw]
      next hw => simp [hw, hlater t ht]
  next hany =>
    have hnone : auths.countP AuthThread.waits = 0 := by
      rw [List.countP_eq_zero]
      intro t ht hw
      exact hany (List.any_eq_true.2 ⟨t, ht, hw⟩)
    refine ⟨fun t ht => ?_, ?_, ?_⟩
    · rcases List.mem_append.1 ht with ht | ht
      · have := h.bound t ht
        omega
      · rw [List.mem_singleton.1 ht]
    · rw [List.countP_append, hnone, Nat.zero_add]
      exact List.countP_le_length
    · rw [List.countP_append, countP_none hlater, Nat.zero_add]
      exact List.countP_le_length

/-- No event makes more activations of one attempt than one, if the timer
retries only when none is left. -/
private theorem FewAuths.step {s : Sys} {e : Event}
    (h : FewAuths s.auths s.attempt)
    (hretry : s.timerDue = true → s.mlme.state = .authenticating →
      ∀ t ∈ s.auths, t.attempt ≠ s.attempt) :
    FewAuths (sysStep hw s e).auths (sysStep hw s e).attempt := by
  have hstep := @sysStep_authStep hw s e
  generalize (sysStep hw s e).auths = auths at hstep ⊢
  generalize (sysStep hw s e).attempt = attempt at hstep ⊢
  cases hstep with
  | keep => exact h
  | connect => exact h.enter
  | retry hfin he hdue hstate =>
      refine ⟨fun t ht => ?_, ?_, ?_⟩
      · rcases List.mem_append.1 ht with ht | ht
        · exact h.bound t ht
        · rw [List.mem_singleton.1 ht]
      · rw [List.countP_append]
        exact h.waiting
      · rw [List.countP_append, countP_none (hretry hdue hstate),
          Nat.zero_add]
        exact List.countP_le_length
  | move hfin i t pc ht hpc =>
      refine ⟨fun u hu => ?_, ?_, ?_⟩
      · rcases List.mem_or_eq_of_mem_set hu with hu | rfl
        · exact h.bound u hu
        · exact h.bound t (List.mem_of_getElem? ht)
      · refine le_trans (auths_countP_set_le ht fun hw => ?_) h.waiting
        simp [AuthThread.waits, hpc] at hw
      · exact le_trans (auths_countP_set_le ht id) h.current
  | done i t ht hfin =>
      have hsub := List.eraseIdx_sublist s.auths i
      exact ⟨fun u hu => h.bound u (hsub.subset hu),
        hsub.countP_le.trans h.waiting, hsub.countP_le.trans h.current⟩

-- ============================================================ the invariant

/-- What holds in every state reached when the timer is minded. -/
structure VisitInv (v : Visits) : Prop where
  scans : NoLinkScan v.sys
  auths : FewAuths v.sys.auths v.sys.attempt
  /-- A deadline pending in a timed phase was armed in this visit. -/
  own : v.sys.mlme.state.timed = true → v.sys.mlme.timer.isSome = true →
    v.armed = some v.visit
  /-- In AUTHENTICATING it is armed by the end of the activation. -/
  free : v.sys.mlme.state = .authenticating →
    v.sys.mlme.timer.isSome = true →
    ∀ t ∈ v.sys.auths, t.attempt ≠ v.sys.attempt

theorem VisitInv.init (powered : Bool) : VisitInv (Visits.init powered) where
  scans := NoLinkScan.init powered
  auths := ⟨fun t ht => (by cases ht), Nat.zero_le _, Nat.zero_le _⟩
  own hst := by cases hst
  free hst := by cases hst

private theorem timerDue_isSome {s : Sys} (h : s.timerDue = true) :
    s.mlme.timer.isSome = true := by
  rw [Sys.timerDue, Bool.and_eq_true] at h
  exact h.1

/-- In a timed phase, a deadline pending after an event was armed by it,
or was pending in the same visit. -/
private theorem step_own {v : Visits} {e : Event} (h : VisitInv v)
    (hm : MindsTimer hw v.sys e)
    (hst : (sysStep hw v.sys e).mlme.state.timed = true)
    (htimer : (sysStep hw v.sys e).mlme.timer.isSome = true) :
    (visitStep hw v e).armed = some (visitStep hw v e).visit := by
  have hctl := @sysStep_ctl hw v.sys h.scans e
  have hstate : (sysStep hw v.sys e).mlme.state
      = ((v.sys.act hw e).run (ctl v.sys.mlme)).state :=
    congrArg Ctl.state hctl
  have htime : (sysStep hw v.sys e).mlme.timer
      = ((v.sys.act hw e).run (ctl v.sys.mlme)).timer :=
    congrArg Ctl.timer hctl
  simp only [visitStep, Sys.arms_eq h.scans]
  cases harm : (v.sys.act hw e).arms with
  | true => rfl
  | false =>
      simp only [Bool.false_eq_true, if_false]
      rw [hstate] at hst
      rw [htime] at htimer
      obtain ⟨hpending, hact | hsame⟩ := Act.run_waits harm hst htimer
      · -- a connect finds no deadline pending
        have hfinds := @Sys.act_guard hw v.sys e
        rw [hact] at hfinds
        have hnone := hm.disarmed hfinds.1
        have hsome : v.sys.mlme.timer.isSome = true := hpending
        rw [hnone] at hsome
        cases hsome
      · have hkeep : (sysStep hw v.sys e).mlme.state = v.sys.mlme.state :=
          hstate.trans hsame
        rw [if_pos hkeep]
        rw [hsame] at hst
        exact h.own hst hpending

/-- An activation of the current attempt that makes its final write was
the only one. -/
private theorem done_free {s : Sys} (h : FewAuths s.auths s.attempt) {i : Nat}
    {t : AuthThread} (ht : s.auths[i]? = some t)
    (hcur : t.attempt = s.attempt) :
    ∀ u ∈ s.auths.eraseIdx i, u.attempt ≠ s.attempt := by
  have hcount := (perm_at ht).countP_eq (p := (·.attempt == s.attempt))
  rw [List.countP_cons, if_pos (by simpa using hcur)] at hcount
  have hnone : (s.auths.eraseIdx i).countP (·.attempt == s.attempt) = 0 := by
    have := h.current
    omega
  rw [List.countP_eq_zero] at hnone
  intro u hu heq
  exact hnone u hu (by simpa using heq)

/-- In AUTHENTICATING a deadline is pending after an event only when no
activation of the current attempt is left. -/
private theorem step_free {v : Visits} {e : Event} (h : VisitInv v)
    (hm : MindsTimer hw v.sys e)
    (hst : (sysStep hw v.sys e).mlme.state = .authenticating)
    (htimer : (sysStep hw v.sys e).mlme.timer.isSome = true) :
    ∀ t ∈ (sysStep hw v.sys e).auths,
      t.attempt ≠ (sysStep hw v.sys e).attempt := by
  have hctl := @sysStep_ctl hw v.sys h.scans e
  have hstate := (congrArg Ctl.state hctl).symm.trans hst
  have htime : ((v.sys.act hw e).run (ctl v.sys.mlme)).timer.isSome = true :=
    (congrArg (fun c : Ctl => c.timer.isSome) hctl).symm.trans htimer
  have hguard := @Sys.act_guard hw v.sys e
  have hauth := @sysStep_authStep hw v.sys e
  generalize (sysStep hw v.sys e).auths = auths at hauth ⊢
  generalize (sysStep hw v.sys e).attempt = attempt at hauth ⊢
  -- the phase and the deadline were there before, or the event is the
  -- final write
  have hbefore : (v.sys.act hw e = .authWrite)
      ∨ v.sys.mlme.state = .authenticating
        ∧ v.sys.mlme.timer.isSome = true ∧ v.sys.act hw e ≠ .connect := by
    cases harm : (v.sys.act hw e).arms with
    | false =>
        have htimed : ((v.sys.act hw e).run
            (ctl v.sys.mlme)).state.timed = true := by
          rw [hstate]
          rfl
        obtain ⟨hpending, hact | hsame⟩ := Act.run_waits harm htimed htime
        · rw [hact] at hguard
          have hnone := hm.disarmed hguard.1
          have hsome : v.sys.mlme.timer.isSome = true := hpending
          rw [hnone] at hsome
          cases hsome
        · refine .inr ⟨hsame.symm.trans hstate, hpending, fun hact => ?_⟩
          rw [hact] at hguard
          have hnone := hm.disarmed hguard.1
          have hsome : v.sys.mlme.timer.isSome = true := hpending
          rw [hnone] at hsome
          cases hsome
    | true =>
        cases hact : v.sys.act hw e with
        | authWrite => exact .inl rfl
        | rekey =>
            -- an M1 is processed in HANDSHAKING only
            rw [hact] at hguard hstate
            have hsame : v.sys.mlme.state = .authenticating := hstate
            rw [show v.sys.mlme.state = .handshaking from hguard] at hsame
            cases hsame
        | scan ms => rw [hact] at hstate; cases hstate
        | associate => rw [hact] at hstate; cases hstate
        | handshake alloc => rw [hact] at hstate; cases hstate
        | _ => rw [hact] at harm; cases harm
  cases hauth with
  | keep hfin =>
      rcases hbefore with hact | ⟨hst', ht', -⟩
      · rw [hact] at hguard
        have hsome : (v.sys.finishing e).isSome = true := hguard
        rw [hfin] at hsome
        cases hsome
      · exact h.free hst' ht'
  | connect hfin hact =>
      rcases hbefore with hact' | ⟨-, -, hne⟩
      · rw [hact] at hact'
        cases hact'
      · exact absurd hact hne
  | retry hfin he hdue hstate' =>
      -- the deadline has just passed
      cases e with
      | timer env =>
          have hact : v.sys.act hw (.timer env) = .expire := by
            simp only [Sys.act, hdue, if_true, timerAct, hstate']
          rw [hact] at htime
          cases htime
      | _ => cases he
  | move hfin i t pc ht hpc =>
      rcases hbefore with hact | ⟨hst', ht', -⟩
      · rw [hact] at hguard
        have hsome : (v.sys.finishing e).isSome = true := hguard
        rw [hfin] at hsome
        cases hsome
      · intro u hu
        rcases List.mem_or_eq_of_mem_set hu with hu | rfl
        · exact h.free hst' ht' u hu
        · exact h.free hst' ht' t (List.mem_of_getElem? ht)
  | done i t ht hfin =>
      have hsub := List.eraseIdx_sublist v.sys.auths i
      rcases hbefore with hact | ⟨hst', ht', -⟩
      · rw [hact] at hguard
        obtain ⟨u, hu⟩ := Option.isSome_iff_exists.1 hguard
        obtain rfl := hfin u hu
        by_cases hcur : u.attempt = v.sys.attempt
        · exact done_free h.auths ht hcur
        · intro w hw'
          exact hm.settled u hu hcur w (hsub.subset hw')
      · exact fun w hw' => h.free hst' ht' w (hsub.subset hw')

theorem VisitInv.step {v : Visits} {e : Event} (h : VisitInv v)
    (hm : MindsTimer hw v.sys e) : VisitInv (visitStep hw v e) where
  scans := sysStep_noLinkScan h.scans e
  auths := h.auths.step fun hdue hst => h.free hst (timerDue_isSome hdue)
  own := step_own h hm
  free := step_free h hm

-- ==================================================================== result

/-- In every run whose events mind the timer, a timeout acts on the visit
that armed it, and starts no second activation of `doAuthenticate` for
one attempt. -/
theorem minded_timeouts_own (powered : Bool) (es : List Event)
    (h : Along (visitStep hw) (fun v => MindsTimer hw v.sys)
      (Visits.init powered) es) :
    Along (visitStep hw) OwnTimeout (Visits.init powered) es := by
  have hexp : ∀ {s : Sys} {e : Event}, s.expires e = true →
      s.timerDue = true ∧ s.mlme.state.timed = true := by
    intro s e he
    rw [Sys.expires, Bool.and_eq_true, Bool.and_eq_true] at he
    exact ⟨he.1.2, he.2⟩
  apply along_of_inv (I := VisitInv) _ (VisitInv.init powered) h
  intro v e hinv hm
  refine ⟨hinv.step hm, fun he => ?_, fun he hst => ?_⟩
  · exact hinv.own (hexp he).2 (timerDue_isSome (hexp he).1)
  · exact hinv.free hst (timerDue_isSome (hexp he).1)

/-- A scan of the sample network that its deadline ends, an attempt, and
the retry that the attempt's own deadline starts. -/
theorem sample_timeouts_own :
    Along (visitStep (sampleHw samplePrims)) OwnTimeout (Visits.init true)
      ((scanEvents ccmpIe).dropLast ++ [.timer {}] ++ authEvents
        ++ [.timer {}]) :=
  minded_timeouts_own true _ (by decide +kernel)

/-- A scan ends and leaves its deadline. It passes in the attempt that
follows, before anything was sent: a second `doAuthenticate` starts. -/
theorem scan_deadline_retries :
    let hw := sampleHw samplePrims
    let es := scanEvents ccmpIe ++ authEvents.take 1
    ¬Along (visitStep hw) OwnTimeout (Visits.init true) (es ++ [.timer {}])
      ∧ (sysRun hw true (es ++ [.timer {}])).auths.map (·.attempt)
        = [1, 1] := by
  intro hw es
  refine ⟨fun h => ?_, by decide +kernel⟩
  have hlast := h.last.own (by decide +kernel)
  revert hlast
  decide +kernel

end Rtw88
