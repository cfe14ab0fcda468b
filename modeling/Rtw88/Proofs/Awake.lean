/-
No phase is left without something that ends it.

A scan and a connection attempt end by a frame, by a driver call, or by
what the object has set going itself: the timer, the manual scan thread,
an activation of `doAuthenticate`. The first two may never come. So as
long as the driver is up, one of the last must be there in every phase
that is not at rest (`never_stranded`), and the scan thread must come to
its end (`scan_thread_ends`).

# The invariant

The invariant is `Minded`. It needs one fact besides the phases: a
manual scan that has not been counted out still has its thread, which is
why `onTimer` may let its deadline go. What an event leaves the phase in
is read off its action (`Act.run_phase`): at rest, with a deadline, or in
a new attempt, whose activation is there (`connect_enters`). What is left
are the events that keep the phase, and must not take away what is to end
it (`auths_stay`, `scans_stay`, `expire_minded`).

# The end of the scan

`ScanPc.left` is a measure: the stretches a scan thread has left, at most
three for a channel. A stretch of the thread makes it smaller or ends the
scan (`runManualScan_left_lt`), and no other event makes it larger
(`scanLeft_step`). As the channels of a scan are at most 256, a bound on
the number of stretches holds for all scans.
-/
import Rtw88.Proofs.Control.Guards
import Rtw88.Proofs.ManualScan.Frame

namespace Rtw88

variable {hw : Hw} {env : Env}

-- ================================================================ the phases

/-- What is to end the phase is there. -/
def Sys.minded (s : Sys) : Prop :=
  match s.mlme.state with
  | .idle | .connected => True
  | .scanning => s.mlme.timer.isSome = true ∨ s.scans ≠ []
  | .authenticating => s.mlme.timer.isSome = true ∨ s.auths ≠ []
  | .associating | .handshaking => s.mlme.timer.isSome = true
  | .disconnecting => False

instance (s : Sys) : Decidable s.minded := by
  unfold Sys.minded
  split <;> infer_instance

-- =============================================================== scan thread

/-- An event that is no stretch of a scan thread does not look at them,
and at most enters one. -/
theorem sysStep_withScans {s : Sys} {e : Event} (scans : List ScanPc)
    (h : ∀ i env, e ≠ .scan i env) :
    sysStep hw { s with scans := scans } e
      = { sysStep hw s e with
          scans := if startsPass hw s.mlme e then enterScan scans
            else scans } := by
  cases e with
  | cmdConnect ssid password =>
      simp only [sysStep, runConnect]
      split
      · rfl
      · split <;> rfl
  | cmdPowerOff env =>
      simp only [sysStep]
      split <;> rfl
  | resume i env =>
      simp only [sysStep, resumeWait]
      split
      · rfl
      next w _ =>
        split
        · rfl
        · obtain ⟨cmd, ret, turn⟩ := w
          cases cmd with
          | powerOff => rfl
          | connect ssid password =>
              simp only [runWaiter, runConnect]
              split
              · split <;> rfl
              · rfl
  | rx env skb =>
      simp only [sysStep, addPending]
      split <;> rfl
  | deliver i env =>
      simp only [sysStep, deliverNext]
      split
      · rfl
      · split <;> rfl
  | timer env =>
      simp only [sysStep, fireTimer]
      split
      · rfl
      · split <;> rfl
  | reorderTimer =>
      simp only [sysStep, fireReorderTimer]
      split <;> rfl
  | auth i env scanning =>
      simp only [sysStep, stepAuth]
      split <;> rfl
  | scan i env => exact absurd rfl (h i env)
  | _ => rfl

/-- What such an event does to the scan threads. -/
theorem sysStep_scans {s : Sys} {e : Event}
    (h : ∀ i env, e ≠ .scan i env) :
    (sysStep hw s e).scans
      = if startsPass hw s.mlme e then enterScan s.scans else s.scans :=
  congrArg Sys.scans (sysStep_withScans s.scans h)

theorem enterScan_ne_nil (scans : List ScanPc) : enterScan scans ≠ [] := by
  rw [enterScan]
  split
  next h => exact List.ne_nil_of_mem (List.contains_iff_mem.1 h)
  next => simp

/-- A thread that ends has counted the scan out. -/
theorem runManualScan_count {pc : ScanPc} {s : Mlme}
    (h : (runManualScan hw env pc s).1 = none) :
    (runManualScan hw env pc s).2.manualScanChannelCount = 0 := by
  cases pc with
  | entry =>
      simp only [runManualScan] at h ⊢
      split at h
      next hup =>
        rw [if_pos hup]
        rfl
      next => cases h
  | chan i count connectedScan =>
      simp only [runManualScan] at h ⊢
      split at h
      · split at h
        · cases h
        · split at h <;> cases h
      next hend =>
        rw [if_neg hend]
        rfl
  | leave chan i count => cases h
  | dwell i count connectedScan => cases h

/-- And has left SCANNING. -/
theorem runManualScan_left {pc : ScanPc} {s : Mlme}
    (hret : s.scanReturnState = .idle)
    (h : (runManualScan hw env pc s).1 = none) :
    (runManualScan hw env pc s).2.state ≠ .scanning := by
  have hends : scanAct pc s
      = if s.state = .scanning then .endScan else .quiet := by
    cases pc with
    | entry =>
        simp only [runManualScan] at h
        split at h
        next hup => simp [scanAct, hup]
        next => cases h
    | chan i count connectedScan =>
        simp only [runManualScan] at h
        split at h
        · split at h
          · cases h
          · split at h <;> cases h
        next hend => simp only [scanAct, hend, Bool.not_false, Bool.true_and,
            beq_iff_eq]
    | leave chan i count => cases h
    | dwell i count connectedScan => cases h
  have hstate : (runManualScan hw env pc s).2.state
      = ((scanAct pc s).run (ctl s)).state :=
    congrArg Ctl.state (ctl_runManualScan hret pc)
  rw [hstate, hends]
  split
  · exact RTW88State.noConfusion
  next hne => exact hne

-- ============================================================= the invariant

/-- What holds in every state a run reaches. -/
structure Minded (s : Sys) : Prop where
  links : NoLinkScan s
  /-- A scan that is not counted out has its thread. -/
  counted : s.mlme.manualScanChannelCount ≠ 0 → s.scans ≠ []
  phase : s.mlme.up = true → s.minded

theorem Minded.init (powered : Bool) : Minded (Sys.init powered) where
  links := NoLinkScan.init powered
  counted h := absurd rfl h
  phase _ := trivial

/-- An ended thread aside, the scan threads stay. -/
private theorem scans_stay {s : Sys} {e : Event} (h : s.scans ≠ [])
    (hend : (sysStep hw s e).mlme.manualScanChannelCount ≠ 0
      ∨ (sysStep hw s e).mlme.state = .scanning)
    (hlinks : NoLinkScan s) : (sysStep hw s e).scans ≠ [] := by
  by_cases hscan : ∃ i env, e = .scan i env
  · obtain ⟨i, env, rfl⟩ := hscan
    revert hend
    simp only [sysStep, stepScan]
    cases hpc : s.scans[i]? with
    | none => exact fun _ => h
    | some pc =>
        simp only
        cases hnext : (runManualScan hw env pc s.mlme).1 with
        | some pc' => exact fun _ => by simpa [setThread] using h
        | none =>
            rintro (hcount | hstate)
            · exact absurd (runManualScan_count hnext) hcount
            · exact absurd hstate (runManualScan_left hlinks.ret hnext)
  · rw [sysStep_scans fun i env he => hscan ⟨i, env, he⟩]
    split
    · exact enterScan_ne_nil _
    · exact h

/-- The count is set where the thread is entered. -/
private theorem counted_step {s : Sys} (h : Minded s) (e : Event)
    (hcount : (sysStep hw s e).mlme.manualScanChannelCount ≠ 0) :
    (sysStep hw s e).scans ≠ [] := by
  by_cases hscan : ∃ i env, e = .scan i env
  · -- a stretch found its thread, or did nothing
    refine scans_stay (fun hnil => ?_) (.inl hcount) h.links
    obtain ⟨i, env, rfl⟩ := hscan
    simp only [sysStep, stepScan, hnil, List.getElem?_nil] at hcount
    exact h.counted hcount hnil
  · have hne : ∀ i env, e ≠ .scan i env := fun i env he => hscan ⟨i, env, he⟩
    have hblind := congrArg Sys.mlme (@sysStep_withScans hw s e [] hne)
    have hmanual := @sysStep_manual hw { s with scans := [] } rfl e
    rw [hblind] at hmanual
    have hwrite := congrArg (fun m => m.2.1) hmanual
    rw [sysStep_scans hne]
    split
    · exact enterScan_ne_nil _
    next hstart =>
      refine h.counted fun hzero => hcount (hwrite.trans ?_)
      rw [if_neg hstart]
      split <;> exact hzero

-- ==================================================================== phases

/-- The driver does not come back. -/
theorem Act.run_up {a : Act} {c : Ctl} (h : (a.run c).up = true) :
    c.up = true := by
  cases a with
  | powerDown =>
      simp only [Act.run] at h
      split at h
      · exact (Ctl.disconnect_up c).symm.trans h
      · exact (Ctl.release_up c).symm.trans h
  | stop => cases h
  | disconnect => exact (Ctl.disconnect_up c).symm.trans h
  | dropHandshake => simpa [Act.run] using h
  | release => exact (Ctl.release_up c).symm.trans h
  | connect => exact (Ctl.release_up c).symm.trans h
  | openLink alloc ask => simpa [Act.run] using h
  | linkUp ask => simpa [Act.run] using h
  | _ => exact h

/-- Where an action leaves the phase: at rest, with a deadline, in a new
attempt, or where it was, and then only `expire` takes a deadline away. -/
theorem Act.run_phase (a : Act) {c : Ctl} :
    (a.run c).state = .idle ∨ (a.run c).state = .connected
      ∨ (a.run c).state ≠ .disconnecting ∧ (a.run c).timer.isSome = true
      ∨ a = .connect
      ∨ (a.run c).state = c.state
        ∧ (a = .expire
          ∨ (c.timer.isSome = true → (a.run c).timer.isSome = true)) := by
  have hsame : ∀ {d : Ctl} {p : Prop}, d.state = c.state →
      (c.timer.isSome = true → d.timer.isSome = true) →
      d.state = .idle ∨ d.state = .connected
        ∨ d.state ≠ .disconnecting ∧ d.timer.isSome = true ∨ p
        ∨ d.state = c.state
          ∧ (a = .expire ∨ (c.timer.isSome = true → d.timer.isSome = true)) :=
    fun hstate htimer => .inr (.inr (.inr (.inr ⟨hstate, .inr htimer⟩)))
  have harmed : ∀ {st : RTW88State} {ms : Nat} {p q r : Prop},
      st ≠ .disconnecting →
      p ∨ q ∨ st ≠ .disconnecting ∧ (some ms).isSome = true ∨ r :=
    fun hne => .inr (.inr (.inl ⟨hne, rfl⟩))
  cases a with
  | quiet => exact hsame rfl id
  | power on => exact hsame rfl id
  | agree token => exact hsame rfl id
  | delba => exact hsame rfl id
  | rekey => exact hsame rfl fun _ => rfl
  | ready =>
      by_cases h : c.state = .disconnecting
      · exact .inl (if_pos h)
      · exact hsame (if_neg h) id
  | expire => exact .inr (.inr (.inr (.inr ⟨rfl, .inl rfl⟩)))
  | connect => exact .inr (.inr (.inr (.inl rfl)))
  | scan ms => exact harmed RTW88State.noConfusion
  | authWrite => exact harmed RTW88State.noConfusion
  | associate => exact harmed RTW88State.noConfusion
  | handshake alloc => exact harmed RTW88State.noConfusion
  | openLink alloc ask => exact .inr (.inl (Ctl.aggregate_state _ _))
  | linkUp ask => exact .inr (.inl (Ctl.aggregate_state _ _))
  | dropHandshake => exact .inl (Ctl.disconnect_state _)
  | disconnect => exact .inl (Ctl.disconnect_state _)
  | endScan => exact .inl rfl
  | giveUp => exact .inl rfl
  | powerDown => exact .inl rfl
  | release => exact .inl rfl
  | refuse => exact .inl rfl
  | deauth => exact .inl rfl
  | stop => exact .inl rfl

-- =============================================================== activations

theorem enterConnect_ne_nil (n : Nat) (auths : List AuthThread) :
    enterConnect n auths ≠ [] := by
  rw [enterConnect]
  split
  next h =>
    obtain ⟨t, ht, -⟩ := List.any_eq_true.1 h
    simpa using List.ne_nil_of_mem ht
  next => simp

private theorem runConnect_enters {ssid : Option (List UInt8)}
    (password : List UInt8) {s : Sys}
    (h : connectAct ssid s.mlme = .connect) :
    (runConnect ssid password s).auths ≠ [] := by
  obtain ⟨hidle, n, rfl, hfind⟩ := connectAct_connect h
  have hok : (connectTo (some n) password s.mlme).2.1 = true := by
    obtain ⟨b, hb⟩ := Option.isSome_iff_exists.1 hfind
    simp only [connectTo, hidle, bssList_releaseSta_clearKeys, hb]
    rfl
  simp only [runConnect, hok, if_true]
  exact enterConnect_ne_nil _ _

/-- A `cmdConnect` that finds its target leaves an activation behind. -/
private theorem connect_enters {s : Sys} {e : Event}
    (h : s.act hw e = .connect) : (sysStep hw s e).auths ≠ [] := by
  have hguard := @Sys.act_guard hw s e
  rw [h] at hguard
  cases e with
  | cmdConnect ssid password =>
      have hact : connectAct ssid s.mlme = .connect := h
      have hidle := (connectAct_connect hact).1
      simp only [sysStep, hidle]
      exact runConnect_enters password hact
  | resume i env =>
      cases hi : s.waiters[i]? with
      | none =>
          simp only [Sys.act, hi] at h
          cases h
      | some w =>
          simp only [Sys.act, hi] at h
          simp only [sysStep, resumeWait, hi]
          split at h
          · cases h
          next hwait =>
            rw [if_neg hwait]
            obtain ⟨cmd, ret, turn⟩ := w
            cases cmd with
            | powerOff => cases h
            | connect ssid password =>
                simp only [waiterAct] at h
                split at h
                · cases h
                next hok =>
                  simp only [runWaiter]
                  rw [if_pos (by simpa using hok)]
                  apply runConnect_enters
                  split at h
                  · split at h <;> cases h
                  · exact h
  | _ => cases hguard.1.choose_spec.1

/-- An activation is there as long as its final write is to come. -/
private theorem auths_stay {s : Sys} {e : Event} (hup : s.mlme.up = true)
    (h : s.auths ≠ []) (hfin : s.finishing e = none) :
    (sysStep hw s e).auths ≠ [] := by
  cases e with
  | auth i env scanning =>
      simp only [sysStep, stepAuth]
      cases ht : s.auths[i]? with
      | none => exact h
      | some t =>
          have hpc : t.pc ≠ .finish := fun hpc => by
            simp [Sys.finishing, ht, hpc] at hfin
          have hgoes : ∃ pc,
              (doAuthenticate hw env scanning t.pc s.mlme).1 = some pc := by
            cases hpc' : t.pc with
            | entry => simp [doAuthenticate, hup]
            | waitScan n =>
                simp only [doAuthenticate]
                split <;> exact ⟨_, rfl⟩
            | settle => simp [doAuthenticate, hup]
            | transmit => exact ⟨_, rfl⟩
            | finish => exact absurd hpc' hpc
          obtain ⟨pc, hgo⟩ := hgoes
          simpa [hgo, setThread] using h
  | cmdConnect ssid password =>
      simp only [sysStep, runConnect]
      split
      · exact h
      · split
        · exact enterConnect_ne_nil _ _
        · exact h
  | cmdPowerOff env =>
      simp only [sysStep]
      split <;> exact h
  | resume i env =>
      simp only [sysStep, resumeWait]
      split
      · exact h
      next w _ =>
        split
        · exact h
        · obtain ⟨cmd, ret, turn⟩ := w
          cases cmd with
          | powerOff => exact h
          | connect ssid password =>
              simp only [runWaiter, runConnect]
              split
              · split
                · exact enterConnect_ne_nil _ _
                · exact h
              · exact h
  | rx env skb =>
      simp only [sysStep, addPending]
      split <;> exact h
  | deliver i env =>
      simp only [sysStep, deliverNext]
      split
      · exact h
      · split <;> exact h
  | timer env =>
      simp only [sysStep, fireTimer]
      split
      · exact h
      · split
        · simp
        · exact h
  | reorderTimer =>
      simp only [sysStep, fireReorderTimer]
      split <;> exact h
  | scan i env =>
      simp only [sysStep, stepScan]
      split <;> exact h
  | _ => exact h

-- ==================================================================== result

/-- The final write of an activation sets its deadline. -/
private theorem finishing_act {s : Sys} {e : Event} {t : AuthThread}
    (h : s.finishing e = some t) : s.act hw e = .authWrite := by
  cases e with
  | auth i env scanning => simp only [Sys.act, h]
  | _ => cases h

/-- A deadline that passes without effect on the phase leaves someone to
end it. -/
private theorem expire_minded {s : Sys} (h : Minded s) (env : Env)
    (hdue : s.timerDue = true) (hact : timerAct s.mlme = .expire)
    (hstate : (sysStep hw s (.timer env)).mlme.state = s.mlme.state)
    (hup : s.mlme.up = true) : (sysStep hw s (.timer env)).minded := by
  have hphase := h.phase hup
  have hfires : (s.mlme.timer.isNone || s.auths.any (·.onTimer)) = false := by
    rw [Sys.timerDue] at hdue
    revert hdue
    cases s.mlme.timer <;> cases s.auths.any (·.onTimer) <;> simp
  rw [Sys.minded, hstate]
  rw [Sys.minded] at hphase
  rw [timerAct] at hact
  cases hst : s.mlme.state with
  | idle => trivial
  | connected => trivial
  | disconnecting => rw [hst] at hphase; exact hphase
  | associating => rw [hst] at hact; cases hact
  | handshaking => rw [hst] at hact; cases hact
  | scanning =>
      -- the manual scan is asked to stop, and has its thread to do so
      rw [hst] at hact
      simp only at hact
      split at hact
      next hcount =>
        refine .inr (scans_stay (h.counted hcount) (.inr ?_) h.links)
        rw [hstate, hst]
      next => cases hact
  | authenticating =>
      -- the retry starts
      have hretry : (onTimer hw env s.mlme.cancelTimer).1 = true := by
        show (onTimer hw env { s.mlme with timer := none }).1 = true
        simp only [onTimer, hst]
      refine .inr ?_
      simp only [sysStep, fireTimer, hfires, hretry, Bool.false_eq_true,
        if_false, if_true]
      simp

theorem Minded.step {s : Sys} (h : Minded s) (e : Event) :
    Minded (sysStep hw s e) := by
  refine ⟨sysStep_noLinkScan h.links e, counted_step h e, fun hup => ?_⟩
  have hctl := @sysStep_ctl hw s h.links e
  have hstate : (sysStep hw s e).mlme.state
      = ((s.act hw e).run (ctl s.mlme)).state := congrArg Ctl.state hctl
  have htimer : (sysStep hw s e).mlme.timer
      = ((s.act hw e).run (ctl s.mlme)).timer := congrArg Ctl.timer hctl
  have hwas : s.mlme.up = true :=
    Act.run_up ((congrArg Ctl.up hctl).symm.trans hup)
  rcases (s.act hw e).run_phase with
    hrest | hrest | ⟨hne, harmed⟩ | hconn | ⟨hsame, hexp | hkeep⟩
  · rw [Sys.minded, hstate, hrest]
    trivial
  · rw [Sys.minded, hstate, hrest]
    trivial
  · rw [← htimer] at harmed
    rw [← hstate] at hne
    rw [Sys.minded]
    cases hst : (sysStep hw s e).mlme.state with
    | idle => trivial
    | connected => trivial
    | disconnecting => exact hne hst
    | scanning => exact .inl harmed
    | authenticating => exact .inl harmed
    | associating => exact harmed
    | handshaking => exact harmed
  · have hst : (sysStep hw s e).mlme.state = .authenticating := by
      rw [hstate, hconn]
      rfl
    rw [Sys.minded, hst]
    exact .inr (connect_enters hconn)
  · -- the deadline passed
    have hguard := @Sys.act_guard hw s e
    rw [hexp] at hguard
    cases e with
    | timer env =>
        have hdue : s.timerDue = true := hguard.2
        have hact : timerAct s.mlme = .expire := by
          simpa only [Sys.act, hdue, if_true] using hexp
        exact expire_minded h env hdue hact (hstate.trans hsame) hwas
    | _ => cases hguard.1
  · -- the phase goes on
    have hphase := h.phase hwas
    have hsame' : (sysStep hw s e).mlme.state = s.mlme.state :=
      hstate.trans hsame
    have hkeep' : s.mlme.timer.isSome = true →
        (sysStep hw s e).mlme.timer.isSome = true :=
      fun ht => htimer ▸ hkeep ht
    rw [Sys.minded] at hphase ⊢
    rw [hsame']
    cases hst : s.mlme.state with
    | idle => trivial
    | connected => trivial
    | disconnecting => rw [hst] at hphase; exact hphase
    | associating => rw [hst] at hphase; exact hkeep' hphase
    | handshaking => rw [hst] at hphase; exact hkeep' hphase
    | scanning =>
        rw [hst] at hphase
        rcases hphase with ht | hscans
        · exact .inl (hkeep' ht)
        · exact .inr (scans_stay hscans (.inr (hsame'.trans hst)) h.links)
    | authenticating =>
        rw [hst] at hphase
        rcases hphase with ht | hauths
        · exact .inl (hkeep' ht)
        · cases hfin : s.finishing e with
          | none => exact .inr (auths_stay hwas hauths hfin)
          | some t =>
              refine .inl ?_
              rw [htimer, finishing_act hfin]
              rfl

theorem Minded.run (powered : Bool) (es : List Event) :
    Minded (sysRun hw powered es) :=
  runFrom_inv (fun _ e h => h.step e) (Minded.init powered) es

/-- In every state of every run with the driver up, a phase that is not
at rest has a deadline pending, or a thread at work on it: a scan its
scan thread, an authentication its activation; an association and a
handshake have their deadline. -/
theorem never_stranded (powered : Bool) (es : List Event)
    (hup : (sysRun hw powered es).mlme.up = true) :
    (sysRun hw powered es).minded := (Minded.run powered es).phase hup

/-- A scan in software whose deadline has passed: its thread is there. -/
theorem sample_never_stranded :
    let s := sysRun manualHw true [.cmdScan {}, .timer {}]
    s.mlme.state = .scanning ∧ s.mlme.timer = none ∧ s.minded :=
  ⟨by decide +kernel, by decide +kernel,
    never_stranded true _ (by decide +kernel)⟩

-- ====================================================== the scan thread ends

/-- How many stretches a scan thread has left, but the last: at most
three a channel, and at most 256 channels. -/
def ScanPc.left : ScanPc → Nat
  | .entry => 769
  | .chan i count _ => 3 * (count - i)
  | .leave _ i count => 3 * (count - (i + 1)) + 2
  | .dwell i count _ => 3 * (count - (i + 1)) + 1

/-- The stretches the foremost scan thread has left. -/
def Sys.scanLeft (s : Sys) : Nat :=
  match s.scans with
  | [] => 0
  | pc :: _ => pc.left

/-- The foremost scan thread goes on. -/
def Event.runsScan : Event → Bool
  | .scan 0 _ => true
  | _ => false

/-- Every stretch but the last brings the thread nearer to its end. -/
theorem runManualScan_left_lt {pc pc' : ScanPc} {s : Mlme}
    (h : (runManualScan hw env pc s).1 = some pc') : pc'.left < pc.left := by
  cases pc with
  | entry =>
      simp only [runManualScan] at h
      split at h
      · cases h
      · cases h
        simp only [ScanPc.left]
        omega
  | chan i count connectedScan =>
      simp only [runManualScan] at h
      split at h
      next hgo =>
        have hlt : i < count := by
          rw [Bool.and_eq_true, decide_eq_true_eq] at hgo
          exact hgo.1
        split at h
        · cases h
          simp only [ScanPc.left]
          omega
        · split at h <;>
            (cases h
             simp only [ScanPc.left]
             omega)
      next => cases h
  | leave chan i count =>
      cases h
      exact Nat.lt_succ_self _
  | dwell i count connectedScan =>
      cases h
      exact Nat.lt_succ_self _

/-- No thread has more to do than one that was just entered. -/
private theorem scans_bounded {s : Sys} (h : ∀ pc ∈ s.scans, pc.left ≤ 769)
    (e : Event) : ∀ pc ∈ (sysStep hw s e).scans, pc.left ≤ 769 := by
  by_cases hscan : ∃ i env, e = .scan i env
  · obtain ⟨i, env, rfl⟩ := hscan
    simp only [sysStep, stepScan]
    cases hpc : s.scans[i]? with
    | none => exact h
    | some pc =>
        have hle := h pc (List.mem_of_getElem? hpc)
        intro u hu
        cases hnext : (runManualScan hw env pc s.mlme).1 with
        | none =>
            simp only [hnext, setThread] at hu
            exact h u (List.mem_of_mem_eraseIdx hu)
        | some pc' =>
            have hlt := runManualScan_left_lt hnext
            simp only [hnext, setThread] at hu
            rcases List.mem_or_eq_of_mem_set hu with hu | rfl
            · exact h u hu
            · omega
  · rw [sysStep_scans fun i env he => hscan ⟨i, env, he⟩]
    intro u hu
    have henter : ∀ l : List ScanPc, u ∈ enterScan l → u ∈ l ∨ u = .entry := by
      intro l hl
      rw [enterScan] at hl
      split at hl
      · exact .inl hl
      · simpa using hl
    split at hu
    · rcases henter _ hu with hu | rfl
      · exact h u hu
      · exact le_rfl
    · exact h u hu

/-- An event leaves the foremost thread no more to do, or ends the scan. -/
private theorem scanLeft_step {s : Sys} (e : Event)
    (h : NoLinkScan s ∧ s.scans ≠ []) :
    (sysStep hw s e).mlme.state ≠ .scanning
      ∨ (NoLinkScan (sysStep hw s e) ∧ (sysStep hw s e).scans ≠ [])
        ∧ (sysStep hw s e).scanLeft + (if e.runsScan then 1 else 0)
          ≤ s.scanLeft := by
  obtain ⟨hlinks, hne⟩ := h
  by_cases hst : (sysStep hw s e).mlme.state = .scanning
  · refine .inr ⟨⟨sysStep_noLinkScan hlinks e,
      scans_stay hne (.inr hst) hlinks⟩, ?_⟩
    obtain ⟨pc, rest, hscans⟩ := List.exists_cons_of_ne_nil hne
    by_cases hscan : ∃ i env, e = .scan i env
    · obtain ⟨i, env, rfl⟩ := hscan
      cases i with
      | zero =>
          -- its own stretch
          revert hst
          simp only [sysStep, stepScan, hscans, List.getElem?_cons_zero]
          cases hnext : (runManualScan hw env pc s.mlme).1 with
          | none =>
              exact fun hst =>
                absurd hst (runManualScan_left hlinks.ret hnext)
          | some pc' =>
              have hlt := runManualScan_left_lt hnext
              intro _
              simp only [Sys.scanLeft, hscans, setThread,
                List.set_cons_zero, Event.runsScan]
              exact hlt
      | succ i =>
          simp only [sysStep, stepScan, hscans, List.getElem?_cons_succ]
          cases rest[i]? with
          | none => simp [Sys.scanLeft, hscans, Event.runsScan]
          | some pc' =>
              cases hnext : (runManualScan hw env pc' s.mlme).1 with
              | none => simp [Sys.scanLeft, hscans, Event.runsScan, setThread,
                  hnext]
              | some pc'' =>
                  simp [Sys.scanLeft, hscans, Event.runsScan, setThread, hnext]
    · have hother : ∀ i env, e ≠ .scan i env :=
        fun i env he => hscan ⟨i, env, he⟩
      have hquiet : e.runsScan = false := by
        cases e with
        | scan i env => exact absurd rfl (hother i env)
        | _ => rfl
      have hhead : (sysStep hw s e).scanLeft = s.scanLeft := by
        have hkeeps : ∃ rest', (sysStep hw s e).scans = pc :: rest' := by
          rw [sysStep_scans hother, hscans, enterScan]
          split
          · split <;> exact ⟨_, rfl⟩
          · exact ⟨rest, rfl⟩
        obtain ⟨rest', hrest⟩ := hkeeps
        rw [Sys.scanLeft, Sys.scanLeft, hrest, hscans]
      rw [hhead, hquiet]
      exact le_rfl
  · exact .inl hst

/-- A scan thread that gets to run ends its scan: 770 stretches, with
anything in between, and SCANNING has been left. -/
theorem scan_thread_ends (powered : Bool) (es fs : List Event)
    (hthread : (sysRun hw powered es).scans ≠ [])
    (hruns : 770 ≤ fs.countP Event.runsScan) :
    ∃ gs, gs <+: fs
      ∧ (sysRun hw powered (es ++ gs)).mlme.state ≠ .scanning := by
  have hlinks : NoLinkScan (sysRun hw powered es) :=
    (Minded.run powered es).links
  have hbound : (sysRun hw powered es).scanLeft ≤ 769 := by
    have hall : ∀ pc ∈ (sysRun hw powered es).scans, pc.left ≤ 769 :=
      runFrom_inv (I := fun s : Sys => ∀ pc ∈ s.scans, pc.left ≤ 769)
        (fun _ e h => scans_bounded h e) (fun _ h => by cases h) es
    obtain ⟨pc, rest, hscans⟩ := List.exists_cons_of_ne_nil hthread
    rw [Sys.scanLeft, hscans]
    exact hall pc (hscans ▸ List.mem_cons_self)
  obtain ⟨gs, hgs, hend⟩ := runFrom_reaches
    (I := fun s : Sys => NoLinkScan s ∧ s.scans ≠ [])
    (P := fun s : Sys => s.mlme.state ≠ .scanning) (m := Sys.scanLeft)
    (fun _ e h _ => scanLeft_step e h) ⟨hlinks, hthread⟩
    (Nat.lt_of_le_of_lt hbound hruns)
  exact ⟨gs, hgs, by rw [sysRun, runFrom_append]; exact hend⟩

/-- The sample's scan in software, left to its thread. -/
theorem sample_scan_ends :
    ∃ gs, gs <+: List.replicate 770 (Event.scan 0 {})
      ∧ (sysRun manualHw true ([.cmdScan {}] ++ gs)).mlme.state
        ≠ .scanning :=
  scan_thread_ends true [.cmdScan {}] _ (by decide +kernel)
    (by rw [List.countP_replicate]; exact le_rfl)

end Rtw88
