/-
The reported link status follows the connection from the first report on,
in the runs in which no link ends in silence: `link_follows_iff`.

`RTW88PCIDevice::setupMediumDict` reports a status once, at attach, before
any event of the system; every later report is in the log.

The invariant is on the control side (Spec/Control.lean): where the last
report says active there is a link, and where there is a link it says so.
An action that makes a link reports it, and of those that end one most do
(`Ctl.disconnect_link`). The rest are the `SilentEnd`s. The result is an
equivalence, so for these it is proved that the status is wrong
afterwards (`silentEnd_breaks`), and not only that it might be.

The status of the attach is active while there is no connection yet, and
until the first report nothing corrects it; that is why the result speaks
of the states in which something was reported.
-/
import Rtw88.Spec.AccessPoint
import Rtw88.Proofs.Control.Guards

namespace Rtw88

-- =============================================================== vocabulary

/-- `setupMediumDict` reports `kIONetworkLinkActive` with
`kIONetworkLinkValid`. -/
def attachStatus : Bool := true

/-- The last status given to `setLinkStatus` has `kIONetworkLinkActive`. -/
def Mlme.linkActive (s : Mlme) : Bool :=
  ((s.log.findSome? Obs.linkStatus).getD attachStatus)

/-- A status was reported since attach. -/
def Mlme.reported (s : Mlme) : Bool :=
  (s.log.findSome? Obs.linkStatus).isSome

/-- There is a link: CONNECTED, or a scan from there. -/
def Mlme.linked (s : Mlme) : Prop :=
  s.state = .connected
    ∨ (s.state = .scanning ∧ s.scanReturnState = .connected)

/-- The link status follows the connection. -/
def LinkFollows (s : Mlme) : Prop := s.linkActive = true ↔ s.linked

/-- The event takes the link away and reports nothing: in CONNECTED, the
final write of `doAuthenticate`, or a `stop` with the hardware off. -/
def SilentEnd (s : Sys) (e : Event) : Prop :=
  s.mlme.state = .connected
    ∧ ((s.finishing e).isSome = true
      ∨ (e.isStop = true ∧ s.mlme.powered = false))

variable {hw : Hw}

-- ============================================================ the invariant

/-- The link is reported active where there is one, and only there. -/
structure StatusInv (s : Sys) : Prop where
  scans : NoLinkScan s
  up : s.mlme.state.joining = true → s.mlme.up = true
  status : (ctl s.mlme).link = some true ↔ s.mlme.state = .connected

theorem StatusInv.init (powered : Bool) : StatusInv (Sys.init powered) where
  scans := NoLinkScan.init powered
  up _ := rfl
  status := ⟨fun h => (by cases h), fun h => (by cases h)⟩

/-- No scan returns to a link, so a link is CONNECTED. -/
theorem NoLinkScan.linked_iff {s : Sys} (h : NoLinkScan s) :
    s.mlme.linked ↔ s.mlme.state = .connected := by
  rw [Mlme.linked, h.ret]
  simp

/-- In a state of the invariant the status follows the connection when it
was reported, and only then. -/
theorem StatusInv.follows_iff {s : Sys} (h : StatusInv s) :
    LinkFollows s.mlme ↔ s.mlme.reported = true := by
  have hstatus := h.status
  have hlink : (ctl s.mlme).link = s.mlme.log.findSome? Obs.linkStatus := rfl
  rw [LinkFollows, h.scans.linked_iff, ← hstatus, Mlme.linkActive,
    Mlme.reported, ← hlink]
  cases (ctl s.mlme).link with
  | none => simp [attachStatus]
  | some b => simp

/-- `doDisconnect` with the driver up reports the end of the link. -/
theorem Ctl.disconnect_link {c : Ctl} (h : c.up = true) :
    c.disconnect.link = some false := by
  rw [Ctl.disconnect, h]
  rfl

/-- Every event keeps the status and the connection together, unless it
ends the link in silence. -/
theorem StatusInv.step {s : Sys} {e : Event} (h : StatusInv s)
    (hloud : ¬SilentEnd s e) : StatusInv (sysStep hw s e) := by
  refine ⟨sysStep_noLinkScan h.scans e, sysStep_joining h.scans h.up, ?_⟩
  have hctl := @sysStep_ctl hw s h.scans e
  have hguard := @Sys.act_guard hw s e
  have hstate : (sysStep hw s e).mlme.state = _ := congrArg Ctl.state hctl
  have hc : (ctl s.mlme).link = some true ↔ (ctl s.mlme).state = .connected :=
    h.status
  rw [hctl, hstate]
  -- an action from elsewhere to elsewhere
  have haway : ∀ {st st' : RTW88State} {l : Option Bool},
      s.mlme.state = st → st ≠ .connected → l = (ctl s.mlme).link →
      st' ≠ .connected → (l = some true ↔ st' = .connected) := by
    intro st st' l hst hne hlink hstate'
    have hno : (ctl s.mlme).link ≠ some true := fun heq =>
      hne (hst.symm.trans (hc.1 heq))
    rw [hlink]
    exact ⟨fun heq => absurd heq hno, fun heq => absurd heq hstate'⟩
  -- an end of the link that is reported
  have hdisc : ∀ c : Ctl, c.link = (ctl s.mlme).link →
      c.up = (ctl s.mlme).up → (c.disconnect.link = some true ↔ False) := by
    intro c hlink hup
    refine ⟨fun heq => ?_, False.elim⟩
    cases hu : c.up with
    | true =>
        rw [Ctl.disconnect_link hu] at heq
        cases heq
    | false =>
        have hsame : c.disconnect.link = c.link := by
          rw [Ctl.disconnect, hu]
          rfl
        have hconn := hc.1 (hlink.symm.trans (hsame.symm.trans heq))
        have hon : (ctl s.mlme).up = true :=
          h.up (by rw [show s.mlme.state = _ from hconn]; rfl)
        rw [← hup, hu] at hon
        cases hon
  cases hact : s.act hw e with
  | quiet => exact hc
  | power on => exact hc
  | expire => exact hc
  | rekey => exact hc
  | agree token => exact hc
  | delba => exact hc
  | ready =>
      simp only [Act.run]
      split
      next hst =>
        exact haway hst (by simp) rfl (by simp)
      next hst => exact hc
  | scan ms =>
      rw [hact] at hguard
      exact haway hguard (by simp) rfl (by simp [Act.run])
  | endScan =>
      rw [hact] at hguard
      exact haway hguard (by simp) rfl (by simp [Act.run])
  | giveUp =>
      rw [hact] at hguard
      rcases hguard.2.2 with hst | hst <;>
        exact haway hst (by simp) rfl (by simp [Act.run])
  | release =>
      rw [hact] at hguard
      rcases hguard with hst | hst <;>
        exact haway hst (by simp) (Ctl.release_link _) (by simp [Act.run])
  | connect =>
      rw [hact] at hguard
      rcases hguard.2 with hst | hst <;>
        exact haway hst (by simp) (Ctl.release_link _) (by simp [Act.run])
  | associate =>
      rw [hact] at hguard
      exact haway hguard.1 (by simp) rfl (by simp [Act.run])
  | refuse =>
      rw [hact] at hguard
      rcases hguard with hst | hst <;>
        exact haway hst (by simp) rfl (by simp [Act.run])
  | handshake alloc =>
      rw [hact] at hguard
      exact haway hguard (by simp) rfl (by simp [Act.run])
  | authWrite =>
      rw [hact] at hguard
      have hne : s.mlme.state ≠ .connected := fun hst =>
        hloud ⟨hst, .inl hguard⟩
      exact haway rfl hne rfl (by simp [Act.run])
  | openLink alloc ask => simp [Act.run]
  | linkUp ask => simp [Act.run]
  | deauth => simp [Act.run]
  | powerDown => simp [Act.run]
  | dropHandshake =>
      simp only [Act.run, Ctl.disconnect_state]
      rw [hdisc { ctl s.mlme with timer := none } rfl rfl]
      simp
  | disconnect =>
      simp only [Act.run, Ctl.disconnect_state]
      rw [hdisc _ rfl rfl]
      simp
  | stop =>
      rw [hact] at hguard
      simp only [Act.run]
      split
      next =>
        rw [hdisc { ctl s.mlme with timer := none } rfl rfl]
        simp
      next hno =>
        have hne : s.mlme.state ≠ .connected := by
          intro hst
          refine hloud ⟨hst, .inr ⟨hguard, ?_⟩⟩
          have hst' : (ctl s.mlme).state = .connected := hst
          have hoff : (ctl s.mlme).powered = false := by
            simpa [hst'] using hno
          exact hoff
        exact haway rfl hne (Ctl.release_link _) (by simp)

/-- An event that ends the link in silence leaves it reported active. -/
private theorem silentEnd_breaks {s : Sys} {e : Event} (h : StatusInv s)
    (hsilent : SilentEnd s e) :
    (sysStep hw s e).mlme.reported = true
      ∧ ¬LinkFollows (sysStep hw s e).mlme := by
  have hctl := @sysStep_ctl hw s h.scans e
  have hscans := @sysStep_noLinkScan hw s h.scans e
  obtain ⟨hst, hend⟩ := hsilent
  have hactive := h.status.2 hst
  -- the state goes, the status stays
  suffices hboth : ((s.act hw e).run (ctl s.mlme)).link = some true
      ∧ ((s.act hw e).run (ctl s.mlme)).state ≠ .connected by
    have hlink : (sysStep hw s e).mlme.log.findSome? Obs.linkStatus
        = some true := (congrArg Ctl.link hctl).trans hboth.1
    have hstate : (sysStep hw s e).mlme.state ≠ .connected := fun heq =>
      hboth.2 ((congrArg Ctl.state hctl).symm.trans heq)
    refine ⟨by rw [Mlme.reported, hlink]; rfl, fun hfollows => ?_⟩
    rw [LinkFollows, hscans.linked_iff, Mlme.linkActive, hlink] at hfollows
    exact hstate (hfollows.1 rfl)
  rcases hend with hfin | ⟨hstop, hoff⟩
  · cases e with
    | auth i env scanning =>
        obtain ⟨t, ht⟩ := Option.isSome_iff_exists.1 hfin
        have hact : s.act hw (.auth i env scanning) = .authWrite := by
          simp only [Sys.act, ht]
        rw [hact]
        exact ⟨hactive, by simp [Act.run]⟩
    | _ => cases hfin
  · cases e with
    | stop env =>
        have hoff' : (ctl s.mlme).powered = false := hoff
        have hact : s.act hw (.stop env) = .stop := rfl
        rw [hact]
        simp only [Act.run, hoff', Bool.and_false, Bool.false_eq_true,
          if_false, Ctl.release_link]
        exact ⟨hactive, by simp⟩
    | _ => cases hstop

-- ==================================================================== result

/-- In every state a run reaches the status follows the connection exactly
when one was reported since attach, if and only if no event of the run
ends the link in silence. -/
theorem link_follows_iff (powered : Bool) (es : List Event) :
    Along (sysStep hw) (fun s e => LinkFollows (sysStep hw s e).mlme
          ↔ (sysStep hw s e).mlme.reported = true) (Sys.init powered) es
      ↔ Along (sysStep hw) (fun s e => ¬SilentEnd s e)
        (Sys.init powered) es := by
  apply along_iff_of_inv (I := StatusInv) _ (fun s e h hloud => h.step hloud)
    (StatusInv.init powered)
  intro s e h
  refine ⟨fun hiff hsilent => ?_, fun hloud => (h.step hloud).follows_iff⟩
  obtain ⟨hrep, hno⟩ := @silentEnd_breaks hw s e h hsilent
  exact hno (hiff.2 hrep)

/-- At attach the link is reported active, and there is none; and the
activation of `doAuthenticate` that the responses have overtaken ends the
link of the open sample network in silence. -/
theorem attach_and_leftover_active :
    let hw := sampleHw samplePrims
    let es := scanEvents [] ++ authEvents.dropLast
      ++ [.rx {} (authFrame sampleMac sampleAp 0),
          .rx {} (assocFrame sampleMac sampleAp 0), .auth 0 {} false]
    ¬LinkFollows (sysRun hw true []).mlme
      ∧ ¬LinkFollows (sysRun hw true es).mlme := by
  intro hw es
  have hidle : ∀ s : Mlme, s.linkActive = true →
      s.state = .idle ∨ s.state = .authenticating → ¬LinkFollows s := by
    intro s hactive hst h
    rcases h.1 hactive with hconn | ⟨hscan, -⟩
    · rcases hst with hst | hst <;> (rw [hst] at hconn; cases hconn)
    · rcases hst with hst | hst <;> (rw [hst] at hscan; cases hscan)
  exact ⟨hidle _ rfl (.inl rfl),
    hidle _ (by decide +kernel) (.inr (by decide +kernel))⟩

end Rtw88
