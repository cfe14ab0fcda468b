/-
Uplink aggregation is on only under our own agreement, where the dialog
token of a grant is minded: `minded_aggregation_agreed`.

The invariant is `UplinkInv`: aggregation implies the agreement, and what
was asked for or agreed to implies CONNECTED with a station entry, which
is what `releaseSta` needs to clear the flag.

# Where the flag can outlive the link

`releaseSta` clears the flag, but returns at once without a station; a
disconnect with the driver gone does not come to it. So an action that
ends a link and leaves the flag on did so without a station or without a
driver (`Ctl.txBa_of_release`, `Ctl.txBa_of_disconnect`), and neither is
a state with an agreement in it.

# What was asked

A request goes out when a link comes up and at no other time
(`Act.run_asked`), and the tokens are on the log. The source takes any
grant for an answer to it: an ADDBA response under a token that was
never sent turns the flag on too, which is what the last run shows and
what the condition excludes.
-/
import Rtw88.Proofs.Relay
import Rtw88.Spec.Uplink
import Rtw88.Spec.AccessPoint
import Rtw88.Proofs.Control.Guards

namespace Rtw88

variable {hw : Hw}

-- ============================================================== the actions

/-- A request goes out only at the start of a link. -/
theorem Act.run_asked (a : Act) (c : Ctl) :
    (a.run c).asked = c.asked
      ∨ ∃ d ask, (a.run c).asked = d :: c.asked ∧ ask = some true
        ∧ ((∃ alloc, a = .openLink alloc ask) ∨ a = .linkUp ask) := by
  have hagg : ∀ (ask : Option Bool) (d : Ctl), d.asked = c.asked →
      (d.aggregate ask).asked = c.asked
        ∨ ∃ t, (d.aggregate ask).asked = t :: c.asked ∧ ask = some true := by
    intro ask d hd
    cases ask with
    | none => exact .inl hd
    | some sent =>
        cases sent with
        | false => exact .inl hd
        | true => exact .inr ⟨_, congrArg _ hd, rfl⟩
  have hdisc : ∀ d : Ctl, d.asked = c.asked →
      d.disconnect.asked = c.asked := by
    intro d hd
    rw [Ctl.disconnect]
    split
    · exact hd
    · exact d.release_asked.trans hd
  cases a with
  | openLink alloc ask =>
      rcases hagg ask { c with
        hasSta := c.hasSta || alloc, state := .connected, link := some true
        timer := none } rfl with h | ⟨t, h, hask⟩
      · exact .inl h
      · exact .inr ⟨t, ask, h, hask, .inl ⟨alloc, rfl⟩⟩
  | linkUp ask =>
      rcases hagg ask { c with
        state := .connected, link := some true, timer := none } rfl
        with h | ⟨t, h, hask⟩
      · exact .inl h
      · exact .inr ⟨t, ask, h, hask, .inr rfl⟩
  | dropHandshake => exact .inl (hdisc _ rfl)
  | disconnect => exact .inl (hdisc c rfl)
  | powerDown =>
      left
      simp only [Act.run]
      split
      · exact hdisc c rfl
      · exact c.release_asked
  | stop =>
      left
      simp only [Act.run]
      split
      · exact hdisc _ rfl
      · exact Ctl.release_asked _
  | release => exact .inl c.release_asked
  | connect => exact .inl c.release_asked
  | _ => exact .inl rfl

/-- Where `releaseSta` leaves the flag on, there was no station. -/
theorem Ctl.txBa_of_release {c : Ctl} (h : c.release.txBa = true) :
    c.txBa = true ∧ c.hasSta = false := by
  rw [Ctl.release_txBa, Bool.and_eq_true, Bool.not_eq_true'] at h
  exact h

/-- Where `doDisconnect` does, the driver was down or there was no
station. -/
theorem Ctl.txBa_of_disconnect {c : Ctl} (h : c.disconnect.txBa = true) :
    c.txBa = true ∧ (c.up = true → c.hasSta = false) := by
  rw [Ctl.disconnect] at h
  split at h
  next hdown => exact ⟨h, fun hup => by simp [hup] at hdown⟩
  next =>
    obtain ⟨hba, hsta⟩ := Ctl.txBa_of_release h
    exact ⟨hba, fun _ => hsta⟩

-- ============================================================ the invariant

/-- What holds in every state reached when grants are minded. -/
structure UplinkInv (v : Uplink) : Prop where
  scans : NoLinkScan v.sys
  up : v.sys.mlme.state.joining = true → v.sys.mlme.up = true
  agreed : v.sys.mlme.txBaActive = true → v.agreed = true
  linked : v.agreed = true ∨ v.asked ≠ [] →
    v.sys.mlme.state = .connected ∧ v.sys.mlme.sta.isSome = true

theorem UplinkInv.init (powered : Bool) :
    UplinkInv (Uplink.init powered) where
  scans := NoLinkScan.init powered
  up _ := rfl
  agreed h := by cases h
  linked h := h.elim (fun h => by cases h) fun h => absurd rfl h

/-- Where aggregation is on after an event, it was granted by the event,
or it was on in the association that goes on. -/
private theorem step_flag {v : Uplink} {e : Event} (h : UplinkInv v)
    (hm : MindsAgreement hw v e)
    (hba : (sysStep hw v.sys e).mlme.txBaActive = true) :
    (sysStep hw v.sys e).mlme.state = .connected
      ∧ ((∃ token, v.sys.act hw e = .agree token)
        ∨ v.sys.mlme.txBaActive = true ∧ v.sys.act hw e ≠ .delba) := by
  have hctl := @sysStep_ctl hw v.sys h.scans e
  have hguard := @Sys.act_guard hw v.sys e
  have hflag := (congrArg Ctl.txBa hctl).symm.trans hba
  have hstate : (sysStep hw v.sys e).mlme.state = _ := congrArg Ctl.state hctl
  rw [hstate]
  -- where the flag was on, there is a link with a station
  have hon : v.sys.mlme.txBaActive = true → v.sys.mlme.state = .connected
      ∧ (ctl v.sys.mlme).up = true ∧ (ctl v.sys.mlme).hasSta = true := by
    intro hwas
    obtain ⟨hst, hsta⟩ := h.linked (.inl (h.agreed hwas))
    exact ⟨hst, h.up (by rw [hst]; rfl), hsta⟩
  have hclear : ∀ st : RTW88State, v.sys.mlme.txBaActive = true →
      v.sys.mlme.state = st → st = .connected := fun st hwas hst =>
    hst.symm.trans (hon hwas).1
  -- so `releaseSta` and `doDisconnect` clear it
  have hrel : ∀ c : Ctl, c.txBa = (ctl v.sys.mlme).txBa →
      c.hasSta = (ctl v.sys.mlme).hasSta → c.release.txBa = true → False := by
    intro c hba' hsta' hr
    obtain ⟨hwas, hno⟩ := Ctl.txBa_of_release hr
    have hsta := (hon (hba'.symm.trans hwas)).2.2
    rw [← hsta', hno] at hsta
    cases hsta
  have hdisc : ∀ c : Ctl, c.txBa = (ctl v.sys.mlme).txBa →
      c.up = (ctl v.sys.mlme).up → c.hasSta = (ctl v.sys.mlme).hasSta →
      c.disconnect.txBa = true → False := by
    intro c hba' hup' hsta' hr
    obtain ⟨hwas, hno⟩ := Ctl.txBa_of_disconnect hr
    obtain ⟨-, hup, hsta⟩ := hon (hba'.symm.trans hwas)
    rw [← hsta', hno (hup'.trans hup)] at hsta
    cases hsta
  cases hact : v.sys.act hw e with
  | agree token =>
      rw [hact] at hguard
      exact ⟨hguard, .inl ⟨token, rfl⟩⟩
  | delba => rw [hact] at hflag; cases hflag
  | deauth => rw [hact] at hflag; cases hflag
  | quiet =>
      rw [hact] at hflag
      exact ⟨(hon hflag).1, .inr ⟨hflag, by simp⟩⟩
  | power on =>
      rw [hact] at hflag
      exact ⟨(hon hflag).1, .inr ⟨hflag, by simp⟩⟩
  | expire =>
      rw [hact] at hflag
      exact ⟨(hon hflag).1, .inr ⟨hflag, by simp⟩⟩
  | ready =>
      rw [hact] at hflag
      have hst : (ctl v.sys.mlme).state = .connected := (hon hflag).1
      refine ⟨?_, .inr ⟨hflag, by simp⟩⟩
      simp only [Act.run, hst]
      rfl
  | scan ms =>
      rw [hact] at hguard hflag
      cases hclear _ hflag hguard
  | endScan =>
      rw [hact] at hguard hflag
      cases hclear _ hflag hguard
  | giveUp =>
      rw [hact] at hguard hflag
      rcases hguard.2.2 with hst | hst <;> cases hclear _ hflag hst
  | refuse =>
      rw [hact] at hguard hflag
      rcases hguard with hst | hst <;> cases hclear _ hflag hst
  | associate =>
      rw [hact] at hguard hflag
      cases hclear _ hflag hguard.1
  | handshake alloc =>
      rw [hact] at hguard hflag
      cases hclear _ hflag hguard
  | openLink alloc ask =>
      rw [hact] at hguard hflag
      simp only [Act.run, Ctl.aggregate_txBa] at hflag
      cases hclear _ hflag hguard.1
  | rekey =>
      rw [hact] at hguard hflag
      cases hclear _ hflag hguard
  | linkUp ask =>
      rw [hact] at hguard hflag
      simp only [Act.run, Ctl.aggregate_txBa] at hflag
      cases hclear _ hflag hguard.1
  | release =>
      rw [hact] at hguard hflag
      simp only [Act.run, Ctl.release_txBa, Bool.and_eq_true] at hflag
      rcases hguard with hst | hst <;> cases hclear _ hflag.1 hst
  | connect =>
      rw [hact] at hguard hflag
      simp only [Act.run, Ctl.release_txBa, Bool.and_eq_true] at hflag
      rcases hguard.2 with hst | hst <;> cases hclear _ hflag.1 hst
  | authWrite =>
      rw [hact] at hguard hflag
      have hoff := hm.settled hguard
      have hwas : v.sys.mlme.txBaActive = true := hflag
      rw [hoff] at hwas
      cases hwas
  | dropHandshake =>
      rw [hact] at hguard hflag
      cases hclear _ (Ctl.txBa_of_disconnect hflag).1 hguard.2.2
  | disconnect =>
      rw [hact] at hflag
      exact (hdisc _ rfl rfl rfl hflag).elim
  | powerDown =>
      rw [hact] at hflag
      simp only [Act.run] at hflag
      split at hflag
      · exact (hdisc _ rfl rfl rfl hflag).elim
      · exact (hrel _ rfl rfl hflag).elim
  | stop =>
      rw [hact] at hflag
      simp only [Act.run] at hflag
      split at hflag
      · exact (hdisc { ctl v.sys.mlme with timer := none } rfl rfl rfl
          hflag).elim
      · exact (hrel { ctl v.sys.mlme with timer := none } rfl rfl hflag).elim

/-- What is new among the requests. -/
private theorem newRequests_eq {s t : Mlme} {new : List UInt8}
    (h : requests t = new ++ requests s) : newRequests s t = new := by
  rw [newRequests, h, List.length_append, Nat.add_sub_cancel,
    List.take_left']
  rfl

/-- A request goes out at the start of a link, with a station. -/
private theorem step_requests {s : Sys} (h : NoLinkScan s) (e : Event) :
    newRequests s.mlme (sysStep hw s e).mlme = []
      ∨ s.mlme.state ≠ .connected
        ∧ (sysStep hw s e).mlme.sta.isSome = true := by
  have hctl := @sysStep_ctl hw s h e
  have hguard := @Sys.act_guard hw s e
  have hasked : requests (sysStep hw s e).mlme
      = ((s.act hw e).run (ctl s.mlme)).asked := congrArg Ctl.asked hctl
  have hsta : (sysStep hw s e).mlme.sta.isSome
      = ((s.act hw e).run (ctl s.mlme)).hasSta := congrArg Ctl.hasSta hctl
  rcases Act.run_asked (s.act hw e) (ctl s.mlme)
    with hsame | ⟨d, ask, -, hask, hact⟩
  · left
    apply newRequests_eq
    rw [hasked, hsame]
    rfl
  · right
    rw [hsta]
    rcases hact with ⟨alloc, hact⟩ | hact
    · rw [hact] at hguard ⊢
      refine ⟨fun hst => ?_, ?_⟩
      · rw [hguard.1] at hst
        cases hst
      · simp only [Act.run, Ctl.aggregate_hasSta]
        exact hguard.2 (by rw [hask]; rfl)
    · rw [hact] at hguard ⊢
      refine ⟨fun hst => ?_, ?_⟩
      · rw [hguard.1] at hst
        cases hst
      · simp only [Act.run, Ctl.aggregate_hasSta]
        exact hguard.2 (by rw [hask]; rfl)

/-- A station entry stays while the link does. -/
private theorem step_sta {v : Uplink} {e : Event} (h : UplinkInv v)
    (hst : (sysStep hw v.sys e).mlme.state = .connected)
    (hsta : v.sys.mlme.sta.isSome = true) :
    (sysStep hw v.sys e).mlme.sta.isSome = true := by
  have hctl := @sysStep_ctl hw v.sys h.scans e
  have hguard := @Sys.act_guard hw v.sys e
  have hstate := (congrArg Ctl.state hctl).symm.trans hst
  have hsta' : (ctl v.sys.mlme).hasSta = true := hsta
  refine (congrArg Ctl.hasSta hctl).trans ?_
  cases hact : v.sys.act hw e with
  | handshake alloc => simp [Act.run, hsta']
  | openLink alloc ask => simp [Act.run, hsta']
  | linkUp ask => simp [Act.run, hsta']
  | dropHandshake => rw [hact] at hstate; simp [Act.run] at hstate
  | disconnect => rw [hact] at hstate; simp [Act.run] at hstate
  | powerDown => rw [hact] at hstate; cases hstate
  | release => rw [hact] at hstate; cases hstate
  | connect => rw [hact] at hstate; cases hstate
  | stop => rw [hact] at hstate; cases hstate
  | _ => exact hsta'

theorem UplinkInv.step {v : Uplink} {e : Event} (h : UplinkInv v)
    (hm : MindsAgreement hw v e) : UplinkInv (uplinkStep hw v e) := by
  have hsys : (uplinkStep hw v e).sys = sysStep hw v.sys e := by
    rw [uplinkStep]
    split
    · rfl
    · split <;> rfl
  refine ⟨?_, ?_, fun hba => ?_, fun hghost => ?_⟩
  · rw [hsys]
    exact sysStep_noLinkScan h.scans e
  · rw [hsys]
    exact sysStep_joining h.scans h.up
  · -- the flag implies the agreement
    rw [hsys] at hba
    obtain ⟨hst, hsource⟩ := step_flag h hm hba
    have hnot : v.sys.endsAgreement hw e = false := by
      rw [Sys.endsAgreement]
      rcases hsource with ⟨token, hact⟩ | ⟨-, hne⟩
      · rw [hact]
        rfl
      · exact beq_eq_false_iff_ne.2 hne
    rw [uplinkStep, if_neg (not_not.2 hst), hnot, if_neg (by decide)]
    show (v.agreed || _) = true
    rcases hsource with ⟨token, hact⟩ | ⟨hwas, -⟩
    · cases hflag : v.sys.mlme.txBaActive with
      | true => rw [h.agreed hflag, Bool.true_or]
      | false =>
          have hgrant : v.sys.grants hw e = some token := by
            rw [Sys.grants, hact]
          have hin := hm.answers token hgrant hflag
          rw [hgrant]
          simp [hin]
    · rw [h.agreed hwas, Bool.true_or]
  · -- what is remembered belongs to a link with a station
    rw [hsys]
    by_cases hst : (sysStep hw v.sys e).mlme.state = .connected
    · refine ⟨hst, ?_⟩
      rcases @step_requests hw v.sys h.scans e with hnone | ⟨-, hsta⟩
      · -- nothing new, so something was remembered before
        have hold : v.agreed = true ∨ v.asked ≠ [] := by
          rw [uplinkStep, if_neg (not_not.2 hst)] at hghost
          split at hghost
          · simp [hnone] at hghost
          · rcases hghost with hagreed | hasked
            · simp only [Uplink.answered, Bool.or_eq_true] at hagreed
              rcases hagreed with hagreed | hany
              · exact .inl hagreed
              · right
                rintro hnil
                rw [hnil] at hany
                cases hg : v.sys.grants hw e <;> simp [hg] at hany
            · rw [hnone] at hasked
              exact .inr hasked
        exact step_sta h hst (h.linked hold).2
      · exact hsta
    · rw [uplinkStep, if_pos hst] at hghost
      simp at hghost

-- ==================================================================== result

/-- A data frame is tagged only while aggregation is on. -/
theorem txDataFrame_tagged {env : Env} {m : List UInt8} {s : Mlme}
    {skb : TxSkb}
    (h : (txDataFrame hw env m s).2.log = .tx skb :: s.log)
    (htag : skb.flags &&& txCtlAmpdu ≠ 0) : s.txBaActive = true := by
  -- a frame that is not sent leaves the log
  have hsent : ∀ t : Mlme, t.log = s.log → t.log ≠ .tx skb :: s.log := by
    intro t ht heq
    have hlen := congrArg List.length (ht.symm.trans heq)
    simp at hlen
  rcases @txDataFrame_outcome hw env m s with
    hout | hout | ⟨tx, seq, pn, s', hba, hout, -, -, hflags⟩
  · rw [hout] at h
    exact absurd h (hsent s rfl)
  · rw [hout] at h
    exact absurd h (hsent _ (txCounters_same _ s).1)
  · rw [hout] at h
    obtain rfl : tx = skb := Obs.tx.inj (List.cons.inj h).1
    rw [← hba]
    cases hactive : s'.txBaActive with
    | true => rfl
    | false =>
        rw [hactive, Bool.and_false] at hflags
        rw [hflags] at htag
        exact absurd rfl htag

/-- In every run whose grants are minded, in every state reached uplink
aggregation is on only under an agreement of the present association that
we asked for, and is off outside an association. -/
theorem minded_aggregation_agreed (powered : Bool) (es : List Event)
    (h : Along (uplinkStep hw) (MindsAgreement hw) (Uplink.init powered) es) :
    OwnAgreement hw (runFrom (uplinkStep hw) (Uplink.init powered) es) := by
  have hinv : UplinkInv (runFrom (uplinkStep hw) (Uplink.init powered) es) :=
    inv_of_along (fun _ _ hv hm => hv.step hm) (UplinkInv.init powered) h
  exact ⟨hinv.agreed,
    fun hba => (hinv.linked (.inl (hinv.agreed hba))).1,
    fun env m skb hsent htag => hinv.agreed (txDataFrame_tagged hsent htag)⟩

/-- A BlockAck action frame of the sample AP. -/
def backFrame (body : List UInt8) : SkBuff :=
  apFrame 0x00D0 sampleMac sampleAp ([categoryBack] ++ body)

/-- The sample network without encryption, on a chip with HT. -/
def htHw : Hw :=
  { sampleHw samplePrims with
    bands := fun b => if b = Band.ghz2
      then some { sampleBand with htCap := { htSupported := true } }
      else none }

def openEvents : List Event := scanEvents [] ++ assocEvents

/-- The request of the sample network is answered, and a DELBA follows. -/
theorem sample_aggregation_agreed :
    OwnAgreement htHw (runFrom (uplinkStep htHw) (Uplink.init true)
      (openEvents ++ [.rx {} (backFrame [actionAddbaResp, 1, 0, 0, 2, 16, 0, 0]),
        .rx {} (backFrame [actionDelba, 0, 0, 0, 0])])) :=
  minded_aggregation_agreed true _ (by decide +kernel)

/-- The AP grants under a dialog token that was never asked for. -/
theorem unasked_grant_taken :
    let v := runFrom (uplinkStep htHw) (Uplink.init true)
      (openEvents ++ [.rx {} (backFrame [actionAddbaResp, 9, 0, 0, 2, 16, 0, 0])])
    v.sys.mlme.txBaActive = true ∧ v.asked = [1]
      ∧ ¬OwnAgreement htHw v := by
  intro v
  refine ⟨by decide +kernel, by decide +kernel, fun h => ?_⟩
  have hagreed := h.agreed (by decide +kernel)
  revert hagreed
  decide +kernel

end Rtw88
