/-
What an association leaves behind when it ends.

`_vif->cfg.assoc` is set by an accepted association and by nothing
cleared: so an exit into IDLE leaves no trace exactly when no association
was ever accepted. Until then everything is clean (`FootInv.clean`), and
from then on the flag stays.

What is asked of a clean exit is more than the flag: no keys, no station
and as many removals as additions, no aggregation, no window, and a
notice to the driver that the association is over. All of that is read
off the trail and the fields in one invariant of the moves
(`Move.footInv`). A deauthentication is an exit that misses more than the
flag: it leaves the station (`deauth_leaves_sta`).
-/
import Rtw88.Proofs.Link.Step
import Rtw88.Spec.AccessPoint

namespace Rtw88

variable {hw : Hw} {env : Env} {P : Allow}

-- =============================================================== vocabulary

/-- What the driver was last told about the association. -/
def lastNotice : List Obs → Option Bool
  | [] => none
  | .bssInfoChanged assoc :: _ => some assoc
  | _ :: log => lastNotice log

/-- Nothing of an association is left: no keys, no station and as many
removals as additions of each, no aggregation either way, both assoc
flags down, and the driver was not last told of an association. -/
structure NoFootprint (s : Mlme) : Prop where
  ptkConf : s.ptkConf = none
  gtkConf : s.gtkConf = none
  sta : s.sta = none
  paired : ∀ addr, s.log.count (.staRemove addr) = s.log.count (.staAdd addr)
  txBa : s.txBaActive = false
  rxBa : ∀ tid, s.rxBa tid = none
  bssAssoc : s.vif.bssAssoc = false
  cfgAssoc : s.vif.cfgAssoc = false
  notified : lastNotice s.log ≠ some true

/-- The event leaves an association for IDLE. -/
def LeavesAssoc (hw : Hw) (s : Sys) (e : Event) : Prop :=
  (s.mlme.state = .associating ∨ s.mlme.state = .handshaking
      ∨ s.mlme.state = .connected)
    ∧ (sysStep hw s e).mlme.state = .idle

-- ================================================================ invariant

/-- Observations that only an association brings about. -/
def Obs.ofAssoc : Obs → Bool
  | .staAdd _ | .staRemove _ => true
  | .bssInfoChanged assoc => assoc
  | _ => false

/-- Before the first association there is no trace of one. -/
structure Clean (v : Link) : Prop where
  ptkConf : v.ptkConf = none
  gtkConf : v.gtkConf = none
  sta : v.sta = none
  txBa : v.txBaActive = false
  rxBa : ∀ tid, v.rxBa tid = none
  bssAssoc : v.bssAssoc = false
  trail : ∀ o ∈ v.trail, o.ofAssoc = false

/-- The assoc flag of `_vif->cfg` divides the run. -/
structure FootInv (v : Link) : Prop where
  clean : v.cfgAssoc = false → Clean v
  up : v.state = .handshaking ∨ v.state = .connected → v.cfgAssoc = true

/-- One more observation that is not an association's. -/
private theorem Clean.cons {v : Link} (h : Clean v) {o : Obs}
    (ho : o.ofAssoc = false) : ∀ o' ∈ o :: v.trail, o'.ofAssoc = false := by
  intro o' hmem
  rcases List.mem_cons.1 hmem with rfl | hmem
  · exact ho
  · exact h.trail o' hmem

/-- `FootInv` is an invariant of the moves. -/
theorem Move.footInv {v w : Link} (h : Move hw P v w) (hv : FootInv v) :
    FootInv w := by
  have hlinked : ∀ {st : RTW88State}, v.state = st →
      (st = .handshaking ∨ st = .connected) → v.cfgAssoc ≠ false := by
    intro st hst hup hfalse
    rw [hv.up (hst ▸ hup)] at hfalse
    cases hfalse
  cases h with
  | idle r hr =>
      exact ⟨fun hc => { hv.clean hc with }, fun hs => by simp at hs⟩
  | down hP => exact ⟨fun hc => { hv.clean hc with }, hv.up⟩
  | scanning hidle hP =>
      exact ⟨fun hc => { hv.clean hc with }, fun hs => by simp at hs⟩
  | entries l hl => exact ⟨fun hc => { hv.clean hc with }, hv.up⟩
  | connect target password hidle hptk hconf hmem hP =>
      exact ⟨fun hc => { hv.clean hc with trail := (hv.clean hc).cons rfl },
        fun hs => by simp at hs⟩
  | clear hidle =>
      refine ⟨fun hc => { hv.clean hc with
        ptkConf := rfl, gtkConf := rfl, trail := ?_ }, hv.up⟩
      simp only [(hv.clean hc).ptkConf, (hv.clean hc).gtkConf]
      exact (hv.clean hc).trail
  | dropSta sta told hsta htold =>
      refine ⟨fun hc => ?_, hv.up⟩
      rw [(hv.clean hc).sta] at hsta
      cases hsta
  | baDown =>
      exact ⟨fun hc => { hv.clean hc with txBa := rfl, rxBa := fun _ => rfl },
        hv.up⟩
  | txBa b hb =>
      refine ⟨fun hc => { hv.clean hc with txBa := ?_ }, hv.up⟩
      cases b with
      | false => rfl
      | true => exact absurd hc (hlinked (hb rfl) (.inr rfl))
  | rxBa rx hrx =>
      refine ⟨fun hc => { hv.clean hc with rxBa := fun tid => ?_ }, hv.up⟩
      rcases hrx with hconn | hrx
      · exact absurd hc (hlinked hconn (.inr rfl))
      · exact hrx tid ((hv.clean hc).rxBa tid)
  | inject f hP =>
      exact ⟨fun hc => { hv.clean hc with trail := (hv.clean hc).cons rfl },
        hv.up⟩
  | authWrite hP =>
      exact ⟨fun hc => { hv.clean hc with }, fun hs => by simp at hs⟩
  | assocReq hauth =>
      exact ⟨fun hc => { hv.clean hc with }, fun hs => by simp at hs⟩
  | bssDown =>
      exact ⟨fun hc => { hv.clean hc with bssAssoc := rfl }, hv.up⟩
  | bssNotify =>
      exact ⟨fun hc => { hv.clean hc with
        bssAssoc := rfl, trail := (hv.clean hc).cons rfl }, hv.up⟩
  | handshake sta added next hassoc hP hsta hwpa =>
      exact ⟨fun hc => (by cases hc), fun _ => rfl⟩
  | openLink sta added next hassoc hP hsta hwpa =>
      exact ⟨fun hc => (by cases hc), fun _ => rfl⟩
  | m1 anonce snonce hshake =>
      exact ⟨fun hc => absurd hc (hlinked hshake (.inl rfl)), hv.up⟩
  | dropPairwise h3 =>
      exact ⟨fun hc => absurd hc (hlinked h3.state (.inl rfl)), hv.up⟩
  | setPairwise k h3 hk haddr =>
      exact ⟨fun hc => absurd hc (hlinked h3.state (.inl rfl)), hv.up⟩
  | dropGroup h3 =>
      exact ⟨fun hc => absurd hc (hlinked h3.state (.inl rfl)), hv.up⟩
  | setGroup k h3 haddr =>
      exact ⟨fun hc => absurd hc (hlinked h3.state (.inl rfl)), hv.up⟩
  | refusedKey h3 =>
      exact ⟨fun hc => absurd hc (hlinked h3.state (.inl rfl)), hv.up⟩
  | m3 k h3 hconf hk =>
      exact ⟨fun hc => absurd hc (hlinked h3.state (.inl rfl)),
        fun _ => hv.up (.inl h3.state)⟩
  | protect skb k hconn hwpa hconf hkey hpn hwrap =>
      exact ⟨fun hc => absurd hc (hlinked hconn (.inr rfl)), hv.up⟩
  | lostPn k hconn hconf hwrap hlost =>
      exact ⟨fun hc => absurd hc (hlinked hconn (.inr rfl)), hv.up⟩

theorem FootInv.init (powered : Bool) : FootInv (view (Mlme.init powered))
    where
  clean _ := ⟨rfl, rfl, rfl, rfl, fun _ => rfl, rfl, fun _ h => by cases h⟩
  up hs := by rcases hs with hs | hs <;> cases hs

-- ============================================================ the assoc flag

/-- Only an accepted association touches `_vif->cfg.assoc`. -/
theorem Move.cfgAssoc {v w : Link} (h : Move hw P v w) (hP : ¬P.assoc) :
    w.cfgAssoc = v.cfgAssoc := by
  cases h with
  | handshake sta added next hassoc hok hsta hwpa => exact absurd hok hP
  | openLink sta added next hassoc hok hsta hwpa => exact absurd hok hP
  | _ => rfl

/-- The link is up, or waits for its handshake. -/
private theorem enterLink_state (s : Mlme) :
    (enterLink hw env s).state
      = if s.wpa2 then .handshaking else .connected := by
  have hemit : (s.emit .associated).wpa2 = s.wpa2 := rfl
  rw [enterLink]
  simp only [hemit]
  split
  · rfl
  · generalize ht : ((s.emit .associated).setState .connected).emit
      (.setLinkStatus true) = t
    have hview : (view (startTxAggregation hw env t).cancelTimer).state
        = .connected := by
      rw [view_cancelTimer, view_startTxAggregation, ← ht]
      rfl
    exact hview

/-- An accepted association does not end in IDLE. -/
theorem AcceptsAssoc.not_idle {s : Sys} {e : Event}
    (h : AcceptsAssoc s e) : (sysStep hw s e).mlme.state ≠ .idle := by
  obtain ⟨⟨env, skb⟩, hmgmt, hstype, hassoc, hok⟩ := h
  cases e with
  | rx env' skb' =>
      simp only [Option.mem_def, Event.mgmt] at hmgmt
      split at hmgmt
      next hfc =>
        obtain ⟨rfl, rfl⟩ := Prod.mk.inj (Option.some.inj hmgmt)
        have hmlme : (sysStep hw s (.rx env' skb')).mlme
            = processAssocResponse hw env' skb' s.mlme := by
          simp only [sysStep, rxFrame, hfc, if_true, processRxMgmt, addPending]
          rcases hstype with hstype | hstype <;>
            simp only at hstype <;> simp [hstype, hassoc]
        simp only [assocOk, Bool.and_eq_true, Bool.not_eq_true', beq_iff_eq,
          decide_eq_false_iff_not] at hok
        obtain ⟨⟨hbssid, hlong⟩, hstatus⟩ := hok
        rw [hmlme, processAssocResponse, if_neg (by simp [hbssid])]
        simp only
        rw [if_neg hlong, if_neg (by simp [hstatus]), enterLink_state]
        split <;> exact fun hs => by cases hs
      next => cases hmgmt
  | _ => cases hmgmt

-- =================================================================== exits

/-- A log without association observations pairs none with none. -/
private theorem NoFootprint.of_clean {s : Mlme} (h : Clean (view s))
    (hcfg : s.vif.cfgAssoc = false) : NoFootprint s := by
  have htrail : ∀ o ∈ s.log, o.onTrail = true → o.ofAssoc = false :=
    fun o hmem hon => h.trail o (List.mem_filter.2 ⟨hmem, hon⟩)
  refine ⟨h.ptkConf, h.gtkConf, h.sta, fun addr => ?_, h.txBa, h.rxBa,
    h.bssAssoc, hcfg, ?_⟩
  · have hadd : .staAdd addr ∉ s.log := fun hmem => by
      have hoff := htrail _ hmem rfl
      cases hoff
    have hremove : .staRemove addr ∉ s.log := fun hmem => by
      have hoff := htrail _ hmem rfl
      cases hoff
    rw [List.count_eq_zero_of_not_mem hadd,
      List.count_eq_zero_of_not_mem hremove]
  · have hnotice : ∀ log : List Obs,
        (∀ o ∈ log, o.onTrail = true → o.ofAssoc = false) →
        lastNotice log ≠ some true := by
      intro log
      induction log with
      | nil => exact fun _ hnil => by cases hnil
      | cons o log ih =>
          intro hall
          have hrest := ih fun o' hmem => hall o' (List.mem_cons_of_mem _ hmem)
          cases o with
          | bssInfoChanged assoc =>
              have hoff : assoc = false := hall _ List.mem_cons_self rfl
              rw [hoff]
              exact fun heq => by cases heq
          | _ => exact hrest
    exact hnotice s.log htrail

/-- In every run, an event that leaves an association for IDLE clears its
whole footprint if and only if `_vif->cfg.assoc` was not set before. -/
theorem leaving_clears_footprint_iff (powered : Bool) (es : List Event) :
    Along (sysStep hw)
      (fun s e => LeavesAssoc hw s e →
        (NoFootprint (sysStep hw s e).mlme ↔ s.mlme.vif.cfgAssoc = false))
      (Sys.init powered) es := by
  have hstep : ∀ s e, (NoLinkScan s ∧ FootInv (view s.mlme)) → True →
      (NoLinkScan (sysStep hw s e) ∧ FootInv (view (sysStep hw s e).mlme))
      ∧ (LeavesAssoc hw s e →
        (NoFootprint (sysStep hw s e).mlme
          ↔ s.mlme.vif.cfgAssoc = false)) := by
    intro s e hinv _
    have hnext := sysStep_inv Move.footInv hinv (Allowed.all hw s e)
    refine ⟨hnext, fun hleave => ?_⟩
    -- the event accepts no association, so the flag stays
    have hallowed : Allowed hw { Allow.all with assoc := False } s e :=
      { Allowed.all hw s e with
        assoc := fun hacc => hacc.not_idle hleave.2 }
    have hflag : (sysStep hw s e).mlme.vif.cfgAssoc
        = s.mlme.vif.cfgAssoc :=
      (sysStep_moves hinv.1 hallowed).inv
        (I := fun v => v.cfgAssoc = s.mlme.vif.cfgAssoc)
        (fun hmove hv => (hmove.cfgAssoc id).trans hv) rfl
    constructor
    · intro hclean
      rw [← hflag]
      exact hclean.cfgAssoc
    · intro hcfg
      have hcfg' := hflag.trans hcfg
      exact .of_clean (hnext.2.clean hcfg') hcfg'
  exact along_of_inv hstep ⟨NoLinkScan.init powered, FootInv.init powered⟩
    (Along.of_forall (fun _ _ => trivial) _ es)

/-- A deauthentication of the sample network leaves the station. -/
theorem deauth_leaves_sta :
    let hw := sampleHw samplePrims
    let s := sysRun hw true joinEvents
    let e := .rx {} (deauthFromAp sampleMac sampleAp)
    LeavesAssoc hw s e ∧ ¬NoFootprint (sysStep hw s e).mlme := by
  intro hw s e
  refine ⟨⟨by decide +kernel, by decide +kernel⟩, fun h => ?_⟩
  have hsta : (sysStep hw s e).mlme.sta ≠ none := by decide +kernel
  exact hsta h.sta

end Rtw88
