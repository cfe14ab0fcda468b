/-
What the frame paths do to the link: `outputPacket` and its packet
number, management frames, and the deliveries of data frames.

The guards of a move are the tests in front of the call; `EapolAllowed`
collects what the handshake may do with one EAPOL body.

A protected frame is on the trail with its packet number, which is read
off the CCMP header that was built into it (`ccmpPn_dataFrame`); so the
move of a transmission says which number went out, and not only that the
counter moved.
-/
import Rtw88.Proofs.Link.Refine
import Rtw88.Proofs.Reorder.Members

namespace Rtw88

variable {hw : Hw} {env : Env} {P : Allow}

-- ============================================================ transmission

/-- A protected data frame: an 802.11 header with the Protected bit, and
right behind it the CCMP header. -/
theorem dataFrame_split (m : List UInt8) (seq : UInt16) (k : KeyConf)
    (pn : Bytes 6) (s : Mlme) :
    ∃ hdr rest, dataFrame hw m seq (some k) pn s
        = hdr ++ (ccmpHdr pn k.keyidx ++ rest)
      ∧ hdrlen (frameControl hdr) = hdr.length ∧ 2 ≤ hdr.length
      ∧ hasProtected (frameControl hdr) = true := by
  have hle : ∀ x y : UInt8, ∀ rest : List UInt8,
      frameControl (x :: y :: rest) = x.toUInt16 ||| (y.toUInt16 <<< 8) :=
    fun _ _ _ => rfl
  simp only [dataFrame, Option.isSome_some, if_true]
  cases htAllowed s with
  | true =>
      simp only [if_true, List.append_assoc]
      rw [← List.append_assoc (hdr3addr _ _ _ _ _)]
      refine ⟨_, _, rfl, ?_, by simp, ?_⟩ <;>
        simp only [hdr3addr, le16, List.cons_append, hle]
      · simp [hdrlen]
        decide
      · decide
  | false =>
      simp only [Bool.false_eq_true, if_false, List.nil_append,
        List.append_assoc]
      refine ⟨_, _, rfl, ?_, by simp, ?_⟩ <;>
        simp only [hdr3addr, le16, List.cons_append, hle]
      · simp [hdrlen]
        decide
      · decide

/-- The first two bytes decide the frame control word. -/
theorem frameControl_append {hdr : List UInt8} (h : 2 ≤ hdr.length)
    (rest : List UInt8) : frameControl (hdr ++ rest) = frameControl hdr := by
  rw [frameControl, frameControl, le16At, le16At,
    peek_append_left (by omega), peek_append_left (by omega)]

/-- The packet number a protected frame carries. -/
theorem ccmpPn_dataFrame (m : List UInt8) (seq : UInt16) (k : KeyConf)
    (pn : Bytes 6) (s : Mlme) :
    ccmpPn (dataFrame hw m seq (some k) pn s) = leVal pn.toList := by
  obtain ⟨hdr, rest, heq, hlen, hge, _⟩ :=
    @dataFrame_split hw m seq k pn s
  have hpeek : ∀ i < 8, peek (hdr ++ (ccmpHdr pn k.keyidx ++ rest))
      (hdr.length + i) = peek (ccmpHdr pn k.keyidx) i := by
    intro i hi
    rw [peek_append_right (by omega), Nat.add_sub_cancel_left,
      peek_append_left (by simpa [ccmpHdr] using hi)]
  have h0 := hpeek 0 (by omega)
  rw [Nat.add_zero] at h0
  rw [heq]
  simp only [ccmpPn, frameControl_append hge, hlen, h0,
    hpeek 1 (by omega), hpeek 4 (by omega), hpeek 5 (by omega),
    hpeek 6 (by omega), hpeek 7 (by omega)]
  obtain ⟨l, hl⟩ := pn
  match l, hl with
  | [a, b, c, d, e, f], _ => rfl

/-- `outputPacket`, when no scan runs from a link. -/
theorem outputPacket_moves {s : Mlme} {m : List UInt8}
    (hret : s.scanReturnState = .idle)
    (hwrap : protects env m s = true →
      leVal s.ccmpTxPn.toList + 1 = 2 ^ 48 → P.pnWrap)
    (hlost : protects env m s = true → s.ccmpTxPn = zeros 6 →
      14 < m.length → env.payloadCopy = false → P.lostPn) :
    Moves hw P (view s) (view (outputPacket hw env m s).2) := by
  simp only [outputPacket]
  split
  · exact .refl
  next hgate =>
    have hstate : s.state = .connected := by
      simp only [hret] at hgate
      by_contra hne
      simp [hne] at hgate
    have hup : s.up = true := by
      cases hu : s.up with
      | true => rfl
      | false => simp [hu] at hgate
    cases hkey : txKey (be16At m 12) s with
    | none => exact .none (view_txDataFrame_plain hkey)
    | some k =>
        -- a key means WPA2, and the key is the installed one
        have hwpa : s.wpa2 = true ∧ s.ptkConf = some k := by
          rw [txKey] at hkey
          split at hkey
          next hw2 =>
            simp only [Bool.and_eq_true] at hw2
            exact ⟨hw2.1, hkey⟩
          next => cases hkey
        rw [txDataFrame]
        cases hsta : s.sta with
        | none => exact .refl
        | some sta =>
            simp only
            split
            next => exact .refl
            next hargs =>
              have hprot : protects env m s = true := by
                simp only [Bool.or_eq_true, Bool.not_eq_true', not_or,
                  Bool.not_eq_false, decide_eq_true_eq] at hargs
                simp [protects, hstate, hup, hsta, hkey, hargs]
              have hcnt : view (txCounters (some k) s)
                  = { view s with pn := nextPn (view s).pn } := by
                rw [view_txCounters]
                rfl
              simp only [hkey]
              split
              next hcopy =>
                simp only [Bool.and_eq_true, Bool.not_eq_true',
                  decide_eq_true_eq] at hcopy
                rw [hcnt]
                exact .one (.lostPn (view s) k hstate hwpa.2 (hwrap hprot)
                  fun hzero => hlost hprot hzero hcopy.1 hcopy.2)
              next =>
                have hpn : (txCounters (some k) s).ccmpTxPn
                    = nextPn s.ccmpTxPn := congrArg Link.pn hcnt
                rw [view_emit_on _ _ (by simp [Obs.onTrail]), hcnt]
                refine .one (.protect (view s) _ k hstate hwpa.1 hwpa.2 rfl
                  ?_ (hwrap hprot))
                rw [ccmpPn_dataFrame, hpn]
                rfl

-- ============================================================= association

theorem doAssociate_moves {s : Mlme} (h : s.state = .authenticating) :
    Moves hw P (view s) (view (doAssociate hw env s)) := by
  rw [doAssociate]
  split
  · exact .refl
  · have hbuild : view (buildAssocReq hw s).2 = view s := rfl
    simp only [view_armTimer, view_setState, view_txMgmtFrame, hbuild]
    exact .one (.assocReq _ h)

/-- The station entry after `addSta`, and what the driver heard. -/
theorem addSta_spec (aid : UInt16) (s : Mlme) :
    ∃ sta added next, StaAfter (view s) sta added next
      ∧ view (addSta hw env aid s) = { view s with
          sta := sta, next := next, trail := added ++ (view s).trail } := by
  rw [addSta]
  split
  · exact ⟨(view s).sta, [], (view s).next, .keep, rfl⟩
  next hnew =>
    have hnone : (view s).sta = none := by
      cases hs : s.sta with
      | none => exact hs
      | some sta => simp [hs] at hnew
    refine ⟨_, _, _, .add (newSta hw aid s) hnone, ?_⟩
    rw [view_emit_on _ _ (by simp [Obs.onTrail])]
    rfl

/-- An accepted association, in ASSOCIATING. -/
theorem enterLink_moves {s : Mlme} (h : s.state = .associating)
    (hP : P.assoc) (aid : UInt16) :
    Moves hw P (view s) (view (enterLink hw env
      (notifyAssoc aid (addSta hw env aid s)))) := by
  obtain ⟨sta, added, next, hsta, hview⟩ :=
    @addSta_spec hw env aid s
  have hpmk : ∀ t : Mlme, view (setPmk hw t) = { view t with
      pmk := derivePMK hw.prims (view t).password
        (view t).target.ssid.toList (view t).target.ssidLen.toNat } :=
    fun _ => rfl
  have hassoc : view ((notifyAssoc aid (addSta hw env aid s)).emit
      .associated) = { view s with
        sta := sta, bssAssoc := true, cfgAssoc := true, next := next
        trail := .associated :: .bssInfoChanged true
          :: (added ++ (view s).trail) } := by
    rw [view_emit_on _ _ rfl, view_notifyAssoc, hview]
  have hwpa2 : ((notifyAssoc aid (addSta hw env aid s)).emit
      .associated).wpa2 = s.wpa2 := congrArg Link.wpa2 hassoc
  rw [enterLink]
  cases hwpa : s.wpa2 with
  | true =>
      simp only [hwpa2, hwpa, if_true]
      rw [view_armTimer, hpmk, view_setState, hassoc]
      exact .one (.handshake (view s) sta added next h hP hsta hwpa)
  | false =>
      simp only [hwpa2, hwpa, Bool.false_eq_true, if_false]
      rw [view_cancelTimer, view_startTxAggregation,
        view_emit_off _ _ (by simp [Obs.onTrail]), view_setState, hassoc]
      exact .one (.openLink (view s) sta added next h hP hsta hwpa)

/-- `_state = RTW88_STATE_IDLE` alone. -/
theorem fallIdle_moves (s : Mlme) :
    Moves hw P (view s) (view (s.setState .idle)) := by
  rw [view_setState]
  exact .one (.idle _ _ (.inr rfl))

theorem processAssocResponse_moves {s : Mlme} {skb : SkBuff}
    (h : s.state = .associating) (hP : assocOk env skb s = true → P.assoc) :
    Moves hw P (view s) (view (processAssocResponse hw env skb s)) := by
  have hfree := @Moves.none hw P _ _ (view_kfreeSkb skb s)
  rw [processAssocResponse]
  split
  · exact hfree
  next hbssid =>
    simp only
    split
    · exact hfree.trans (fallIdle_moves _)
    next hshort =>
      split
      · exact hfree.trans (fallIdle_moves _)
      next hstatus =>
        have hok : assocOk env skb s = true := by
          simp only [assocOk, not_not.1 hbssid, not_not.1 hstatus]
          simpa using hshort
        have hview : ∀ aid, view (setAid aid (kfreeSkb skb s)) = view s :=
          fun aid => by rw [view_setAid, view_kfreeSkb]
        generalize le16At (env.freed.getD skb.mem) 28 &&& 0x3FFF = aid
        refine (Moves.none (hview aid)).trans (enterLink_moves ?_ (hP hok) aid)
        exact (congrArg Link.state (hview aid)).trans h

-- =============================================================== BlockAck

theorem handleBackAction_moves {s : Mlme} (h : s.state = .connected)
    (b : List UInt8) :
    Moves hw P (view s) (view (handleBackAction hw env b s)) := by
  have hrx : ∀ (t : Mlme) (rx : RxBa SkBuff), t.state = .connected →
      (∀ Q : SkBuff → Prop, t.rxBa.All Q → rx.All Q) →
      Moves hw P (view t) { view t with rxBa := rx } :=
    fun t rx ht hall => .one (.rxBa _ rx (.inl ht) fun Q _ => hall Q)
  have htx : ∀ b, Moves hw P (view s) (view (setTxBa b s)) := by
    intro b
    rw [view_setTxBa]
    exact .one (.txBa _ b fun _ => h)
  rw [handleBackAction]
  split
  · exact .refl
  · split
    · split
      · exact .refl
      · simp only [view_sendAddbaResponse, Mlme.rxBaSetup, view_kfreeAll]
        exact hrx s _ h fun Q hold => rxBaSetup_all hold _ _ _ _
    · split
      · split
        · exact .refl
        · simp only
          split
          · exact htx true
          · exact .refl
      · split
        · split
          · exact .refl
          · simp only
            generalize hoff : (if (!(le16At b 2 &&& 0x0800 != 0)
                && ((le16At b 2 >>> 12) &&& 0xf).toUInt8 == baTid) = true
              then setTxBa false s else s) = t
            have hmove : Moves hw P (view s) (view t)
                ∧ t.state = .connected := by
              rw [← hoff]
              split
              · exact ⟨htx false, h⟩
              · exact ⟨.refl, h⟩
            refine hmove.1.trans ?_
            split
            · rw [view_rxBaTeardown, ← rxBaTeardown_rxBa]
              exact hrx t _ hmove.2 fun Q hold => rxBaTeardown_all hold _
            · exact .refl
        · exact .refl

end Rtw88
