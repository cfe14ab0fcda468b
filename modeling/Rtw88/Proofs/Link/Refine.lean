/-
Every function of the source moves the link as `Move` says.

One lemma a function, in the order of the source: from `view s` to the
view of its result is a chain of moves. A function whose equation is in
Proofs/Link/View.lean contributes its one move; a function that calls
others is the chain of theirs. The guards of the moves are the tests on
the way to the call.

The handshake is the long part. The M3 branch installs two keys, and may
stop between them when the driver or the allocator refuses one: what it
has done by then stays done. So `M3Allowed`, which lets the branch go on,
has to be carried over each of its steps (`M3Allowed.keep`), and what an
installation leaves is stated for both answers (`installPairwise_moves`).
-/
import Rtw88.Proofs.Link.View
import Rtw88.Spec.Steps

namespace Rtw88

variable {hw : Hw} {env : Env} {P : Allow}

/-- One move. -/
theorem Moves.one {v w : Link} (h : Move hw P v w) : Moves hw P v w :=
  Relation.ReflTransGen.single h

/-- A function that leaves the link alone is the empty chain. -/
theorem Moves.none {v w : Link} (h : w = v) : Moves hw P v w := by
  rw [h]

-- ================================================== leaving an association

/-- `_state = _scanReturnState = RTW88_STATE_IDLE`. -/
theorem setIdle_moves (s : Mlme) :
    Moves hw P (view s) (view s.setIdle) := by
  rw [view_setIdle]
  exact .one (.idle _ _ (.inl rfl))

theorem clearKeys_moves {s : Mlme} (h : s.state = .idle) :
    Moves hw P (view s) (view (clearKeys s)) := by
  rw [view_clearKeys]
  exact .one (.clear _ h)

theorem releaseSta_moves (s : Mlme) :
    Moves hw P (view s) (view (releaseSta s)) := by
  cases h : s.sta with
  | none => exact .none (by rw [releaseSta_none h])
  | some sta =>
      rw [view_releaseSta_some h]
      refine .one (.dropSta _ sta _ h ?_)
      cases hup : s.up with
      | false => exact .inl rfl
      | true => exact .inr rfl

/-- Going IDLE commutes with letting the station go. -/
theorem view_releaseSta_setIdle (s : Mlme) :
    view (releaseSta s).setIdle = view (releaseSta s.setIdle) := by
  cases h : s.sta with
  | none =>
      have h' : s.setIdle.sta = none := h
      rw [releaseSta_none h, releaseSta_none h']
  | some sta =>
      have h' : s.setIdle.sta = some sta := h
      rw [view_setIdle, view_releaseSta_some h, view_releaseSta_some h']
      rfl

/-- The notice of the end of an association. -/
theorem bssNotify_moves (s : Mlme) :
    Moves hw P (view s)
      (view ((clearBssAssoc s).emit (.bssInfoChanged false))) := by
  rw [view_emit_on _ _ rfl, view_clearBssAssoc]
  exact .one (.bssNotify _)

theorem doDisconnect_moves (s : Mlme) :
    Moves hw P (view s) (view (doDisconnect hw env s)) := by
  rw [doDisconnect]
  split
  · exact setIdle_moves s
  · -- the same writes, with the state first
    have hfirst : view (clearKeys s.setIdle)
        = view (txMgmtFrame env (deauthFrame hw (clearKeys s))
          (clearKeys s)).setIdle := by
      rw [view_setIdle, view_txMgmtFrame, view_clearKeys, view_clearKeys,
        view_setIdle]
    have hclear : Moves hw P (view s) (view (txMgmtFrame env
        (deauthFrame hw (clearKeys s)) (clearKeys s)).setIdle) := by
      rw [← hfirst]
      exact (setIdle_moves s).trans (clearKeys_moves rfl)
    simp only
    rw [view_emit_off _ _ (by simp [Obs.onTrail]), view_cancelTimer,
      view_releaseSta_setIdle]
    exact hclear.trans ((bssNotify_moves _).trans (releaseSta_moves _))

theorem leaveOnDeauth_moves (s : Mlme) :
    Moves hw P (view s) (view (leaveOnDeauth s)) := by
  have hdown : view (leaveOnDeauth s)
      = { view (clearKeys s.setIdle) with
          txBaActive := false, rxBa := RxBa.empty } := by
    rw [leaveOnDeauth, view_emit_off _ _ (by simp [Obs.onTrail]),
      view_setIdle, view_rxBaTeardownAll, view_setTxBa, view_clearKeys,
      view_clearKeys]
    rfl
  rw [hdown]
  exact ((setIdle_moves s).trans (clearKeys_moves rfl)).tail (.baDown _)

/-- `clearKeys` and `releaseSta` on the way to IDLE. -/
theorem releaseAll_moves (s : Mlme) :
    Moves hw P (view s) (view (releaseSta (clearKeys s)).setIdle) := by
  have hfirst : view (clearKeys s).setIdle = view (clearKeys s.setIdle) := by
    rw [view_setIdle, view_clearKeys, view_clearKeys, view_setIdle]
  have hclear : Moves hw P (view s) (view (clearKeys s).setIdle) := by
    rw [hfirst]
    exact (setIdle_moves s).trans (clearKeys_moves rfl)
  rw [view_releaseSta_setIdle]
  exact hclear.trans (releaseSta_moves _)

theorem finishPowerOff_moves (s : Mlme) :
    Moves hw P (view s) (view (finishPowerOff hw env s)) := by
  have hoff : ∀ t : Mlme,
      view ((powerOff t).setIdle.emit (.setLinkStatus false))
        = view t.setIdle := by
    intro t
    rw [view_emit_off _ _ (by simp [Obs.onTrail]), view_setIdle,
      view_powerOff, view_setIdle]
  rw [finishPowerOff]
  simp only [hoff]
  split
  · exact (doDisconnect_moves s).trans (setIdle_moves _)
  · exact releaseAll_moves s

theorem stop_moves (hP : P.stop) (s : Mlme) :
    Moves hw P (view s) (view (stop hw env s)) := by
  have hoff : ∀ t : Mlme, view (setDown (if !t.up then t
      else (if t.powered then setPowered false (t.emit .hwStop)
        else t).emit .removeInterface).setIdle)
      = { view t.setIdle with up := false } := by
    intro t
    rw [view_setDown, view_setIdle, view_setIdle]
    split
    · rfl
    · split <;> simp [Obs.onTrail]
  rw [stop]
  simp only [hoff]
  refine Relation.ReflTransGen.tail ?_ (.down _ hP)
  split
  · exact (doDisconnect_moves s.cancelTimer).trans (setIdle_moves _)
  · exact releaseAll_moves s.cancelTimer

-- ================================================================ handshake

/-- The end of a key is no packet. -/
theorem pnsUnder_freed (tk : List UInt8) (k : Option KeyConf)
    (log : List Obs) : pnsUnder tk (freed k ++ log) = pnsUnder tk log := by
  cases k <;> rfl

/-- A step of the M3 branch that sends nothing protected and keeps the
PTK leaves the M3 allowed. -/
theorem M3Allowed.keep {v w : Link} (h : M3Allowed P v)
    (hstate : w.state = v.state) (hptk : w.ptk = v.ptk)
    (htrail : ∀ tk, pnsUnder tk w.trail = pnsUnder tk v.trail) :
    M3Allowed P w where
  state := hstate.trans h.state
  zero hz := h.zero (hptk.symm.trans hz)
  fresh hused := h.fresh (by rwa [hptk, htrail] at hused)

/-- The old key of a slot is gone, and the M3 is still allowed. -/
private theorem dropPtkConf_moves {s : Mlme} (h : M3Allowed P (view s)) :
    Moves hw P (view s) (view (dropPtkConf (disableKey s.ptkConf s)))
      ∧ M3Allowed P (view (dropPtkConf (disableKey s.ptkConf s))) := by
  rw [view_dropPtkConf, view_disableKey]
  exact ⟨.one (.dropPairwise _ h),
    h.keep rfl rfl fun tk => pnsUnder_freed tk _ _⟩

private theorem dropGtkConf_moves {s : Mlme} (h : M3Allowed P (view s)) :
    Moves hw P (view s) (view (dropGtkConf (disableKey s.gtkConf s)))
      ∧ M3Allowed P (view (dropGtkConf (disableKey s.gtkConf s))) := by
  rw [view_dropGtkConf, view_disableKey]
  exact ⟨.one (.dropGroup _ h),
    h.keep rfl rfl fun tk => pnsUnder_freed tk _ _⟩

/-- A key that the driver refuses is freed. -/
private theorem refusedKey_moves {s : Mlme} (h : M3Allowed P (view s))
    {key : KeyConf} (haddr : key.addr = s.nextAddr) (set : Bool) :
    Moves hw P (view s)
      (view ((s.bumpAddr.emit (.setKey key set)).emit
        (.freeKey key.addr))) := by
  rw [view_emit_on _ _ rfl, view_emit_off _ _ (by simp [Obs.onTrail]),
    view_bumpAddr, haddr]
  exact .one (.refusedKey _ h)

/-- `installKey` on the pairwise slot: the moves, and on success the key
that is in place with the M3 still allowed. -/
theorem installPairwise_moves {s : Mlme} (h : M3Allowed P (view s))
    (alloc set : Bool) :
    Moves hw P (view s) (view (installPairwise alloc set 0 cipherCcmp
        (tkOf s.ptk).toList s).2)
      ∧ ((installPairwise alloc set 0 cipherCcmp (tkOf s.ptk).toList s).1
        = true → ∃ k, (view (installPairwise alloc set 0 cipherCcmp
            (tkOf s.ptk).toList s).2).ptkConf = some k
          ∧ k.key = (tkOf (view (installPairwise alloc set 0 cipherCcmp
            (tkOf s.ptk).toList s).2).ptk).toList
          ∧ M3Allowed P (view (installPairwise alloc set 0 cipherCcmp
            (tkOf s.ptk).toList s).2)) := by
  rw [installPairwise]
  split
  · exact ⟨.refl, fun hf => by cases hf⟩
  · obtain ⟨hdrop, h'⟩ := @dropPtkConf_moves hw _ _ h
    have hptk : (view (dropPtkConf (disableKey s.ptkConf s))).ptk
        = s.ptk := by
      rw [view_dropPtkConf, view_disableKey]
      rfl
    simp only
    generalize dropPtkConf (disableKey s.ptkConf s) = t at hdrop h' hptk ⊢
    split
    · exact ⟨hdrop, fun hf => by cases hf⟩
    · split
      · exact ⟨hdrop.trans (refusedKey_moves h' rfl set),
          fun hf => by cases hf⟩
      · rw [view_setPtkConf, view_emit_off _ _ (by simp [Obs.onTrail]),
          view_bumpAddr]
        refine ⟨hdrop.tail (.setPairwise (view t) _ h' ?_ rfl),
          fun _ => ⟨_, rfl, ?_, h'.keep rfl rfl fun _ => rfl⟩⟩
        · rw [hptk]
          rfl
        · simp only [hptk]
          rfl

theorem installGroup_moves {s : Mlme} (h : M3Allowed P (view s))
    (alloc set : Bool) (keyidx : UInt8) (cipher : UInt32)
    (tk : List UInt8) :
    Moves hw P (view s) (view (installGroup alloc set keyidx cipher tk s).2)
      ∧ M3Allowed P (view (installGroup alloc set keyidx cipher tk s).2)
      ∧ (view (installGroup alloc set keyidx cipher tk s).2).ptkConf
        = (view s).ptkConf
      ∧ (view (installGroup alloc set keyidx cipher tk s).2).ptk
        = (view s).ptk := by
  rw [installGroup]
  split
  · exact ⟨.refl, h, rfl, rfl⟩
  · obtain ⟨hdrop, h'⟩ := @dropGtkConf_moves hw _ _ h
    have hsame : (view (dropGtkConf (disableKey s.gtkConf s))).ptkConf
          = (view s).ptkConf
        ∧ (view (dropGtkConf (disableKey s.gtkConf s))).ptk
          = (view s).ptk := by
      rw [view_dropGtkConf, view_disableKey]
      exact ⟨rfl, rfl⟩
    simp only
    generalize dropGtkConf (disableKey s.gtkConf s) = t at hdrop h' hsame ⊢
    split
    · exact ⟨hdrop, h', hsame⟩
    · split
      · refine ⟨hdrop.trans (refusedKey_moves h' rfl set), ?_, ?_⟩
        · rw [view_emit_on _ _ rfl, view_emit_off _ _ (by simp [Obs.onTrail])]
          exact h'.keep rfl rfl fun _ => rfl
        · rw [view_emit_on _ _ rfl, view_emit_off _ _ (by simp [Obs.onTrail])]
          exact hsame
      · rw [view_setGtkConf, view_emit_off _ _ (by simp [Obs.onTrail]),
          view_bumpAddr]
        exact ⟨hdrop.tail (.setGroup (view t) _ h' rfl),
          h'.keep rfl rfl fun _ => rfl, hsame⟩

/-- The M3 branch from the group key on, with the pairwise key in
place. -/
theorem acceptGtk_moves {s : Mlme} (h : M3Allowed P (view s)) {k : KeyConf}
    (hconf : (view s).ptkConf = some k)
    (hk : k.key = (tkOf (view s).ptk).toList)
    (keyData : List UInt8) :
    Moves hw P (view s) (view (acceptGtk hw env keyData s)) := by
  have hfinish : ∀ s' : Mlme, M3Allowed P (view s') →
      (view s').ptkConf = (view s).ptkConf → (view s').ptk = (view s).ptk →
      Moves hw P (view s') (view (finishM3 hw env s')) := by
    intro s' h' hconf' hptk'
    rw [view_finishM3]
    exact .one (.m3 _ k h' (hconf'.trans hconf) (hptk' ▸ hk))
  rw [acceptGtk]
  split
  · exact hfinish s h rfl rfl
  · next gtk idx _ =>
    split
    · exact hfinish s h rfl rfl
    · obtain ⟨hmove, h', hconf', hptk'⟩ := @installGroup_moves hw _ _ h
        env.groupAlloc env.groupSet idx (groupCipher s) gtk
      simp only
      split
      · exact hmove
      · exact hmove.trans (hfinish _ h' hconf' hptk')

/-- The M3 branch behind its checks. -/
theorem acceptM3_moves {s : Mlme} (h : M3Allowed P (view s))
    (data keyData : List UInt8) :
    Moves hw P (view s) (view (acceptM3 hw env data keyData s)) := by
  obtain ⟨hpair, hok⟩ := @installPairwise_moves hw P
    (setReplayCtr (grab data 9 8) s) h env.pairwiseAlloc env.pairwiseSet
  rw [acceptM3]
  split
  · exact hpair
  · next hset =>
    obtain ⟨k, hconf, hk, h'⟩ := hok (by simpa using hset)
    exact hpair.trans (acceptGtk_moves h' hconf hk keyData)

/-- What one EAPOL body may do to the handshake in this state. -/
structure EapolAllowed (hw : Hw) (env : Env) (P : Allow) (s : Mlme)
    (data : List UInt8) : Prop where
  zero : s.ptk = zeros 64 → VerifiedM3 hw env s.ptk data → P.zeroKey
  fresh : pnsUnder (tkOf s.ptk).toList s.log ≠ [] →
    VerifiedM3 hw env s.ptk data → P.reuseTk

/-- The trail has every packet number of the log. -/
theorem pnsUnder_trail (tk : List UInt8) (log : List Obs) :
    pnsUnder tk (log.filter Obs.onTrail) = pnsUnder tk log := by
  rw [pnsUnder, pnsUnder, List.filterMap_filter]
  refine List.filterMap_congr fun o _ => ?_
  cases o with
  | tx skb =>
      cases hk : skb.hwKey with
      | none => simp [Obs.onTrail, Obs.pnUnder, hk]
      | some k => simp [Obs.onTrail, hk]
  | _ => simp [Obs.pnUnder]

/-- `handleEAPOL`, in HANDSHAKING. -/
theorem handleEAPOL_moves {s : Mlme} {data : List UInt8}
    (hstate : s.state = .handshaking) (h : EapolAllowed hw env P s data) :
    Moves hw P (view s) (view (handleEAPOL hw env data s)) := by
  rw [handleEAPOL]
  cases hlen : eapolLen data with
  | none => exact .refl
  | some len =>
      simp only
      split
      next hm1 =>
        rw [view_handleM1]
        exact .one (.m1 _ _ _ hstate)
      next hm1 =>
        split
        next hm3 =>
          cases hv : m3Verified hw env s.ptk data len with
          | none => exact .refl
          | some keyData =>
              have hver : VerifiedM3 hw env s.ptk data :=
                ⟨len, hlen, by simpa using hm1, hm3, by simp [hv]⟩
              refine acceptM3_moves ⟨hstate, fun hz => h.zero hz hver,
                fun hused => h.fresh ?_ hver⟩ data keyData
              rw [← pnsUnder_trail]
              exact hused
        next => exact .refl

end Rtw88
