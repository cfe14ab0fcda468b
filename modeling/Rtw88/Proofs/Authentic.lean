/-
Key authenticity: what an accepted M3 says about `_ptk`, and that a
network classified as PSK-protected is joined with a key.

Both are readings of `KeyInv`. The first needs that the M3 branch keeps
`_ptk` and installs its temporal key; the second that `_wpa2` is set for
CCMP targets and no others, so a TKIP target falls through.

# The step of an M3

An M3 is checked and then handled in one event, and the handling writes
the replay counter, two keys and the state. `KeepsPtk` is what it leaves
alone: the PTK it was checked under, and the target. `LeavesM3` is what
it leaves behind: the pairwise key is the old one or the temporal key of
that PTK. With the invariant of the state before, the event accepted the
M3 under a PTK that an M1 of this attempt gave, or under the zeros it
started with.

# The counterparts

Both results have runs on the other side. An M3 that comes before any M1
is checked under the zeros, and anyone can make its MIC
(`forged_m3_accepted`). A network with a WPA element alone is classified
as PSK-protected, and joined without a key (`wpa_joined_in_clear`).
-/
import Rtw88.Proofs.KeyInv
import Rtw88.Spec.AccessPoint

namespace Rtw88

variable {hw : Hw} {env : Env}

-- ====================================================== the step of an M3

/-- An event that hands an EAPOL body to the handshake does to the link
what `handleEAPOL` does. -/
theorem view_sysStep_eapol {s : Sys} {e : Event} {data : List UInt8}
    (h : s.eapol e = some (env, data)) :
    view (sysStep hw s e).mlme = view (handleEAPOL hw env data s.mlme) := by
  rw [Sys.eapol] at h
  cases hd : s.delivers e with
  | none => rw [hd] at h; cases h
  | some x =>
      obtain ⟨env', skb⟩ := x
      simp only [hd] at h
      cases hmsdu : decap skb with
      | drop => rw [hmsdu] at h; cases h
      | amsdu msdus => rw [hmsdu] at h; cases h
      | single msdu =>
          simp only [hmsdu] at h
          split at h
          next heapol =>
            obtain ⟨rfl, rfl⟩ := Prod.mk.inj (Option.some.inj h)
            have hdeliver : view (deliverDataFrame hw env' skb s.mlme)
                = view (handleEAPOL hw env' msdu.payload s.mlme) := by
              simp only [deliverDataFrame, hmsdu]
              rw [if_pos heapol, view_kfreeSkb]
            rw [← hdeliver]
            cases e with
            | rx env skb' =>
                simp only [Sys.delivers] at hd
                split at hd
                next hgate =>
                  obtain ⟨rfl, rfl⟩ := Prod.mk.inj (Option.some.inj hd)
                  simp only [Bool.and_eq_true, Bool.not_eq_true',
                    Option.isNone_iff_eq_none] at hgate
                  obtain ⟨⟨⟨hmgmt, hdata⟩, hconn⟩, htid⟩ := hgate
                  simp [sysStep, rxFrame, hmgmt, hdata, processRxData, hconn,
                    htid, addPending]
                next => cases hd
            | deliver i env =>
                simp only [Sys.delivers] at hd
                cases hp : s.pending[i]? with
                | none => rw [hp] at hd; cases hd
                | some p =>
                    obtain ⟨out, needTimer⟩ := p
                    cases out with
                    | nil => simp [hp] at hd
                    | cons skb' rest =>
                        obtain ⟨rfl, rfl⟩ : env = env' ∧ skb' = skb := by
                          simpa [hp] using hd
                        simp [sysStep, deliverNext, hp]
            | _ => cases hd
          next => cases h

/-- Same PTK and PMK, same target, same `_wpa2`. -/
private def KeepsPtk (s t : Mlme) : Prop :=
  t.ptk = s.ptk ∧ t.pmk = s.pmk ∧ t.targetBSS = s.targetBSS
    ∧ t.wpa2 = s.wpa2

private theorem KeepsPtk.refl (s : Mlme) : KeepsPtk s s :=
  ⟨rfl, rfl, rfl, rfl⟩

private theorem KeepsPtk.trans {s t u : Mlme} (h : KeepsPtk s t)
    (h' : KeepsPtk t u) : KeepsPtk s u :=
  ⟨h'.1.trans h.1, h'.2.1.trans h.2.1, h'.2.2.1.trans h.2.2.1,
    h'.2.2.2.trans h.2.2.2⟩

/-- A link that differs in its keys, its state and its trail only. -/
private theorem KeepsPtk.of_view {s t : Mlme} {c g : Option KeyConf}
    {st : RTW88State} {l : List Obs}
    (h : view t = { view s with
      ptkConf := c, gtkConf := g, state := st, trail := l }) :
    KeepsPtk s t ∧ t.state = st ∧ t.ptkConf = c :=
  ⟨⟨congrArg Link.ptk h, congrArg Link.pmk h, congrArg Link.target h,
    congrArg Link.wpa2 h⟩, congrArg Link.state h, congrArg Link.ptkConf h⟩

/-- Installing the pairwise key touches none of them. The key in place
after it is the old one, none, or, if it succeeded, the new one. -/
private theorem installPairwise_keeps (alloc set : Bool) (keyidx : UInt8)
    (cipher : UInt32) (tk : List UInt8) (s : Mlme) :
    let r := installPairwise alloc set keyidx cipher tk s
    KeepsPtk s r.2 ∧ r.2.state = s.state
      ∧ (∀ k, r.2.ptkConf = some k → s.ptkConf = some k ∨ k.key = tk)
      ∧ (r.1 = true → ∃ k, r.2.ptkConf = some k ∧ k.key = tk) := by
  intro r
  have hview := view_dropPtkConf (disableKey s.ptkConf s)
  rw [view_disableKey] at hview
  obtain ⟨hdrop, hstate, hconf⟩ := KeepsPtk.of_view hview
  show KeepsPtk s (installPairwise alloc set keyidx cipher tk s).2 ∧ _
  unfold r installPairwise
  split
  · exact ⟨.refl s, rfl, fun k hk => .inl hk, fun hno => by cases hno⟩
  · generalize dropPtkConf (disableKey s.ptkConf s) = t at hdrop hconf hstate
    unfold KeepsPtk at hdrop ⊢
    dsimp only [Mlme.emit, Mlme.bumpAddr, setPtkConf]
    split
    · refine ⟨hdrop, hstate, fun k hk => ?_, fun hno => by cases hno⟩
      rw [hconf] at hk
      cases hk
    · split
      · refine ⟨hdrop, hstate, fun k hk => ?_, fun hno => by cases hno⟩
        rw [hconf] at hk
        cases hk
      · refine ⟨hdrop, hstate, fun k hk => .inr ?_, fun _ => ⟨_, rfl, rfl⟩⟩
        obtain rfl := Option.some.inj hk
        rfl

/-- Nor does installing the group key, and it leaves the pairwise key
alone. -/
private theorem installGroup_keeps (alloc set : Bool) (keyidx : UInt8)
    (cipher : UInt32) (tk : List UInt8) (s : Mlme) :
    let t := (installGroup alloc set keyidx cipher tk s).2
    KeepsPtk s t ∧ t.state = s.state ∧ t.ptkConf = s.ptkConf := by
  have hview := view_dropGtkConf (disableKey s.gtkConf s)
  rw [view_disableKey] at hview
  obtain ⟨hdrop, hstate, hconf⟩ := KeepsPtk.of_view hview
  dsimp only
  unfold installGroup
  split
  · exact ⟨.refl s, rfl, rfl⟩
  · generalize dropGtkConf (disableKey s.gtkConf s) = t at hdrop hconf hstate
    unfold KeepsPtk at hdrop ⊢
    dsimp only [Mlme.emit, Mlme.bumpAddr, setGtkConf]
    split
    · exact ⟨hdrop, hstate, hconf⟩
    · split
      · exact ⟨hdrop, hstate, hconf⟩
      · exact ⟨hdrop, hstate, hconf⟩

/-- What the M3 branch leaves: the key in place is the old one or the
temporal key of `_ptk`, and a link that has come up has the latter. -/
structure LeavesM3 (s t : Mlme) : Prop where
  ptk : t.ptk = s.ptk
  pmk : t.pmk = s.pmk
  target : t.targetBSS = s.targetBSS
  wpa2 : t.wpa2 = s.wpa2
  conf : ∀ k, t.ptkConf = some k →
    s.ptkConf = some k ∨ k.key = (tkOf s.ptk).toList
  state : t.state = s.state ∨ t.state = .connected
    ∧ ∃ k, t.ptkConf = some k ∧ k.key = (tkOf s.ptk).toList

private theorem acceptGtk_keeps (keyData : List UInt8) (s : Mlme) :
    let t := acceptGtk hw env keyData s
    KeepsPtk s t ∧ t.ptkConf = s.ptkConf
      ∧ (t.state = s.state ∨ t.state = .connected) := by
  have hfinish : ∀ t : Mlme, KeepsPtk s t → t.ptkConf = s.ptkConf →
      KeepsPtk s (finishM3 hw env t)
        ∧ (finishM3 hw env t).ptkConf = s.ptkConf
        ∧ ((finishM3 hw env t).state = s.state
          ∨ (finishM3 hw env t).state = .connected) := by
    intro t ht hconf
    obtain ⟨hkeep, hstate, hsame⟩ :=
      KeepsPtk.of_view (@view_finishM3 hw env t)
    exact ⟨ht.trans hkeep, hsame.trans hconf, .inr hstate⟩
  dsimp only
  unfold acceptGtk
  split
  · exact hfinish s (.refl s) rfl
  next gtk idx _ =>
    split
    · exact hfinish s (.refl s) rfl
    · obtain ⟨hgroup, hstate, hconf⟩ := installGroup_keeps env.groupAlloc
        env.groupSet idx (groupCipher s) gtk s
      dsimp only
      split
      · exact ⟨hgroup, hconf, .inl hstate⟩
      · exact hfinish _ hgroup hconf

/-- The M3 branch behind its checks. -/
theorem acceptM3_leaves (data keyData : List UInt8) (s : Mlme) :
    LeavesM3 s (acceptM3 hw env data keyData s) := by
  obtain ⟨hpair, hstate, hconf, hnew⟩ := installPairwise_keeps
    env.pairwiseAlloc env.pairwiseSet 0 cipherCcmp (tkOf s.ptk).toList
    (setReplayCtr (grab data 9 8) s)
  have hleaves : ∀ t : Mlme, KeepsPtk s t →
      (∀ k, t.ptkConf = some k →
        s.ptkConf = some k ∨ k.key = (tkOf s.ptk).toList) →
      (t.state = s.state ∨ t.state = .connected
        ∧ ∃ k, t.ptkConf = some k ∧ k.key = (tkOf s.ptk).toList) →
      LeavesM3 s t :=
    fun t h hc hs => ⟨h.1, h.2.1, h.2.2.1, h.2.2.2, hc, hs⟩
  unfold acceptM3
  dsimp only
  split
  · exact hleaves _ hpair hconf (.inl hstate)
  next hok =>
    rw [Bool.not_eq_true', Bool.not_eq_false] at hok
    obtain ⟨k, hk, hkey⟩ := hnew hok
    obtain ⟨hgtk, hsame, hup⟩ := @acceptGtk_keeps hw env keyData
      (installPairwise env.pairwiseAlloc env.pairwiseSet 0 cipherCcmp
        (tkOf s.ptk).toList (setReplayCtr (grab data 9 8) s)).2
    refine hleaves _ (hpair.trans hgtk) (fun k' hk' => ?_) ?_
    · exact hconf k' (hsame.symm.trans hk')
    · rcases hup with hup | hup
      · exact .inl (hup.trans hstate)
      · exact .inr ⟨hup, k, hsame.trans hk, hkey⟩

/-- A verified M3 leaves `_ptk` as it verified it, and `_wpa2`. -/
theorem handleEAPOL_m3_keeps {data : List UInt8} {s : Mlme}
    (h : VerifiedM3 hw env s.ptk data) :
    (view (handleEAPOL hw env data s)).ptk = s.ptk
      ∧ (view (handleEAPOL hw env data s)).wpa2 = s.wpa2 := by
  obtain ⟨len, hlen, hm1, hm3, hver⟩ := h
  obtain ⟨keyData, hkey⟩ := Option.isSome_iff_exists.1 hver
  rw [handleEAPOL, show eapolLen data = some len from hlen]
  simp only [hm1, hm3, hkey, Bool.false_eq_true, if_false, if_true]
  have hleaves := @acceptM3_leaves hw env data keyData s
  exact ⟨hleaves.ptk, hleaves.wpa2⟩

-- =============================================================== authenticity

/-- The event hands `handleEAPOL` an M3 that it accepts: the M3 passes
the checks and the link comes up. -/
def AcceptsM3 (hw : Hw) (s : Sys) (e : Event) : Prop :=
  ∃ x ∈ s.eapol e, VerifiedM3 hw x.1 s.mlme.ptk x.2
    ∧ (sysStep hw s e).mlme.state = .connected

instance (s : Sys) (e : Event) : Decidable (AcceptsM3 hw s e) :=
  inferInstanceAs (Decidable (∃ x ∈ s.eapol e, _))

/-- An M1 was processed since the latest `cmdConnect`, and `_ptk` is
derived from the nonces of the latest one with the password and target of
that `cmdConnect`. -/
def AuthenticPtk (hw : Hw) (s : Mlme) : Prop :=
  ∃ target password anonce snonce,
    lastAttempt s.log = some (target, password)
      ∧ m1OfAttempt s.log = some (anonce, snonce)
      ∧ s.ptk = ptkFor hw target password anonce snonce

/-- The pairwise key that is installed is the temporal key of `ptk`. -/
def InstallsTk (ptk : Bytes 64) (s : Mlme) : Prop :=
  ∃ k, s.ptkConf = some k ∧ k.key = (tkOf ptk).toList

/-- In every run, an event that accepts an M3 accepts it under an
authentic `_ptk` and installs that PTK's temporal key, unless it verifies
the M3 under the all-zero PTK. -/
theorem m3_accepted_under_authentic_ptk (powered : Bool)
    (es : List Event) :
    Along (sysStep hw)
      (fun s e => AcceptsM3 hw s e → ¬ZeroKeyM3 hw s e →
        AuthenticPtk hw s.mlme
          ∧ InstallsTk s.mlme.ptk (sysStep hw s e).mlme)
      (Sys.init powered) es := by
  have hstep : ∀ s e, (NoLinkScan s ∧ KeyInv hw (view s.mlme)) → True →
      (NoLinkScan (sysStep hw s e)
        ∧ KeyInv hw (view (sysStep hw s e).mlme))
      ∧ (AcceptsM3 hw s e → ¬ZeroKeyM3 hw s e →
        AuthenticPtk hw s.mlme
          ∧ InstallsTk s.mlme.ptk (sysStep hw s e).mlme) := by
    intro s e hinv _
    have hnext := sysStep_inv Move.keyInv hinv (Allowed.all hw s e)
    refine ⟨hnext, ?_⟩
    rintro ⟨⟨env, data⟩, heapol, hver, hconn⟩ hzero
    have hview := @view_sysStep_eapol hw _ _ _ _ heapol
    -- the body was handed over in HANDSHAKING
    have hshake : s.mlme.state = .handshaking := by
      have h := heapol
      rw [Option.mem_def, Sys.eapol] at h
      split at h
      · split at h
        · split at h
          next hgate => exact hgate.2
          next => cases h
        · cases h
      · cases h
    have hw2 := (hinv.2.pmk hshake).1
    have hne : s.mlme.ptk ≠ zeros 64 := fun hz =>
      hzero ⟨(env, data), heapol, hz, hver⟩
    constructor
    · obtain ⟨anonce, snonce, hm1, hptk⟩ := hinv.2.ptk hne
      refine ⟨_, _, anonce, snonce, ?_, ?_, hptk⟩
      · rw [← lastAttempt_trail]
        exact hinv.2.attempt hw2
      · rw [← m1OfAttempt_trail]
        exact hm1
    · obtain ⟨hptk, hw2'⟩ := handleEAPOL_m3_keeps hver
      rw [← hview] at hptk hw2'
      obtain ⟨k, hconf, hk, _⟩ := hnext.2.linked hconn (hw2'.trans hw2)
      exact ⟨k, hconf, hptk ▸ hk⟩
  exact along_of_inv hstep ⟨NoLinkScan.init powered, KeyInv.init powered⟩
    (Along.of_forall (fun _ _ => trivial) _ es)

/-- With the primitives of the source: after an association, a forged M3
that comes before any M1 is accepted. -/
theorem forged_m3_accepted :
    let hw := sampleHw kernPrims
    let s := sysRun hw true (scanEvents ccmpIe ++ assocEvents)
    s.mlme.wpa2 = true
      ∧ AcceptsM3 hw s (.rx {} (eapolFromAp sampleMac sampleAp forgedM3))
      ∧ ¬AuthenticPtk hw s.mlme := by
  intro hw s
  refine ⟨by decide +kernel, by decide +kernel, ?_⟩
  rintro ⟨target, password, anonce, snonce, _, hm1, _⟩
  have hnone : m1OfAttempt s.mlme.log = none := by decide +kernel
  rw [hnone] at hm1
  cases hm1

-- ================================================== PSK networks in the clear

/-- A pairwise key is installed, and it is the temporal key of the M3
accepted in this association. -/
def HoldsKey (s : Mlme) : Prop :=
  ∃ k ptk, s.ptkConf = some k ∧ m3OfAssociation s.log = some ptk
    ∧ k.key = (tkOf ptk).toList

/-- A WPA2 link that is up holds its key. -/
theorem KeyInv.holdsKey {s : Mlme} (h : KeyInv hw (view s))
    (hconn : s.state = .connected) (hwpa : s.wpa2 = true) : HoldsKey s := by
  obtain ⟨k, hconf, hk, hm3⟩ := h.linked hconn hwpa
  refine ⟨k, s.ptk, hconf, ?_, hk⟩
  rw [← m3OfAssociation_trail]
  exact hm3

/-- In every state reached: a link that is up to a PSK-protected target
holds a key if and only if the target's scan entry is not TKIP. -/
theorem connected_psk_holds_key_iff (powered : Bool) (es : List Event)
    (hconn : (sysRun hw powered es).mlme.state = .connected)
    (hpsk : PskProtected (sysRun hw powered es).mlme.targetBSS) :
    HoldsKey (sysRun hw powered es).mlme
      ↔ (sysRun hw powered es).mlme.targetBSS.cipher ≠ cipherTkip := by
  have hinv := @sysRun_keyInv hw powered es
  generalize (sysRun hw powered es).mlme = s at *
  have hwpa : s.wpa2 = (s.targetBSS.cipher == cipherCcmp) := hinv.wpa2
  constructor
  · rintro ⟨k, ptk, hconf, _⟩ htkip
    have hfalse : s.wpa2 = false := by
      rw [hwpa, htkip]
      decide
    have hnone : s.ptkConf = none := hinv.noKey hfalse
    rw [hnone] at hconf
    cases hconf
  · intro htkip
    have hccmp : s.targetBSS.cipher = cipherCcmp := by
      rcases hpsk with hakm | hccmp | h
      · exact (hinv.target hakm).resolve_right htkip
      · exact hccmp
      · exact absurd h htkip
    have htrue : s.wpa2 = true := by
      rw [hwpa, hccmp]
      decide
    exact hinv.holdsKey hconn htrue

/-- The sample network after its handshake. -/
theorem joined_holds_key :
    let s := (sysRun (sampleHw samplePrims) true joinEvents).mlme
    HoldsKey s ↔ s.targetBSS.cipher ≠ cipherTkip :=
  connected_psk_holds_key_iff true joinEvents (by decide +kernel)
    (by decide +kernel)

/-- A network with a WPA element is joined with no key. -/
theorem wpa_joined_in_clear :
    let s := (sysRun (sampleHw samplePrims) true
      (scanEvents wpaIe ++ assocEvents)).mlme
    s.state = .connected ∧ PskProtected s.targetBSS ∧ ¬HoldsKey s := by
  refine ⟨by decide +kernel, by decide +kernel, ?_⟩
  rintro ⟨k, ptk, hconf, _⟩
  revert hconf
  have hnone : (sysRun (sampleHw samplePrims) true
      (scanEvents wpaIe ++ assocEvents)).mlme.ptkConf = none := by
    decide +kernel
  rw [hnone]
  exact fun h => by cases h

end Rtw88
