/-
No plaintext outside the gap of a teardown.

The transmit gate asks `_state` and `_sta`; the decision to protect a
frame asks `_ptkConf`; and every teardown path lets go of the key first.
Between `IOFree(_ptkConf)` and the write that closes the gate, a frame
goes out with a dangling key or with none. `OutsideGap` says of a
transmission that it is not made there, and `TearInv` is what carries the
runs whose transmissions all keep to it:

- a link that is up for the transmitter has a pairwise key, or some
  teardown is in its gap (`linked`);
- that key has not been freed, or some teardown has freed it and is about
  to write the null pointer (`keys`, with `Dangling`).

# The paths as code

A teardown is a list of statements, one taken in each step of its
thread, with any event of the rest in between. Left alone it does what
the source's function does, and the first lemmas say so of every path
(`cmdDisconnect_code_run` and its like). The shape that the invariant
needs is that the pointer is written right after the key is freed; it
holds of `clearKeys`, and no other piece of a path frees a key
(`TearPath.code_paired`).

# The step

`Linked` and `KeysLive` are invariants of the moves, so every event of the
system keeps them whatever teardown it interrupts (`Move.linked`,
`Move.keysLive`). A statement of a teardown is one of three:
`IOFree(_ptkConf)`, which keeps `KeysLive` at the price of a dangling
pointer and opens the gap; the null written behind it; and the rest,
which keep both, some of them closing the gate (`onLink_linked`). Any
number of teardowns may be under way, and one may be in its gap while
another has not begun.

`cleartext_in_gap` is a transmission in the gap, and what goes out.
-/
import Rtw88.Model.Teardown
import Rtw88.Proofs.Link.Step
import Rtw88.Spec.AccessPoint

namespace Rtw88

variable {hw : Hw} {env : Env}

-- ============================================== a teardown that is left alone

section Alone

variable (s : Mlme)

/-- The pairwise key's two statements are `dropPtkConf`. -/
private theorem dropPtkConf_code :
    (Prog.whenever (·.ptkConf.isSome)
      (Prog.acts [TearOp.freePtk, .nullPtk])).run (TearOp.run hw env) s
      = dropPtkConf s := by
  cases h : s.ptkConf with
  | none => simp [h, dropPtkConf]
  | some k =>
      simp [h, TearOp.run, dropPtkConf]
      rfl

/-- The group key's are `dropGtkConf`. -/
private theorem dropGtkConf_code :
    (Prog.whenever (·.gtkConf.isSome)
      (Prog.acts [TearOp.freeGtk, .nullGtk])).run (TearOp.run hw env) s
      = dropGtkConf s := by
  cases h : s.gtkConf with
  | none => simp [h, dropGtkConf]
  | some k =>
      simp [h, TearOp.run, dropGtkConf]
      rfl

/-- Run to its end, the code of `clearKeys` is `clearKeys`. -/
theorem clearKeysCode_run :
    clearKeysCode.run (TearOp.run hw env) s = clearKeys s := by
  have hdisable : ∀ t : Mlme, (Prog.whenever (fun s => s.powered && s.up)
      ((Prog.whenever (·.ptkConf.isSome) (Prog.acts [TearOp.disablePtk])).seq
        (Prog.whenever (·.gtkConf.isSome)
          (Prog.acts [TearOp.disableGtk])))).run (TearOp.run hw env) t
      = disableKeys t := by
    intro t
    simp only [Prog.run_whenever, Prog.run_seq, Prog.run_acts, List.foldl,
      TearOp.run, disableKeys]
    split
    · cases hp : t.ptkConf <;> cases hg : t.gtkConf <;>
        simp [disableKey, hg, Mlme.emit]
    · rfl
  rw [clearKeysCode, Prog.run_seq, hdisable, Prog.run_seq, dropPtkConf_code,
    Prog.run_seq, dropGtkConf_code]
  rfl

/-- The loop over the reorder windows. -/
theorem rxBaTeardownAllCode_run :
    rxBaTeardownAllCode.run (TearOp.run hw env) s = rxBaTeardownAll s := by
  rw [rxBaTeardownAllCode, Prog.run_acts, List.foldl_map]
  rfl

/-- The release of the station. -/
theorem releaseStaCode_run :
    releaseStaCode.run (TearOp.run hw env) s = releaseSta s := by
  simp only [releaseStaCode, Prog.run_whenever, Prog.run_seq, Prog.run_acts,
    List.foldl, rxBaTeardownAllCode_run, releaseSta]
  cases hsta : s.sta with
  | none => simp
  | some sta =>
      cases hup : s.up <;>
        simp [TearOp.run, hsta, Mlme.emit, forgetSta, setTxBa]

/-- Leaving the link: the frame first, then keys and station, the state last.
-/
theorem doDisconnectCode_run :
    doDisconnectCode.run (TearOp.run hw env) s = doDisconnect hw env s := by
  have hnotify : ∀ t : Mlme, ([.txDeauth, .dropBssAssoc, .notifyBss] :
      List TearOp).foldl (fun s op => op.run hw env s) t
      = (clearBssAssoc (txMgmtFrame env (deauthFrame hw t) t)).emit
        (.bssInfoChanged false) := fun _ => rfl
  have hidle : ∀ t : Mlme, ([.stateIdle, .returnIdle, .cancelTimer,
      .linkDown] : List TearOp).foldl (fun s op => op.run hw env s) t
      = t.setIdle.cancelTimer.emit (.setLinkStatus false) := fun _ => rfl
  rw [doDisconnectCode, Prog.run, doDisconnect]
  split
  · rfl
  · simp only [Prog.run_seq, clearKeysCode_run, releaseStaCode_run,
      Prog.run_acts, hnotify, hidle]

/-- A deauthentication: keys and windows, and the state last. -/
theorem leaveOnDeauthCode_run :
    leaveOnDeauthCode.run (TearOp.run hw env) s = leaveOnDeauth s := by
  have hidle : ∀ t : Mlme, ([.stateIdle, .returnIdle, .linkDown] :
      List TearOp).foldl (fun s op => op.run hw env s) t
      = t.setIdle.emit (.setLinkStatus false) := fun _ => rfl
  simp only [leaveOnDeauthCode, Prog.run_seq, clearKeysCode_run,
    Prog.run_acts, rxBaTeardownAllCode_run, hidle]
  rfl

/-- The power-off: the link is left where there is one, then the hardware
stopped. -/
theorem finishPowerOffCode_run :
    finishPowerOffCode.run (TearOp.run hw env) s
      = finishPowerOff hw env s := by
  have hoff : ∀ t : Mlme, powerOffCode.run (TearOp.run hw env) t
      = powerOff t := by
    intro t
    simp only [powerOffCode, Prog.run_whenever, Prog.run_seq, Prog.run_acts,
      List.foldl, powerOff, TearOp.run]
    cases t.powered <;> simp
  have hidle : ∀ t : Mlme, ([.stateIdle, .returnIdle, .linkDown] :
      List TearOp).foldl (fun s op => op.run hw env s) t
      = t.setIdle.emit (.setLinkStatus false) := fun _ => rfl
  simp only [finishPowerOffCode, Prog.run_seq, Prog.run, hoff,
    doDisconnectCode_run, clearKeysCode_run, releaseStaCode_run,
    Prog.run_acts, hidle, decide_eq_true_eq]
  rfl

/-- Each path, left alone, is what the source's function does. -/
theorem cmdDisconnect_code_run :
    (TearPath.cmdDisconnect.code hw).run (TearOp.run hw env) s
      = (cmdDisconnect hw env s).2 := by
  simp only [TearPath.code, Prog.run_whenever, doDisconnectCode_run,
    cmdDisconnect]
  cases s.state <;> rfl

/-- The path of `cmdPowerOff`, behind its wait. -/
theorem cmdPowerOff_code_run :
    (TearPath.cmdPowerOff.code hw).run (TearOp.run hw env) s
      = finishPowerOff hw env s := finishPowerOffCode_run s

/-- The path of a timeout in the handshake. -/
theorem timeout_code_run (h : s.state = .handshaking) :
    (TearPath.timeout.code hw).run (TearOp.run hw env) s
      = (onTimer hw env s).2 := by
  simp only [TearPath.code, Prog.run_whenever, doDisconnectCode_run, onTimer,
    h]
  rfl

/-- The path of a deauthentication, with the frame released behind it. -/
theorem deauth_code_run {skb : SkBuff}
    (h : frameControl skb.mem &&& 0x00f0 = 0x00A0
      ∨ frameControl skb.mem &&& 0x00f0 = 0x00C0) :
    processRxMgmt hw env skb s = kfreeSkb skb
      (((TearPath.deauth skb).code hw).run (TearOp.run hw env) s) := by
  have hskip : frameControl skb.mem &&& 0x00f0 ≠ 0x0080
      ∧ frameControl skb.mem &&& 0x00f0 ≠ 0x0050
      ∧ frameControl skb.mem &&& 0x00f0 ≠ 0x00B0
      ∧ frameControl skb.mem &&& 0x00f0 ≠ 0x0010
      ∧ frameControl skb.mem &&& 0x00f0 ≠ 0x0030 := by
    rcases h with h | h <;> rw [h] <;> decide
  obtain ⟨h1, h2, h3, h4, h5⟩ := hskip
  simp only [TearPath.code, Prog.run_whenever, leaveOnDeauthCode_run,
    processRxMgmt, h1, h2, h3, h4, h5, or_self, if_false]
  rw [if_pos h]
  by_cases hstate : s.state = .connected ∨ s.state = .handshaking
      ∨ (s.state = .scanning ∧ s.scanReturnState = .connected)
  · have hlink : (s.state == .connected || s.state == .handshaking
        || (s.state == .scanning && s.scanReturnState == .connected))
        = true := by
      simpa [or_assoc] using hstate
    rw [if_pos hstate, deauthAccepted, hlink, Bool.true_and]
    cases (addr3 skb.mem == s.targetBSS.bssid
        || addr2 skb.mem == s.targetBSS.bssid) <;>
      cases (addr1 skb.mem == hw.macAddr || addr1 skb.mem == broadcast) <;>
      rfl
  · have hlink : (s.state == .connected || s.state == .handshaking
        || (s.state == .scanning && s.scanReturnState == .connected))
        = false := by
      simpa [or_assoc, and_assoc] using hstate
    rw [if_neg hstate, deauthAccepted, hlink, Bool.false_and]
    rfl

end Alone

-- =============================================================== vocabulary

/-- `outputPacket` and `txDataFrame` hand the packet to the driver, and it
is a data frame other than EAPOL on a WPA2 link. -/
def handsOver (env : Env) (m : List UInt8) (s : Mlme) : Bool :=
  s.wpa2 && s.state == .connected && s.up && s.sta.isSome
    && !(m.length < 14) && !(2048 < m.length) && env.headCopy && env.dataSkb
    && !(14 < m.length && !env.payloadCopy) && be16At m 12 != ethPPae

/-- The packet an event hands to `outputPacket`, if any. -/
def TearEvent.outputs : TearEvent → Option (Env × List UInt8)
  | .sys e => e.outputs
  | _ => none

/-- A transmission of such a frame is not made while a teardown stands
between `IOFree(_ptkConf)` and the write that closes the gate. -/
def OutsideGap (t : TearSys) (e : TearEvent) : Prop :=
  ∀ x ∈ e.outputs, handsOver x.1 x.2 t.sys.mlme = true →
    ∀ th ∈ t.tears, th.inGap = false

instance (t : TearSys) (e : TearEvent) : Decidable (OutsideGap t e) :=
  inferInstanceAs (Decidable (∀ x ∈ e.outputs, _))

/-- The frame is protected: it has the Protected bit and a CCMP header,
and it refers to the installed pairwise key, which was not freed. -/
structure GuardedTx (s : Mlme) (skb : TxSkb) : Prop where
  bit : hasProtected (frameControl skb.data) = true
  key : ∃ k pn, s.ptkConf = some k ∧ skb.hwKey = some k
    ∧ .freeKey k.addr ∉ s.log
    ∧ (skb.data.drop (hdrlen (frameControl skb.data))).take 8
      = ccmpHdr pn k.keyidx

/-- Whatever the event hands to the driver as a data frame other than
EAPOL on a WPA2 link is protected. -/
def GuardsData (hw : Hw) (t : TearSys) (e : TearEvent) : Prop :=
  ∀ x ∈ e.outputs, t.sys.mlme.wpa2 = true → ∀ skb : TxSkb,
    (outputPacket hw x.1 x.2 t.sys.mlme).2.log
        = .tx skb :: t.sys.mlme.log →
      skb.protocol ≠ some ethPPae → GuardedTx t.sys.mlme skb

-- ================================================================ invariant

/-- A link that is up for the transmitter has a pairwise key. -/
def Linked (v : Link) : Prop :=
  v.state = .connected → v.wpa2 = true → v.sta.isSome → v.ptkConf.isSome

/-- Keys have addresses of their own that were handed out before, and the
installed pairwise key was not freed unless `D`. -/
structure KeysLive (D : Prop) (v : Link) : Prop where
  ptk : ∀ k, v.ptkConf = some k → k.addr < v.next
  gtk : ∀ k, v.gtkConf = some k → k.addr < v.next
  freed : ∀ a, .freeKey a ∈ v.trail → a < v.next
  apart : ∀ k g, v.ptkConf = some k → v.gtkConf = some g → k.addr ≠ g.addr
  live : D ∨ ∀ k, v.ptkConf = some k → .freeKey k.addr ∉ v.trail

/-- A step that installs no key: what is freed by it is not the pairwise
key that stays. -/
private theorem KeysLive.keep {D : Prop} {v w : Link} (h : KeysLive D v)
    (hnext : v.next ≤ w.next)
    (hptk : w.ptkConf = v.ptkConf ∨ w.ptkConf = none)
    (hgtk : w.gtkConf = v.gtkConf ∨ w.gtkConf = none)
    (hfreed : ∀ a, .freeKey a ∈ w.trail → .freeKey a ∈ v.trail
      ∨ (a < w.next ∧ ∀ k, w.ptkConf = some k → k.addr ≠ a)) :
    KeysLive D w := by
  have hold : ∀ k, w.ptkConf = some k → v.ptkConf = some k := by
    intro k hk
    rcases hptk with hptk | hptk
    · rw [← hptk]
      exact hk
    · rw [hptk] at hk
      cases hk
  have holdg : ∀ k, w.gtkConf = some k → v.gtkConf = some k := by
    intro k hk
    rcases hgtk with hgtk | hgtk
    · rw [← hgtk]
      exact hk
    · rw [hgtk] at hk
      cases hk
  refine ⟨fun k hk => ?_, fun k hk => ?_, fun a ha => ?_,
    fun k g hk hg => h.apart k g (hold k hk) (holdg g hg), ?_⟩
  · exact Nat.lt_of_lt_of_le (h.ptk k (hold k hk)) hnext
  · exact Nat.lt_of_lt_of_le (h.gtk k (holdg k hk)) hnext
  · rcases hfreed a ha with ha | ⟨ha, _⟩
    · exact Nat.lt_of_lt_of_le (h.freed a ha) hnext
    · exact ha
  · rcases h.live with hD | hlive
    · exact .inl hD
    · refine .inr fun k hk hmem => ?_
      rcases hfreed k.addr hmem with hmem | ⟨_, hne⟩
      · exact hlive k (hold k hk) hmem
      · exact hne k hk rfl

/-- A step that frees nothing and installs nothing. -/
private theorem KeysLive.same {D : Prop} {v w : Link} (h : KeysLive D v)
    (hnext : v.next ≤ w.next) (hptk : w.ptkConf = v.ptkConf)
    (hgtk : w.gtkConf = v.gtkConf)
    (htrail : ∀ a, .freeKey a ∈ w.trail → .freeKey a ∈ v.trail) :
    KeysLive D w :=
  h.keep hnext (.inl hptk) (.inl hgtk) fun a ha => .inl (htrail a ha)

/-- The end of a key on the trail is that key's. -/
private theorem mem_freed_append {k : Option KeyConf} {log : List Obs}
    {a : Nat} (h : .freeKey a ∈ freed k ++ log) :
    (∃ key, k = some key ∧ key.addr = a) ∨ .freeKey a ∈ log := by
  cases k with
  | none => exact .inr h
  | some key =>
      rcases List.mem_cons.1 h with h | h
      · exact .inl ⟨key, rfl, (Obs.freeKey.inj h).symm⟩
      · exact .inr h

/-- An observation that is no key's end. -/
private theorem mem_of_mem_cons {o : Obs} {log : List Obs} {a : Nat}
    (ho : .freeKey a ≠ o) (h : .freeKey a ∈ o :: log) :
    .freeKey a ∈ log :=
  (List.mem_cons.1 h).resolve_left ho

/-- An accepted association frees nothing. -/
private theorem StaAfter.frees {v : Link} {sta : Option Sta}
    {added : List Obs} {next : Nat} (h : StaAfter v sta added next) :
    v.next ≤ next
      ∧ ∀ a, .freeKey a ∈ added ++ v.trail → .freeKey a ∈ v.trail := by
  cases h with
  | keep => exact ⟨le_rfl, fun a ha => ha⟩
  | add sta hnone =>
      exact ⟨Nat.le_succ _, fun a ha => mem_of_mem_cons (by simp) ha⟩

/-- A move of the link keeps what is live and what was freed apart. -/
theorem Move.keysLive {D : Prop} {P : Allow} {v w : Link}
    (h : Move hw P v w) (hv : KeysLive D v) : KeysLive D w := by
  cases h with
  | connect target password _ _ _ _ _ =>
      exact hv.same le_rfl rfl rfl fun a => mem_of_mem_cons (by simp)
  | inject f _ =>
      exact hv.same le_rfl rfl rfl fun a => mem_of_mem_cons (by simp)
  | bssNotify =>
      exact hv.same le_rfl rfl rfl fun a => mem_of_mem_cons (by simp)
  | m1 anonce snonce _ =>
      exact hv.same le_rfl rfl rfl fun a => mem_of_mem_cons (by simp)
  | m3 k _ _ _ =>
      exact hv.same le_rfl rfl rfl fun a => mem_of_mem_cons (by simp)
  | protect skb k _ _ _ _ _ _ =>
      exact hv.same le_rfl rfl rfl fun a => mem_of_mem_cons (by simp)
  | dropSta sta told _ htold =>
      refine hv.same le_rfl rfl rfl fun a ha => ?_
      rcases htold with rfl | rfl
      · exact ha
      · exact mem_of_mem_cons (by simp) ha
  | handshake sta added next _ _ hsta _ =>
      obtain ⟨hnext, hadded⟩ := hsta.frees
      exact hv.same hnext rfl rfl fun a ha =>
        hadded a (mem_of_mem_cons (by simp) (mem_of_mem_cons (by simp) ha))
  | openLink sta added next _ _ hsta _ =>
      obtain ⟨hnext, hadded⟩ := hsta.frees
      exact hv.same hnext rfl rfl fun a ha =>
        hadded a (mem_of_mem_cons (by simp) (mem_of_mem_cons (by simp) ha))
  | clear _ =>
      refine hv.keep le_rfl (.inr rfl) (.inr rfl) fun a ha => ?_
      rcases mem_freed_append ha with ⟨g, hg, rfl⟩ | ha
      · exact .inr ⟨hv.gtk g hg, fun _ hk => by cases hk⟩
      · rcases mem_freed_append ha with ⟨k, hk, rfl⟩ | ha
        · exact .inr ⟨hv.ptk k hk, fun _ hk => by cases hk⟩
        · exact .inl ha
  | dropPairwise _ =>
      refine hv.keep le_rfl (.inr rfl) (.inl rfl) fun a ha => ?_
      rcases mem_freed_append ha with ⟨k, hk, rfl⟩ | ha
      · exact .inr ⟨hv.ptk k hk, fun _ hk => by cases hk⟩
      · exact .inl ha
  | dropGroup _ =>
      refine hv.keep le_rfl (.inl rfl) (.inr rfl) fun a ha => ?_
      rcases mem_freed_append ha with ⟨g, hg, rfl⟩ | ha
      · exact .inr ⟨hv.gtk g hg, fun k hk => hv.apart k g hk hg⟩
      · exact .inl ha
  | refusedKey _ =>
      refine hv.keep (Nat.le_succ _) (.inl rfl) (.inl rfl) fun a ha => ?_
      rcases List.mem_cons.1 ha with ha | ha
      · obtain rfl := Obs.freeKey.inj ha
        exact .inr ⟨Nat.lt_succ_self _, fun k hk => (hv.ptk k hk).ne⟩
      · exact .inl ha
  | setPairwise k _ _ haddr =>
      refine ⟨fun k' hk' => ?_, fun g hg => ?_, fun a ha => ?_,
        fun k' g hk' hg => ?_, .inr fun k' hk' hmem => ?_⟩
      · obtain rfl := Option.some.inj hk'
        rw [haddr]
        exact Nat.lt_succ_self _
      · exact Nat.lt_succ_of_lt (hv.gtk g hg)
      · exact Nat.lt_succ_of_lt (hv.freed a ha)
      · obtain rfl := Option.some.inj hk'
        rw [haddr]
        exact (hv.gtk g hg).ne'
      · obtain rfl := Option.some.inj hk'
        have hlt := hv.freed _ hmem
        rw [haddr] at hlt
        exact Nat.lt_irrefl _ hlt
  | setGroup g _ haddr =>
      refine ⟨fun k hk => ?_, fun g' hg' => ?_, fun a ha => ?_,
        fun k g' hk hg' => ?_, hv.live⟩
      · exact Nat.lt_succ_of_lt (hv.ptk k hk)
      · obtain rfl := Option.some.inj hg'
        rw [haddr]
        exact Nat.lt_succ_self _
      · exact Nat.lt_succ_of_lt (hv.freed a ha)
      · obtain rfl := Option.some.inj hg'
        rw [haddr]
        exact (hv.ptk k hk).ne
  | _ => exact hv.same le_rfl rfl rfl fun _ ha => ha

/-- A move keeps a connected WPA2 link's key in its slot. -/
theorem Move.linked {P : Allow} {v w : Link} (h : Move hw P v w)
    (hv : Linked v) : Linked w := by
  cases h with
  | idle r hr => exact fun hs => by cases hs
  | scanning _ _ => exact fun hs => by cases hs
  | connect target password _ _ _ _ _ => exact fun hs => by cases hs
  | authWrite _ => exact fun hs => by cases hs
  | assocReq _ => exact fun hs => by cases hs
  | handshake sta added next _ _ _ _ => exact fun hs => by cases hs
  | clear hidle =>
      intro hs
      rw [show v.state = .connected from hs] at hidle
      cases hidle
  | dropSta sta told _ _ => exact fun _ _ hsta => by cases hsta
  | openLink sta added next _ _ _ hwpa =>
      intro _ hw2
      rw [show v.wpa2 = true from hw2] at hwpa
      cases hwpa
  | dropPairwise h3 =>
      intro hs
      rw [h3.state] at hs
      cases hs
  | setPairwise k _ _ _ => exact fun _ _ _ => rfl
  | m3 k _ hconf _ =>
      intro _ _ _
      show v.ptkConf.isSome
      rw [hconf]
      rfl
  | _ => exact hv

-- ============================================================= one statement

/-- What a statement does to the link. -/
def TearOp.onLink (op : TearOp) (v : Link) : Link :=
  match op with
  | .freePtk => { v with trail := Rtw88.freed v.ptkConf ++ v.trail }
  | .nullPtk => { v with ptkConf := none }
  | .freeGtk => { v with trail := Rtw88.freed v.gtkConf ++ v.trail }
  | .nullGtk => { v with gtkConf := none }
  | .zeroPtk => { v with ptk := zeros 64 }
  | .zeroPn => { v with pn := zeros 6 }
  | .dropBssAssoc => { v with bssAssoc := false }
  | .notifyBss => { v with trail := .bssInfoChanged v.bssAssoc :: v.trail }
  | .staRemove =>
      match v.sta with
      | some sta => { v with trail := .staRemove sta.addr :: v.trail }
      | none => v
  | .nullSta => { v with sta := none }
  | .clearTxBa => { v with txBaActive := false }
  | .baTeardown tid =>
      { v with rxBa := fun i => if i.val = tid then none else v.rxBa i }
  | .stateIdle => { v with state := .idle }
  | .returnIdle => { v with ret := .idle }
  | _ => v

/-- Each statement, as the link sees it. -/
theorem view_tearOp (op : TearOp) (s : Mlme) :
    view (op.run hw env s) = op.onLink (view s) := by
  have hoff : ∀ o : Obs, ¬o.onTrail → view (s.emit o) = view s :=
    fun o ho => view_emit_off s o ho
  cases op with
  | disablePtk => exact view_disableKey _ _
  | disableGtk => exact view_disableKey _ _
  | freePtk =>
      simp only [TearOp.run, TearOp.onLink]
      cases h : s.ptkConf with
      | none => simp [view, h, freed]
      | some k =>
          rw [view_emit_on _ _ rfl]
          simp [view, h, freed]
  | freeGtk =>
      simp only [TearOp.run, TearOp.onLink]
      cases h : s.gtkConf with
      | none => simp [view, h, freed]
      | some k =>
          rw [view_emit_on _ _ rfl]
          simp [view, h, freed]
  | txDeauth => exact view_txMgmtFrame _ _
  | notifyBss => exact view_emit_on _ _ rfl
  | staRemove =>
      simp only [TearOp.run, TearOp.onLink]
      cases h : s.sta with
      | none => simp [view, h]
      | some sta =>
          rw [view_emit_on _ _ rfl]
          simp [view, h]
  | freeSta =>
      simp only [TearOp.run, TearOp.onLink]
      cases s.sta with
      | none => rfl
      | some sta => exact hoff _ (by simp [Obs.onTrail])
  | baTeardown tid => exact view_rxBaTeardown tid s
  | linkDown => exact hoff _ (by simp [Obs.onTrail])
  | hwStop => exact hoff _ (by simp [Obs.onTrail])
  | _ => rfl

/-- A statement other than `IOFree(_ptkConf)` keeps `KeysLive`. -/
private theorem onLink_keysLive {D : Prop} {v : Link} (h : KeysLive D v)
    {op : TearOp} (hop : op ≠ .freePtk) : KeysLive D (op.onLink v) := by
  cases op with
  | freePtk => exact absurd rfl hop
  | nullPtk =>
      exact h.keep le_rfl (.inr rfl) (.inl rfl) fun _ ha => .inl ha
  | freeGtk =>
      refine h.keep le_rfl (.inl rfl) (.inl rfl) fun a ha => ?_
      rcases mem_freed_append ha with ⟨g, hg, rfl⟩ | ha
      · exact .inr ⟨h.gtk g hg, fun k hk => h.apart k g hk hg⟩
      · exact .inl ha
  | nullGtk =>
      exact h.keep le_rfl (.inl rfl) (.inr rfl) fun _ ha => .inl ha
  | notifyBss =>
      exact h.same le_rfl rfl rfl fun a => mem_of_mem_cons (by simp)
  | staRemove =>
      simp only [TearOp.onLink]
      split
      · exact h.same le_rfl rfl rfl fun a => mem_of_mem_cons (by simp)
      · exact h
  | _ => exact h.same le_rfl rfl rfl fun _ ha => ha

/-- `IOFree(_ptkConf)` keeps it at the price of the pointer. -/
private theorem freePtk_keysLive {D D' : Prop} {v : Link}
    (h : KeysLive D v) (hD : D') :
    KeysLive D' (TearOp.freePtk.onLink v) where
  ptk := h.ptk
  gtk := h.gtk
  freed a ha := by
    rcases mem_freed_append ha with ⟨k, hk, rfl⟩ | ha
    · exact h.ptk k hk
    · exact h.freed a ha
  apart := h.apart
  live := .inl hD

/-- Without a key there is nothing to keep alive. -/
private theorem nullPtk_keysLive {D D' : Prop} {v : Link}
    (h : KeysLive D v) : KeysLive D' (TearOp.nullPtk.onLink v) where
  ptk _ hk := by cases hk
  gtk := h.gtk
  freed := h.freed
  apart _ _ hk := by cases hk
  live := .inr fun _ hk => by cases hk

/-- A dangling pointer may be allowed where none was. -/
private theorem KeysLive.weaken {D D' : Prop} (hD : D → D') {v : Link}
    (h : KeysLive D v) : KeysLive D' v :=
  { h with live := h.live.imp_left hD }

/-- A statement that touches neither the key nor the gate keeps `Linked`;
one that closes the gate brings it about. -/
private theorem onLink_linked {v : Link} {op : TearOp}
    (h : Linked v ∨ op = .nullSta ∨ op = .stateIdle)
    (hop : op ≠ .nullPtk) : Linked (op.onLink v) := by
  rcases h with h | rfl | rfl
  · cases op with
    | nullPtk => exact absurd rfl hop
    | nullSta => exact fun _ _ hsta => by cases hsta
    | stateIdle => exact fun hs => by cases hs
    | staRemove =>
        simp only [TearOp.onLink]
        split <;> exact h
    | _ => exact h
  · exact fun _ _ hsta => by cases hsta
  · exact fun hs => by cases hs

-- ================================================================ the threads

/-- The thread has freed the key and is about to write the pointer. -/
def TearThread.Dangling (th : TearThread) : Prop :=
  th.code.Paired TearOp.freePtk .nullPtk True

/-- The pointer is written right after the key is freed, and the thread is
in its gap while it is not. -/
def TearThread.Ok (th : TearThread) : Prop :=
  ∃ after : Prop, th.code.Paired TearOp.freePtk .nullPtk after
    ∧ (after → th.inGap = true)

/-- In `clearKeys` the free of the pairwise key is followed by its null. -/
theorem clearKeysCode_paired :
    clearKeysCode.Paired TearOp.freePtk .nullPtk False := by
  have hacts : ∀ l : List TearOp, .freePtk ∉ l → .nullPtk ∉ l →
      (Prog.acts l : TearCode).Paired .freePtk .nullPtk False :=
    fun _ => .acts
  exact (((hacts _ (by decide) (by decide)).whenever _).seq
      ((hacts _ (by decide) (by decide)).whenever _) |>.whenever _).seq
    (((Prog.Paired.pair (by decide)).whenever _).seq
      (((hacts _ (by decide) (by decide)).whenever _).seq
        (hacts _ (by decide) (by decide))))

/-- The release of the station contains neither. -/
theorem releaseStaCode_paired :
    releaseStaCode.Paired TearOp.freePtk .nullPtk False :=
  (((Prog.Paired.acts (by decide) (by decide)).whenever _).seq
    ((Prog.Paired.acts (by decide) (by decide)).seq
      (Prog.Paired.acts (by decide) (by decide)))).whenever _

/-- `doDisconnect` has the pair of `clearKeys`. -/
theorem doDisconnectCode_paired :
    doDisconnectCode.Paired TearOp.freePtk .nullPtk False :=
  ⟨id, Prog.Paired.acts (by decide) (by decide),
    clearKeysCode_paired.seq
      ((Prog.Paired.acts (by decide) (by decide)).seq
        (releaseStaCode_paired.seq
          (Prog.Paired.acts (by decide) (by decide))))⟩

/-- Every path writes the pointer right after it has freed the key. -/
theorem TearPath.code_paired (path : TearPath) :
    (path.code hw).Paired TearOp.freePtk .nullPtk False := by
  cases path with
  | cmdDisconnect => exact doDisconnectCode_paired.whenever _
  | timeout => exact doDisconnectCode_paired.whenever _
  | deauth skb =>
      exact (clearKeysCode_paired.seq
        ((Prog.Paired.acts (by decide) (by decide)).seq
          ((Prog.Paired.acts (by decide) (by decide)).seq
            (Prog.Paired.acts (by decide) (by decide))))).whenever _
  | cmdPowerOff =>
      refine Prog.Paired.seq ⟨id, doDisconnectCode_paired,
        clearKeysCode_paired.seq releaseStaCode_paired⟩ ?_
      exact ((((Prog.Paired.acts (by decide) (by decide)).whenever _).seq
        (Prog.Paired.acts (by decide) (by decide))).whenever _).seq
        (Prog.Paired.acts (by decide) (by decide))

-- ================================================================== the runs

/-- What holds in every state of every interleaving. -/
structure TearInv (t : TearSys) : Prop where
  scan : NoLinkScan t.sys
  threads : ∀ th ∈ t.tears, th.Ok
  keys : KeysLive (∃ th ∈ t.tears, th.Dangling) (view t.sys.mlme)
  linked : (∃ th ∈ t.tears, th.inGap = true) ∨ Linked (view t.sys.mlme)

/-- A thread other than the one that stepped is still there. -/
private theorem mem_set_of_mem {l : List TearThread} {i : Nat}
    {x y : TearThread} (hi : l[i]? = some y) (hx : x ∈ l)
    (z : TearThread) : x = y ∨ x ∈ l.set i z := by
  obtain ⟨j, hj⟩ := List.mem_iff_getElem?.1 hx
  by_cases hij : i = j
  · rw [hij, hj] at hi
    exact .inl (Option.some.inj hi)
  · refine .inr (List.mem_of_getElem? (i := j) ?_)
    rw [List.getElem?_set_ne hij]
    exact hj

/-- The next step of a thread. -/
private theorem tear_inv {t : TearSys} (h : TearInv t) {i : Nat}
    {th : TearThread} (hi : t.tears[i]? = some th) :
    TearInv
      { sys := { t.sys with mlme := (th.next hw t.sys.mlme).2 }
        tears := t.tears.set i (th.next hw t.sys.mlme).1 } := by
  obtain ⟨after, hpaired, hafter⟩ :=
    h.threads th (List.mem_of_getElem? hi)
  have hself : (th.next hw t.sys.mlme).1
      ∈ t.tears.set i (th.next hw t.sys.mlme).1 :=
    List.mem_of_getElem? (i := i) (by
      obtain ⟨hlt, _⟩ := List.getElem?_eq_some_iff.1 hi
      rw [List.getElem?_set_self hlt])
  have hothers : ∀ {p : TearThread → Prop},
      (p th → p (th.next hw t.sys.mlme).1) → (∃ x ∈ t.tears, p x) →
      ∃ x ∈ t.tears.set i (th.next hw t.sys.mlme).1, p x := by
    rintro p hp ⟨x, hx, hpx⟩
    rcases mem_set_of_mem hi hx (th.next hw t.sys.mlme).1 with rfl | hx
    · exact ⟨_, hself, hp hpx⟩
    · exact ⟨x, hx, hpx⟩
  have hthreads : (th.next hw t.sys.mlme).1.Ok →
      ∀ x ∈ t.tears.set i (th.next hw t.sys.mlme).1, x.Ok := by
    intro hok x hx
    rcases List.mem_or_eq_of_mem_set hx with hx | rfl
    · exact h.threads x hx
    · exact hok
  obtain ⟨tenv, code, inGap⟩ := th
  cases code with
  | done =>
      exact
        { scan := ⟨h.scan.ret, h.scan.waiters⟩
          threads := hthreads ⟨after, hpaired, hafter⟩
          keys := h.keys.weaken (hothers id)
          linked := h.linked.imp_left (hothers id) }
  | test c yes no =>
      obtain ⟨hno, hyes', hno'⟩ := hpaired
      refine
        { scan := ⟨h.scan.ret, h.scan.waiters⟩
          threads := hthreads ⟨False, ?_, False.elim⟩
          keys := h.keys.weaken (hothers fun hd => absurd trivial hd.1)
          linked := h.linked.imp_left (hothers id) }
      simp only [TearThread.next, Prog.step]
      split
      · exact hyes'
      · exact hno'
  | act op k =>
      obtain ⟨hop, hk⟩ := hpaired
      have hview : view (TearThread.next hw ⟨tenv, .act op k, inGap⟩
          t.sys.mlme).2 = op.onLink (view t.sys.mlme) :=
        view_tearOp op t.sys.mlme
      have hret : (op.onLink (view t.sys.mlme)).ret = .idle := by
        cases op with
        | returnIdle => rfl
        | staRemove =>
            simp only [TearOp.onLink]
            split <;> exact h.scan.ret
        | _ => exact h.scan.ret
      refine
        { scan := ⟨(congrArg Link.ret hview).trans hret, h.scan.waiters⟩
          threads := hthreads ⟨op = .freePtk, hk, fun heq => ?_⟩
          keys := ?_
          linked := ?_ }
      · rw [heq]
        rfl
      · rw [show view _ = _ from hview]
        by_cases hfree : op = .freePtk
        · -- the thread dangles now
          subst hfree
          refine freePtk_keysLive h.keys ⟨_, hself, ?_⟩
          rw [eq_self] at hk
          exact hk
        · by_cases hnull : op = .nullPtk
          · rw [hnull]
            exact nullPtk_keysLive h.keys
          · refine (onLink_keysLive h.keys hfree).weaken (hothers ?_)
            exact fun hd => absurd (hd.1.1 trivial) hnull
      · rw [show view _ = _ from hview]
        by_cases hnull : op = .nullPtk
        · -- only a thread in its gap gets here
          refine .inl ⟨_, hself, ?_⟩
          rw [hnull]
          exact hafter (hop.2 hnull)
        · by_cases hfree : op = .freePtk
          · refine .inl ⟨_, hself, ?_⟩
            rw [hfree]
            rfl
          · by_cases hclose : op = .nullSta ∨ op = .stateIdle
            · exact .inr (onLink_linked (.inr hclose) hnull)
            · rcases h.linked with hgap | hlinked
              · refine .inl (hothers (fun hg => ?_) hgap)
                have hsame : gapAfter op inGap = inGap := by
                  cases op <;> simp at hclose hfree <;> rfl
                exact hsame.trans hg
              · exact .inr (onLink_linked (.inl hlinked) hnull)

/-- `TearInv` is an invariant of every interleaving. -/
theorem tearStep_inv {t : TearSys} (h : TearInv t) (e : TearEvent) :
    TearInv (tearStep hw t e) := by
  cases e with
  | sys e =>
      have hmoves := sysStep_moves h.scan (Allowed.all hw t.sys e)
      exact
        { scan := sysStep_noLinkScan h.scan e
          threads := h.threads
          keys := hmoves.inv Move.keysLive h.keys
          linked := h.linked.imp_right (hmoves.inv Move.linked) }
  | begin path env =>
      have hold : ∀ {p : TearThread → Prop} {x : TearThread},
          (∃ y ∈ t.tears, p y) → ∃ y ∈ t.tears ++ [x], p y :=
        fun ⟨y, hy, hp⟩ => ⟨y, List.mem_append_left _ hy, hp⟩
      refine
        { scan := h.scan
          threads := fun th hth => ?_
          keys := h.keys.weaken hold
          linked := h.linked.imp_left hold }
      rcases List.mem_append.1 hth with hth | hth
      · exact h.threads th hth
      · rw [List.mem_singleton.1 hth]
        exact ⟨False, path.code_paired, False.elim⟩
  | tear i =>
      simp only [tearStep]
      cases hi : t.tears[i]? with
      | none => exact h
      | some th => exact tear_inv h hi

theorem TearInv.init (powered : Bool) : TearInv (TearSys.init powered) where
  scan := NoLinkScan.init powered
  threads _ hth := by cases hth
  keys := ⟨fun _ hk => (by cases hk), fun _ hk => (by cases hk),
    fun _ ha => (by cases ha), fun _ _ hk => (by cases hk),
    .inr fun _ hk => (by cases hk)⟩
  linked := .inr fun hs => by cases hs

-- ==================================================================== result

/-- What `outputPacket` hands over as a data frame other than EAPOL, when
there is a pairwise key. -/
private theorem outputPacket_guarded {s : Mlme} {m : List UInt8}
    {skb : TxSkb} (hret : s.scanReturnState = .idle) (hwpa : s.wpa2 = true)
    (hlog : (outputPacket hw env m s).2.log = .tx skb :: s.log)
    (hproto : skb.protocol ≠ some ethPPae) :
    handsOver env m s = true ∧ ∀ k, s.ptkConf = some k →
      .freeKey k.addr ∉ s.log → GuardedTx s skb := by
  have hgrow : ∀ t : Mlme, t.log = s.log → t.log ≠ .tx skb :: s.log := by
    intro t ht heq
    rw [ht] at heq
    exact absurd (congrArg List.length heq) (by simp)
  have hcounters : ∀ key, (txCounters key s).log = s.log := by
    intro key
    rw [txCounters]
    split <;> simp only [takePn, takeSeq] <;> split <;> rfl
  simp only [outputPacket] at hlog
  split at hlog
  · exact absurd hlog (hgrow s rfl)
  next hgate =>
    rw [txDataFrame] at hlog
    cases hsta : s.sta with
    | none =>
        rw [hsta] at hlog
        exact absurd hlog (hgrow s rfl)
    | some sta =>
        simp only [hsta] at hlog
        split at hlog
        · exact absurd hlog (hgrow s rfl)
        next hargs =>
          split at hlog
          · exact absurd hlog (hgrow _ (hcounters _))
          next hcopy =>
            have htx := (List.cons.inj hlog).1
            have hskb := (Obs.tx.inj htx).symm
            have htype : be16At m 12 ≠ ethPPae := by
              rw [hskb] at hproto
              exact fun heq => hproto (congrArg some heq)
            constructor
            · simp only [hret, Bool.or_eq_true, Bool.not_eq_true',
                not_or, Bool.not_eq_false, decide_eq_true_eq] at hgate hargs
              have hstate : s.state = .connected := by
                by_contra hne
                simp [hne] at hgate
              simp only [handsOver, hwpa, hstate, hsta]
              have hcopy' : m.length ≤ 14 ∨ env.payloadCopy = true := by
                simpa [imp_iff_not_or] using hcopy
              simpa [hargs, htype] using hcopy'
            · intro k hconf hlive
              have hkey : txKey (be16At m 12) s = some k := by
                simp [txKey, hwpa, htype, hconf]
              rw [hskb, hkey]
              obtain ⟨hdr, rest, heq, hlen, hge, hbit⟩ :=
                @dataFrame_split hw m
                  (if htAllowed s then s.dataSeq else s.txSeq) k
                  (txCounters (some k) s).ccmpTxPn (txCounters (some k) s)
              have hfc : frameControl (dataFrame hw m
                  (if htAllowed s then s.dataSeq else s.txSeq) (some k)
                  (txCounters (some k) s).ccmpTxPn (txCounters (some k) s))
                  = frameControl hdr := by
                rw [heq]
                exact frameControl_append hge _
              refine ⟨?_, k, (txCounters (some k) s).ccmpTxPn, hconf, rfl,
                hlive, ?_⟩
              · simp only [hfc]
                exact hbit
              · rw [hfc, hlen, heq, List.drop_left]
                exact List.take_left' rfl

/-- In every interleaving of the system with any number of teardowns: if
no data frame other than EAPOL is transmitted on a WPA2 link while a
teardown stands between `IOFree(_ptkConf)` and the write that closes the
gate, then every such frame is protected under the live pairwise key. -/
theorem data_guarded_outside_gap (powered : Bool) (es : List TearEvent)
    (h : Along (tearStep hw) OutsideGap (TearSys.init powered) es) :
    Along (tearStep hw) (GuardsData hw) (TearSys.init powered) es := by
  refine along_of_inv (I := TearInv) (fun t e hinv hout => ?_)
    (TearInv.init powered) h
  refine ⟨tearStep_inv hinv e, ?_⟩
  rintro ⟨env, m⟩ hx hwpa skb hlog hproto
  obtain ⟨hover, hguard⟩ :=
    outputPacket_guarded hinv.scan.ret hwpa hlog hproto
  have hgap := hout (env, m) hx hover
  have hnogap : ¬∃ th ∈ t.tears, th.inGap = true := by
    rintro ⟨th, hth, hin⟩
    rw [hgap th hth] at hin
    cases hin
  have hnodangle : ¬∃ th ∈ t.tears, th.Dangling := by
    rintro ⟨th, hth, hd⟩
    obtain ⟨after, hpaired, hafter⟩ := hinv.threads th hth
    exact hnogap ⟨th, hth, hafter ((hpaired.after_iff hd).2 trivial)⟩
  simp only [handsOver, Bool.and_eq_true, beq_iff_eq] at hover
  have hlinked := hinv.linked.resolve_left hnogap hover.1.1.1.1.1.1.1.1.2
    hwpa hover.1.1.1.1.1.1.2
  obtain ⟨k, hconf⟩ := Option.isSome_iff_exists.1 hlinked
  refine hguard k hconf fun hmem => ?_
  exact hinv.keys.live.resolve_left hnodangle k hconf
    (List.mem_filter.2 ⟨hmem, rfl⟩)

/-- The sample network is joined and left, statement by statement, with a
packet to send before, one when `IOFree(_ptkConf)` is next, one behind
`_sta = nullptr` and one at the end. -/
theorem sample_teardown_guarded :
    let send := TearEvent.sys (.output {} samplePacket)
    let es := joinEvents.map TearEvent.sys
      ++ send :: .begin .cmdDisconnect {} :: List.replicate 7 (.tear 0)
      ++ send :: List.replicate 13 (.tear 0)
      ++ send :: List.replicate 20 (.tear 0) ++ [send]
    let hw := sampleHw samplePrims
    Along (tearStep hw) (GuardsData hw) (TearSys.init true) es :=
  data_guarded_outside_gap true _ (by decide +kernel)

/-- A data frame without a key is not guarded. -/
private theorem GuardsData.not_of_clear {t : TearSys} {m : List UInt8}
    (skb : TxSkb) (hwpa : t.sys.mlme.wpa2 = true)
    (hsent : (outputPacket hw env m t.sys.mlme).2.log
      = .tx skb :: t.sys.mlme.log)
    (hproto : skb.protocol ≠ some ethPPae) (hclear : skb.hwKey = none) :
    ¬GuardsData hw t (.sys (.output env m)) := by
  intro h
  obtain ⟨k, _, _, hkey, _⟩ := (h (env, m) rfl hwpa skb hsent hproto).key
  rw [hclear] at hkey
  cases hkey

/-- The sample link when `cmdDisconnect` has come past
`_ptkConf = nullptr`. -/
def sampleGap : TearSys :=
  tearRun (sampleHw samplePrims) true (joinEvents.map TearEvent.sys
    ++ .begin .cmdDisconnect {} :: List.replicate 9 (.tear 0))

/-- A frame that is transmitted there is in the clear. -/
theorem cleartext_in_gap :
    sampleGap.sys.mlme.wpa2 = true ∧ ¬GuardsData (sampleHw samplePrims)
      sampleGap (.sys (.output {} samplePacket)) := by
  have hwpa : sampleGap.sys.mlme.wpa2 = true := by decide +kernel
  let skb : TxSkb :=
    { data := dataFrame (sampleHw samplePrims) samplePacket 2 none (zeros 6)
        sampleGap.sys.mlme
      flags := txCtlFirstFragment, sta := some 1, hwKey := none
      protocol := some 0x0800 }
  refine ⟨hwpa, GuardsData.not_of_clear skb hwpa ?_ ?_ rfl⟩
  · decide +kernel
  · decide

end Rtw88
