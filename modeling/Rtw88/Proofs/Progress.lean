/-
What moves a connection attempt on: authentication and association
responses.

Both branches look at the BSSID only. The receiver address is not
compared, a short authentication body counts as success, a frame shorter
than its header has a body length that wrapped around, and the status of
an association response is read after the frame was released.
`TakesOwnReply` is what a frame that is taken must be for none of this
to matter.

# The equivalence

A frame either is taken by one of the two branches, or moves nothing
(`processRxMgmt_progress`); so the result is an equivalence for each
branch (`auth_progress_iff`, `assoc_progress_iff`). To move an attempt on
is to change the state, the timer, the AID, the station or a key, and
`Untouched` is that none of it happened.

What is read beyond the frame, or of a frame that was freed, is memory
that is no longer the frame's, and may hold anything. Inside the frame
the memory is the frame (`mem_le16At`), which is why the condition asks
for a complete body, and for the association response that the memory
still holds it.
-/
import Rtw88.Proofs.Link.View
import Rtw88.Proofs.RxAccess
import Rtw88.Spec.AccessPoint
import Rtw88.Spec.Frames
import Rtw88.Spec.Steps

namespace Rtw88

variable {hw : Hw} {env : Env}

-- =============================================================== vocabulary

/-- The frame passes the address tests: it is for this client, from the
target. -/
def AddressedToUs (hw : Hw) (skb : SkBuff) (s : Mlme) : Prop :=
  addr1 skb.mem = hw.macAddr ∧ addr3 skb.mem = s.targetBSS.bssid

/-- A complete body with status 0 at the given offset of the frame. -/
def Succeeds (skb : SkBuff) (off : Nat) : Prop :=
  30 ≤ skb.data.length ∧ le16At skb.data off = 0

/-- State, AID, station, keys and timer are as they were. -/
structure Untouched (s t : Mlme) : Prop where
  state : t.state = s.state
  aid : t.assocAID = s.assocAID
  sta : t.sta = s.sta
  ptkConf : t.ptkConf = s.ptkConf
  gtkConf : t.gtkConf = s.gtkConf
  ptk : t.ptk = s.ptk
  pmk : t.pmk = s.pmk
  timer : t.timer = s.timer

/-- The frame moved the attempt from `s` to `t` only if it is the
target's complete, successful response to this client. -/
structure ProgressOnSuccess (hw : Hw) (skb : SkBuff) (s t : Mlme) : Prop where
  auth : s.state = .authenticating → t.state = .associating →
    mgmtStype skb = 0x00B0 ∧ AddressedToUs hw skb s ∧ Succeeds skb 28
  assoc : s.state = .associating →
    (t.state = .handshaking ∨ t.state = .connected) →
    IsAssocReply skb ∧ AddressedToUs hw skb s ∧ Succeeds skb 26
  refused : mgmtStype skb = 0x00B0 ∨ IsAssocReply skb →
    ¬AddressedToUs hw skb s → Untouched s t

-- ================================================================ condition

/-- The authentication branch goes on to associate. -/
def authPasses (skb : SkBuff) : Bool :=
  bodyLen skb < 6 || le16At skb.mem 28 == 0

/-- A frame that the authentication or the association branch takes is
for this client; one that passes is not shorter than it has to be; and
the association status is still there when it is read. -/
structure TakesOwnReply (hw : Hw) (env : Env) (skb : SkBuff) (s : Mlme) :
    Prop where
  auth : s.state = .authenticating → mgmtStype skb = 0x00B0 →
    addr3 skb.mem = s.targetBSS.bssid →
    (authPasses skb = false ∨ s.up = true → addr1 skb.mem = hw.macAddr)
      ∧ (authPasses skb = true → s.up = true → 30 ≤ skb.data.length)
  assoc : s.state = .associating → IsAssocReply skb →
    addr3 skb.mem = s.targetBSS.bssid →
    addr1 skb.mem = hw.macAddr
      ∧ (assocOk env skb s = true →
        24 ≤ skb.data.length ∧ le16At skb.data 26 = 0)

-- ================================================================= the branches

theorem Untouched.kfreeSkb (skb : SkBuff) (s : Mlme) :
    Untouched s (kfreeSkb skb s) := ⟨rfl, rfl, rfl, rfl, rfl, rfl, rfl, rfl⟩

/-- The association request is sent, unless the driver is gone. -/
private theorem doAssociate_state {s : Mlme} (hup : s.up = true) :
    (doAssociate hw env s).state = .associating := by
  rw [doAssociate, if_neg (by simp [hup])]
  rfl

private theorem doAssociate_down {s : Mlme} (hup : s.up = false) :
    doAssociate hw env s = s := by
  rw [doAssociate, if_pos (by simp [hup])]

/-- An accepted association leaves ASSOCIATING. -/
private theorem enterLink_progress (s : Mlme) :
    (enterLink hw env s).state = .handshaking
      ∨ (enterLink hw env s).state = .connected := by
  simp only [enterLink]
  split
  · exact .inl rfl
  · right
    exact congrArg Link.state (view_startTxAggregation
      (((s.emit .associated).setState .connected).emit (.setLinkStatus true)))

/-- Inside the frame the memory is the frame. -/
private theorem mem_le16At {skb : SkBuff} {off : Nat}
    (hlen : off + 1 < skb.data.length) :
    le16At skb.mem off = le16At skb.data off := by
  rw [SkBuff.mem, le16At, le16At, peek_append_left (by omega),
    peek_append_left (by omega)]

/-- The authentication branch, once the frame is taken. -/
private theorem processRxMgmt_auth {skb : SkBuff} {s : Mlme}
    (hst : s.state = .authenticating) (htype : mgmtStype skb = 0x00B0)
    (hbssid : addr3 skb.mem = s.targetBSS.bssid) :
    processRxMgmt hw env skb s
      = kfreeSkb skb (if authPasses skb then doAssociate hw env s
        else s.setState .idle) := by
  have htype' : frameControl skb.mem &&& 0x00f0 = 0x00B0 := htype
  simp only [processRxMgmt, htype']
  rw [if_neg (by decide), if_pos trivial, if_neg (by simp [hst]),
    if_neg (by simp [hbssid]), authPasses]
  by_cases hshort : bodyLen skb < 6
  · simp [hshort]
  · by_cases hstatus : le16At skb.mem 28 = 0
    · simp [hshort, hstatus]
    · simp [hshort, hstatus]

/-- The association branch, once the frame is taken. -/
private theorem processRxMgmt_assoc {skb : SkBuff} {s : Mlme}
    (hst : s.state = .associating) (htype : IsAssocReply skb)
    (hbssid : addr3 skb.mem = s.targetBSS.bssid) :
    (assocOk env skb s = true →
        (processRxMgmt hw env skb s).state = .handshaking
          ∨ (processRxMgmt hw env skb s).state = .connected)
      ∧ (assocOk env skb s = false →
        processRxMgmt hw env skb s = (kfreeSkb skb s).setState .idle) := by
  have hbranch : processRxMgmt hw env skb s
      = processAssocResponse hw env skb s := by
    have htype' : frameControl skb.mem &&& 0x00f0 = 0x0010
        ∨ frameControl skb.mem &&& 0x00f0 = 0x0030 := htype
    simp only [processRxMgmt]
    rcases htype' with h | h <;>
      simp only [h] <;>
      rw [if_neg (by decide), if_neg (by decide), if_pos (by decide),
        if_pos hst]
  rw [hbranch, processAssocResponse, if_neg (not_not.2 hbssid)]
  constructor
  · intro hok
    simp only [assocOk, Bool.and_eq_true, Bool.not_eq_true',
      decide_eq_false_iff_not, beq_iff_eq] at hok
    simp only [if_neg hok.1.2, if_neg (not_not.2 hok.2)]
    exact enterLink_progress _
  · intro hno
    by_cases hshort : bodyLen skb < 6
    · simp only [if_pos hshort]
    · have hstatus : le16At (env.freed.getD skb.mem) 26 ≠ 0 := by
        intro hzero
        simp [assocOk, hbssid, hshort, hzero] at hno
      simp only [if_neg hshort, if_pos hstatus]

-- ================================================================ other frames

/-- A response that is not from the target is released, no more. -/
private theorem processRxMgmt_stray {skb : SkBuff} {s : Mlme}
    (htype : mgmtStype skb = 0x00B0 ∨ IsAssocReply skb)
    (htaken : ¬(s.state = .authenticating ∧ mgmtStype skb = 0x00B0
        ∧ addr3 skb.mem = s.targetBSS.bssid)
      ∧ ¬(s.state = .associating ∧ IsAssocReply skb
        ∧ addr3 skb.mem = s.targetBSS.bssid)) :
    processRxMgmt hw env skb s = kfreeSkb skb s := by
  obtain ⟨hauth, hassoc⟩ := htaken
  rcases htype with htype | htype
  · have htype' : frameControl skb.mem &&& 0x00f0 = 0x00B0 := htype
    simp only [processRxMgmt, htype']
    rw [if_neg (by decide), if_pos trivial]
    by_cases hst : s.state = .authenticating
    · have hbssid : addr3 skb.mem ≠ s.targetBSS.bssid :=
        fun h => hauth ⟨hst, htype, h⟩
      rw [if_neg (not_not.2 hst), if_pos hbssid]
    · rw [if_pos hst]
  · have hbranch : processRxMgmt hw env skb s = if s.state = .associating
        then processAssocResponse hw env skb s else kfreeSkb skb s := by
      have htype' : frameControl skb.mem &&& 0x00f0 = 0x0010
          ∨ frameControl skb.mem &&& 0x00f0 = 0x0030 := htype
      simp only [processRxMgmt]
      rcases htype' with h | h <;>
        simp only [h] <;>
        rw [if_neg (by decide), if_neg (by decide), if_pos (by decide)]
    rw [hbranch]
    by_cases hst : s.state = .associating
    · have hbssid : addr3 skb.mem ≠ s.targetBSS.bssid :=
        fun h => hassoc ⟨hst, htype, h⟩
      rw [if_pos hst, processAssocResponse, if_pos hbssid]
    · rw [if_neg hst]

/-- Only a response of the target moves an attempt on. -/
private theorem processRxMgmt_progress {skb : SkBuff} {s : Mlme}
    (hst : s.state = .authenticating ∨ s.state = .associating)
    (h : mgmtStype skb ≠ 0x00B0 ∧ ¬IsAssocReply skb) :
    (processRxMgmt hw env skb s).state = s.state := by
  obtain ⟨hauth, hassoc⟩ := h
  rw [mgmtStype] at hauth
  rw [IsAssocReply, mgmtStype] at hassoc
  simp only [processRxMgmt]
  split
  · rw [if_neg (by rcases hst with h | h <;> rw [h] <;> decide)]
    rfl
  · split
    · rw [if_neg (by rcases hst with h | h <;> simp [h])]
      rfl
    · split
      · rw [if_neg (by rcases hst with h | h <;> simp [h])]
        rfl
      · rfl

-- ==================================================================== result

/-- A frame that the authentication branch takes. -/
private theorem auth_progress_iff {skb : SkBuff} {s : Mlme}
    (hlen : skb.data.length < 2 ^ 32) (hst : s.state = .authenticating)
    (htype : mgmtStype skb = 0x00B0)
    (hbssid : addr3 skb.mem = s.targetBSS.bssid) :
    ProgressOnSuccess hw skb s (processRxMgmt hw env skb s)
      ↔ TakesOwnReply hw env skb s := by
  rw [processRxMgmt_auth hst htype hbssid]
  constructor
  · intro h
    refine ⟨fun _ _ _ => ⟨fun hacts => ?_, fun hpass hup => ?_⟩,
      fun hst' => (by rw [hst] at hst'; cases hst')⟩
    · by_contra hne
      have hkept := (h.refused (.inl htype) fun hus => hne hus.1).state
      rw [hst] at hkept
      cases hpass : authPasses skb with
      | false =>
          rw [hpass, if_neg Bool.false_ne_true] at hkept
          cases hkept
      | true =>
          have hup := hacts.resolve_left (by simp [hpass])
          rw [hpass, if_pos rfl] at hkept
          rw [show (kfreeSkb skb (doAssociate hw env s)).state = .associating
            from doAssociate_state hup] at hkept
          cases hkept
    · refine (h.auth hst ?_).2.2.1
      rw [hpass, if_pos rfl]
      exact doAssociate_state hup
  · intro h
    obtain ⟨hus, hlong⟩ := h.auth hst htype hbssid
    refine ⟨fun _ hst' => ?_, fun hst' => (by rw [hst] at hst'; cases hst'),
      fun _ hnot => ?_⟩
    · cases hpass : authPasses skb with
      | false =>
          rw [hpass, if_neg Bool.false_ne_true] at hst'
          cases hst'
      | true =>
          cases hup : s.up with
          | false =>
              rw [hpass, if_pos rfl, doAssociate_down hup] at hst'
              rw [show (kfreeSkb skb s).state = s.state from rfl, hst] at hst'
              cases hst'
          | true =>
              have h30 := hlong hpass hup
              refine ⟨htype, ⟨hus (.inr hup), hbssid⟩, h30, ?_⟩
              have hbody : ¬bodyLen skb < 6 := by
                rw [bodyLen]
                omega
              simp only [authPasses, hbody, decide_false, Bool.false_or,
                beq_iff_eq] at hpass
              rw [← mem_le16At (by omega)]
              exact hpass
    · have hne : addr1 skb.mem ≠ hw.macAddr := fun heq => hnot ⟨heq, hbssid⟩
      have hquiet : authPasses skb = true ∧ s.up = false := by
        constructor
        · by_contra hpass
          exact hne (hus (.inl (by simpa using hpass)))
        · by_contra hup
          exact hne (hus (.inr (by simpa using hup)))
      rw [hquiet.1, if_pos rfl, doAssociate_down hquiet.2]
      exact .kfreeSkb skb s

/-- A frame that the association branch takes. -/
private theorem assoc_progress_iff {skb : SkBuff} {s : Mlme}
    (hst : s.state = .associating) (htype : IsAssocReply skb)
    (hbssid : addr3 skb.mem = s.targetBSS.bssid) :
    ProgressOnSuccess hw skb s (processRxMgmt hw env skb s)
      ↔ TakesOwnReply hw env skb s := by
  obtain ⟨hon, hoff⟩ := @processRxMgmt_assoc hw env skb s hst htype hbssid
  constructor
  · intro h
    refine ⟨fun hst' => (by rw [hst] at hst'; cases hst'),
      fun _ _ _ => ⟨?_, fun hok => ?_⟩⟩
    · by_contra hne
      have hkept := (h.refused (.inr htype) fun hus => hne hus.1).state
      rw [hst] at hkept
      cases hok : assocOk env skb s with
      | true => rcases hon hok with hst' | hst' <;> rw [hst'] at hkept <;>
          cases hkept
      | false =>
          rw [hoff hok] at hkept
          cases hkept
    · obtain ⟨-, -, hlen, hstatus⟩ := h.assoc hst (hon hok)
      exact ⟨by omega, hstatus⟩
  · intro h
    obtain ⟨hus, hread⟩ := h.assoc hst htype hbssid
    refine ⟨fun hst' => (by rw [hst] at hst'; cases hst'), fun _ hst' => ?_,
      fun _ hnot => absurd ⟨hus, hbssid⟩ hnot⟩
    cases hok : assocOk env skb s with
    | false =>
        rw [hoff hok] at hst'
        rcases hst' with hst' | hst' <;> cases hst'
    | true =>
        obtain ⟨hlen, hstatus⟩ := hread hok
        simp only [assocOk, Bool.and_eq_true, Bool.not_eq_true',
          decide_eq_false_iff_not] at hok
        exact ⟨htype, ⟨hus, hbssid⟩, length_of_bodyLen hlen hok.1.2, hstatus⟩

/-- A received management frame (its length is a 32-bit field) moves an
attempt on only as it should, if and only if `TakesOwnReply`. -/
theorem progress_on_success_iff (skb : SkBuff)
    (hlen : skb.data.length < 2 ^ 32) (s : Mlme) :
    ProgressOnSuccess hw skb s (processRxMgmt hw env skb s)
      ↔ TakesOwnReply hw env skb s := by
  by_cases hauth : s.state = .authenticating ∧ mgmtStype skb = 0x00B0
      ∧ addr3 skb.mem = s.targetBSS.bssid
  · exact auth_progress_iff hlen hauth.1 hauth.2.1 hauth.2.2
  · by_cases hassoc : s.state = .associating ∧ IsAssocReply skb
        ∧ addr3 skb.mem = s.targetBSS.bssid
    · exact assoc_progress_iff hassoc.1 hassoc.2.1 hassoc.2.2
    · -- the frame is not taken
      constructor
      · intro _
        exact ⟨fun hst htype hbssid => absurd ⟨hst, htype, hbssid⟩ hauth,
          fun hst htype hbssid => absurd ⟨hst, htype, hbssid⟩ hassoc⟩
      · intro _
        by_cases htype : mgmtStype skb = 0x00B0 ∨ IsAssocReply skb
        · rw [processRxMgmt_stray htype ⟨hauth, hassoc⟩]
          refine ⟨fun hst hst' => ?_, fun hst hst' => ?_,
            fun _ _ => .kfreeSkb skb s⟩
          · rw [show (kfreeSkb skb s).state = s.state from rfl, hst] at hst'
            cases hst'
          · rw [show (kfreeSkb skb s).state = s.state from rfl, hst] at hst'
            rcases hst' with hst' | hst' <;> cases hst'
        · obtain ⟨hno, hno'⟩ := not_or.1 htype
          refine ⟨fun hst hst' => ?_, fun hst hst' => ?_,
            fun h => absurd h htype⟩
          · rw [processRxMgmt_progress (.inl hst) ⟨hno, hno'⟩, hst] at hst'
            cases hst'
          · rw [processRxMgmt_progress (.inr hst) ⟨hno, hno'⟩, hst] at hst'
            rcases hst' with hst' | hst' <;> cases hst'

/-- The sample network's own response. -/
theorem sample_auth_progress :
    let hw := sampleHw samplePrims
    let s := (sysRun hw true (scanEvents ccmpIe ++ authEvents)).mlme
    let skb := authFrame sampleMac sampleAp 0
    ProgressOnSuccess hw skb s (processRxMgmt hw {} skb s)
      ↔ TakesOwnReply hw {} skb s :=
  progress_on_success_iff _ (by decide) _

/-- An authentication frame without a body, for another station, moves
the sample client on. -/
theorem short_auth_for_other_accepted :
    let hw := sampleHw samplePrims
    let s := (sysRun hw true (scanEvents ccmpIe ++ authEvents)).mlme
    let skb := apFrame 0x00B0 broadcast sampleAp []
    s.state = .authenticating
      ∧ (processRxMgmt hw {} skb s).state = .associating
      ∧ ¬ProgressOnSuccess hw skb s (processRxMgmt hw {} skb s) := by
  intro hw s skb
  have hst : s.state = .authenticating := by decide +kernel
  have hst' : (processRxMgmt hw {} skb s).state = .associating := by
    decide +kernel
  refine ⟨hst, hst', fun h => ?_⟩
  have hlen := (h.auth hst hst').2.2.1
  revert hlen
  decide +kernel

end Rtw88
