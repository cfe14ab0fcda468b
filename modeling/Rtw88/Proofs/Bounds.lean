/-
Bounds of the receive path. Behind a length test every routine stays
inside the frame; what comes before one decides: `frame_control`, the
addresses of a management header, and the length of its body.

# Exactly which frames

The result is an equivalence, so for each branch of the dispatch it is
said exactly when its reads are inside (`…T_fits`). Most branches test
the length first, and then the answer is always. Three things come
before a test:

- `frame_control` of every frame: two bytes;
- the addresses of a management frame, compared in some states and not
  in others (`fromTargetT_fits`, `deauthT_fits`);
- the length of an authentication or association response behind its
  header, an unsigned subtraction that wraps around for a frame shorter
  than the header (`replyFits_iff`).

Data frames are the other half. A header is as long as `frame_control`
says, and every routine tests that length before it reads behind the
first two bytes (`le_hdrlen`, `processRxDataT_fits`).
-/
import Rtw88.Proofs.RxAccess
import Rtw88.Spec.AccessPoint
import Rtw88.Spec.Frames

namespace Rtw88

open Traced

variable {hw : Hw} {env : Env} {len : Nat}

-- ======================================================== management frames

/-- Releasing a frame reads nothing of it. -/
@[simp] theorem fits_kfreeSkbT (skb : SkBuff) (s : Mlme) :
    (kfreeSkbT skb s).Fits len := fits_single.2 trivial

/-- The length behind the header needs the header. -/
@[simp] theorem fits_bodyLenT (skb : SkBuff) :
    (bodyLenT skb).Fits len ↔ 24 ≤ skb.data.length := fits_single

/-- A beacon is read inside, whatever its length. -/
private theorem processScanResultT_fits (skb : SkBuff) (s : Mlme) :
    (processScanResultT env skb s).Fits skb.data.length := by
  rw [processScanResultT]
  split
  · exact fits_kfreeSkbT skb s
  next h =>
    simp only [Bool.or_eq_true, decide_eq_true_eq, not_or, not_lt] at h
    rw [fits_bind]
    refine ⟨(scanEntryT_looks s.scanGeneration (by omega)).2, ?_⟩
    cases updateBss (scanEntryT skb s.scanGeneration).val s.bssList with
    | some l => exact fits_kfreeSkbT skb _
    | none => exact fits_kfreeSkbT skb _

/-- What the tests of an authentication or association response read. -/
private def ReplyFits (skb : SkBuff) (s : Mlme) : Prop :=
  22 ≤ skb.data.length
    ∧ (addr3 skb.mem = s.targetBSS.bssid → 24 ≤ skb.data.length)

/-- Both start alike: compare `addr3`, free the frame if it is not from
the target, else compute the length of the body. -/
private theorem replyFits_iff {skb : SkBuff} {s : Mlme}
    {f : Nat → Traced Mlme}
    (hf : 24 ≤ skb.data.length → (f (bodyLen skb)).Fits skb.data.length) :
    (do
      let bssid ← copy 0 skb.mem 16 6
      if bssid ≠ s.targetBSS.bssid then kfreeSkbT skb s
      else do
        let bodylen ← bodyLenT skb
        f bodylen : Traced Mlme).Fits skb.data.length
      ↔ ReplyFits skb s := by
  rw [fits_bind, fits_copy]
  refine and_congr_right fun _ => ?_
  rw [show (copy 0 skb.mem 16 6).val = addr3 skb.mem from rfl]
  by_cases hbssid : addr3 skb.mem = s.targetBSS.bssid
  · rw [if_neg (not_not.2 hbssid), fits_bind, fits_bodyLenT, bodyLenT_val]
    constructor
    · exact fun h _ => h.1
    · exact fun h => ⟨h hbssid, hf (h hbssid)⟩
  · rw [if_pos hbssid]
    exact ⟨fun _ h => absurd h hbssid, fun _ => fits_kfreeSkbT skb s⟩

/-- An authentication frame, exactly where a reply fits. -/
private theorem authRespT_fits (skb : SkBuff) (s : Mlme) :
    (authRespT hw env skb s).Fits skb.data.length ↔ ReplyFits skb s := by
  refine replyFits_iff fun hlen => ?_
  split
  · exact fits_kfreeSkbT skb _
  next hbody =>
    have h30 := length_of_bodyLen hlen hbody
    rw [fits_bind, fits_readLe16]
    refine ⟨by omega, ?_⟩
    split
    · exact fits_kfreeSkbT skb _
    · exact fits_kfreeSkbT skb _

/-- An association response, exactly where a reply fits. -/
private theorem processAssocResponseT_fits (skb : SkBuff) (s : Mlme) :
    (processAssocResponseT hw env skb s).Fits skb.data.length
      ↔ ReplyFits skb s := by
  refine replyFits_iff fun hlen => ?_
  rw [fits_bind]
  refine ⟨fits_kfreeSkbT skb s, ?_⟩
  simp only
  split
  · exact fits_pure _
  next hbody =>
    have h30 := length_of_bodyLen hlen hbody
    rw [fits_bind, fits_readLe16, fits_bind, fits_readLe16]
    refine ⟨by omega, by omega, ?_⟩
    split
    · exact fits_pure _
    · exact fits_pure _

/-- The two addresses end at byte 22. -/
private theorem fromTargetT_fits (skb : SkBuff) (s : Mlme) :
    (fromTargetT skb s).Fits skb.data.length ↔ 22 ≤ skb.data.length := by
  rw [fromTargetT, fits_bind, fits_copy]
  refine and_iff_left_of_imp fun h => ?_
  split
  · exact fits_pure true
  · rw [fits_bind, fits_copy]
    exact ⟨by omega, fits_pure _⟩

/-- A deauthentication reads no further. -/
private theorem deauthT_fits (skb : SkBuff) (s : Mlme) :
    (deauthT hw skb s).Fits skb.data.length ↔ 22 ≤ skb.data.length := by
  rw [deauthT, fits_bind, fromTargetT_fits]
  refine and_iff_left_of_imp fun h => ?_
  rw [fits_bind, fits_copy]
  refine ⟨by omega, ?_⟩
  split
  · exact fits_kfreeSkbT skb s
  · rw [fits_bind, fits_accessIf]
    exact ⟨id, fits_kfreeSkbT skb _⟩

/-- An action frame is read behind its length tests. -/
private theorem actionT_fits (skb : SkBuff) (s : Mlme) :
    (actionT hw env skb s).Fits skb.data.length := by
  rw [actionT, fits_bind, fits_accessIf]
  refine ⟨fun h => Nat.le_of_lt h, ?_⟩
  split
  next hlen =>
    rw [fits_bind, fits_readByte]
    refine ⟨by omega, ?_⟩
    split
    · rw [fits_bind, fits_copy]
      refine ⟨by omega, ?_⟩
      split
      · rw [fits_bind]
        refine ⟨(handleBackActionT_looks s ?_).2, fits_kfreeSkbT skb _⟩
        rw [List.length_drop]
        omega
      · exact fits_kfreeSkbT skb s
    · exact fits_kfreeSkbT skb s
  next => exact fits_kfreeSkbT skb s

/-- The states in which a link is up. -/
private theorem rxConnected_iff (s : Mlme) :
    rxConnected s = true ↔ s.state = .connected ∨ s.state = .handshaking
      ∨ (s.state = .scanning ∧ s.scanReturnState = .connected) := by
  simp only [rxConnected, Bool.or_eq_true, Bool.and_eq_true, beq_iff_eq,
    or_assoc]

/-- The subtype of a frame that waits for an answer to its own tests. -/
private theorem stype_cases (st : UInt16) :
    (st = 0x00B0 ∧ ¬(st = 0x0010 ∨ st = 0x0030) ∧ ¬(st = 0x00A0 ∨ st = 0x00C0)
        ∧ ¬(st = 0x0080 ∨ st = 0x0050))
      ∨ (st ≠ 0x00B0 ∧ (st = 0x0010 ∨ st = 0x0030)
        ∧ ¬(st = 0x00A0 ∨ st = 0x00C0) ∧ ¬(st = 0x0080 ∨ st = 0x0050))
      ∨ (st ≠ 0x00B0 ∧ ¬(st = 0x0010 ∨ st = 0x0030)
        ∧ (st = 0x00A0 ∨ st = 0x00C0) ∧ ¬(st = 0x0080 ∨ st = 0x0050))
      ∨ (st ≠ 0x00B0 ∧ ¬(st = 0x0010 ∨ st = 0x0030)
        ∧ ¬(st = 0x00A0 ∨ st = 0x00C0)) := by
  by_cases hauth : st = 0x00B0
  · subst hauth
    decide
  · by_cases hreply : st = 0x0010 ∨ st = 0x0030
    · rcases hreply with rfl | rfl <;> decide
    · by_cases hbye : st = 0x00A0 ∨ st = 0x00C0
      · rcases hbye with rfl | rfl <;> decide
      · exact .inr (.inr (.inr ⟨hauth, hreply, hbye⟩))

/-- The branches of `processRxMgmt`, behind `frame_control`. -/
private theorem processRxMgmtT_fits (skb : SkBuff) (s : Mlme) :
    (processRxMgmtT hw env skb s).Fits skb.data.length
      ↔ 2 ≤ skb.data.length
        ∧ ((mgmtStype skb = 0x00B0 ∧ s.state = .authenticating)
            ∨ (IsAssocReply skb ∧ s.state = .associating) →
          ReplyFits skb s)
        ∧ (IsFarewell skb → rxConnected s = true →
          22 ≤ skb.data.length) := by
  have hfc : (readLe16 0 skb.mem 0).val &&& 0x00f0 = mgmtStype skb := rfl
  rw [processRxMgmtT, fits_bind, fits_readLe16]
  refine and_congr_right fun _ => ?_
  simp only [hfc, IsAssocReply, IsFarewell]
  generalize mgmtStype skb = st
  rcases stype_cases st with ⟨hauth, hreply, hbye, hscan⟩
    | ⟨hauth, hreply, hbye, hscan⟩ | ⟨hauth, hreply, hbye, hscan⟩
    | ⟨hauth, hreply, hbye⟩
  · rw [if_neg hscan, if_pos hauth]
    by_cases hst : s.state = .authenticating
    · rw [if_neg (not_not.2 hst), authRespT_fits]
      exact ⟨fun h => ⟨fun _ => h, fun h' => absurd h' hbye⟩,
        fun h => h.1 (.inl ⟨hauth, hst⟩)⟩
    · rw [if_pos hst]
      refine iff_of_true (fits_kfreeSkbT skb s) ⟨?_, fun h' => absurd h' hbye⟩
      exact fun h => h.elim (fun h => absurd h.2 hst)
        fun h => absurd h.1 hreply
  · rw [if_neg hscan, if_neg hauth, if_pos hreply]
    by_cases hst : s.state = .associating
    · rw [if_pos hst, processAssocResponseT_fits]
      exact ⟨fun h => ⟨fun _ => h, fun h' => absurd h' hbye⟩,
        fun h => h.1 (.inr ⟨hreply, hst⟩)⟩
    · rw [if_neg hst]
      refine iff_of_true (fits_kfreeSkbT skb s) ⟨?_, fun h' => absurd h' hbye⟩
      exact fun h => h.elim (fun h => absurd h.1 hauth)
        fun h => absurd h.2 hst
  · rw [if_neg hscan, if_neg hauth, if_neg hreply, if_pos hbye,
      rxConnected_iff]
    have hnone : ¬((st = 0x00B0 ∧ s.state = .authenticating)
        ∨ ((st = 0x0010 ∨ st = 0x0030) ∧ s.state = .associating)) :=
      fun h => h.elim (fun h => hauth h.1) fun h => hreply h.1
    split
    next hst =>
      rw [deauthT_fits]
      exact ⟨fun h => ⟨fun h' => absurd h' hnone, fun _ _ => h⟩,
        fun h => h.2 hbye hst⟩
    next hst =>
      exact iff_of_true (fits_kfreeSkbT skb s)
        ⟨fun h' => absurd h' hnone, fun _ h' => absurd h' hst⟩
  · rw [if_neg hauth, if_neg hreply, if_neg hbye]
    have hnone : ¬((st = 0x00B0 ∧ s.state = .authenticating)
        ∨ ((st = 0x0010 ∨ st = 0x0030) ∧ s.state = .associating)) :=
      fun h => h.elim (fun h => hauth h.1) fun h => hreply h.1
    refine iff_of_true ?_
      ⟨fun h' => absurd h' hnone, fun h' => absurd h' hbye⟩
    split
    · split
      · exact processScanResultT_fits skb s
      · exact fits_kfreeSkbT skb s
    · split
      · split
        · exact actionT_fits skb s
        · exact fits_kfreeSkbT skb s
      · exact fits_kfreeSkbT skb s

-- ============================================================== data frames

/-- A header is at least 24 bytes long. -/
private theorem le_hdrlen (fc : UInt16) :
    24 ≤ hdrlen fc ∧ (isDataQos fc = true → 26 ≤ hdrlen fc) := by
  constructor
  · rw [hdrlen]
    omega
  · intro hqos
    have hqos' : fc &&& 0x008c = 0x0088 := beq_iff_eq.1 hqos
    have h80 : fc &&& 0x0080 = 0x0080 := by
      rw [show (0x0080 : UInt16) = 0x008c &&& 0x0080 from rfl,
        ← UInt16.and_assoc, hqos']
      rfl
    have h0c : fc &&& 0x000c = ftypeData := by
      rw [show (0x000c : UInt16) = 0x008c &&& 0x000c from rfl,
        ← UInt16.and_assoc, hqos']
      rfl
    rw [hdrlen, if_pos (c := _ ∧ _) ⟨by rw [h80]; decide, h0c⟩]
    omega

/-- An aggregate is walked inside its payload. -/
private theorem deliverAmsduT_fits {skb : SkBuff} {off : Nat} (s : Mlme)
    (hoff : off ≤ skb.data.length) :
    (deliverAmsduT env skb off s).Fits skb.data.length := by
  rw [deliverAmsduT, fits_bind, fits_access, fits_bind]
  refine ⟨hoff, (deAmsduT_looks s ?_).2, fits_kfreeSkbT skb _⟩
  rw [List.length_drop]
  omega

/-- A single payload, from the header's length on. -/
private theorem deliverSingleT_fits {skb : SkBuff} {off : Nat} (s : Mlme)
    (hhdr : 24 ≤ off) (hoff : off + 8 ≤ skb.data.length) :
    (deliverSingleT hw env skb off s).Fits skb.data.length := by
  simp only [deliverSingleT]
  rw [fits_bind, fits_bind]
  refine ⟨(isSnapT_looks (by omega)).2, ?_, ?_⟩
  · split
    · exact (fits_readBe16 _ _ _).2 (by omega)
    · exact fits_pure 0
  · generalize (if (isSnapT 0 skb.data off).val = true
      then readBe16 0 skb.data (off + 6) else pure 0).val = et
    rw [fits_bind, fits_access]
    refine ⟨hoff, ?_⟩
    split
    · rw [fits_bind, fits_access]
      exact ⟨by rw [Access.Fits]; omega, fits_kfreeSkbT skb _⟩
    · rw [fits_bind]
      exact ⟨(deliverEthernetT_looks (by omega) (by omega) (by omega)).2,
        fits_kfreeSkbT skb _⟩

/-- `deliverDataFrame` reads `frame_control` unseen, and stays inside. -/
theorem deliverDataFrameT_fits (skb : SkBuff) (s : Mlme) :
    (deliverDataFrameT hw env skb s).Fits skb.data.length
      ↔ 2 ≤ skb.data.length := by
  rw [deliverDataFrameT, fits_bind, fits_readLe16]
  refine and_iff_left_of_imp fun _ => ?_
  generalize (readLe16 0 skb.mem 0).val = fc
  obtain ⟨hhdr, hqos⟩ := le_hdrlen fc
  simp only
  split
  · exact fits_kfreeSkbT skb s
  next hlen =>
    rw [fits_bind]
    constructor
    · rw [isAmsduT]
      split
      next h =>
        have h26 := hqos h
        rw [fits_bind, fits_readByte]
        exact ⟨by omega, fits_pure _⟩
      next => exact fits_pure false
    · split
      · split
        · split
          · exact fits_kfreeSkbT skb s
          · exact deliverAmsduT_fits s (by omega)
        · exact deliverAmsduT_fits s (by omega)
      · split
        · exact fits_kfreeSkbT skb s
        next hllc =>
          obtain ⟨hle, hend⟩ := @payloadOffT_le skb fc (hdrlen fc) (by omega)
          rw [fits_bind]
          exact ⟨(payloadOffT_looks (by omega)).2,
            deliverSingleT_fits s (by omega) hend⟩

/-- A frame that goes into a window has a whole QoS header. -/
private theorem reorderTidT_some {skb : SkBuff} {s : Mlme} {tid : Fin 8}
    (h : (reorderTidT skb s).val = some tid) : 26 ≤ skb.data.length := by
  have hfc : (readLe16 0 skb.mem 0).val = frameControl skb.mem := rfl
  rw [reorderTidT, val_bind, hfc, val_ite, val_pure] at h
  split at h
  · cases h
  next hqos =>
    simp only [Bool.or_eq_true, Bool.not_eq_true', decide_eq_true_eq,
      not_or, Bool.not_eq_false, not_lt] at hqos
    have hhdr := (le_hdrlen (frameControl skb.mem)).2 hqos.1
    omega

/-- The TID is read only behind `hdrlen`. -/
private theorem reorderTidT_fits {skb : SkBuff} (s : Mlme)
    (h : 2 ≤ skb.data.length) :
    (reorderTidT skb s).Fits skb.data.length := by
  rw [reorderTidT, fits_bind, fits_readLe16]
  refine ⟨by omega, ?_⟩
  generalize (readLe16 0 skb.mem 0).val = fc
  split
  · exact fits_pure none
  next hqos =>
    simp only [Bool.or_eq_true, Bool.not_eq_true', decide_eq_true_eq,
      not_or, Bool.not_eq_false, not_lt] at hqos
    have hhdr := (le_hdrlen fc).2 hqos.1
    rw [fits_bind, fits_readByte]
    exact ⟨by omega, fits_pure _⟩

/-- Reordering looks at no byte. -/
private theorem rxReorderInputT_fits (tid : Fin 8) (skb : SkBuff) (sn : Nat)
    (s : Mlme) : (rxReorderInputT tid skb sn s).Fits len := by
  simp only [rxReorderInputT]
  rw [fits_bind, fits_access]
  refine ⟨?_, fits_pure _⟩
  split
  · trivial
  · trivial

/-- A data frame of two bytes or more is read inside. -/
private theorem processRxDataT_fits {skb : SkBuff} (s : Mlme)
    (h : 2 ≤ skb.data.length) :
    (processRxDataT hw env skb s).Fits skb.data.length := by
  rw [processRxDataT]
  split
  · rw [fits_bind]
    exact ⟨fits_kfreeSkbT skb s, fits_pure _⟩
  · rw [fits_bind]
    refine ⟨reorderTidT_fits s h, ?_⟩
    cases htid : (reorderTidT skb s).val with
    | some tid =>
        have hhdr := reorderTidT_some htid
        simp only
        rw [fits_bind, fits_readLe16]
        exact ⟨by omega, rxReorderInputT_fits tid skb _ s⟩
    | none =>
        simp only
        rw [fits_bind]
        exact ⟨(deliverDataFrameT_fits skb s).2 h, fits_pure _⟩

-- ==================================================================== result

/-- A frame is read inside exactly if it is long enough for its kind. -/
private theorem rxFrameT_fits (skb : SkBuff) (s : Mlme) :
    (rxFrameT hw env skb s).Fits skb.data.length ↔ LongEnough skb s := by
  rw [rxFrameT, fits_bind, fits_readLe16,
    show (readLe16 0 skb.mem 0).val = frameControl skb.mem from rfl]
  by_cases hmgmt : isMgmt (frameControl skb.mem) = true
  · rw [if_pos hmgmt, fits_bind, processRxMgmtT_fits]
    constructor
    · rintro ⟨-, ⟨hctl, hreply, hbye⟩, -⟩
      exact ⟨hctl, fun _ => hreply, fun _ => hbye⟩
    · intro h
      exact ⟨by have := h.control; omega,
        ⟨h.control, h.reply hmgmt, h.farewell hmgmt⟩, fits_pure _⟩
  · rw [if_neg hmgmt]
    constructor
    · intro h
      exact ⟨by omega, fun h' => absurd h' hmgmt, fun h' => absurd h' hmgmt⟩
    · intro h
      refine ⟨by have := h.control; omega, ?_⟩
      split
      · exact processRxDataT_fits s h.control
      · rw [fits_bind]
        exact ⟨fits_kfreeSkbT skb s, fits_pure _⟩

/-- The reads of a received frame lie inside it, and no length wraps
around, if and only if it is long enough for the branch it takes. -/
theorem rx_reads_inside_iff (skb : SkBuff) (s : Mlme) :
    ReadsInside hw env skb s ↔ LongEnough skb s := by
  constructor
  · exact fun h => rxFrameT_fits skb s |>.1 h.now
  · intro h
    exact ⟨(rxFrameT_fits skb s).2 h,
      fun _ env' t => (deliverDataFrameT_fits skb t).2 h.control⟩

/-- In AUTHENTICATING an authentication frame of the target with one
byte too few has a body of four gigabytes. -/
theorem short_auth_wraps_around :
    let hw := sampleHw samplePrims
    let s := (sysRun hw true (scanEvents ccmpIe ++ authEvents)).mlme
    let skb : SkBuff :=
      { data := (authFrame sampleMac sampleAp 0).data.take 23 }
    s.state = .authenticating ∧ Access.sub 23 24 ∈ (rxFrameT hw {} skb s).log
      ∧ ¬ReadsInside hw {} skb s := by
  intro hw s skb
  have hst : s.state = .authenticating := by decide +kernel
  have hsub : Access.sub 23 24 ∈ (rxFrameT hw {} skb s).log := by
    decide +kernel
  refine ⟨hst, hsub, fun h => ?_⟩
  have hfits := h.now _ hsub
  rw [Access.Fits] at hfits
  omega

end Rtw88
