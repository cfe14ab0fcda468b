/-
Ownership of received frames: every routine of the receive path looks at
its frame and then gives it away, once and last. There is one exception:
`processAssocResponse` frees the frame and reads the body afterwards.

To give a frame away is to free it or to store it in a reorder window.
A piece of a routine either borrows the frame, which is looking, or
consumes it, which is looking and then giving it away (`Traced.Looks`,
`Traced.Consumes`). Borrowing in front of consuming is consuming, and
nothing comes behind it; so a routine's lemma follows its branches, and
each has to end in one disposal.

For the exception both sides are proved: a response whose body is not
read is only given away (`processAssocResponseT_consumes`), and one that
is read is read after it was freed
(`processAssocResponseT_not_live`). Together with the rest of the
dispatch they make the equivalence.
-/
import Rtw88.Proofs.Custody
import Rtw88.Proofs.RxAccess
import Rtw88.Spec.AccessPoint
import Rtw88.Spec.Frames

namespace Rtw88

open Traced

variable {hw : Hw} {env : Env}

-- ================================================================== the rules

/-- Releasing a frame is the disposal. -/
theorem kfreeSkbT_consumes (skb : SkBuff) (s : Mlme) :
    (kfreeSkbT skb s).Consumes := .single rfl

/-- Only looking, in the middle of a routine. -/
private theorem Traced.Looks.consumes {α β : Type} {len : Nat} {x : Traced α}
    {f : α → Traced β} (h : x.Looks len) (hf : (f x.val).Consumes) :
    (x >>= f).Consumes := h.1.consumes hf

-- ======================================================== management frames

/-- A beacon is released on each path. -/
private theorem processScanResultT_consumes (skb : SkBuff) (s : Mlme) :
    (processScanResultT env skb s).Consumes := by
  rw [processScanResultT]
  split
  · exact kfreeSkbT_consumes skb s
  next h =>
    simp only [Bool.or_eq_true, decide_eq_true_eq, not_or, not_lt] at h
    refine (scanEntryT_looks s.scanGeneration (by omega)).consumes ?_
    cases updateBss (scanEntryT skb s.scanGeneration).val s.bssList with
    | some l => exact kfreeSkbT_consumes skb _
    | none => exact kfreeSkbT_consumes skb _

/-- An authentication frame is released on each path. -/
private theorem authRespT_consumes (skb : SkBuff) (s : Mlme) :
    (authRespT hw env skb s).Consumes := by
  rw [authRespT]
  refine (borrows_copy _ _ _ _).consumes ?_
  split
  · exact kfreeSkbT_consumes skb s
  · refine (show (bodyLenT skb).Borrows from borrows_single rfl).consumes ?_
    split
    · exact kfreeSkbT_consumes skb _
    · refine (borrows_readLe16 _ _ _).consumes ?_
      split
      · exact kfreeSkbT_consumes skb _
      · exact kfreeSkbT_consumes skb _

/-- Comparing addresses only looks. -/
private theorem fromTargetT_borrows (skb : SkBuff) (s : Mlme) :
    (fromTargetT skb s).Borrows := by
  rw [fromTargetT]
  refine (borrows_copy _ _ _ _).bind ?_
  split
  · exact borrows_pure true
  · exact (borrows_copy _ _ _ _).bind (borrows_pure _)

/-- A deauthentication is released behind its effect. -/
private theorem deauthT_consumes (skb : SkBuff) (s : Mlme) :
    (deauthT hw skb s).Consumes := by
  rw [deauthT]
  refine (fromTargetT_borrows skb s).consumes ?_
  refine (borrows_copy _ _ _ _).consumes ?_
  split
  · exact kfreeSkbT_consumes skb s
  · exact (borrows_accessIf rfl).consumes (kfreeSkbT_consumes skb _)

/-- An action frame is released after its handler has read it. -/
private theorem actionT_consumes (skb : SkBuff) (s : Mlme) :
    (actionT hw env skb s).Consumes := by
  rw [actionT]
  refine (borrows_accessIf rfl).consumes ?_
  split
  next hlen =>
    refine (borrows_readByte _ _ _).consumes ?_
    split
    · refine (borrows_copy _ _ _ _).consumes ?_
      split
      · have hlooks := @handleBackActionT_looks hw env skb.data.length 24
          (skb.data.drop 24) s (by rw [List.length_drop]; omega)
        exact hlooks.consumes (kfreeSkbT_consumes skb _)
      · exact kfreeSkbT_consumes skb s
    · exact kfreeSkbT_consumes skb s
  next => exact kfreeSkbT_consumes skb s

/-- An association response that is not read is only given away. -/
private theorem processAssocResponseT_consumes {skb : SkBuff} {s : Mlme}
    (h : ¬(addr3 skb.mem = s.targetBSS.bssid ∧ 6 ≤ bodyLen skb)) :
    (processAssocResponseT hw env skb s).Consumes := by
  rw [processAssocResponseT]
  refine (borrows_copy _ _ _ _).consumes ?_
  split
  · exact kfreeSkbT_consumes skb s
  next hbssid =>
    refine (show (bodyLenT skb).Borrows from borrows_single rfl).consumes ?_
    rw [bodyLenT_val]
    have hshort : bodyLen skb < 6 := by
      by_contra hlong
      exact h ⟨not_not.1 hbssid, by omega⟩
    simp only [if_pos hshort]
    exact (kfreeSkbT_consumes skb s).map _

/-- One that is read is read after it was freed. -/
private theorem processAssocResponseT_not_live {skb : SkBuff} {s : Mlme}
    (hbssid : addr3 skb.mem = s.targetBSS.bssid) (hlen : 6 ≤ bodyLen skb) :
    ¬LiveReads (processAssocResponseT hw env skb s).log := by
  have hbssid' : (copy 0 skb.mem 16 6).val = s.targetBSS.bssid := hbssid
  rw [processAssocResponseT, log_bind, if_neg (not_not.2 hbssid'), log_bind,
    bodyLenT_val, log_bind, if_neg (by omega), log_bind]
  intro hlive
  have hread := hlive.2.2.1 rfl (.read 26 2) (List.mem_append_right _
    (List.mem_append_left _ List.mem_cons_self))
  cases hread

/-- A management frame that the association branch does not read. -/
private theorem processRxMgmtT_consumes {skb : SkBuff} {s : Mlme}
    (h : ¬(IsAssocReply skb ∧ s.state = .associating
      ∧ addr3 skb.mem = s.targetBSS.bssid ∧ 6 ≤ bodyLen skb)) :
    (processRxMgmtT hw env skb s).Consumes := by
  rw [processRxMgmtT]
  refine (borrows_readLe16 _ _ _).consumes ?_
  simp only
  split
  · split
    · exact processScanResultT_consumes skb s
    · exact kfreeSkbT_consumes skb s
  · split
    · split
      · exact kfreeSkbT_consumes skb s
      · exact authRespT_consumes skb s
    · split
      next hreply =>
        split
        next hst =>
          exact processAssocResponseT_consumes fun ht =>
            h ⟨hreply, hst, ht.1, ht.2⟩
        next => exact kfreeSkbT_consumes skb s
      next =>
        split
        · split
          · exact deauthT_consumes skb s
          · exact kfreeSkbT_consumes skb s
        · split
          · split
            · exact actionT_consumes skb s
            · exact kfreeSkbT_consumes skb s
          · exact kfreeSkbT_consumes skb s

/-- One that it takes. -/
theorem processRxMgmtT_assoc {skb : SkBuff} {s : Mlme}
    (hreply : IsAssocReply skb) (hst : s.state = .associating) :
    (processRxMgmtT hw env skb s).log
      = .read 0 2 :: (processAssocResponseT hw env skb s).log := by
  have hfc : (readLe16 0 skb.mem 0).val &&& 0x00f0 = 0x0010
      ∨ (readLe16 0 skb.mem 0).val &&& 0x00f0 = 0x0030 := hreply
  rw [processRxMgmtT, log_bind]
  simp only
  rcases hfc with h | h <;> simp only [h] <;>
    rw [if_neg (by decide), if_neg (by decide), if_pos (by decide),
      if_pos hst] <;>
    rfl

-- ============================================================== data frames

/-- The aggregate bit is only read. -/
private theorem isAmsduT_borrows (skb : SkBuff) (fc : UInt16) :
    (isAmsduT skb fc).Borrows := by
  rw [isAmsduT]
  split
  · exact (borrows_readByte _ _ _).bind (borrows_pure _)
  · exact borrows_pure false

private theorem borrows_range (off n : Nat) :
    (access (.read off n)).Borrows := borrows_single rfl

/-- What goes to the stack is copied. -/
private theorem deliverEthernetT_borrows (da sa off n pos : Nat)
    (f : EthFrame) (s : Mlme) :
    (deliverEthernetT env da sa off n pos f s).Borrows := by
  rw [deliverEthernetT]
  refine (borrows_range da 6).bind ?_
  refine (borrows_range sa 6).bind ?_
  refine (borrows_range off n).bind ?_
  exact borrows_pure _

/-- A single payload's frame is released behind the copy. -/
private theorem deliverSingleT_consumes (skb : SkBuff) (off : Nat)
    (s : Mlme) : (deliverSingleT hw env skb off s).Consumes := by
  simp only [deliverSingleT]
  refine (show (isSnapT 0 skb.data off).Borrows from
    borrows_startsWith _ _ _ _).consumes ?_
  have htype : ∀ snap : Bool, (if snap = true then readBe16 0 skb.data
      (off + 6) else pure 0 : Traced UInt16).Borrows := by
    intro snap
    split
    · exact borrows_single rfl
    · exact borrows_pure 0
  refine (htype _).consumes ?_
  generalize (if (isSnapT 0 skb.data off).val = true
    then readBe16 0 skb.data (off + 6) else pure 0).val = et
  refine (show (access (.sub _ _)).Borrows from borrows_single rfl).consumes ?_
  split
  · refine (borrows_range _ _).consumes ?_
    exact kfreeSkbT_consumes skb _
  · refine (deliverEthernetT_borrows _ _ _ _ _ _ s).consumes ?_
    exact kfreeSkbT_consumes skb _

/-- `deliverDataFrame` frees its frame, once and last. -/
theorem deliverDataFrameT_consumes (skb : SkBuff) (s : Mlme) :
    (deliverDataFrameT hw env skb s).Consumes := by
  have hamsdu : ∀ off, off ≤ skb.data.length →
      (deliverAmsduT env skb off s).Consumes := by
    intro off hoff
    rw [deliverAmsduT]
    refine (borrows_single rfl).consumes ?_
    have hlooks := @deAmsduT_looks env skb.data.length off
      (skb.data.drop off) skb.data.length 0 s (by rw [List.length_drop]; omega)
    exact hlooks.consumes (kfreeSkbT_consumes skb _)
  rw [deliverDataFrameT]
  refine (borrows_readLe16 _ _ _).consumes ?_
  simp only
  split
  · exact kfreeSkbT_consumes skb s
  · refine (isAmsduT_borrows skb _).consumes ?_
    split
    · split
      · split
        · exact kfreeSkbT_consumes skb s
        · exact hamsdu _ (by omega)
      · exact hamsdu _ (by omega)
    · split
      · exact kfreeSkbT_consumes skb s
      next hlen =>
        exact (payloadOffT_looks (by omega)).consumes
          (deliverSingleT_consumes skb _ s)

private theorem reorderTidT_borrows (skb : SkBuff) (s : Mlme) :
    (reorderTidT skb s).Borrows := by
  rw [reorderTidT]
  refine (borrows_readLe16 _ _ _).bind ?_
  split
  · exact borrows_pure none
  · exact (borrows_readByte _ _ _).bind (borrows_pure _)

/-- Reordering keeps the frame or releases it. -/
private theorem rxReorderInputT_consumes (tid : Fin 8) (skb : SkBuff)
    (sn : Nat) (s : Mlme) : (rxReorderInputT tid skb sn s).Consumes := by
  rw [rxReorderInputT]
  refine (show (access _).Consumes from .single ?_).map _
  split
  · rfl
  · rfl

/-- A data frame is kept, released or delivered. -/
private theorem processRxDataT_consumes (skb : SkBuff) (s : Mlme) :
    (processRxDataT hw env skb s).Consumes := by
  rw [processRxDataT]
  split
  · exact (kfreeSkbT_consumes skb s).map _
  · refine (reorderTidT_borrows skb s).consumes ?_
    cases (reorderTidT skb s).val with
    | some tid =>
        exact (borrows_readLe16 _ _ _).consumes
          (rxReorderInputT_consumes tid skb _ s)
    | none => exact (deliverDataFrameT_consumes skb s).map _

-- ==================================================================== result

/-- A frame whose body is not read by the association branch is looked
at, then given away. -/
theorem rxFrameT_consumes {skb : SkBuff} {s : Mlme}
    (h : ¬ReadsReleased skb s) : (rxFrameT hw env skb s).Consumes := by
  rw [rxFrameT]
  refine (borrows_readLe16 _ _ _).consumes ?_
  split
  next hmgmt => exact (processRxMgmtT_consumes fun ht => h ⟨hmgmt, ht⟩).map _
  next =>
    split
    · exact processRxDataT_consumes skb s
    · exact (kfreeSkbT_consumes skb s).map _

/-- A frame whose body is read there is freed first. -/
private theorem rxFrameT_not_live {skb : SkBuff} {s : Mlme}
    (h : ReadsReleased skb s) :
    ¬LiveReads (rxFrameT hw env skb s).log := by
  obtain ⟨hmgmt, hreply, hst, hbssid, hlen⟩ := h
  intro hlive
  rw [rxFrameT, log_bind, readLe16_val, ← frameControl, if_pos hmgmt, log_bind,
    log_pure, List.append_nil, processRxMgmtT_assoc hreply hst] at hlive
  exact processAssocResponseT_not_live hbssid hlen hlive.2.2

/-- Every received frame is owned, in every state, except for an
association response whose body is read after it was freed. -/
theorem rx_frame_owned_iff (skb : SkBuff) (s : Sys) :
    FrameOwned hw env skb s ↔ ¬ReadsReleased skb s.mlme := by
  constructor
  · intro h hread
    exact rxFrameT_not_live hread h.live
  · intro h
    have hcons := @rxFrameT_consumes hw env skb s.mlme h
    refine ⟨hcons.disposals, hcons.liveReads,
      fun env' t => deliverDataFrameT_consumes skb t, fun es => ?_⟩
    exact runFrom_conserves s (.rx env skb :: es)

/-- The sample network's association response is read after it was
freed. -/
theorem assoc_response_read_released :
    let hw := sampleHw samplePrims
    let s := sysRun hw true (scanEvents ccmpIe ++ authEvents
      ++ [.rx {} (authFrame sampleMac sampleAp 0)])
    s.mlme.state = .associating
      ∧ ¬FrameOwned hw {} (assocFrame sampleMac sampleAp 0) s := by
  intro hw s
  have hst : s.mlme.state = .associating := by decide +kernel
  have hbssid : addr3 (assocFrame sampleMac sampleAp 0).mem
      = s.mlme.targetBSS.bssid := by decide +kernel
  refine ⟨hst, fun h => rxFrameT_not_live ?_ h.live⟩
  exact ⟨by decide +kernel, by decide +kernel, hst, hbssid, by decide +kernel⟩

end Rtw88
