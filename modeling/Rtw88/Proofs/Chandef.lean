/-
`setConnectedChandef` against the primary channel:
`primary_inside_iff`.

At 20 and 40 MHz the block is laid around the primary channel. At 80 MHz
its centre is whatever the last VHT Operation element says
(`connectedChandef_cases`).

The elements are walked as they stand in the cache, each overwriting what
the one before left, so what counts is the last of its kind
(`widthInfo_vht`). A 40 MHz block is the primary channel and the one
beside it, on the side that the HT Operation element gives, and contains
it whatever the side is. For 80 MHz the chip, the band and the width all
have to allow it (`Opens80`), and then the centre is not compared with
anything: the block contains the primary channel exactly if the element
says so itself (`announces_iff`).
-/
import Mathlib.Data.List.Induction
import Rtw88.Proofs.Beacon
import Rtw88.Spec.AccessPoint
import Rtw88.Spec.Chandef

namespace Rtw88

-- ================================================================== elements

/-- What the walk keeps of the VHT Operation elements is the last. -/
theorem widthInfo_vht (es : List Elem) (w : WidthInfo) :
    ((es.foldl WidthInfo.scan w).vhtWidth, (es.foldl WidthInfo.scan w).vhtSeg0)
      = ((es.reverse.find? Elem.isVhtOperation).map fun op =>
          (peek op.body 0, peek op.body 1)).getD (w.vhtWidth, w.vhtSeg0) := by
  induction es using List.reverseRecOn with
  | nil => rfl
  | append_singleton es e ih =>
      rw [List.foldl_append, List.foldl_cons, List.foldl_nil,
        List.reverse_append, List.reverse_singleton, List.singleton_append,
        List.find?_cons]
      unfold WidthInfo.scan
      by_cases hht : e.id = eidHtOperation ∧ 2 ≤ e.body.length
      · -- an HT Operation element is none of VHT
        have hno : e.isVhtOperation = false := by
          unfold Elem.isVhtOperation
          rw [hht.1]
          rfl
        rw [if_pos hht, hno]
        exact ih
      · rw [if_neg hht]
        by_cases hvht : e.id = eidVhtOperation ∧ 3 ≤ e.body.length
        · have hyes : e.isVhtOperation = true := by
            unfold Elem.isVhtOperation
            rw [Bool.and_eq_true, beq_iff_eq, decide_eq_true_iff]
            exact hvht
          rw [if_pos hvht, hyes]
          rfl
        · have hno : e.isVhtOperation = false := by
            unfold Elem.isVhtOperation
            rw [Bool.and_eq_false_iff, beq_eq_false_iff_ne,
              decide_eq_false_iff_not]
            exact not_and_or.1 hvht
          rw [if_neg hvht, hno]
          exact ih

-- ================================================================ definition

/-- The last VHT Operation element of a block, if a link of 80 MHz may
use it. -/
def Opens80 (hw : Hw) (s : Mlme) (seg0 : UInt8) : Prop :=
  Allows80 hw s ∧ ∃ op, lastVhtOperation s.targetBSS.ies = some op
    ∧ Announces80 op seg0

/-- The element's fields are those the walk kept. -/
theorem announces_iff (ies : List UInt8) (seg0 : UInt8) :
    (∃ op, lastVhtOperation ies = some op ∧ Announces80 op seg0)
      ↔ ((elems ies).foldl WidthInfo.scan {}).vhtWidth = 1
        ∧ ((elems ies).foldl WidthInfo.scan {}).vhtSeg0 = seg0
        ∧ seg0 ≠ 0 := by
  have hwidth := widthInfo_vht (elems ies) {}
  rw [show (elems ies).reverse.find? Elem.isVhtOperation
    = lastVhtOperation ies from rfl] at hwidth
  cases hlast : lastVhtOperation ies with
  | none =>
      rw [hlast] at hwidth
      obtain ⟨hw, -⟩ := Prod.mk.inj hwidth
      constructor
      · rintro ⟨op, hop, -⟩
        cases hop
      · rintro ⟨hone, -, -⟩
        rw [hw] at hone
        exact absurd hone (by decide)
  | some op =>
      rw [hlast] at hwidth
      obtain ⟨hw, hseg⟩ := Prod.mk.inj hwidth
      rw [hw, hseg]
      constructor
      · rintro ⟨op', hop', h⟩
        rw [← Option.some.inj hop'] at h
        exact h
      · intro h
        exact ⟨op, rfl, h⟩

/-- The two ways a definition comes about. -/
theorem connectedChandef_cases (hw : Hw) (chan : Channel) (s : Mlme) :
    (∃ seg0, Opens80 hw s seg0 ∧ connectedChandef hw chan s
        = (80, { chan := some chan, width := .w80
                 centerFreq1 := 5000 + 5 * seg0.toUInt32 }))
      ∨ (∀ seg0, ¬ Opens80 hw s seg0)
        ∧ (connectedChandef hw chan s
            = (20, { chan := some chan, width := .w20NoHt
                     centerFreq1 := chan.centerFreq.toUInt32 })
          ∨ ∃ center, (center = chan.centerFreq.toUInt32 + 10
              ∨ center = chan.centerFreq.toUInt32 - 10)
            ∧ connectedChandef hw chan s
              = (40, { chan := some chan, width := .w40
                       centerFreq1 := center })) := by
  unfold connectedChandef
  cases hallow : htAllowed s with
  | false =>
      refine .inr ⟨fun seg0 hopen => ?_, .inl rfl⟩
      rw [hopen.1.1] at hallow
      cases hallow
  | true =>
      cases hband : hw.bands (targetBand s) with
      | none =>
          refine .inr ⟨fun seg0 hopen => ?_, .inl rfl⟩
          obtain ⟨sb, hsb, -⟩ := hopen.1.2.2
          rw [hband] at hsb
          cases hsb
      | some sb =>
          dsimp only
          by_cases h80 : Opens80 hw s
              ((elems s.targetBSS.ies).foldl WidthInfo.scan {}).vhtSeg0
          · -- the block the element announces
            obtain ⟨hwidth, -, hseg⟩ := (announces_iff _ _).1 h80.2
            obtain ⟨-, hghz, sb', hsb', hcap, hvht⟩ := h80.1
            rw [hband] at hsb'
            obtain rfl : sb = sb' := Option.some.inj hsb'
            refine .inl ⟨_, h80, ?_⟩
            rw [if_neg (by decide), if_pos (by simp [*])]
          · have hnot : ∀ seg0, ¬ Opens80 hw s seg0 := by
              intro seg0 hopen
              obtain ⟨-, hseg, -⟩ := (announces_iff _ _).1 hopen.2
              rw [hseg] at h80
              exact h80 hopen
            refine .inr ⟨hnot, ?_⟩
            have hno80 : ¬ ((sb.htCap.cap &&& htCapSupWidth2040 != 0
                && targetBand s == .ghz5 && sb.vhtCap.vhtSupported)
                && ((elems s.targetBSS.ies).foldl WidthInfo.scan {}).vhtWidth
                  == 1
                && ((elems s.targetBSS.ies).foldl WidthInfo.scan {}).vhtSeg0
                  != 0) = true := by
              intro hall
              simp only [Bool.and_eq_true, beq_iff_eq, bne_iff_ne] at hall
              obtain ⟨⟨⟨⟨hcap, hghz⟩, hvht⟩, hwidth⟩, hseg⟩ := hall
              exact h80 ⟨⟨hallow, hghz, sb, hband, hcap, hvht⟩,
                (announces_iff _ _).2 ⟨hwidth, rfl, hseg⟩⟩
            rw [if_neg (by decide), if_neg hno80]
            split
            next h40 =>
              refine .inr ⟨_, ?_, rfl⟩
              split
              · exact .inl rfl
              · exact .inr rfl
            · split
              · exact .inr ⟨_, .inl rfl, rfl⟩
              · exact .inl rfl

/-- The programmed channel contains the primary channel exactly when the
block of 80 MHz that is opened, if any, has it on its raster. -/
theorem primary_inside_iff (hw : Hw) (chan : Channel) (s : Mlme) :
    PrimaryInside chan (setConnectedChandef hw chan s)
      ↔ ∀ op seg0, Allows80 hw s →
        lastVhtOperation s.targetBSS.ies = some op →
        Announces80 op seg0 → OnRaster80 chan seg0 := by
  unfold setConnectedChandef PrimaryInside
  rcases connectedChandef_cases hw chan s with
    ⟨seg0, hopen, heq⟩ | ⟨hnot, heq | ⟨center, hcenter, heq⟩⟩
  · obtain ⟨hallow, op, hop, hseg⟩ := hopen
    rw [heq]
    constructor
    · rintro ⟨-, h | h | h⟩
      · have hwidth : (80 : UInt8) = 20 := h.1
        exact absurd hwidth (by decide)
      · have hwidth : (80 : UInt8) = 40 := h.1
        exact absurd hwidth (by decide)
      · intro op' seg0' _ hop' hseg'
        rw [hop] at hop'
        rw [← Option.some.inj hop', Announces80, hseg.2.1] at hseg'
        rw [← hseg'.2.1]
        exact h.2.2
    · intro h
      exact ⟨rfl, .inr (.inr ⟨rfl, rfl, h op seg0 hallow hop hseg⟩)⟩
  · rw [heq]
    refine iff_of_true ⟨rfl, .inl ⟨rfl, rfl, rfl⟩⟩ ?_
    intro op seg0 hallow hop hseg
    exact absurd ⟨hallow, op, hop, hseg⟩ (hnot seg0)
  · rw [heq]
    refine iff_of_true ⟨rfl, .inr (.inl ⟨rfl, rfl, hcenter⟩)⟩ ?_
    intro op seg0 hallow hop hseg
    exact absurd ⟨hallow, op, hop, hseg⟩ (hnot seg0)

/-- A chip with 80 MHz on 5 GHz. -/
def vhtHw : Hw :=
  { sampleHw samplePrims with
    bands := fun _ => some
      { channels := [], band := .ghz5
        htCap := { cap := htCapSupWidth2040, htSupported := true }
        vhtCap := { vhtSupported := true } } }

/-- Channel 36. -/
def chan36 : Channel :=
  { band := .ghz5, centerFreq := 5180, hwValue := 36, disabled := false
    noIr := false, radar := false }

/-- An AP on channel 36 that announces the block around channel 155. -/
def strayTarget : Mlme :=
  { Mlme.init true with
    targetBSS := { RTW88BSS.zero with
      channel := 36
      ies := Elem.bytes { id := eidVhtOperation, body := [1, 155, 0] } } }

/-- The radio is tuned to 5775 MHz, away from the AP. -/
theorem stray_block_outside :
    ¬ PrimaryInside chan36 (setConnectedChandef vhtHw chan36 strayTarget) := by
  unfold PrimaryInside
  decide

end Rtw88
