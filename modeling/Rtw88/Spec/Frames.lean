/-
What the receive path owes a frame, and what a frame must be to get it.

A frame is owned: it is given away once, to the allocator or to a window
that will, and it is not read after that. Its reads stay inside it. Both
fail for some frames; `ReadsReleased` and `LongEnough` are the frames
and states for which they do not, and do.
-/
import Rtw88.Model.RxAccess
import Rtw88.Spec.Ledger

namespace Rtw88

-- ================================================================ vocabulary

/-- The subtype of a management frame. -/
def mgmtStype (skb : SkBuff) : UInt16 := frameControl skb.mem &&& 0x00f0

/-- An association or reassociation response. -/
def IsAssocReply (skb : SkBuff) : Prop :=
  mgmtStype skb = 0x0010 ∨ mgmtStype skb = 0x0030

/-- A disassociation or deauthentication frame. -/
def IsFarewell (skb : SkBuff) : Prop :=
  mgmtStype skb = 0x00A0 ∨ mgmtStype skb = 0x00C0

instance (skb : SkBuff) : Decidable (IsAssocReply skb) :=
  inferInstanceAs (Decidable (_ ∨ _))

instance (skb : SkBuff) : Decidable (IsFarewell skb) :=
  inferInstanceAs (Decidable (_ ∨ _))

-- ================================================================= ownership

/-- The frame, handed to `rxFrame`, is given away once and not read
afterwards, now or when it is delivered later; and from here on it is in
the books once, released or kept, whatever happens next. -/
structure FrameOwned (hw : Hw) (env : Env) (skb : SkBuff) (s : Sys) :
    Prop where
  once : disposals (rxFrameT hw env skb s.mlme).log = 1
  live : LiveReads (rxFrameT hw env skb s.mlme).log
  later : ∀ (env' : Env) (t : Mlme),
    Consumes (deliverDataFrameT hw env' skb t).log
  booked : ∀ es : List Event,
    let t := runFrom (sysStep hw) s (.rx env skb :: es)
    (freedSkbs t.mlme.log ++ t.kept).Perm
      (skb :: received es ++ (freedSkbs s.mlme.log ++ s.kept))

/-- An association response of the target, in ASSOCIATING, with a body
that is long enough to be read. -/
def ReadsReleased (skb : SkBuff) (s : Mlme) : Prop :=
  isMgmt (frameControl skb.mem) = true ∧ IsAssocReply skb
    ∧ s.state = .associating ∧ addr3 skb.mem = s.targetBSS.bssid
    ∧ 6 ≤ bodyLen skb

-- ==================================================================== bounds

/-- Every byte read of the frame lies inside it and no length wraps
around, now and when it is delivered later. -/
structure ReadsInside (hw : Hw) (env : Env) (skb : SkBuff) (s : Mlme) :
    Prop where
  now : (rxFrameT hw env skb s).Fits skb.data.length
  later : Access.keep ∈ (rxFrameT hw env skb s).log →
    ∀ (env' : Env) (t : Mlme),
      (deliverDataFrameT hw env' skb t).Fits skb.data.length

/-- The frame reaches as far as a header test of the branch it takes
reads: two bytes for `frame_control`, 22 for `addr3`, and a whole header
where the body length is computed. -/
structure LongEnough (skb : SkBuff) (s : Mlme) : Prop where
  control : 2 ≤ skb.data.length
  reply : isMgmt (frameControl skb.mem) = true →
    (mgmtStype skb = 0x00B0 ∧ s.state = .authenticating)
      ∨ (IsAssocReply skb ∧ s.state = .associating) →
    22 ≤ skb.data.length
      ∧ (addr3 skb.mem = s.targetBSS.bssid → 24 ≤ skb.data.length)
  farewell : isMgmt (frameControl skb.mem) = true → IsFarewell skb →
    rxConnected s = true → 22 ≤ skb.data.length

end Rtw88
