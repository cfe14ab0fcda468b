/-
What is to hold of the manual scans.

- A pass that may still change the channel runs in SCANNING, and no other
  scan is in progress (`ScanExclusive`).
- A pass covers the channels that its own `cmdScan` stored
  (`ScansCovered`).

`KeepsScan` and `ResetsAlone` are the conditions on an event under which
each is kept up.
-/
import Rtw88.Model.ManualScan
import Rtw88.Spec.AccessPoint

namespace Rtw88

-- =============================================================== exclusivity

/-- The pass may still change the channel. -/
def PassPc.hopping : PassPc → Bool
  | .goneDone | .goneCount | .done | .clearAbort | .clearCount => false
  | _ => true

/-- While a pass may still change the channel the state is SCANNING, and
one scan at most is in progress. -/
structure ScanExclusive (st : ScanSys) : Prop where
  scanning : ∀ p ∈ st.passes, p.pc.hopping = true →
    st.sys.mlme.state = .scanning
  single : st.passes.countP (·.pc.hopping) + st.offloaded ≤ 1

/-- How often the manual scan switched the channel. -/
def switches (log : List Obs) : Nat :=
  log.countP fun | .swScanSwitchChannel => true | _ => false

variable (hw : Hw)

/-- A statement of a pass that changes `chandef` or switches the channel
comes in SCANNING. -/
def HopsInScan (st : ScanSys) : ScanEvent → Prop
  | .pass i env =>
      let st' := scanStep hw st (.pass i env)
      st.sys.mlme.state = .scanning
        ∨ (st'.sys.mlme.chandef = st.sys.mlme.chandef
          ∧ switches st'.sys.mlme.log = switches st.sys.mlme.log)
  | .sys _ => True

/-- A pass may still change the channel. -/
def ScanSys.Hopping (st : ScanSys) : Prop :=
  ∃ p ∈ st.passes, p.pc.hopping = true

/-- In SCANNING the event makes the state another: a `cmdDisconnect`, a
`stop` or the driver's report that a scan has ended; the final write of a
`doAuthenticate` left over; a `cmdPowerOff` that gives up waiting, or a
`cmdConnect` that does when the count is zero; a timeout then. -/
def LeavesScan (s : Sys) : Event → Prop
  | .cmdDisconnect _ | .stop _ | .scanDone _ => True
  | .auth i _ _ => ∃ t ∈ s.auths[i]?, t.pc = .finish
  | .resume i _ =>
      ∃ w ∈ s.waiters[i]?, 40 ≤ w.turn
        ∧ (w.cmd = .powerOff ∨ s.mlme.manualScanChannelCount = 0)
  | .timer _ =>
      (s.mlme.timer.isNone || s.auths.any (·.onTimer)) = false
        ∧ s.mlme.manualScanChannelCount = 0
  | _ => False

/-- While a pass may still change the channel no event and no statement
of another pass takes the state out of SCANNING, and no `cmdScan` is
accepted while the driver has a scan. -/
def KeepsScan (st : ScanSys) : ScanEvent → Prop
  | .sys (.cmdScan _) =>
      st.sys.mlme.state = .idle → st.sys.mlme.up = true →
        enabledChannels hw ≠ [] → st.offloaded = 0
  | .sys e => LeavesScan st.sys e → ¬ st.Hopping
  | .pass i _ =>
      ∀ p ∈ st.passes[i]?, p.pc = .done ∨ p.pc = .goneDone → ¬ st.Hopping

-- ================================================================== coverage

/-- The fields of the manual scan: channels, count, abort flag. -/
def manual (s : Mlme) : List Channel × Nat × Bool :=
  (s.manualScanChannels, s.manualScanChannelCount, s.manualScanAbort)

/-- The pass has not left its loop. -/
def PassPc.inLoop : PassPc → Bool
  | .entry | .readCount | .readReturn _ | .start _ _ | .head _ _ _
  | .fetch _ _ _ | .offHome _ _ _ _ | .leave _ _ _ _ | .tune _ _ _ _
  | .switch _ _ _ _ | .probe _ _ _ _ | .dwell _ _ _ => true
  | _ => false

/-- Every accepted scan has one pass, under way or ended; an ended pass
visited exactly the enabled channels, in their order, unless a command
or the timeout asked its own scan to stop or the driver was gone; and up
to the end of its loop a pass finds the fields as its own `cmdScan` left
them, except that the abort flag says whether its scan was asked to
stop. -/
structure ScansCovered (st : ScanSys) : Prop where
  onePass : ((st.passes ++ st.ended).map Pass.scan).Perm
    (List.range st.accepted)
  covered : ∀ p ∈ st.ended,
    p.visited = enabledChannels hw ∨ p.scan ∈ st.asked ∨ p.gone = true
  own : ∀ p ∈ st.passes, p.pc.inLoop = true →
    ∃ abort, manual st.sys.mlme
        = (enabledChannels hw, (enabledChannels hw).length, abort)
      ∧ (abort = true ↔ p.scan ∈ st.asked)

/-- The statement writes the abort flag or the count. -/
def PassPc.resets : PassPc → Bool
  | .goneCount | .clearAbort | .clearCount => true
  | _ => false

/-- The fields are reset when no pass is in its loop, and a `cmdScan` in
IDLE that is to be a manual scan comes when none is. -/
def ResetsAlone (st : ScanSys) : ScanEvent → Prop
  | .pass i _ =>
      ∀ p ∈ st.passes[i]?, p.pc.resets = true →
        ∀ q ∈ st.passes, q.pc.inLoop = false
  | .sys (.cmdScan env) =>
      st.sys.mlme.state = .idle → st.sys.mlme.up = true →
        (hw.hwScanSupported && env.hwScan) = false →
        ∀ q ∈ st.passes, q.pc.inLoop = false
  | .sys _ => True

instance ResetsAlone.decidable : ∀ st e, Decidable (ResetsAlone hw st e)
  | st, .pass i _ =>
      inferInstanceAs (Decidable (∀ p ∈ st.passes[i]?, p.pc.resets = true →
        ∀ q ∈ st.passes, q.pc.inLoop = false))
  | st, .sys (.cmdScan env) =>
      inferInstanceAs (Decidable (st.sys.mlme.state = .idle →
        st.sys.mlme.up = true → (hw.hwScanSupported && env.hwScan) = false →
          ∀ q ∈ st.passes, q.pc.inLoop = false))
  | _, .sys (.cmdConnect ..) | _, .sys (.cmdDisconnect _)
  | _, .sys (.cmdPowerOn _) | _, .sys (.cmdPowerOff _)
  | _, .sys (.resume ..) | _, .sys (.powerOn _) | _, .sys .powerOff
  | _, .sys (.rx ..) | _, .sys (.deliver ..) | _, .sys (.scanDone _)
  | _, .sys (.timer _) | _, .sys .reorderTimer | _, .sys (.output ..)
  | _, .sys (.auth ..) | _, .sys (.scan ..) | _, .sys (.stop _) =>
      isTrue trivial

-- ======================================================== the sample network

/-- The sample client without a hardware scan. -/
def manualHw : Hw := { sampleHw samplePrims with hwScanSupported := false }

/-- `k` statements of the pass entered first. -/
def passEvents (k : Nat) : List ScanEvent := List.replicate k (.pass 0 {})

/-- A manual scan of the one channel up to the statement behind
`scanDone`. -/
def scannedEvents : List ScanEvent := .sys (.cmdScan {}) :: passEvents 17

end Rtw88
