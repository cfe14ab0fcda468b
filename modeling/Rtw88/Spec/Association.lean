/-
What the log says of the current attempt and association.

The log is newest first, so each reader takes the first entry that
answers and stops where the attempt or the association began.
-/
import Rtw88.Spec.Steps

namespace Rtw88

-- ================================================================= history

/-- The target and password of the latest `cmdConnect` that found its
target. -/
def lastAttempt : List Obs → Option (RTW88BSS × List UInt8)
  | [] => none
  | .connecting target password :: _ => some (target, password)
  | _ :: log => lastAttempt log

/-- The nonces of the latest M1 processed since that `cmdConnect`. -/
def m1OfAttempt : List Obs → Option (Bytes 32 × Bytes 32)
  | [] => none
  | .m1 anonce snonce :: _ => some (anonce, snonce)
  | .connecting _ _ :: _ => none
  | _ :: log => m1OfAttempt log

/-- The PTK of the latest M3 accepted since the latest association. -/
def m3OfAssociation : List Obs → Option (Bytes 64)
  | [] => none
  | .m3 ptk :: _ => some ptk
  | .associated :: _ => none
  | .connecting _ _ :: _ => none
  | _ :: log => m3OfAssociation log

/-- The end of a key is none of these. -/
theorem lastAttempt_freed (k : Option KeyConf) (log : List Obs) :
    lastAttempt (freed k ++ log) = lastAttempt log := by
  cases k <;> rfl

theorem m1OfAttempt_freed (k : Option KeyConf) (log : List Obs) :
    m1OfAttempt (freed k ++ log) = m1OfAttempt log := by
  cases k <;> rfl

theorem m3OfAssociation_freed (k : Option KeyConf) (log : List Obs) :
    m3OfAssociation (freed k ++ log) = m3OfAssociation log := by
  cases k <;> rfl

/-- The PTK of a target, a password and two nonces. -/
def ptkFor (hw : Hw) (target : RTW88BSS) (password : List UInt8)
    (anonce snonce : Bytes 32) : Bytes 64 :=
  derivePTK hw.prims
    (derivePMK hw.prims password target.ssid.toList target.ssidLen.toNat)
    anonce snonce hw.macAddr target.bssid

-- ================================================================ the trail

/-- A reader that goes on past what is off the trail reads the trail. -/
theorem reads_trail {α : Type} {f : List Obs → α}
    (hskip : ∀ o log, o.onTrail = false → f (o :: log) = f log)
    (hcons : ∀ o log log', f log = f log' → f (o :: log) = f (o :: log'))
    (log : List Obs) : f (log.filter Obs.onTrail) = f log := by
  induction log with
  | nil => rfl
  | cons o log ih =>
      cases ho : o.onTrail with
      | true =>
          rw [List.filter_cons_of_pos ho]
          exact hcons o _ _ ih
      | false =>
          rw [List.filter_cons_of_neg (by rw [ho]; exact Bool.false_ne_true),
            hskip o log ho]
          exact ih

/-- Nothing these readers look for is off the trail. -/
theorem lastAttempt_trail (log : List Obs) :
    lastAttempt (log.filter Obs.onTrail) = lastAttempt log := by
  refine reads_trail (fun o log ho => ?_) (fun o log log' h => ?_) log
  · cases o with
    | connecting target password => cases ho
    | _ => rfl
  · cases o with
    | connecting target password => rfl
    | _ => exact h

theorem m1OfAttempt_trail (log : List Obs) :
    m1OfAttempt (log.filter Obs.onTrail) = m1OfAttempt log := by
  refine reads_trail (fun o log ho => ?_) (fun o log log' h => ?_) log
  · cases o with
    | connecting target password => cases ho
    | m1 anonce snonce => cases ho
    | _ => rfl
  · cases o with
    | connecting target password => rfl
    | m1 anonce snonce => rfl
    | _ => exact h

theorem m3OfAssociation_trail (log : List Obs) :
    m3OfAssociation (log.filter Obs.onTrail) = m3OfAssociation log := by
  refine reads_trail (fun o log ho => ?_) (fun o log log' h => ?_) log
  · cases o with
    | connecting target password => cases ho
    | associated => cases ho
    | m3 ptk => cases ho
    | _ => rfl
  · cases o with
    | connecting target password => rfl
    | associated => rfl
    | m3 ptk => rfl
    | _ => exact h

-- ===================================================== security of a target

/-- The scan classified the network as PSK-protected. -/
def PskProtected (b : RTW88BSS) : Prop :=
  b.akm = akmPsk ∨ b.cipher = cipherCcmp ∨ b.cipher = cipherTkip

instance (b : RTW88BSS) : Decidable (PskProtected b) :=
  inferInstanceAs (Decidable (_ ∨ _))

end Rtw88
