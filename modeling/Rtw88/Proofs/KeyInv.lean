/-
Where the pairwise key comes from.

`KeyInv` is one invariant of the moves, over all runs: what `_wpa2` says
about the target, that `_pmk` belongs to the target and password of the
attempt, that a `_ptk` that is not all zero comes from the latest M1 of
the attempt, and that a CONNECTED link with WPA2 holds the key of the
M3 of its association.

An attempt begins with the mark of its `cmdConnect` on the trail, and
what is newer than that mark belongs to it. Most moves put nothing on the
trail that is a mark (`Quiet`), and leave target and keys; for those one
rule is enough (`KeyInv.keep`). The rest are taken in turn: a connect
starts the attempt and clears the PTK, an M1 derives one, an M3 that is
accepted installs its temporal key, an association begins the handshake.
-/
import Rtw88.Proofs.Link.Step
import Rtw88.Spec.Association

namespace Rtw88

variable {hw : Hw} {P : Allow}

/-- The link's own keys fit its attempt. -/
structure KeyInv (hw : Hw) (v : Link) : Prop where
  classified : ∀ b ∈ v.entries, Classified b
  target : Classified v.target
  wpa2 : v.wpa2 = (v.target.cipher == cipherCcmp)
  attempt : v.wpa2 = true →
    lastAttempt v.trail = some (v.target, v.password)
  pmk : v.state = .handshaking → v.wpa2 = true
    ∧ v.pmk = derivePMK hw.prims v.password v.target.ssid.toList
      v.target.ssidLen.toNat
  ptk : v.ptk ≠ zeros 64 → ∃ anonce snonce,
    m1OfAttempt v.trail = some (anonce, snonce)
      ∧ v.ptk = ptkFor hw v.target v.password anonce snonce
  noKey : v.wpa2 = false → v.ptkConf = none
  linked : v.state = .connected → v.wpa2 = true → ∃ k,
    v.ptkConf = some k ∧ k.key = (tkOf v.ptk).toList
      ∧ m3OfAssociation v.trail = some v.ptk

-- ========================================================== quiet additions

/-- What a move that is no connect, M1, M3 or association adds to the
trail: none of the readers sees it. -/
structure Quiet (v w : Link) : Prop where
  attempt : lastAttempt w.trail = lastAttempt v.trail
  m1 : m1OfAttempt w.trail = m1OfAttempt v.trail
  m3 : m3OfAssociation w.trail = m3OfAssociation v.trail

/-- A move that keeps the target, `_wpa2`, `_pmk` and `_ptk`, and adds
nothing the readers see: what is left to show is about the pairwise key
and the new state. -/
private theorem KeyInv.keep {v w : Link} (h : KeyInv hw v) (hq : Quiet v w)
    (hentries : w.entries = v.entries) (htarget : w.target = v.target)
    (hpassword : w.password = v.password) (hwpa2 : w.wpa2 = v.wpa2)
    (hpmk : w.pmk = v.pmk) (hptk : w.ptk = v.ptk ∨ w.ptk = zeros 64)
    (hstate : w.state = .handshaking → v.state = .handshaking)
    (hkey : w.wpa2 = false → v.ptkConf = none → w.ptkConf = none)
    (hlink : w.state = .connected → v.state = .connected
      ∧ w.ptkConf = v.ptkConf ∧ w.ptk = v.ptk) : KeyInv hw w where
  classified := hentries ▸ h.classified
  target := htarget ▸ h.target
  wpa2 := by
    rw [hwpa2, htarget]
    exact h.wpa2
  attempt hw2 := by
    rw [hq.attempt, htarget, hpassword]
    exact h.attempt (hwpa2 ▸ hw2)
  pmk hs := by
    rw [hwpa2, hpmk, hpassword, htarget]
    exact h.pmk (hstate hs)
  ptk hz := by
    rcases hptk with hptk | hptk
    · rw [hq.m1, hptk, htarget, hpassword]
      exact h.ptk (hptk ▸ hz)
    · exact absurd hptk hz
  noKey hw2 := hkey hw2 (h.noKey (hwpa2 ▸ hw2))
  linked hs hw2 := by
    obtain ⟨hvs, hconf, hptk⟩ := hlink hs
    rw [hconf, hq.m3, hptk]
    exact h.linked hvs (hwpa2 ▸ hw2)

private theorem Quiet.rfl {v w : Link} (h : w.trail = v.trail) :
    Quiet v w := by
  constructor <;> rw [h]

private theorem Quiet.freed {v w : Link} {k : Option KeyConf}
    {log : List Obs} (h : w.trail = freed k ++ log)
    (hq : Quiet v { w with trail := log }) : Quiet v w where
  attempt := by rw [h, lastAttempt_freed, hq.attempt]
  m1 := by rw [h, m1OfAttempt_freed, hq.m1]
  m3 := by rw [h, m3OfAssociation_freed, hq.m3]

/-- The station notices of an association are quiet for the attempt. -/
private theorem StaAfter.attempt {v : Link} {sta : Option Sta}
    {added : List Obs} {next : Nat} (h : StaAfter v sta added next)
    (log : List Obs) :
    lastAttempt (.associated :: .bssInfoChanged true :: (added ++ log))
        = lastAttempt log
      ∧ m1OfAttempt (.associated :: .bssInfoChanged true :: (added ++ log))
        = m1OfAttempt log := by
  cases h <;> exact ⟨.refl _, .refl _⟩

-- ================================================================== a move

/-- `KeyInv` is an invariant of the moves. -/
theorem Move.keyInv {v w : Link} (h : Move hw P v w) (hv : KeyInv hw v) :
    KeyInv hw w := by
  cases h with
  | idle r hr =>
      exact hv.keep (.rfl rfl) rfl rfl rfl rfl rfl (.inl rfl)
        (fun hs => by cases hs) (fun _ h => h) (fun hs => by cases hs)
  | scanning hidle hP =>
      exact hv.keep (.rfl rfl) rfl rfl rfl rfl rfl (.inl rfl)
        (fun hs => by cases hs) (fun _ h => h) (fun hs => by cases hs)
  | entries l hl =>
      exact { hv with classified := hl hv.classified }
  | connect target password hidle hptk hconf hmem hP =>
      exact
        { classified := hv.classified
          target := hv.classified target hmem
          wpa2 := rfl
          attempt := fun _ => rfl
          pmk := fun hs => by cases hs
          ptk := fun hz => absurd hptk hz
          noKey := fun _ => hconf
          linked := fun hs => by cases hs }
  | clear hidle =>
      refine hv.keep (.freed rfl (.freed rfl (.rfl rfl))) rfl rfl rfl rfl rfl (.inr rfl) id
        (fun _ _ => rfl) (fun hs => ?_)
      rw [show v.state = .connected from hs] at hidle
      cases hidle
  | dropSta sta told hsta htold =>
      refine hv.keep ?_ rfl rfl rfl rfl rfl (.inl rfl) id (fun _ h => h)
        (fun hs => ⟨hs, rfl, rfl⟩)
      rcases htold with rfl | rfl <;> exact ⟨rfl, rfl, rfl⟩
  | bssNotify =>
      exact hv.keep ⟨rfl, rfl, rfl⟩ rfl rfl rfl rfl rfl (.inl rfl) id
        (fun _ h => h) (fun hs => ⟨hs, rfl, rfl⟩)
  | authWrite hP =>
      exact hv.keep (.rfl rfl) rfl rfl rfl rfl rfl (.inl rfl)
        (fun hs => by cases hs) (fun _ h => h) (fun hs => by cases hs)
  | assocReq hauth =>
      exact hv.keep (.rfl rfl) rfl rfl rfl rfl rfl (.inl rfl)
        (fun hs => by cases hs) (fun _ h => h) (fun hs => by cases hs)
  | inject f hP =>
      exact hv.keep ⟨rfl, rfl, rfl⟩ rfl rfl rfl rfl rfl (.inl rfl) id
        (fun _ h => h) (fun hs => ⟨hs, rfl, rfl⟩)
  | handshake sta added next hassoc hP hsta hwpa =>
      obtain ⟨hattempt, hm1⟩ := hsta.attempt v.trail
      exact
        { classified := hv.classified
          target := hv.target
          wpa2 := hv.wpa2
          attempt := fun hw2 => hattempt.trans (hv.attempt hw2)
          pmk := fun _ => ⟨hwpa, rfl⟩
          ptk := fun hz => by
            rw [show m1OfAttempt _ = _ from hm1]
            exact hv.ptk hz
          noKey := hv.noKey
          linked := fun hs => by cases hs }
  | openLink sta added next hassoc hP hsta hwpa =>
      obtain ⟨hattempt, hm1⟩ := hsta.attempt v.trail
      exact
        { classified := hv.classified
          target := hv.target
          wpa2 := hv.wpa2
          attempt := fun hw2 => hattempt.trans (hv.attempt hw2)
          pmk := fun hs => by cases hs
          ptk := fun hz => by
            rw [show m1OfAttempt _ = _ from hm1]
            exact hv.ptk hz
          noKey := hv.noKey
          linked := fun _ hw2 => by
            rw [show v.wpa2 = true from hw2] at hwpa
            cases hwpa }
  | m1 anonce snonce hshake =>
      obtain ⟨hw2, hpmk⟩ := hv.pmk hshake
      exact
        { classified := hv.classified
          target := hv.target
          wpa2 := hv.wpa2
          attempt := hv.attempt
          pmk := hv.pmk
          ptk := fun _ => ⟨anonce, snonce, rfl, by rw [ptkFor, ← hpmk]⟩
          noKey := hv.noKey
          linked := fun hs => by
            rw [show v.state = .connected from hs] at hshake
            cases hshake }
  | dropPairwise h3 =>
      refine hv.keep (.freed rfl (.rfl rfl)) rfl rfl rfl rfl rfl (.inl rfl) id
        (fun _ _ => rfl) (fun hs => ?_)
      rw [h3.state] at hs
      cases hs
  | setPairwise k h3 hk haddr =>
      refine hv.keep (.rfl rfl) rfl rfl rfl rfl rfl (.inl rfl) id
        (fun hw2 _ => ?_) (fun hs => ?_)
      · have htrue := (hv.pmk h3.state).1
        rw [show v.wpa2 = false from hw2] at htrue
        cases htrue
      · rw [h3.state] at hs
        cases hs
  | dropGroup h3 =>
      exact hv.keep (.freed rfl (.rfl rfl)) rfl rfl rfl rfl rfl (.inl rfl) id
        (fun _ h => h) (fun hs => ⟨hs, rfl, rfl⟩)
  | refusedKey h3 =>
      exact hv.keep ⟨rfl, rfl, rfl⟩ rfl rfl rfl rfl rfl (.inl rfl) id
        (fun _ h => h) (fun hs => ⟨hs, rfl, rfl⟩)
  | m3 k h3 hconf hk =>
      exact
        { classified := hv.classified
          target := hv.target
          wpa2 := hv.wpa2
          attempt := hv.attempt
          pmk := fun hs => by cases hs
          ptk := hv.ptk
          noKey := hv.noKey
          linked := fun _ _ => ⟨k, hconf, hk, rfl⟩ }
  | protect skb k hconn hwpa hconf hkey hpn hwrap =>
      exact hv.keep ⟨rfl, rfl, rfl⟩ rfl rfl rfl rfl rfl (.inl rfl) id
        (fun _ h => h) (fun hs => ⟨hs, rfl, rfl⟩)
  | _ =>
      exact hv.keep (.rfl rfl) rfl rfl rfl rfl rfl (.inl rfl) id
        (fun _ h => h) (fun hs => ⟨hs, rfl, rfl⟩)

theorem KeyInv.init (powered : Bool) :
    KeyInv hw (view (Mlme.init powered)) where
  classified _ hb := by cases hb
  target hpsk := absurd (show (0 : UInt32) = akmPsk from hpsk) (by decide)
  wpa2 := (by decide : false = ((0 : UInt32) == cipherCcmp))
  attempt hw2 := by cases hw2
  pmk hs := by cases hs
  ptk hz := absurd rfl hz
  noKey _ := rfl
  linked hs := by cases hs

/-- `KeyInv` holds in every state reached. -/
theorem sysRun_keyInv (powered : Bool) (es : List Event) :
    KeyInv hw (view (sysRun hw powered es).mlme) :=
  (sysRun_inv (I := KeyInv hw) Move.keyInv (KeyInv.init powered)
    (Along.of_forall (fun s e => Allowed.all hw s e) _ es)).2

end Rtw88
