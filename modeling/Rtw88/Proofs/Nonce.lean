/-
CCMP packet numbers: under one temporal key the packet numbers on the
air are strictly increasing from 1.

`NonceInv` ties the counter to the trail: under every key the numbers
sent so far are in order, and under the installed key none is above the
counter, which is at zero until the first is sent. The counter is reset
in two places. `clearKeys` takes the key away with it; `installKey` sets
a key under which nothing was sent, unless the step is one of
`ReusesTk`.

# What is excluded

`KeepsNonces` names three things an event may not do: accept an M3 under
a temporal key that has protected a frame; take a number when the counter
is at its end; lose the first number of a key before its frame goes out.
The rest of what may happen does not matter to the numbering, and the
allowance says so (`Allow.nonces`).

A number is read off the frame that went out and not off the counter, so
what is shown is about the air. In `packet_number_repeated` the same
forged M3 is accepted in two associations, and the number 1 goes out
twice under one key.
-/
import Rtw88.Proofs.Link.Step
import Rtw88.Spec.AccessPoint

namespace Rtw88

variable {hw : Hw} {P : Allow}

-- =============================================================== vocabulary

/-- Numbers in the order of their use are strictly increasing from 1. -/
structure FromOne (l : List Nat) : Prop where
  increasing : l.Pairwise (· < ·)
  first : ∀ n ∈ l.head?, n = 1

/-- The packet numbers handed to the driver under a temporal key, in the
order of their use. -/
def sentPns (tk : List UInt8) (log : List Obs) : List Nat :=
  (pnsUnder tk log).reverse

/-- The event does none of the three things that break the numbering: it
verifies no M3 under a temporal key that has protected a frame, takes no
number at the counter's end, and loses no key's first number. -/
structure KeepsNonces (hw : Hw) (s : Sys) (e : Event) : Prop where
  reuse : ¬ReusesTk hw s e
  wrap : ¬WrapsPn s e
  lost : ¬LosesFirstPn s e

instance (s : Sys) (e : Event) : Decidable (KeepsNonces hw s e) :=
  decidable_of_iff (¬ReusesTk hw s e ∧ ¬WrapsPn s e ∧ ¬LosesFirstPn s e)
    ⟨fun h => ⟨h.1, h.2.1, h.2.2⟩, fun h => ⟨h.reuse, h.wrap, h.lost⟩⟩

/-- The allowance under which packet numbers stay unique. -/
def Allow.nonces : Allow :=
  { Allow.all with reuseTk := False, pnWrap := False, lostPn := False }

theorem KeepsNonces.allowed {s : Sys} {e : Event} (h : KeepsNonces hw s e) :
    Allowed hw Allow.nonces s e :=
  { Allowed.all hw s e with
    reuseTk := h.reuse, pnWrap := h.wrap, lostPn := h.lost }

-- ================================================================ invariant

/-- One more number, above all others and 1 if it is the first. -/
theorem FromOne.snoc {l : List Nat} (h : FromOne l.reverse) {n : Nat}
    (hmax : ∀ m ∈ l, m < n) (hfirst : l = [] → n = 1) :
    FromOne (n :: l).reverse where
  increasing := by
    rw [List.reverse_cons, List.pairwise_append]
    refine ⟨h.increasing, List.pairwise_singleton _ _, fun m hm k hk => ?_⟩
    rw [List.mem_singleton.1 hk]
    exact hmax m (List.mem_reverse.1 hm)
  first := by
    intro m hm
    cases l with
    | nil =>
        have hmn : n = m := by simpa using hm
        exact hmn ▸ hfirst rfl
    | cons k l =>
        refine h.first m ?_
        rw [List.reverse_cons] at hm
        rwa [List.head?_append_of_ne_nil _ (by simp)] at hm

/-- The counter and the numbers sent agree. -/
structure NonceInv (v : Link) : Prop where
  sent : ∀ tk, FromOne (pnsUnder tk v.trail).reverse
  below : ∀ k, v.ptkConf = some k →
    ∀ n ∈ pnsUnder k.key v.trail, n ≤ leVal v.pn.toList
  unused : ∀ k, v.ptkConf = some k →
    pnsUnder k.key v.trail = [] → leVal v.pn.toList = 0

/-- An observation without a packet number does not count. -/
private theorem pnsUnder_cons_other {o : Obs} {log : List Obs}
    (h : ∀ tk, o.pnUnder tk = none) (tk : List UInt8) :
    pnsUnder tk (o :: log) = pnsUnder tk log := by
  rw [pnsUnder, List.filterMap_cons_none (h tk)]
  rfl

/-- The notices of an association have no packet number. -/
private theorem pnsUnder_assoc {v : Link} {sta : Option Sta}
    {added : List Obs} {next : Nat} (h : StaAfter v sta added next)
    (tk : List UInt8)
    (log : List Obs) :
    pnsUnder tk (.associated :: .bssInfoChanged true :: (added ++ log))
      = pnsUnder tk log := by
  cases h <;> rfl

/-- Same key, same counter, same numbers sent: same invariant. -/
private theorem NonceInv.same {v w : Link} (h : NonceInv v)
    (hconf : w.ptkConf = v.ptkConf) (hpn : w.pn = v.pn)
    (htrail : ∀ tk, pnsUnder tk w.trail = pnsUnder tk v.trail) :
    NonceInv w where
  sent tk := by
    rw [htrail]
    exact h.sent tk
  below k hk := by
    rw [htrail, hpn]
    exact h.below k (hconf ▸ hk)
  unused k hk := by
    rw [htrail, hpn]
    exact h.unused k (hconf ▸ hk)

/-- Without a key there is nothing to tie. -/
private theorem NonceInv.noKey {v w : Link} (h : NonceInv v)
    (hconf : w.ptkConf = none)
    (htrail : ∀ tk, pnsUnder tk w.trail = pnsUnder tk v.trail) :
    NonceInv w where
  sent tk := by
    rw [htrail]
    exact h.sent tk
  below k hk := by rw [hconf] at hk; cases hk
  unused k hk := by rw [hconf] at hk; cases hk

/-- The counter moves up by one, short of its end. -/
private theorem leVal_nextPn {pn : Bytes 6}
    (h : leVal pn.toList + 1 ≠ 2 ^ 48) :
    leVal (nextPn pn).toList = leVal pn.toList + 1 := by
  have hlt := leVal_lt pn.toList
  rw [pn.toList_length] at hlt
  refine leVal_ripple_of_lt ?_
  rw [pn.toList_length]
  omega

/-- What a move does to the numbering. -/
theorem Move.nonceInv {v w : Link} (h : Move hw Allow.nonces v w)
    (hv : NonceInv v) : NonceInv w := by
  cases h with
  | connect target password _ _ _ _ _ =>
      exact hv.same rfl rfl (pnsUnder_cons_other fun _ => rfl)
  | clear _ =>
      refine hv.noKey rfl fun tk => ?_
      exact (pnsUnder_freed tk _ _).trans (pnsUnder_freed tk _ _)
  | dropSta sta told _ htold =>
      refine hv.same rfl rfl fun tk => ?_
      rcases htold with rfl | rfl <;> rfl
  | bssNotify => exact hv.same rfl rfl (pnsUnder_cons_other fun _ => rfl)
  | handshake sta added next _ _ hsta _ =>
      exact hv.same rfl rfl fun tk => pnsUnder_assoc hsta tk v.trail
  | openLink sta added next _ _ hsta _ =>
      exact hv.same rfl rfl fun tk => pnsUnder_assoc hsta tk v.trail
  | m1 anonce snonce _ =>
      exact hv.same rfl rfl (pnsUnder_cons_other fun _ => rfl)
  | inject f _ => exact hv.same rfl rfl (pnsUnder_cons_other fun _ => rfl)
  | dropPairwise _ => exact hv.noKey rfl fun tk => pnsUnder_freed tk _ _
  | dropGroup _ => exact hv.same rfl rfl fun tk => pnsUnder_freed tk _ _
  | refusedKey _ => exact hv.same rfl rfl (pnsUnder_cons_other fun _ => rfl)
  | setPairwise k h3 hk haddr =>
      have hnew : pnsUnder k.key v.trail = [] := by
        rw [hk]
        exact not_not.1 h3.fresh
      refine ⟨hv.sent, fun k' hk' => ?_, fun k' _ _ => rfl⟩
      obtain rfl := Option.some.inj hk'
      intro n hn
      rw [show pnsUnder k.key v.trail = [] from hnew] at hn
      cases hn
  | m3 k _ _ _ =>
      exact hv.same rfl rfl (pnsUnder_cons_other fun _ => rfl)
  | protect skb k _ _ hconf hkey hpn hwrap =>
      have hnext := leVal_nextPn hwrap
      have hcons : ∀ tk, pnsUnder tk (.tx skb :: v.trail)
          = if k.key = tk then (leVal v.pn.toList + 1) :: pnsUnder tk v.trail
            else pnsUnder tk v.trail := by
        intro tk
        by_cases htk : k.key = tk
        · simp [pnsUnder, Obs.pnUnder, hkey, htk, hpn, hnext]
        · simp [pnsUnder, Obs.pnUnder, hkey, htk]
      refine ⟨fun tk => ?_, fun k' hk' => ?_, fun k' hk' => ?_⟩
      · rw [hcons]
        split
        next htk =>
          refine (hv.sent tk).snoc (fun n hn => ?_) (fun hnil => ?_)
          · exact Nat.lt_succ_of_le (hv.below k hconf n (htk ▸ hn))
          · rw [hv.unused k hconf (htk ▸ hnil)]
        next => exact hv.sent tk
      · obtain rfl := Option.some.inj (hconf.symm.trans hk')
        rw [hcons, if_pos rfl]
        intro n hn
        rw [show leVal (nextPn v.pn).toList = _ from hnext]
        rcases List.mem_cons.1 hn with rfl | hn
        · exact le_rfl
        · exact Nat.le_succ_of_le (hv.below k hconf n hn)
      · obtain rfl := Option.some.inj (hconf.symm.trans hk')
        rw [hcons, if_pos rfl]
        exact fun hnil => by cases hnil
  | lostPn k _ hconf hwrap hlost =>
      have hnext := leVal_nextPn hwrap
      have hne : leVal v.pn.toList ≠ 0 := by
        intro hzero
        refine hlost (Subtype.ext (leVal_inj ?_ ?_))
        · exact v.pn.toList_length
        · exact hzero
      refine ⟨hv.sent, fun k' hk' n hn => ?_, fun k' hk' hnil => ?_⟩
      · obtain rfl := Option.some.inj (hconf.symm.trans hk')
        rw [show leVal (nextPn v.pn).toList = _ from hnext]
        exact Nat.le_succ_of_le (hv.below k hconf n hn)
      · obtain rfl := Option.some.inj (hconf.symm.trans hk')
        exact absurd (hv.unused k hconf hnil) hne
  | _ => exact hv.same rfl rfl fun _ => rfl

theorem NonceInv.init (powered : Bool) : NonceInv (view (Mlme.init powered))
    where
  sent _ := ⟨List.Pairwise.nil, fun _ hn => by cases hn⟩
  below _ hk := by cases hk
  unused _ hk := by cases hk

-- ==================================================================== result

/-- In every run whose events keep to `KeepsNonces`, the packet numbers
under each temporal key are strictly increasing from 1. -/
theorem ccmp_packet_numbers_from_one (powered : Bool) (es : List Event)
    (h : Along (sysStep hw) (KeepsNonces hw) (Sys.init powered) es)
    (tk : List UInt8) :
    FromOne (sentPns tk (sysRun hw powered es).mlme.log) := by
  have hallowed := Along.mono (fun _ _ hc => KeepsNonces.allowed hc) h
  have hinv := (sysRun_inv (I := NonceInv) Move.nonceInv
    (NonceInv.init powered) hallowed).2
  rw [sentPns, ← pnsUnder_trail]
  exact hinv.sent tk

/-- Two frames on the sample network. -/
theorem sample_packet_numbers :
    let es := joinEvents ++ [.output {} samplePacket, .output {} samplePacket]
    let tk := (tkOf (samplePtk (sampleNonce 7))).toList
    let log := (sysRun (sampleHw samplePrims) true es).mlme.log
    sentPns tk log = [1, 2] ∧ FromOne (sentPns tk log) :=
  ⟨by decide +kernel,
    ccmp_packet_numbers_from_one true _ (by decide +kernel) _⟩

/-- With the primitives of the source: the same forged M3 in two
associations makes the number 1 go out twice under the all-zero key. -/
theorem packet_number_repeated :
    let frames := [Event.rx {} (eapolFromAp sampleMac sampleAp forgedM3),
      .output {} samplePacket]
    let es := scanEvents ccmpIe ++ assocEvents ++ frames
      ++ [.rx {} (deauthFromAp sampleMac sampleAp)] ++ assocEvents ++ frames
    sentPns (zeros 16).toList
      (sysRun (sampleHw kernPrims) true es).mlme.log = [1, 1] := by
  decide +kernel

end Rtw88
