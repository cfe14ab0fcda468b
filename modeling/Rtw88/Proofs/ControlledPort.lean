/-
The controlled port on receive: where the frames of the network stack
come from.

A data frame reaches `deliverEthernet` at once, out of the reorder
buffer, out of its flush, or as a part of an A-MSDU. The first three are
one question: `InTransit` follows every frame that waits in a window or
in a released list back to the event that received it, and that event
took it in HANDSHAKING or in CONNECTED. The last is `SkBuff.msdus`.

No receive path looks at the Protected bit other than to find the
payload, so nothing here speaks of it.

The invariant is a property of frames, carried through the windows by
Proofs/Reorder/Members.lean: the event that receives a frame establishes
it (`Receives.of_takes`), and no other event brings a frame into a window
or a list (`Move.rxBa_all`). What the stack gets in an event is then a
frame that the event received, or one in transit (`delivers_cases`). The
state may have changed since the frame was received; the result is about
the state in which it was.
-/
import Mathlib.Data.List.Induction
import Rtw88.Proofs.Authentic
import Rtw88.Spec.AccessPoint

namespace Rtw88

variable {hw : Hw} {env : Env}

-- =============================================================== vocabulary

/-- The frame of an observation that is for the network stack. -/
def Obs.stackFrame : Obs → Option EthFrame
  | .injectRxFrame f => some f
  | _ => none

/-- The frames handed to the network stack, newest first. -/
def stackFrames (log : List Obs) : List EthFrame :=
  log.filterMap Obs.stackFrame

/-- The link takes data frames: it is in HANDSHAKING, or in CONNECTED
and then, with WPA2, holds the key of its handshake. -/
structure TakesData (s : Mlme) : Prop where
  state : s.state = .connected ∨ s.state = .handshaking
  key : s.state = .connected → s.wpa2 = true → HoldsKey s

/-- The event receives this data frame on a link that takes it. -/
def Receives (s : Sys) (e : Event) (skb : SkBuff) : Prop :=
  (∃ env, e = .rx env skb) ∧ isMgmt (frameControl skb.mem) = false
    ∧ isData (frameControl skb.mem) = true ∧ TakesData s.mlme

/-- Some event of the run received this data frame. -/
def ReceivedIn (hw : Hw) (powered : Bool) (es : List Event)
    (skb : SkBuff) : Prop :=
  ∃ pre e post, es = pre ++ e :: post
    ∧ Receives (sysRun hw powered pre) e skb

/-- Where a frame of the network stack comes from: an MSDU of a data
frame that the event delivers, and that this event or, if it was put
into a reorder buffer, an earlier one received. -/
def FromLink (hw : Hw) (powered : Bool) (es : List Event) (e : Event)
    (f : EthFrame) : Prop :=
  ∃ env skb, (sysRun hw powered es).delivers e = some (env, skb)
    ∧ f ∈ skb.msdus (sysRun hw powered es).mlme.state
    ∧ (Receives (sysRun hw powered es) e skb
      ∨ (∃ i, e = .deliver i env) ∧ ReceivedIn hw powered es skb)

-- ============================================================== in transit

/-- Every frame that waits in a window or in a released list has `Q`. -/
structure InTransit (Q : SkBuff → Prop) (s : Sys) : Prop where
  windows : s.mlme.rxBa.All Q
  pending : ∀ p ∈ s.pending, ∀ skb ∈ p.out, Q skb

theorem InTransit.mono {Q R : SkBuff → Prop} (hQR : ∀ skb, Q skb → R skb)
    {s : Sys} (h : InTransit Q s) : InTransit R s where
  windows tid r hr c x hx := hQR x (h.windows tid r hr c x hx)
  pending p hp skb hskb := hQR skb (h.pending p hp skb hskb)

/-- A move brings nothing into the windows but what it takes. -/
private theorem Move.rxBa_all {P : Allow} {v w : Link}
    (h : Move hw P v w) (hv : v.rxBa.All P.takes) :
    w.rxBa.All P.takes := by
  cases h with
  | dropSta sta told hsta htold => exact fun _ _ hr => by cases hr
  | baDown => exact fun _ _ hr => by cases hr
  | rxBa rx hrx hheld => exact hheld P.takes (fun _ h => h) hv
  | _ => exact hv

/-- A received frame releases frames of the windows, and itself. -/
private theorem rxFrame_pending {Q : SkBuff → Prop} {s : Sys} {skb : SkBuff}
    (h : s.mlme.rxBa.All Q)
    (htakes : ∀ x ∈ s.takes (.rx env skb), Q x) :
    ∀ p, (rxFrame hw env skb s.mlme).2 = some p → ∀ x ∈ p.out, Q x := by
  intro p hp
  rw [rxFrame] at hp
  split at hp
  next => cases hp
  next hmgmt =>
    split at hp
    next hdata =>
      rw [processRxData] at hp
      split at hp
      next => cases hp
      next hconn =>
        split at hp
        next tid htid =>
          have hconn : rxConnected s.mlme = true := by simpa using hconn
          have hskb : Q skb := htakes skb (by
            simp [Sys.takes, hmgmt, hdata, htid, hconn])
          rw [← Option.some.inj hp]
          exact (rxReorderInput_all h hskb tid _).2
        next => cases hp
    next => cases hp

/-- One event: what it takes joins what is in transit. -/
private theorem sysStep_inTransit {Q : SkBuff → Prop} {s : Sys} {e : Event}
    (hscan : NoLinkScan s) (h : InTransit Q s)
    (htakes : ∀ skb ∈ s.takes e, Q skb) : InTransit Q (sysStep hw s e) where
  windows := by
    have hallowed : Allowed hw { Allow.all with takes := Q } s e :=
      { Allowed.all hw s e with takes := htakes }
    exact (sysStep_moves hscan hallowed).inv
      (I := fun v => v.rxBa.All Q) Move.rxBa_all h.windows
  pending := by
    have hconnect : ∀ (ssid : Option (List UInt8)) (password : List UInt8)
        (t : Sys), (runConnect ssid password t).pending = t.pending := by
      intro ssid password t
      simp only [runConnect]
      split <;> rfl
    cases e with
    | cmdConnect ssid password =>
        simp only [sysStep]
        split
        · exact h.pending
        · rw [hconnect]
          exact h.pending
    | cmdPowerOff env =>
        simp only [sysStep]
        split <;> exact h.pending
    | resume i env =>
        simp only [sysStep, resumeWait]
        split
        · exact h.pending
        next w _ =>
          split
          · exact h.pending
          · cases w.cmd with
            | powerOff => exact h.pending
            | connect ssid password =>
                simp only [runWaiter]
                split
                · rw [hconnect]
                  exact h.pending
                · exact h.pending
    | rx env skb =>
        have hnew := @rxFrame_pending hw _ _ _ _ h.windows htakes
        simp only [sysStep]
        cases hp : (rxFrame hw env skb s.mlme).2 with
        | none => exact h.pending
        | some p =>
            intro p' hp'
            rcases List.mem_append.1 hp' with hp' | hp'
            · exact h.pending p' hp'
            · rw [List.mem_singleton.1 hp']
              exact hnew p hp
    | deliver i env =>
        simp only [sysStep, deliverNext]
        cases hi : s.pending[i]? with
        | none => exact h.pending
        | some p =>
            have hold := h.pending p (List.mem_of_getElem? hi)
            obtain ⟨out, needTimer⟩ := p
            cases out with
            | nil =>
                exact fun p' hp' => h.pending p' (List.mem_of_mem_eraseIdx hp')
            | cons skb rest =>
                intro p' hp'
                rcases List.mem_or_eq_of_mem_set hp' with hp' | rfl
                · exact h.pending p' hp'
                · exact fun x hx => hold x (List.mem_cons_of_mem _ hx)
    | timer env =>
        simp only [sysStep, fireTimer]
        split
        · exact h.pending
        · split <;> exact h.pending
    | reorderTimer =>
        simp only [sysStep, fireReorderTimer]
        split
        · exact h.pending
        · intro p' hp'
          rcases List.mem_append.1 hp' with hp' | hp'
          · exact h.pending p' hp'
          · rw [List.mem_singleton.1 hp']
            exact (rxReorderFlushStale_all h.windows).2
    | auth i env scanning =>
        simp only [sysStep, stepAuth]
        split <;> exact h.pending
    | scan i env =>
        simp only [sysStep, stepScan]
        split <;> exact h.pending
    | _ => exact h.pending

-- =============================================================== reception

/-- A link that accepts data frames takes them. -/
private theorem TakesData.of_rxConnected {s : Sys} (hscan : NoLinkScan s)
    (hkey : KeyInv hw (view s.mlme)) (h : rxConnected s.mlme = true) :
    TakesData s.mlme where
  state := by
    have hret := hscan.ret
    simp only [rxConnected, hret, Bool.or_eq_true, Bool.and_eq_true,
      beq_iff_eq] at h
    rcases h with (h | h) | ⟨_, h⟩
    · exact .inl h
    · exact .inr h
    · cases h
  key hconn hwpa := hkey.holdsKey hconn hwpa

/-- What goes into a reorder buffer is received by the event. -/
private theorem Receives.of_takes {s : Sys} {e : Event} {skb : SkBuff}
    (hscan : NoLinkScan s) (hkey : KeyInv hw (view s.mlme))
    (h : s.takes e = some skb) : Receives s e skb := by
  cases e with
  | rx env skb' =>
      simp only [Sys.takes] at h
      split at h
      next hgate =>
        obtain rfl := Option.some.inj h
        simp only [Bool.and_eq_true, Bool.not_eq_true'] at hgate
        obtain ⟨⟨⟨hmgmt, hdata⟩, hconn⟩, _⟩ := hgate
        exact ⟨⟨env, rfl⟩, hmgmt, hdata, .of_rxConnected hscan hkey hconn⟩
      next => cases h
  | _ => cases h

/-- A frame that an event delivers is received by it, or is in transit. -/
private theorem delivers_cases {Q : SkBuff → Prop} {s : Sys} {e : Event}
    {skb : SkBuff} (hscan : NoLinkScan s) (hkey : KeyInv hw (view s.mlme))
    (htransit : InTransit Q s) (h : s.delivers e = some (env, skb)) :
    Receives s e skb ∨ (∃ i, e = .deliver i env) ∧ Q skb := by
  cases e with
  | rx env' skb' =>
      simp only [Sys.delivers] at h
      split at h
      next hgate =>
        obtain ⟨rfl, rfl⟩ := Prod.mk.inj (Option.some.inj h)
        simp only [Bool.and_eq_true, Bool.not_eq_true'] at hgate
        obtain ⟨⟨⟨hmgmt, hdata⟩, hconn⟩, _⟩ := hgate
        exact .inl ⟨⟨env', rfl⟩, hmgmt, hdata,
          .of_rxConnected hscan hkey hconn⟩
      next => cases h
  | deliver i env' =>
      simp only [Sys.delivers] at h
      cases hi : s.pending[i]? with
      | none => rw [hi] at h; cases h
      | some p =>
          rw [hi] at h
          obtain ⟨x, hx, heq⟩ := Option.map_eq_some_iff.1 h
          obtain ⟨rfl, rfl⟩ := Prod.mk.inj heq
          exact .inr ⟨⟨i, rfl⟩, htransit.pending p (List.mem_of_getElem? hi) x
            (List.mem_of_mem_head? hx)⟩
  | _ => cases h

/-- Every frame in transit was received in the run. -/
private theorem sysRun_inTransit (powered : Bool) (es : List Event) :
    InTransit (ReceivedIn hw powered es) (sysRun hw powered es) := by
  induction es using List.reverseRecOn with
  | nil => exact ⟨fun _ _ hr => (by cases hr), fun _ hp => (by cases hp)⟩
  | append_singleton es e ih =>
      have hscan := @sysRun_noLinkScan hw powered es
      have hkey := @sysRun_keyInv hw powered es
      have hrun : sysRun hw powered (es ++ [e])
          = sysStep hw (sysRun hw powered es) e := runFrom_append _ _ es [e]
      rw [hrun]
      refine sysStep_inTransit hscan (ih.mono ?_) fun skb hskb => ?_
      · rintro skb ⟨pre, e', post, rfl, hrx⟩
        exact ⟨pre, e', post ++ [e], by simp, hrx⟩
      · exact ⟨es, e, [], rfl, .of_takes hscan hkey hskb⟩

-- ==================================================================== result

/-- An observation that is not for the stack adds nothing for it. -/
private theorem stackFrames_freed (k : Option KeyConf) (log : List Obs) :
    stackFrames (freed k ++ log) = stackFrames log := by
  cases k <;> rfl

/-- The stack gets what the allowance hands over, on top of what it
got. -/
private theorem Move.stackFrames {P : Allow} {v w : Link} {old : List EthFrame}
    (h : Move hw P v w)
    (hv : ∃ new, stackFrames v.trail = new ++ old ∧ ∀ f ∈ new, P.hands f) :
    ∃ new, Rtw88.stackFrames w.trail = new ++ old ∧ ∀ f ∈ new, P.hands f := by
  obtain ⟨new, hnew, hP⟩ := hv
  cases h with
  | inject f hf =>
      refine ⟨f :: new, congrArg (f :: ·) hnew, fun g hg => ?_⟩
      rcases List.mem_cons.1 hg with rfl | hg
      · exact hf
      · exact hP g hg
  | clear hidle =>
      exact ⟨new, (stackFrames_freed _ _).trans
        ((stackFrames_freed _ _).trans hnew), hP⟩
  | dropPairwise h3 => exact ⟨new, (stackFrames_freed _ _).trans hnew, hP⟩
  | dropGroup h3 => exact ⟨new, (stackFrames_freed _ _).trans hnew, hP⟩
  | dropSta sta told hsta htold =>
      refine ⟨new, ?_, hP⟩
      rcases htold with rfl | rfl <;> exact hnew
  | handshake sta added next hassoc hPa hsta hwpa =>
      refine ⟨new, ?_, hP⟩
      cases hsta <;> exact hnew
  | openLink sta added next hassoc hPa hsta hwpa =>
      refine ⟨new, ?_, hP⟩
      cases hsta <;> exact hnew
  | _ => exact ⟨new, hnew, hP⟩

/-- The trail has every frame for the stack. -/
private theorem stackFrames_trail (log : List Obs) :
    stackFrames (log.filter Obs.onTrail) = stackFrames log := by
  rw [stackFrames, stackFrames, List.filterMap_filter]
  refine List.filterMap_congr fun o _ => ?_
  cases o with
  | tx skb => simp [Obs.stackFrame]
  | _ => rfl

/-- In every run: every frame an event adds to those of the network stack
is an MSDU of a data frame that was received with the link in HANDSHAKING
or CONNECTED, and in CONNECTED with the key of its handshake if it is a
WPA2 link; and no single EAPOL MSDU is among them in HANDSHAKING. -/
theorem stack_frames_from_link (powered : Bool) (es : List Event)
    (e : Event) :
    ∃ new, stackFrames (sysStep hw (sysRun hw powered es) e).mlme.log
        = new ++ stackFrames (sysRun hw powered es).mlme.log
      ∧ ∀ f ∈ new, FromLink hw powered es e f := by
  have hkey := @sysRun_keyInv hw powered es
  have hscan := @sysRun_noLinkScan hw powered es
  have htransit := @sysRun_inTransit hw powered es
  generalize hs : sysRun hw powered es = s at hkey hscan htransit ⊢
  have hallowed : Allowed hw
      { Allow.all with hands := fun f => f ∈ s.hands e } s e :=
    { Allowed.all hw s e with hands := fun f hf => hf }
  have hmoves := (sysStep_moves hscan hallowed).inv
    (I := fun v => ∃ new, stackFrames v.trail
        = new ++ stackFrames (view s.mlme).trail
      ∧ ∀ f ∈ new, f ∈ s.hands e)
    Move.stackFrames ⟨[], rfl, fun _ hf => by cases hf⟩
  obtain ⟨new, hnew, hhands⟩ := hmoves
  have htrail : ∀ t : Mlme, stackFrames (view t).trail = stackFrames t.log :=
    fun t => stackFrames_trail t.log
  refine ⟨new, by rw [← htrail, ← htrail, hnew], fun f hf => ?_⟩
  have hf' := hhands f hf
  rw [Sys.hands] at hf'
  cases hd : s.delivers e with
  | none => rw [hd] at hf'; cases hf'
  | some x =>
      obtain ⟨env, skb⟩ := x
      rw [hd] at hf'
      refine ⟨env, skb, hs ▸ hd, hs ▸ hf', ?_⟩
      rw [hs]
      exact delivers_cases hscan hkey htransit hd

/-- With no handshake yet, a frame in the clear goes to the network
stack. -/
theorem clear_frame_delivered :
    let hw := sampleHw samplePrims
    let s := sysRun hw true (scanEvents ccmpIe ++ assocEvents)
    let skb := dataFromAp sampleMac sampleAp 0x0800 [0x45]
    s.mlme.wpa2 = true ∧ s.mlme.state = .handshaking
      ∧ s.mlme.ptkConf = none ∧ hasProtected (frameControl skb.data) = false
      ∧ (stackFrames (sysStep hw s (.rx {} skb)).mlme.log).map (·.ethertype)
        = [0x0800] := by
  decide +kernel

end Rtw88
