/-
What one event of the system is going to do, read off the event and the
state before it: which frame it delivers, which EAPOL body it hands to
the handshake, whether it goes on to look up a target, whether it
protects a frame.

These are the conditions under which results about runs are stated. Each
uses only the source's own checks on the input and the state before the
event, and each is decidable, so a condition on a run can be evaluated.
-/
import Rtw88.Spec.Link

namespace Rtw88

variable (hw : Hw)

-- =============================================================== deliveries

/-- The frame an event hands to `deliverDataFrame`, if any. -/
def Sys.delivers (s : Sys) : Event → Option (Env × SkBuff)
  | .rx env skb =>
      if !isMgmt (frameControl skb.mem) && isData (frameControl skb.mem)
          && rxConnected s.mlme && (reorderTid skb s.mlme).isNone
      then some (env, skb) else none
  | .deliver i env =>
      match s.pending[i]? with
      | some p => p.out.head?.map fun skb => (env, skb)
      | none => none
  | _ => none

/-- The EAPOL body an event hands to `handleEAPOL`, if any. -/
def Sys.eapol (s : Sys) (e : Event) : Option (Env × List UInt8) :=
  match s.delivers e with
  | some (env, skb) =>
      match decap skb with
      | .single msdu =>
          if msdu.ethertype = ethPPae ∧ s.mlme.state = .handshaking
          then some (env, msdu.payload) else none
      | _ => none
  | none => none

/-- The MSDUs of a data frame that go on to the network stack: all, but
in HANDSHAKING not a single EAPOL MSDU, which the handshake consumes. -/
def SkBuff.msdus (skb : SkBuff) (st : RTW88State) : List EthFrame :=
  match decap skb with
  | .drop => []
  | .amsdu msdus => msdus.map Prod.snd
  | .single msdu =>
      if msdu.ethertype = ethPPae ∧ st = .handshaking then [] else [msdu]

/-- The frames an event may hand to the network stack. -/
def Sys.hands (s : Sys) (e : Event) : List EthFrame :=
  match s.delivers e with
  | some (_, skb) => skb.msdus s.mlme.state
  | none => []

/-- The data frame an event puts into a reorder buffer, if any. -/
def Sys.takes (s : Sys) : Event → Option SkBuff
  | .rx _ skb =>
      if !isMgmt (frameControl skb.mem) && isData (frameControl skb.mem)
          && rxConnected s.mlme && (reorderTid skb s.mlme).isSome
      then some skb else none
  | _ => none

-- ================================================================ handshake

/-- The body is an M3 that passes every check under `ptk`. -/
def VerifiedM3 (env : Env) (ptk : Bytes 64) (data : List UInt8) : Prop :=
  ∃ len ∈ eapolLen data, isM1 (be16At data 5) = false
    ∧ isM3 (be16At data 5) = true ∧ (m3Verified hw env ptk data len).isSome

instance (env : Env) (ptk : Bytes 64) (data : List UInt8) :
    Decidable (VerifiedM3 hw env ptk data) :=
  inferInstanceAs (Decidable (∃ len ∈ eapolLen data, _))

/-- The event verifies an M3 under the all-zero PTK. -/
def ZeroKeyM3 (s : Sys) (e : Event) : Prop :=
  ∃ x ∈ s.eapol e, s.mlme.ptk = zeros 64
    ∧ VerifiedM3 hw x.1 s.mlme.ptk x.2

instance (s : Sys) (e : Event) : Decidable (ZeroKeyM3 hw s e) :=
  inferInstanceAs (Decidable (∃ x ∈ s.eapol e, _))

/-- The event verifies an M3 under a temporal key that has protected a
frame. -/
def ReusesTk (s : Sys) (e : Event) : Prop :=
  ∃ x ∈ s.eapol e, pnsUnder (tkOf s.mlme.ptk).toList s.mlme.log ≠ []
    ∧ VerifiedM3 hw x.1 s.mlme.ptk x.2

instance (s : Sys) (e : Event) : Decidable (ReusesTk hw s e) :=
  inferInstanceAs (Decidable (∃ x ∈ s.eapol e, _))

-- ================================================================== connect

/-- The SSID an event goes on to look up for `cmdConnect`, if any. -/
def Sys.looksUp (s : Sys) : Event → Option (List UInt8)
  | .cmdConnect ssid _ => if s.mlme.state = .idle then ssid else none
  | .resume i _ =>
      match s.waiters[i]? with
      | some { cmd := .connect ssid _, returnState, turn } =>
          let r := abortScanFinish hw returnState s.mlme
          if (turn < 40 ∧ s.mlme.state = .scanning) ∨ r.1 = false
              ∨ r.2.state ≠ .idle then none
          else ssid
      | _ => none
  | _ => none

/-- The event finds the target of a `cmdConnect`. -/
def FindsTarget (s : Sys) (e : Event) : Prop :=
  ∃ ssid ∈ s.looksUp hw e, (findBss ssid s.mlme.bssList).isSome

instance (s : Sys) (e : Event) : Decidable (FindsTarget hw s e) :=
  inferInstanceAs (Decidable (∃ ssid ∈ s.looksUp hw e, _))

/-- The activation of `doAuthenticate` whose final write the event is. -/
def Sys.finishing (s : Sys) : Event → Option AuthThread
  | .auth i _ _ =>
      match s.auths[i]? with
      | some t => if t.pc = .finish then some t else none
      | none => none
  | _ => none

/-- The event is a `stop`. -/
def Event.isStop : Event → Bool
  | .stop _ => true
  | _ => false

/-- The event is a `cmdScan`. -/
def Event.isCmdScan : Event → Bool
  | .cmdScan _ => true
  | _ => false

-- ============================================================= transmission

/-- The packet an event hands to `outputPacket`, if any. -/
def Event.outputs : Event → Option (Env × List UInt8)
  | .output env m => some (env, m)
  | _ => none

/-- The link is up for `outputPacket`, and `txDataFrame` gets as far as
the counters with a frame to protect. -/
def protects (env : Env) (m : List UInt8) (s : Mlme) : Bool :=
  s.state == .connected && s.up && s.sta.isSome && !(m.length < 14)
    && !(2048 < m.length) && env.headCopy && env.dataSkb
    && (txKey (be16At m 12) s).isSome

/-- The event takes a packet number when the counter is at its end. -/
def WrapsPn (s : Sys) (e : Event) : Prop :=
  ∃ x ∈ e.outputs, protects x.1 x.2 s.mlme = true
    ∧ leVal s.mlme.ccmpTxPn.toList + 1 = 2 ^ 48

instance (s : Sys) (e : Event) : Decidable (WrapsPn s e) :=
  inferInstanceAs (Decidable (∃ x ∈ e.outputs, _))

/-- The event takes the first packet number of the key for a frame whose
payload cannot be copied. -/
def LosesFirstPn (s : Sys) (e : Event) : Prop :=
  ∃ x ∈ e.outputs, protects x.1 x.2 s.mlme = true
    ∧ s.mlme.ccmpTxPn = zeros 6 ∧ 14 < x.2.length ∧ x.1.payloadCopy = false

instance (s : Sys) (e : Event) : Decidable (LosesFirstPn s e) :=
  inferInstanceAs (Decidable (∃ x ∈ e.outputs, _))

-- ============================================================= association

/-- The management frame an event hands to `processRxMgmt`, if any. -/
def Event.mgmt : Event → Option (Env × SkBuff)
  | .rx env skb =>
      if isMgmt (frameControl skb.mem) then some (env, skb) else none
  | _ => none

/-- The association response is accepted: it is from the target, long
enough, and reports success. -/
def assocOk (env : Env) (skb : SkBuff) (s : Mlme) : Bool :=
  addr3 skb.mem == s.targetBSS.bssid && !(bodyLen skb < 6)
    && le16At (env.freed.getD skb.mem) 26 == 0

/-- The event accepts an association response. -/
def AcceptsAssoc (s : Sys) (e : Event) : Prop :=
  ∃ x ∈ e.mgmt, (frameControl x.2.mem &&& 0x00f0 = 0x0010
      ∨ frameControl x.2.mem &&& 0x00f0 = 0x0030)
    ∧ s.mlme.state = .associating ∧ assocOk x.1 x.2 s.mlme = true

-- =============================================================== allowances

/-- What the event may do is within the allowance. -/
structure Allowed (P : Allow) (s : Sys) (e : Event) : Prop where
  stop : e.isStop = true → P.stop
  scan : e.isCmdScan = true → P.scan
  connect : FindsTarget hw s e → P.connect
  authWrite : (s.finishing e).isSome → P.authWrite
  assoc : AcceptsAssoc s e → P.assoc
  zeroKey : ZeroKeyM3 hw s e → P.zeroKey
  reuseTk : ReusesTk hw s e → P.reuseTk
  pnWrap : WrapsPn s e → P.pnWrap
  lostPn : LosesFirstPn s e → P.lostPn
  takes : ∀ skb ∈ s.takes e, P.takes skb
  hands : ∀ f ∈ s.hands e, P.hands f

/-- Everything is within the full allowance. -/
theorem Allowed.all (s : Sys) (e : Event) : Allowed hw Allow.all s e :=
  ⟨fun _ => trivial, fun _ => trivial, fun _ => trivial, fun _ => trivial,
    fun _ => trivial, fun _ => trivial, fun _ => trivial, fun _ => trivial,
    fun _ => trivial, fun _ _ => trivial, fun _ _ => trivial⟩

end Rtw88
