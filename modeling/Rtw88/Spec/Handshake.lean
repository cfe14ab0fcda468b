/-
The 4-way handshake with an authenticator that may send its messages
again, over a channel that may delay, reorder, repeat and lose them.

`Authenticator` is the other party: the same PMK, one ANonce for the
association, a key wrap that the client's unwrap takes back. It answers
the first M2 whose MIC verifies, with an M3 under the PTK of that M2's
SNonce. Whatever either party sent stays in the air: a delivery picks any
message sent so far, so that it may come late, in any order, any number
of times or not at all.

The client is the object itself. Between two deliveries it may do
anything that leaves the handshake alone (`other`), or leave the
association (`leave`).
-/
import Rtw88.Lib.KeyWrap
import Rtw88.Lib.Trace
import Rtw88.Spec.AccessPoint
import Rtw88.Spec.QosData
import Rtw88.Spec.Steps

namespace Rtw88

variable (hw : Hw)

-- ============================================================ the other party

/-- An access point in one association: its secrets and addresses, its
block cipher, and the key data of its M3 in the clear, in blocks. -/
structure Authenticator (pr : Prims) where
  pmk : Bytes 32
  anonce : Bytes 32
  spa : Bytes 6
  aa : Bytes 6
  enc : Bytes 16 → Bytes 16 → Bytes 16
  keyData : List (Bytes 8)
  decrypts : ∀ kek b, pr.decryptBlock kek (enc kek b) = b
  someData : 1 ≤ keyData.length
  fits : keyData.length ≤ 32

/-- The replay counter of the `k`-th message. -/
def replayOf (k : Nat) : Bytes 8 := ⟨beBytes 8 k, beBytes_length 8 k⟩

/-- An M2: a pairwise key, a MIC, and neither an acknowledgment asked for
nor the secure bit of an M4. -/
def isM2 (keyInfo : UInt16) : Bool := keyInfo &&& 0x0388 == 0x0108

namespace Authenticator

variable {pr : Prims} (n : Authenticator pr)

/-- The PTK of an SNonce. -/
def ptk (snonce : Bytes 32) : Bytes 64 :=
  derivePTK pr n.pmk n.anonce snonce n.spa n.aa

/-- Its M1 with the `k`-th replay counter. -/
def m1 (k : Nat) : List UInt8 := m1Body n.anonce (replayOf k)

/-- The key data of its M3: wrapped under the KEK. -/
def wrapped (snonce : Bytes 32) : List UInt8 :=
  keyWrap (n.enc (kekOf (n.ptk snonce))) n.keyData

/-- Its M3 in answer to an SNonce. -/
def m3 (snonce : Bytes 32) (k : Nat) : List UInt8 :=
  let frame := fun mic =>
    eapolKeyFrame 0x13CA (replayOf k) n.anonce mic (n.wrapped snonce)
  frame (eapolMic pr (kckOf (n.ptk snonce)) frame)

/-- The SNonce of an M2 that it answers. -/
def accepts (body : List UInt8) : Option (Bytes 32) :=
  let snonce := grab body 17 32
  if isM2 (be16At body 5) && eapolMicOk pr true (kckOf (n.ptk snonce)) body
  then some snonce else none

end Authenticator

-- ===================================================================== runs

/-- The EAPOL body of a data frame that goes out. -/
def Obs.eapolBody : Obs → Option (List UInt8)
  | .tx skb =>
      let h := hdrlen (frameControl skb.data)
      if isData (frameControl skb.data) && isSnap skb.data h
          && be16At skb.data (h + 6) == ethPPae
      then some (skb.data.drop (h + 8)) else none
  | _ => none

/-- The client; the SNonces it drew, newest first; the SNonce of the M2
that was answered; and all that was sent either way, oldest first. -/
structure HandshakeRun where
  client : Mlme
  drawn : List (Bytes 32)
  answered : Option (Bytes 32)
  toClient : List (List UInt8)
  toAp : List (List UInt8)

/-- A client that has entered HANDSHAKING. -/
def HandshakeRun.init (s : Mlme) : HandshakeRun :=
  { client := s, drawn := [], answered := none, toClient := [], toAp := [] }

/-- What happens next. -/
inductive HandshakeEvent
  | sendM1
  | resendM3
  | toAp (i : Nat)
  | toClient (i : Nat) (env : Env)
  | other (t : Mlme)
  | leave (t : Mlme)

/-- The body that reaches `handleEAPOL`. -/
def HandshakeRun.delivered (v : HandshakeRun) :
    HandshakeEvent → Option (Env × List UInt8)
  | .toClient i env =>
      if v.client.state = .handshaking
      then v.toClient[i]?.map fun body => (env, body) else none
  | _ => none

/-- `handleEAPOL` takes the body for an M1. -/
def takenForM1 (body : List UInt8) : Bool :=
  (eapolLen body).isSome && isM1 (be16At body 5)

/-- The authenticator sends a message. -/
def HandshakeRun.sends (v : HandshakeRun) (message : Nat → List UInt8) :
    HandshakeRun :=
  { v with toClient := v.toClient ++ [message (v.toClient.length + 1)] }

/-- One event. -/
def handshakeStep (n : Authenticator hw.prims) (v : HandshakeRun)
    (e : HandshakeEvent) : HandshakeRun :=
  match e with
  | .sendM1 => if v.answered.isSome then v else v.sends n.m1
  | .resendM3 =>
      match v.answered with
      | some snonce => v.sends (n.m3 snonce)
      | none => v
  | .toAp i =>
      if v.answered.isSome then v
      else
        match v.toAp[i]?.bind n.accepts with
        | some snonce =>
            { v with answered := some snonce }.sends (n.m3 snonce)
        | none => v
  | .toClient _ _ =>
      match v.delivered e with
      | some (env, body) =>
          let client := handleEAPOL hw env body v.client
          { v with
            client := client
            drawn := if takenForM1 body then env.snonce :: v.drawn
              else v.drawn
            toAp := v.toAp
              ++ (observed v.client client).filterMap Obs.eapolBody }
      | none => v
  | .other t =>
      { v with client := { t with
          state := v.client.state, pmk := v.client.pmk, ptk := v.client.ptk
          targetBSS := v.client.targetBSS, ptkConf := v.client.ptkConf
          log := v.client.log } }
  | .leave t =>
      { v with client := { t with state := .idle, log := v.client.log } }

-- ================================================================= agreement

/-- The client is in HANDSHAKING with this access point. -/
structure JoinsAt (n : Authenticator hw.prims) (s : Mlme) : Prop where
  state : s.state = .handshaking
  pmk : s.pmk = n.pmk
  aa : s.targetBSS.bssid = n.aa
  spa : hw.macAddr = n.spa

/-- No M3 in the air verifies under the PTKs of two SNonces. -/
def NoCollision (n : Authenticator hw.prims) (v : HandshakeRun)
    (_ : HandshakeEvent) : Prop :=
  ∀ a ∈ v.drawn, ∀ b ∈ v.drawn, ∀ body ∈ v.toClient,
    isM3 (be16At body 5) = true →
      eapolMicOk hw.prims true (kckOf (n.ptk a)) body = true →
        eapolMicOk hw.prims true (kckOf (n.ptk b)) body = true → a = b

/-- The installed pairwise key is the temporal key of the PTK the
authenticator has. -/
def HoldsTk {pr : Prims} (n : Authenticator pr) (v : HandshakeRun)
    (k : KeyConf) : Prop :=
  ∃ snonce, v.answered = some snonce
    ∧ k.key = (tkOf (n.ptk snonce)).toList

/-- When an M3 is delivered, its MIC is right for the client exactly if
the SNonce that was answered is the last one the client drew, and then
the M3 passes all its checks; the pairwise key it installs is the
authenticator's; and a client that is connected has the authenticator's
PTK, with its temporal key installed. -/
structure HandshakeAgrees (n : Authenticator hw.prims) (v : HandshakeRun)
    (e : HandshakeEvent) : Prop where
  checks : ∀ x ∈ v.delivered e, isM3 (be16At x.2 5) = true →
    (eapolMicOk hw.prims true (kckOf v.client.ptk) x.2 = true
      ↔ v.drawn.head? = v.answered)
  verifies : ∀ x ∈ v.delivered e, isM3 (be16At x.2 5) = true →
    x.1.micAlloc = true → v.drawn.head? = v.answered →
      VerifiedM3 hw x.1 v.client.ptk x.2
  installs : (v.delivered e).isSome →
    ∀ k, (handshakeStep hw n v e).client.ptkConf = some k →
      v.client.ptkConf = some k ∨ HoldsTk n v k
  connected : (handshakeStep hw n v e).client.state = .connected →
    ∃ snonce k, (handshakeStep hw n v e).answered = some snonce
      ∧ (handshakeStep hw n v e).client.ptk = n.ptk snonce
      ∧ (handshakeStep hw n v e).client.ptkConf = some k
      ∧ k.key = (tkOf (n.ptk snonce)).toList

end Rtw88
