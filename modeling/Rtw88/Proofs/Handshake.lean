/-
Agreement of the 4-way handshake under retransmission:
`handshake_agrees`.

`HandshakeInv` says what is in the air and what the client holds: M3s are
in answer to an SNonce that the client drew, and its `_ptk` is that of
the one it drew last, as every M1 draws a new one. So an M3 verifies
where the two are the same, and where MICs do not collide nowhere else.

# The two parties

The authenticator answers the first M2 it accepts with an M3, and sends
that again as often as it likes; until then it sends its M1. What it
sends stays in the air, and a delivery takes any of it: messages may be
lost, repeated and overtaken, and there is no order but that of the
events.

- `m1_reads`, `m3_reads` and their like say what the client reads in a
  message the authenticator built.
- `handleEAPOL_m1` and `handleEAPOL_m3` say what it does with it.
- An M1 gives a new SNonce, and with it a new `_ptk`: the M3s that are
  still on their way answer an older one.

The MIC is a parameter. That it is right under the PTK it was made with
is a fact about the message; that it is wrong under another is
`NoCollision`, which is asked of the SNonces drawn and the M3s sent, and
`mic_iff` is where it is used.

# The counterpart

In `resent_m1_spoils_m3` no MICs collide: the M1 is sent again, both are
delivered, and the M3 for the first M2 finds a client that has moved on.
-/
import Rtw88.Proofs.Authentic
import Rtw88.Proofs.Crypto.KeyWrap
import Rtw88.Proofs.EapolKey
import Rtw88.Proofs.QosData
import Rtw88.Spec.Handshake

namespace Rtw88

variable {hw : Hw} {env : Env}

-- ================================================================ messages

namespace Authenticator

variable {pr : Prims} (n : Authenticator pr)

/-- Message 1 of the AP, field by field. -/
theorem m1_reads (k : Nat) :
    EapolKeyReads (n.m1 k) 0x008A (replayOf k) n.anonce (zeros 16) [] :=
  eapolKeyFrame_reads _ _ _ _ _

/-- The client takes an M1 for one. -/
theorem takenForM1_m1 (k : Nat) : takenForM1 (n.m1 k) = true := by
  have hreads := n.m1_reads k
  unfold takenForM1
  rw [hreads.eapolLen_eq (by decide), hreads.info]
  rfl

theorem isM3_m1 (k : Nat) : isM3 (be16At (n.m1 k) 5) = false := by
  rw [(n.m1_reads k).info]
  rfl

/-- The key data of message 3 unwrap under the client's key. -/
theorem wrapped_spec (snonce : Bytes 32) :
    (n.wrapped snonce).length = 8 + 8 * n.keyData.length
      ∧ aesUnwrap128 pr.decryptBlock (kekOf (n.ptk snonce))
          (n.wrapped snonce)
        = some (n.keyData.flatMap fun b => b.toList) :=
  aesUnwrap128_keyWrap n.decrypts n.someData n.fits

theorem m3_reads (snonce : Bytes 32) (k : Nat) :
    ∃ mic, EapolKeyReads (n.m3 snonce k) 0x13CA (replayOf k) n.anonce mic
      (n.wrapped snonce) :=
  ⟨_, eapolKeyFrame_reads _ _ _ _ _⟩

/-- Its length is what its header says. -/
theorem eapolLen_m3 (snonce : Bytes 32) (k : Nat) :
    eapolLen (n.m3 snonce k) = some (n.m3 snonce k).length := by
  obtain ⟨mic, hreads⟩ := n.m3_reads snonce k
  have hlen := (n.wrapped_spec snonce).1
  have hfits := n.fits
  exact hreads.eapolLen_eq (by omega)

/-- It is message 3 and no message 1. -/
theorem kind_m3 (snonce : Bytes 32) (k : Nat) :
    isM1 (be16At (n.m3 snonce k) 5) = false
      ∧ isM3 (be16At (n.m3 snonce k) 5) = true := by
  obtain ⟨mic, hreads⟩ := n.m3_reads snonce k
  rw [hreads.info]
  exact ⟨rfl, rfl⟩

theorem takenForM1_m3 (snonce : Bytes 32) (k : Nat) :
    takenForM1 (n.m3 snonce k) = false := by
  unfold takenForM1
  rw [(n.kind_m3 snonce k).1, Bool.and_false]

/-- Its MIC is right under the PTK it was made with. -/
theorem mic_m3 (snonce : Bytes 32) (k : Nat) :
    eapolMicOk pr true (kckOf (n.ptk snonce)) (n.m3 snonce k) = true :=
  eapolMicOk_eapolMic pr (kckOf (n.ptk snonce)) 0x13CA (replayOf k) n.anonce
    (n.wrapped snonce)

end Authenticator

/-- And it passes all checks under that PTK. -/
theorem verified_m3 (n : Authenticator hw.prims) (snonce : Bytes 32)
    (k : Nat) (halloc : env.micAlloc = true) :
    VerifiedM3 hw env (n.ptk snonce) (n.m3 snonce k) := by
  obtain ⟨mic, hreads⟩ := n.m3_reads snonce k
  obtain ⟨hlen, hunwrap⟩ := n.wrapped_spec snonce
  obtain ⟨hm1, hm3⟩ := n.kind_m3 snonce k
  have hfits := n.fits
  refine ⟨_, n.eapolLen_m3 snonce k, hm1, hm3, ?_⟩
  have hdata : (be16At (n.m3 snonce k) 97).toNat
      = (n.wrapped snonce).length := by
    rw [hreads.dataLen, UInt16.toNat_ofNat']
    omega
  have hkey : m3KeyData hw.prims (kekOf (n.ptk snonce)) 0x13CA
      (n.wrapped snonce) = some (n.keyData.flatMap fun b => b.toList) := by
    unfold m3KeyData
    rw [if_neg (by omega), if_pos (by decide)]
    exact hunwrap
  unfold m3Verified
  dsimp only
  rw [List.take_length, halloc, n.mic_m3, hdata, hreads.keyData,
    List.take_length, hreads.length, if_neg (Nat.lt_irrefl _), hreads.info,
    hkey]
  rfl

/-- What passes the checks has the right MIC. -/
theorem mic_of_m3Verified {ptk : Bytes 64} {data : List UInt8} {len : Nat}
    (h : (m3Verified hw env ptk data len).isSome) :
    eapolMicOk hw.prims true (kckOf ptk) (data.take len) = true := by
  unfold m3Verified at h
  dsimp only at h
  split at h
  · cases h
  next hmic =>
    rw [Bool.not_eq_true', Bool.not_eq_false] at hmic
    unfold eapolMicOk at hmic ⊢
    split at hmic
    · cases hmic
    next hfit =>
      rw [Bool.or_eq_true, not_or] at hfit
      rw [if_neg]
      · exact hmic
      · rw [Bool.or_eq_true, not_or]
        exact ⟨hfit.1, Bool.false_ne_true⟩

-- =============================================================== the client

/-- What the client makes of an M1. -/
theorem handleEAPOL_m1 (n : Authenticator hw.prims) (k : Nat) (s : Mlme) :
    handleEAPOL hw env (n.m1 k) s = handleM1 hw env (n.m1 k) s := by
  have hreads := n.m1_reads k
  unfold handleEAPOL
  rw [hreads.eapolLen_eq (by decide), hreads.info]
  rfl

/-- An M2 carries the SNonce that was just drawn. -/
theorem handleM1_sends (data : List UInt8) (s : Mlme) :
    ∀ body ∈ (observed s (handleM1 hw env data s)).filterMap Obs.eapolBody,
      grab body 17 32 = env.snonce := by
  intro body hbody
  have hsends := @sendEAPOLKey_sends hw env 2 (grab data 9 8)
    ((takeM1 hw env data s).emit (.m1 (grab data 17 32) env.snonce))
  rcases hsends with hlog | ⟨skb, hlog, hkind, hsnap, htype, mic, hreads⟩
  · have hone : observed s (handleM1 hw env data s)
        = [.m1 (grab data 17 32) env.snonce] := observed_one hlog
    rw [hone] at hbody
    cases hbody
  · have htwo : observed s (handleM1 hw env data s)
        = [.m1 (grab data 17 32) env.snonce, .tx skb] :=
      observed_append (l := [.tx skb, .m1 (grab data 17 32) env.snonce]) hlog
    have hskb : Obs.eapolBody (.tx skb)
        = some (skb.data.drop (hdrlen (frameControl skb.data) + 8)) := by
      unfold Obs.eapolBody
      dsimp only
      rw [hkind, hsnap, htype]
      rfl
    rw [htwo, List.filterMap_cons_none rfl,
      List.filterMap_cons_some hskb] at hbody
    rw [List.mem_singleton.1 hbody]
    exact hreads.nonce

/-- What the client makes of an M3. -/
theorem handleEAPOL_m3 (n : Authenticator hw.prims) (snonce : Bytes 32)
    (k : Nat) (s : Mlme) :
    handleEAPOL hw env (n.m3 snonce k) s = s
      ∨ LeavesM3 s (handleEAPOL hw env (n.m3 snonce k) s)
        ∧ eapolMicOk hw.prims true (kckOf s.ptk) (n.m3 snonce k) = true := by
  obtain ⟨hm1, hm3⟩ := n.kind_m3 snonce k
  rw [handleEAPOL, n.eapolLen_m3]
  cases hver : m3Verified hw env s.ptk (n.m3 snonce k)
      (n.m3 snonce k).length with
  | none =>
      simp only [hm1, hm3, hver, Bool.false_eq_true, if_false, if_true]
      exact .inl trivial
  | some keyData =>
      simp only [hm1, hm3, hver, Bool.false_eq_true, if_false, if_true]
      refine .inr ⟨acceptM3_leaves _ keyData s, ?_⟩
      have hmic := mic_of_m3Verified (Option.isSome_iff_exists.2 ⟨_, hver⟩)
      rw [List.take_length] at hmic
      exact hmic

-- ============================================================ the invariant

/-- What is in the air, and what the client holds. -/
structure HandshakeInv (n : Authenticator hw.prims) (v : HandshakeRun) :
    Prop where
  joined : v.client.state = .handshaking →
    v.client.pmk = n.pmk ∧ v.client.targetBSS.bssid = n.aa
  ptk : v.client.state = .handshaking →
    ∀ a ∈ v.drawn.head?, v.client.ptk = n.ptk a
  nonces : v.answered = none → ∀ body ∈ v.toAp, grab body 17 32 ∈ v.drawn
  answered : ∀ a ∈ v.answered, a ∈ v.drawn
  sent : ∀ body ∈ v.toClient, (∃ k, body = n.m1 k)
    ∨ ∃ a ∈ v.answered, ∃ k, body = n.m3 a k
  connected : v.client.state = .connected → ∃ a k, v.answered = some a
    ∧ v.client.ptk = n.ptk a ∧ v.client.ptkConf = some k
    ∧ k.key = (tkOf (n.ptk a)).toList

variable {n : Authenticator hw.prims} {v : HandshakeRun}

theorem HandshakeInv.init {s : Mlme} (h : JoinsAt hw n s) :
    HandshakeInv n (HandshakeRun.init s) where
  joined := fun _ => ⟨h.pmk, h.aa⟩
  ptk := fun _ a ha => by cases ha
  nonces := fun _ body hbody => absurd hbody List.not_mem_nil
  answered := fun a ha => by cases ha
  sent := fun body hbody => absurd hbody List.not_mem_nil
  connected := by
    intro hconn
    rw [show (HandshakeRun.init s).client.state = .handshaking from h.state]
      at hconn
    cases hconn

namespace HandshakeInv

/-- The authenticator sends one more message of either kind. -/
theorem sends (h : HandshakeInv n v) {message : Nat → List UInt8}
    (hkind : (∀ k, ∃ k', message k = n.m1 k')
      ∨ ∃ a ∈ v.answered, ∀ k, ∃ k', message k = n.m3 a k') :
    HandshakeInv n (v.sends message) where
  joined := h.joined
  ptk := h.ptk
  nonces := h.nonces
  answered := h.answered
  connected := h.connected
  sent := by
    intro body hbody
    rcases List.mem_append.1 hbody with hold | hnew
    · exact h.sent body hold
    · rw [List.mem_singleton.1 hnew]
      rcases hkind with hm1 | ⟨a, ha, hm3⟩
      · exact .inl (hm1 _)
      · exact .inr ⟨a, ha, hm3 _⟩

/-- The authenticator answers an M2. -/
theorem answers (h : HandshakeInv n v) (hnone : v.answered = none)
    {body : List UInt8} (hbody : body ∈ v.toAp) {a : Bytes 32}
    (ha : n.accepts body = some a) :
    HandshakeInv n { v with answered := some a } := by
  have hmem : a ∈ v.drawn := by
    unfold Authenticator.accepts at ha
    dsimp only at ha
    split at ha
    · obtain rfl := Option.some.inj ha
      exact h.nonces hnone body hbody
    · cases ha
  refine ⟨h.joined, h.ptk, (fun hno => by cases hno), ?_, ?_, ?_⟩
  · intro b hb
    obtain rfl := Option.some.inj hb
    exact hmem
  · intro body' hbody'
    rcases h.sent body' hbody' with hm1 | ⟨b, hb, -⟩
    · exact .inl hm1
    · rw [hnone] at hb
      cases hb
  · intro hconn
    obtain ⟨b, -, hb, -⟩ := h.connected hconn
    rw [hnone] at hb
    cases hb

/-- The MIC of an M3 is right for the client exactly if the SNonce it
answers is the one the client drew last. -/
theorem mic_iff (h : HandshakeInv n v) (hstate : v.client.state = .handshaking)
    {e : HandshakeEvent} (hideal : NoCollision hw n v e) {a : Bytes 32}
    (ha : v.answered = some a) {k : Nat} (hmem : n.m3 a k ∈ v.toClient) :
    eapolMicOk hw.prims true (kckOf v.client.ptk) (n.m3 a k) = true
      ↔ v.drawn.head? = v.answered := by
  have hdrawn := h.answered a ha
  rw [ha]
  cases hlast : v.drawn.head? with
  | none =>
      rw [List.head?_eq_none_iff] at hlast
      rw [hlast] at hdrawn
      cases hdrawn
  | some b =>
      have hb : b ∈ v.drawn := List.mem_of_head? hlast
      rw [h.ptk hstate b hlast]
      constructor
      · intro hmic
        rw [hideal b hb a hdrawn _ hmem (n.kind_m3 a k).2 hmic (n.mic_m3 a k)]
      · intro hsame
        obtain rfl := Option.some.inj hsame
        exact n.mic_m3 b k

-- =================================================================== delivery

/-- A delivery is of a message that was sent. -/
theorem delivered_mem {e : HandshakeEvent} {x : Env × List UInt8}
    (hx : v.delivered e = some x) :
    v.client.state = .handshaking ∧ x.2 ∈ v.toClient := by
  cases e with
  | toClient i env =>
      unfold HandshakeRun.delivered at hx
      dsimp only at hx
      split at hx
      next hstate =>
        obtain ⟨body, hget, rfl⟩ := Option.map_eq_some_iff.1 hx
        exact ⟨hstate, List.mem_of_getElem? hget⟩
      · cases hx
  | _ => cases hx

/-- What a delivery does. -/
theorem step_delivered {e : HandshakeEvent} {env : Env} {body : List UInt8}
    (hx : v.delivered e = some (env, body)) :
    handshakeStep hw n v e
      = { v with
          client := handleEAPOL hw env body v.client
          drawn := if takenForM1 body then env.snonce :: v.drawn
            else v.drawn
          toAp := v.toAp ++ (observed v.client
            (handleEAPOL hw env body v.client)).filterMap Obs.eapolBody } := by
  cases e with
  | toClient i env' =>
      unfold handshakeStep
      dsimp only
      rw [hx]
  | _ => cases hx

/-- An M1 reaches the client. -/
theorem m1 (h : HandshakeInv n v) (hspa : hw.macAddr = n.spa)
    (hstate : v.client.state = .handshaking) (env : Env) (k : Nat) :
    HandshakeInv n { v with
      client := handleM1 hw env (n.m1 k) v.client
      drawn := env.snonce :: v.drawn
      toAp := v.toAp ++ (observed v.client
        (handleM1 hw env (n.m1 k) v.client)).filterMap Obs.eapolBody } := by
  have hview := @view_handleM1 hw env (n.m1 k) v.client
  obtain ⟨hpmk, haa⟩ := h.joined hstate
  have hptk : (handleM1 hw env (n.m1 k) v.client).ptk = n.ptk env.snonce := by
    have hptk := congrArg Link.ptk hview
    change _ = derivePTK hw.prims v.client.pmk (grab (n.m1 k) 17 32)
      env.snonce hw.macAddr v.client.targetBSS.bssid at hptk
    rw [hpmk, haa, hspa, (n.m1_reads k).nonce] at hptk
    exact hptk
  refine ⟨fun _ => ?_, fun _ a ha => ?_, fun hnone body hbody => ?_,
    fun a ha => List.mem_cons_of_mem _ (h.answered a ha), h.sent,
    fun hconn => ?_⟩
  · exact ⟨(congrArg Link.pmk hview).trans hpmk,
      (congrArg (fun v => v.target.bssid) hview).trans haa⟩
  · obtain rfl : env.snonce = a := Option.some.inj ha
    exact hptk
  · rcases List.mem_append.1 hbody with hold | hnew
    · exact List.mem_cons_of_mem _ (h.nonces hnone body hold)
    · rw [handleM1_sends _ _ body hnew]
      exact List.mem_cons_self
  · have hsame := congrArg Link.state hview
    change (handleM1 hw env (n.m1 k) v.client).state = v.client.state at hsame
    have hno := hstate.symm.trans (hsame.symm.trans hconn)
    cases hno

/-- An M3 reaches the client. -/
theorem m3 (h : HandshakeInv n v) (hstate : v.client.state = .handshaking)
    {e : HandshakeEvent} (hideal : NoCollision hw n v e) {a : Bytes 32}
    (ha : v.answered = some a) {k : Nat} (hmem : n.m3 a k ∈ v.toClient)
    (env : Env) (sent : List (List UInt8)) :
    HandshakeInv n { v with
      client := handleEAPOL hw env (n.m3 a k) v.client
      toAp := v.toAp ++ sent } := by
  have hanswered : v.answered ≠ none := by
    rw [ha]
    exact Option.some_ne_none a
  rcases @handleEAPOL_m3 hw env n a k v.client with hsame | ⟨hleaves, hmic⟩
  · rw [hsame]
    exact ⟨h.joined, h.ptk, fun hnone => absurd hnone hanswered, h.answered,
      h.sent, h.connected⟩
  · refine ⟨fun _ => ?_, fun _ b hb => ?_, fun hnone => absurd hnone hanswered,
      h.answered, h.sent, fun hconn => ?_⟩
    · rw [hleaves.pmk, hleaves.target]
      exact h.joined hstate
    · exact hleaves.ptk.trans (h.ptk hstate b hb)
    · rcases hleaves.state with hstay | ⟨-, key, hconf, hkey⟩
      · have hno := hstate.symm.trans (hstay.symm.trans hconn)
        cases hno
      · have hlast := (h.mic_iff hstate hideal ha hmem).1 hmic
        have hptk := h.ptk hstate a (hlast.trans ha)
        rw [hptk] at hkey
        exact ⟨a, key, ha, hleaves.ptk.trans hptk, hconf, hkey⟩

/-- A message reaches the client. -/
theorem delivery (h : HandshakeInv n v) (hspa : hw.macAddr = n.spa)
    {e : HandshakeEvent} (hideal : NoCollision hw n v e)
    {x : Env × List UInt8} (hx : v.delivered e = some x) :
    HandshakeInv n (handshakeStep hw n v e) := by
  obtain ⟨env, body⟩ := x
  obtain ⟨hstate, hmem⟩ := delivered_mem hx
  rw [step_delivered hx]
  rcases h.sent body hmem with ⟨k, rfl⟩ | ⟨a, ha, k, rfl⟩
  · rw [n.takenForM1_m1, if_pos rfl, handleEAPOL_m1]
    exact h.m1 hspa hstate env k
  · rw [n.takenForM1_m3, if_neg Bool.false_ne_true]
    exact h.m3 hstate hideal ha hmem env _

/-- Every event keeps the invariant. -/
theorem step (h : HandshakeInv n v) (hspa : hw.macAddr = n.spa)
    {e : HandshakeEvent} (hideal : NoCollision hw n v e) :
    HandshakeInv n (handshakeStep hw n v e) := by
  cases hx : v.delivered e with
  | some x => exact h.delivery hspa hideal hx
  | none =>
    cases e with
    | sendM1 =>
        unfold handshakeStep
        dsimp only
        split
        · exact h
        · exact h.sends (.inl fun k => ⟨k, rfl⟩)
    | resendM3 =>
        unfold handshakeStep
        dsimp only
        split
        next a ha => exact h.sends (.inr ⟨a, ha, fun k => ⟨k, rfl⟩⟩)
        · exact h
    | toAp i =>
        unfold handshakeStep
        dsimp only
        split
        · exact h
        next hnone =>
          rw [Option.not_isSome_iff_eq_none] at hnone
          split
          next a ha =>
            obtain ⟨body, hget, haccept⟩ := Option.bind_eq_some_iff.1 ha
            have h' := h.answers hnone (List.mem_of_getElem? hget) haccept
            exact h'.sends (.inr ⟨a, rfl, fun k => ⟨k, rfl⟩⟩)
          · exact h
    | toClient i env =>
        unfold handshakeStep
        dsimp only
        rw [hx]
        exact h
    | other t =>
        exact ⟨h.joined, h.ptk, h.nonces, h.answered, h.sent, h.connected⟩
    | leave t =>
        exact ⟨(fun hno => by cases hno), (fun hno => by cases hno), h.nonces,
          h.answered, h.sent, fun hno => by cases hno⟩

-- ================================================================== agreement

/-- What an event owes. -/
theorem agrees (h : HandshakeInv n v) (hspa : hw.macAddr = n.spa)
    {e : HandshakeEvent} (hideal : NoCollision hw n v e) :
    HandshakeAgrees hw n v e where
  checks := by
    rintro ⟨env, body⟩ hx hm3
    obtain ⟨hstate, hmem⟩ := delivered_mem hx
    rcases h.sent body hmem with ⟨k, rfl⟩ | ⟨a, ha, k, rfl⟩
    · rw [n.isM3_m1] at hm3
      cases hm3
    · exact h.mic_iff hstate hideal ha hmem
  verifies := by
    rintro ⟨env, body⟩ hx hm3 halloc hlast
    obtain ⟨hstate, hmem⟩ := delivered_mem hx
    rcases h.sent body hmem with ⟨k, rfl⟩ | ⟨a, ha, k, rfl⟩
    · rw [n.isM3_m1] at hm3
      cases hm3
    · rw [h.ptk hstate a (hlast.trans ha)]
      exact verified_m3 n a k halloc
  installs := by
    intro hsome key hkey
    obtain ⟨⟨env, body⟩, hx⟩ := Option.isSome_iff_exists.1 hsome
    obtain ⟨hstate, hmem⟩ := delivered_mem hx
    rw [step_delivered hx] at hkey
    rcases h.sent body hmem with ⟨k, rfl⟩ | ⟨a, ha, k, rfl⟩
    · left
      rw [handleEAPOL_m1] at hkey
      have hsame := congrArg Link.ptkConf
        (@view_handleM1 hw env (n.m1 k) v.client)
      exact hsame.symm.trans hkey
    · rcases @handleEAPOL_m3 hw env n a k v.client with hsame | ⟨hleaves, hmic⟩
      · left
        rw [hsame] at hkey
        exact hkey
      · rcases hleaves.conf key hkey with hold | hnew
        · exact .inl hold
        · have hlast := (h.mic_iff hstate hideal ha hmem).1 hmic
          rw [h.ptk hstate a (hlast.trans ha)] at hnew
          exact .inr ⟨a, ha, hnew⟩
  connected := (h.step hspa hideal).connected

end HandshakeInv

-- ===================================================================== result

/-- Over every run of one association, in any order, with losses,
repetitions and messages sent again, in which MICs do not collide. -/
theorem handshake_agrees {s : Mlme} (h : JoinsAt hw n s)
    {es : List HandshakeEvent}
    (hideal : Along (handshakeStep hw n) (NoCollision hw n)
      (HandshakeRun.init s) es) :
    Along (handshakeStep hw n) (HandshakeAgrees hw n)
      (HandshakeRun.init s) es :=
  along_of_inv (fun _ _ hinv hc => ⟨hinv.step h.spa hc, hinv.agrees h.spa hc⟩)
    (HandshakeInv.init h) hideal

/-- One SNonce collides with no other. -/
theorem NoCollision.of_single {e : HandshakeEvent} (h : v.drawn.length ≤ 1) :
    NoCollision hw n v e := by
  intro a ha b hb _ _ _ _ _
  obtain ⟨i, hi, rfl⟩ := List.mem_iff_getElem.1 ha
  obtain ⟨j, hj, rfl⟩ := List.mem_iff_getElem.1 hb
  obtain rfl : i = j := by omega
  rfl

/-- The sample client, associated. -/
def sampleClient : Mlme :=
  (sysRun (sampleHw samplePrims) true (scanEvents ccmpIe ++ assocEvents)).mlme

/-- The sample AP, with its PMK and one block of key data. -/
def sampleAuthenticator : Authenticator (sampleHw samplePrims).prims where
  pmk := sampleClient.pmk
  anonce := zeros 32
  spa := sampleMac
  aa := sampleAp
  enc := fun _ b => b
  keyData := [zeros 8]
  decrypts := fun _ _ => rfl
  someData := Nat.le_refl 1
  fits := by decide

/-- The sample client stands where it joins. -/
theorem sampleClient_joins :
    JoinsAt (sampleHw samplePrims) sampleAuthenticator sampleClient where
  state := by decide +kernel
  pmk := rfl
  aa := by decide +kernel
  spa := rfl

/-- Where a handshake on the sample network leads. -/
def sampleHandshake (es : List HandshakeEvent) : HandshakeRun :=
  runFrom (handshakeStep (sampleHw samplePrims) sampleAuthenticator)
    (HandshakeRun.init sampleClient) es

/-- A handshake without losses. -/
theorem sample_handshake_agrees :
    (sampleHandshake [.sendM1, .toClient 0 { snonce := sampleNonce 1 },
        .toAp 0, .toClient 1 {}]).client.state = .connected
      ∧ Along (handshakeStep (sampleHw samplePrims) sampleAuthenticator)
        (HandshakeAgrees (sampleHw samplePrims) sampleAuthenticator)
        (HandshakeRun.init sampleClient)
        [.sendM1, .toClient 0 { snonce := sampleNonce 1 }, .toAp 0,
          .toClient 1 {}] := by
  refine ⟨by decide +kernel, handshake_agrees sampleClient_joins ?_⟩
  exact ⟨.of_single (by decide +kernel), .of_single (by decide +kernel),
    .of_single (by decide +kernel), .of_single (by decide +kernel), trivial⟩

/-- The M1 is sent again, and both arrive before the M3 in answer to the
first M2. -/
def resentM1 : List HandshakeEvent :=
  [.sendM1, .toClient 0 { snonce := sampleNonce 1 }, .sendM1, .toAp 0,
    .toClient 1 { snonce := sampleNonce 2 }]

/-- The MIC of that M3 is wrong for the client, though MICs do not
collide in the run. -/
theorem resent_m1_spoils_m3 :
    JoinsAt (sampleHw samplePrims) sampleAuthenticator sampleClient
      ∧ Along (handshakeStep (sampleHw samplePrims) sampleAuthenticator)
        (NoCollision (sampleHw samplePrims) sampleAuthenticator)
        (HandshakeRun.init sampleClient) (resentM1 ++ [.toClient 2 {}])
      ∧ (sampleHandshake resentM1).answered = some (sampleNonce 1)
      ∧ (sampleHandshake resentM1).client.state = .handshaking
      ∧ ((sampleHandshake resentM1).delivered (.toClient 2 {})).map Prod.snd
        = some (sampleAuthenticator.m3 (sampleNonce 1) 3)
      ∧ eapolMicOk samplePrims true
          (kckOf (sampleHandshake resentM1).client.ptk)
          (sampleAuthenticator.m3 (sampleNonce 1) 3) = false := by
  have hdrawn : (sampleHandshake resentM1).drawn
      = [sampleNonce 2, sampleNonce 1] := by decide +kernel
  have hsent : (sampleHandshake resentM1).toClient
      = [sampleAuthenticator.m1 1, sampleAuthenticator.m1 2,
        sampleAuthenticator.m3 (sampleNonce 1) 3] := by decide +kernel
  have hmic : eapolMicOk samplePrims true
      (kckOf (sampleAuthenticator.ptk (sampleNonce 2)))
      (sampleAuthenticator.m3 (sampleNonce 1) 3) = false := by decide +kernel
  have hideal : NoCollision (sampleHw samplePrims) sampleAuthenticator
      (sampleHandshake resentM1) (.toClient 2 {}) := by
    intro a ha b hb body hbody hm3 hma hmb
    rw [hsent] at hbody
    simp only [List.mem_cons, List.not_mem_nil, or_false] at hbody
    rcases hbody with rfl | rfl | rfl
    · rw [sampleAuthenticator.isM3_m1] at hm3
      cases hm3
    · rw [sampleAuthenticator.isM3_m1] at hm3
      cases hm3
    · have hfirst : ∀ c ∈ (sampleHandshake resentM1).drawn,
          eapolMicOk samplePrims true (kckOf (sampleAuthenticator.ptk c))
            (sampleAuthenticator.m3 (sampleNonce 1) 3) = true →
          c = sampleNonce 1 := by
        intro c hc hmc
        rw [hdrawn] at hc
        simp only [List.mem_cons, List.not_mem_nil, or_false] at hc
        rcases hc with rfl | rfl
        · rw [hmic] at hmc
          cases hmc
        · rfl
      rw [hfirst a ha hma, hfirst b hb hmb]
  refine ⟨sampleClient_joins, Along.concat ?_ hideal, by decide +kernel,
    by decide +kernel, by decide +kernel, by decide +kernel⟩
  exact ⟨.of_single (by decide +kernel), .of_single (by decide +kernel),
    .of_single (by decide +kernel), .of_single (by decide +kernel),
    .of_single (by decide +kernel), trivial⟩

end Rtw88
