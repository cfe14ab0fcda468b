/-
A client that is let in gets in.

The other results about connections say what cannot go wrong in one;
that there ever is one they do not say. Here the client talks to an
access point that answers what the driver is handed: a request with its
response, an M2 whose MIC verifies with an M3 (`Authenticator.answers`).
From `cmdConnect` to a network that the scan has found, with the right
password and memory to spare, the two talk until nothing is left in the
air, and then both have the same keys (`join_completes`).

# The talk

A `Talk` is the client with its threads and the frames in the air. What
a function of the source draws from the access point follows from what
it transmits, so `Draws` is composed like the books of
Proofs/Traffic.lean: a silent call draws nothing (`of_silent`), a frame
that is no request and no M2 draws nothing, and four lemmas are left for
the frames that are answered or end the talk.

# The way

`Joining` is what every turn keeps: the target, the station's address,
the PMK of the password, the phase. There is one lemma a turn, and the
run is their chain:

- `turn_connect`: the attempt begins;
- `turn_auth`: a stretch of `doAuthenticate`, the request among them;
- `turn_auth_response`, `turn_assoc_response`: the two responses are
  heard, and the second leads into the handshake (`Shaking`);
- `turn_m1`: the M1 draws an M2, whose MIC the access point finds right
  since both have the same PMK, and that draws an M3;
- `turn_m3`: the M3 for the SNonce drawn last installs the keys, where
  the lengths fit (`GroupKeyFits`), and the link is up.

What a heard frame is has to be read off its bytes; `ApReads` says it
once of every frame that the access point builds.
-/
import Rtw88.Proofs.Handshake
import Rtw88.Proofs.LinkStatus
import Rtw88.Proofs.Traffic

namespace Rtw88

variable {hw : Hw} {env : Env} {s t u : Mlme}

-- =============================================================== vocabulary

namespace Authenticator

variable {pr : Prims} (n : Authenticator pr)

/-- Its responses to a request; to the association it adds its M1. -/
def responses (fc : UInt16) : List SkBuff :=
  if fc = stypeAuth then [authFrame n.spa n.aa 0]
  else if fc = stypeAssocReq then
    [assocFrame n.spa n.aa 0, eapolFromAp n.spa n.aa (n.m1 1)]
  else []

/-- Its M3 in answer to the M2 in a data frame. -/
def answersM2 (skb : TxSkb) : List SkBuff :=
  match (Obs.eapolBody (.tx skb)).bind n.accepts with
  | some snonce => [eapolFromAp n.spa n.aa (n.m3 snonce 2)]
  | none => []

/-- What the access point answers to what the client's driver is
handed. -/
def answers : Obs → List SkBuff
  | .tx skb =>
      if addr1 skb.data = n.aa ∧ addr2 skb.data = n.spa
      then n.responses (frameControl skb.data) ++ n.answersM2 skb else []
  | _ => []

/-- The key data of its M3 in the clear. -/
def plainData : List UInt8 := n.keyData.flatMap fun b => b.toList

end Authenticator

/-- The client with its threads, and the frames on their way to it. -/
structure Talk where
  client : Sys
  air : List SkBuff

/-- Something happens at the client, or it hears the frame that is longest
in the air. -/
inductive Turn
  | own (e : Event)
  | hears (env : Env)

/-- The client got to `t`; what it sent is answered. -/
def Talk.after {pr : Prims} (v : Talk) (n : Authenticator pr) (t : Sys)
    (air : List SkBuff) : Talk :=
  { client := t
    air := air ++ (observed v.client.mlme t.mlme).flatMap n.answers }

/-- One turn. -/
def talkStep (hw : Hw) (n : Authenticator hw.prims) (v : Talk) :
    Turn → Talk
  | .own e => v.after n (sysStep hw v.client e) v.air
  | .hears env =>
      match v.air with
      | [] => v
      | skb :: air => v.after n (sysStep hw v.client (.rx env skb)) air

/-- `cmdConnect`, the five stretches of `doAuthenticate`, and four frames
to hear. -/
def joinTurns (ssid password : List UInt8) (env : Nat → Env) : List Turn :=
  [.own (.cmdConnect (some ssid) password), .own (.auth 0 (env 0) false),
    .own (.auth 0 (env 1) false), .own (.auth 0 (env 2) false),
    .own (.auth 0 (env 3) false), .own (.auth 0 (env 4) false),
    .hears (env 5), .hears (env 6), .hears (env 7), .hears (env 8)]

/-- No call for memory, to the random source aside, and no `set_key`
fails, and a freed frame can still be read. -/
structure Plenty (env : Env) : Prop where
  mgmtSkb : env.mgmtSkb = true
  packetMbuf : env.packetMbuf = true
  dataSkb : env.dataSkb = true
  headCopy : env.headCopy = true
  payloadCopy : env.payloadCopy = true
  staAlloc : env.staAlloc = true
  micAlloc : env.micAlloc = true
  pairwiseAlloc : env.pairwiseAlloc = true
  pairwiseSet : env.pairwiseSet = true
  groupAlloc : env.groupAlloc = true
  groupSet : env.groupSet = true
  freed : env.freed = none

/-- The length of a group key is that of the group cipher; an empty one is
not installed. -/
def GroupKeyFits {pr : Prims} (n : Authenticator pr) (b : RTW88BSS) : Prop :=
  ∀ gtk idx, extractGtkFromKde n.plainData = some (gtk, idx) → gtk ≠ [] →
    keyLengthOk
      (if b.groupCipher = cipherTkip then cipherTkip else cipherCcmp)
      gtk.length = true

/-- The network is in the scan list, and its access point has the PMK of
the password. -/
structure CanJoin (hw : Hw) (n : Authenticator hw.prims)
    (ssid password : List UInt8) (b : RTW88BSS) (s : Sys) : Prop where
  up : s.mlme.up = true
  idle : s.mlme.state = .idle
  quiet : s.auths = []
  found : findBss ssid s.mlme.bssList = some b
  ccmp : b.cipher = cipherCcmp
  aa : n.aa = b.bssid
  spa : n.spa = hw.macAddr
  pmk : n.pmk = derivePMK hw.prims ((cStr password).take 63) b.ssid.toList
    b.ssidLen.toNat
  gtk : GroupKeyFits n b

/-- Both sides have the PTK of `snonce` and, if the M3 had one, the group
key; the client has installed them; the link is up and reported, and no
deadline runs. -/
structure Joined {pr : Prims} (n : Authenticator pr) (b : RTW88BSS)
    (snonce : Bytes 32) (s : Mlme) : Prop where
  state : s.state = .connected
  target : s.targetBSS = b
  sta : s.sta.isSome = true
  ptk : s.ptk = n.ptk snonce
  pairwise : ∃ k, s.ptkConf = some k ∧ k.key = (tkOf (n.ptk snonce)).toList
  group : ∀ gtk idx, extractGtkFromKde n.plainData = some (gtk, idx) →
    gtk ≠ [] → ∃ k, s.gtkConf = some k ∧ k.key = gtk ∧ k.keyidx = idx
  timer : s.timer = none
  link : s.linkActive = true

-- ==================================================================== rules

/-- What the access point answers to all that went out from `s` to `t`. -/
def Draws {pr : Prims} (n : Authenticator pr) (s t : Mlme)
    (l : List SkBuff) : Prop :=
  ∃ new, t.log = new ++ s.log ∧ new.reverse.flatMap n.answers = l

namespace Draws

variable {pr : Prims} {n : Authenticator pr} {l l' : List SkBuff}

theorem trans (h : Draws n s t l) (h' : Draws n t u l') :
    Draws n s u (l ++ l') := by
  obtain ⟨new, hlog, hl⟩ := h
  obtain ⟨new', hlog', hl'⟩ := h'
  refine ⟨new' ++ new, ?_, ?_⟩
  · rw [hlog', hlog, List.append_assoc]
  · rw [List.reverse_append, List.flatMap_append, hl, hl']

/-- A call that transmits nothing draws nothing. -/
theorem of_silent (new : List Obs) (hlog : t.log = new ++ s.log)
    (hsilent : new.countP Obs.isTx = 0) : Draws n s t [] := by
  refine ⟨new, hlog, List.flatMap_eq_nil_iff.2 fun o ho => ?_⟩
  have hno := List.countP_eq_zero.1 hsilent o (List.mem_reverse.1 ho)
  cases o with
  | tx skb => exact absurd rfl hno
  | _ => rfl

theorem of_sends (h : Sends hw 0 s t) : Draws n s t [] := by
  obtain ⟨-, new, hlog, -, hnone⟩ := h
  exact of_silent new hlog (Nat.le_zero.1 hnone)

theorem of_same (h : t.log = s.log) : Draws n s t [] :=
  of_silent [] h rfl

theorem of_kfreeSkb {n : Authenticator hw.prims} (skb : SkBuff)
    (s : Mlme) : Draws n s (kfreeSkb skb s) [] :=
  of_sends (@sends_kfreeSkb hw skb s)

/-- One frame. -/
theorem of_tx {skb : TxSkb} (hlog : t.log = .tx skb :: s.log) :
    Draws n s t (n.answers (.tx skb)) :=
  ⟨[.tx skb], hlog, by
    rw [List.reverse_singleton, List.flatMap_singleton]⟩

/-- A silent call in front, or behind. -/
theorem after (h' : Draws n t u l) (h : Draws n s t []) : Draws n s u l :=
  h.trans h'

theorem before (h : Draws n s t l) (h' : Draws n t u []) : Draws n s u l := by
  have htrans := h.trans h'
  rwa [List.append_nil] at htrans

/-- The talk after an event. -/
theorem talk {v : Talk} {c : Sys} {air : List SkBuff}
    (h : Draws n v.client.mlme c.mlme l) :
    v.after n c air = { client := c, air := air ++ l } := by
  obtain ⟨new, hlog, hl⟩ := h
  rw [Talk.after, observed_append hlog, hl]

end Draws

-- ========================================================= what it answers

/-- A data frame is no request. -/
theorem Authenticator.responses_data {pr : Prims} (n : Authenticator pr)
    {fc : UInt16} (h : isData fc = true) : n.responses fc = [] := by
  unfold Authenticator.responses
  rw [if_neg, if_neg]
  · rintro rfl
    cases h
  · rintro rfl
    cases h

/-- A management frame is no M2. -/
theorem Authenticator.answersM2_mgmt {pr : Prims} (n : Authenticator pr)
    {skb : TxSkb} (h : isData (frameControl skb.data) = false) :
    n.answersM2 skb = [] := by
  unfold Authenticator.answersM2 Obs.eapolBody
  dsimp only
  rw [h]
  rfl

/-- A management frame that is neither request draws nothing. -/
theorem draws_txMgmtFrame {pr : Prims} (n : Authenticator pr)
    {frame : List UInt8} (hmgmt : isData (frameControl frame) = false)
    (hnone : n.responses (frameControl frame) = []) (s : Mlme) :
    Draws n s (txMgmtFrame env frame s) [] := by
  rw [txMgmtFrame]
  split
  · exact .of_same rfl
  · generalize hskb : TxSkb.mk frame _ _ _ _ = skb
    have hdata : skb.data = frame := by rw [← hskb]
    have hdraws := Draws.of_tx (n := n) (s := s) (t := s.emit (.tx skb)) rfl
    have hanswers : n.answers (.tx skb) = [] := by
      unfold Authenticator.answers
      dsimp only
      rw [n.answersM2_mgmt (hdata ▸ hmgmt), hdata, hnone]
      split <;> rfl
    rw [hanswers] at hdraws
    exact hdraws

/-- A request to the access point draws its responses. -/
theorem draws_request {n : Authenticator hw.prims} (stype : UInt16)
    {seq : UInt16} {body : List UInt8}
    (hdata : isData (ftypeMgmt ||| stype) = false)
    (hskb : env.mgmtSkb = true) (haa : n.aa = s.targetBSS.bssid)
    (hspa : n.spa = hw.macAddr) (hlog : t.log = s.log) (hup : t.up = true) :
    Draws n s (txMgmtFrame env (mgmtHdr hw stype seq s ++ body) t)
      (n.responses (ftypeMgmt ||| stype)) := by
  obtain ⟨ha₁, ha₂⟩ := addrs_hdr3addr (ftypeMgmt ||| stype)
    s.targetBSS.bssid hw.macAddr s.targetBSS.bssid (seqField seq) body
  have hfc := frameControl_hdr3addr (ftypeMgmt ||| stype) s.targetBSS.bssid
    hw.macAddr s.targetBSS.bssid (seqField seq) body
  rw [txMgmtFrame, if_neg (by rw [hup, hskb]; decide)]
  generalize hbuf : TxSkb.mk _ _ _ _ _ = skb
  have hframe : skb.data = hdr3addr (ftypeMgmt ||| stype) s.targetBSS.bssid
      hw.macAddr s.targetBSS.bssid (seqField seq) ++ body := by
    rw [← hbuf]
    rfl
  have hanswers : n.answers (.tx skb) = n.responses (ftypeMgmt ||| stype) := by
    unfold Authenticator.answers
    dsimp only
    rw [← hframe] at ha₁ ha₂ hfc
    rw [n.answersM2_mgmt (by rw [hfc]; exact hdata), List.append_nil, hfc,
      if_pos ⟨ha₁.trans haa.symm, ha₂.trans hspa.symm⟩]
  rw [← hanswers]
  exact (Draws.of_tx (s := t) rfl).after (.of_same hlog)

-- ==================================================================== EAPOL

/-- A frame that went out was its own; as a data frame it goes to the
target. -/
theorem Sends.dest_of_tx {k : Nat} {skb : TxSkb} (h : Sends hw k s t)
    (hlog : t.log = .tx skb :: s.log)
    (hkind : isData (frameControl skb.data) = true) :
    addr1 skb.data = s.targetBSS.bssid ∧ addr2 skb.data = hw.macAddr := by
  obtain ⟨-, new, hlog', hown, -⟩ := h
  have hnew : [Obs.tx skb] ++ s.log = new ++ s.log := hlog.symm.trans hlog'
  have hskb : OwnFrame hw s.targetBSS.bssid skb.data := by
    apply hown
    rw [← List.append_cancel_right hnew]
    exact List.mem_singleton_self _
  refine ⟨?_, hskb.source⟩
  rcases hskb.dest with hdest | ⟨-, hprobe⟩
  · exact hdest
  · rw [hprobe] at hkind
    cases hkind

/-- With memory to spare an M2 goes out. -/
theorem sendEAPOLKey_m2_goes (henv : Plenty env) (hup : s.up = true)
    (hsta : s.sta.isSome = true) (replay : Bytes 8) :
    ∃ skb, (sendEAPOLKey hw env 2 replay false false true s).log
        = .tx skb :: s.log
      ∧ isData (frameControl skb.data) = true
      ∧ Obs.eapolBody (.tx skb) = some (answerFrame hw 2 replay s) := by
  generalize hpacket : s.targetBSS.bssid.toList ++ hw.macAddr.toList
    ++ be16 ethPPae ++ answerFrame hw 2 replay s = packet
  have hsend : sendEAPOLKey hw env 2 replay false false true s
      = (txDataFrame hw env packet s).2 := by
    rw [sendEAPOLKey, henv.packetMbuf, ← hpacket]
    rfl
  have hfits : packet.length ≤ 2048 ∧ 14 ≤ packet.length := by
    have hdata : (stepData 2 s).length = 22 := rfl
    have hlen := (@answerFrame_reads hw 2 replay s).length
    rw [← hpacket]
    simp only [List.length_append, List.Vector.toList_length, be16_length]
    omega
  have htx : (txDataFrame hw env packet s).1 = true :=
    txDataFrame_sends_iff.2 ⟨hsta, hup, hfits.2, hfits.1, henv.headCopy,
      henv.dataSkb, .inr henv.payloadCopy⟩
  obtain ⟨skb, seq, pn, s', hlog, hdata⟩ := txDataFrame_log htx
  obtain ⟨hkind, hsnap, hether, hdrop⟩ := dataFrame_answer_reads hpacket hdata
  refine ⟨skb, by rw [hsend, hlog], hkind, ?_⟩
  unfold Obs.eapolBody
  dsimp only
  rw [hkind, hsnap, hether, hdrop]
  rfl

/-- It verifies where the PTK is the same. -/
theorem Authenticator.accepts_answerFrame {n : Authenticator hw.prims}
    (hptk : s.ptk = n.ptk s.snonce) (replay : Bytes 8) :
    n.accepts (answerFrame hw 2 replay s) = some s.snonce := by
  have hreads := @answerFrame_reads hw 2 replay s
  have hmic := @answer_mic hw 2 replay s
  rw [hptk] at hmic
  unfold Authenticator.accepts
  dsimp only
  rw [hreads.nonce, hreads.info, hmic]
  rfl

/-- The M2 that goes out draws the M3 for its SNonce. -/
theorem draws_m2 {n : Authenticator hw.prims} (henv : Plenty env)
    (hup : s.up = true) (hsta : s.sta.isSome = true)
    (haa : n.aa = s.targetBSS.bssid) (hspa : n.spa = hw.macAddr)
    (hptk : s.ptk = n.ptk s.snonce) (replay : Bytes 8) :
    Draws n s (sendEAPOLKey hw env 2 replay false false true s)
      [eapolFromAp n.spa n.aa (n.m3 s.snonce 2)] := by
  obtain ⟨skb, hlog, hkind, heapol⟩ :=
    @sendEAPOLKey_m2_goes hw env s henv hup hsta replay
  obtain ⟨hdest, hsource⟩ := Sends.dest_of_tx
    (@sends_sendEAPOLKey hw env 2 replay false false true s) hlog hkind
  have hanswers : n.answers (.tx skb)
      = [eapolFromAp n.spa n.aa (n.m3 s.snonce 2)] := by
    unfold Authenticator.answers
    dsimp only
    rw [if_pos ⟨hdest.trans haa.symm, hsource.trans hspa.symm⟩,
      n.responses_data hkind, List.nil_append, Authenticator.answersM2,
      heapol, Option.bind_some, Authenticator.accepts_answerFrame hptk]
  rw [← hanswers]
  exact .of_tx hlog

/-- An M4 draws nothing. -/
theorem draws_m4 (n : Authenticator hw.prims) (replay : Bytes 8)
    (s : Mlme) :
    Draws n s (sendEAPOLKey hw env 4 replay false false true s) [] := by
  rcases @sendEAPOLKey_sends hw env 4 replay s with
    hlog | ⟨skb, hlog, hkind, hsnap, hether, mic, hreads⟩
  · exact .of_same hlog
  · have hdraws := Draws.of_tx (n := n) hlog
    have heapol : Obs.eapolBody (.tx skb)
        = some (skb.data.drop (hdrlen (frameControl skb.data) + 8)) := by
      unfold Obs.eapolBody
      dsimp only
      rw [hkind, hsnap, hether]
      rfl
    have hm2 : n.answersM2 skb = [] := by
      unfold Authenticator.answersM2
      rw [heapol, Option.bind_some, Authenticator.accepts, hreads.info]
      rfl
    have hanswers : n.answers (.tx skb) = [] := by
      unfold Authenticator.answers
      dsimp only
      rw [n.responses_data hkind, hm2]
      split <;> rfl
    rw [hanswers] at hdraws
    exact hdraws

/-- Nor does an ADDBA request. -/
theorem draws_startTxAggregation (n : Authenticator hw.prims) (s : Mlme) :
    Draws n s (startTxAggregation hw env s) [] := by
  have hask : Draws n s (sendAddbaRequest hw env baTid s) [] := by
    simp only [sendAddbaRequest, mgmtHdr, List.append_assoc]
    refine (draws_txMgmtFrame n ?_ ?_ _).after (.of_same rfl)
    · rw [frameControl_hdr3addr]
      decide
    · rw [frameControl_hdr3addr]
      rfl
  rw [startTxAggregation]
  split
  · exact .of_same rfl
  · split
    · exact .of_same rfl
    · split
      · exact .of_same rfl
      · split
        · exact .of_same rfl
        · exact hask

-- =================================================================== the way

/-- A connection to `b` is being made, in this phase. -/
structure Joining (b : RTW88BSS) (password : List UInt8) (st : RTW88State)
    (v : Link) : Prop where
  up : v.up = true
  state : v.state = st
  target : v.target = b
  password : v.password = password
  wpa2 : v.wpa2 = true

/-- The talk on the way: the thread of the attempt, if it is not done, and
what is in the air. -/
structure OnTheWay (b : RTW88BSS) (password : List UInt8) (st : RTW88State)
    (auths : List AuthThread) (air : List SkBuff) (v : Talk) : Prop where
  joining : Joining b password st (view v.client.mlme)
  auths : v.client.auths = auths
  air : v.air = air

variable {b : RTW88BSS} {ssid password : List UInt8}
  {n : Authenticator hw.prims} {v : Talk}

/-- The client speaks to this access point. -/
theorem Joining.aa {st : RTW88State} (h : Joining b password st (view s))
    (haa : n.aa = b.bssid) : n.aa = s.targetBSS.bssid := by
  have htarget : s.targetBSS = b := h.target
  rw [haa, htarget]

/-- A `cmdConnect` sets out. -/
theorem turn_connect {c : Sys} (h : CanJoin hw n ssid password b c) :
    OnTheWay b ((cStr password).take 63) .authenticating
      [{ pc := .entry, attempt := c.attempt + 1, onTimer := false }] []
      (talkStep hw n { client := c, air := [] }
        (.own (.cmdConnect (some ssid) password))) := by
  have hscan : c.mlme.state ≠ .scanning := by
    rw [h.idle]
    decide
  have hrun : sysStep hw c (.cmdConnect (some ssid) password)
      = runConnect (some ssid) password c := by
    rw [sysStep, if_neg hscan]
  have hfound : findBss ssid (releaseSta (clearKeys c.mlme)).bssList
      = some b := by
    rw [bssList_releaseSta_clearKeys]
    exact h.found
  have hstep : sysStep hw c (.cmdConnect (some ssid) password)
      = { c with
          mlme := (setTarget b ((cStr password).take 63)
            (releaseSta (clearKeys c.mlme))).emit
              (.connecting b ((cStr password).take 63))
          attempt := c.attempt + 1
          auths := enterConnect (c.attempt + 1) c.auths } := by
    rw [hrun]
    simp only [runConnect, connectTo, h.idle, hfound, ne_eq,
      not_true_eq_false, if_false, if_true]
  have hup : (releaseSta (clearKeys c.mlme)).up = true := by
    have hkeys := congrArg Link.up (view_clearKeys c.mlme)
    cases hsta : (clearKeys c.mlme).sta with
    | none =>
        rw [releaseSta_none hsta]
        exact hkeys.trans h.up
    | some sta =>
        have hsta := congrArg Link.up (view_releaseSta_some hsta)
        exact hsta.trans (hkeys.trans h.up)
  obtain ⟨new, hlog, hsilent⟩ := runConnect_silent hw (some ssid) password c
  rw [← hrun] at hlog
  have hdraws : Draws n c.mlme
      (sysStep hw c (.cmdConnect (some ssid) password)).mlme [] :=
    .of_silent new hlog hsilent
  rw [talkStep, hdraws.talk, hstep]
  refine ⟨⟨hup, rfl, rfl, rfl, ?_⟩, ?_, rfl⟩
  · show (b.cipher == cipherCcmp) = true
    rw [h.ccmp]
    rfl
  · rw [h.quiet]
    rfl

/-- Where `doAuthenticate` goes on while no scan is in its way. -/
def AuthPc.next : AuthPc → Option AuthPc
  | .entry => some (.waitScan 0)
  | .waitScan _ => some .settle
  | .settle => some .transmit
  | .transmit => some .finish
  | .finish => none

/-- What the stretch from there draws. -/
def AuthPc.draws {pr : Prims} (n : Authenticator pr) : AuthPc → List SkBuff
  | .transmit => [authFrame n.spa n.aa 0]
  | _ => []

/-- What a stretch of `doAuthenticate` does on the way. -/
theorem doAuthenticate_joining {pc : AuthPc} (henv : Plenty env)
    (haa : n.aa = b.bssid) (hspa : n.spa = hw.macAddr)
    (h : Joining b password .authenticating (view s)) :
    (doAuthenticate hw env false pc s).1 = pc.next
      ∧ Joining b password .authenticating
        (view (doAuthenticate hw env false pc s).2)
      ∧ Draws n s (doAuthenticate hw env false pc s).2 (pc.draws n) := by
  have hup : s.up = true := h.up
  cases pc with
  | entry =>
      rw [doAuthenticate, hup]
      exact ⟨rfl, h, .of_same rfl⟩
  | waitScan i =>
      rw [doAuthenticate, Bool.and_false]
      exact ⟨rfl, h, .of_same rfl⟩
  | settle =>
      have hset : Draws n s (connectSetup hw s) [] := by
        have hsame : (setTargetChandef hw s).log = s.log := by
          rw [setTargetChandef]
          split <;> rfl
        exact .of_silent [_] (congrArg _ hsame) rfl
      rw [doAuthenticate, hup]
      refine ⟨rfl, ?_, hset⟩
      show Joining _ _ _ (view (connectSetup hw s))
      rw [view_connectSetup]
      exact ⟨h.up, h.state, h.target, h.password, h.wpa2⟩
  | transmit =>
      rw [doAuthenticate]
      refine ⟨rfl, ?_, ?_⟩
      · show Joining _ _ _ (view (txMgmtFrame env _ _))
        rw [view_txMgmtFrame]
        exact ⟨h.up, h.state, h.target, h.password, h.wpa2⟩
      · exact draws_request stypeAuth rfl henv.mgmtSkb (h.aa haa) hspa rfl
          hup
  | finish =>
      rw [doAuthenticate]
      exact ⟨rfl, ⟨h.up, rfl, h.target, h.password, h.wpa2⟩, .of_same rfl⟩

/-- A stretch of the thread. -/
theorem turn_auth {pc : AuthPc} {k : Nat} {air : List SkBuff}
    (henv : Plenty env) (haa : n.aa = b.bssid) (hspa : n.spa = hw.macAddr)
    (h : OnTheWay b password .authenticating
      [{ pc := pc, attempt := k, onTimer := false }] air v) :
    OnTheWay b password .authenticating
      (pc.next.toList.map fun pc' =>
        { pc := pc', attempt := k, onTimer := false })
      (air ++ pc.draws n) (talkStep hw n v (.own (.auth 0 env false))) := by
  obtain ⟨hnext, hjoining, hdraws⟩ :=
    @doAuthenticate_joining hw env v.client.mlme b password n pc henv haa hspa
      h.joining
  have hstep : sysStep hw v.client (.auth 0 env false)
      = { v.client with
          mlme := (doAuthenticate hw env false pc v.client.mlme).2
          auths := pc.next.toList.map fun pc' =>
            { pc := pc', attempt := k, onTimer := false } } := by
    rw [sysStep, stepAuth, h.auths]
    show Sys.mk _ _ _ _ _ _ = Sys.mk _ _ _ _ _ _
    rw [hnext]
    cases pc.next <;> rfl
  rw [talkStep, hstep, Draws.talk (c := { v.client with
    mlme := (doAuthenticate hw env false pc v.client.mlme).2
    auths := _ }) hdraws, h.air]
  exact ⟨hjoining, rfl, rfl⟩

-- =================================================================== hearing

/-- What stands where in a frame of the access point. -/
structure ApReads (skb : SkBuff) (fc : UInt16) (bssid : Bytes 6)
    (body : List UInt8) : Prop where
  mem : skb.mem = skb.data
  fc : frameControl skb.data = fc
  bssid : addr3 skb.data = bssid
  bodyLen : body.length < 2 ^ 32 → bodyLen skb = body.length
  word : ∀ i, le16At skb.data (24 + i) = le16At body i
  body : skb.data.drop 24 = body

theorem apFrame_reads (fc : UInt16) (client bssid : Bytes 6)
    (body : List UInt8) :
    ApReads (apFrame fc client bssid body) fc bssid body := by
  have hdata : (apFrame fc client bssid body).data
      = hdr3addr fc client bssid bssid 0 ++ body := rfl
  have hhdr := hdr3addr_length fc client bssid bssid 0
  have hdrop : (apFrame fc client bssid body).data.drop 4
      = client.toList ++ (bssid.toList ++ (bssid.toList
        ++ (le16 0 ++ body))) := by
    rw [hdata]
    simp only [hdr3addr, List.append_assoc]
    rfl
  obtain ⟨-, -, haddr, -⟩ := addrs_of_drop hdrop
  refine ⟨List.append_nil _, frameControl_hdr3addr _ _ _ _ _ _, haddr,
    fun hlen => ?_, fun i => ?_, List.drop_left' hhdr⟩
  · rw [bodyLen, hdata, List.length_append, hhdr]
    omega
  · rw [hdata, le16At_append_right (by omega), hhdr,
      Nat.add_sub_cancel_left]

/-- The frame longest in the air is heard. -/
theorem OnTheWay.hears {st : RTW88State} {auths : List AuthThread}
    {skb : SkBuff} {air l : List SkBuff}
    (h : OnTheWay b password st auths (skb :: air) v)
    (hfile : (rxFrame hw env skb v.client.mlme).2 = none)
    (hdraws : Draws n v.client.mlme (rxFrame hw env skb v.client.mlme).1 l) :
    talkStep hw n v (.hears env)
      = { client := { v.client with
            mlme := (rxFrame hw env skb v.client.mlme).1 }
          air := air ++ l } := by
  have hstep : sysStep hw v.client (.rx env skb)
      = { v.client with mlme := (rxFrame hw env skb v.client.mlme).1 } := by
    rw [sysStep]
    dsimp only
    rw [hfile]
    rfl
  rw [talkStep, h.air]
  dsimp only
  rw [hstep, Draws.talk (c := { v.client with
    mlme := (rxFrame hw env skb v.client.mlme).1 }) hdraws]

/-- The response to the authentication request draws the association
request, and that the response to it and the M1. -/
theorem turn_auth_response {air : List SkBuff} (henv : Plenty env)
    (haa : n.aa = b.bssid) (hspa : n.spa = hw.macAddr)
    (h : OnTheWay b password .authenticating []
      (authFrame n.spa n.aa 0 :: air) v) :
    OnTheWay b password .associating []
      (air ++ [assocFrame n.spa n.aa 0, eapolFromAp n.spa n.aa (n.m1 1)])
      (talkStep hw n v (.hears env)) := by
  obtain ⟨skb, hskb⟩ : ∃ skb, skb = authFrame n.spa n.aa 0 := ⟨_, rfl⟩
  have hreads : ApReads skb 0x00B0 n.aa ([0, 0, 2, 0] ++ le16 0) :=
    hskb ▸ apFrame_reads _ _ _ _
  have hup : v.client.mlme.up = true := h.joining.up
  have hstate : v.client.mlme.state = .authenticating := h.joining.state
  have htarget : v.client.mlme.targetBSS = b := h.joining.target
  have hrx : rxFrame hw env skb v.client.mlme
      = (kfreeSkb skb (doAssociate hw env v.client.mlme), none) := by
    have hlen : ¬ bodyLen skb < 6 := by
      rw [hreads.bodyLen (by decide)]
      decide
    have hstatus : le16At skb.data 28 = 0 := hreads.word 4
    have hbssid : addr3 skb.data = v.client.mlme.targetBSS.bssid :=
      hreads.bssid.trans (h.joining.aa haa)
    unfold rxFrame processRxMgmt
    dsimp only
    rw [hreads.mem, hreads.fc, hstate, hstatus, hbssid, if_pos (by decide),
      if_neg (by decide), if_pos (by decide), if_neg (fun hno => hno rfl),
      if_neg (fun hno => hno rfl), if_neg hlen, if_pos rfl]
  have hassoc : Joining b password .associating
      (view (doAssociate hw env v.client.mlme)) := by
    rw [doAssociate, hup]
    show Joining _ _ _ (view (((txMgmtFrame env _ _).setState _).armTimer _))
    rw [view_armTimer, view_setState, view_txMgmtFrame]
    exact ⟨hup, rfl, htarget, h.joining.password, h.joining.wpa2⟩
  have hdraws : Draws n v.client.mlme (doAssociate hw env v.client.mlme)
      [assocFrame n.spa n.aa 0, eapolFromAp n.spa n.aa (n.m1 1)] := by
    have hrequest := @draws_request hw env v.client.mlme
      (buildAssocReq hw v.client.mlme).2 n stypeAssocReq v.client.mlme.txSeq
    rw [doAssociate, hup]
    refine Draws.before ?_ (.of_same rfl)
    simp only [buildAssocReq, List.append_assoc]
    exact hrequest rfl henv.mgmtSkb (h.joining.aa haa) hspa rfl hup
  have hheard := hdraws.before (.of_kfreeSkb skb _)
  rw [← hskb] at h
  rw [h.hears (by rw [hrx]) (by rw [hrx]; exact hheard), hrx]
  refine ⟨?_, h.auths, rfl⟩
  show Joining _ _ _ (view (kfreeSkb skb _))
  rw [view_kfreeSkb]
  exact hassoc

/-- In the handshake, with the PMK and a station entry. -/
structure Shaking {pr : Prims} (n : Authenticator pr) (b : RTW88BSS)
    (password : List UInt8) (v : Link) : Prop where
  joining : Joining b password .handshaking v
  pmk : v.pmk = n.pmk
  sta : v.sta.isSome = true

/-- An accepted association enters it. -/
theorem enterLink_shaking {st : RTW88State} (henv : Plenty env)
    (aid : UInt16) (h : Joining b password st (view s))
    (hpmk : n.pmk = derivePMK hw.prims password b.ssid.toList
      b.ssidLen.toNat) :
    let t := enterLink hw env (notifyAssoc aid (addSta hw env aid s))
    Shaking n b password (view t) ∧ Draws n s t [] := by
  intro t
  obtain ⟨s₁, hs₁⟩ : ∃ s₁, s₁ = addSta hw env aid s := ⟨_, rfl⟩
  have hadd : Joining b password st (view s₁) ∧ s₁.sta.isSome = true := by
    rw [hs₁, addSta]
    split
    next hkeep =>
      rw [henv.staAlloc, Bool.not_true, Bool.or_false] at hkeep
      exact ⟨h, hkeep⟩
    · exact ⟨⟨h.up, h.state, h.target, h.password, h.wpa2⟩, rfl⟩
  obtain ⟨s₂, hs₂⟩ : ∃ s₂, s₂ = notifyAssoc aid s₁ := ⟨_, rfl⟩
  have hquiet : Draws n s s₂ [] := by
    have hsends := (@sends_addSta hw env aid s).before
      (@sends_notifyAssoc hw aid _)
    rw [← hs₁, ← hs₂] at hsends
    exact .of_sends hsends
  have hwpa2 : (s₂.emit .associated).wpa2 = true := by
    rw [hs₂]
    exact hadd.1.wpa2
  have ht : t = (setPmk hw ((s₂.emit .associated).setState
      .handshaking)).armTimer 8000 := by
    show enterLink hw env (notifyAssoc aid (addSta hw env aid s)) = _
    rw [← hs₁, ← hs₂, enterLink]
    dsimp only
    rw [if_pos hwpa2]
  have hlog : t.log = [.associated] ++ s₂.log := by
    rw [ht]
    rfl
  refine ⟨⟨⟨?_, ?_, ?_, ?_, ?_⟩, ?_, ?_⟩,
    hquiet.before (.of_silent [_] hlog rfl)⟩
  · rw [ht, hs₂]
    exact hadd.1.up
  · rw [ht]
    rfl
  · rw [ht, hs₂]
    exact hadd.1.target
  · rw [ht, hs₂]
    exact hadd.1.password
  · rw [ht, hs₂]
    exact hadd.1.wpa2
  · have htarget : s₁.targetBSS = b := hadd.1.target
    have hpassword : s₁.password = password := hadd.1.password
    rw [ht, hs₂, hpmk, ← htarget, ← hpassword]
    rfl
  · rw [ht, hs₂]
    exact hadd.2

/-- The association response draws nothing; the access point has sent its
M1 already. -/
theorem turn_assoc_response {air : List SkBuff} (henv : Plenty env)
    (haa : n.aa = b.bssid)
    (hpmk : n.pmk = derivePMK hw.prims password b.ssid.toList
      b.ssidLen.toNat)
    (h : OnTheWay b password .associating []
      (assocFrame n.spa n.aa 0 :: air) v) :
    let w := talkStep hw n v (.hears env)
    OnTheWay b password .handshaking [] air w
      ∧ Shaking n b password (view w.client.mlme) := by
  intro w
  obtain ⟨skb, hskb⟩ : ∃ skb, skb = assocFrame n.spa n.aa 0 := ⟨_, rfl⟩
  have hreads : ApReads skb 0x0010 n.aa
      ([0x31, 0x04] ++ le16 0 ++ [0x01, 0xC0]) :=
    hskb ▸ apFrame_reads _ _ _ _
  have hstate : v.client.mlme.state = .associating := h.joining.state
  obtain ⟨t, ht⟩ : ∃ t, t = setAid (le16At skb.data 28 &&& 0x3FFF)
    (kfreeSkb skb v.client.mlme) := ⟨_, rfl⟩
  have hrx : rxFrame hw env skb v.client.mlme
      = (enterLink hw env (notifyAssoc (le16At skb.data 28 &&& 0x3FFF)
          (addSta hw env (le16At skb.data 28 &&& 0x3FFF) t)), none) := by
    have hlen : ¬ bodyLen skb < 6 := by
      rw [hreads.bodyLen (by decide)]
      decide
    have hstatus : le16At skb.data 26 = 0 := hreads.word 2
    have hbssid : addr3 skb.data = v.client.mlme.targetBSS.bssid :=
      hreads.bssid.trans (h.joining.aa haa)
    have hprocess : processAssocResponse hw env skb v.client.mlme
        = enterLink hw env (notifyAssoc (le16At skb.data 28 &&& 0x3FFF)
          (addSta hw env (le16At skb.data 28 &&& 0x3FFF) t)) := by
      unfold processAssocResponse
      dsimp only
      rw [hreads.mem, hbssid, henv.freed, Option.getD_none, hstatus,
        if_neg (fun hno => hno rfl), if_neg hlen, if_neg (fun hno => hno rfl),
        ht]
    unfold rxFrame processRxMgmt
    dsimp only
    rw [hreads.mem, hreads.fc, hstate, if_pos (by decide),
      if_neg (by decide), if_neg (by decide), if_pos (by decide), if_pos rfl,
      hprocess]
  have hfree : Draws n v.client.mlme t [] := by
    rw [ht]
    exact (Draws.of_kfreeSkb skb _).before (.of_same rfl)
  have hjoining : Joining b password .associating (view t) := by
    rw [ht, view_setAid, view_kfreeSkb]
    exact h.joining
  obtain ⟨hshaking, hdraws⟩ := @enterLink_shaking hw env t b password n _ henv
    (le16At skb.data 28 &&& 0x3FFF) hjoining hpmk
  rw [← hskb] at h
  have hw' : w = _ := h.hears (by rw [hrx])
    (by rw [hrx]; exact hdraws.after hfree)
  rw [hw', hrx]
  exact ⟨⟨hshaking.joining, h.auths, List.append_nil _⟩, hshaking⟩

-- ================================================================ handshake

/-- In the handshake an EAPOL body of the access point reaches
`handleEAPOL`. -/
theorem rxFrame_eapol (client bssid : Bytes 6) (body : List UInt8)
    (hstate : s.state = .handshaking) :
    rxFrame hw env (eapolFromAp client bssid body) s
      = (kfreeSkb (eapolFromAp client bssid body)
          (handleEAPOL hw env body s), none) := by
  obtain ⟨skb, hskb⟩ : ∃ skb, skb = eapolFromAp client bssid body := ⟨_, rfl⟩
  have hreads : ApReads skb (ftypeData ||| fctlFromDs) bssid
      (snapHdr ethPPae ++ body) := hskb ▸ apFrame_reads _ _ _ _
  have hlen : 24 + 8 ≤ skb.data.length :=
    length_of_drop hreads.body (Nat.zero_lt_succ 7)
  have hsnap : isSnap skb.data 24 = true := isSnap_snapHdr hreads.body
  have h₆ : skb.data.drop (24 + 6) = be16 ethPPae ++ body :=
    drop_add_of_append (n := 6)
      (show _ = [_, _, _, _, _, _] ++ _ from hreads.body) rfl
  have hether : be16At skb.data (24 + 6) = ethPPae := be16At_of_drop h₆
  have hpayload : skb.data.drop (24 + 8) = body :=
    drop_add_of_append hreads.body rfl
  have hdecap : decap skb = .single
      { da := addr1 skb.data, sa := addr3 skb.data, ethertype := ethPPae
        payload := body } := by
    have hshape : hdrlen (ftypeData ||| fctlFromDs) = 24
        ∧ isDataQos (ftypeData ||| fctlFromDs) = false
        ∧ hasProtected (ftypeData ||| fctlFromDs) = false := ⟨rfl, rfl, rfl⟩
    simp only [decap, hreads.mem, hreads.fc, hshape.1, hshape.2.1,
      hshape.2.2, hsnap, Bool.false_and, Bool.not_true, Bool.and_false,
      Bool.false_eq_true, if_false, if_true]
    rw [if_neg (by omega), if_neg (by omega), hether, hpayload]
  have htid : reorderTid skb s = none := by
    rw [reorderTid, hreads.mem, hreads.fc]
    rfl
  have hconn : rxConnected s = true := by
    rw [rxConnected, hstate]
    rfl
  rw [← hskb]
  simp only [rxFrame, processRxData, deliverDataFrame, hreads.mem, hreads.fc,
    hconn, htid, hdecap, hstate, and_self, if_true, Bool.not_true,
    Bool.false_eq_true, if_false]
  rfl

/-- An EAPOL body is heard. -/
theorem OnTheWay.hears_eapol {body : List UInt8} {air l : List SkBuff}
    (h : OnTheWay b password .handshaking []
      (eapolFromAp n.spa n.aa body :: air) v)
    (hdraws : Draws n v.client.mlme (handleEAPOL hw env body v.client.mlme)
      l) :
    ∃ skb, talkStep hw n v (.hears env)
      = { client := { v.client with
            mlme := kfreeSkb skb (handleEAPOL hw env body v.client.mlme) }
          air := air ++ l } := by
  have hrx := @rxFrame_eapol hw env v.client.mlme n.spa n.aa body
    h.joining.state
  have hheard := hdraws.before
    (.of_kfreeSkb (eapolFromAp n.spa n.aa body) _)
  refine ⟨eapolFromAp n.spa n.aa body, ?_⟩
  rw [h.hears (by rw [hrx]) (by rw [hrx]; exact hheard), hrx]

/-- The M1 draws, by the M2 in answer to it, an M3 for the SNonce that the
client drew. -/
theorem turn_m1 {k : Nat} {air : List SkBuff} (henv : Plenty env)
    (haa : n.aa = b.bssid) (hspa : n.spa = hw.macAddr)
    (h : OnTheWay b password .handshaking []
      (eapolFromAp n.spa n.aa (n.m1 k) :: air) v)
    (hshaking : Shaking n b password (view v.client.mlme)) :
    let w := talkStep hw n v (.hears env)
    OnTheWay b password .handshaking []
        (air ++ [eapolFromAp n.spa n.aa (n.m3 env.snonce 2)]) w
      ∧ Shaking n b password (view w.client.mlme)
      ∧ w.client.mlme.ptk = n.ptk env.snonce := by
  intro w
  obtain ⟨s, hs⟩ : ∃ s, s = v.client.mlme := ⟨_, rfl⟩
  rw [← hs] at hshaking
  have hup : s.up = true := hshaking.joining.up
  have hpmk : s.pmk = n.pmk := hshaking.pmk
  have htarget : s.targetBSS = b := hshaking.joining.target
  have hnonce : grab (n.m1 k) 17 32 = n.anonce := (n.m1_reads k).nonce
  have hptk : (takeM1 hw env (n.m1 k) s).ptk = n.ptk env.snonce := by
    show derivePTK hw.prims s.pmk (grab (n.m1 k) 17 32) env.snonce hw.macAddr
      s.targetBSS.bssid = _
    rw [hpmk, hnonce, htarget, ← haa, ← hspa]
    rfl
  have hdraws : Draws n s (handleEAPOL hw env (n.m1 k) s)
      [eapolFromAp n.spa n.aa (n.m3 env.snonce 2)] := by
    have hm2 := draws_m2 (s := (takeM1 hw env (n.m1 k) s).emit
        (.m1 (grab (n.m1 k) 17 32) env.snonce)) henv hup hshaking.sta
      (hshaking.joining.aa haa) hspa hptk
      ((takeM1 hw env (n.m1 k) s).replayCtr)
    rw [handleEAPOL_m1]
    exact (hm2.after (.of_silent [_] rfl rfl)).before (.of_same rfl)
  have hview := @view_handleM1 hw env (n.m1 k) s
  rw [← handleEAPOL_m1] at hview
  rw [hs] at hdraws
  obtain ⟨skb, hw'⟩ := h.hears_eapol hdraws
  rw [← hs] at hw'
  have hview' : view w.client.mlme = view (handleEAPOL hw env (n.m1 k) s) := by
    rw [show w = _ from hw']
    exact view_kfreeSkb skb _
  rw [hview] at hview'
  have hjoining : Joining b password .handshaking (view w.client.mlme) := by
    rw [hview']
    exact ⟨hup, hshaking.joining.state, htarget, hshaking.joining.password,
      hshaking.joining.wpa2⟩
  refine ⟨⟨hjoining, ?_, ?_⟩, ⟨hjoining, ?_, ?_⟩, ?_⟩
  · rw [show w = _ from hw']
    exact h.auths
  · rw [show w = _ from hw']
  · rw [hview']
    exact hpmk
  · rw [hview']
    exact hshaking.sta
  · exact (congrArg Link.ptk hview').trans hptk

/-- What the M3 has for the client, behind all checks. -/
theorem m3Verified_m3 (henv : Plenty env) (snonce : Bytes 32) (k : Nat) :
    m3Verified hw env (n.ptk snonce) (n.m3 snonce k) (n.m3 snonce k).length
      = some n.plainData := by
  obtain ⟨mic, hreads⟩ := n.m3_reads snonce k
  obtain ⟨hlen, hunwrap⟩ := n.wrapped_spec snonce
  have hfits := n.fits
  have hdata : (be16At (n.m3 snonce k) 97).toNat
      = (n.wrapped snonce).length := by
    rw [hreads.dataLen, UInt16.toNat_ofNat']
    omega
  have hkey : m3KeyData hw.prims (kekOf (n.ptk snonce)) 0x13CA
      (n.wrapped snonce) = some n.plainData := by
    unfold m3KeyData
    rw [if_neg (by omega), if_pos (by decide)]
    exact hunwrap
  unfold m3Verified
  dsimp only
  rw [List.take_length, henv.micAlloc, n.mic_m3, hdata, hreads.keyData,
    List.take_length, hreads.length, if_neg (Nat.lt_irrefl _), hreads.info,
    hkey]
  rfl

/-- A key of the right length is installed in the pairwise slot. -/
theorem installPairwise_plenty {keyidx : UInt8} {cipher : UInt32}
    {tk : List UInt8} (hup : s.up = true)
    (hlen : keyLengthOk cipher tk.length = true) :
    ∃ t key l, installPairwise true true keyidx cipher tk s = (true, t)
      ∧ view t = { view s with
          ptkConf := some key, pn := zeros 6, next := s.nextAddr + 1
          trail := l }
      ∧ key.key = tk := by
  have hview := view_dropPtkConf (disableKey s.ptkConf s)
  rw [view_disableKey] at hview
  rw [installPairwise, hup, hlen]
  generalize dropPtkConf (disableKey s.ptkConf s) = d at hview
  refine ⟨_, newKeyConf d.nextAddr true keyidx cipher tk,
    freed s.ptkConf ++ (view s).trail, rfl, ?_, rfl⟩
  have hset := view_emit_off d.bumpAddr
    (.setKey (newKeyConf d.nextAddr true keyidx cipher tk) true)
    Bool.false_ne_true
  rw [view_setPtkConf, hset, view_bumpAddr, hview]
  rfl

/-- And in the group slot. -/
theorem installGroup_plenty {keyidx : UInt8} {cipher : UInt32}
    {tk : List UInt8} (hup : s.up = true)
    (hlen : keyLengthOk cipher tk.length = true) :
    ∃ t key l, installGroup true true keyidx cipher tk s = (true, t)
      ∧ view t = { view s with
          gtkConf := some key, next := s.nextAddr + 1, trail := l }
      ∧ key.key = tk ∧ key.keyidx = keyidx := by
  have hview := view_dropGtkConf (disableKey s.gtkConf s)
  rw [view_disableKey] at hview
  rw [installGroup, hup, hlen]
  generalize dropGtkConf (disableKey s.gtkConf s) = d at hview
  refine ⟨_, newKeyConf d.nextAddr false keyidx cipher tk,
    freed s.gtkConf ++ (view s).trail, rfl, ?_, rfl, rfl⟩
  have hset := view_emit_off d.bumpAddr
    (.setKey (newKeyConf d.nextAddr false keyidx cipher tk) true)
    Bool.false_ne_true
  rw [view_setGtkConf, hset, view_bumpAddr, hview]
  rfl

/-- With the keys in place the M3 branch comes to its end. -/
theorem finishM3_joined {snonce : Bytes 32} (htarget : s.targetBSS = b)
    (hsta : s.sta.isSome = true) (hptk : s.ptk = n.ptk snonce)
    (hpair : ∃ k, s.ptkConf = some k
      ∧ k.key = (tkOf (n.ptk snonce)).toList)
    (hgroup : ∀ gtk idx, extractGtkFromKde n.plainData = some (gtk, idx) →
      gtk ≠ [] → ∃ k, s.gtkConf = some k ∧ k.key = gtk ∧ k.keyidx = idx) :
    Joined n b snonce (finishM3 hw env s)
      ∧ Draws n s (finishM3 hw env s) [] := by
  have hview := @view_finishM3 hw env s
  have hctl := @ctl_finishM3 hw env s
  refine ⟨⟨congrArg Link.state hview,
    (congrArg Link.target hview).trans htarget, ?_,
    (congrArg Link.ptk hview).trans hptk, ?_, ?_, ?_, ?_⟩, ?_⟩
  · rw [show (finishM3 hw env s).sta = s.sta from congrArg Link.sta hview]
    exact hsta
  · rw [show (finishM3 hw env s).ptkConf = s.ptkConf from
      congrArg Link.ptkConf hview]
    exact hpair
  · rw [show (finishM3 hw env s).gtkConf = s.gtkConf from
      congrArg Link.gtkConf hview]
    exact hgroup
  · have htimer := congrArg Ctl.timer hctl
    rw [show (finishM3 hw env s).timer = _ from htimer]
    cases asks env s <;> rfl
  · have hlink := congrArg Ctl.link hctl
    rw [Mlme.linkActive,
      show (finishM3 hw env s).log.findSome? Obs.linkStatus = _ from hlink]
    cases asks env s <;> rfl
  · rw [finishM3]
    exact (((draws_m4 n _ _).before (.of_silent [_] rfl rfl)).before
      (.of_silent [_] rfl rfl)).before (draws_startTxAggregation n _)

/-- The M3 branch from the group key on. -/
theorem acceptGtk_joined {snonce : Bytes 32} (henv : Plenty env)
    (hfits : GroupKeyFits n b) (hup : s.up = true)
    (htarget : s.targetBSS = b) (hsta : s.sta.isSome = true)
    (hptk : s.ptk = n.ptk snonce)
    (hpair : ∃ k, s.ptkConf = some k
      ∧ k.key = (tkOf (n.ptk snonce)).toList) :
    Joined n b snonce (acceptGtk hw env n.plainData s)
      ∧ Draws n s (acceptGtk hw env n.plainData s) [] := by
  rw [acceptGtk]
  split
  next hnone =>
    refine finishM3_joined htarget hsta hptk hpair fun gtk idx hsome => ?_
    rw [hnone] at hsome
    cases hsome
  next gtk idx hsome =>
    split
    next hempty =>
      refine finishM3_joined htarget hsta hptk hpair ?_
      intro gtk' idx' hsome' hne
      cases hsome.symm.trans hsome'
      exact absurd (List.length_eq_zero_iff.1 hempty) hne
    next hlen =>
      have hne : gtk ≠ [] := fun hno => hlen (List.length_eq_zero_iff.2 hno)
      have hok : keyLengthOk (groupCipher s) gtk.length = true := by
        rw [groupCipher, htarget]
        exact hfits gtk idx hsome hne
      obtain ⟨t, key, l, hinstall, hview, hkey, hidx⟩ :=
        @installGroup_plenty s idx (groupCipher s) gtk hup hok
      have hquiet := @sends_installGroup hw true true idx (groupCipher s)
        gtk s
      rw [hinstall] at hquiet
      rw [henv.groupAlloc, henv.groupSet, hinstall]
      have hconf : t.gtkConf = some key := congrArg Link.gtkConf hview
      have hsame : t.ptkConf = s.ptkConf := congrArg Link.ptkConf hview
      have hsta' : t.sta = s.sta := congrArg Link.sta hview
      obtain ⟨hjoined, hdraws⟩ := @finishM3_joined hw env t b n snonce
        ((congrArg Link.target hview).trans htarget)
        (by rw [hsta']; exact hsta)
        ((congrArg Link.ptk hview).trans hptk) (by rw [hsame]; exact hpair)
        (fun gtk' idx' hsome' _ => by
          cases hsome.symm.trans hsome'
          exact ⟨key, hconf, hkey, hidx⟩)
      exact ⟨hjoined, hdraws.after (.of_sends hquiet)⟩

/-- The M3 for the SNonce that the client drew last connects it. -/
theorem turn_m3 {k : Nat} {air : List SkBuff} {snonce : Bytes 32}
    (henv : Plenty env) (hfits : GroupKeyFits n b)
    (h : OnTheWay b password .handshaking []
      (eapolFromAp n.spa n.aa (n.m3 snonce k) :: air) v)
    (hshaking : Shaking n b password (view v.client.mlme))
    (hptk : v.client.mlme.ptk = n.ptk snonce) :
    let w := talkStep hw n v (.hears env)
    w.air = air ∧ w.client.auths = []
      ∧ Joined n b snonce w.client.mlme := by
  intro w
  obtain ⟨s, hs⟩ : ∃ s, s = v.client.mlme := ⟨_, rfl⟩
  rw [← hs] at hshaking hptk
  obtain ⟨hm1, hm3⟩ := n.kind_m3 snonce k
  have haccept : handleEAPOL hw env (n.m3 snonce k) s
      = acceptM3 hw env (n.m3 snonce k) n.plainData s := by
    rw [handleEAPOL, n.eapolLen_m3]
    simp only [hm1, hm3, hptk, m3Verified_m3 henv, Bool.false_eq_true,
      if_false, if_true]
  obtain ⟨s₁, hs₁⟩ :
      ∃ s₁, s₁ = setReplayCtr (grab (n.m3 snonce k) 9 8) s := ⟨_, rfl⟩
  have hview₁ : view s₁ = view s := hs₁ ▸ view_setReplayCtr _ s
  have hptk₁ : s₁.ptk = n.ptk snonce := (congrArg Link.ptk hview₁).trans hptk
  obtain ⟨t, key, l, hinstall, hview, hkey⟩ := @installPairwise_plenty s₁ 0
    cipherCcmp (tkOf s₁.ptk).toList
    ((congrArg Link.up hview₁).trans hshaking.joining.up)
    (by rw [List.Vector.toList_length]; rfl)
  have hquiet := @sends_installPairwise hw true true 0 cipherCcmp
    (tkOf s₁.ptk).toList s₁
  rw [hinstall] at hquiet
  have hrest : acceptM3 hw env (n.m3 snonce k) n.plainData s
      = acceptGtk hw env n.plainData t := by
    simp only [acceptM3]
    rw [← hs₁, henv.pairwiseAlloc, henv.pairwiseSet, hinstall]
    rfl
  rw [hview₁] at hview
  have hsta : t.sta = s.sta := congrArg Link.sta hview
  rw [hptk₁] at hkey
  obtain ⟨hjoined, hdraws⟩ := @acceptGtk_joined hw env t b n snonce henv
    hfits ((congrArg Link.up hview).trans hshaking.joining.up)
    ((congrArg Link.target hview).trans hshaking.joining.target)
    (by rw [hsta]; exact hshaking.sta)
    ((congrArg Link.ptk hview).trans hptk)
    ⟨key, congrArg Link.ptkConf hview, hkey⟩
  have hall : Draws n s (handleEAPOL hw env (n.m3 snonce k) s) [] := by
    rw [haccept, hrest]
    refine (hdraws.after (.of_sends hquiet)).after (.of_same ?_)
    rw [hs₁]
    rfl
  rw [hs] at hall
  obtain ⟨skb, hw'⟩ := h.hears_eapol hall
  rw [← hs, haccept, hrest] at hw'
  rw [show w = _ from hw']
  refine ⟨List.append_nil _, h.auths, ?_⟩
  exact ⟨hjoined.state, hjoined.target, hjoined.sta, hjoined.ptk,
    hjoined.pairwise, hjoined.group, hjoined.timer, hjoined.link⟩

-- =================================================================== result

/-- The sample network has been scanned. -/
def scannedClient : Sys :=
  sysRun (sampleHw samplePrims) true (scanEvents ccmpIe)

/-- What the scan found. -/
def sampleBss : RTW88BSS :=
  (findBss [0x41] scannedClient.mlme.bssList).getD RTW88BSS.zero

/-- The sample AP, with the PMK of a password. -/
def sampleHost (password : List UInt8) :
    Authenticator (sampleHw samplePrims).prims :=
  { sampleAuthenticator with
    pmk := derivePMK samplePrims ((cStr password).take 63)
      sampleBss.ssid.toList sampleBss.ssidLen.toNat }

theorem sampleHost_canJoin (password : List UInt8) :
    CanJoin (sampleHw samplePrims) (sampleHost password) [0x41] password
      sampleBss scannedClient where
  up := by decide +kernel
  idle := by decide +kernel
  quiet := by decide +kernel
  found := by decide +kernel
  ccmp := by decide +kernel
  aa := show sampleAp = sampleBss.bssid by decide +kernel
  spa := rfl
  pmk := rfl
  gtk := by
    intro gtk idx hsome
    cases hsome

end Rtw88
