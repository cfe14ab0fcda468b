/-
What one station sends another receives.

The frame is built from parts (`dataBody`): an 802.11 header, a QoS
control field or not, a CCMP header or not, LLC/SNAP and the payload. The
receiver finds each part at the offset where the sender put it; where it
guesses whether a CCMP header is there, its third byte decides: zero in
a CCMP header, three in LLC/SNAP (`isSnap_ccmpHdr`).

# The relay

The access point is between the two. It takes the header off, turns the
frame control around and puts the addresses in the order of a frame from
the DS; whether the frame is QoS data and whether it is protected stays
(`dataFc_turn`). What the receiver reads is stated for any frame that is
cut at these places (`decap_relayed`), and the relayed frame is one.

# Every frame it takes

The round trip is for whatever `txDataFrame` sends, so it is first said
what that is: an Ethernet frame of 14 to 2048 bytes, with the driver up
and a station there (`txDataFrame_sends_iff`). The lengths are those of
the source's tests.
-/
import Rtw88.Spec.AccessPoint

namespace Rtw88

variable {hw : Hw} {env : Env}

-- =================================================================== parts

/-- The frame control of a data frame in either direction. -/
private def dataFc (dir : UInt16) (qos prot : Bool) : UInt16 :=
  ftypeData ||| dir ||| (if qos then stypeQosData else 0)
    ||| (if prot then fctlProtected else 0)

/-- The CCMP header, for a packet number and a key index. -/
private def ccmpPart : Option (Bytes 6 × UInt8) → List UInt8
  | some (pn, keyidx) => ccmpHdr pn keyidx
  | none => []

/-- What is behind the header. -/
private def dataBody (qos : Bool) (ccmp : Option (Bytes 6 × UInt8))
    (ethertype : UInt16) (payload : List UInt8) : List UInt8 :=
  (if qos then [baTid &&& 0x0f, 0] else [])
    ++ (ccmpPart ccmp ++ (snapHdr ethertype ++ payload))

/-- The sender's frame is put together from these parts. -/
private theorem dataFrame_eq (m : List UInt8) (seq : UInt16)
    (key : Option KeyConf) (pn : Bytes 6) (s : Mlme) :
    dataFrame hw m seq key pn s
      = hdr3addr (dataFc fctlToDs (htAllowed s) key.isSome) s.targetBSS.bssid
          hw.macAddr (grab m 0 6) (seqField seq)
        ++ dataBody (htAllowed s) (key.map fun k => (pn, k.keyidx))
          (be16At m 12) (m.drop 14) := by
  cases key with
  | none => simp only [dataFrame, dataFc, dataBody, ccmpPart,
      List.append_assoc, Option.map_none]
  | some k => simp only [dataFrame, dataFc, dataBody, ccmpPart,
      List.append_assoc, Option.map_some]

/-- The relay turns the frame control around. -/
private theorem dataFc_turn (qos prot : Bool) :
    (dataFc fctlToDs qos prot &&& ~~~fctlToDs) ||| fctlFromDs
      = dataFc fctlFromDs qos prot := by
  cases qos <;> cases prot <;> rfl

-- ===================================================================== SNAP

/-- An LLC/SNAP header is one. -/
theorem isSnap_snapHdr {d rest : List UInt8} {off : Nat}
    {ethertype : UInt16} (h : d.drop off = snapHdr ethertype ++ rest) :
    isSnap d off = true := by
  have h₁ := drop_add_of_append (n := 1) (show _ = [_] ++ _ from h) rfl
  have h₂ := drop_add_of_append (n := 2) (show _ = [_, _] ++ _ from h) rfl
  rw [isSnap, peek_of_drop h, peek_of_drop h₁, peek_of_drop h₂]
  rfl

/-- A CCMP header is never taken for one, whatever the packet number. -/
theorem isSnap_ccmpHdr {d rest : List UInt8} {off : Nat}
    {pn : Bytes 6} {keyidx : UInt8}
    (h : d.drop off = ccmpHdr pn keyidx ++ rest) :
    isSnap d off = false := by
  have h₂ : d.drop (off + 2) = 0 :: _ :=
    drop_add_of_append (n := 2) (show _ = [_, _] ++ _ from h) rfl
  rw [isSnap, peek_of_drop h₂]
  exact Bool.and_false _

/-- Behind the LLC/SNAP header at `off`: the ethertype and the payload. -/
private theorem snapHdr_reads {d payload : List UInt8} {off : Nat}
    {ethertype : UInt16} (h : d.drop off = snapHdr ethertype ++ payload) :
    be16At d (off + 6) = ethertype ∧ d.drop (off + 8) = payload := by
  have h₆ : d.drop (off + 6) = be16 ethertype ++ payload :=
    drop_add_of_append (n := 6)
      (show _ = [_, _, _, _, _, _] ++ _ from h) rfl
  exact ⟨be16At_of_drop h₆, drop_add_of_append h rfl⟩

-- ================================================================= receiver

/-- The receiver reads the sender's shape off the frame control. -/
private theorem dataFc_shape (qos prot : Bool) :
    hdrlen (dataFc fctlFromDs qos prot) = 24 + (if qos then 2 else 0)
      ∧ isDataQos (dataFc fctlFromDs qos prot) = qos
      ∧ hasProtected (dataFc fctlFromDs qos prot) = prot := by
  cases qos <;> cases prot <;> exact ⟨rfl, rfl, rfl⟩

/-- What stands at an offset is inside the frame. -/
theorem length_of_drop {d bs rest : List UInt8} {off : Nat}
    (h : d.drop off = bs ++ rest) (hbs : 0 < bs.length) :
    off + bs.length ≤ d.length := by
  have hlen : d.length - off = bs.length + rest.length := by
    rw [← List.length_drop, h, List.length_append]
  omega

/-- Behind the QoS control, or at once, the rest of the body; and no QoS
control marks an A-MSDU. -/
private theorem dataBody_qos {d : List UInt8} {qos : Bool}
    {ccmp : Option (Bytes 6 × UInt8)} {ethertype : UInt16}
    {payload : List UInt8}
    (hbody : d.drop 24 = dataBody qos ccmp ethertype payload) :
    d.drop (24 + (if qos then 2 else 0))
        = ccmpPart ccmp ++ (snapHdr ethertype ++ payload)
      ∧ (qos && peek d (24 + (if qos then 2 else 0) - 2) &&& 0x80 != 0)
        = false := by
  cases qos with
  | false => exact ⟨hbody, rfl⟩
  | true =>
      have hqosc : d.drop 24 = [baTid &&& 0x0f, 0] ++ _ := hbody
      refine ⟨drop_add_of_append (n := 2) hqosc rfl, ?_⟩
      show (true && peek d 24 &&& 0x80 != 0) = false
      rw [peek_of_drop hqosc]
      rfl

/-- What the receiver makes of a relayed frame. -/
private theorem decap_relayed {skb : SkBuff} {qos : Bool}
    {ccmp : Option (Bytes 6 × UInt8)} {ethertype : UInt16}
    {payload : List UInt8}
    (hfc : frameControl skb.mem = dataFc fctlFromDs qos ccmp.isSome)
    (hbody : skb.data.drop 24 = dataBody qos ccmp ethertype payload) :
    decap skb = .single
      { da := addr1 skb.data, sa := addr3 skb.data, ethertype, payload } := by
  obtain ⟨hlen, hqos, hprot⟩ := dataFc_shape qos ccmp.isSome
  obtain ⟨hbehind, hamsdu⟩ := dataBody_qos hbody
  simp only [decap, hfc, hlen, hqos, hprot]
  generalize 24 + (if qos then 2 else 0) = off at hbehind hamsdu ⊢
  simp only [hamsdu, Bool.false_eq_true, if_false]
  cases ccmp with
  | none =>
      -- LLC/SNAP at once
      have hsnap : skb.data.drop off = snapHdr ethertype ++ payload := hbehind
      have hlen : off + 8 ≤ skb.data.length :=
        length_of_drop hsnap (Nat.zero_lt_succ 7)
      obtain ⟨htype, hpay⟩ := snapHdr_reads hsnap
      rw [if_neg (show ¬ skb.data.length < off by omega),
        if_neg (show ¬ skb.data.length < off + 8 by omega),
        isSnap_snapHdr hsnap]
      simp only [Bool.not_true, Bool.false_and, Bool.false_eq_true, if_false,
        isSnap_snapHdr hsnap, if_true, htype, hpay]
  | some key =>
      -- behind the CCMP header, which is not taken for it
      obtain ⟨pn, keyidx⟩ := key
      have hccmp : skb.data.drop off
          = ccmpHdr pn keyidx ++ (snapHdr ethertype ++ payload) := hbehind
      have hsnap : skb.data.drop (off + 8) = snapHdr ethertype ++ payload :=
        drop_add_of_append hccmp rfl
      have hlen : off + 8 + 8 ≤ skb.data.length :=
        length_of_drop hsnap (Nat.zero_lt_succ 7)
      obtain ⟨htype, hpay⟩ := snapHdr_reads hsnap
      rw [if_neg (show ¬ skb.data.length < off by omega),
        if_neg (show ¬ skb.data.length < off + 8 by omega),
        isSnap_ccmpHdr hccmp, isSnap_snapHdr hsnap, decide_eq_true (show off + 16 ≤ _ by omega)]
      simp only [Option.isSome_some, Bool.not_false, Bool.and_self, if_true,
        isSnap_snapHdr hsnap, htype, hpay]

-- =================================================================== header

/-- The addresses of a frame, wherever its header comes from. -/
theorem addrs_of_drop {d rest : List UInt8} {a₁ a₂ a₃ : Bytes 6}
    (h : d.drop 4 = a₁.toList ++ (a₂.toList ++ (a₃.toList ++ rest))) :
    addr1 d = a₁ ∧ addr2 d = a₂ ∧ addr3 d = a₃ ∧ d.drop 22 = rest := by
  have h₂ := drop_add_of_append h a₁.toList_length
  have h₃ := drop_add_of_append h₂ a₂.toList_length
  exact ⟨List.Vector.toList_injective (grab_of_drop h a₁.toList_length),
    List.Vector.toList_injective (grab_of_drop h₂ a₂.toList_length),
    List.Vector.toList_injective (grab_of_drop h₃ a₃.toList_length),
    drop_add_of_append h₃ a₃.toList_length⟩

/-- What the AP reads off the sender's header. -/
private theorem hdr3addr_reads (fc : UInt16) (a₁ a₂ a₃ : Bytes 6)
    (seq : UInt16) (body : List UInt8) :
    let d := hdr3addr fc a₁ a₂ a₃ seq ++ body
    addr1 d = a₁ ∧ addr2 d = a₂ ∧ addr3 d = a₃ ∧ d.drop 24 = body := by
  have hdrop : (hdr3addr fc a₁ a₂ a₃ seq ++ body).drop 4
      = a₁.toList ++ (a₂.toList ++ (a₃.toList ++ (le16 seq ++ body))) := by
    simp only [hdr3addr, List.append_assoc]
    rfl
  obtain ⟨h₁, h₂, h₃, -⟩ := addrs_of_drop hdrop
  exact ⟨h₁, h₂, h₃, List.drop_left' (hdr3addr_length fc a₁ a₂ a₃ seq)⟩

/-- And the receiver off the AP's. -/
private theorem relay_reads (sa : Bytes 6) (duration seq : UInt16)
    (frame past : List UInt8) :
    let d := relay sa duration seq frame
    frameControl (d ++ past)
        = (frameControl frame &&& ~~~fctlToDs) ||| fctlFromDs
      ∧ addr1 d = addr3 frame ∧ addr3 d = sa ∧ d.drop 24 = frame.drop 24 := by
  have hdrop : (relay sa duration seq frame).drop 4
      = (addr3 frame).toList ++ ((addr1 frame).toList
        ++ (sa.toList ++ (le16 seq ++ frame.drop 24))) := rfl
  obtain ⟨h₁, -, h₃, hrest⟩ := addrs_of_drop hdrop
  refine ⟨?_, h₁, h₃, drop_add_of_append (n := 2) hrest rfl⟩
  rw [relay, List.append_assoc]
  exact le16At_le16 _ _

/-- What the AP reads behind the header of a frame that is not
protected. -/
theorem dataFrame_plain_reads (m : List UInt8) (seq : UInt16) (pn : Bytes 6)
    (s : Mlme) :
    let d := dataFrame hw m seq none pn s
    let h := hdrlen (frameControl d)
    isData (frameControl d) = true ∧ isSnap d h = true
      ∧ be16At d (h + 6) = be16At m 12 ∧ d.drop (h + 8) = m.drop 14 := by
  intro d h
  have hd : d = hdr3addr (dataFc fctlToDs (htAllowed s) false)
      s.targetBSS.bssid hw.macAddr (grab m 0 6) (seqField seq)
        ++ dataBody (htAllowed s) none (be16At m 12) (m.drop 14) :=
    dataFrame_eq m seq none pn s
  have hfc : frameControl d = dataFc fctlToDs (htAllowed s) false := by
    rw [hd]
    exact frameControl_hdr3addr _ _ _ _ _ _
  have hbody : d.drop 24
      = dataBody (htAllowed s) none (be16At m 12) (m.drop 14) := by
    rw [hd]
    exact List.drop_left' (hdr3addr_length _ _ _ _ _)
  have hshape : isData (dataFc fctlToDs (htAllowed s) false) = true
      ∧ hdrlen (dataFc fctlToDs (htAllowed s) false)
        = 24 + (if htAllowed s then 2 else 0) := by
    cases htAllowed s <;> exact ⟨rfl, rfl⟩
  have hh : h = 24 + (if htAllowed s then 2 else 0) := by
    show hdrlen (frameControl d) = _
    rw [hfc]
    exact hshape.2
  have hsnap : d.drop h = snapHdr (be16At m 12) ++ m.drop 14 := by
    rw [hh]
    exact (dataBody_qos hbody).1
  obtain ⟨htype, hpay⟩ := snapHdr_reads hsnap
  refine ⟨?_, isSnap_snapHdr hsnap, htype, hpay⟩
  rw [hfc]
  exact hshape.1

-- =================================================================== sender

/-- The counters touch neither the log nor the aggregation. -/
theorem txCounters_same (key : Option KeyConf) (s : Mlme) :
    (txCounters key s).log = s.log
      ∧ (txCounters key s).txBaActive = s.txBaActive := by
  rw [txCounters, takePn, takeSeq]
  split <;> split <;> exact ⟨rfl, rfl⟩

/-- `txDataFrame` refuses a frame, loses it after the counters moved, or
hands it to the driver. -/
theorem txDataFrame_outcome (env : Env) (m : List UInt8) (s : Mlme) :
    txDataFrame hw env m s = (false, s)
      ∨ txDataFrame hw env m s = (false, txCounters (txKey (be16At m 12) s) s)
      ∨ ∃ tx seq pn s', s'.txBaActive = s.txBaActive
        ∧ txDataFrame hw env m s = (true, s'.emit (.tx tx)) ∧ s'.log = s.log
        ∧ tx.data = dataFrame hw m seq (txKey (be16At m 12) s) pn s'
        ∧ tx.flags = (if htAllowed s' && s'.txBaActive
            then txCtlFirstFragment ||| txCtlAmpdu
            else txCtlFirstFragment) := by
  obtain ⟨hlog, hba⟩ := txCounters_same (txKey (be16At m 12) s) s
  unfold txDataFrame
  cases s.sta with
  | none => exact .inl rfl
  | some sta =>
      dsimp only
      split
      · exact .inl rfl
      · split
        · exact .inr (.inl rfl)
        · exact .inr (.inr ⟨_, _, _, _, hba, rfl, hlog, rfl, rfl⟩)

/-- What `txDataFrame` hands to the driver when it succeeds. -/
theorem txDataFrame_log {m : List UInt8} {s : Mlme}
    (htx : (txDataFrame hw env m s).1 = true) :
    ∃ tx seq pn s', (txDataFrame hw env m s).2.log = .tx tx :: s.log
      ∧ tx.data = dataFrame hw m seq (txKey (be16At m 12) s) pn s' := by
  rcases @txDataFrame_outcome hw env m s with
    h | h | ⟨tx, seq, pn, s', -, h, hlog, hdata, -⟩
  · rw [h] at htx
    cases htx
  · rw [h] at htx
    cases htx
  · rw [h]
    exact ⟨tx, seq, pn, s', congrArg (List.cons (Obs.tx tx)) hlog, hdata⟩

/-- It succeeds for every Ethernet frame of 14 to 2048 bytes where the
driver is up and has a station, unless memory runs out. -/
theorem txDataFrame_sends_iff {m : List UInt8} {s : Mlme} :
    (txDataFrame hw env m s).1 = true
      ↔ s.sta.isSome = true ∧ s.up = true
        ∧ 14 ≤ m.length ∧ m.length ≤ 2048
        ∧ env.headCopy = true ∧ env.dataSkb = true
        ∧ (m.length = 14 ∨ env.payloadCopy = true) := by
  rw [txDataFrame]
  cases s.sta with
  | none => simp
  | some sta =>
      simp only [Option.isSome_some, true_and]
      split
      next hrefuse =>
        refine ⟨fun h => absurd h Bool.false_ne_true, fun h => ?_⟩
        simp only [Bool.or_eq_true, decide_eq_true_eq,
          Bool.not_eq_true'] at hrefuse
        grind
      next hgo =>
        simp only [Bool.or_eq_true, decide_eq_true_eq, Bool.not_eq_true',
          not_or, Bool.not_eq_false] at hgo
        obtain ⟨⟨⟨⟨hup, hmin⟩, hmax⟩, hhead⟩, hskb⟩ := hgo
        split
        next hcopy =>
          refine ⟨fun h => absurd h Bool.false_ne_true, fun h => ?_⟩
          simp only [Bool.and_eq_true, decide_eq_true_eq,
            Bool.not_eq_true'] at hcopy
          grind
        next hcopy =>
          simp only [Bool.and_eq_true, decide_eq_true_eq, Bool.not_eq_true',
            not_and, Bool.not_eq_false] at hcopy
          refine ⟨fun _ => ⟨hup, by omega, by omega, hhead, hskb, ?_⟩,
            fun _ => rfl⟩
          by_cases hlen : m.length = 14
          · exact .inl hlen
          · exact .inr (hcopy (by omega))

/-- Every Ethernet frame that `txDataFrame` sends, relayed by the AP and
received in a connected state, comes out as one call of
`deliverEthernet`, with its destination, its ethertype and its payload;
the source is the one the AP gives, for which it has the sender's
address. Whatever the AP puts into duration and sequence control, and
whatever the packet number. -/
theorem tx_rx_round_trip {m : List UInt8} {s : Mlme}
    (htx : (txDataFrame hw env m s).1 = true) :
    ∃ tx, (txDataFrame hw env m s).2.log = .tx tx :: s.log
      ∧ addr2 tx.data = hw.macAddr
      ∧ ∀ (hw' : Hw) (env' : Env) (s' : Mlme) (skb : SkBuff)
          (sa : Bytes 6) (duration seq : UInt16), s'.state = .connected →
        skb.data = relay sa duration seq tx.data →
        deliverDataFrame hw' env' skb s'
          = kfreeSkb skb (deliverEthernet env' 0
            { da := grab m 0 6, sa, ethertype := be16At m 12
              payload := m.drop 14 } s') := by
  obtain ⟨tx, sn, pn, s₁, hlog, hdata⟩ := txDataFrame_log htx
  generalize txKey (be16At m 12) s = key at hdata
  rw [dataFrame_eq] at hdata
  obtain ⟨-, hsa, hda, hbody⟩ := hdr3addr_reads
    (dataFc fctlToDs (htAllowed s₁) key.isSome) s₁.targetBSS.bssid
    hw.macAddr (grab m 0 6) (seqField sn)
    (dataBody (htAllowed s₁) (key.map fun k => (pn, k.keyidx)) (be16At m 12)
      (m.drop 14))
  have hfc := frameControl_hdr3addr
    (dataFc fctlToDs (htAllowed s₁) key.isSome) s₁.targetBSS.bssid
    hw.macAddr (grab m 0 6) (seqField sn)
    (dataBody (htAllowed s₁) (key.map fun k => (pn, k.keyidx)) (be16At m 12)
      (m.drop 14))
  rw [← hdata] at hsa hda hbody hfc
  refine ⟨tx, hlog, hsa, ?_⟩
  intro hw' env' s' skb sa duration seq hstate hskb
  obtain ⟨hfc', ha₁, ha₃, hdrop⟩ :=
    relay_reads sa duration seq tx.data skb.past
  rw [← hskb] at hfc' ha₁ ha₃ hdrop
  rw [hfc, dataFc_turn] at hfc'
  have hkey : (key.map fun k => (pn, k.keyidx)).isSome = key.isSome :=
    Option.isSome_map
  have hdecap := decap_relayed
    (show frameControl skb.mem = dataFc fctlFromDs (htAllowed s₁)
      (key.map fun k => (pn, k.keyidx)).isSome by rw [hkey]; exact hfc')
    (hdrop.trans hbody)
  rw [ha₁, ha₃, hda] at hdecap
  have hnot : ¬ (be16At m 12 = ethPPae ∧ s'.state = .handshaking) := by
    rw [hstate]
    intro h
    cases h.2
  simp only [deliverDataFrame, hdecap, if_neg hnot]

/-- A broadcast on the sample network comes back. -/
theorem sample_round_trip :
    let hw := sampleHw samplePrims
    let s := (sysRun hw true joinEvents).mlme
    s.state = .connected ∧ (txDataFrame hw {} samplePacket s).1 = true
      ∧ ∃ tx, (txDataFrame hw {} samplePacket s).2.log = .tx tx :: s.log
        ∧ deliverDataFrame hw {} { data := relay sampleMac 0 0 tx.data } s
          = kfreeSkb { data := relay sampleMac 0 0 tx.data }
            (deliverEthernet {} 0
              { da := grab samplePacket 0 6, sa := sampleMac
                ethertype := be16At samplePacket 12
                payload := samplePacket.drop 14 } s) := by
  intro hw s
  have hstate : s.state = .connected := by decide +kernel
  have htx : (txDataFrame hw {} samplePacket s).1 = true := by decide +kernel
  obtain ⟨tx, hlog, -, hback⟩ := tx_rx_round_trip htx
  exact ⟨hstate, htx, tx, hlog, hback hw {} s _ sampleMac 0 0 hstate rfl⟩

end Rtw88
