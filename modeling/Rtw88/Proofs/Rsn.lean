/-
`rtw88RsnSelectCcmpPsk` and its grammar: `rsn_parser_exact`. What it
accepts and the element built from it: `rsn_negotiated_iff`.

# The grammar

The suites of a list are read as they are written (`suites`, a codec).
On the bytes of a body the parser sees the fields of the body
(`select_bytes`), and what passes its length checks is the bytes of a
body (`bytes_parse`); both directions are about the four offsets at
which a field starts. The counts are 16 bits, so a list may be said to be
longer than the element; then the check behind it fails
(`select_short`), and what lies behind the AKM list is not looked at.

# The negotiation

What is built names one suite of each kind. The pairwise and the AKM
suite are among those offered, as that is what was searched for. The
group suite is the one that was read, unless it is neither CCMP nor TKIP:
then CCMP is put in its place, and a station that asks for that does not
ask for what was offered (`wep_group_replaced`). A second replacement
when the element is built changes nothing that the first has not
(`selectedBody_group`).
-/
import Rtw88.Lib.Codec
import Rtw88.Model.Rsn
import Rtw88.Spec.Rsn
import Rtw88.Proofs.RxAccess

namespace Rtw88

-- ==================================================================== suites

/-- Four bytes in one word, the first on top. -/
private theorem word_bytes (a b c d : UInt8) :
    let x := (a.toUInt32 <<< 24) ||| (b.toUInt32 <<< 16)
      ||| (c.toUInt32 <<< 8) ||| d.toUInt32
    (x >>> 24).toUInt8 = a ∧ (x >>> 16).toUInt8 = b
      ∧ (x >>> 8).toUInt8 = c ∧ x.toUInt8 = d := by
  refine ⟨?_, ?_, ?_, ?_⟩ <;>
    (apply UInt8.toBitVec_inj.1
     apply BitVec.eq_of_getLsbD_eq
     intro i hi
     simp only [UInt32.toBitVec_toUInt8, UInt32.toBitVec_shiftRight,
       UInt32.toBitVec_or, UInt32.toBitVec_shiftLeft,
       UInt8.toBitVec_toUInt32, BitVec.getLsbD_setWidth,
       UInt32.toBitVec_ofNat, BitVec.ofNat_eq_ofNat, BitVec.reduceMod,
       BitVec.ushiftRight_eq', BitVec.toNat_ofNat, Nat.reducePow,
       Nat.reduceMod, BitVec.shiftLeft_eq', BitVec.getLsbD_shiftLeft,
       BitVec.getLsbD_ushiftRight, BitVec.getLsbD_or]
     grind)

/-- The bytes of a word, joined again. -/
private theorem bytes_word (x : UInt32) :
    ((x >>> 24).toUInt8.toUInt32 <<< 24)
      ||| ((x >>> 16).toUInt8.toUInt32 <<< 16)
      ||| ((x >>> 8).toUInt8.toUInt32 <<< 8) ||| x.toUInt8.toUInt32 = x := by
  apply UInt32.toBitVec_inj.1
  apply BitVec.eq_of_getLsbD_eq
  intro i hi
  -- bit `i` comes from the byte it is in
  simp only [UInt32.toBitVec_toUInt8, UInt32.toBitVec_shiftRight,
    UInt32.toBitVec_or, UInt32.toBitVec_shiftLeft, UInt8.toBitVec_toUInt32,
    BitVec.getLsbD_setWidth, UInt32.toBitVec_ofNat, BitVec.ofNat_eq_ofNat,
    BitVec.reduceMod, BitVec.ushiftRight_eq', BitVec.toNat_ofNat,
    Nat.reducePow, Nat.reduceMod, BitVec.shiftLeft_eq',
    BitVec.getLsbD_shiftLeft, BitVec.getLsbD_ushiftRight, BitVec.getLsbD_or]
  grind

/-- A selector reads back where it was written. -/
theorem rtw88ReadSuite_of_drop {d rest : List UInt8} {i : Nat} {x : UInt32}
    (h : d.drop i = rtw88WriteSuite x ++ rest) : rtw88ReadSuite d i = x := by
  have h₁ : d.drop (i + 1) = (x >>> 16).toUInt8 :: _ :=
    drop_add_of_append (show _ = [(x >>> 24).toUInt8] ++ _ from h) rfl
  have h₂ : d.drop (i + 2) = (x >>> 8).toUInt8 :: _ :=
    drop_add_of_append
      (show _ = [(x >>> 24).toUInt8, (x >>> 16).toUInt8] ++ _ from h) rfl
  have h₃ : d.drop (i + 3) = x.toUInt8 :: rest :=
    drop_add_of_append
      (show _ = [(x >>> 24).toUInt8, (x >>> 16).toUInt8,
        (x >>> 8).toUInt8] ++ _ from h) rfl
  rw [rtw88ReadSuite, peek_of_drop h, peek_of_drop h₁, peek_of_drop h₂,
    peek_of_drop h₃]
  exact bytes_word x

theorem rtw88WriteSuite_read {d : List UInt8} {i : Nat}
    (h : i + 4 ≤ d.length) :
    rtw88WriteSuite (rtw88ReadSuite d i) = (d.drop i).take 4 := by
  obtain ⟨h₀, h₁, h₂, h₃⟩ := word_bytes (peek d i) (peek d (i + 1))
    (peek d (i + 2)) (peek d (i + 3))
  rw [← grab_eq_slice h]
  unfold rtw88WriteSuite rtw88ReadSuite
  rw [h₀, h₁, h₂, h₃]
  rfl

/-- Suites are written in four bytes. -/
def suites : Codec UInt32 where
  width := 4
  write := rtw88WriteSuite
  read := rtw88ReadSuite
  write_length := fun _ => rfl
  read_of_drop := rtw88ReadSuite_of_drop
  write_read := rtw88WriteSuite_read

/-- The loops ask whether a suite is in the list. -/
theorem any_suite {d : List UInt8} {i : Nat} {l : List UInt32}
    (h : suites.readN d i l.length = l) (suite : UInt32) :
    ((List.range l.length).any fun j => rtw88ReadSuite d (i + j * 4) == suite)
      = decide (suite ∈ l) := by
  apply Bool.eq_iff_iff.2
  rw [List.any_eq_true, decide_eq_true_iff]
  conv => rhs; rw [← h, Codec.readN, List.mem_map]
  refine exists_congr fun j => and_congr_right fun _ => ?_
  rw [beq_iff_eq]
  rfl

-- ==================================================================== fields

/-- Where the AKM count stands. -/
def RsnBody.akmsOff (r : RsnBody) : Nat := 8 + r.pairwise.length * 4

theorem le16At_of_drop {d rest : List UInt8} {i n : Nat} (hn : n < 2 ^ 16)
    (h : d.drop i = le16 (UInt16.ofNat n) ++ rest) :
    (le16At d i).toNat = n := by
  rw [le16_of_drop h, UInt16.toNat_ofNat', Nat.mod_eq_of_lt hn]

theorem RsnBody.bytes_length (r : RsnBody) :
    r.bytes.length
      = 8 + r.pairwise.length * 4 + 2 + r.akms.length * 4 + r.rest.length := by
  have hgroup : (rtw88WriteSuite r.group).length = 4 := rfl
  have hpairwise : (r.pairwise.flatMap rtw88WriteSuite).length
      = r.pairwise.length * 4 := suites.writeAll_length r.pairwise
  have hakms : (r.akms.flatMap rtw88WriteSuite).length
      = r.akms.length * 4 := suites.writeAll_length r.akms
  simp only [RsnBody.bytes, List.length_append, hgroup, hpairwise, hakms,
    le16_length, List.Vector.toList_length]
  omega

/-- The fields of a body, each where the parser looks for it. -/
structure RsnBody.ReadsAs (r : RsnBody) (d : List UInt8) : Prop where
  group : rtw88ReadSuite d 2 = r.group
  pairwiseCount : (le16At d 6).toNat = r.pairwise.length
  pairwise : suites.readN d 8 r.pairwise.length = r.pairwise
  akmCount : (le16At d r.akmsOff).toNat = r.akms.length
  akms : suites.readN d (r.akmsOff + 2) r.akms.length = r.akms
  long : r.akmsOff + 2 + r.akms.length * 4 ≤ d.length

/-- The bytes of a body read as that body. -/
theorem RsnBody.reads_bytes (r : RsnBody) : r.ReadsAs r.bytes := by
  have hversion : r.bytes.drop 0 = r.version.toList ++ _ := rfl
  have hgroup := drop_add_of_append hversion r.version.toList_length
  have hpcount := drop_add_of_append (n := 4) hgroup rfl
  have hpairwise := drop_add_of_append (n := 2) hpcount rfl
  have hacount := drop_add_of_append hpairwise
    (suites.writeAll_length r.pairwise)
  have hakms := drop_add_of_append (n := 2) hacount rfl
  refine ⟨?_, ?_, ?_, ?_, ?_, ?_⟩
  · exact rtw88ReadSuite_of_drop hgroup
  · exact le16At_of_drop r.pairwise_count hpcount
  · exact suites.readN_of_drop hpairwise
  · exact le16At_of_drop r.akms_count hacount
  · exact suites.readN_of_drop hakms
  · rw [r.bytes_length, RsnBody.akmsOff]
    exact Nat.le_add_right _ _

-- ================================================================= selection

/-- The suites to ask for: CCMP, and the group suite if it is one the
driver knows. -/
def RsnBody.selected (r : RsnBody) : UInt32 × UInt32 :=
  (cipherCcmp,
    if r.group ≠ cipherCcmp ∧ r.group ≠ cipherTkip then cipherCcmp
    else r.group)

variable {r : RsnBody} {d : List UInt8}

/-- Where a body stands, the parser looks at its lists. -/
theorem RsnBody.ReadsAs.select (h : r.ReadsAs d) :
    rtw88RsnSelectCcmpPsk d
      = if cipherCcmp ∈ r.pairwise ∧ akmPsk ∈ r.akms then some r.selected
        else none := by
  have hlong := h.long
  rw [RsnBody.akmsOff] at hlong
  have hccmp := any_suite h.pairwise cipherCcmp
  have hpsk := any_suite h.akms akmPsk
  rw [RsnBody.akmsOff] at hpsk
  have hcount := h.akmCount
  rw [RsnBody.akmsOff] at hcount
  simp only [rtw88RsnSelectCcmpPsk]
  rw [if_neg (by omega), h.pairwiseCount, if_neg (by omega),
    if_neg (by omega), hcount, if_neg (by omega), hccmp, hpsk, h.group]
  by_cases hc : cipherCcmp ∈ r.pairwise
  · by_cases hp : akmPsk ∈ r.akms
    · rw [decide_eq_true hc, decide_eq_true hp, if_pos (And.intro hc hp),
        selected]
      show (if r.group ≠ cipherCcmp ∧ r.group ≠ cipherTkip then _
        else _) = _
      split <;> rfl
    · rw [decide_eq_false hp, if_neg fun hoffer => hp (And.right hoffer),
        Bool.not_false, Bool.or_true, if_pos rfl]
  · rw [decide_eq_false hc, if_neg fun hoffer => hc (And.left hoffer),
      Bool.not_false, Bool.true_or, if_pos rfl]

/-- On such bytes the parser asks for CCMP and PSK, and keeps the group suite
or makes it CCMP. -/
theorem select_bytes (r : RsnBody) :
    rtw88RsnSelectCcmpPsk r.bytes
      = if cipherCcmp ∈ r.pairwise ∧ akmPsk ∈ r.akms then some r.selected
        else none := r.reads_bytes.select

/-- So order and repetition do not matter. -/
theorem select_congr {r r' : RsnBody} (hgroup : r.group = r'.group)
    (hpairwise : ∀ x, x ∈ r.pairwise ↔ x ∈ r'.pairwise)
    (hakms : ∀ x, x ∈ r.akms ↔ x ∈ r'.akms) :
    rtw88RsnSelectCcmpPsk r.bytes = rtw88RsnSelectCcmpPsk r'.bytes := by
  simp only [select_bytes, RsnBody.selected, hgroup, hpairwise, hakms]

-- ================================================================== grammar

/-- The body that stands in a byte string. -/
def RsnBody.parse (d : List UInt8) : RsnBody where
  version := grab d 0 2
  group := rtw88ReadSuite d 2
  pairwise := suites.readN d 8 (le16At d 6).toNat
  akms := suites.readN d (8 + (le16At d 6).toNat * 4 + 2)
    (le16At d (8 + (le16At d 6).toNat * 4)).toNat
  rest := d.drop (8 + (le16At d 6).toNat * 4 + 2
    + (le16At d (8 + (le16At d 6).toNat * 4)).toNat * 4)
  pairwise_count := by
    rw [Codec.readN_length]
    exact (le16At d 6).toNat_lt
  akms_count := by
    rw [Codec.readN_length]
    exact (le16At d _).toNat_lt

/-- A slice, and what is behind it. -/
theorem slice_append_drop {i j n : Nat} (h : i + n = j) :
    (d.drop i).take n ++ d.drop j = d.drop i := by
  rw [← h, ← List.drop_drop, List.take_append_drop]

/-- Two bytes in one integer, the low one first. -/
private theorem half_bytes (a b : UInt8) :
    let x := a.toUInt16 ||| (b.toUInt16 <<< 8)
    x.toUInt8 = a ∧ (x >>> 8).toUInt8 = b := by
  refine ⟨?_, ?_⟩ <;>
    (apply UInt8.toBitVec_inj.1
     apply BitVec.eq_of_getLsbD_eq
     intro i hi
     simp only [UInt16.toBitVec_toUInt8, UInt16.toBitVec_shiftRight,
       UInt16.toBitVec_or, UInt16.toBitVec_shiftLeft,
       UInt8.toBitVec_toUInt16, BitVec.getLsbD_setWidth,
       UInt16.toBitVec_ofNat, BitVec.ofNat_eq_ofNat, BitVec.reduceMod,
       BitVec.ushiftRight_eq', BitVec.toNat_ofNat, Nat.reducePow,
       Nat.reduceMod, BitVec.shiftLeft_eq', BitVec.getLsbD_shiftLeft,
       BitVec.getLsbD_ushiftRight, BitVec.getLsbD_or]
     grind)

theorem le16_le16At {i : Nat} (h : i + 2 ≤ d.length) :
    le16 (le16At d i) = (d.drop i).take 2 := by
  obtain ⟨hlow, hhigh⟩ := half_bytes (peek d i) (peek d (i + 1))
  rw [← grab_eq_slice h]
  unfold le16 le16At
  rw [hlow, hhigh]
  rfl

/-- A count of a list that was read. -/
theorem le16_readN {i j : Nat} (h : i + 2 ≤ d.length) :
    le16 (UInt16.ofNat (suites.readN d j (le16At d i).toNat).length)
      = (d.drop i).take 2 := by
  rw [Codec.readN_length, UInt16.ofNat_toNat, le16_le16At h]

/-- Long enough for its counts, a byte string is a body. -/
theorem bytes_parse {m k : Nat} (hm : (le16At d 6).toNat = m)
    (hk : (le16At d (8 + m * 4)).toNat = k)
    (h : 8 + m * 4 + 2 + k * 4 ≤ d.length) : (RsnBody.parse d).bytes = d := by
  have hversion : (grab d 0 2).toList = (d.drop 0).take 2 :=
    grab_eq_slice (by omega)
  have hgroup : rtw88WriteSuite (rtw88ReadSuite d 2) = (d.drop 2).take 4 :=
    rtw88WriteSuite_read (by omega)
  have hpcount := @le16_readN d 6 8 (by omega)
  have hpairwise : (suites.readN d 8 m).flatMap rtw88WriteSuite
      = (d.drop 8).take (m * 4) :=
    suites.writeAll_readN (show 8 + m * 4 ≤ _ by omega)
  have hacount := @le16_readN d (8 + m * 4) (8 + m * 4 + 2) (by omega)
  have hakms : (suites.readN d (8 + m * 4 + 2) k).flatMap rtw88WriteSuite
      = (d.drop (8 + m * 4 + 2)).take (k * 4) :=
    suites.writeAll_readN (show 8 + m * 4 + 2 + k * 4 ≤ _ by omega)
  rw [hm] at hpcount
  rw [hk] at hacount
  rw [RsnBody.bytes, RsnBody.parse]
  simp only [hm, hk]
  rw [hversion, hgroup, hpcount, hpairwise, hacount, hakms,
    slice_append_drop rfl, slice_append_drop rfl, slice_append_drop rfl,
    slice_append_drop rfl, slice_append_drop rfl, slice_append_drop rfl]
  rfl

/-- Too short for its counts, it is refused. -/
theorem select_short
    (h : d.length < 8 + (le16At d 6).toNat * 4 + 2
      + (le16At d (8 + (le16At d 6).toNat * 4)).toNat * 4) :
    rtw88RsnSelectCcmpPsk d = none := by
  simp only [rtw88RsnSelectCcmpPsk]
  split
  · rfl
  · split
    · rfl
    · split
      · rfl
      · rfl

/-- What is accepted is a body. -/
theorem body_of_select (h : (rtw88RsnSelectCcmpPsk d).isSome = true) :
    ∃ r : RsnBody, d = r.bytes := by
  refine ⟨.parse d, (bytes_parse rfl rfl (Nat.le_of_not_lt ?_)).symm⟩
  intro hshort
  rw [select_short hshort] at h
  cases h

/-- And one that offers CCMP with PSK. -/
theorem select_isSome_iff :
    (rtw88RsnSelectCcmpPsk d).isSome = true
      ↔ ∃ r : RsnBody, d = r.bytes ∧ r.OffersCcmpPsk := by
  have hoffer : ∀ r : RsnBody,
      (rtw88RsnSelectCcmpPsk r.bytes).isSome = true ↔ r.OffersCcmpPsk := by
    intro r
    rw [select_bytes]
    split
    next h => exact ⟨fun _ => ⟨h.1, h.2⟩, fun _ => rfl⟩
    next h =>
      refine ⟨fun hnone => (by cases hnone), fun hr => ?_⟩
      exact absurd ⟨hr.ccmp, hr.psk⟩ h
  constructor
  · intro h
    obtain ⟨r, rfl⟩ := body_of_select h
    exact ⟨r, rfl, (hoffer r).1 h⟩
  · rintro ⟨r, rfl, hr⟩
    exact (hoffer r).2 hr

-- ================================================================== outputs

/-- The outputs are stored when the suites are selected, and only then. -/
theorem rtw88RsnSelectCcmpPskOut_eq (rsn : List UInt8) (out : RsnOut) :
    rtw88RsnSelectCcmpPskOut rsn out
      = ((rtw88RsnSelectCcmpPsk rsn).isSome,
        (rtw88RsnSelectCcmpPsk rsn).elim out fun r => out.store r.1 r.2) := by
  simp only [rtw88RsnSelectCcmpPskOut, rtw88RsnSelectCcmpPsk]
  repeat' split
  all_goals rfl

/-- `rtw88RsnSelectCcmpPsk` accepts the bodies of RSN elements that offer
CCMP with PSK and nothing else, without a look outside; the order and
the repetition of the suites do not matter, and what it refuses leaves
the outputs as they were. -/
theorem rsn_parser_exact :
    (∀ rsn out, (rtw88RsnSelectCcmpPskOut rsn out).1 = true
      ↔ ∃ r : RsnBody, rsn = r.bytes ∧ r.OffersCcmpPsk)
    ∧ (∀ rsn out, (rtw88RsnSelectCcmpPskT 0 rsn).Looks rsn.length
      ∧ rtw88RsnSelectCcmpPskOut rsn out
        = ((rtw88RsnSelectCcmpPskT 0 rsn).val.isSome,
          (rtw88RsnSelectCcmpPskT 0 rsn).val.elim out
            fun r => out.store r.1 r.2))
    ∧ (∀ (r r' : RsnBody) (out : RsnOut), r.group = r'.group →
      (∀ x, x ∈ r.pairwise ↔ x ∈ r'.pairwise) →
      (∀ x, x ∈ r.akms ↔ x ∈ r'.akms) →
      rtw88RsnSelectCcmpPskOut r.bytes out
        = rtw88RsnSelectCcmpPskOut r'.bytes out)
    ∧ ∀ rsn out, (rtw88RsnSelectCcmpPskOut rsn out).1 = false →
      (rtw88RsnSelectCcmpPskOut rsn out).2 = out := by
  refine ⟨fun rsn out => ?_, fun rsn out => ⟨?_, ?_⟩, ?_, ?_⟩
  · rw [rtw88RsnSelectCcmpPskOut_eq]
    exact select_isSome_iff
  · exact rtw88RsnSelectCcmpPskT_looks (by omega)
  · rw [rtw88RsnSelectCcmpPskT_val, rtw88RsnSelectCcmpPskOut_eq]
  · intro r r' out hgroup hpairwise hakms
    rw [rtw88RsnSelectCcmpPskOut_eq, rtw88RsnSelectCcmpPskOut_eq,
      select_congr hgroup hpairwise hakms]
  · intro rsn out hfalse
    rw [rtw88RsnSelectCcmpPskOut_eq] at hfalse ⊢
    rw [Option.isSome_eq_false_iff, Option.isNone_iff_eq_none] at hfalse
    rw [hfalse]
    rfl

-- ============================================================== negotiation

/-- The body of the element that is built. -/
def selectedBody (group : UInt32) : RsnBody where
  version := ⟨[1, 0], rfl⟩
  group := if group = cipherTkip then cipherTkip else cipherCcmp
  pairwise := [cipherCcmp]
  akms := [akmPsk]
  rest := [0, 0]
  pairwise_count := by decide
  akms_count := by decide

/-- What is built is an element with one suite of each kind. -/
theorem rtw88BuildSelectedRsnIe_eq (group : UInt32) :
    rtw88BuildSelectedRsnIe group = (selectedBody group).element := by
  have hone : le16 (UInt16.ofNat 1) = [1, 0] := rfl
  have hlen : (selectedBody group).bytes.length = 20 :=
    (selectedBody group).bytes_length
  have hpairwise : le16 (UInt16.ofNat (selectedBody group).pairwise.length)
      = [1, 0] := hone
  have hakms : le16 (UInt16.ofNat (selectedBody group).akms.length)
      = [1, 0] := hone
  rw [RsnBody.element, hlen, RsnBody.bytes, hpairwise, hakms]
  rfl

theorem element_group (r : RsnBody) : rtw88ReadSuite r.element 4 = r.group :=
  r.reads_bytes.group

/-- An element negotiated names the group suite of the AP's. -/
theorem Negotiated.group {rsn elem : List UInt8} (h : Negotiated rsn elem) :
    rtw88ReadSuite elem 4 = rtw88ReadSuite rsn 2 := by
  obtain ⟨ap, own, rfl, rfl, hgroup, -⟩ := h
  rw [element_group, ap.reads_bytes.group, hgroup]

/-- Both substitutes are CCMP: what is asked for is the group suite of the
AP's element exactly if the driver knows it. -/
theorem selectedBody_group (r : RsnBody) :
    (selectedBody r.selected.2).group = r.group
      ↔ r.group = cipherCcmp ∨ r.group = cipherTkip := by
  show (if r.selected.2 = cipherTkip then cipherTkip else cipherCcmp) = _ ↔ _
  rw [RsnBody.selected]
  by_cases htkip : r.group = cipherTkip
  · rw [htkip]
    decide
  · by_cases hccmp : r.group = cipherCcmp
    · rw [hccmp]
      decide
    · have hother : (if r.group ≠ cipherCcmp ∧ r.group ≠ cipherTkip
          then cipherCcmp else r.group) = cipherCcmp :=
        if_pos ⟨hccmp, htkip⟩
      have hne : cipherCcmp ≠ cipherTkip := by decide
      simp only [hother, if_neg hne]
      exact ⟨fun heq => absurd heq.symm hccmp,
        fun hknown => absurd hknown (not_or.2 ⟨hccmp, htkip⟩)⟩

/-- What is stored in the entry of a scan. -/
theorem scanField_rsn (b : RTW88BSS) {r : RsnBody} (h : r.OffersCcmpPsk) :
    (scanField b { id := eidRsn, body := r.bytes }).groupCipher
      = r.selected.2 := by
  have hselect := select_bytes r
  rw [if_pos (And.intro h.ccmp h.psk)] at hselect
  have hssid : eidRsn ≠ eidSsid := by decide
  have hds : eidRsn ≠ eidDsParams := by decide
  have hht : eidRsn ≠ eidHtOperation := by decide
  unfold scanField
  rw [if_neg fun h => hssid h.1, if_neg fun h => hds h.1,
    if_neg fun h => hht h.1, if_pos rfl]
  simp only [hselect]

/-- The element built for what was accepted asks for what is offered if
and only if the group suite is CCMP or TKIP. -/
theorem rsn_negotiated_iff (b : RTW88BSS) {rsn : List UInt8}
    (h : (rtw88RsnSelectCcmpPsk rsn).isSome = true) :
    Negotiated rsn (rtw88BuildSelectedRsnIe
        (scanField b { id := eidRsn, body := rsn }).groupCipher)
      ↔ rtw88ReadSuite rsn 2 = cipherCcmp
        ∨ rtw88ReadSuite rsn 2 = cipherTkip := by
  obtain ⟨r, rfl, hoffer⟩ := select_isSome_iff.1 h
  rw [scanField_rsn b hoffer, rtw88BuildSelectedRsnIe_eq, r.reads_bytes.group]
  constructor
  · intro hneg
    have hgroup := hneg.group
    rw [element_group, r.reads_bytes.group] at hgroup
    exact (selectedBody_group r).1 hgroup
  · intro hknown
    refine ⟨r, selectedBody r.selected.2, rfl, rfl, ?_,
      List.cons_ne_nil _ _, ?_, List.cons_ne_nil _ _, ?_⟩
    · exact (selectedBody_group r).2 hknown
    · intro x hx
      rw [List.mem_singleton.1 hx]
      exact hoffer.ccmp
    · intro x hx
      rw [List.mem_singleton.1 hx]
      exact hoffer.psk

/-- The body of an RSN element: this group suite, pairwise CCMP, PSK. -/
def sampleRsn (group : UInt32) : List UInt8 :=
  [1, 0] ++ rtw88WriteSuite group ++ [1, 0] ++ rtw88WriteSuite cipherCcmp
    ++ [1, 0] ++ rtw88WriteSuite akmPsk ++ [0, 0]

/-- A network with a TKIP group. -/
theorem sample_rsn_negotiated :
    Negotiated (sampleRsn cipherTkip) (rtw88BuildSelectedRsnIe
      (scanField .zero
        { id := eidRsn, body := sampleRsn cipherTkip }).groupCipher) :=
  (rsn_negotiated_iff .zero (by decide)).2 (.inr (by decide))

/-- With the group suite WEP-104 (00-0f-ac:5), CCMP is asked for. -/
theorem wep_group_replaced :
    (rtw88RsnSelectCcmpPsk (sampleRsn 0x000FAC05)).isSome = true
      ∧ ¬ Negotiated (sampleRsn 0x000FAC05) (rtw88BuildSelectedRsnIe
        (scanField .zero
          { id := eidRsn, body := sampleRsn 0x000FAC05 }).groupCipher) := by
  refine ⟨by decide, fun h => ?_⟩
  have hgroup := h.group
  revert hgroup
  decide

end Rtw88
