/-
`cmdConnect` against connecting by octets: `connects_exactly_iff`.

`strlen` reads up to and including the first zero byte
(`strlenFrom_spec`), so a search stays inside the caller's block exactly
if the block has one. What the search computes is `findBss`
(`findBssAt_spec`); an entry found is the one asked for exactly if its SSID
is `StandsClean` (`octets_of_same`).

# Strings

The caller's block has two character arrays, the SSID and the password,
and the command takes both for C strings. A C string is the front of the
memory it stands in (`take_cStr`), so the SSID may end inside its array
or run on into the password, and the password into what is not the
caller's. Whether a string ends in the block is a question about a zero
byte (`cStr_ends_iff`).

# The equivalence

An entry of the list holds its SSID with a zero behind it, and the octets
of the SSID may contain zeros themselves. So two things have to come
together for the call to be right: the string that is looked for has to
be the octets that were asked for, and the entry that compares equal has
to be one that reads as its own octets. The first entry that compares
equal is the only one that matters (`findBss_first`), and if there is
none the call must leave the driver disconnected (`connectTo_none`).
-/
import Rtw88.Proofs.AssocReq
import Rtw88.Proofs.Beacon
import Rtw88.Proofs.Link.View
import Rtw88.Spec.CmdConnect

namespace Rtw88

open Traced

-- ================================================================== strings

/-- A string is no longer than its bytes. -/
theorem cStr_length_le (d : List UInt8) : (cStr d).length ≤ d.length :=
  (List.takeWhile_prefix _).length_le

/-- A C string is the front of the memory it stands in. -/
theorem take_cStr (d : List UInt8) : d.take (cStr d).length = cStr d :=
  (List.prefix_iff_eq_take.1 (List.takeWhile_prefix _)).symm

/-- Where there is a zero byte the string ends before it, … -/
theorem cStr_append_of_mem {as : List UInt8} (bs : List UInt8)
    (h : 0 ∈ as) : cStr (as ++ bs) = cStr as ∧ (cStr as).length < as.length := by
  induction as with
  | nil => cases h
  | cons a as ih =>
      unfold cStr at *
      by_cases ha : a = 0
      · rw [ha, List.cons_append, List.takeWhile_cons, List.takeWhile_cons]
        exact ⟨rfl, Nat.zero_lt_succ _⟩
      · have hmem : 0 ∈ as := by
          rcases List.mem_cons.1 h with h0 | h
          · exact absurd h0.symm ha
          · exact h
        obtain ⟨heq, hlen⟩ := ih hmem
        rw [List.cons_append, List.takeWhile_cons, List.takeWhile_cons,
          if_pos (by simp [ha]), if_pos (by simp [ha]), heq]
        exact ⟨rfl, Nat.succ_lt_succ hlen⟩

/-- … and where there is none it does not end. -/
theorem cStr_append_of_not_mem {as : List UInt8} (bs : List UInt8)
    (h : 0 ∉ as) : cStr (as ++ bs) = as ++ cStr bs := by
  unfold cStr
  rw [List.takeWhile_append_of_pos]
  intro a ha
  have hne : a ≠ 0 := fun h0 => h (h0 ▸ ha)
  simp [hne]

/-- A string ends in a block exactly if the block has a zero byte. -/
theorem cStr_ends_iff {as bs : List UInt8} {n : Nat} (hn : as.length = n) :
    (cStr (as ++ bs)).length + 1 ≤ n ↔ 0 ∈ as := by
  by_cases h : (0 : UInt8) ∈ as
  · obtain ⟨heq, hlen⟩ := cStr_append_of_mem bs h
    rw [heq]
    exact iff_of_true (by omega) h
  · rw [cStr_append_of_not_mem bs h, List.length_append]
    exact iff_of_false (by omega) h

/-- `strlen` answers the length and reads the string and its end. -/
theorem strlenFrom_spec {d : List UInt8} {k i : Nat} (hi : i ≤ d.length)
    (hk : d.length < i + k) :
    (strlenFrom d k i).val = (cStr (d.drop i)).length
      ∧ ∀ n, (strlenFrom d k i).Fits n
        ↔ i + (cStr (d.drop i)).length + 1 ≤ n := by
  induction k generalizing i with
  | zero => omega
  | succ k ih =>
      rw [strlenFrom]
      by_cases hend : i = d.length
      · -- the end of what is modelled of the memory reads as zero
        have hzero : peek d i = 0 := by
          rw [hend, peek, List.getD_eq_getElem?_getD,
            List.getElem?_eq_none (Nat.le_refl _), Option.getD_none]
        have hnil : d.drop i = [] := by
          rw [hend, List.drop_length]
        rw [hnil]
        refine ⟨?_, fun n => ?_⟩
        · rw [val_bind, readByte_val, if_pos hzero]
          rfl
        · rw [fits_bind, readByte_val, if_pos hzero, fits_readByte]
          simp [cStr]
      · have hlt : i < d.length := by omega
        have hpeek : peek d i = d[i] := by
          rw [peek, List.getD_eq_getElem?_getD,
            List.getElem?_eq_getElem hlt, Option.getD_some]
        rw [List.drop_eq_getElem_cons hlt]
        obtain ⟨hval, hfits⟩ := ih (i := i + 1) (by omega) (by omega)
        by_cases hzero : d[i] = 0
        · have hstr : cStr (d[i] :: d.drop (i + 1)) = [] := by
            rw [hzero]
            rfl
          rw [hstr]
          refine ⟨?_, fun n => ?_⟩
          · rw [val_bind, readByte_val, hpeek, if_pos hzero]
            rfl
          · rw [fits_bind, readByte_val, hpeek, if_pos hzero, fits_readByte]
            simp
        · have hstr : cStr (d[i] :: d.drop (i + 1))
              = d[i] :: cStr (d.drop (i + 1)) := by
            unfold cStr
            rw [List.takeWhile_cons, if_pos (by simp [hzero])]
          rw [hstr, List.length_cons]
          refine ⟨?_, fun n => ?_⟩
          · rw [val_bind, readByte_val, hpeek, if_neg hzero, val_bind,
              val_pure, hval]
          · rw [fits_bind, readByte_val, hpeek, if_neg hzero, fits_bind,
              fits_readByte, hfits]
            simp only [fits_pure, and_true]
            omega

theorem strlenAt_val {d : List UInt8} {i : Nat} (hi : i ≤ d.length) :
    (strlenAt d i).val = (cStr (d.drop i)).length :=
  (strlenFrom_spec hi (by omega)).1

/-- It reads the string and its terminator. -/
theorem fits_strlenAt {d : List UInt8} {i n : Nat} (hi : i ≤ d.length) :
    (strlenAt d i).Fits n ↔ i + (cStr (d.drop i)).length + 1 ≤ n :=
  (strlenFrom_spec hi (by omega)).2 n

/-- A copy of the string or of its front stays where `strlen` was. -/
theorem strlcpyAt_spec {d : List UInt8} {i : Nat} (size : Nat)
    (hi : i ≤ d.length) :
    (strlcpyAt d i size).val = (cStr (d.drop i)).take (size - 1)
      ∧ ∀ n, (strlcpyAt d i size).Fits n
        ↔ i + (cStr (d.drop i)).length + 1 ≤ n := by
  have hle := cStr_length_le (d.drop i)
  rw [List.length_drop] at hle
  unfold strlcpyAt
  refine ⟨?_, fun n => ?_⟩
  · rw [val_bind, strlenAt_val hi, val_bind, val_pure, copy_val,
      grab_eq_slice (by omega), Nat.min_comm, ← List.take_take, take_cStr]
  · rw [fits_bind, strlenAt_val hi, fits_strlenAt hi, fits_bind, fits_copy]
    simp only [fits_pure, and_true]
    omega

-- =================================================================== search

/-- The comparison of the search is that of the strings. -/
theorem sameString_iff (d : List UInt8) (b : RTW88BSS) :
    (cStr b.ssid.toList).length = (cStr d).length
        ∧ b.ssid.toList.take (cStr d).length
          = (grab d 0 (cStr d).length).toList
      ↔ SameString d b := by
  have hgrab : (grab d 0 (cStr d).length).toList = cStr d := by
    have hle := cStr_length_le d
    rw [grab_eq_slice (by omega), List.drop_zero, take_cStr]
  rw [hgrab]
  unfold SameString
  constructor
  · rintro ⟨hlen, heq⟩
    rw [← heq, ← hlen, take_cStr]
  · intro heq
    rw [heq]
    refine ⟨rfl, ?_⟩
    rw [← heq, take_cStr]

/-- An entry of that name in front is found. -/
theorem findBss_cons_same {d : List UInt8} {b : RTW88BSS}
    (h : SameString d b) (bs : List RTW88BSS) :
    findBss d (b :: bs) = some b := by
  unfold findBss
  rw [List.find?_cons, beq_iff_eq.2 h]

theorem findBss_cons_other {d : List UInt8} {b : RTW88BSS}
    (h : ¬ SameString d b) (bs : List RTW88BSS) :
    findBss d (b :: bs) = findBss d bs := by
  unfold findBss
  rw [List.find?_cons, beq_eq_false_iff_ne.2 h]

/-- The search finds the first entry that compares equal. It reads the
string asked for, again and again. -/
theorem findBssAt_spec (d : List UInt8) (l : List RTW88BSS) :
    (findBssAt d l).val = findBss d l
      ∧ ∀ n, (findBssAt d l).Fits n ↔ l = [] ∨ (cStr d).length + 1 ≤ n := by
  have hstr : d.drop 0 = d := List.drop_zero
  have hlen := strlenAt_val (Nat.zero_le d.length)
  rw [hstr] at hlen
  have hread : ∀ n, (strlenAt d 0).Fits n ↔ (cStr d).length + 1 ≤ n := by
    intro n
    rw [fits_strlenAt (Nat.zero_le _), hstr, Nat.zero_add]
  induction l with
  | nil => exact ⟨rfl, fun n => iff_of_true (fits_pure none) (.inl rfl)⟩
  | cons b bs ih =>
      obtain ⟨hval, hfits⟩ := ih
      have hiff := sameString_iff d b
      rw [findBssAt]
      by_cases hlens : (cStr b.ssid.toList).length = (cStr d).length
      · by_cases hbytes : b.ssid.toList.take (cStr d).length
            = (grab d 0 (cStr d).length).toList
        · rw [findBss_cons_same (hiff.1 ⟨hlens, hbytes⟩)]
          refine ⟨?_, fun n => ?_⟩
          · rw [val_bind, hlen, if_pos hlens, val_bind, copy_val,
              if_pos hbytes, val_pure]
          · rw [fits_bind, hlen, hread, if_pos hlens, fits_bind, copy_val,
              if_pos hbytes, fits_copy]
            simp only [fits_pure, and_true, reduceCtorEq, false_or]
            omega
        · rw [findBss_cons_other fun h => hbytes (hiff.2 h).2]
          refine ⟨?_, fun n => ?_⟩
          · rw [val_bind, hlen, if_pos hlens, val_bind, copy_val,
              if_neg hbytes, hval]
          · rw [fits_bind, hlen, hread, if_pos hlens, fits_bind, copy_val,
              if_neg hbytes, fits_copy, hfits]
            simp only [reduceCtorEq, false_or]
            omega
      · rw [findBss_cons_other fun h => hlens (hiff.2 h).1]
        refine ⟨?_, fun n => ?_⟩
        · rw [val_bind, hlen, if_neg hlens, hval]
        · rw [fits_bind, hlen, hread, if_neg hlens, hfits]
          simp only [reduceCtorEq, false_or]
          exact ⟨fun h => h.1, fun h => ⟨h, .inr h⟩⟩

/-- It finds the first that compares equal. -/
theorem findBss_some {d : List UInt8} {l : List RTW88BSS} {b : RTW88BSS}
    (h : findBss d l = some b) :
    SameString d b ∧ ∃ pre post, l = pre ++ b :: post
      ∧ ∀ a ∈ pre, ¬ SameString d a := by
  obtain ⟨hb, pre, post, heq, hpre⟩ := List.find?_eq_some_iff_append.1 h
  refine ⟨beq_iff_eq.1 hb, pre, post, heq, fun a ha hsame => ?_⟩
  have hno := hpre a ha
  rw [beq_iff_eq.2 hsame] at hno
  cases hno

/-- It stops at the first. -/
theorem findBss_first {d : List UInt8} {pre : List RTW88BSS}
    {b : RTW88BSS} (h : SameString d b)
    (hpre : ∀ a ∈ pre, ¬ SameString d a) (post : List RTW88BSS) :
    findBss d (pre ++ b :: post) = some b := by
  induction pre with
  | nil => exact findBss_cons_same h post
  | cons a pre ih =>
      rw [List.cons_append, findBss_cons_other (hpre a List.mem_cons_self)]
      exact ih fun a ha => hpre a (List.mem_cons_of_mem _ ha)

/-- Nothing is found where no entry has the name. -/
theorem findBss_none {d : List UInt8} {l : List RTW88BSS}
    (h : findBss d l = none) : ∀ b ∈ l, ¬ SameString d b := by
  intro b hb hsame
  exact List.find?_eq_none.1 h b hb (beq_iff_eq.2 hsame)

-- ================================================================== commands

/-- Giving up the last link leaves the list and the target. -/
theorem released_keeps (s : Mlme) :
    (releaseSta (clearKeys s)).bssList = s.bssList
      ∧ SameTarget s (releaseSta (clearKeys s)) := by
  have hview : ∃ sta pn ptk pk gk ba rx trail,
      view (releaseSta (clearKeys s)) = { view s with
        sta := sta, pn := pn, ptk := ptk, ptkConf := pk, gtkConf := gk
        txBaActive := ba, rxBa := rx, trail := trail } := by
    cases hsta : (clearKeys s).sta with
    | none =>
        rw [releaseSta_none hsta, view_clearKeys]
        exact ⟨_, _, _, _, _, _, _, _, rfl⟩
    | some sta =>
        rw [view_releaseSta_some hsta, view_clearKeys]
        exact ⟨_, _, _, _, _, _, _, _, rfl⟩
  obtain ⟨sta, pn, ptk, pk, gk, ba, rx, trail, heq⟩ := hview
  exact ⟨congrArg Link.entries heq, congrArg Link.target heq,
    congrArg Link.password heq, congrArg Link.wpa2 heq,
    congrArg Link.state heq⟩

/-- `cmdConnect` on the caller's memory computes what it computes on the
strings that stand there, and reads what it has to of them. -/
theorem cmdConnectAt_spec {d : List UInt8} {s : Mlme}
    (hidle : s.state = .idle) (hoff : passwordOff ≤ d.length) :
    (cmdConnectAt d s).val = connectTo (some d) (d.drop passwordOff) s
      ∧ ∀ n, (cmdConnectAt d s).Fits n
        ↔ (s.bssList = [] ∨ (cStr d).length + 1 ≤ n)
          ∧ ∀ b, findBss d s.bssList = some b →
            passwordOff + (cStr (d.drop passwordOff)).length + 1 ≤ n := by
  obtain ⟨hlist, -⟩ := released_keeps s
  obtain ⟨hval, hfits⟩ := findBssAt_spec d s.bssList
  obtain ⟨hcpy, hcpyFits⟩ := strlcpyAt_spec 64 hoff
  unfold cmdConnectAt connectTo
  rw [if_neg (not_not.2 hidle), if_neg (not_not.2 hidle)]
  dsimp only
  rw [hlist]
  refine ⟨?_, fun n => ?_⟩
  · rw [val_bind, hval]
    cases findBss d s.bssList with
    | none => rfl
    | some b =>
        dsimp only
        rw [val_bind, hcpy]
        rfl
  · rw [fits_bind, hval, hfits]
    cases findBss d s.bssList with
    | none => simp
    | some b =>
        dsimp only
        rw [fits_bind, hcpyFits]
        simp only [fits_pure, and_true, Option.some.injEq, forall_eq']

-- =================================================================== entries

/-- What `processScanResult` builds are C strings of at most 32 bytes. -/
theorem ScanList.entry {l : List RTW88BSS} (h : ScanList l) :
    ∀ b ∈ l, b.ssidLen.toNat ≤ 32 ∧ (cStr b.ssid.toList).length ≤ 32 := by
  induction h with
  | nil =>
      intro b hb
      cases hb
  | frame env skb h ih =>
      rename_i s
      have hnew : (scanEntry skb s.scanGeneration).ssidLen.toNat ≤ 32
          ∧ (cStr (scanEntry skb s.scanGeneration).ssid.toList).length
            ≤ 32 := by
        obtain ⟨hlen, hterm, -, -⟩ := scanEntry_ok skb s.scanGeneration
        refine ⟨hlen, ?_⟩
        generalize (scanEntry skb s.scanGeneration).ssid = ssid at hterm
        have h33 : ssid.toList.length = 33 := ssid.toList_length
        have hmem : 0 ∈ ssid.toList := by
          rw [peek, List.getD_eq_getElem?_getD,
            List.getElem?_eq_getElem (by omega), Option.getD_some] at hterm
          rw [← hterm]
          exact List.getElem_mem _
        have hlt := (cStr_append_of_mem [] hmem).2
        omega
      by_cases hscan : Scanned env skb
      · intro b hb
        rcases processScanResult_recorded hscan s with
          ⟨l₁, old, l₂, heq, -, hnow⟩ | ⟨-, hnow⟩
        · rw [hnow] at hb
          rcases List.mem_append.1 hb with hb | hb
          · exact ih b (heq ▸ List.mem_append_left _ hb)
          · rcases List.mem_cons.1 hb with rfl | hb
            · exact hnew
            · exact ih b (heq ▸ List.mem_append_right _
                (List.mem_cons_of_mem _ hb))
        · rw [hnow] at hb
          rcases List.mem_cons.1 hb with rfl | hb
          · exact hnew
          · exact ih b hb
      · rw [processScanResult_dropped hscan]
        exact ih

theorem cStr_take (d : List UInt8) (k : Nat) :
    cStr (d.take k) = (cStr d).take k := by
  unfold cStr
  induction d generalizing k with
  | nil => rw [List.take_nil, List.takeWhile_nil, List.take_nil]
  | cons a d ih =>
      cases k with
      | zero => rfl
      | succ k =>
          rw [List.take_succ_cons, List.takeWhile_cons, List.takeWhile_cons]
          split
          · rw [List.take_succ_cons, ih]
          · rw [List.take_nil]

/-- An entry that compares equal has the SSID asked for exactly if its
own stands clean in its buffer. -/
theorem octets_of_same {args behind : List UInt8} {b : RTW88BSS}
    (hshort : (cStr b.ssid.toList).length ≤ 32)
    (hlen : b.ssidLen.toNat ≤ 32) (hmem : 0 ∈ args)
    (h : SameString (args ++ behind) b) :
    b.octets = requested args ↔ StandsClean b := by
  have hreq : requested args = cStr b.ssid.toList := by
    rw [requested, cStr_take, ← (cStr_append_of_mem behind hmem).1, ← h,
      List.take_of_length_le hshort]
  rw [hreq]
  unfold RTW88BSS.octets StandsClean
  constructor
  · intro heq
    rw [← heq, List.length_take, List.Vector.toList_length,
      Nat.min_eq_left (by omega)]
  · intro heq
    rw [heq, take_cStr]

/-- What follows from a target with the SSID asked for. -/
theorem pursues_of_octets {s : Mlme} {ssid : List UInt8}
    (hlen : s.targetBSS.ssidLen.toNat ≤ 32) (h : s.targetBSS.octets = ssid) :
    Pursues ssid s := by
  have hssid : ssid.length = s.targetBSS.ssidLen.toNat := by
    rw [← h, RTW88BSS.octets, List.length_take, List.Vector.toList_length,
      Nat.min_eq_left (by omega)]
  refine ⟨h, fun pr passphrase => ?_, fun hw => ?_⟩
  · unfold derivePMK
    rw [hssid, Nat.min_eq_left (by omega : s.targetBSS.ssidLen.toNat ≤ 120),
      ← hssid, List.take_length, hssid]
    rw [← h]
    rfl
  · rw [requestElems_build hlen, ← h]
    exact ⟨_, rfl⟩

-- =================================================================== connect

/-- `sConnect` on a full block, with nothing in the way. -/
theorem sConnect_idle {args : List UInt8} (behind : List UInt8) {s : Mlme}
    (hlen : args.length = connectArgsSize) (hidle : s.state = .idle) :
    (sConnect (some args) behind s).val
        = connectTo (some (args ++ behind))
          ((args ++ behind).drop passwordOff) s
      ∧ ((sConnect (some args) behind s).Fits connectArgsSize
        ↔ (s.bssList = [] ∨ 0 ∈ args)
          ∧ ∀ b, findBss (args ++ behind) s.bssList = some b →
            0 ∈ args.drop passwordOff) := by
  have hoff : passwordOff ≤ args.length := by
    rw [hlen]
    decide
  have hd : passwordOff ≤ (args ++ behind).length := by
    rw [List.length_append]
    omega
  have hpw : (args.drop passwordOff).length
      = connectArgsSize - passwordOff := by
    rw [List.length_drop, hlen]
  obtain ⟨hval, hfits⟩ := cmdConnectAt_spec hidle hd
  unfold sConnect
  dsimp only
  rw [if_neg (by omega : ¬ args.length < connectArgsSize)]
  refine ⟨hval, ?_⟩
  rw [hfits, cStr_ends_iff hlen, List.drop_append_of_le_length hoff]
  have hends := @cStr_ends_iff _ behind _ hpw
  have hshift : passwordOff
      + (cStr (args.drop passwordOff ++ behind)).length + 1
        ≤ connectArgsSize ↔ 0 ∈ args.drop passwordOff := by
    rw [← hends]
    unfold connectArgsSize passwordOff
    omega
  simp only [hshift]

/-- A name that is not on the list leaves the driver disconnected. -/
theorem connectTo_none {d p : List UInt8} {s : Mlme}
    (hidle : s.state = .idle) (h : findBss d s.bssList = none) :
    connectTo (some d) p s
      = (.notFound, false, releaseSta (clearKeys s)) := by
  unfold connectTo
  rw [if_neg (not_not.2 hidle)]
  dsimp only
  rw [(released_keeps s).1, h]

/-- One that is becomes the target. -/
theorem connectTo_some {d p : List UInt8} {s : Mlme} {b : RTW88BSS}
    (hidle : s.state = .idle) (h : findBss d s.bssList = some b) :
    (connectTo (some d) p s).1 = .success
      ∧ (connectTo (some d) p s).2.2.targetBSS = b := by
  unfold connectTo
  rw [if_neg (not_not.2 hidle)]
  dsimp only
  rw [(released_keeps s).1, h]
  exact ⟨rfl, rfl⟩

/-- The call is right exactly when the block reads as strings and the
entry that compares equal first is the network asked for. -/
theorem connects_exactly_iff {args : List UInt8}
    (hlen : args.length = connectArgsSize) (behind : List UInt8) {s : Mlme}
    (hidle : s.state = .idle) (hscan : ScanList s.bssList) :
    ConnectsExactly args behind s ↔ ReadsAsString args behind s.bssList := by
  obtain ⟨hval, hinside⟩ := sConnect_idle behind hlen hidle
  obtain ⟨-, hkeeps⟩ := released_keeps s
  cases hfind : findBss (args ++ behind) s.bssList with
  | none =>
      have hno := findBss_none hfind
      rw [connectTo_none hidle hfind] at hval
      constructor
      · intro h
        rcases (hinside.1 h.inside).1 with hnil | hmem
        · exact .inl hnil
        · refine .inr ⟨hmem, ?_, fun _ b hb heq => ?_⟩
          · intro pre b post heq hsame
            exact absurd hsame (hno b (heq ▸ by simp))
          · -- an entry with the SSID asked for would mean success
            have hsucc := h.success.2 ⟨b, hb, heq⟩
            rw [hval] at hsucc
            cases hsucc
      · intro h
        have hall : ¬ ∃ b ∈ s.bssList, b.octets = requested args := by
          rintro ⟨b, hb, heq⟩
          rcases h with hnil | ⟨-, -, hnone⟩
          · rw [hnil] at hb
            cases hb
          · exact hnone hno b hb heq
        refine ⟨hinside.2 ⟨h.imp id And.left, fun b hb => ?_⟩, ?_, ?_, ?_⟩
        · rw [hfind] at hb
          cases hb
        · rw [hval]
          exact iff_of_false (fun h => by cases h) hall
        · rw [hval]
          intro h
          cases h
        · rw [hval]
          exact fun _ => ⟨rfl, hkeeps⟩
  | some b =>
      obtain ⟨hsame, pre, post, heq, hpre⟩ := findBss_some hfind
      obtain ⟨hsucc, htarget⟩ := connectTo_some
        (p := (args ++ behind).drop passwordOff) hidle hfind
      rw [← hval] at hsucc htarget
      have hb : b ∈ s.bssList := heq ▸ by simp
      obtain ⟨h32, hshort⟩ := hscan.entry b hb
      -- what compares equal is short, so the string ends in the block
      have hmem : 0 ∈ args := by
        rw [← @cStr_ends_iff _ behind _ hlen, ← hsame]
        unfold connectArgsSize
        omega
      have hoctets := octets_of_same hshort h32 hmem hsame
      constructor
      · intro h
        refine .inr ⟨hmem, fun pre' b' post' heq' hsame' hpre' => ?_,
          fun hno => absurd hsame (hno b hb)⟩
        have hfirst : findBss (args ++ behind) s.bssList = some b' := by
          rw [heq']
          exact findBss_first hsame' hpre' post'
        have hsameb : b' = b := by
          rw [hfind] at hfirst
          exact (Option.some.inj hfirst).symm
        have hp := (h.target hsucc).2.octets
        rw [htarget] at hp
        rw [hsameb]
        exact ⟨hoctets.1 hp, (hinside.1 h.inside).2 b hfind⟩
      · intro h
        have hclean : StandsClean b ∧ 0 ∈ args.drop passwordOff := by
          rcases h with hnil | ⟨-, hfirst, -⟩
          · rw [hnil] at hb
            cases hb
          · exact hfirst pre b post heq hsame hpre
        have hex : ∃ b ∈ s.bssList, b.octets = requested args :=
          ⟨b, hb, hoctets.2 hclean.1⟩
        refine ⟨hinside.2 ⟨.inr hmem, fun _ _ => hclean.2⟩,
          iff_of_true hsucc hex, fun _ => ⟨?_, ?_⟩,
          fun hno => absurd hex hno⟩
        · rw [htarget]
          exact hb
        · apply pursues_of_octets
          · rw [htarget]
            exact h32
          · rw [htarget]
            exact hoctets.2 hclean.1

/-- An entry for the sample network. -/
def plainList : List RTW88BSS :=
  (processScanResult {} (sampleBeacon mixedElems)
    (Mlme.init true)).bssList

/-- The SSID `ssid` and an empty password. -/
def connectBlock (ssid : List UInt8) : List UInt8 :=
  ssid ++ List.replicate (connectArgsSize - ssid.length) 0

/-- The sample network is found by its SSID, `net`. -/
theorem plain_connects : ConnectsExactly (connectBlock [0x6e, 0x65, 0x74])
    [0xff] { Mlme.init true with bssList := plainList } := by
  have hscan : ScanList plainList := .frame {} _ .nil
  apply (connects_exactly_iff
    (s := { Mlme.init true with bssList := plainList }) (by decide) [0xff]
    rfl hscan).2
  have hlist : plainList = [scanEntry (sampleBeacon mixedElems) 0] := by
    decide
  refine .inr ⟨by decide, fun pre b post heq _ _ => ?_, fun hno => ?_⟩
  · have hsplit : plainList = pre ++ b :: post := heq
    have hb : b ∈ plainList := hsplit ▸ by simp
    rw [hlist] at hb
    rw [List.mem_singleton.1 hb]
    unfold StandsClean
    exact ⟨by decide, by decide⟩
  · refine absurd ?_ (hno (scanEntry (sampleBeacon mixedElems) 0) ?_)
    · unfold SameString
      decide
    · rw [hlist]
      exact List.mem_singleton.2 rfl

/-- `net`, a zero byte and something else. -/
def lookalike : List Elem :=
  [{ id := eidSsid, body := [0x6e, 0x65, 0x74, 0, 0x78] }]

/-- Asked for `net`, it is the network with the longer SSID that gets the
key. -/
theorem lookalike_connects :
    ¬ ∀ (args behind : List UInt8) (s : Mlme),
      args.length = connectArgsSize → s.state = .idle →
      ScanList s.bssList → ConnectsExactly args behind s := by
  intro h
  have hscan : ScanList (processScanResult {} (sampleBeacon lookalike)
      (Mlme.init true)).bssList := .frame {} _ .nil
  have hbad := h (connectBlock [0x6e, 0x65, 0x74]) []
    { Mlme.init true with
      bssList := (processScanResult {} (sampleBeacon lookalike)
        (Mlme.init true)).bssList } (by decide) rfl hscan
  exact absurd (hbad.success.1 (by decide)) (by decide)

end Rtw88
