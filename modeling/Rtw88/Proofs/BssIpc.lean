/-
What rtw88ctl shows is what the driver had.

The encoder's loop keeps one fact about its buffer: the bytes up to
`written` are the total's place and the entries so far (`Wrote`). It
stops at the first entry that has no room, so those entries are the
longest prefix. The decoder's loop is an induction over the same
entries: at the front of one it takes that entry and ends at the front
of the next.

# Two programs

The driver writes into a buffer whose size the caller names, and never
more than 4095 bytes of it; the tool reads as many bytes as came back.
Both go by the lengths in the entries, so the round trip is between
bytes: what the driver leaves are the bytes of a list
(`cmdGetBSSList_spec`), and over the bytes of any list the tool walks
that list (`takeBssList_spec`, `cmdList_spec`).

An entry has the length of its SSID in front and is as long as that
makes it. The tool copies the SSID into 33 zeroed bytes (`ssid_padded`),
which is why no entry of more than 32 may come. A buffer too small for
the total gets nothing.
-/
import Rtw88.Proofs.BssList
import Rtw88.Spec.BssIpc

namespace Rtw88

open Touched

-- ================================================================= encoder

/-- The buffer of `n` bytes starts with `front`, which ends at `w`. -/
private structure Wrote (n : Nat) (front buf : List UInt8) (w : Nat) :
    Prop where
  length : buf.length = n
  inside : w ≤ n
  take : buf.take w = front

/-- A copy at the end of what was written. -/
private theorem Wrote.store {n w : Nat} {front buf : List UInt8}
    (h : Wrote n front buf w) (bs : List UInt8) (hroom : w + bs.length ≤ n) :
    Wrote n (front ++ bs) (splice buf w bs) (w + bs.length) := by
  obtain ⟨hlen, hin, htake⟩ := h
  refine ⟨?_, hroom, ?_⟩
  · rw [splice_length (by omega), hlen]
  · rw [take_splice (by omega), htake]

private theorem bssBytes_length (b : RTW88BSS) :
    (bssBytes b).length = 1 + b.ssidLen.toNat + 6 + 2 + 1 + 4 := by
  simp only [bssBytes, List.length_append, List.length_singleton,
    List.Vector.toList_length, be16_length, le32_length]
  omega

/-- One entry is written behind what is there. -/
private theorem putBss_spec {n max w : Nat} {front buf : List UInt8}
    {b : RTW88BSS} (h : Wrote n front buf w) (hmax : max ≤ n)
    (hroom : w + (bssBytes b).length ≤ max) :
    (putBss b w buf).Within (fun _ => max)
      ∧ ∃ buf', (putBss b w buf).val = (w + (bssBytes b).length, buf')
        ∧ Wrote n (front ++ bssBytes b) buf' (w + (bssBytes b).length) := by
  rw [bssBytes_length] at hroom ⊢
  have hname : (grab b.ssid.toList 0 b.ssidLen.toNat).toList.length
      = b.ssidLen.toNat := List.Vector.toList_length _
  have hbssid : b.bssid.toList.length = 6 := b.bssid.toList_length
  have hw : w + (1 + b.ssidLen.toNat + 6 + 2 + 1 + 4)
      = w + 1 + b.ssidLen.toNat + 6 + 1 + 1 + 1 + 4 := by omega
  refine ⟨?_, (putBss b w buf).val.2, ?_, ?_⟩
  · simp only [putBss, within_bind, within_store, within_pure, hname, hbssid,
      List.length_singleton, le32_length, and_true]
    omega
  · rw [hw]
    rfl
  · have h₁ := h.store [b.ssidLen]
      (by rw [List.length_singleton]; omega)
    have h₂ := h₁.store
      (grab b.ssid.toList 0 b.ssidLen.toNat).toList
      (by rw [List.length_singleton, hname]; omega)
    have h₃ := h₂.store b.bssid.toList
      (by rw [List.length_singleton, hname, hbssid]; omega)
    have h₄ := h₃.store [(b.rssi.toUInt16 >>> 8).toUInt8]
      (by simp only [List.length_singleton, hname, hbssid]; omega)
    have h₅ := h₄.store [b.rssi.toUInt16.toUInt8]
      (by simp only [List.length_singleton, hname, hbssid]; omega)
    have h₆ := h₅.store [b.channel]
      (by simp only [List.length_singleton, hname, hbssid]; omega)
    have h₇ := h₆.store (le32 b.cipher)
      (by simp only [List.length_singleton, hname, hbssid, le32_length]
          omega)
    simp only [List.length_singleton, hname, hbssid, le32_length,
      List.append_assoc] at h₇
    rw [hw]
    exact h₇

private theorem listBytes_cons (b : RTW88BSS) (l : List RTW88BSS) :
    listBytes (b :: l) = bssBytes b ++ listBytes l := rfl

private theorem listBytes_append (l l' : List RTW88BSS) :
    listBytes (l ++ l') = listBytes l ++ listBytes l' :=
  List.flatMap_append

/-- The loop writes the longest prefix that has room. -/
private theorem putBssList_spec {n max w : Nat} {front buf : List UInt8}
    {l : List RTW88BSS} (h : Wrote n front buf w) (hmax : max ≤ n)
    (hw : w ≤ max) :
    ∃ pre post, l = pre ++ post
      ∧ (putBssList max l w buf).Within (fun _ => max)
      ∧ (putBssList max l w buf).val.1 = w + (listBytes pre).length
      ∧ w + (listBytes pre).length ≤ max
      ∧ Wrote n (front ++ listBytes pre) (putBssList max l w buf).val.2
        (w + (listBytes pre).length)
      ∧ ∀ b bs, post = b :: bs →
        max < w + (listBytes pre).length + (bssBytes b).length := by
  induction l generalizing w front buf with
  | nil =>
      refine ⟨[], [], rfl, within_pure _, rfl, hw, ?_, fun b bs hb => ?_⟩
      · rw [listBytes, List.flatMap_nil, List.append_nil]
        exact h
      · cases hb
  | cons b l ih =>
      rw [putBssList]
      by_cases hfull : w + (1 + b.ssidLen.toNat + 6 + 2 + 1 + 4) > max
      · rw [if_pos hfull]
        refine ⟨[], b :: l, rfl, within_pure _, rfl, hw, ?_,
          fun b' bs hb => ?_⟩
        · rw [listBytes, List.flatMap_nil, List.append_nil]
          exact h
        · obtain ⟨rfl, -⟩ := List.cons.inj hb
          rw [bssBytes_length]
          exact hfull
      · have hroom : w + (bssBytes b).length ≤ max := by
          rw [bssBytes_length]
          omega
        obtain ⟨hin, buf', hval, hwrote⟩ := putBss_spec h hmax hroom
        obtain ⟨pre, post, rfl, hin', hval', hle, hwrote', hpost⟩ :=
          ih hwrote hroom
        have hsize : (listBytes (b :: pre)).length
            = (bssBytes b).length + (listBytes pre).length :=
          List.length_append
        have hassoc : w + (listBytes (b :: pre)).length
            = w + (bssBytes b).length + (listBytes pre).length := by omega
        rw [if_neg hfull]
        refine ⟨b :: pre, post, rfl, ?_, ?_, ?_⟩
        · rw [within_bind, hval]
          exact ⟨hin, hin'⟩
        · rw [val_bind, hval, hassoc]
          exact hval'
        · rw [val_bind, hval, hassoc]
          refine ⟨hle, ?_, hpost⟩
          show Wrote n (front ++ (bssBytes b ++ listBytes pre)) _ _
          rw [← List.append_assoc]
          exact hwrote'

/-- Stopping at the first entry without room is taking the longest
prefix. -/
private theorem longestPrefix {max : Nat} {pre post : List RTW88BSS}
    (hle : 4 + (listBytes pre).length ≤ max)
    (hpost : ∀ b bs, post = b :: bs →
      max < 4 + (listBytes pre).length + (bssBytes b).length) :
    LongestPrefix max (pre ++ post) pre := by
  refine ⟨List.prefix_append _ _, .inr hle, fun pre' hpre' hroom => ?_⟩
  rcases List.prefix_or_prefix_of_prefix hpre'
    (List.prefix_append pre post) with h | h
  · exact h
  · -- a longer one would hold the entry the loop stopped at
    obtain ⟨more, rfl⟩ := h
    have hmore : more <+: post := (List.prefix_append_right_inj pre).1 hpre'
    cases more with
    | nil => exact (List.append_nil pre).symm ▸ List.prefix_rfl
    | cons b more =>
        obtain ⟨bs, rfl⟩ := hmore
        have hlt := hpost b (more ++ bs) rfl
        rcases hroom with hnil | hroom
        · simp at hnil
        · rw [listBytes_append, listBytes_cons, List.length_append,
            List.length_append] at hroom
          omega

/-- A buffer with no room for the total holds no entry. -/
private theorem longestPrefix_nil {max : Nat} (l : List RTW88BSS)
    (h : max < 4) : LongestPrefix max l [] := by
  refine ⟨List.nil_prefix, .inl rfl, fun pre' _ hroom => ?_⟩
  rcases hroom with rfl | hroom
  · exact List.prefix_rfl
  · omega

/-- What the driver leaves in the buffer: nothing, or the total and the
entries of the longest prefix that has room. -/
private theorem cmdGetBSSList_spec (l : List RTW88BSS) (size : UInt32)
    (buf : Bytes size.toNat) :
    (cmdGetBSSList l size buf.toList).Within
        (fun _ => min size.toNat 4095)
      ∧ ∃ pre len buf', LongestPrefix (min size.toNat 4095) l pre
        ∧ (cmdGetBSSList l size buf.toList).val = (len, buf')
        ∧ len ≤ min size.toNat 4095
        ∧ ((pre = [] ∧ len = 0)
          ∨ (len = 4 + (listBytes pre).length
            ∧ buf'.take len = le32 (UInt32.ofNat len) ++ listBytes pre)) := by
  have hbuf : buf.toList.length = size.toNat := buf.toList_length
  have hmax : min size.toNat 4095 ≤ size.toNat := Nat.min_le_left _ _
  by_cases hsmall : min size.toNat 4095 < 4
  · simp only [cmdGetBSSList, if_pos hsmall]
    exact ⟨within_pure _, [], 0, buf.toList, longestPrefix_nil l hsmall, rfl,
      Nat.zero_le _, .inl ⟨rfl, rfl⟩⟩
  · simp only [cmdGetBSSList, if_neg hsmall]
    -- the first four bytes are whatever the caller had there
    have hstart : Wrote size.toNat (buf.toList.take 4) buf.toList 4 :=
      ⟨hbuf, by omega, rfl⟩
    obtain ⟨pre, post, rfl, hin, hval, hle, hwrote, hpost⟩ :=
      putBssList_spec (l := l) hstart hmax (by omega)
    generalize putBssList (min size.toNat 4095) (pre ++ post) 4 buf.toList
      = out at hin hval hwrote ⊢
    obtain ⟨⟨w, buf'⟩, log⟩ := out
    obtain rfl : w = 4 + (listBytes pre).length := hval
    refine ⟨?_, pre, _, _, longestPrefix hle hpost, rfl, hle,
      .inr ⟨rfl, ?_⟩⟩
    · rw [within_bind]
      refine ⟨hin, ?_⟩
      show ((store OutBuf.buf buf' 0 _) >>= _).Within _
      rw [within_bind, within_store, le32_length]
      exact ⟨by omega, within_pure _⟩
    · -- the total goes over them
      have hfour : (buf.toList.take 4).length = 4 := by
        rw [List.length_take, hbuf]
        omega
      have hroom : (buf.toList.take 4).length + (listBytes pre).length
          = 4 + (listBytes pre).length := by rw [hfour]
      have htake : buf'.take _ = _ := hwrote.take
      rw [← hroom] at htake ⊢
      exact take_splice_head htake (by rw [le32_length, hfour])

-- ================================================================= decoder

/-- An SSID of up to 32 bytes in a zeroed `ssid[33]`. -/
private theorem ssid_padded {name : List UInt8} (h : name.length ≤ 33) :
    (grab (splice (zeros 33).toList 0 name) 0 33).toList
      = name ++ List.replicate (33 - name.length) 0 := by
  have hzeros : (zeros 33).toList.length = 33 := (zeros 33).toList_length
  have hlen : (splice (zeros 33).toList 0 name).length = 33 := by
    rw [splice_length (by omega), hzeros]
  rw [grab_eq_slice (by omega), List.drop_zero, List.take_of_length_le
    (by omega), splice, zeros_toList, List.take_zero, List.nil_append,
    Nat.zero_add, List.drop_replicate]

/-- Where an entry starts the decoder takes that entry. -/
private theorem takeBss_spec {buf rest : List UInt8} {b : RTW88BSS} {p : Nat}
    (hssid : b.ssidLen.toNat ≤ 32) (hbuf : buf.drop p = bssBytes b ++ rest) :
    Shows b (takeBss buf b.ssidLen (p + 1)).val := by
  have hname : (grab b.ssid.toList 0 b.ssidLen.toNat).toList.length
      = b.ssidLen.toNat := List.Vector.toList_length _
  have hbssid : b.bssid.toList.length = 6 := b.bssid.toList_length
  have hcut : (grab b.ssid.toList 0 b.ssidLen.toNat).toList
      = b.ssid.toList.take b.ssidLen.toNat := by
    have hlen : b.ssid.toList.length = 33 := b.ssid.toList_length
    rw [grab_eq_slice (by omega), List.drop_zero]
  -- what stands at each of the decoder's positions
  simp only [bssBytes, List.append_assoc] at hbuf
  have h₁ := drop_add_of_append (n := 1) hbuf rfl
  have h₂ := drop_add_of_append h₁ hname
  have h₃ := drop_add_of_append h₂ hbssid
  have h₄ := drop_add_of_append (n := 2) h₃ rfl
  have h₅ := drop_add_of_append (n := 1) h₄ rfl
  have hcipher : le32At (grab buf (p + 1 + b.ssidLen.toNat + 6 + 2 + 1)
      4).toList 0 = b.cipher := by
    have hle := le32At_le32 b.cipher []
    rwa [List.append_nil, ← grab_of_drop h₅ (le32_length _)] at hle
  refine ⟨rfl, ?_, ?_, ?_, ?_, ?_, ?_⟩
  · show (grab (splice (zeros 33).toList 0
      (grab buf (p + 1) b.ssidLen.toNat).toList) 0 33).toList = _
    rw [grab_of_drop h₁ hname, ssid_padded (by omega), hname, hcut]
  · exact List.Vector.toList_injective (grab_of_drop h₂ hbssid)
  · show (be16At buf (p + 1 + b.ssidLen.toNat + 6)).toInt16 = b.rssi
    rw [be16At_of_drop h₃]
    exact Int16.toInt16_toUInt16 b.rssi
  · exact peek_of_drop h₄
  · exact hcipher
  · exact congrArg security hcipher

/-- Looking at an entry stays inside it, and the SSID inside its buffer. -/
private theorem takeBss_within {buf : List UInt8} {ssidLen : UInt8}
    {p len : Nat} (hssid : ssidLen.toNat ≤ 32)
    (hlen : p + ssidLen.toNat + 6 + 2 + 1 + 4 ≤ len) :
    (takeBss buf ssidLen p).Within fun | .buf => len | .ssid => 32 := by
  simp only [takeBss, within_bind, within_load, within_load8, within_store,
    within_pure, List.Vector.toList_length, and_true]
  omega

/-- Over the bytes of a list the decoder walks that list, to its end. -/
private theorem takeBssList_spec {l : List RTW88BSS} {buf rest : List UInt8}
    {p : Nat} (hssid : ∀ b ∈ l, b.ssidLen.toNat ≤ 32)
    (hbuf : buf.drop p = listBytes l ++ rest) {len : Nat}
    (hlen : p + (listBytes l).length ≤ len) :
    ∃ rows, (takeBssList buf (p + (listBytes l).length) p).val
        = (rows, p + (listBytes l).length)
      ∧ List.Forall₂ Shows l rows
      ∧ (takeBssList buf (p + (listBytes l).length) p).Within
        fun | .buf => len | .ssid => 32 := by
  induction l generalizing p with
  | nil =>
      have hend : ¬ p + 1 ≤ p + (listBytes []).length := by
        show ¬ p + 1 ≤ p
        omega
      rw [takeBssList, if_neg hend]
      exact ⟨[], rfl, .nil, within_pure _⟩
  | cons b l ih =>
      have hsize := bssBytes_length b
      rw [listBytes_cons, List.length_append] at hlen
      rw [listBytes_cons, List.append_assoc] at hbuf
      have hhead : peek buf p = b.ssidLen := peek_of_drop hbuf
      have hnext := drop_add_of_append hbuf hsize
      have hp : p + (bssBytes b).length
          = p + 1 + b.ssidLen.toNat + 6 + 2 + 1 + 4 := by omega
      have hend : p + (listBytes (b :: l)).length
          = p + 1 + b.ssidLen.toNat + 6 + 2 + 1 + 4
            + (listBytes l).length := by
        rw [listBytes_cons, List.length_append]
        omega
      rw [← hsize, hp] at hnext
      obtain ⟨rows, hval, hshows, hin⟩ :=
        ih (fun b' hb' => hssid b' (List.mem_cons_of_mem _ hb')) hnext
          (by omega)
      have hb := hssid b List.mem_cons_self
      rw [hend, takeBssList, if_pos (by omega)]
      refine ⟨(takeBss buf b.ssidLen (p + 1)).val :: rows, ?_,
        .cons (takeBss_spec hb hbuf) hshows, ?_⟩
      · rw [val_bind, load8_val, hhead, dif_neg (by omega), val_bind,
          val_bind, hval]
        rfl
      · rw [within_bind, within_load8, load8_val, hhead, dif_neg (by omega),
          within_bind, within_bind, hval]
        exact ⟨by show p + 1 ≤ len; omega,
          takeBss_within hb (by omega), hin, within_pure _⟩

/-- Nothing came back. -/
private theorem cmdList_zero (buf : List UInt8) :
    (cmdList buf 0).val = ([], 0, 0)
      ∧ (cmdList buf 0).Within fun | .buf => 0 | .ssid => 32 := by
  have hend : ¬ 0 + 1 ≤ 0 := Nat.not_succ_le_zero 0
  rw [cmdList, if_neg (Nat.not_succ_le_zero 3), takeBssList, if_neg hend]
  exact ⟨rfl, by rw [within_bind, within_load]; exact
    ⟨Nat.le_refl 0, within_pure _⟩⟩

/-- The total and the bytes of a list came back. -/
private theorem cmdList_spec {l : List RTW88BSS} {buf rest : List UInt8}
    {len : Nat} (hssid : ∀ b ∈ l, b.ssidLen.toNat ≤ 32)
    (hlen : len = 4 + (listBytes l).length) (hle : len ≤ 4095)
    (hbuf : buf = le32 (UInt32.ofNat len) ++ (listBytes l ++ rest)) :
    ∃ rows, (cmdList buf len).val = (rows, len, len)
      ∧ List.Forall₂ Shows l rows
      ∧ (cmdList buf len).Within fun | .buf => len | .ssid => 32 := by
  have hstart : buf.drop 0
      = le32 (UInt32.ofNat len) ++ (listBytes l ++ rest) := hbuf
  have hfront : buf.drop 4 = listBytes l ++ rest := by
    rw [hbuf]
    rfl
  have hword : le32At (grab buf 0 4).toList 0 = UInt32.ofNat len := by
    have h := le32At_le32 (UInt32.ofNat len) []
    rwa [List.append_nil, ← grab_of_drop hstart (le32_length _)] at h
  have htotal : (UInt32.ofNat len).toNat = len := by
    rw [UInt32.toNat_ofNat']
    omega
  obtain ⟨rows, hval, hshows, hin⟩ :=
    takeBssList_spec hssid hfront (Nat.le_of_eq hlen.symm)
  rw [← hlen] at hval hin
  refine ⟨rows, ?_, hshows, ?_⟩
  · rw [cmdList, if_pos (by omega), val_bind, val_bind, load_val, hword,
      htotal, Nat.min_self, val_bind, hval]
    rfl
  · rw [cmdList, if_pos (by omega), within_bind, within_load, within_bind,
      within_load, load_val, hword, htotal, Nat.min_self, within_bind, hval]
    exact ⟨by show 0 + min 32 len ≤ len; omega, by show 0 + 4 ≤ len; omega,
      hin, within_pure _⟩

-- ==================================================================== both

/-- For every list the driver can come to have and every buffer size:
the driver writes only the first 4095 bytes that there are; what rtw88ctl
makes of the bytes it gets back is the longest part of the list that has
room, entry for entry; and it reads inside these bytes, up to their end,
and copies at most 32 into its `ssid[33]`. -/
theorem bss_list_round_trip (powered : Bool) (es : List BssEvent)
    (size : UInt32) (buf : Bytes size.toNat) (rest : List UInt8) :
    let s := (bssRun powered es).mlme
    let max := min size.toNat 4095
    let out := cmdGetBSSList s.bssList size buf.toList
    let len := out.val.1
    let got := cmdList (out.val.2.take len ++ rest) len
    (sGetBSSList true s size (some buf.toList)).val
        = (.success, len, some out.val.2)
      ∧ out.Within (fun _ => max) ∧ len ≤ max
      ∧ (∃ pre, LongestPrefix max s.bssList pre
        ∧ List.Forall₂ Shows pre got.val.1)
      ∧ got.Within (fun | .buf => len | .ssid => 32)
      ∧ got.val.2 = (len, len) := by
  have hintact := (bssRun_good powered es).1
  obtain ⟨hin, pre, len, buf', hpre, hval, hle, hcases⟩ :=
    cmdGetBSSList_spec (bssRun powered es).mlme.bssList size buf
  have hssid : ∀ b ∈ pre, b.ssidLen.toNat ≤ 32 := fun b hb =>
    (hintact.ok b (hpre.isPrefix.subset hb)).ssid_len
  simp only [hval]
  refine ⟨?_, hin, hle, ?_⟩
  · rw [sGetBSSList, Bool.not_true, if_neg Bool.false_ne_true, val_bind,
      hval]
    rfl
  rcases hcases with ⟨rfl, rfl⟩ | ⟨hlen, htake⟩
  · obtain ⟨hgot, hin'⟩ := cmdList_zero (buf'.take 0 ++ rest)
    rw [hgot]
    exact ⟨⟨[], hpre, .nil⟩, hin', rfl⟩
  · obtain ⟨rows, hgot, hshows, hin'⟩ := cmdList_spec hssid hlen (by omega)
      (show buf'.take len ++ rest = _ by rw [htake, List.append_assoc])
    rw [hgot]
    exact ⟨⟨pre, hpre, hshows⟩, hin', rfl⟩

end Rtw88
