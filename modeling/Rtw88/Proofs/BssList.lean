/-
The scan list keeps its representation, in the list of the model and in
memory.

An entry is in order when it is built: the SSID is copied only up to 32
bytes into 33 of zeros, and an element joins the cache only if 512 bytes
are not reached (`scanEntry_ok`). What the three functions do to the
list in memory is one rule of Lib/Chain.lean each: an update in place or
a cell in front, a sweep, and a rewrite of every entry.

# Two lists

The invariant is of two layers. `BssIntact` is about the entries: they
are in order, no two have one BSSID, none has seen a generation that is
still to come. `Holds` is about the cells: the pointers from the head on
visit the entries in this order, each at an address that was handed out
once, and the last one is null. Every event keeps both (`bssStep_good`),
and does the same to both (`frame_represents`).

- A beacon of a listed BSSID overwrites the entry and leaves the link
  (`updateBss_find`, `frame_inPlace`); of another it puts a cell in
  front, at a fresh address.
- The end of a scan unlinks and frees the aged entries, and keeps the
  order of the others (`scanDoneMem_holds`).
- A `cmdScan` counts the generation up. Where the counter wraps it
  rewrites every entry, in place (`nextGeneration_intact`,
  `mapFrom_holds`).

With distinct BSSIDs "the entry of this BSSID" is well defined
(`find_unique`), which is what the search of the beacon path relies on.
-/
import Rtw88.Spec.BssList

namespace Rtw88

-- ================================================================= entries

/-- The bounds an entry under construction keeps. -/
private def Bounded (b : RTW88BSS) : Prop :=
  b.ssidLen.toNat ≤ 32 ∧ peek b.ssid.toList 32 = 0 ∧ b.ies.length < 512

/-- An SSID of up to 32 bytes leaves the last of the 33 alone. -/
private theorem peek_ssid {ssid : Bytes 33} {body : List UInt8}
    (h : body.length ≤ 32) :
    peek (grab (splice ssid.toList 0 body) 0 33).toList 32
      = peek ssid.toList 32 := by
  have hlen : ssid.toList.length = 33 := ssid.toList_length
  have hread : peek (grab (splice ssid.toList 0 body) 0 33).toList 32
      = peek (splice ssid.toList 0 body) 32 := by
    simp [peek]
  rw [hread]
  exact peek_splice_ge (by omega) (by omega)

private theorem scanField_bounded {b : RTW88BSS} (h : Bounded b) (e : Elem) :
    Bounded (scanField b e) := by
  obtain ⟨hlen, hterm, hies⟩ := h
  simp only [scanField]
  split
  next hc =>
    refine ⟨?_, ?_, hies⟩
    · show (UInt8.ofNat e.body.length).toNat ≤ 32
      rw [UInt8.toNat_ofNat']
      omega
    · show peek (grab (splice b.ssid.toList 0 e.body) 0 33).toList 32 = 0
      rw [peek_ssid hc.2.2]
      exact hterm
  · split
    · exact ⟨hlen, hterm, hies⟩
    · split
      · exact ⟨hlen, hterm, hies⟩
      · split
        · split <;> exact ⟨hlen, hterm, hies⟩
        · split <;> exact ⟨hlen, hterm, hies⟩

private theorem scanElem_bounded {b : RTW88BSS} (h : Bounded b) (e : Elem) :
    Bounded (scanElem b e) := by
  obtain ⟨hlen, hterm, hies⟩ := scanField_bounded h e
  simp only [scanElem]
  split
  next hc =>
    refine ⟨hlen, hterm, ?_⟩
    show ((scanField b e).ies ++ e.bytes).length < 512
    rw [List.length_append, Elem.bytes, List.length_cons, List.length_cons]
    omega
  · exact ⟨hlen, hterm, hies⟩

/-- Every entry is in order when it is built. -/
theorem scanEntry_ok (skb : SkBuff) (generation : UInt32) :
    (scanEntry skb generation).Ok generation := by
  have hfold : ∀ (es : List Elem) (b : RTW88BSS), Bounded b →
      Bounded (es.foldl scanElem b) := by
    intro es
    induction es with
    | nil => exact fun _ h => h
    | cons e es ih => exact fun b h => ih _ (scanElem_bounded h e)
  obtain ⟨hlen, hterm, hies⟩ := hfold (elems (skb.data.drop 36))
    { RTW88BSS.zero with bssid := addr3 skb.data }
    ⟨Nat.zero_le 32, rfl, Nat.zero_lt_succ 511⟩
  simp only [scanEntry]
  split
  · exact ⟨hlen, hterm, hies, UInt32.le_refl _⟩
  · exact ⟨hlen, hterm, hies, UInt32.le_refl _⟩

-- ================================================================ the list

/-- Overwriting a cell that is not on a list leaves the list. -/
private theorem map_off {a : Nat} {x : Nat × RTW88BSS}
    {l : List (Nat × RTW88BSS)} (ha : a ∉ addrs l) :
    (l.map fun y => if y.1 = a then x else y) = l := by
  have hsame : ∀ y ∈ l, (if y.1 = a then x else y) = y := by
    intro y hy
    have hne : y.1 ≠ a := fun heq => ha (heq ▸ List.mem_map_of_mem hy)
    rw [if_neg hne]
  rw [List.map_congr_left hsame, List.map_id']

/-- An update puts the new entry where the first of its BSSID was. -/
private theorem updateBss_find {bss : RTW88BSS} {l : List (Nat × RTW88BSS)}
    (hnd : (addrs l).Nodup) :
    updateBss bss (l.map Prod.snd)
      = (l.find? fun x => x.2.bssid == bss.bssid).map fun x =>
        (l.map fun y => if y.1 = x.1 then (x.1, bss) else y).map Prod.snd := by
  induction l with
  | nil => rfl
  | cons y l ih =>
      obtain ⟨hnotin, hnd'⟩ := List.nodup_cons.1 hnd
      rw [List.map_cons, updateBss, List.find?_cons]
      by_cases hy : y.2.bssid = bss.bssid
      · rw [if_pos hy, beq_iff_eq.2 hy]
        simp only [Option.map_some, List.map_cons, if_true]
        rw [map_off hnotin]
      · rw [if_neg hy, beq_eq_false_iff_ne.2 hy, ih hnd']
        cases hfind : l.find? fun x => x.2.bssid == bss.bssid with
        | none => rfl
        | some x =>
            have hx : x ∈ l := List.mem_of_find?_eq_some hfind
            have hne : y.1 ≠ x.1 := fun heq =>
              hnotin (heq ▸ List.mem_map_of_mem hx)
            simp only [Option.map_some, List.map_cons, if_neg hne]

/-- What an update does to a list: it changes one entry of this BSSID, or
there is none. -/
theorem updateBss_cases (bss : RTW88BSS) (l : List RTW88BSS) :
    (∃ l₁ b l₂, l = l₁ ++ b :: l₂ ∧ b.bssid = bss.bssid
        ∧ updateBss bss l = some (l₁ ++ bss :: l₂))
      ∨ (updateBss bss l = none ∧ bss.bssid ∉ l.map RTW88BSS.bssid) := by
  induction l with
  | nil => exact .inr ⟨rfl, List.not_mem_nil⟩
  | cons y l ih =>
      rw [updateBss]
      by_cases hy : y.bssid = bss.bssid
      · rw [if_pos hy]
        exact .inl ⟨[], y, l, rfl, hy, rfl⟩
      · rw [if_neg hy]
        rcases ih with ⟨l₁, b, l₂, rfl, hb, heq⟩ | ⟨hnone, hni⟩
        · rw [heq]
          exact .inl ⟨y :: l₁, b, l₂, rfl, hb, rfl⟩
        · rw [hnone]
          refine .inr ⟨rfl, fun hmem => ?_⟩
          rcases List.mem_cons.1 hmem with hmem | hmem
          · exact hy hmem.symm
          · exact hni hmem

/-- A later generation has seen what an earlier one has. -/
private theorem RTW88BSS.Ok.later {g g' : UInt32} {b : RTW88BSS}
    (h : b.Ok g) (hle : g ≤ g') : b.Ok g' :=
  ⟨h.ssid_len, h.terminated, h.ies_len, UInt32.le_trans h.seen hle⟩

/-- A beacon keeps the list intact. -/
theorem processScanResult_intact {s : Mlme} (h : BssIntact s)
    (env : Env) (skb : SkBuff) : BssIntact (processScanResult env skb s) := by
  simp only [processScanResult]
  split
  · exact ⟨h.nodup, h.count, h.ok⟩
  · have hok := scanEntry_ok skb s.scanGeneration
    rcases updateBss_cases (scanEntry skb s.scanGeneration) s.bssList with
      ⟨l₁, b, l₂, hl, hb, heq⟩ | ⟨hnone, hni⟩
    · have hnd := h.nodup
      have hcount := h.count
      rw [hl] at hnd hcount
      rw [heq]
      refine ⟨?_, ?_, ?_⟩
      · show ((l₁ ++ scanEntry skb s.scanGeneration :: l₂).map
          RTW88BSS.bssid).Nodup
        rwa [List.map_append, List.map_cons, ← hb, ← List.map_cons,
          ← List.map_append]
      · show s.bssCount
          = (l₁ ++ scanEntry skb s.scanGeneration :: l₂).length
        rw [hcount, List.length_append, List.length_append]
        rfl
      · intro x hx
        rcases List.mem_append.1 hx with hx | hx
        · exact h.ok x (by rw [hl]; exact List.mem_append_left _ hx)
        · rcases List.mem_cons.1 hx with rfl | hx
          · exact hok
          · refine h.ok x ?_
            rw [hl]
            exact List.mem_append_right _ (List.mem_cons_of_mem _ hx)
    · rw [hnone]
      refine ⟨List.nodup_cons.2 ⟨hni, h.nodup⟩, ?_, ?_⟩
      · show s.bssCount + 1 = (_ :: s.bssList).length
        rw [List.length_cons, h.count]
      · intro x hx
        rcases List.mem_cons.1 hx with rfl | hx
        · exact hok
        · exact h.ok x hx

/-- Fields that are not the list's do not matter. -/
theorem BssIntact.same {s s' : Mlme} (h : BssIntact s)
    (hl : s'.bssList = s.bssList) (hc : s'.bssCount = s.bssCount)
    (hg : s'.scanGeneration = s.scanGeneration) : BssIntact s' := by
  obtain ⟨hnd, hcount, hok⟩ := h
  rw [← hl] at hnd hcount hok
  rw [← hc] at hcount
  rw [← hg] at hok
  exact ⟨hnd, hcount, hok⟩

/-- Ageing keeps the list intact. -/
theorem ageBssList_intact {s : Mlme} (h : BssIntact s) :
    BssIntact (ageBssList s) := by
  have hle := List.length_filter_le (keepsBss s) s.bssList
  refine ⟨?_, ?_, ?_⟩
  · show ((s.bssList.filter (keepsBss s)).map RTW88BSS.bssid).Nodup
    exact h.nodup.sublist (List.filter_sublist.map _)
  · show s.bssCount - (s.bssList.length
      - (s.bssList.filter (keepsBss s)).length) = _
    rw [h.count]
    show _ = (s.bssList.filter (keepsBss s)).length
    omega
  · intro b hb
    exact h.ok b (List.mem_filter.1 hb).1

/-- `restoreConnectedChannel` does not touch the scan list. -/
private theorem restoreConnectedChannel_bss (hw : Hw) (s : Mlme) :
    (restoreConnectedChannel hw s).bssList = s.bssList
      ∧ (restoreConnectedChannel hw s).bssCount = s.bssCount
      ∧ (restoreConnectedChannel hw s).scanGeneration
        = s.scanGeneration := by
  rw [restoreConnectedChannel]
  split
  · exact ⟨rfl, rfl, rfl⟩
  · rw [setTargetChandef]
    split <;> exact ⟨rfl, rfl, rfl⟩

/-- `scanDone` ages the list, or leaves it. -/
private theorem scanDone_bss (hw : Hw) (aborted : Bool) (s : Mlme) :
    let s' := if aborted then s else ageBssList s
    (scanDone hw aborted s).bssList = s'.bssList
      ∧ (scanDone hw aborted s).bssCount = s'.bssCount
      ∧ (scanDone hw aborted s).scanGeneration = s.scanGeneration := by
  have hgen : (if aborted then s else ageBssList s).scanGeneration
      = s.scanGeneration := by
    split <;> rfl
  rw [scanDone]
  generalize (if aborted then s else ageBssList s) = s' at hgen ⊢
  simp only
  split
  · exact ⟨rfl, rfl, hgen⟩
  · split
    · obtain ⟨hl, hc, hg⟩ := restoreConnectedChannel_bss hw s'
      exact ⟨hl, hc, hg.trans hgen⟩
    · exact ⟨rfl, rfl, hgen⟩

/-- A new generation keeps the list intact, also where it wraps. -/
theorem nextGeneration_intact {s : Mlme} (h : BssIntact s) :
    BssIntact (nextGeneration s) := by
  rw [nextGeneration]
  by_cases hwrap : s.scanGeneration + 1 = 0
  · simp only [if_pos hwrap]
    refine ⟨?_, ?_, ?_⟩
    · show ((s.bssList.map fun b => { b with lastSeenScan := 1 }).map
        RTW88BSS.bssid).Nodup
      rw [List.map_map]
      exact h.nodup
    · show s.bssCount = (s.bssList.map _).length
      rw [List.length_map, h.count]
    · intro b hb
      obtain ⟨b₀, hb₀, rfl⟩ := List.mem_map.1 hb
      have hok := h.ok b₀ hb₀
      exact ⟨hok.ssid_len, hok.terminated, hok.ies_len, UInt32.le_refl 1⟩
  · simp only [if_neg hwrap]
    refine ⟨h.nodup, h.count, fun b hb => (h.ok b hb).later ?_⟩
    -- without a wrap the generation grows
    rw [UInt32.le_iff_toNat_le, UInt32.toNat_add]
    have hne : (s.scanGeneration.toNat + 1) % 2 ^ 32 ≠ 0 := by
      intro h0
      refine hwrap (UInt32.toNat_inj.1 ?_)
      rw [UInt32.toNat_add]
      exact h0
    have hlt := s.scanGeneration.toNat_lt
    show s.scanGeneration.toNat ≤ (s.scanGeneration.toNat + 1) % 2 ^ 32
    omega

/-- `cmdScan` starts a new generation, or leaves the list. -/
theorem cmdScan_bss (hw : Hw) (env : Env) (s : Mlme) :
    let s' := if s.state ≠ .idle ∨ s.up = false then s else nextGeneration s
    (cmdScan hw env s).2.2.bssList = s'.bssList
      ∧ (cmdScan hw env s).2.2.bssCount = s'.bssCount
      ∧ (cmdScan hw env s).2.2.scanGeneration = s'.scanGeneration := by
  rw [cmdScan]
  by_cases hst : s.state ≠ .idle
  · rw [if_pos hst, if_pos (Or.inl hst)]
    exact ⟨rfl, rfl, rfl⟩
  · cases hup : s.up with
    | false =>
        rw [if_neg hst, if_pos (Or.inr rfl)]
        exact ⟨rfl, rfl, rfl⟩
    | true =>
        have hno : ¬ (s.state ≠ .idle ∨ true = false) := by
          simpa using hst
        simp only [if_neg hst, if_neg hno, Bool.not_true, if_neg (by decide :
          ¬ (false = true))]
        split
        · exact ⟨rfl, rfl, rfl⟩
        · split
          · exact ⟨rfl, rfl, rfl⟩
          · split <;> exact ⟨rfl, rfl, rfl⟩

-- ================================================================= memory

/-- A list has at most as many cells as addresses were handed out. -/
private theorem Holds.length_le {m : BssMem} {l : List (Nat × RTW88BSS)}
    (h : Holds m l) : l.length ≤ m.brk := by
  have hsub : addrs l ⊆ List.range m.brk := fun a ha =>
    List.mem_range.2 (h.below a ha)
  have hle := h.nodup.length_le_of_subset hsub
  rwa [addrs, List.length_map, List.length_range] at hle

/-- The address the allocator hands out next is on no list. -/
private theorem Holds.fresh {m : BssMem} {l : List (Nat × RTW88BSS)}
    (h : Holds m l) : m.brk ∉ addrs l := fun hmem =>
  absurd (h.below m.brk hmem) (Nat.lt_irrefl m.brk)

/-- A cell overwritten keeps its address. -/
private theorem addrs_replace (a : Nat) (v : RTW88BSS)
    (l : List (Nat × RTW88BSS)) :
    addrs (l.map fun y => if y.1 = a then (a, v) else y) = addrs l := by
  rw [addrs, addrs, List.map_map]
  refine List.map_congr_left fun y _ => ?_
  show (if y.1 = a then (a, v) else y).1 = y.1
  split
  next h => exact h.symm
  · rfl

/-- A beacon in memory: the known entry's cell is overwritten and nothing
else changes, or a new cell becomes the first. -/
private theorem processScanResultMem_holds {m : BssMem}
    {l : List (Nat × RTW88BSS)} (h : Holds m l) {env : Env} {skb : SkBuff}
    (generation : UInt32)
    (hgo : ¬ (skb.data.length < 30 + 12 || !env.bssAlloc) = true) :
    ∃ m', processScanResultMem env skb generation m = some m'
      ∧ match l.find? fun x =>
          x.2.bssid == (scanEntry skb generation).bssid with
        | some x =>
            Holds m' (l.map fun y =>
                if y.1 = x.1 then (x.1, scanEntry skb generation) else y)
              ∧ m'.list.head = m.list.head
              ∧ (∃ c, m.list.cell x.1 = some c ∧ m'.list.cell x.1
                = some ⟨scanEntry skb generation, c.next⟩)
              ∧ ∀ b, b ≠ x.1 → m'.list.cell b = m.list.cell b
        | none => Holds m' ((m.brk, scanEntry skb generation) :: l) := by
  have hlen := h.length_le
  have hseg := h.seg.update_off (c := some ⟨scanEntry skb generation, none⟩)
    h.fresh
  have hfind := findFrom_seg
    (fun b => b.bssid == (scanEntry skb generation).bssid)
    (k := m.turns) hseg (by rw [BssMem.turns]; omega)
  have hnone : m.list.cell m.brk = none := h.only _ h.fresh
  simp only [processScanResultMem, if_neg hgo, hfind]
  cases hx : l.find? fun x =>
      x.2.bssid == (scanEntry skb generation).bssid with
  | none =>
      -- in front
      refine ⟨_, rfl, ?_⟩
      rw [Function.update_idem]
      refine ⟨h.seg.push _ h.fresh, List.nodup_cons.2 ⟨h.fresh, h.nodup⟩,
        ?_, ?_, ?_⟩
      · intro a ha
        rcases List.mem_cons.1 ha with rfl | ha
        · exact Nat.lt_succ_self _
        · exact Nat.lt_succ_of_lt (h.below a ha)
      · intro a ha
        obtain ⟨hne, hni⟩ := not_or.1 fun hor => ha (List.mem_cons.2 hor)
        show Function.update m.list.cell m.brk _ a = none
        rw [Function.update_of_ne hne]
        exact h.only a hni
      · show m.count + 1 = _
        rw [h.count]
        rfl
  | some x =>
      -- over the entry in cell `x.1`, whose link is put back
      have hmem : x ∈ l := List.mem_of_find?_eq_some hx
      obtain ⟨n, hcell⟩ := h.seg.cell_of_mem hmem
      have hne : x.1 ≠ m.brk := fun heq =>
        h.fresh (heq ▸ List.mem_map_of_mem hmem)
      have hold : Function.update m.list.cell m.brk
          (some ⟨scanEntry skb generation, none⟩) x.1
          = some ⟨x.2, n⟩ := by
        rw [Function.update_of_ne hne]
        exact hcell
      -- the memory afterwards
      have hmem' : Function.update (Function.update (Function.update
            (Function.update m.list.cell m.brk
              (some ⟨scanEntry skb generation, none⟩)) x.1
            (some ⟨scanEntry skb generation, none⟩)) x.1
            (some ⟨scanEntry skb generation, n⟩)) m.brk none
          = Function.update m.list.cell x.1
            (some ⟨scanEntry skb generation, n⟩) := by
        have hback : Function.update m.list.cell m.brk none
            = m.list.cell := by
          rw [← hnone, Function.update_eq_self]
        rw [Function.update_idem, Function.update_comm hne,
          Function.update_idem, hback]
      simp only [Option.map_some, hold, hmem']
      refine ⟨_, rfl, ⟨?_, ?_, ?_, ?_, ?_⟩, rfl,
        ⟨⟨x.2, n⟩, hcell, Function.update_self ..⟩,
        fun b hb => Function.update_of_ne hb _ _⟩
      · exact h.seg.replace hcell rfl
      · rw [addrs_replace]
        exact h.nodup
      · rw [addrs_replace]
        exact fun a ha => Nat.lt_succ_of_lt (h.below a ha)
      · rw [addrs_replace]
        intro a ha
        have hmem : x.1 ∈ addrs l := List.mem_map_of_mem hmem
        have hax : a ≠ x.1 := fun heq => ha (heq ▸ hmem)
        show Function.update m.list.cell x.1 _ a = none
        rw [Function.update_of_ne hax]
        exact h.only a ha
      · show m.count = _
        rw [h.count, List.length_map]

/-- The ageing loop in memory: the cells of the aged entries are unlinked
and freed. -/
theorem scanDoneMem_holds {m : BssMem} {l : List (Nat × RTW88BSS)}
    (h : Holds m l) (s : Mlme) :
    ∃ m', scanDoneMem false s m = some m'
      ∧ Holds m' (l.filter fun x => keepsBss s x.2) := by
  have hlen := h.length_le
  obtain ⟨c', heq, hseg, hoff, hgone⟩ :=
    @sweepFrom_seg _ _ _ (keepsBss s) m.turns m.list [] l m.count h.seg
      h.nodup (by rw [BssMem.turns]; omega)
  have hsub : (addrs (l.filter fun x => keepsBss s x.2)).Sublist (addrs l) :=
    List.filter_sublist.map _
  have hfle := List.length_filter_le (fun x => keepsBss s x.2) l
  refine ⟨{ m with list := c', count := m.count - (l.length
      - (l.filter fun x => keepsBss s x.2).length) }, ?_, ?_⟩
  · simp only [scanDoneMem, Bool.false_eq_true, if_false]
    rw [show (Cursor.head : Cursor Nat) = cursorAfter ([] : List (Nat × RTW88BSS))
      from rfl, heq]
    rfl
  · refine ⟨hseg, hsub.nodup h.nodup, ?_, ?_, ?_⟩
    · exact fun a ha => h.below a (hsub.subset ha)
    · intro a ha
      -- a cell that is gone was freed, or never was on the list
      by_cases hmem : a ∈ addrs l
      · obtain ⟨x, hx, rfl⟩ := List.mem_map.1 hmem
        refine hgone x hx (Bool.eq_false_iff.2 fun hkeep => ha ?_)
        exact List.mem_map_of_mem (List.mem_filter.2 ⟨hx, hkeep⟩)
      · exact (hoff a hmem).trans (h.only a hmem)
    · show m.count - _ = _
      rw [h.count]
      omega

/-- The wrap loop in memory: every value is rewritten, no link. -/
private theorem mapFrom_holds {m : BssMem} {l : List (Nat × RTW88BSS)}
    (h : Holds m l) (f : RTW88BSS → RTW88BSS) :
    ∃ cell, mapFrom f m.turns m.list.head m.list.cell = some cell
      ∧ Holds { m with list := { m.list with cell } }
        (l.map fun x => (x.1, f x.2)) := by
  have hlen := h.length_le
  obtain ⟨cell, heq, hseg, hoff⟩ :=
    mapFrom_seg f (k := m.turns) h.seg h.nodup (by rw [BssMem.turns]; omega)
  have haddrs : addrs (l.map fun x => (x.1, f x.2)) = addrs l := by
    rw [addrs, addrs, List.map_map]
    rfl
  refine ⟨cell, heq, hseg, ?_, ?_, ?_, ?_⟩
  · rw [haddrs]
    exact h.nodup
  · rw [haddrs]
    exact h.below
  · rw [haddrs]
    exact fun a ha => (hoff a ha).trans (h.only a ha)
  · show m.count = _
    rw [h.count, List.length_map]

-- =================================================================== runs

/-- The list is intact, and the memory holds it. -/
private def BssGood (st : BssState) : Prop :=
  BssIntact st.mlme ∧ ∃ m, st.mem = some m ∧ Represents m st.mlme

/-- A listed cell is an entry of the list. -/
private theorem Holds.mem_of_cell {m : BssMem} {l : List (Nat × RTW88BSS)}
    (h : Holds m l) {a : Nat} {c : Cell Nat RTW88BSS}
    (hc : m.list.cell a = some c) : (a, c.val) ∈ l := by
  have hmem : a ∈ addrs l := by
    by_contra hni
    rw [h.only a hni] at hc
    cases hc
  obtain ⟨x, hx, rfl⟩ := List.mem_map.1 hmem
  obtain ⟨n, hcell⟩ := h.seg.cell_of_mem hx
  rw [hcell] at hc
  rw [← Option.some.inj hc]
  exact hx

/-- With distinct BSSIDs the search finds the one entry there is. -/
private theorem find_unique {l : List (Nat × RTW88BSS)}
    (hnd : ((l.map Prod.snd).map RTW88BSS.bssid).Nodup)
    {x : Nat × RTW88BSS} (hx : x ∈ l) {b : RTW88BSS}
    (hb : x.2.bssid = b.bssid) :
    l.find? (fun y => y.2.bssid == b.bssid) = some x := by
  induction l with
  | nil => cases hx
  | cons y l ih =>
      obtain ⟨hni, hnd'⟩ := List.nodup_cons.1 hnd
      rw [List.find?_cons]
      rcases List.mem_cons.1 hx with rfl | hx
      · rw [beq_iff_eq.2 hb]
      · have hne : y.2.bssid ≠ b.bssid := by
          intro heq
          refine hni ?_
          rw [heq, ← hb]
          exact List.mem_map_of_mem (List.mem_map_of_mem hx)
        rw [beq_eq_false_iff_ne.2 hne]
        exact ih hnd' hx

/-- The entry of a beacon: its BSSID, seen now. -/
theorem scanEntry_seen (skb : SkBuff) (generation : UInt32) :
    (scanEntry skb generation).bssid = addr3 skb.data
      ∧ (scanEntry skb generation).lastSeenScan = generation := by
  have hfield : ∀ b e, (scanField b e).bssid = b.bssid := by
    intro b e
    simp only [scanField]
    split
    · rfl
    · split
      · rfl
      · split
        · rfl
        · split
          · split <;> rfl
          · split <;> rfl
  have helem : ∀ b e, (scanElem b e).bssid = b.bssid := by
    intro b e
    simp only [scanElem]
    split <;> exact hfield b e
  have hall : ∀ (es : List Elem) b,
      (es.foldl scanElem b).bssid = b.bssid := by
    intro es
    induction es with
    | nil => exact fun _ => rfl
    | cons e es ih => exact fun b => (ih _).trans (helem b e)
  have hentry := hall (elems (skb.data.drop 36))
    { RTW88BSS.zero with bssid := addr3 skb.data }
  simp only [scanEntry]
  split
  · exact ⟨hentry, rfl⟩
  · exact ⟨hentry, rfl⟩

/-- A beacon is the same on the list and in memory. -/
private theorem frame_represents {st : BssState} (h : BssGood st) (env : Env)
    (skb : SkBuff) :
    ∃ m, (bssStep st (.frame env skb)).mem = some m
      ∧ Represents m (bssStep st (.frame env skb)).mlme := by
  obtain ⟨hint, m, hm, l, hl, hmap⟩ := h
  by_cases hgo : (skb.data.length < 30 + 12 || !env.bssAlloc) = true
  · -- too short, or no memory
    refine ⟨m, ?_, l, hl, ?_⟩
    · show st.mem.bind _ = _
      rw [hm]
      show processScanResultMem _ _ _ _ = _
      rw [processScanResultMem, if_pos hgo]
    · show _ = (processScanResult env skb st.mlme).bssList
      rw [processScanResult, if_pos hgo]
      exact hmap
  · obtain ⟨m', heq, hcases⟩ :=
      processScanResultMem_holds hl st.mlme.scanGeneration hgo
    have hupd := @updateBss_find
      (scanEntry skb st.mlme.scanGeneration) _ hl.nodup
    rw [hmap] at hupd
    refine ⟨m', ?_, ?_⟩
    · show st.mem.bind _ = _
      rw [hm]
      exact heq
    · show Represents m' (processScanResult env skb st.mlme)
      rw [processScanResult, if_neg hgo]
      cases hx : l.find? fun x =>
          x.2.bssid == (scanEntry skb st.mlme.scanGeneration).bssid with
      | none =>
          rw [hx] at hcases hupd
          simp only [hupd, Option.map_none]
          refine ⟨_, hcases, ?_⟩
          show _ :: l.map Prod.snd = _ :: st.mlme.bssList
          rw [hmap]
      | some x =>
          rw [hx] at hcases hupd
          simp only [hupd, Option.map_some]
          exact ⟨_, hcases.1, rfl⟩

/-- A beacon of a listed BSSID is an update in place. -/
private theorem frame_inPlace {st : BssState} (h : BssGood st) (env : Env)
    (skb : SkBuff) : UpdatesInPlace st (.frame env skb) := by
  obtain ⟨hint, m, hm, l, hl, hmap⟩ := h
  by_cases hgo : (skb.data.length < 30 + 12 || !env.bssAlloc) = true
  · rw [Bool.or_eq_true, decide_eq_true_eq, Bool.not_eq_true'] at hgo
    rcases hgo with hgo | hgo
    · exact .inl hgo
    · exact .inr (.inl hgo)
  · refine .inr (.inr fun m₀ a c hm₀ hc hb => ?_)
    rw [hm] at hm₀
    obtain rfl := Option.some.inj hm₀
    have hnd := hint.nodup
    rw [← hmap] at hnd
    have hfind := find_unique hnd (hl.mem_of_cell hc)
      (hb.trans (scanEntry_seen skb st.mlme.scanGeneration).1.symm)
    obtain ⟨m', heq, hcases⟩ :=
      processScanResultMem_holds hl st.mlme.scanGeneration hgo
    rw [hfind] at hcases
    obtain ⟨hholds, hhead, ⟨c', hc', hnew⟩, hoff⟩ := hcases
    rw [hc] at hc'
    obtain rfl := Option.some.inj hc'
    refine ⟨m', ?_, hhead, ?_, hnew, hoff⟩
    · show st.mem.bind _ = _
      rw [hm]
      exact heq
    · rw [hholds.count, hl.count, List.length_map]

/-- What one event does. -/
private theorem bssStep_good {st : BssState} (h : BssGood st)
    (e : BssEvent) : BssGood (bssStep st e) := by
  obtain ⟨hint, m, hm, l, hl, hmap⟩ := id h
  cases e with
  | frame env skb =>
      exact ⟨processScanResult_intact hint env skb,
        frame_represents h env skb⟩
  | scan hw env =>
      obtain ⟨hlist, hcount, hgen⟩ := cmdScan_bss hw env st.mlme
      by_cases hgo : st.mlme.state ≠ .idle ∨ st.mlme.up = false
      · rw [if_pos hgo] at hlist hcount hgen
        refine ⟨hint.same hlist hcount hgen, m, ?_, l, hl, ?_⟩
        · show st.mem.bind (cmdScanMem st.mlme) = _
          rw [hm]
          show cmdScanMem st.mlme m = _
          rw [cmdScanMem, if_pos hgo]
        · exact hmap.trans hlist.symm
      · rw [if_neg hgo] at hlist hcount hgen
        refine ⟨(nextGeneration_intact hint).same hlist hcount hgen, ?_⟩
        show ∃ m', st.mem.bind (cmdScanMem st.mlme) = some m'
          ∧ ∃ l', Holds m' l'
          ∧ l'.map Prod.snd = (cmdScan hw env st.mlme).2.2.bssList
        rw [hm, hlist, Option.bind_some, cmdScanMem, if_neg hgo,
          nextGeneration]
        by_cases hwrap : st.mlme.scanGeneration + 1 = 0
        · obtain ⟨cell, heq, hholds⟩ :=
            mapFrom_holds hl fun b => { b with lastSeenScan := 1 }
          simp only [if_pos hwrap, heq]
          refine ⟨_, rfl, _, hholds, ?_⟩
          rw [← hmap, List.map_map, List.map_map]
          rfl
        · simp only [if_neg hwrap]
          exact ⟨m, rfl, l, hl, hmap⟩
  | done hw aborted =>
      obtain ⟨hlist, hcount, hgen⟩ := scanDone_bss hw aborted st.mlme
      cases aborted with
      | true =>
          refine ⟨hint.same hlist hcount hgen, m, ?_, l, hl, ?_⟩
          · show st.mem.bind _ = _
            rw [hm]
            rfl
          · exact hmap.trans hlist.symm
      | false =>
          refine ⟨(ageBssList_intact hint).same hlist hcount hgen, ?_⟩
          obtain ⟨m', heq, hholds⟩ := scanDoneMem_holds hl st.mlme
          refine ⟨m', ?_, _, hholds, ?_⟩
          · show st.mem.bind _ = _
            rw [hm]
            exact heq
          · show _ = (scanDone hw false st.mlme).bssList
            rw [hlist]
            show _ = st.mlme.bssList.filter (keepsBss st.mlme)
            rw [← hmap, List.filter_map]
            rfl
  | other s =>
      exact ⟨hint.same rfl rfl rfl, m, hm, l, hl, hmap⟩

/-- Before the first event there is no entry. -/
private theorem bssInit_good (powered : Bool) :
    BssGood (BssState.init powered) := by
  refine ⟨⟨List.nodup_nil, rfl, fun b hb => ?_⟩, _, rfl, [], ?_, rfl⟩
  · cases hb
  · exact ⟨rfl, List.nodup_nil, fun a ha => (by cases ha), fun _ _ => rfl,
      rfl⟩

/-- The list of every run is intact, and in memory. -/
theorem bssRun_good (powered : Bool) (es : List BssEvent) :
    BssIntact (bssRun powered es).mlme
      ∧ ∃ m, (bssRun powered es).mem = some m
        ∧ Represents m (bssRun powered es).mlme :=
  runFrom_inv (I := BssGood) (fun _ e hst => bssStep_good hst e)
    (bssInit_good powered) es

/-- For every sequence of received frames, scans and scan ends, the scan
list is intact, the entries in memory are that list and no pointer
dangles; and every beacon of a listed BSSID replaced that entry's data
and nothing else. -/
theorem bss_list_invariant (powered : Bool) (es : List BssEvent) :
    BssIntact (bssRun powered es).mlme
      ∧ (∃ m, (bssRun powered es).mem = some m
        ∧ Represents m (bssRun powered es).mlme)
      ∧ Along bssStep UpdatesInPlace (BssState.init powered) es := by
  obtain ⟨hintact, hmem⟩ := bssRun_good powered es
  refine ⟨hintact, hmem, ?_⟩
  refine along_of_always (I := BssGood) (fun _ e hst => bssStep_good hst e)
    (fun st e hst => ?_) (bssInit_good powered) es
  cases e with
  | frame env skb => exact frame_inPlace hst env skb
  | scan hw env => trivial
  | done hw aborted => trivial
  | other s => trivial

end Rtw88
