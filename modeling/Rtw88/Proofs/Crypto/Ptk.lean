/-
`derivePTK` is the PRF of the standard, for both ends the same.

`memcmp` on strings of one length compares the numbers they spell
(`memcmpLt_iff`), so the four branches sort the addresses and the nonces;
the copies fill `data` up to the counter byte with the sorted strings
(`filled_data`), and each turn of the loop puts its block of the output
behind what the turns before it put (`ptkTurn_spec`).

The loop writes the counter into the last byte of the array it hashes, so
the invariant between two turns leaves that byte open (`PtkAt`). The
output takes four turns, and of the last block only the front. That both
ends compute the same is a matter of the sorting alone: exchanging the
two addresses with the two nonces exchanges the branches
(`ptkData_comm`).
-/
import Rtw88.Proofs.Crypto.Pmk

namespace Rtw88

open Fips180

-- ================================================================= ordering

/-- `memcmp` orders strings of one length as big-endian numbers. -/
theorem memcmpLt_iff {a b : List UInt8} (h : a.length = b.length) :
    memcmpLt a b = true ↔ beVal a < beVal b := by
  induction a generalizing b with
  | nil =>
      rw [List.eq_nil_of_length_eq_zero h.symm]
      simp [memcmpLt]
  | cons x xs ih =>
      cases b with
      | nil => simp at h
      | cons y ys =>
          have hlen : xs.length = ys.length := by simpa using h
          have hx := beVal_lt xs
          have hy := beVal_lt ys
          rw [← hlen] at hy
          unfold memcmpLt
          by_cases heq : x = y
          · rw [if_pos heq, ih hlen, heq, beVal, beVal, hlen]
            omega
          · rw [if_neg heq, decide_eq_true_iff, UInt8.lt_iff_toNat_lt,
              beVal, beVal, hlen]
            have hne : x.toNat ≠ y.toNat :=
              fun hc => heq (UInt8.toNat_inj.1 hc)
            rw [hlen] at hx hy
            constructor
            · intro hlt
              exact lead_lt hlt hx
            · intro hlt
              by_contra hge
              have hgt : y.toNat < x.toNat := by omega
              have hless := lead_lt (v := beVal xs) hgt hy
              omega

/-- Two strings sorted by `memcmp`, as `derivePTK` does. -/
theorem sorted_eq {a b : List UInt8} (h : a.length = b.length) :
    (if memcmpLt a b then a ++ b else b ++ a)
      = Kdf.beMin b a ++ Kdf.beMax b a := by
  unfold Kdf.beMin Kdf.beMax
  by_cases hlt : beVal a < beVal b
  · rw [if_pos ((memcmpLt_iff h).2 hlt), if_neg (by omega),
      if_neg (by omega)]
  · rw [if_neg (fun hc => hlt ((memcmpLt_iff h).1 hc)), if_pos (by omega),
      if_pos (by omega)]

/-- The order of the two does not matter, … -/
theorem beMin_comm {a b : List UInt8} (h : a.length = b.length) :
    Kdf.beMin a b = Kdf.beMin b a := by
  unfold Kdf.beMin
  by_cases heq : beVal a = beVal b
  · rw [beVal_inj h heq]
  · split
    · rw [if_neg (by omega)]
    · rw [if_pos (by omega)]

/-- … for either. -/
theorem beMax_comm {a b : List UInt8} (h : a.length = b.length) :
    Kdf.beMax a b = Kdf.beMax b a := by
  unfold Kdf.beMax
  by_cases heq : beVal a = beVal b
  · rw [beVal_inj h heq]
  · split
    · rw [if_neg (by omega)]
    · rw [if_pos (by omega)]

-- =============================================================== the input

/-- "Pairwise key expansion". -/
def ptkName : List UInt8 :=
  "Pairwise key expansion".toList.map fun c => UInt8.ofNat c.toNat

theorem ptkLabel_eq : ptkLabel = ptkName ++ [0] := by decide

/-- What is hashed, but for the counter byte. -/
theorem ptkData_eq (anonce snonce : Bytes 32) (spa aa : Bytes 6) :
    ptkData anonce snonce spa aa = ptkName ++ [0]
      ++ (Kdf.beMin aa.toList spa.toList ++ Kdf.beMax aa.toList spa.toList
        ++ Kdf.beMin anonce.toList snonce.toList
        ++ Kdf.beMax anonce.toList snonce.toList) := by
  have hmacs : spa.toList.length = aa.toList.length :=
    spa.2.trans aa.2.symm
  have hnonces : snonce.toList.length = anonce.toList.length :=
    snonce.2.trans anonce.2.symm
  unfold ptkData
  simp only [sorted_eq hmacs, sorted_eq hnonces, ptkLabel_eq,
    List.append_assoc]

theorem ptkData_length (anonce snonce : Bytes 32) (spa aa : Bytes 6) :
    (ptkData anonce snonce spa aa).length = 99 := by
  unfold ptkData
  split <;> split <;> simp [ptkLabel]

/-- Neither the roles nor the order of the nonces matter. -/
theorem ptkData_comm (anonce snonce : Bytes 32) (spa aa : Bytes 6) :
    ptkData anonce snonce spa aa = ptkData snonce anonce aa spa := by
  have hmacs : aa.toList.length = spa.toList.length :=
    aa.2.trans spa.2.symm
  have hnonces : anonce.toList.length = snonce.toList.length :=
    anonce.2.trans snonce.2.symm
  rw [ptkData_eq, ptkData_eq, beMin_comm hmacs, beMax_comm hmacs,
    beMin_comm hnonces, beMax_comm hnonces]

/-- A copy behind what is filled fills more. -/
private theorem fill {d front : List UInt8} {off n : Nat}
    (bs : List UInt8) (hlen : d.length = 100) (hfront : d.take off = front)
    (hn : off + bs.length = n) (hin : n ≤ 100) :
    (splice d off bs).length = 100
      ∧ (splice d off bs).take n = front ++ bs := by
  constructor
  · rw [splice_length (by omega), hlen]
  · rw [← hn, take_splice (by omega), hfront]

-- ================================================================ the loop

/-- The blocks of the first `i` turns. -/
def ptkBlocks (key d : List UInt8) (i : Nat) : List UInt8 :=
  (List.range i).flatMap fun k => hmacSha1 key (d ++ [UInt8.ofNat k])

theorem ptkBlocks_succ (key d : List UInt8) (i : Nat) :
    ptkBlocks key d (i + 1)
      = ptkBlocks key d i ++ hmacSha1 key (d ++ [UInt8.ofNat i]) := by
  simp [ptkBlocks, List.range_succ]

theorem ptkBlocks_length (key d : List UInt8) (i : Nat) :
    (ptkBlocks key d i).length = i * 20 := by
  induction i with
  | zero => rfl
  | succ i ih =>
      rw [ptkBlocks_succ, List.length_append, ih, hmac_length, Nat.succ_mul]

/-- The arrays before turn `i`: the data with any counter byte, and the
blocks of the turns before. -/
structure PtkAt (key d : List UInt8) (i : Nat) (s : PtkArrays) : Prop where
  dataLen : s.data.length = 100
  filled : s.data.take 99 = d
  ptkLen : s.ptk.length = 64
  blocks : s.ptk.take (i * 20) = (ptkBlocks key d i).take 64

/-- One turn puts its block behind the others, the last one its front. -/
private theorem ptkTurn_spec {pmk : Bytes 32} {d : List UInt8} {i : Nat}
    {s : PtkArrays} (h : PtkAt pmk.toList d i s) (hi : i < 4) :
    PtkAt pmk.toList d (i + 1) (ptkTurn pmk s i) := by
  have hdata := h.dataLen
  have hptk := h.ptkLen
  have hd : d.length = 99 := by
    rw [← h.filled, List.length_take, hdata]
    rfl
  obtain ⟨hlen, hfull⟩ := fill [UInt8.ofNat i] hdata h.filled (n := 100)
    rfl (Nat.le_refl _)
  have hkeep : (splice s.data 99 [UInt8.ofNat i]).take 99 = d := by
    rw [splice_take (by omega), h.filled]
  have hhash : (kernHmacSha1 pmk.toList
      ((splice s.data 99 [UInt8.ofNat i]).take 100)).toList
      = hmacSha1 pmk.toList (d ++ [UInt8.ofNat i]) := by
    rw [hfull]
    apply kernHmacSha1_eq
    · rw [pmk.toList_length]
      decide
    · rw [List.length_append, hd, List.length_singleton]
      decide
  have hbefore : (ptkBlocks pmk.toList d i).take 64
      = ptkBlocks pmk.toList d i := by
    apply List.take_of_length_le
    rw [ptkBlocks_length]
    omega
  have hblen : (hmacSha1 pmk.toList (d ++ [UInt8.ofNat i])).length = 20 :=
    hmac_length _ _
  have hfront := h.blocks
  rw [hbefore] at hfront
  have hturn : ptkTurn pmk s i
      = { data := splice s.data 99 [UInt8.ofNat i]
          ptk := if i < 3
            then splice s.ptk (i * 20)
              (hmacSha1 pmk.toList (d ++ [UInt8.ofNat i]))
            else splice s.ptk (i * 20)
              ((hmacSha1 pmk.toList (d ++ [UInt8.ofNat i])).take 4) } := by
    rw [← hhash]
    rfl
  rw [hturn]
  by_cases hlast : i < 3
  · rw [if_pos hlast]
    refine ⟨hlen, hkeep, ?_, ?_⟩
    · show (splice _ _ _).length = 64
      rw [splice_length (by omega), hptk]
    · show (splice _ _ _).take _ = _
      have hn : (i + 1) * 20 = i * 20
          + (hmacSha1 pmk.toList (d ++ [UInt8.ofNat i])).length := by
        omega
      rw [hn, take_splice (by omega), hfront, ptkBlocks_succ,
        List.take_of_length_le]
      rw [List.length_append, ptkBlocks_length]
      omega
  · rw [if_neg hlast]
    have hi3 : i = 3 := by omega
    have hcut : ((hmacSha1 pmk.toList (d ++ [UInt8.ofNat i])).take 4).length
        = 4 := by
      rw [List.length_take, hblen]
      rfl
    have hnew : (splice s.ptk (i * 20)
        ((hmacSha1 pmk.toList (d ++ [UInt8.ofNat i])).take 4)).length
        = 64 := by
      rw [splice_length (by omega), hptk]
    refine ⟨hlen, hkeep, hnew, ?_⟩
    show (splice _ _ _).take _ = _
    have hn : 64 = i * 20
        + ((hmacSha1 pmk.toList (d ++ [UInt8.ofNat i])).take 4).length := by
      omega
    have hall : (splice s.ptk (i * 20)
        ((hmacSha1 pmk.toList (d ++ [UInt8.ofNat i])).take 4)).take 64
        = s.ptk.take (i * 20)
          ++ (hmacSha1 pmk.toList (d ++ [UInt8.ofNat i])).take 4 := by
      rw [hn, take_splice (by omega)]
    rw [List.take_of_length_le (by omega),
      ← List.take_of_length_le (Nat.le_of_eq hnew), hall, hfront,
      ptkBlocks_succ, List.take_append, hbefore, ptkBlocks_length, hi3]

/-- The copies fill the data up to the counter byte. -/
private theorem fill_all {d a b x y : List UInt8} (hd : d.length = 100)
    (ha : a.length = 6) (hb : b.length = 6) (hx : x.length = 32)
    (hy : y.length = 32) :
    let data := splice (splice (splice (splice (splice (splice d 0
      (ptkLabel.take 22)) 22 [0]) 23 a) 29 b) 35 x) 67 y
    data.length = 100
      ∧ data.take 99 = ptkLabel ++ (a ++ b) ++ (x ++ y) := by
  have hlabel : ptkLabel.take 22 ++ [0] = ptkLabel := rfl
  obtain ⟨h₁, f₁⟩ := fill (ptkLabel.take 22) (n := 22) hd
    (List.take_zero (l := d)) rfl (by decide)
  obtain ⟨h₂, f₂⟩ := fill [0] (n := 23) h₁ f₁ rfl (by decide)
  obtain ⟨h₃, f₃⟩ := fill a (n := 29) h₂ f₂ (by omega) (by decide)
  obtain ⟨h₄, f₄⟩ := fill b (n := 35) h₃ f₃ (by omega) (by decide)
  obtain ⟨h₅, f₅⟩ := fill x (n := 67) h₄ f₄ (by omega) (by decide)
  obtain ⟨h₆, f₆⟩ := fill y (n := 99) h₅ f₅ (by omega) (by decide)
  refine ⟨h₆, f₆.trans ?_⟩
  rw [List.nil_append, hlabel]
  simp only [List.append_assoc]

/-- The arrays that the loop begins with. -/
private theorem filled_data (pmk anonce snonce : Bytes 32)
    (spa aa : Bytes 6) (data₀ : Bytes 100) (ptk₀ : Bytes 64) :
    ∃ s, derivePTKSource pmk anonce snonce spa aa data₀ ptk₀
        = (List.range 4).foldl (ptkTurn pmk) s
      ∧ PtkAt pmk.toList (ptkData anonce snonce spa aa) 0 s := by
  obtain ⟨macs, hmacs⟩ : ∃ macs : Bytes 6 × Bytes 6,
      macs = if memcmpLt spa.toList aa.toList then (spa, aa) else (aa, spa)
    := ⟨_, rfl⟩
  obtain ⟨nonces, hnonces⟩ : ∃ nonces : Bytes 32 × Bytes 32,
      nonces = if memcmpLt snonce.toList anonce.toList
        then (snonce, anonce) else (anonce, snonce) := ⟨_, rfl⟩
  have hdata : ptkData anonce snonce spa aa
      = ptkLabel ++ (macs.1.toList ++ macs.2.toList)
        ++ (nonces.1.toList ++ nonces.2.toList) := by
    unfold ptkData
    rw [hmacs, hnonces]
    split <;> split <;> rfl
  obtain ⟨hlen, hfilled⟩ := fill_all data₀.toList_length
    macs.1.toList_length macs.2.toList_length nonces.1.toList_length
    nonces.2.toList_length
  refine ⟨⟨_, ptk₀.toList⟩, ?_, hlen, hfilled.trans hdata.symm,
    ptk₀.toList_length, rfl⟩
  rw [hmacs, hnonces]
  rfl

/-- The output, after the four turns. -/
private theorem derivePTKSource_blocks (pmk anonce snonce : Bytes 32)
    (spa aa : Bytes 6) (data₀ : Bytes 100) (ptk₀ : Bytes 64) :
    PtkAt pmk.toList (ptkData anonce snonce spa aa) 4
      (derivePTKSource pmk anonce snonce spa aa data₀ ptk₀) := by
  obtain ⟨s, hrun, h₀⟩ := filled_data pmk anonce snonce spa aa data₀ ptk₀
  rw [hrun]
  have h₁ := ptkTurn_spec h₀ (by decide)
  have h₂ := ptkTurn_spec h₁ (by decide)
  have h₃ := ptkTurn_spec h₂ (by decide)
  exact ptkTurn_spec h₃ (by decide)

-- ============================================================ the function

/-- The output is the PRF over the sorted addresses and nonces. -/
theorem derivePTKSource_prf (pmk anonce snonce : Bytes 32)
    (spa aa : Bytes 6) (data₀ : Bytes 100) (ptk₀ : Bytes 64) :
    (derivePTKSource pmk anonce snonce spa aa data₀ ptk₀).ptk
      = Kdf.prf hmacSha1 20 pmk.toList ptkName
          (Kdf.beMin aa.toList spa.toList ++ Kdf.beMax aa.toList spa.toList
            ++ Kdf.beMin anonce.toList snonce.toList
            ++ Kdf.beMax anonce.toList snonce.toList) 64 := by
  have h := derivePTKSource_blocks pmk anonce snonce spa aa data₀ ptk₀
  have hblocks := h.blocks
  rw [List.take_of_length_le (by rw [h.ptkLen]; decide), ptkData_eq]
    at hblocks
  exact hblocks

/-- It does not depend on which end computes it. -/
theorem derivePTKSource_comm (pmk anonce snonce : Bytes 32)
    (spa aa : Bytes 6) (data₀ data₁ : Bytes 100) (ptk₀ ptk₁ : Bytes 64) :
    (derivePTKSource pmk anonce snonce spa aa data₀ ptk₀).ptk
      = (derivePTKSource pmk snonce anonce aa spa data₁ ptk₁).ptk := by
  have h₀ := derivePTKSource_blocks pmk anonce snonce spa aa data₀ ptk₀
  have h₁ := derivePTKSource_blocks pmk snonce anonce aa spa data₁ ptk₁
  have hb₀ := h₀.blocks
  have hb₁ := h₁.blocks
  rw [List.take_of_length_le (by rw [h₀.ptkLen]; decide)] at hb₀
  rw [List.take_of_length_le (by rw [h₁.ptkLen]; decide),
    ← ptkData_comm] at hb₁
  exact hb₀.trans hb₁.symm

/-- `derivePTK` of the model, which leaves the buffers out, is that. -/
theorem derivePTK_source (pmk anonce snonce : Bytes 32)
    (spa aa : Bytes 6) (data₀ : Bytes 100) (ptk₀ : Bytes 64) :
    (derivePTK kernPrims pmk anonce snonce spa aa).toList
      = (derivePTKSource pmk anonce snonce spa aa data₀ ptk₀).ptk := by
  have h := derivePTKSource_blocks pmk anonce snonce spa aa data₀ ptk₀
  have hblocks := h.blocks
  rw [List.take_of_length_le (by rw [h.ptkLen]; decide)] at hblocks
  let d := ptkData anonce snonce spa aa
  have hhash : ∀ i : UInt8, (kernHmacSha1 pmk.toList (d ++ [i])).toList
      = hmacSha1 pmk.toList (d ++ [i]) := by
    intro i
    apply kernHmacSha1_eq
    · rw [pmk.toList_length]
      decide
    · rw [List.length_append, ptkData_length, List.length_singleton]
      decide
  have hlen : ∀ i : UInt8, (hmacSha1 pmk.toList (d ++ [i])).length = 20 :=
    fun i => hmac_length _ _
  have hall : (hmacSha1 pmk.toList (d ++ [0])
      ++ hmacSha1 pmk.toList (d ++ [1]) ++ hmacSha1 pmk.toList (d ++ [2])
      ++ (hmacSha1 pmk.toList (d ++ [3])).take 4).length = 64 := by
    simp only [List.length_append, List.length_take, hlen]
    rfl
  have hfour : ptkBlocks pmk.toList d 4 = hmacSha1 pmk.toList (d ++ [0])
      ++ hmacSha1 pmk.toList (d ++ [1]) ++ hmacSha1 pmk.toList (d ++ [2])
      ++ hmacSha1 pmk.toList (d ++ [3]) := by
    rw [ptkBlocks_succ, ptkBlocks_succ, ptkBlocks_succ, ptkBlocks_succ]
    rfl
  have hcut : (ptkBlocks pmk.toList d 4).take 64
      = hmacSha1 pmk.toList (d ++ [0]) ++ hmacSha1 pmk.toList (d ++ [1])
        ++ hmacSha1 pmk.toList (d ++ [2])
        ++ (hmacSha1 pmk.toList (d ++ [3])).take 4 := by
    rw [hfour, List.take_append, List.take_of_length_le (by
      simp only [List.length_append, hlen]
      decide)]
    simp only [List.length_append, hlen]
  show (grab ((kernHmacSha1 pmk.toList (d ++ [0])).toList
    ++ (kernHmacSha1 pmk.toList (d ++ [1])).toList
    ++ (kernHmacSha1 pmk.toList (d ++ [2])).toList
    ++ ((kernHmacSha1 pmk.toList (d ++ [3])).toList).take 4) 0 64).toList = _
  rw [hhash, hhash, hhash, hhash, grab_eq_slice (by omega), List.drop_zero,
    List.take_of_length_le (Nat.le_of_eq hall), hblocks, hcut]

/-- The pairwise transient key is that of the standard: 64 bytes of the
PRF over the smaller and larger address and the smaller and larger nonce,
inside both buffers, and the same at either end. -/
theorem ptk_derivation_standard (pmk anonce snonce : Bytes 32)
    (spa aa : Bytes 6) (data₀ : Bytes 100) (ptk₀ : Bytes 64) :
    (derivePTKSource pmk anonce snonce spa aa data₀ ptk₀).ptk
        = Kdf.prf hmacSha1 20 pmk.toList ptkName
          (Kdf.beMin aa.toList spa.toList ++ Kdf.beMax aa.toList spa.toList
            ++ Kdf.beMin anonce.toList snonce.toList
            ++ Kdf.beMax anonce.toList snonce.toList) 64
      ∧ (derivePTKSource pmk anonce snonce spa aa data₀ ptk₀).ptk.length = 64
      ∧ (derivePTKSource pmk anonce snonce spa aa data₀ ptk₀).data.length
        = 100
      ∧ (derivePTK kernPrims pmk anonce snonce spa aa).toList
        = (derivePTKSource pmk anonce snonce spa aa data₀ ptk₀).ptk
      ∧ ∀ (data₁ : Bytes 100) (ptk₁ : Bytes 64),
        (derivePTKSource pmk anonce snonce spa aa data₀ ptk₀).ptk
          = (derivePTKSource pmk snonce anonce aa spa data₁ ptk₁).ptk := by
  have h := derivePTKSource_blocks pmk anonce snonce spa aa data₀ ptk₀
  exact ⟨derivePTKSource_prf pmk anonce snonce spa aa data₀ ptk₀, h.ptkLen,
    h.dataLen, derivePTK_source pmk anonce snonce spa aa data₀ ptk₀,
    fun data₁ ptk₁ => derivePTKSource_comm pmk anonce snonce spa aa data₀
      data₁ ptk₀ ptk₁⟩

end Rtw88
