/-
`derivePMK` is PBKDF2-HMAC-SHA1 with 4096 iterations.

`Apart` facts come from `PmkFrame.Apart`: the locals of one call share no
byte with each other, with the passphrase or with the output. Nothing is
asked of the SSID, which is copied before anything is written. One turn
of the inner loop hashes `u` into itself and folds it into `t`
(`pmkTurn_spec`); the turns of a block by induction (`pmkTurns_spec`);
a block then leaves `T_i` in `t` (`pmkBlock_spec`), of which the second
gives the last twelve bytes.

# Memory

The function is embedded on a memory of bytes, with the addresses of its
locals as parameters, since whether `u` may be data and digest at once is
a question about addresses. Each lemma says what the memory holds at the
local it is about, and that nothing outside the locals and the output was
written; that the passphrase is still there for the next turn follows
from the second.

The standard has the iterations as an exclusive or of a list of blocks,
the code keeps the last block and the sum. The invariant of the turns is
the pair (`pmkTurns_spec`), and the number of a block is put into its
last four bytes one by one (`blockNumber`).
-/
import Rtw88.Proofs.Crypto.Hmac

namespace Rtw88

open Fips180

/-- HMAC-SHA1. -/
abbrev hmacSha1 : List UInt8 → List UInt8 → List UInt8 := Kdf.hmac sha1 64

/-- The locals of a call of `derivePMK` are objects of their own: apart
from each other, from the passphrase of `n` bytes and from the output. -/
structure PmkFrame.Apart (f : PmkFrame) (passphrase n pmk : Nat) : Prop where
  salt_u : Rtw88.Apart f.salt 128 f.u 20
  salt_t : Rtw88.Apart f.salt 128 f.t 20
  u_t : Rtw88.Apart f.u 20 f.t 20
  salt_pass : Rtw88.Apart f.salt 128 passphrase n
  u_pass : Rtw88.Apart f.u 20 passphrase n
  t_pass : Rtw88.Apart f.t 20 passphrase n
  salt_pmk : Rtw88.Apart f.salt 128 pmk 32
  u_pmk : Rtw88.Apart f.u 20 pmk 32
  t_pmk : Rtw88.Apart f.t 20 pmk 32
  pmk_pass : Rtw88.Apart pmk 32 passphrase n

variable {f : PmkFrame} {passphrase n pmk : Nat}

-- ================================================================= the turns

/-- One turn: `u` is hashed in place and folded into `t`. -/
private theorem pmkTurn_spec (passphrase : Nat) {m : Memory} (hn : n < 2 ^ 32)
    (hut : Apart f.u 20 f.t 20) :
    ∃ m', pmkTurn f passphrase n m = some m'
      ∧ readMem m' f.u 20
        = hmacSha1 (readMem m passphrase n) (readMem m f.u 20)
      ∧ readMem m' f.t 20 = Kdf.xor (readMem m f.t 20) (readMem m' f.u 20)
      ∧ Keeps [(f.u, 20), (f.t, 20)] m m' := by
  have hhash := kernHmacSha1At_eq m passphrase n f.u 20 f.u hn (by decide)
  have hlen := hmac_length (readMem m passphrase n) (readMem m f.u 20)
  have hxor : (xorBytes (readMem m f.t 20) (hmacSha1
      (readMem m passphrase n) (readMem m f.u 20))).length = 20 := by
    rw [xorBytes, List.length_zipWith, readMem_length, hlen]
    rfl
  have hu : readMem (writeMem m f.u (hmacSha1 (readMem m passphrase n)
      (readMem m f.u 20))) f.u 20
      = hmacSha1 (readMem m passphrase n) (readMem m f.u 20) :=
    readMem_writeMem hlen
  have ht : readMem (writeMem m f.u (hmacSha1 (readMem m passphrase n)
      (readMem m f.u 20))) f.t 20 = readMem m f.t 20 :=
    readMem_writeMem_apart (by
      rw [hlen]
      exact hut)
  have hafter : pmkTurn f passphrase n m
      = some (writeMem (writeMem m f.u (hmacSha1 (readMem m passphrase n)
          (readMem m f.u 20))) f.t (xorBytes (readMem m f.t 20)
            (hmacSha1 (readMem m passphrase n) (readMem m f.u 20)))) := by
    unfold pmkTurn
    rw [hhash]
    show some _ = some _
    rw [hu, ht]
  refine ⟨_, hafter, ?_, ?_, ?_⟩
  · rw [readMem_writeMem_apart, hu]
    rw [hxor]
    exact hut.symm
  · rw [readMem_writeMem hxor, readMem_writeMem_apart, hu]
    · rfl
    · rw [hxor]
      exact hut.symm
  · refine Keeps.trans (Keeps.write (p := f.u) (i := 0) (n := 20) ?_ rfl ?_)
      (Keeps.write (p := f.t) (i := 0) (n := 20) ?_ rfl ?_)
    · exact List.mem_cons_self
    · rw [hlen]
    · exact List.mem_cons_of_mem _ List.mem_cons_self
    · rw [hxor]

/-- The turns of a block, the passphrase staying what it is. -/
private theorem pmkTurns_spec {m : Memory} {s : List UInt8} {i : Nat}
    (hn : n < 2 ^ 32) (hut : Apart f.u 20 f.t 20)
    (hup : Apart f.u 20 passphrase n) (htp : Apart f.t 20 passphrase n)
    (hu : readMem m f.u 20
      = Kdf.pbkdf2U hmacSha1 (readMem m passphrase n) s i 0)
    (ht : readMem m f.t 20
      = Kdf.pbkdf2U hmacSha1 (readMem m passphrase n) s i 0) (k : Nat) :
    ∃ m', (List.range k).foldlM (fun m _ => pmkTurn f passphrase n m) m
        = some m'
      ∧ readMem m' f.u 20
        = Kdf.pbkdf2U hmacSha1 (readMem m passphrase n) s i k
      ∧ readMem m' f.t 20
        = Kdf.pbkdf2T hmacSha1 (readMem m passphrase n) s (k + 1) i
      ∧ Keeps [(f.u, 20), (f.t, 20)] m m' := by
  induction k with
  | zero => exact ⟨m, rfl, hu, ht, Keeps.refl _ _⟩
  | succ k ih =>
      obtain ⟨m₁, hrun, hu₁, ht₁, hkeeps⟩ := ih
      have hpass : readMem m₁ passphrase n = readMem m passphrase n := by
        apply hkeeps.read
        intro r hr
        simp only [List.mem_cons, List.not_mem_nil, or_false] at hr
        rcases hr with rfl | rfl
        · exact hup
        · exact htp
      obtain ⟨m₂, hturn, hu₂, ht₂, hkeeps₂⟩ := pmkTurn_spec
        (f := f) passphrase (m := m₁) hn hut
      rw [hpass, hu₁] at hu₂
      refine ⟨m₂, ?_, hu₂, ?_, hkeeps.trans hkeeps₂⟩
      · rw [List.range_succ, List.foldlM_append, hrun]
        show (do
          let m ← pmkTurn f passphrase n m₁
          some m) = _
        rw [hturn]
        rfl
      · rw [ht₂, hu₂, ht₁]
        show _ = (List.range (k + 1)).foldl _ _
        rw [List.range_succ, List.foldl_append]
        rfl

-- ================================================================ the blocks

/-- The four bytes of the block number, put one by one. -/
private theorem blockNumber (m : Memory) (p block : Nat) :
    writeMem (writeMem (writeMem (writeMem m p
        [UInt8.ofNat (block >>> 24)]) (p + 1) [UInt8.ofNat (block >>> 16)])
        (p + 2) [UInt8.ofNat (block >>> 8)]) (p + 3) [UInt8.ofNat block]
      = writeMem m p (beBytes 4 block) := by
  have hbytes : beBytes 4 block
      = [UInt8.ofNat (block >>> 24)] ++ [UInt8.ofNat (block >>> 16)]
        ++ [UInt8.ofNat (block >>> 8)] ++ [UInt8.ofNat block] := by
    simp [beBytes, List.range_succ, Nat.shiftRight_eq_div_pow]
  rw [hbytes, ← writeMem_append, ← writeMem_append, ← writeMem_append]
  rfl

/-- A block: `t` comes to hold `T_i`, of which the block's part is
copied out; the SSID in the salt stays. -/
private theorem pmkBlock_spec {m : Memory} (ssidLen block : Nat)
    (hf : f.Apart passphrase n pmk) (hn : n < 2 ^ 32)
    (hs : ssidLen ≤ 124) :
    ∃ m', pmkBlock f passphrase n ssidLen pmk m block
        = (if block = 1 then some (writeMem m' pmk (readMem m' f.t 20))
          else some (writeMem m' (pmk + 20) (readMem m' f.t 12)))
      ∧ readMem m' f.t 20 = Kdf.pbkdf2T hmacSha1 (readMem m passphrase n)
          (readMem m f.salt ssidLen) 4096 block
      ∧ readMem m' f.salt ssidLen = readMem m f.salt ssidLen
      ∧ Keeps [(f.salt, 128), (f.u, 20), (f.t, 20)] m m' := by
  have hnum : (beBytes 4 block).length = 4 := beBytes_length 4 block
  -- the salt of the block
  let m₁ := writeMem m (f.salt + ssidLen) (beBytes 4 block)
  have hkeep₁ : Keeps [(f.salt, 128), (f.u, 20), (f.t, 20)] m m₁ := by
    refine Keeps.write (p := f.salt) (i := ssidLen) (n := 128) ?_ rfl ?_
    · exact List.mem_cons_self
    · rw [hnum]
      omega
  have hssid₁ : readMem m₁ f.salt ssidLen = readMem m f.salt ssidLen := by
    apply readMem_writeMem_apart
    exact Or.inr (Nat.le_refl _)
  have hsalt₁ : readMem m₁ f.salt (ssidLen + 4)
      = readMem m f.salt ssidLen ++ beBytes 4 block := by
    rw [readMem_add, hssid₁, readMem_writeMem hnum]
  have hpass₁ : readMem m₁ passphrase n = readMem m passphrase n := by
    apply readMem_writeMem_apart
    rw [hnum]
    exact hf.salt_pass.part (by omega)
  -- its first hash, into `u` and from there into `t`
  have hhash := kernHmacSha1At_eq m₁ passphrase n f.salt (ssidLen + 4) f.u
    hn (by omega)
  rw [hsalt₁, hpass₁] at hhash
  let u := Kdf.pbkdf2U hmacSha1 (readMem m passphrase n)
    (readMem m f.salt ssidLen) block 0
  have hu : u.length = 20 := hmac_length _ _
  let m₂ := writeMem m₁ f.u u
  have hu₂ : readMem m₂ f.u 20 = u := readMem_writeMem hu
  have hkeep₂ : Keeps [(f.salt, 128), (f.u, 20), (f.t, 20)] m₁ m₂ := by
    refine Keeps.write (p := f.u) (i := 0) (n := 20) ?_ rfl ?_
    · exact List.mem_cons_of_mem _ List.mem_cons_self
    · rw [hu]
  let m₃ := writeMem m₂ f.t u
  have ht₃ : readMem m₃ f.t 20 = u := readMem_writeMem hu
  have hu₃ : readMem m₃ f.u 20 = u := by
    rw [← hu₂]
    apply readMem_writeMem_apart
    rw [hu]
    exact hf.u_t.symm
  have hkeep₃ : Keeps [(f.salt, 128), (f.u, 20), (f.t, 20)] m₂ m₃ := by
    refine Keeps.write (p := f.t) (i := 0) (n := 20) ?_ rfl ?_
    · exact List.mem_cons_of_mem _ (List.mem_cons_of_mem _
        List.mem_cons_self)
    · rw [hu]
  have hkeep := (hkeep₁.trans hkeep₂).trans hkeep₃
  have hread : ∀ {m' : Memory} {q k : Nat},
      Keeps [(f.u, 20), (f.t, 20)] m₃ m' → Apart f.u 20 q k →
      Apart f.t 20 q k → readMem m' q k = readMem m₁ q k := by
    intro m' q k hm' hqu hqt
    rw [hm'.read, readMem_writeMem_apart, readMem_writeMem_apart]
    · rw [hu]
      exact hqu
    · rw [hu]
      exact hqt
    · intro r hr
      simp only [List.mem_cons, List.not_mem_nil, or_false] at hr
      rcases hr with rfl | rfl
      · exact hqu
      · exact hqt
  have hpass₃ : readMem m₃ passphrase n = readMem m passphrase n := by
    rw [hread (Keeps.refl _ _) hf.u_pass hf.t_pass, hpass₁]
  -- the turns
  obtain ⟨m₄, hrun, -, ht₄, hkeep₄⟩ := pmkTurns_spec (m := m₃)
    (s := readMem m f.salt ssidLen) (i := block) hn hf.u_t hf.u_pass
    hf.t_pass (by rw [hu₃, hpass₃]) (by rw [ht₃, hpass₃]) 4095
  rw [hpass₃] at ht₄
  refine ⟨m₄, ?_, ht₄, ?_, ?_⟩
  · unfold pmkBlock
    simp only [blockNumber]
    show (kernHmacSha1At m₁ passphrase n f.salt (ssidLen + 4) f.u).bind _
      = _
    rw [hhash, Option.bind_some]
    show ((List.range 4095).foldlM (fun m _ => pmkTurn f passphrase n m)
      (writeMem m₂ f.t (readMem m₂ f.u 20))).bind _ = _
    rw [hu₂]
    show ((List.range 4095).foldlM (fun m _ => pmkTurn f passphrase n m)
      m₃).bind _ = _
    rw [hrun]
    rfl
  · have hsu := hf.salt_u.front (l := ssidLen) (by omega)
    have hst := hf.salt_t.front (l := ssidLen) (by omega)
    rw [hread hkeep₄ hsu.symm hst.symm, hssid₁]
  · refine hkeep.trans (hkeep₄.mono ?_)
    intro r hr
    exact List.mem_cons_of_mem _ hr

-- ============================================================== the function

/-- `T_1` and the front of `T_2` are the 32 bytes of PBKDF2. -/
private theorem pbkdf2_two_blocks (p s : List UInt8) :
    Kdf.pbkdf2 hmacSha1 20 p s 4096 32
      = Kdf.pbkdf2T hmacSha1 p s 4096 1
        ++ (Kdf.pbkdf2T hmacSha1 p s 4096 2).take 12 := by
  have hlen : ∀ (i k : Nat), (Kdf.pbkdf2T hmacSha1 p s (k + 1) i).length
      = 20 := by
    intro i k
    have hu : ∀ j, (Kdf.pbkdf2U hmacSha1 p s i j).length = 20 := by
      intro j
      cases j with
      | zero => exact hmac_length _ _
      | succ j => exact hmac_length _ _
    induction k with
    | zero => exact hu 0
    | succ k ih =>
        have hstep : Kdf.pbkdf2T hmacSha1 p s (k + 1 + 1) i
            = Kdf.xor (Kdf.pbkdf2T hmacSha1 p s (k + 1) i)
              (Kdf.pbkdf2U hmacSha1 p s i (k + 1)) := by
          show (List.range (k + 1)).foldl _ _ = _
          rw [List.range_succ, List.foldl_append]
          rfl
        rw [hstep, Kdf.xor, List.length_zipWith, ih, hu]
        rfl
  have hfirst := hlen 1 4095
  have htwo : List.range ((32 + 20 - 1) / 20) = [0, 1] := rfl
  unfold Kdf.pbkdf2
  rw [htwo, List.flatMap_cons, List.flatMap_cons, List.flatMap_nil,
    List.append_nil, List.take_append, hfirst,
    List.take_of_length_le (by rw [hfirst]; decide)]

/-- `derivePMK` writes PBKDF2 of the passphrase and the SSID, and nothing
outside its locals and its output. -/
theorem derivePMKAt_eq {m : Memory} {ssid ssidLen : Nat}
    (hnul : ∃ n, m (passphrase + n) = 0)
    (hn : strlen m passphrase hnul < 2 ^ 32) (hs : ssidLen ≤ 32)
    (hf : f.Apart passphrase (strlen m passphrase hnul) pmk) :
    ∃ m', derivePMKAt f m passphrase hnul ssid ssidLen pmk = some m'
      ∧ readMem m' pmk 32 = Kdf.pbkdf2 hmacSha1 20
          (readMem m passphrase (strlen m passphrase hnul))
          (readMem m ssid ssidLen) 4096 32
      ∧ Keeps [(f.salt, 128), (f.u, 20), (f.t, 20), (pmk, 32)] m m' := by
  obtain ⟨n, hnlen⟩ : ∃ n, n = strlen m passphrase hnul := ⟨_, rfl⟩
  rw [← hnlen] at hn hf ⊢
  have hclamp : (if ssidLen > 120 then 120 else ssidLen) = ssidLen :=
    if_neg (by omega)
  have hmono : ∀ {m m' : Memory},
      Keeps [(f.salt, 128), (f.u, 20), (f.t, 20)] m m' →
      Keeps [(f.salt, 128), (f.u, 20), (f.t, 20), (pmk, 32)] m m' := by
    intro m m' h
    apply h.mono
    intro r hr
    simp only [List.mem_cons, List.not_mem_nil, or_false] at hr ⊢
    rcases hr with hr | hr | hr
    · exact Or.inl hr
    · exact Or.inr (Or.inl hr)
    · exact Or.inr (Or.inr (Or.inl hr))
  -- a read apart from the locals and the output
  have hread : ∀ {m m' : Memory} {q k : Nat},
      Keeps [(f.salt, 128), (f.u, 20), (f.t, 20)] m m' →
      Apart f.salt 128 q k → Apart f.u 20 q k → Apart f.t 20 q k →
      readMem m' q k = readMem m q k := by
    intro m m' q k h hqs hqu hqt
    apply h.read
    intro r hr
    simp only [List.mem_cons, List.not_mem_nil, or_false] at hr
    rcases hr with rfl | rfl | rfl
    · exact hqs
    · exact hqu
    · exact hqt
  -- the SSID, copied to the salt
  let m₀ := writeMem m f.salt (readMem m ssid ssidLen)
  have hlen₀ : (readMem m ssid ssidLen).length = ssidLen :=
    readMem_length _ _ _
  have hkeep₀ : Keeps [(f.salt, 128), (f.u, 20), (f.t, 20)] m m₀ := by
    refine Keeps.write (p := f.salt) (i := 0) (n := 128) ?_ rfl ?_
    · exact List.mem_cons_self
    · rw [hlen₀]
      omega
  have hssid₀ : readMem m₀ f.salt ssidLen = readMem m ssid ssidLen :=
    readMem_writeMem hlen₀
  have hpass₀ : readMem m₀ passphrase n = readMem m passphrase n :=
    hread hkeep₀ hf.salt_pass hf.u_pass hf.t_pass
  -- the first block
  obtain ⟨m₁, hone, ht₁, hsalt₁, hkeep₁⟩ :=
    pmkBlock_spec (m := m₀) ssidLen 1 hf hn (by omega)
  have hpass₁ := hread hkeep₁ hf.salt_pass hf.u_pass hf.t_pass
  rw [if_pos rfl] at hone
  rw [hpass₀, hssid₀] at ht₁
  let m₂ := writeMem m₁ pmk (readMem m₁ f.t 20)
  have hlen₂ : (readMem m₁ f.t 20).length = 20 := readMem_length _ _ _
  have hpmk₂ : readMem m₂ pmk 20 = readMem m₁ f.t 20 :=
    readMem_writeMem hlen₂
  have hpass₂ : readMem m₂ passphrase n = readMem m passphrase n := by
    rw [readMem_writeMem_apart, hpass₁, hpass₀]
    rw [hlen₂]
    exact hf.pmk_pass.front (by decide)
  have hssid₂ : readMem m₂ f.salt ssidLen = readMem m ssid ssidLen := by
    rw [readMem_writeMem_apart, hsalt₁, hssid₀]
    rw [hlen₂]
    exact (hf.salt_pmk.front (by omega)).symm.front (by decide)
  -- the second
  obtain ⟨m₃, htwo, ht₃, -, hkeep₃⟩ :=
    pmkBlock_spec (m := m₂) ssidLen 2 hf hn (by omega)
  rw [if_neg (by decide)] at htwo
  rw [hpass₂, hssid₂] at ht₃
  have hpmk₃ : readMem m₃ pmk 20 = readMem m₂ pmk 20 :=
    hread hkeep₃ (hf.salt_pmk.symm.front (by decide)).symm
      (hf.u_pmk.symm.front (by decide)).symm
      (hf.t_pmk.symm.front (by decide)).symm
  have hlen₃ : (readMem m₃ f.t 12).length = 12 := readMem_length _ _ _
  refine ⟨writeMem m₃ (pmk + 20) (readMem m₃ f.t 12), ?_, ?_, ?_⟩
  · unfold derivePMKAt
    simp only [hclamp, ← hnlen]
    show (pmkBlock f passphrase n ssidLen pmk m₀ 1).bind _ = _
    rw [hone, Option.bind_some]
    show (pmkBlock f passphrase n ssidLen pmk m₂ 2).bind _ = _
    rw [htwo]
    rfl
  · have hsplit := readMem_add
      (writeMem m₃ (pmk + 20) (readMem m₃ f.t 12)) pmk 20 12
    have hfront : readMem (writeMem m₃ (pmk + 20) (readMem m₃ f.t 12)) pmk 20
        = readMem m₃ pmk 20 := by
      apply readMem_writeMem_apart
      exact Or.inr (Nat.le_refl _)
    have htail : readMem m₃ f.t 12 = (readMem m₃ f.t 20).take 12 :=
      (readMem_take m₃ f.t (by decide)).symm
    rw [pbkdf2_two_blocks, ← ht₁, ← ht₃, ← htail]
    show readMem _ pmk (20 + 12) = _
    rw [hsplit, hfront, hpmk₃, hpmk₂, readMem_writeMem hlen₃]
  · have hout : ∀ {m : Memory} {i : Nat} {bs : List UInt8},
        i + bs.length ≤ 32 →
        Keeps [(f.salt, 128), (f.u, 20), (f.t, 20), (pmk, 32)] m
          (writeMem m (pmk + i) bs) := by
      intro m i bs hi
      refine Keeps.write (p := pmk) (i := i) (n := 32) ?_ rfl hi
      simp
    have hsteps := (hmono hkeep₀).trans (hmono hkeep₁)
    have hsteps := hsteps.trans (hout (i := 0) (by rw [hlen₂]; decide))
    have hsteps := hsteps.trans (hmono hkeep₃)
    exact hsteps.trans (hout (by rw [hlen₃]))

/-- The two derivations under the passphrase are the standards': HMAC-SHA1
through any pointers, also when the digest goes over the data, and
PBKDF2 with 4096 iterations. -/
theorem psk_derivation_standard :
    (∀ (m : Memory) (key keyLen data dataLen mac : Nat),
      keyLen < 2 ^ 32 → dataLen < 2 ^ 32 →
      kernHmacSha1At m key keyLen data dataLen mac
        = some (writeMem m mac (Kdf.hmac sha1 64 (readMem m key keyLen)
            (readMem m data dataLen))))
    ∧ ∀ (f : PmkFrame) (m : Memory) (passphrase ssid ssidLen pmk : Nat)
        (hnul : ∃ n, m (passphrase + n) = 0),
      strlen m passphrase hnul < 2 ^ 32 → ssidLen ≤ 32 →
      f.Apart passphrase (strlen m passphrase hnul) pmk →
      ∃ m', derivePMKAt f m passphrase hnul ssid ssidLen pmk = some m'
        ∧ readMem m' pmk 32 = Kdf.pbkdf2 hmacSha1 20
            (readMem m passphrase (strlen m passphrase hnul))
            (readMem m ssid ssidLen) 4096 32
        ∧ Keeps [(f.salt, 128), (f.u, 20), (f.t, 20), (pmk, 32)] m m' :=
  ⟨kernHmacSha1At_eq, fun _ _ _ _ _ _ hnul hn hs hf =>
    derivePMKAt_eq hnul hn hs hf⟩

/-- "password" at 0, "IEEE" at 16, a key of twenty bytes at 32 and
"Hi There" at 64. -/
def sampleMemory : Memory := fun a =>
  peek ([0x70, 0x61, 0x73, 0x73, 0x77, 0x6f, 0x72, 0x64]
    ++ List.replicate 8 0 ++ [0x49, 0x45, 0x45, 0x45]
    ++ List.replicate 12 0 ++ List.replicate 20 0x0b
    ++ List.replicate 12 0
    ++ [0x48, 0x69, 0x20, 0x54, 0x68, 0x65, 0x72, 0x65]) a

theorem sampleMemory_nul : ∃ n, sampleMemory (0 + n) = 0 := ⟨8, by decide⟩

/-- A digest over its own data, and a pairwise master key. -/
theorem sample_psk_derivation :
    (∃ m', kernHmacSha1At sampleMemory 32 20 64 8 64 = some m'
      ∧ readMem m' 64 20
        = [0xb6, 0x17, 0x31, 0x86, 0x55, 0x05, 0x72, 0x64, 0xe2, 0x8b,
           0xc0, 0xb6, 0xfb, 0x37, 0x8c, 0x8e, 0xf1, 0x46, 0xbe, 0x00])
    ∧ ∃ m', derivePMKAt ⟨100, 300, 400⟩ sampleMemory 0 sampleMemory_nul
        16 4 500 = some m'
      ∧ readMem m' 500 32 = Kdf.pbkdf2 hmacSha1 20
          [0x70, 0x61, 0x73, 0x73, 0x77, 0x6f, 0x72, 0x64]
          [0x49, 0x45, 0x45, 0x45] 4096 32 := by
  have hlen : strlen sampleMemory 0 sampleMemory_nul = 8 := by
    rw [strlen, Nat.find_eq_iff]
    exact ⟨by decide, by decide⟩
  have hhmac := psk_derivation_standard.1 sampleMemory 32 20 64 8 64
    (by decide) (by decide)
  obtain ⟨m', hrun, hpmk, -⟩ := psk_derivation_standard.2 ⟨100, 300, 400⟩
    sampleMemory 0 16 4 500 sampleMemory_nul (by rw [hlen]; decide)
    (by decide) (by rw [hlen]; constructor <;> decide)
  rw [hlen] at hpmk
  refine ⟨⟨_, hhmac, ?_⟩, m', hrun, hpmk⟩
  rw [readMem_writeMem (hmac_length _ _)]
  decide +kernel

end Rtw88
