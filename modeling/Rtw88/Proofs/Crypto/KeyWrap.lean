/-
`aes_unwrap_128` is the inverse of the RFC 3394 key wrap, over any block
cipher: `key_unwrap_inverts`.

Its loop is the steps of the wrap taken back in the opposite order
(`unwrapStep_eq`, `unwrapOrder_eq`), between cutting its input into
registers and putting them together (`wrapBytes_cut`, `cut_wrapBytes`).

The library has the wrap as a fold over steps that are numbered once,
across the six passes (Lib/KeyWrap.lean), and shows that the steps taken
back in the opposite order undo it. The source has two nested loops and
computes the number in each turn; that its order is the reverse of the
library's is `unwrapOrder_eq`. The lengths that it turns away are those
of no register and of more than 32 (`LegalWrap`).

For the other direction, what comes out with the integrity check right is
the wrapping of what came out. And where the source returns false the
output is as it was: each access of the loop is to the registers and not
to `out` (`OffOutput`, `aesUnwrap128T_rejects`).
-/
import Rtw88.Lib.KeyWrap
import Rtw88.Proofs.Crypto.Aes
import Rtw88.Proofs.EapolAccess

namespace Rtw88

-- =================================================================== blocks

/-- The registers of an input of `n + 1` blocks. -/
def cutBlocks (inp : List UInt8) (n : Nat) : Bytes 8 × List (Bytes 8) :=
  (grab inp 0 8, (List.range n).map fun i => grab inp (8 + 8 * i) 8)

theorem wrapBytes_cut {inp : List UInt8} {n : Nat}
    (h : inp.length = 8 + 8 * n) : wrapBytes (cutBlocks inp n) = inp := by
  have hrest : ∀ k, k ≤ n →
      ((List.range k).map fun i => grab inp (8 + 8 * i) 8).flatMap
        (fun b => b.toList) = (inp.drop 8).take (8 * k) := by
    intro k hk
    induction k with
    | zero => rfl
    | succ k ih =>
        rw [List.range_succ, List.map_append, List.flatMap_append,
          ih (by omega), List.map_singleton, List.flatMap_singleton,
          grab_eq_slice (by omega), Nat.mul_succ, List.take_add,
          List.drop_drop]
  have hhead : (grab inp 0 8).toList = inp.take 8 := grab_eq_slice (by omega)
  unfold wrapBytes cutBlocks
  simp only
  rw [hrest n (Nat.le_refl n), hhead,
    List.take_of_length_le (i := 8 * n) (l := inp.drop 8),
    List.take_append_drop]
  rw [List.length_drop]
  omega

/-- What stands behind the first `i` registers. -/
private theorem blocks_drop (r : List (Bytes 8)) {i : Nat}
    (hi : i < r.length) :
    (r.flatMap fun b => b.toList).drop (8 * i)
      = r[i].toList ++ (r.drop (i + 1)).flatMap fun b => b.toList := by
  induction r generalizing i with
  | nil => cases hi
  | cons b r ih =>
      rw [List.flatMap_cons]
      cases i with
      | zero => rfl
      | succ i =>
          rw [Nat.mul_succ, Nat.add_comm, ← List.drop_drop,
            List.drop_left' b.toList_length]
          exact ih (Nat.lt_of_succ_lt_succ hi)

theorem cut_wrapBytes (ar : Bytes 8 × List (Bytes 8)) :
    cutBlocks (wrapBytes ar) ar.2.length = ar := by
  obtain ⟨a, r⟩ := ar
  have hhead : grab (wrapBytes (a, r)) 0 8 = a := by
    apply List.Vector.eq
    exact grab_of_drop
      (show _ = a.toList ++ r.flatMap (fun b => b.toList) from rfl)
      a.toList_length
  have hreg : ((List.range r.length).map fun i =>
      grab (wrapBytes (a, r)) (8 + 8 * i) 8) = r := by
    apply List.ext_getElem
    · rw [List.length_map, List.length_range]
    · intro i hi hi'
      rw [List.getElem_map, List.getElem_range]
      apply List.Vector.eq
      apply grab_of_drop
      · rw [← List.drop_drop]
        show List.drop (8 * i) (List.drop 8 (a.toList ++ _)) = _
        rw [List.drop_left' a.toList_length]
        exact blocks_drop r hi'
      · exact List.Vector.toList_length _
  unfold cutBlocks
  rw [hhead, hreg]

theorem wrapBytes_length (ar : Bytes 8 × List (Bytes 8)) :
    (wrapBytes ar).length = 8 + 8 * ar.2.length := by
  obtain ⟨a, r⟩ := ar
  have hflat : (r.flatMap fun b => b.toList).length = 8 * r.length := by
    induction r with
    | nil => rfl
    | cons b r ih =>
        rw [List.flatMap_cons, List.length_append, ih, b.toList_length,
          List.length_cons]
        omega
  show (a.toList ++ _).length = _
  rw [List.length_append, hflat, a.toList_length]

-- ===================================================================== loop

variable {enc dec : Bytes 16 → Bytes 16 → Bytes 16} {kek : Bytes 16}

/-- A turn of the loop takes one step back. -/
theorem unwrapStep_eq (n : Nat) :
    unwrapStep dec kek n = unwrapOne (dec kek) n := by
  funext ar ji
  rfl

/-- The loop runs the steps from the last to the first. -/
theorem unwrapOrder_eq (n : Nat) :
    ([5, 4, 3, 2, 1, 0].flatMap fun j =>
        (List.range n).reverse.map fun i => (j, i))
      = (wrapOrder n).reverse := by
  have hpasses : (List.range 6).reverse = [5, 4, 3, 2, 1, 0] := by decide
  rw [wrapOrder, List.reverse_flatMap, hpasses]
  congr 1
  funext j
  exact List.map_reverse

/-- The lengths the source takes: at least one register, at most 32. -/
def LegalWrap (len : Nat) : Prop := ∃ n, 1 ≤ n ∧ n ≤ 32 ∧ len = 8 + 8 * n

theorem aesUnwrap128_illegal {inp : List UInt8} (h : ¬LegalWrap inp.length) :
    aesUnwrap128 dec kek inp = none := by
  unfold aesUnwrap128
  split
  · rfl
  next hlen =>
    simp only
    rw [if_pos]
    by_contra hn
    apply h
    refine ⟨inp.length / 8 - 1, ?_, ?_, ?_⟩ <;> omega

theorem aesUnwrap128_legal {inp : List UInt8} {n : Nat} (hn : 1 ≤ n)
    (hn' : n ≤ 32) (hlen : inp.length = 8 + 8 * n) :
    aesUnwrap128 dec kek inp
      = let ar := (wrapOrder n).reverse.foldl (unwrapOne (dec kek) n)
          (cutBlocks inp n)
        if ar.1 = wrapIv then some (ar.2.flatMap fun b => b.toList)
        else none := by
  have hcount : inp.length / 8 - 1 = n := by omega
  unfold aesUnwrap128
  simp only
  rw [if_neg (by omega), hcount, if_neg (by omega), unwrapOrder_eq,
    unwrapStep_eq]
  have hiv : ∀ a : Bytes 8, a.toList = List.replicate 8 0xa6 ↔ a = wrapIv :=
    fun a => ⟨fun h => List.Vector.eq _ _ h, fun h => h ▸ rfl⟩
  exact if_congr (hiv _) rfl rfl

/-- What was wrapped is unwrapped again. -/
theorem aesUnwrap128_keyWrap (hde : ∀ kek b, dec kek (enc kek b) = b)
    {plain : List (Bytes 8)}
    (h1 : 1 ≤ plain.length) (h32 : plain.length ≤ 32) :
    (keyWrap (enc kek) plain).length = 8 + 8 * plain.length
      ∧ aesUnwrap128 dec kek (keyWrap (enc kek) plain)
        = some (plain.flatMap fun b => b.toList) := by
  have hsize : ((wrapOrder plain.length).foldl
      (wrapStep (enc kek) plain.length) (wrapIv, plain)).2.length
      = plain.length := foldl_wrapStep_length _ _
  have hwrap := wrapBytes_length ((wrapOrder plain.length).foldl
    (wrapStep (enc kek) plain.length) (wrapIv, plain))
  have hcut := cut_wrapBytes ((wrapOrder plain.length).foldl
    (wrapStep (enc kek) plain.length) (wrapIv, plain))
  rw [hsize] at hwrap hcut
  have hback := @unwrap_wrap (enc kek) (dec kek) plain.length (hde kek)
    (wrapIv, plain) rfl
  refine ⟨hwrap, ?_⟩
  rw [keyWrap, aesUnwrap128_legal h1 h32 hwrap, hcut, hback]
  exact if_pos rfl

-- =================================================================== output

open Touched

/-- Not a write to the output. -/
private def OffOutput (t : Touch EapolBuf) : Prop :=
  ∀ i n, t ≠ .write .unwrapped i n

private theorem loadBlocksT_offOutput (d : List UInt8) (inp n i : Nat) :
    (loadBlocksT .frame d inp n i).All OffOutput := by
  induction n generalizing i with
  | zero => exact all_pure _
  | succ n ih =>
      rw [loadBlocksT]
      simp only [all_bind, all_load, all_access, all_pure, ih]
      simp [OffOutput]

private theorem xorCounterT_offOutput (k t : Nat) (block : List UInt8) :
    (xorCounterT k t block).All OffOutput := by
  induction k generalizing t block with
  | zero => exact all_pure _
  | succ k ih =>
      rw [xorCounterT]
      split
      · exact all_pure _
      · simp only [all_bind, all_load8, all_store, ih]
        simp [OffOutput]

private theorem unwrapStepT_offOutput (n : Nat)
    (ar : Bytes 8 × List (Bytes 8)) (ji : Nat × Nat) :
    (unwrapStepT dec kek n ar ji).All OffOutput := by
  unfold unwrapStepT
  simp only [all_bind, all_load, all_store, all_access, all_pure,
    xorCounterT_offOutput]
  simp [OffOutput]

/-- Where the source returns false it has written nothing to `out`. -/
theorem aesUnwrap128T_rejects (d : List UInt8) (off : Nat) (len : UInt16)
    (h : (aesUnwrap128T dec kek .frame d off len).val = none) :
    (aesUnwrap128T dec kek .frame d off len).All OffOutput := by
  unfold aesUnwrap128T at h ⊢
  by_cases hlen : len < 16 ∨ len &&& 7 ≠ 0
  · rw [if_pos hlen]
    exact all_pure _
  · rw [if_neg hlen] at h ⊢
    simp only at h ⊢
    by_cases hn : len.toNat / 8 - 1 = 0 ∨ 32 < len.toNat / 8 - 1
    · rw [if_pos hn]
      exact all_pure _
    · rw [if_neg hn] at h ⊢
      have hloop := fun n ar l => all_foldlM (P := OffOutput) (l := l)
        (fun ji _ ar => @unwrapStepT_offOutput dec kek n ar ji) ar
      simp only [all_bind, all_load, all_store, loadBlocksT_offOutput, hloop,
        true_and, val_bind, val_ite] at h ⊢
      refine ⟨by simp [OffOutput], by simp [OffOutput],
        by simp [OffOutput], ?_⟩
      split at h
      next hbad =>
        rw [if_pos hbad]
        exact all_pure _
      · cases h

-- =================================================================== result

/-- Over a block cipher and its inverse, the unwrap of a wrapping returns
the plaintext; what it accepts is the wrapping of what it returns; any
other length is rejected. The output gets what is returned and its
length, and a rejected input leaves it alone. -/
theorem key_unwrap_inverts (hde : ∀ kek b, dec kek (enc kek b) = b)
    (hed : ∀ kek b, enc kek (dec kek b) = b) (kek : Bytes 16) :
    (∀ plain : List (Bytes 8), 1 ≤ plain.length → plain.length ≤ 32 →
        aesUnwrap128 dec kek (keyWrap (enc kek) plain)
          = some (plain.flatMap fun b => b.toList))
      ∧ (∀ inp out, aesUnwrap128 dec kek inp = some out →
        ∃ plain : List (Bytes 8), 1 ≤ plain.length ∧ plain.length ≤ 32
          ∧ out = plain.flatMap (fun b => b.toList)
          ∧ inp = keyWrap (enc kek) plain)
      ∧ (∀ inp : List UInt8, ¬LegalWrap inp.length →
        aesUnwrap128 dec kek inp = none)
      ∧ ∀ (d : List UInt8) (off : Nat) (len : UInt16),
        off + len.toNat ≤ d.length →
        let run := aesUnwrap128T dec kek .frame d off len
        run.val.map (fun o => o.1.take o.2.toNat)
            = aesUnwrap128 dec kek ((d.drop off).take len.toNat)
          ∧ (∀ o ∈ run.val, (o.1.take o.2.toNat).length = o.2.toNat)
          ∧ (run.val = none → ∀ i n, .write .unwrapped i n ∉ run.log) := by
  refine ⟨fun plain h1 h32 => ?_, fun inp out hout => ?_,
    fun inp h => aesUnwrap128_illegal h, fun d off len hlen => ?_⟩
  · exact (aesUnwrap128_keyWrap hde h1 h32).2
  · by_cases hlegal : LegalWrap inp.length
    · obtain ⟨n, h1, h32, hlen⟩ := hlegal
      rw [aesUnwrap128_legal h1 h32 hlen] at hout
      simp only at hout
      generalize har : (wrapOrder n).reverse.foldl (unwrapOne (dec kek) n)
        (cutBlocks inp n) = ar at hout
      have hcut : (cutBlocks inp n).2.length = n := by
        unfold cutBlocks
        simp only
        rw [List.length_map, List.length_range]
      have hsize : ar.2.length = n := by
        rw [← har, foldl_unwrapOne_length, hcut]
      split at hout
      next hiv =>
        refine ⟨ar.2, hsize ▸ h1, hsize ▸ h32, (Option.some.inj hout).symm, ?_⟩
        have hpair : (wrapIv, ar.2) = ar := by
          rw [← hiv]
        have hback := wrap_unwrap (hed kek) hcut
        rw [har] at hback
        rw [keyWrap, hpair, hsize, hback, wrapBytes_cut hlen]
      · cases hout
    · rw [aesUnwrap128_illegal hlegal] at hout
      cases hout
  · obtain ⟨-, hsize, hval⟩ := @aesUnwrap128T_spec d.length 0 dec kek .frame d
      off len hlen hlen
    refine ⟨hval, fun o ho => ?_, fun hnone i n hmem => ?_⟩
    · obtain ⟨hfull, hle⟩ := hsize o ho
      rw [List.length_take, hfull]
      omega
    · exact aesUnwrap128T_rejects d off len hnone _ hmem i n rfl

/-- AES-128 and a plaintext of two blocks. -/
theorem aes_unwraps_two_blocks :
    aesUnwrap128 aes128DecryptBlock (zeros 16)
        (keyWrap (aes128Encrypt (zeros 16)) [zeros 8, wrapIv])
      = some ([zeros 8, wrapIv].flatMap fun b => b.toList) :=
  (key_unwrap_inverts aes128DecryptBlock_encrypt aes128Encrypt_decryptBlock
    (zeros 16)).1 [zeros 8, wrapIv] (by decide) (by decide)

end Rtw88
