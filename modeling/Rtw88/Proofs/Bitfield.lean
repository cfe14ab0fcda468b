/-
The bit-field accessors on every field: `accessors_lawful_iff`.

At any width up to 64 the casts lose nothing: to encode is to put into
the field (`encodeBits_mask`), to get is to read it (`getBits_mask`).
`le64_get_bits` encodes instead; that moves the field up once more, and
is right only where it is at bit 0 already or empty (`le64GetBits_iff`).

The source has the accessors once for each width, by a macro that ends
in the same three functions. They are proved right for any width, with a
field given by its lowest bit and its length (`lawful_of`), and each
type's accessors are an instance. What makes a set of accessors lawful is
stated bit by bit: a get reads back what was put, a replacement changes
the field and nothing else, and fields that share no bit do not meet
(`replaceBits_comm`). With one accessor in the place of another, the
round trip at 64 bits is lawful only for the values that the second shift
leaves where they are (`le64_roundTrip_iff`).
-/
import Rtw88.Spec.Bitfield

namespace Rtw88

section
variable {n : Nat} {F G : BitField n}

-- ================================================================= any width

theorem ffs_mask (hn : n ≤ 64) : (ffs (F.mask.setWidth 64)).toNat = F.lo :=
  F.ctz_mask hn

theorem encodeBits_mask (hn : n ≤ 64) (v : BitVec n) :
    encodeBits v F.mask = F.put v := by
  apply BitVec.eq_of_getLsbD_eq
  intro i hi
  have hin : i < 64 := by omega
  rw [encodeBits, fieldPrep, ffs_mask hn]
  simp only [BitVec.getLsbD_setWidth, BitVec.getLsbD_and,
    BitVec.getLsbD_shiftLeft, BitField.getLsbD_mask, BitField.getLsbD_put]
  by_cases hhas : F.Has i
  · have hlo : ¬ i < F.lo := Nat.not_lt.2 hhas.1
    have hlow : i - F.lo < 64 := by omega
    simp [hi, hin, hhas, hlo, hlow]
  · simp [hhas]

theorem getBits_mask (hn : n ≤ 64) (x : BitVec n) :
    getBits x F.mask = F.read x := by
  have hfits := F.fits
  apply BitVec.eq_of_getLsbD_eq
  intro i hi
  rw [getBits, fieldGet, ffs_mask hn]
  simp only [BitVec.getLsbD_setWidth, BitVec.getLsbD_and,
    BitVec.getLsbD_ushiftRight, BitField.getLsbD_mask, BitField.getLsbD_read]
  by_cases hlen : i < F.len
  · have hhas : F.Has (F.lo + i) := ⟨by omega, by omega⟩
    have hin : F.lo + i < 64 := by omega
    simp [hi, hlen, hhas, hin]
  · have hhas : ¬ F.Has (F.lo + i) := fun h => by
      have hlt := h.2
      omega
    simp [hlen, hhas]

/-- Replacing changes the field, … -/
theorem getLsbD_replaceBits (hn : n ≤ 64) (p x : BitVec n) (i : Nat) :
    (replaceBits p x F.mask).getLsbD i
      = if F.Has i then x.getLsbD (i - F.lo) else p.getLsbD i := by
  rw [replaceBits, encodeBits_mask hn, BitVec.getLsbD_or, BitVec.getLsbD_and,
    BitVec.getLsbD_not, BitField.getLsbD_mask, BitField.getLsbD_put]
  split
  next hhas => simp [hhas]
  next hhas =>
    by_cases hi : i < n
    · simp [hhas, hi]
    · simp [hhas, BitVec.getLsbD_of_ge p i (Nat.le_of_not_lt hi)]

/-- … which then reads as the new value, … -/
theorem getBits_replaceBits (hn : n ≤ 64) (p : BitVec n) (v : BitVec F.len) :
    getBits (replaceBits p (v.setWidth n) F.mask) F.mask = v.setWidth n := by
  have hput : F.read (replaceBits p (v.setWidth n) F.mask)
      = F.read (F.put (v.setWidth n)) := by
    apply BitVec.eq_of_getLsbD_eq
    intro i _
    rw [BitField.getLsbD_read, BitField.getLsbD_read,
      getLsbD_replaceBits hn, BitField.getLsbD_put]
    by_cases hlen : i < F.len
    · have hhas : F.Has (F.lo + i) := ⟨by omega, by omega⟩
      simp [hlen, hhas]
    · simp [hlen]
  rw [getBits_mask hn, hput, F.read_put_fits]

/-- … and nothing else, so that disjoint fields do not meet. -/
theorem replaceBits_comm (hn : n ≤ 64) (hdisj : F.mask &&& G.mask = 0)
    (p x y : BitVec n) :
    replaceBits (replaceBits p x F.mask) y G.mask
      = replaceBits (replaceBits p y G.mask) x F.mask := by
  apply BitVec.eq_of_getLsbD_eq
  intro i _
  have hboth : ¬ (F.Has i ∧ G.Has i) := by
    rintro ⟨hF, hG⟩
    have hbit := congrArg (BitVec.getLsbD · i) hdisj
    simp [hF, hG] at hbit
  simp only [getLsbD_replaceBits hn]
  by_cases hF : F.Has i
  · have hG : ¬ G.Has i := fun hG => hboth ⟨hF, hG⟩
    rw [if_neg hG, if_pos hF, if_pos hF]
  · rw [if_neg hF, if_neg hF]

theorem getBits_encodeBits (hn : n ≤ 64) (v : BitVec F.len) :
    getBits (encodeBits (v.setWidth n) F.mask) F.mask = v.setWidth n := by
  rw [encodeBits_mask hn, getBits_mask hn, F.read_put_fits]

-- ============================================================== le64_get_bits

/-- A word is clear in the field. -/
theorem and_mask_eq_zero_iff {x : BitVec n} :
    x &&& F.mask = 0 ↔ ∀ j < F.len, x.getLsbD (F.lo + j) = false := by
  constructor
  · intro h j hj
    have hhas : F.Has (F.lo + j) := ⟨by omega, by omega⟩
    have hbit := congrArg (BitVec.getLsbD · (F.lo + j)) h
    simpa [hhas] using hbit
  · intro h
    apply BitVec.eq_of_getLsbD_eq
    intro i _
    rw [BitVec.getLsbD_and, BitField.getLsbD_mask]
    by_cases hhas : F.Has i
    · obtain ⟨j, rfl⟩ := Nat.exists_eq_add_of_le hhas.1
      have hlt := hhas.2
      simp [h j (by omega)]
    · simp [hhas]

/-- A field moved up once more, instead of down, is where it should be
only if it starts at bit 0 or has no bit. -/
theorem put_eq_read_iff {x : BitVec n} :
    F.put (x &&& F.mask) = F.read x ↔ F.lo = 0 ∨ x &&& F.mask = 0 := by
  have hbits : ∀ i, (F.put (x &&& F.mask)).getLsbD i = true
      ↔ F.Has i ∧ F.Has (i - F.lo) ∧ x.getLsbD (i - F.lo) = true := by
    intro i
    simp [and_comm]
  constructor
  · intro h
    by_contra hne
    obtain ⟨hlo, hzero⟩ := not_or.1 hne
    refine hzero (and_mask_eq_zero_iff.2 fun j => ?_)
    -- a bit of the field comes from one twice `lo` below, and so on down
    induction j using Nat.strongRecOn with
    | ind j ih =>
        intro hj
        by_contra hset
        have hset : x.getLsbD (F.lo + j) = true := by simpa using hset
        have hread : (F.read x).getLsbD j = true := by
          rw [BitField.getLsbD_read, hset, decide_eq_true hj]
          rfl
        rw [← h, hbits] at hread
        obtain ⟨hj1, hj2, hx⟩ := hread
        have hge := hj1.1
        have hge2 := hj2.1
        have hbelow := ih (j - 2 * F.lo) (by omega) (by omega)
        have hsame : F.lo + (j - 2 * F.lo) = j - F.lo := by omega
        rw [hsame, hx] at hbelow
        cases hbelow
  · intro h
    apply BitVec.eq_of_getLsbD_eq
    intro i _
    rw [Bool.eq_iff_iff, hbits, BitField.getLsbD_read, Bool.and_eq_true,
      decide_eq_true_eq]
    rcases h with hlo | hzero
    · have hhas : F.Has i ↔ i < F.len := by
        unfold BitField.Has
        omega
      rw [hlo, Nat.sub_zero, Nat.zero_add, hhas]
      exact ⟨fun h => h.2, fun h => ⟨h.1, h⟩⟩
    · have hclear := and_mask_eq_zero_iff.1 hzero
      constructor
      · rintro ⟨-, hhas, hx⟩
        have hge := hhas.1
        have hlt := hhas.2
        have hfalse := hclear (i - F.lo - F.lo) (by omega)
        have hsame : F.lo + (i - F.lo - F.lo) = i - F.lo := by omega
        rw [hsame, hx] at hfalse
        cases hfalse
      · rintro ⟨hi, hx⟩
        rw [hclear i hi] at hx
        cases hx

/-- A value is clear in its field only if it is zero. -/
theorem put_and_mask_eq_zero_iff {v : BitVec F.len} :
    F.put (v.setWidth n) &&& F.mask = 0 ↔ v = 0 := by
  have hfits := F.fits
  rw [and_mask_eq_zero_iff]
  constructor
  · intro h
    apply BitVec.eq_of_getLsbD_eq
    intro j hj
    have hhas : F.Has (F.lo + j) := ⟨by omega, by omega⟩
    have hin : j < n := by omega
    have hbit := h j hj
    simpa [hhas, hin] using hbit
  · rintro rfl j _
    simp

end

theorem le64GetBits_iff {F : BitField 64} {x : BitVec 64} :
    le64GetBits x F.mask = F.read x ↔ F.lo = 0 ∨ x &&& F.mask = 0 := by
  rw [le64GetBits, u64EncodeBits, encodeBits_mask le_rfl, put_eq_read_iff]

-- ============================================================= all of them

/-- Accessors that encode, get and replace by the functions for any width
are right on every field. -/
theorem lawful_of {n : Nat} (hn : n ≤ 64) {A : Accessors n}
    (hencode : A.encode = encodeBits) (hget : A.get = getBits)
    (hreplace : ∀ r ∈ A.replace, r = replaceBits) (F : BitField n)
    (v : BitVec F.len) (word : BitVec n) : A.Lawful F v word := by
  refine ⟨?_, ?_, fun r hr => ?_, fun r hr x i hi => ?_,
    fun r hr G x y hdisj => ?_⟩
  · rw [hencode, hget, getBits_encodeBits hn]
  · rw [hget, getBits_mask hn]
  · rw [hget, hreplace r hr, getBits_replaceBits hn]
  · have hhas : ¬ F.Has i := by
      rw [BitField.getLsbD_mask] at hi
      exact of_decide_eq_false hi
    rw [hreplace r hr, getLsbD_replaceBits hn, if_neg hhas]
  · rw [hreplace r hr]
    exact replaceBits_comm hn hdisj word x y

/-- With 64 bits the round trip is that of a value at bit 0, or of zero. -/
theorem le64_roundTrip_iff {F : BitField 64} {v : BitVec F.len} :
    le64GetBits (u64EncodeBits (v.setWidth 64) F.mask) F.mask = v.setWidth 64
      ↔ F.lo = 0 ∨ v = 0 := by
  have hiff := @le64GetBits_iff F (F.put (v.setWidth 64))
  rw [F.read_put_fits, put_and_mask_eq_zero_iff] at hiff
  rw [u64EncodeBits, encodeBits_mask le_rfl]
  exact hiff

theorem le64_lawful_iff {F : BitField 64} {v : BitVec F.len}
    {word : BitVec 64} :
    FieldType.le64.accessors.Lawful F v word
      ↔ F.lo = 0 ∨ (v = 0 ∧ word &&& F.mask = 0) := by
  constructor
  · intro h
    rcases le64_roundTrip_iff.1 h.roundTrip with hlo | hv
    · exact .inl hlo
    · exact (le64GetBits_iff.1 h.reads).imp_right fun hword => ⟨hv, hword⟩
  · intro h
    refine ⟨le64_roundTrip_iff.2 (h.imp_right And.left),
      le64GetBits_iff.2 (h.imp_right And.right), ?_, ?_, ?_⟩
    · rintro r ⟨⟩
    · rintro r ⟨⟩
    · rintro r ⟨⟩

theorem lawful_of_ne {t : FieldType} (ht : t ≠ .le64) (F : BitField t.width)
    (v : BitVec F.len) (word : BitVec t.width) :
    t.accessors.Lawful F v word := by
  refine lawful_of ?_ ?_ ?_ (fun r hr => ?_) F v word
  · cases t <;> decide
  · cases t with
    | le64 => exact absurd rfl ht
    | _ => rfl
  · cases t with
    | le64 => exact absurd rfl ht
    | _ => rfl
  · cases t <;> cases hr <;> rfl

/-- For every type, field, value and word the accessors are right, except
that with 64 bits the field has to be at bit 0, or the value zero and the
word's field, too. -/
theorem accessors_lawful_iff (t : FieldType) (F : BitField t.width)
    (v : BitVec F.len) (word : BitVec t.width) :
    t.accessors.Lawful F v word
      ↔ (t = .le64 → F.lo = 0 ∨ (v = 0 ∧ word &&& F.mask = 0)) := by
  by_cases ht : t = .le64
  · subst ht
    exact le64_lawful_iff.trans ⟨fun h _ => h, fun h => h rfl⟩
  · exact iff_of_true (lawful_of_ne ht F v word) fun h => absurd h ht

/-- The second byte of a word. -/
def secondByte : BitField 64 := ⟨8, 8, by decide, by decide⟩

theorem second_byte_misread :
    le64GetBits 0x1200 0xff00 = 0 ∧ secondByte.mask = 0xff00
      ∧ secondByte.read 0x1200 = 0x12
      ∧ ¬ ∀ (t : FieldType) (F : BitField t.width) (v : BitVec F.len)
          (word : BitVec t.width), t.accessors.Lawful F v word := by
  refine ⟨by decide +kernel, by decide +kernel, by decide +kernel,
    fun h => ?_⟩
  have hread := (h .le64 secondByte (0 : BitVec 8) 0x1200#64).reads
  exact absurd hread (by decide +kernel)

end Rtw88
