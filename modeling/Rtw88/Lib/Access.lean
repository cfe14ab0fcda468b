/-
Routines that work on a buffer, with a record of what they do to it.

`Traced α` is a value together with the accesses made to compute it, in
order: bytes read, differences taken of unsigned lengths, and where the
buffer goes in the end. A routine written in it says what it computes
(`val`) and what it touched (`log`) at once, so the two cannot drift
apart.

- `Fits n`: a routine stays inside a buffer of `n` bytes and no
  difference wraps around.
- `Borrows` and `Consumes`: a routine only looks at the buffer, or looks
  at it and then gives it away, once and last.
- `Looks n`: both at once, for the parts in between.
- `LiveReads`: nothing is read once the buffer was released.

`Fits` goes through `bind` as an equivalence, so an exact condition can
be read off a routine one step at a time; `Borrows` and `Consumes`
compose like the two halves of a linear resource.
-/
import Rtw88.Lib.Bytes

namespace Rtw88

variable {α β : Type}

-- ================================================================= accesses

/-- What a routine does to the buffer in its hands. -/
inductive Access
  /-- Read the `n` bytes from offset `off`. -/
  | read (off n : Nat)
  /-- Take the unsigned difference `a - b`. -/
  | sub (a b : Nat)
  /-- Free the buffer. -/
  | release
  /-- Put the buffer away for later. -/
  | keep
  deriving DecidableEq, Repr

/-- The access gives the buffer away. -/
def Access.disposes : Access → Bool
  | .release | .keep => true
  | _ => false

/-- The access looks into the buffer. -/
def Access.reads : Access → Bool
  | .read _ _ => true
  | _ => false

/-- The access stays inside a buffer of `len` bytes; a difference does
not wrap around. -/
def Access.Fits (len : Nat) : Access → Prop
  | .read off n => off + n ≤ len
  | .sub a b => b ≤ a
  | _ => True

instance (len : Nat) : DecidablePred (Access.Fits len)
  | .read off n => inferInstanceAs (Decidable (off + n ≤ len))
  | .sub a b => inferInstanceAs (Decidable (b ≤ a))
  | .release => .isTrue trivial
  | .keep => .isTrue trivial

/-- Nothing is read after the buffer was released. -/
def LiveReads : List Access → Prop
  | [] => True
  | a :: as => (a = .release → ∀ b ∈ as, b.reads = false) ∧ LiveReads as

/-- How often the buffer is given away. -/
def disposals (log : List Access) : Nat := log.countP Access.disposes

/-- The buffer is looked at, no more. -/
def Borrows (log : List Access) : Prop := ∀ a ∈ log, a.disposes = false

/-- The buffer is looked at, then given away. -/
def Consumes (log : List Access) : Prop :=
  ∃ pre a, log = pre ++ [a] ∧ Borrows pre ∧ a.disposes = true

/-- No access disposes of nothing. -/
theorem Borrows.nil : Borrows [] := by
  intro a ha
  cases ha

/-- Two stretches that only look. -/
theorem Borrows.append {as bs : List Access} (ha : Borrows as)
    (hb : Borrows bs) : Borrows (as ++ bs) := by
  intro a hmem
  rcases List.mem_append.1 hmem with hmem | hmem
  · exact ha a hmem
  · exact hb a hmem

theorem Borrows.consumes {as bs : List Access} (ha : Borrows as)
    (hb : Consumes bs) : Consumes (as ++ bs) := by
  obtain ⟨pre, a, rfl, hpre, hdis⟩ := hb
  exact ⟨as ++ pre, a, (List.append_assoc _ _ _).symm, ha.append hpre, hdis⟩

theorem Consumes.single {a : Access} (h : a.disposes = true) :
    Consumes [a] := ⟨[], a, rfl, .nil, h⟩

theorem Borrows.disposals {log : List Access} (h : Borrows log) :
    disposals log = 0 := by
  rw [Rtw88.disposals, List.countP_eq_zero]
  intro a ha
  simp [h a ha]

/-- What is given away last is given away once. -/
theorem Consumes.disposals {log : List Access} (h : Consumes log) :
    disposals log = 1 := by
  obtain ⟨pre, a, rfl, hpre, hdis⟩ := h
  have h0 := hpre.disposals
  rw [Rtw88.disposals] at h0 ⊢
  rw [List.countP_append, h0, List.countP_singleton, if_pos hdis]

/-- Up to the point where the buffer is given away it is there. -/
theorem Borrows.liveReads {log : List Access} (h : Borrows log) (a : Access) :
    LiveReads (log ++ [a]) := by
  induction log with
  | nil => exact ⟨fun _ b hb => (by cases hb), trivial⟩
  | cons b log ih =>
      refine ⟨fun hrel => ?_, ih fun c hc => h c (List.mem_cons_of_mem _ hc)⟩
      have hb := h b List.mem_cons_self
      rw [hrel] at hb
      cases hb

/-- Where the disposal comes last, every read is of a live frame. -/
theorem Consumes.liveReads {log : List Access} (h : Consumes log) :
    LiveReads log := by
  obtain ⟨pre, a, rfl, hpre, -⟩ := h
  exact hpre.liveReads a

-- ================================================================= routines

/-- A value, and the accesses made to compute it. -/
structure Traced (α : Type) where
  result : α
  accesses : List Access

namespace Traced

-- Defined, not fields: a projection out of an `if` makes the kernel
-- evaluate its condition, a definition it compares by its argument.

/-- The value. -/
@[reducible] def val (x : Traced α) : α := x.result

/-- The accesses. -/
@[reducible] def log (x : Traced α) : List Access := x.accesses

instance : Monad Traced where
  pure a := ⟨a, []⟩
  bind x f := ⟨(f x.val).val, x.log ++ (f x.val).log⟩

@[simp] theorem val_pure (a : α) : (pure a : Traced α).val = a := rfl

@[simp] theorem log_pure (a : α) : (pure a : Traced α).log = [] := rfl

/-- The value of a computation in two parts. -/
@[simp] theorem val_bind (x : Traced α) (f : α → Traced β) :
    (x >>= f).val = (f x.val).val := rfl

@[simp] theorem log_bind (x : Traced α) (f : α → Traced β) :
    (x >>= f).log = x.log ++ (f x.val).log := rfl

@[simp] theorem val_ite (c : Prop) [Decidable c] (x y : Traced α) :
    (if c then x else y).val = if c then x.val else y.val :=
  apply_ite _ _ _ _

/-- One access, for its own sake. -/
def access (a : Access) : Traced Unit := ⟨(), [a]⟩

/-- One access, where a test says so. -/
def accessIf (c : Prop) [Decidable c] (a : Access) : Traced Unit :=
  ⟨(), if c then [a] else []⟩

/-- The byte `i` of the buffer `b`, which starts at offset `base`. -/
@[reducible] def readByte (base : Nat) (b : List UInt8) (i : Nat) : Traced UInt8 :=
  ⟨peek b i, [.read (base + i) 1]⟩

/-- Two bytes, low byte first. -/
@[reducible] def readLe16 (base : Nat) (b : List UInt8) (i : Nat) : Traced UInt16 :=
  ⟨le16At b i, [.read (base + i) 2]⟩

/-- Two bytes, high byte first. -/
@[reducible] def readBe16 (base : Nat) (b : List UInt8) (i : Nat) : Traced UInt16 :=
  ⟨be16At b i, [.read (base + i) 2]⟩

/-- A copy of `n` bytes. -/
@[reducible] def copy (base : Nat) (b : List UInt8) (i n : Nat) : Traced (Bytes n) :=
  ⟨grab b i n, [.read (base + i) n]⟩

/-- Compare with a pattern, up to the first byte that differs. -/
def startsWith (base : Nat) (b : List UInt8) (i : Nat) :
    List UInt8 → Traced Bool
  | [] => pure true
  | x :: xs => do
      let y ← readByte base b i
      if y = x then startsWith base b (i + 1) xs else pure false

@[simp] theorem readByte_val (base : Nat) (b : List UInt8) (i : Nat) :
    (readByte base b i).val = peek b i := rfl

@[simp] theorem readLe16_val (base : Nat) (b : List UInt8) (i : Nat) :
    (readLe16 base b i).val = le16At b i := rfl

@[simp] theorem copy_val (base : Nat) (b : List UInt8) (i n : Nat) :
    (copy base b i n).val = grab b i n := rfl

/-- A comparison compares. -/
theorem startsWith_val {base : Nat} {b : List UInt8} {i : Nat}
    {xs : List UInt8} (h : i + xs.length ≤ b.length) :
    (startsWith base b i xs).val = true
      ↔ (b.drop i).take xs.length = xs := by
  induction xs generalizing i with
  | nil => simp [startsWith]
  | cons x xs ih =>
      rw [List.length_cons] at h
      have hlt : i < b.length := by omega
      have hread : (readByte base b i).val = b[i] := by
        rw [readByte, peek, List.getD_eq_getElem?_getD, List.getElem?_eq_getElem hlt,
          Option.getD_some]
      rw [startsWith, val_bind, val_ite, val_pure, hread,
        List.drop_eq_getElem_cons hlt, List.length_cons,
        List.take_succ_cons, List.cons.injEq]
      by_cases hx : b[i] = x
      · rw [if_pos hx, ih (by omega)]
        exact (and_iff_right hx).symm
      · rw [if_neg hx]
        exact ⟨fun hf => absurd hf Bool.false_ne_true,
          fun hf => absurd hf.1 hx⟩

-- ============================================================ inside a buffer

/-- The routine stays inside a buffer of `len` bytes. -/
def Fits (len : Nat) (x : Traced α) : Prop := ∀ a ∈ x.log, a.Fits len

variable {len : Nat}

@[simp] theorem fits_pure (a : α) : (pure a : Traced α).Fits len := by
  intro x hx
  cases hx

/-- Both parts must fit, the second after the value of the first. -/
@[simp] theorem fits_bind (x : Traced α) (f : α → Traced β) :
    (x >>= f).Fits len ↔ x.Fits len ∧ (f x.val).Fits len :=
  List.forall_mem_append

theorem fits_single {v : α} {a : Access} :
    (⟨v, [a]⟩ : Traced α).Fits len ↔ a.Fits len :=
  List.forall_mem_singleton

@[simp] theorem fits_access (a : Access) :
    (access a).Fits len ↔ a.Fits len := fits_single

/-- One that is made under a condition. -/
@[simp] theorem fits_accessIf (c : Prop) [Decidable c] (a : Access) :
    (accessIf c a).Fits len ↔ (c → a.Fits len) := by
  rw [Fits, accessIf, log]
  by_cases h : c
  · simp [h]
  · simp [h]

/-- One byte, at its offset in the frame. -/
@[simp] theorem fits_readByte (base : Nat) (b : List UInt8) (i : Nat) :
    (readByte base b i).Fits len ↔ base + i + 1 ≤ len := fits_single

@[simp] theorem fits_readLe16 (base : Nat) (b : List UInt8) (i : Nat) :
    (readLe16 base b i).Fits len ↔ base + i + 2 ≤ len := fits_single

/-- Two bytes, in the other order. -/
@[simp] theorem fits_readBe16 (base : Nat) (b : List UInt8) (i : Nat) :
    (readBe16 base b i).Fits len ↔ base + i + 2 ≤ len := fits_single

@[simp] theorem fits_copy (base : Nat) (b : List UInt8) (i n : Nat) :
    (copy base b i n).Fits len ↔ base + i + n ≤ len := fits_single

-- ================================================================== ownership

/-- The routine only looks at the buffer. -/
def Borrows (x : Traced α) : Prop := Rtw88.Borrows x.log

/-- The routine looks at the buffer and gives it away. -/
def Consumes (x : Traced α) : Prop := Rtw88.Consumes x.log

/-- A value disposes of nothing. -/
theorem borrows_pure (a : α) : (pure a : Traced α).Borrows := .nil

theorem Borrows.bind {x : Traced α} {f : α → Traced β} (hx : x.Borrows)
    (hf : (f x.val).Borrows) : (x >>= f).Borrows := hx.append hf

theorem Borrows.consumes {x : Traced α} {f : α → Traced β} (hx : x.Borrows)
    (hf : (f x.val).Consumes) : (x >>= f).Consumes :=
  Rtw88.Borrows.consumes hx hf

/-- An access that is no disposal. -/
theorem borrows_single {v : α} {a : Access} (h : a.disposes = false) :
    (⟨v, [a]⟩ : Traced α).Borrows := List.forall_mem_singleton.2 h

/-- One made under a condition. -/
theorem borrows_accessIf {c : Prop} [Decidable c] {a : Access}
    (h : a.disposes = false) : (accessIf c a).Borrows := by
  rw [Borrows, accessIf]
  split
  · exact List.forall_mem_singleton.2 h
  · exact .nil

theorem borrows_readByte (base : Nat) (b : List UInt8) (i : Nat) :
    (readByte base b i).Borrows := borrows_single rfl

theorem borrows_readLe16 (base : Nat) (b : List UInt8) (i : Nat) :
    (readLe16 base b i).Borrows := borrows_single rfl

theorem borrows_copy (base : Nat) (b : List UInt8) (i n : Nat) :
    (copy base b i n).Borrows := borrows_single rfl

theorem borrows_startsWith (base : Nat) (b : List UInt8) (i : Nat)
    (xs : List UInt8) : (startsWith base b i xs).Borrows := by
  induction xs generalizing i with
  | nil => exact borrows_pure true
  | cons x xs ih =>
      rw [startsWith]
      refine (borrows_readByte base b i).bind ?_
      split
      · exact ih (i + 1)
      · exact borrows_pure false

/-- Handing a value on afterwards touches nothing. -/
theorem Consumes.map {x : Traced α} (h : x.Consumes) (g : α → β) :
    (x >>= fun a => pure (g a)).Consumes := by
  rw [Consumes, log_bind, log_pure, List.append_nil]
  exact h

-- ================================================================== both at once

/-- The routine looks at the buffer, inside its `len` bytes, no more. -/
def Looks (len : Nat) (x : Traced α) : Prop := x.Borrows ∧ x.Fits len

@[simp] theorem looks_pure (a : α) : (pure a : Traced α).Looks len :=
  ⟨borrows_pure a, fits_pure a⟩

/-- Both parts must look inside, the second after the value of the first. -/
@[simp] theorem looks_bind (x : Traced α) (f : α → Traced β) :
    (x >>= f).Looks len ↔ x.Looks len ∧ (f x.val).Looks len := by
  constructor
  · intro h
    obtain ⟨hb, hb'⟩ := List.forall_mem_append.1 h.1
    obtain ⟨hf, hf'⟩ := (fits_bind x f).1 h.2
    exact ⟨⟨hb, hf⟩, hb', hf'⟩
  · intro h
    exact ⟨h.1.1.bind h.2.1, (fits_bind x f).2 ⟨h.1.2, h.2.2⟩⟩

/-- One look is inside when its access is. -/
theorem looks_single {v : α} {a : Access} (h : a.disposes = false) :
    (⟨v, [a]⟩ : Traced α).Looks len ↔ a.Fits len := by
  rw [Looks, fits_single]
  exact and_iff_right (borrows_single h)

@[simp] theorem looks_read (off n : Nat) :
    (access (.read off n)).Looks len ↔ off + n ≤ len := looks_single rfl

/-- A length subtracted, which must not wrap. -/
@[simp] theorem looks_sub (a b : Nat) :
    (access (.sub a b)).Looks len ↔ b ≤ a := looks_single rfl

@[simp] theorem looks_readByte (base : Nat) (b : List UInt8) (i : Nat) :
    (readByte base b i).Looks len ↔ base + i + 1 ≤ len :=
  looks_single rfl

@[simp] theorem looks_readLe16 (base : Nat) (b : List UInt8) (i : Nat) :
    (readLe16 base b i).Looks len ↔ base + i + 2 ≤ len :=
  looks_single rfl

/-- Two bytes, in the other order. -/
@[simp] theorem looks_readBe16 (base : Nat) (b : List UInt8) (i : Nat) :
    (readBe16 base b i).Looks len ↔ base + i + 2 ≤ len :=
  looks_single rfl

@[simp] theorem looks_copy (base : Nat) (b : List UInt8) (i n : Nat) :
    (copy base b i n).Looks len ↔ base + i + n ≤ len :=
  looks_single rfl

/-- A comparison stays inside when its pattern would. -/
theorem looks_startsWith {base : Nat} {b : List UInt8} {i : Nat}
    {xs : List UInt8} (h : base + i + xs.length ≤ len) :
    (startsWith base b i xs).Looks len := by
  refine ⟨borrows_startsWith base b i xs, ?_⟩
  induction xs generalizing i with
  | nil => exact fits_pure true
  | cons x xs ih =>
      rw [List.length_cons] at h
      rw [startsWith, fits_bind, fits_readByte]
      refine ⟨by omega, ?_⟩
      split
      · exact ih (by omega)
      · exact fits_pure false

end Traced

end Rtw88
