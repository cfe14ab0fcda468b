/-
Routines that work on several buffers, with a record of which bytes of
which buffer they read and write.

`Touched B α` is a value together with the accesses made to compute it,
in order; `B` names the buffers. `Within size` says that every access
stays inside its buffer, `size b` being what the routine may use of `b`.
It goes through `bind` as an equivalence, so a bound is checked one
access at a time. `Computes size a` says besides that the value is `a`.

A buffer's contents are a byte list that the routine hands on; `store`
returns the list it leaves.

Nothing here is about any particular buffers.
-/
import Rtw88.Lib.Bytes

namespace Rtw88

variable {B α β : Type}

/-- An access to `n` bytes of the buffer `b` from offset `off`. -/
inductive Touch (B : Type)
  | read (b : B) (off n : Nat)
  | write (b : B) (off n : Nat)
  deriving DecidableEq, Repr

/-- The access stays inside its buffer. -/
def Touch.Within (size : B → Nat) : Touch B → Prop
  | .read b off n | .write b off n => off + n ≤ size b

/-- A value, and the accesses made to compute it. -/
structure Touched (B α : Type) where
  result : α
  touches : List (Touch B)

namespace Touched

-- Defined, not fields, as for `Traced`.

/-- The value. -/
@[reducible] def val (x : Touched B α) : α := x.result

/-- The accesses. -/
@[reducible] def log (x : Touched B α) : List (Touch B) := x.touches

instance : Monad (Touched B) where
  pure a := ⟨a, []⟩
  bind x f := ⟨(f x.val).val, x.log ++ (f x.val).log⟩

@[simp] theorem val_pure (a : α) : (pure a : Touched B α).val = a := rfl

/-- The value of a computation in two parts. -/
@[simp] theorem val_bind (x : Touched B α) (f : α → Touched B β) :
    (x >>= f).val = (f x.val).val := rfl

@[simp] theorem val_ite (c : Prop) [Decidable c] (x y : Touched B α) :
    (if c then x else y).val = if c then x.val else y.val :=
  apply_ite _ _ _ _

-- ================================================================ accesses

/-- A copy of `n` bytes out of a buffer that holds `d`. -/
def load (b : B) (d : List UInt8) (off n : Nat) : Touched B (Bytes n) :=
  ⟨grab d off n, [.read b off n]⟩

/-- One byte. -/
def load8 (b : B) (d : List UInt8) (off : Nat) : Touched B UInt8 :=
  ⟨peek d off, [.read b off 1]⟩

/-- A copy of `bs` into a buffer that holds `d`. -/
def store (b : B) (d : List UInt8) (off : Nat) (bs : List UInt8) :
    Touched B (List UInt8) :=
  ⟨splice d off bs, [.write b off bs.length]⟩

/-- One access, for its own sake. -/
def access (t : Touch B) : Touched B Unit := ⟨(), [t]⟩

@[simp] theorem load_val (b : B) (d : List UInt8) (off n : Nat) :
    (load b d off n).val = grab d off n := rfl

@[simp] theorem load8_val (b : B) (d : List UInt8) (off : Nat) :
    (load8 b d off).val = peek d off := rfl

@[simp] theorem store_val (b : B) (d : List UInt8) (off : Nat)
    (bs : List UInt8) : (store b d off bs).val = splice d off bs := rfl

-- ============================================================ every access

/-- Every access the routine makes meets `P`. -/
def All (P : Touch B → Prop) (x : Touched B α) : Prop := ∀ t ∈ x.log, P t

variable {P : Touch B → Prop}

@[simp] theorem all_pure (a : α) : (pure a : Touched B α).All P := by
  intro t ht
  cases ht

/-- The touches of two parts, the second after the value of the first. -/
@[simp] theorem all_bind (x : Touched B α) (f : α → Touched B β) :
    (x >>= f).All P ↔ x.All P ∧ (f x.val).All P :=
  List.forall_mem_append

@[simp] theorem all_load (b : B) (d : List UInt8) (off n : Nat) :
    (load b d off n).All P ↔ P (.read b off n) :=
  List.forall_mem_singleton

@[simp] theorem all_load8 (b : B) (d : List UInt8) (off : Nat) :
    (load8 b d off).All P ↔ P (.read b off 1) :=
  List.forall_mem_singleton

@[simp] theorem all_store (b : B) (d : List UInt8) (off : Nat)
    (bs : List UInt8) :
    (store b d off bs).All P ↔ P (.write b off bs.length) :=
  List.forall_mem_singleton

@[simp] theorem all_access (t : Touch B) : (access t).All P ↔ P t :=
  List.forall_mem_singleton

/-- Every access of a loop meets what every turn's do. -/
theorem all_foldlM {f : β → α → Touched B β} {l : List α}
    (h : ∀ a ∈ l, ∀ b, (f b a).All P) (b : β) : (l.foldlM f b).All P := by
  induction l generalizing b with
  | nil => exact all_pure b
  | cons a l ih =>
      rw [List.foldlM_cons]
      exact (all_bind _ _).2 ⟨h a List.mem_cons_self b,
        ih (fun a ha => h a (List.mem_cons_of_mem _ ha)) _⟩

-- ================================================================== inside

/-- The routine stays inside its buffers. -/
def Within (size : B → Nat) (x : Touched B α) : Prop :=
  ∀ t ∈ x.log, t.Within size

variable {size : B → Nat}

/-- A value stays inside every buffer. -/
@[simp] theorem within_pure (a : α) :
    (pure a : Touched B α).Within size := by
  intro t ht
  cases ht

@[simp] theorem within_bind (x : Touched B α) (f : α → Touched B β) :
    (x >>= f).Within size ↔ x.Within size ∧ (f x.val).Within size :=
  List.forall_mem_append

@[simp] theorem within_load (b : B) (d : List UInt8) (off n : Nat) :
    (load b d off n).Within size ↔ off + n ≤ size b :=
  List.forall_mem_singleton

@[simp] theorem within_load8 (b : B) (d : List UInt8) (off : Nat) :
    (load8 b d off).Within size ↔ off + 1 ≤ size b :=
  List.forall_mem_singleton

@[simp] theorem within_store (b : B) (d : List UInt8) (off : Nat)
    (bs : List UInt8) :
    (store b d off bs).Within size ↔ off + bs.length ≤ size b :=
  List.forall_mem_singleton

@[simp] theorem within_access (t : Touch B) :
    (access t).Within size ↔ t.Within size :=
  List.forall_mem_singleton

-- ============================================================ inside, and what

/-- The routine stays inside its buffers, and its value is `a`. -/
def Computes (size : B → Nat) (a : α) (x : Touched B α) : Prop :=
  x.Within size ∧ x.val = a

theorem Computes.pure (a : α) : (pure a : Touched B α).Computes size a :=
  ⟨within_pure a, rfl⟩

/-- Two parts, each with its value, inside. -/
theorem Computes.bind {x : Touched B α} {f : α → Touched B β} {a : α} {b : β}
    (hx : x.Computes size a) (hf : (f a).Computes size b) :
    (x >>= f).Computes size b := by
  obtain ⟨hin, rfl⟩ := hx
  exact ⟨(within_bind _ _).2 ⟨hin, hf.1⟩, hf.2⟩

theorem Computes.load {b : B} {d : List UInt8} {off n : Nat}
    (h : off + n ≤ size b) : (load b d off n).Computes size (grab d off n) :=
  ⟨(within_load b d off n).2 h, rfl⟩

theorem Computes.load8 {b : B} {d : List UInt8} {off : Nat}
    (h : off + 1 ≤ size b) : (load8 b d off).Computes size (peek d off) :=
  ⟨(within_load8 b d off).2 h, rfl⟩

theorem Computes.access {t : Touch B} (h : t.Within size) :
    (access t).Computes size () :=
  ⟨(within_access t).2 h, rfl⟩

/-- A branch: each side under its condition. -/
theorem Computes.ite {c : Prop} [Decidable c] {x y : Touched B α} {a b : α}
    (hx : c → x.Computes size a) (hy : ¬ c → y.Computes size b) :
    (if c then x else y).Computes size (if c then a else b) := by
  split
  next h => exact hx h
  next h => exact hy h

-- =================================================================== loops

/-- The value of a loop is the loop of the values. -/
theorem val_foldlM (f : β → α → Touched B β) (l : List α) (b : β) :
    (l.foldlM f b).val = l.foldl (fun b a => (f b a).val) b := by
  induction l generalizing b with
  | nil => rfl
  | cons a l ih =>
      rw [List.foldlM_cons, val_bind, ih]
      rfl

/-- A loop stays inside its buffers when its body does and keeps what it
needs for that. -/
theorem within_foldlM {I : β → Prop} {f : β → α → Touched B β}
    {l : List α} (hstep : ∀ a ∈ l, ∀ b, I b →
      (f b a).Within size ∧ I (f b a).val)
    {b : β} (h : I b) :
    (l.foldlM f b).Within size ∧ I (l.foldlM f b).val := by
  induction l generalizing b with
  | nil => exact ⟨within_pure b, h⟩
  | cons a l ih =>
      obtain ⟨hin, hinv⟩ := hstep a List.mem_cons_self b h
      obtain ⟨hrest, hend⟩ :=
        ih (fun a ha => hstep a (List.mem_cons_of_mem _ ha)) hinv
      rw [List.foldlM_cons]
      exact ⟨(within_bind _ _).2 ⟨hin, hrest⟩, hend⟩

end Touched

end Rtw88
