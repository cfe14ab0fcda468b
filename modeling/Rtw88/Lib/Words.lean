/-
Numbers and pointers in a flat memory, low byte first, and the list heads
made of two pointers.

A number is read back as it was stored, modulo what fits its bytes
(`loadLe_storeLe`), and elsewhere nothing changes
(`loadLe_storeLe_apart`). The list heads of a memory are `links`; where
the heads of `N` share no byte, storing a pointer in one of them is
setting it in a heap of pointers (`HeadsHold.setNext`,
`HeadsHold.setPrev`), so what Lib/Ring.lean says of such a heap is said
of memory.
-/
import Rtw88.Lib.Bytes
import Rtw88.Lib.Memory
import Rtw88.Lib.Ring

namespace Rtw88

-- =================================================================== numbers

/-- `n` bytes of a number, low byte first. -/
def leBytes : Nat → Nat → List UInt8
  | 0, _ => []
  | n + 1, v => UInt8.ofNat v :: leBytes n (v / 256)

@[simp] theorem leBytes_length (n v : Nat) : (leBytes n v).length = n := by
  induction n generalizing v with
  | zero => rfl
  | succ n ih => rw [leBytes, List.length_cons, ih]

/-- Read back, a number is what `n` bytes hold of it. -/
theorem leVal_leBytes (n v : Nat) : leVal (leBytes n v) = v % 256 ^ n := by
  induction n generalizing v with
  | zero => rw [leBytes, leVal, pow_zero, Nat.mod_one]
  | succ n ih =>
      have hbyte : (UInt8.ofNat v).toNat = v % 256 := UInt8.toNat_ofNat'
      rw [leBytes, leVal, ih, hbyte, Nat.pow_succ', Nat.mod_mul]

/-- The number in the `n` bytes from `a` on. -/
def loadLe (m : Memory) (a n : Nat) : Nat := leVal (readMem m a n)

/-- Store a number in `n` bytes. -/
def storeLe (m : Memory) (a n v : Nat) : Memory := writeMem m a (leBytes n v)

/-- Through the memory, too. -/
theorem loadLe_storeLe (m : Memory) (a n v : Nat) :
    loadLe (storeLe m a n v) a n = v % 256 ^ n := by
  rw [loadLe, storeLe, readMem_writeMem (leBytes_length n v), leVal_leBytes]

/-- A store elsewhere is not seen. -/
theorem loadLe_storeLe_apart {m : Memory} {a n b k v : Nat}
    (h : Apart a n b k) : loadLe (storeLe m a n v) b k = loadLe m b k := by
  have hap : Apart a (leBytes n v).length b k := by
    rw [leBytes_length]
    exact h
  rw [loadLe, storeLe, readMem_writeMem_apart hap, loadLe]

/-- A copy inside a region, seen from the region. -/
theorem readMem_writeMem_inside {m : Memory} {p i n : Nat}
    {bs : List UInt8} (h : i + bs.length ≤ n) :
    readMem (writeMem m (p + i) bs) p n = splice (readMem m p n) i bs := by
  obtain ⟨l, rfl⟩ := Nat.exists_eq_add_of_le h
  have hfront : readMem (writeMem m (p + i) bs) p i = readMem m p i :=
    readMem_writeMem_apart (.inr (Nat.le_refl _))
  have hback : readMem (writeMem m (p + i) bs) (p + (i + bs.length)) l
      = readMem m (p + (i + bs.length)) l :=
    readMem_writeMem_apart (.inl (by omega))
  have hlen : i + bs.length = (readMem m p (i + bs.length)).length :=
    (readMem_length m p _).symm
  rw [readMem_add, readMem_add, hfront, hback, readMem_writeMem rfl, splice,
    readMem_take m p (by omega), readMem_add m p (i + bs.length) l,
    List.drop_left' hlen.symm]

-- ================================================================== pointers

/-- The pointer at `a`; zero is null. -/
def loadPtr (m : Memory) (a : Nat) : Option Nat :=
  if loadLe m a 8 = 0 then none else some (loadLe m a 8)

def storePtr (m : Memory) (a : Nat) (p : Option Nat) : Memory :=
  storeLe m a 8 (p.getD 0)

/-- A pointer is null or an address. -/
def IsPtr (p : Option Nat) : Prop := ∀ x, p = some x → 0 < x ∧ x < 2 ^ 64

/-- A pointer reads back, null or not. -/
theorem loadPtr_storePtr {m : Memory} {a : Nat} {p : Option Nat}
    (h : IsPtr p) : loadPtr (storePtr m a p) a = p := by
  unfold loadPtr storePtr
  rw [loadLe_storeLe]
  cases p with
  | none => rfl
  | some x =>
      obtain ⟨hpos, hlt⟩ := h x rfl
      have hmod : (some x).getD 0 % 256 ^ 8 = x := Nat.mod_eq_of_lt hlt
      rw [hmod, if_neg (by omega)]

/-- One stored elsewhere is not seen. -/
theorem loadPtr_storePtr_apart {m : Memory} {a b : Nat} {p : Option Nat}
    (h : Apart a 8 b 8) : loadPtr (storePtr m a p) b = loadPtr m b := by
  unfold loadPtr storePtr
  rw [loadLe_storeLe_apart h]

-- ================================================================ list heads

/-- The list heads of a memory: `next`, and `prev` behind it. -/
def links (m : Memory) : Links Nat where
  next := fun a => loadPtr m a
  prev := fun a => loadPtr m (a + 8)

/-- A node's first word is `next`. -/
theorem links_next (m : Memory) (a : Nat) :
    (links m).next a = loadPtr m a := by
  rw [links]

theorem links_prev (m : Memory) (a : Nat) :
    (links m).prev a = loadPtr m (a + 8) := by
  rw [links]

/-- Addresses of list heads that share no byte. -/
structure Heads (N : Nat → Prop) : Prop where
  apart : ∀ a b, N a → N b → a ≠ b → Apart a 16 b 16
  addr : ∀ a, N a → 0 < a ∧ a < 2 ^ 64

/-- From `m` to `m'` only list heads of `N` changed. -/
def HeadsOnly (N : Nat → Prop) (m m' : Memory) : Prop :=
  ∀ x, (∀ a, N a → x < a ∨ a + 16 ≤ x) → m' x = m x

theorem HeadsOnly.trans {N : Nat → Prop} {m m' m'' : Memory}
    (h : HeadsOnly N m m') (h' : HeadsOnly N m' m'') : HeadsOnly N m m'' :=
  fun x hx => (h' x hx).trans (h x hx)

/-- What is apart from the heads reads the same. -/
theorem HeadsOnly.read {N : Nat → Prop} {m m' : Memory} {p n : Nat}
    (h : HeadsOnly N m m') (hp : ∀ a, N a → Apart a 16 p n) :
    readMem m' p n = readMem m p n := by
  apply readMem_congr
  intro i hi
  apply h
  intro a ha
  have hapart := hp a ha
  unfold Apart at hapart
  omega

/-- A pointer stored in a head. -/
theorem HeadsOnly.storePtr {N : Nat → Prop} {m : Memory} {a i : Nat}
    {p : Option Nat} (ha : N a) (hi : i ≤ 8) :
    HeadsOnly N m (storePtr m (a + i) p) := by
  intro x hx
  have hout := hx a ha
  unfold Rtw88.storePtr storeLe writeMem
  rw [leBytes_length, if_neg (by omega)]

/-- The heap of pointers `l`, on the heads of `N`. -/
structure HeadsHold (N : Nat → Prop) (m : Memory) (l : Links Nat) : Prop where
  next : ∀ a, N a → loadPtr m a = l.next a
  prev : ∀ a, N a → loadPtr m (a + 8) = l.prev a

/-- The memory holds its own links. -/
theorem HeadsHold.links (N : Nat → Prop) (m : Memory) :
    HeadsHold N m (links m) :=
  ⟨fun a _ => (links_next m a).symm, fun a _ => (links_prev m a).symm⟩

/-- A change that keeps out of the heads. -/
theorem HeadsHold.keeps {N : Nat → Prop} {m m' : Memory} {l : Links Nat}
    {rs : List (Nat × Nat)} (h : HeadsHold N m l) (hk : Keeps rs m m')
    (hap : ∀ a, N a → ∀ r ∈ rs, Apart r.1 r.2 a 16) :
    HeadsHold N m' l := by
  refine ⟨fun a ha => ?_, fun a ha => ?_⟩
  · rw [← h.next a ha]
    unfold loadPtr loadLe
    rw [hk.read fun r hr => ((hap a ha r hr).symm.front (by omega)).symm]
  · rw [← h.prev a ha]
    unfold loadPtr loadLe
    rw [hk.read fun r hr =>
      ((hap a ha r hr).symm.part (i := 8) (l := 8) (by omega)).symm]

section
variable {N : Nat → Prop} {m : Memory} {l : Links Nat} {a : Nat}
  {p : Option Nat}

/-- A store to `next` is the model's update of it. -/
theorem HeadsHold.setNext (hN : Heads N) (h : HeadsHold N m l) (ha : N a)
    (hp : IsPtr p) : HeadsHold N (storePtr m a p) (l.setNext a p) := by
  refine ⟨fun b hb => ?_, fun b hb => ?_⟩
  · rw [Links.setNext_next]
    by_cases hba : b = a
    · rw [hba, Function.update_self, loadPtr_storePtr hp]
    · have hapart := hN.apart a b ha hb (Ne.symm hba)
      rw [Function.update_of_ne hba, loadPtr_storePtr_apart, h.next b hb]
      unfold Apart at *
      omega
  · rw [Links.setNext_prev, loadPtr_storePtr_apart, h.prev b hb]
    by_cases hba : b = a
    · rw [hba]
      exact .inl (Nat.le_refl _)
    · have hapart := hN.apart a b ha hb (Ne.symm hba)
      unfold Apart at *
      omega

/-- A store to `prev` is the update of the other link. -/
theorem HeadsHold.setPrev (hN : Heads N) (h : HeadsHold N m l) (ha : N a)
    (hp : IsPtr p) : HeadsHold N (storePtr m (a + 8) p) (l.setPrev a p) := by
  refine ⟨fun b hb => ?_, fun b hb => ?_⟩
  · rw [Links.setPrev_next, loadPtr_storePtr_apart, h.next b hb]
    by_cases hba : b = a
    · rw [hba]
      exact .inr (Nat.le_refl _)
    · have hapart := hN.apart a b ha hb (Ne.symm hba)
      unfold Apart at *
      omega
  · rw [Links.setPrev_prev]
    by_cases hba : b = a
    · rw [hba, Function.update_self, loadPtr_storePtr hp]
    · have hapart := hN.apart a b ha hb (Ne.symm hba)
      rw [Function.update_of_ne hba, loadPtr_storePtr_apart, h.prev b hb]
      unfold Apart at *
      omega

/-- A ring of the heap is a ring of the memory. -/
theorem HeadsHold.ring {h : Nat} {xs : List Nat} (hh : HeadsHold N m l)
    (hr : IsRing l h xs) (hN : ∀ a ∈ h :: xs, N a) :
    IsRing (Rtw88.links m) h xs :=
  hr.congr fun a ha => by
    rw [links_next, links_prev]
    exact ⟨hh.next a (hN a ha), hh.prev a (hN a ha)⟩

end

end Rtw88
