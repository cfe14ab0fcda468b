/-
C structures: where the members of a declaration lie.

Members are placed in the order of their declaration, each at the next
multiple of its alignment, and the size of the whole is rounded up to the
largest of the alignments. Two members share no byte (`CStruct.apart`).
-/
import Rtw88.Lib.Memory

namespace Rtw88

/-- `n` rounded up to a multiple of `a`. -/
def alignUp (n a : Nat) : Nat := (n + a - 1) / a * a

/-- A declaration: its members in order, with their sizes and
alignments. -/
structure CStruct (F : Type) where
  members : List F
  size : F → Nat
  align : F → Nat

namespace CStruct

variable {F : Type} (s : CStruct F)

/-- The members `l` with their offsets, from offset `n` on. -/
def place : Nat → List F → List (F × Nat)
  | _, [] => []
  | n, f :: l =>
      (f, alignUp n (s.align f)) :: place (alignUp n (s.align f) + s.size f) l

/-- Where the last of the members `l` ends, from offset `n` on. -/
def placeEnd : Nat → List F → Nat
  | n, [] => n
  | n, f :: l => placeEnd (alignUp n (s.align f) + s.size f) l

/-- `_Alignof`. -/
def alignment : Nat := s.members.foldl (fun a f => max a (s.align f)) 1

/-- `sizeof`. -/
def sizeOf : Nat := alignUp (s.placeEnd 0 s.members) s.alignment

/-- `offsetof`. -/
def offset [DecidableEq F] (f : F) : Nat := ((s.place 0 s.members).lookup f).getD 0

-- =================================================================== apart

/-- Rounding up to a multiple goes up. -/
theorem le_alignUp {n a : Nat} (ha : 0 < a) : n ≤ alignUp n a := by
  have hdiv := Nat.div_add_mod (n + a - 1) a
  have hmod := Nat.mod_lt (n + a - 1) ha
  rw [Nat.mul_comm] at hdiv
  unfold alignUp
  omega

variable {s}

/-- Members from offset `n` on lie behind it. -/
theorem le_of_place (ha : ∀ f, 0 < s.align f) {l : List F} {n i : Nat}
    {f : F} (h : (f, i) ∈ s.place n l) : n ≤ i := by
  induction l generalizing n with
  | nil => cases h
  | cons g l ih =>
      have hup := @le_alignUp n (s.align g) (ha g)
      rcases List.mem_cons.1 h with heq | h
      · rw [(Prod.mk.inj heq).2]
        exact hup
      · have hle := ih h
        omega

/-- Placed members share no byte. -/
theorem place_apart (ha : ∀ f, 0 < s.align f) {l : List F} {n i j : Nat}
    {f g : F} (hf : (f, i) ∈ s.place n l) (hg : (g, j) ∈ s.place n l)
    (hne : f ≠ g) : Apart i (s.size f) j (s.size g) := by
  induction l generalizing n with
  | nil => cases hf
  | cons x l ih =>
      rcases List.mem_cons.1 hf with heqf | hf
      · rcases List.mem_cons.1 hg with heqg | hg
        · cases heqf
          cases heqg
          exact absurd rfl hne
        · cases heqf
          exact .inl (le_of_place ha hg)
      · rcases List.mem_cons.1 hg with heqg | hg
        · cases heqg
          exact .inr (le_of_place ha hf)
        · exact ih hf hg

variable [DecidableEq F]

theorem mem_place {l : List F} {n : Nat} {f : F} (h : f ∈ l) :
    ∃ i, (s.place n l).lookup f = some i ∧ (f, i) ∈ s.place n l := by
  induction l generalizing n with
  | nil => cases h
  | cons g l ih =>
      by_cases hfg : f = g
      · rw [hfg]
        exact ⟨_, List.lookup_cons_self, List.mem_cons_self⟩
      · obtain ⟨i, hlookup, hmem⟩ :=
          ih (n := alignUp n (s.align g) + s.size g)
            ((List.mem_cons.1 h).resolve_left hfg)
        refine ⟨i, ?_, List.mem_cons_of_mem _ hmem⟩
        rw [place, List.lookup_cons, beq_eq_false_iff_ne.2 hfg]
        exact hlookup

/-- Two members share no byte. -/
theorem apart (ha : ∀ f, 0 < s.align f) {f g : F} (hf : f ∈ s.members)
    (hg : g ∈ s.members) (hne : f ≠ g) :
    Apart (s.offset f) (s.size f) (s.offset g) (s.size g) := by
  obtain ⟨i, hi, hmemf⟩ := @mem_place F s _ s.members 0 f hf
  obtain ⟨j, hj, hmemg⟩ := @mem_place F s _ s.members 0 g hg
  unfold offset
  rw [hi, hj]
  exact place_apart ha hmemf hmemg hne

end CStruct

end Rtw88
