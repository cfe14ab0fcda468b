/-
Receive windows: the two general facts a sliding-window buffer rests on.

# Sequence numbers modulo `m`, unrolled

A window position is kept modulo `m`. Its unrolled counterpart is a
plain number `H` with the position as residue, and the distance
`modSub m sn (H % m)` is what must be added to `H` to reach the next
number with residue `sn`. Two numbers less than `m` apart are told
apart by their residues (`modSub_add`), which is the whole reason a
window may live modulo `m`.

# Cells

A fixed array of optional cells, read as the list of what it holds.
Clearing an occupied cell removes exactly that element
(`cells_clear_perm`), filling an empty one adds exactly that element
(`cells_fill_perm`).
-/
import Mathlib.Data.Nat.ModEq
import Mathlib.Data.List.FinRange
import Mathlib.Data.List.Perm.Basic
import Mathlib.Logic.Function.Basic

namespace Rtw88

-- ==================================================== sequence numbers

/-- The distance from `b` up to `a` on a circle of `m` numbers. -/
def modSub (m a b : Nat) : Nat := (a + m - b % m) % m

theorem modSub_lt {m : Nat} (hm : 0 < m) (a b : Nat) : modSub m a b < m :=
  Nat.mod_lt _ hm

/-- Walking the distance from `b` reaches `a`. -/
theorem add_modSub_mod {m : Nat} (hm : 0 < m) (a b : Nat) :
    (b + modSub m a b) % m = a % m := by
  have hb : b % m ≤ a + m := by
    have := Nat.mod_lt b hm
    omega
  have hmod : b + modSub m a b ≡ b % m + (a + m - b % m) [MOD m] :=
    (Nat.mod_modEq b m).symm.add (Nat.mod_modEq _ m)
  rw [Nat.add_sub_cancel' hb] at hmod
  exact hmod.trans (Nat.add_mod_right a m)

/-- Residues tell numbers less than `m` apart. -/
theorem eq_of_add_mod_eq {m h j k : Nat} (hj : j < m) (hk : k < m)
    (heq : (h + j) % m = (h + k) % m) : j = k := by
  have hmod : j ≡ k [MOD m] := Nat.ModEq.add_left_cancel' h heq
  exact Nat.ModEq.eq_of_lt_of_lt hmod hj hk

/-- The distance between two residues is the distance of the unrolled
numbers, while that is less than `m`. -/
theorem modSub_add {m k : Nat} (h : Nat) (hk : k < m) :
    modSub m ((h + k) % m) (h % m) = k := by
  have hm : 0 < m := by omega
  refine eq_of_add_mod_eq (h := h % m) (modSub_lt hm _ _) hk ?_
  rw [add_modSub_mod hm, Nat.mod_mod, Nat.mod_add_mod]

-- ================================================================ cells

variable {α : Type _} {n : Nat}

/-- What an array of optional cells holds, in index order. -/
def cells (b : Fin n → Option α) : List α := (List.finRange n).filterMap b

theorem mem_cells {b : Fin n → Option α} {x : α} :
    x ∈ cells b ↔ ∃ i, b i = some x := by
  simp [cells]

/-- Elsewhere in the array an update is invisible. -/
private theorem filterMap_update_of_notMem {b : Fin n → Option α}
    {i : Fin n} (v : Option α) {l : List (Fin n)} (h : i ∉ l) :
    l.filterMap (Function.update b i v) = l.filterMap b := by
  refine List.filterMap_congr fun j hj => ?_
  have hne : j ≠ i := fun heq => h (heq ▸ hj)
  exact Function.update_of_ne hne v b

/-- Clearing an occupied cell removes exactly its element. -/
theorem cells_clear_perm {b : Fin n → Option α} {i : Fin n} {x : α}
    (hx : b i = some x) :
    (x :: cells (Function.update b i none)).Perm (cells b) := by
  obtain ⟨l₁, l₂, hl⟩ := List.append_of_mem (List.mem_finRange i)
  have hnd : (l₁ ++ i :: l₂).Nodup := hl ▸ List.nodup_finRange n
  have h₁ : i ∉ l₁ := fun h =>
    (List.nodup_append.1 hnd).2.2 i h i (List.mem_cons_self) rfl
  have h₂ : i ∉ l₂ :=
    (List.nodup_cons.1 (List.nodup_append.1 hnd).2.1).1
  have hupd : cells (Function.update b i none)
      = l₁.filterMap b ++ l₂.filterMap b := by
    rw [cells, hl, List.filterMap_append, List.filterMap_cons,
      filterMap_update_of_notMem none h₁, filterMap_update_of_notMem none h₂]
    simp
  have hb : cells b = l₁.filterMap b ++ x :: l₂.filterMap b := by
    rw [cells, hl, List.filterMap_append, List.filterMap_cons, hx]
  rw [hupd, hb]
  exact List.perm_middle.symm

/-- Filling an empty cell adds exactly its element. -/
theorem cells_fill_perm {b : Fin n → Option α} {i : Fin n} (x : α)
    (hi : b i = none) :
    (cells (Function.update b i (some x))).Perm (x :: cells b) := by
  have hback : Function.update (Function.update b i (some x)) i none = b := by
    rw [Function.update_idem, ← hi, Function.update_eq_self]
  have h := cells_clear_perm (b := Function.update b i (some x)) (i := i)
    (x := x) (Function.update_self i (some x) b)
  rw [hback] at h
  exact h.symm

/-- An array of `n` cells holds at most `n` elements. -/
theorem cells_length_le (b : Fin n → Option α) : (cells b).length ≤ n := by
  calc (cells b).length ≤ (List.finRange n).length :=
        List.length_filterMap_le _ _
    _ = n := List.length_finRange

/-- A full array has no empty cell. -/
theorem cells_length_lt {b : Fin n → Option α} {i : Fin n}
    (hi : b i = none) : (cells b).length < n := by
  rcases Nat.eq_or_lt_of_le (cells_length_le b) with hfull | hlt
  · by_cases hα : Nonempty α
    · obtain ⟨x⟩ := hα
      have hfill := (cells_fill_perm x hi).length_eq
      have hle := cells_length_le (Function.update b i (some x))
      rw [hfill, List.length_cons] at hle
      omega
    · have hnil : cells b = [] := List.eq_nil_iff_forall_not_mem.2
        fun x _ => hα ⟨x⟩
      have hn : 0 < n := Nat.lt_of_le_of_lt (Nat.zero_le _) i.isLt
      rw [hnil, List.length_nil] at hfull
      omega
  · exact hlt

/-- Changing one segment of a concatenation changes the whole by what
the segment changed by, up to order. -/
theorem flatMap_update_perm {β : Type _} [DecidableEq β] {l : List β}
    (hnd : l.Nodup) {i : β} (hi : i ∈ l) {f g : β → List α}
    (hne : ∀ j, j ≠ i → g j = f j) {as bs : List α}
    (h : (as ++ g i).Perm (bs ++ f i)) :
    (as ++ l.flatMap g).Perm (bs ++ l.flatMap f) := by
  obtain ⟨l₁, l₂, rfl⟩ := List.append_of_mem hi
  have h₁ : l₁.flatMap g = l₁.flatMap f := List.flatMap_congr fun j hj =>
    hne j fun heq => (List.nodup_append.1 hnd).2.2 j hj i
      List.mem_cons_self heq
  have h₂ : l₂.flatMap g = l₂.flatMap f := List.flatMap_congr fun j hj =>
    hne j fun heq =>
      (List.nodup_cons.1 (List.nodup_append.1 hnd).2.1).1 (heq ▸ hj)
  have hsplit : ∀ (cs : List α) (k : β → List α), l₂.flatMap k = l₂.flatMap f →
      l₁.flatMap k = l₁.flatMap f →
      (cs ++ (l₁ ++ i :: l₂).flatMap k).Perm
        ((cs ++ k i) ++ (l₁.flatMap f ++ l₂.flatMap f)) := by
    intro cs k hk₂ hk₁
    rw [List.flatMap_append, List.flatMap_cons, hk₁, hk₂, List.append_assoc]
    exact List.Perm.append_left cs (List.perm_append_comm_assoc _ _ _)
  exact (hsplit as g h₂ h₁).trans
    ((h.append_right _).trans (hsplit bs f rfl rfl).symm)

/-- Renaming the elements renames what the cells hold. -/
theorem cells_map {β : Type _} (f : α → β) (b : Fin n → Option α) :
    cells (fun i => (b i).map f) = (cells b).map f := by
  rw [cells, cells, List.map_filterMap]

end Rtw88
