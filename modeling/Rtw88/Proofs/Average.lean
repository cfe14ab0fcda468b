/-
`DECLARE_EWMA` on every sequence of small samples: `ewma_averages_iff`.

The macro shifts by `weight_rcp` where the logarithm is due. The average
still stays between any bounds of the samples (`addAll_between`), and as
long as the reciprocal is not above the precision every shift is defined
(`addAll_defined`); but a sample other than the average comes in with the
weight `1 / 2 ^ weight_rcp`, which is off by a unit or more
(`eq_of_rounds`).

# Exactly which sequences

The macro averages a sequence right if no sample comes in with a wrong
weight. An average of zero stands for "none yet", and the next sample
replaces it; a sample that is the average leaves it, whatever its weight.
Those are the two cases in which the weight plays no part. So a sequence
is averaged right exactly if it is zeros and then one value, which comes
only once where the shift is not defined (`Averages.steady`).

`Holds` is the invariant of such a sequence, and `AddsRight.same` the
step the other way: behind an average that holds a value, another value
is not added right. Its part in the sum is less than half of what is due,
and rounding does not make up for that (`eq_of_rounds`).
-/
import Mathlib.Data.List.Induction
import Mathlib.Tactic.Linarith
import Mathlib.Tactic.Ring
import Rtw88.Spec.Average

namespace Rtw88

-- ================================================================ smoothing

/-- One step of a fixed-point average: the old one gives up its `e`-th
part, the new value brings its own. -/
def smooth (e a q : Nat) : Nat := a - a / e + q

/-- What the old average keeps: the other parts, and the rest. -/
theorem smooth_succ (e a q : Nat) :
    smooth (e + 1) a q = e * (a / (e + 1)) + a % (e + 1) + q := by
  have hsplit := Nat.div_add_mod a (e + 1)
  rw [Nat.add_mul, Nat.one_mul] at hsplit
  unfold smooth
  omega

/-- One update stays below any bound on the average and on the sample. -/
theorem smooth_le {e a q hi : Nat} (he : 0 < e) (ha : a ≤ hi)
    (hq : q * e ≤ hi) : smooth e a q ≤ hi := by
  obtain ⟨e, rfl⟩ : ∃ f, e = f + 1 := ⟨e - 1, by omega⟩
  have hrest : a % (e + 1) < e + 1 := Nat.mod_lt a he
  rcases Nat.lt_or_ge (a / (e + 1)) q with hlt | hge
  · -- the old average keeps less than the new value's other parts
    have hmul : (a / (e + 1) + 1) * e ≤ q * e := Nat.mul_le_mul_right e hlt
    rw [smooth_succ]
    linarith
  · have hpart : a / (e + 1) ≤ a := Nat.div_le_self _ _
    unfold smooth
    omega

theorem le_smooth {e a q lo : Nat} (he : 0 < e) (ha : lo ≤ a)
    (hq : lo ≤ q * e) : lo ≤ smooth e a q := by
  obtain ⟨e, rfl⟩ : ∃ f, e = f + 1 := ⟨e - 1, by omega⟩
  rcases Nat.lt_or_ge q (a / (e + 1)) with hlt | hge
  · have hmul : q * e ≤ e * (a / (e + 1)) := by
      rw [Nat.mul_comm]
      exact Nat.mul_le_mul_left e (Nat.le_of_lt hlt)
    rw [Nat.mul_add_one] at hq
    rw [smooth_succ]
    omega
  · have hpart : a / (e + 1) ≤ a := Nat.div_le_self _ _
    unfold smooth
    omega

/-- A value equal to the average leaves it. -/
theorem smooth_self {e q : Nat} (he : 0 < e) : smooth e (q * e) q = q * e := by
  apply Nat.le_antisymm
  · exact smooth_le he le_rfl le_rfl
  · exact le_smooth he le_rfl le_rfl

/-- With a part less than half as large as is due, the step rounds the
weighted average only if there is nothing to average. -/
theorem eq_of_rounds {w e x y : Nat} (he : 2 * w ≤ e) (hw : 0 < w)
    (h : Rounds (smooth e (x * e) y) ((w - 1) * (x * e) + y * e) w) :
    y = x := by
  obtain ⟨hup, hdown⟩ := h
  have hpart : x * e / e = x := Nat.mul_div_cancel x (by omega)
  have hle : x ≤ x * e := Nat.le_mul_of_pos_right x (by omega)
  unfold smooth at hup hdown
  rw [hpart] at hup hdown
  zify [hle, hw] at hup hdown he
  by_contra hne
  rcases Nat.lt_or_gt_of_ne hne with hlt | hgt
  · have hlt : (y : Int) + 1 ≤ x := by exact_mod_cast hlt
    nlinarith
  · have hgt : (x : Int) + 1 ≤ y := by exact_mod_cast hgt
    nlinarith

namespace DeclareEwma

variable {d : DeclareEwma} {samples us : List ULong} {u v old new : ULong}
  {lo hi : Nat}

-- =================================================================== one add

/-- An admitted weight is not zero. -/
theorem weightRcp_pos : 0 < d.weightRcp.toNat := by
  obtain ⟨k, hk⟩ := d.weightRcp_pow
  rw [hk]
  exact Nat.two_pow_pos k

/-- With the reciprocal above the precision the difference wraps around,
and is no shift amount. -/
theorem shift_wraps (h : ¬ d.weightRcp ≤ d.precision) :
    64 ≤ (d.precision - d.weightRcp).toNat := by
  obtain ⟨k, hk⟩ := d.weightRcp_pow
  have hfit := d.weightRcp.isLt
  have hprecision := d.precision_lt
  rw [BitVec.le_def] at h
  have hlt : k < 64 := by
    rw [hk] at hfit
    exact (Nat.pow_lt_pow_iff_right Nat.one_lt_two).1 hfit
  have hhalf : d.weightRcp.toNat ≤ 2 ^ 63 := by
    rw [hk]
    exact Nat.pow_le_pow_right Nat.two_pos (Nat.le_of_lt_succ hlt)
  rw [BitVec.toNat_sub]
  omega

/-- A small sample, moved up. -/
theorem scaled (hv : v.toNat * 2 ^ d.precision.toNat < 2 ^ 64) :
    ∃ a, ULong.shl v d.precision = some a
      ∧ a.toNat = v.toNat * 2 ^ d.precision.toNat :=
  ULong.shl_eq (d.precision_lt.trans (by omega)) hv

/-- The first sample is the average, scaled. -/
theorem add_zero (v : ULong) : d.add 0 v = ULong.shl v d.precision :=
  if_pos rfl

/-- Nothing can be added to an average that is not zero. -/
theorem add_none (h : ¬ d.weightRcp ≤ d.precision) (hold : old ≠ 0) :
    d.add old v = none := by
  unfold add
  rw [if_neg hold, ULong.shl_none (shift_wraps h)]
  cases ULong.shr old d.weightRcp <;> rfl

/-- The sample comes in with the weight `1 / 2 ^ weight_rcp`. -/
theorem add_smooth (h : d.weightRcp ≤ d.precision) (hold : old ≠ 0)
    (hv : v.toNat * 2 ^ d.precision.toNat < 2 ^ 64) :
    ∃ q, q * 2 ^ d.weightRcp.toNat = v.toNat * 2 ^ d.precision.toNat
      ∧ ∃ new, d.add old v = some new
        ∧ new.toNat = smooth (2 ^ d.weightRcp.toNat) old.toNat q := by
  have hprecision := d.precision_lt
  have hle := BitVec.le_def.1 h
  have hdiff := BitVec.toNat_sub_of_le h
  have hq : v.toNat * 2 ^ (d.precision - d.weightRcp).toNat
      * 2 ^ d.weightRcp.toNat = v.toNat * 2 ^ d.precision.toNat := by
    rw [hdiff, Nat.mul_assoc, ← pow_add, Nat.sub_add_cancel hle]
  have hfits : v.toNat * 2 ^ (d.precision - d.weightRcp).toNat < 2 ^ 64 := by
    refine Nat.lt_of_le_of_lt ?_ hv
    rw [← hq]
    exact Nat.le_mul_of_pos_right _ (Nat.two_pow_pos _)
  obtain ⟨part, hpart, hpartval⟩ := @ULong.shr_eq old d.weightRcp (by omega)
  obtain ⟨own, hown, hownval⟩ :=
    @ULong.shl_eq v (d.precision - d.weightRcp) (by omega) hfits
  refine ⟨_, hq, old - part + own, ?_, ?_⟩
  · unfold add
    rw [if_neg hold, hpart, hown]
    rfl
  · have hsub : part ≤ old := by
      rw [BitVec.le_def, hpartval]
      exact Nat.div_le_self _ _
    have hmax : smooth (2 ^ d.weightRcp.toNat) old.toNat
        (v.toNat * 2 ^ (d.precision - d.weightRcp).toNat) ≤ 2 ^ 64 - 1 := by
      refine smooth_le (Nat.two_pow_pos _) ?_ ?_
      · exact Nat.le_sub_one_of_lt old.isLt
      · rw [hq]
        exact Nat.le_sub_one_of_lt hv
    unfold smooth at hmax ⊢
    rw [BitVec.toNat_add, BitVec.toNat_sub_of_le hsub, hpartval, hownval,
      Nat.mod_eq_of_lt (by omega)]

/-- An average between two bounds, or none yet, takes a sample between
them and stays between them. -/
theorem add_between (hv : v.toNat * 2 ^ d.precision.toNat < 2 ^ 64)
    (hold : old ≠ 0 → lo * 2 ^ d.precision.toNat ≤ old.toNat
      ∧ old.toNat ≤ hi * 2 ^ d.precision.toNat)
    (hbounds : lo ≤ v.toNat ∧ v.toNat ≤ hi) (hadd : d.add old v = some new) :
    lo * 2 ^ d.precision.toNat ≤ new.toNat
      ∧ new.toNat ≤ hi * 2 ^ d.precision.toNat := by
  have hlo := Nat.mul_le_mul_right (2 ^ d.precision.toNat) hbounds.1
  have hhi := Nat.mul_le_mul_right (2 ^ d.precision.toNat) hbounds.2
  by_cases hzero : old = 0
  · obtain ⟨a, ha, haval⟩ := scaled hv
    rw [hzero, add_zero, ha] at hadd
    rw [← Option.some.inj hadd, haval]
    exact ⟨hlo, hhi⟩
  · by_cases hle : d.weightRcp ≤ d.precision
    · obtain ⟨q, hq, new', hnew, hval⟩ := add_smooth hle hzero hv
      obtain ⟨hoverlo, hoverhi⟩ := hold hzero
      rw [hnew] at hadd
      rw [← hq] at hlo hhi
      rw [← Option.some.inj hadd, hval]
      exact ⟨le_smooth (Nat.two_pow_pos _) hoverlo hlo,
        smooth_le (Nat.two_pow_pos _) hoverhi hhi⟩
    · rw [add_none hle hzero] at hadd
      cases hadd

/-- What is read of an average between two bounds is between them. -/
theorem read_between (hlo : lo * 2 ^ d.precision.toNat ≤ new.toNat)
    (hhi : new.toNat ≤ hi * 2 ^ d.precision.toNat) :
    ∃ value, d.read new = some value
      ∧ lo ≤ value.toNat ∧ value.toNat ≤ hi := by
  have hpos := Nat.two_pow_pos d.precision.toNat
  obtain ⟨value, hvalue, hval⟩ :=
    @ULong.shr_eq new d.precision (d.precision_lt.trans (by omega))
  refine ⟨value, hvalue, ?_, ?_⟩
  · rw [hval]
    exact (Nat.le_div_iff_mul_le hpos).2 hlo
  · rw [hval]
    exact Nat.div_le_of_le_mul (Nat.mul_comm _ _ ▸ hhi)

-- ================================================================ a sequence

theorem addAll_snoc (us : List ULong) (v : ULong) :
    d.addAll (us ++ [v]) = (d.addAll us).bind (d.add · v) := by
  unfold addAll
  rw [List.foldlM_append]
  cases us.foldlM d.add init <;> simp

/-- The samples before the last are small too. -/
theorem Small.init (h : d.Small (us ++ [v])) : d.Small us :=
  fun u hu => h u (List.mem_append_left _ hu)

theorem Small.last (h : d.Small (us ++ [v])) :
    v.toNat * 2 ^ d.precision.toNat < 2 ^ 64 :=
  h v (List.mem_append_right _ List.mem_cons_self)

/-- The average stays between any bounds of the samples. -/
theorem addAll_between (hsmall : d.Small us)
    (hbounds : ∀ u ∈ us, lo ≤ u.toNat ∧ u.toNat ≤ hi)
    (hrun : d.addAll us = some new) (hnew : new ≠ 0) :
    lo * 2 ^ d.precision.toNat ≤ new.toNat
      ∧ new.toNat ≤ hi * 2 ^ d.precision.toNat := by
  induction us using List.reverseRecOn generalizing new with
  | nil => exact absurd (Option.some.inj hrun).symm hnew
  | append_singleton us v ih =>
      rw [addAll_snoc] at hrun
      obtain ⟨old, hold, hadd⟩ := Option.bind_eq_some_iff.1 hrun
      exact add_between hsmall.last
        (ih hsmall.init (fun u hu => hbounds u (List.mem_append_left _ hu))
          hold)
        (hbounds v (List.mem_append_right _ List.mem_cons_self)) hadd

/-- With the reciprocal not above the precision, every shift of every
sequence is defined. -/
theorem addAll_defined (h : d.weightRcp ≤ d.precision)
    (hsmall : d.Small us) : ∃ new, d.addAll us = some new := by
  induction us using List.reverseRecOn with
  | nil => exact ⟨_, rfl⟩
  | append_singleton us v ih =>
      obtain ⟨old, hold⟩ := ih hsmall.init
      rw [addAll_snoc, hold]
      by_cases hzero : old = 0
      · obtain ⟨a, ha, -⟩ := scaled hsmall.last
        rw [hzero]
        exact ⟨a, (add_zero v).trans ha⟩
      · obtain ⟨q, -, new, hnew, -⟩ := add_smooth h hzero hsmall.last
        exact ⟨new, hnew⟩

/-- What has been added and comes in with its weight is added right. -/
theorem addsRight_of (hsmall : d.Small (us ++ [v]))
    (hold : d.addAll us = some old) (hadd : d.add old v = some new)
    (haverage : old ≠ 0 → Rounds new.toNat ((d.weightRcp.toNat - 1) * old.toNat
      + v.toNat * 2 ^ d.precision.toNat) d.weightRcp.toNat) :
    ∃ value, d.AddsRight us v old new value := by
  obtain ⟨value, hvalue, -⟩ :=
    @ULong.shr_eq new d.precision (d.precision_lt.trans (by omega))
  have hread : ∀ lo hi : Nat,
      (∀ u ∈ us ++ [v], lo ≤ u.toNat ∧ u.toNat ≤ hi) →
        lo ≤ value.toNat ∧ value.toNat ≤ hi := by
    intro lo hi hbounds
    obtain ⟨hlo, hhi⟩ := add_between hsmall.last
      (addAll_between hsmall.init
        (fun u hu => hbounds u (List.mem_append_left _ hu)) hold)
      (hbounds v (List.mem_append_right _ List.mem_cons_self)) hadd
    obtain ⟨value', hvalue', hvals⟩ := read_between hlo hhi
    have hsame : value = value' := Option.some.inj (hvalue.symm.trans hvalue')
    rw [hsame]
    exact hvals
  refine ⟨value, hold, hadd, hvalue, haverage, ?_, ?_⟩
  · intro lo hi hbounds
    have hvals := hread lo hi hbounds
    omega
  · intro c hc
    have hvals := hread c.toNat c.toNat fun u hu => by
      rw [hc u hu]
      exact ⟨le_rfl, le_rfl⟩
    exact BitVec.eq_of_toNat_eq (Nat.le_antisymm hvals.2 hvals.1)

-- ========================================================== steady sequences

/-- An average that is steady over a list is so over its beginnings. -/
theorem Steady.of_prefix {l l' : List ULong} (hp : l <+: l')
    (h : d.Steady l') : d.Steady l := by
  induction l' generalizing l with
  | nil =>
      rw [List.prefix_nil.1 hp]
      exact h
  | cons v vs ih =>
      cases l with
      | nil => trivial
      | cons u us =>
          obtain ⟨rfl, hus⟩ := List.cons_prefix_cons.1 hp
          unfold Steady at h ⊢
          split
          next hzero =>
            rw [if_pos hzero] at h
            exact ih hus h
          next hzero =>
            rw [if_neg hzero] at h
            exact fun x hx => h x (hus.subset hx)

/-- The average is the sample it came from, moved up. -/
def Holds (d : DeclareEwma) (v a : ULong) : Prop :=
  v ≠ 0 ∧ a.toNat = v.toNat * 2 ^ d.precision.toNat

/-- An average that holds a value is not zero, so the next sample is averaged
in. -/
theorem Holds.ne_zero {a : ULong} (h : d.Holds v a) : a ≠ 0 := by
  intro hzero
  have hval := h.2
  rw [hzero] at hval
  have hv : 0 < v.toNat := Nat.pos_of_ne_zero fun h0 =>
    h.1 (BitVec.eq_of_toNat_eq h0)
  have hpos := Nat.mul_pos hv (Nat.two_pow_pos d.precision.toNat)
  rw [← hval] at hpos
  exact Nat.lt_irrefl 0 hpos

/-- There it stays as long as that sample comes. -/
theorem Holds.add {a : ULong} (h : d.Holds v a)
    (hle : d.weightRcp ≤ d.precision) : d.add a v = some a := by
  obtain ⟨q, hq, new, hnew, hval⟩ :=
    add_smooth hle h.ne_zero (h.2 ▸ a.isLt)
  have hsame : new = a := by
    apply BitVec.eq_of_toNat_eq
    rw [hval, h.2, ← hq]
    exact smooth_self (Nat.two_pow_pos _)
  rw [hnew, hsame]

/-- Repeating the value it holds leaves it. -/
theorem Holds.addAll {a : ULong} (h : d.Holds v a) {us : List ULong}
    (hus : ∀ u ∈ us, d.weightRcp ≤ d.precision ∧ u = v) :
    us.foldlM d.add a = some a := by
  induction us with
  | nil => rfl
  | cons u us ih =>
      obtain ⟨hle, rfl⟩ := hus u List.mem_cons_self
      rw [List.foldlM_cons, h.add hle]
      exact ih fun x hx => hus x (List.mem_cons_of_mem _ hx)

/-- A zero sample leaves an empty average empty. -/
theorem add_zero_zero : d.add 0 0 = some 0 := by
  rw [add_zero, ULong.shl, if_pos (d.precision_lt.trans (by omega))]
  exact congrArg some (BitVec.zero_shiftLeft _)

/-- Before a sample of a steady sequence the average is zero, or is that
sample. -/
theorem Steady.before (h : d.Steady (us ++ [v])) (hsmall : d.Small us) :
    d.addAll us = some 0
      ∨ d.weightRcp ≤ d.precision
        ∧ ∃ a, d.addAll us = some a ∧ d.Holds v a := by
  induction us with
  | nil => exact .inl rfl
  | cons u us ih =>
      have hrun : d.addAll (u :: us)
          = (d.add 0 u).bind (us.foldlM d.add ·) := rfl
      rw [hrun]
      rw [List.cons_append] at h
      unfold Steady at h
      split at h
      next hzero =>
        rw [hzero, add_zero_zero]
        exact ih h fun x hx => hsmall x (List.mem_cons_of_mem _ hx)
      next hzero =>
        obtain ⟨a, ha, hval⟩ := scaled (hsmall u List.mem_cons_self)
        obtain ⟨hle, rfl⟩ := h v (by simp)
        rw [add_zero, ha]
        exact .inr ⟨hle, a, Holds.addAll ⟨hzero, hval⟩
          fun x hx => h x (List.mem_append_left _ hx), hzero, hval⟩

/-- A sample behind an average that holds another one is not added
right. -/
theorem AddsRight.same {value x : ULong} (h : d.AddsRight us v old new value)
    (hold : d.Holds x old)
    (hv : v.toNat * 2 ^ d.precision.toNat < 2 ^ 64) :
    d.weightRcp ≤ d.precision ∧ v = x := by
  by_cases hle : d.weightRcp ≤ d.precision
  · obtain ⟨q, hq, new', hnew, hval⟩ := add_smooth hle hold.ne_zero hv
    have hsame : new = new' := Option.some.inj (h.added.symm.trans hnew)
    have hweight : 2 * d.weightRcp.toNat ≤ 2 ^ d.weightRcp.toNat := by
      have hlt := Nat.lt_two_pow_self (n := d.weightRcp.toNat - 1)
      have hsucc : 2 ^ d.weightRcp.toNat
          = 2 * 2 ^ (d.weightRcp.toNat - 1) := by
        rw [← Nat.pow_succ', Nat.succ_eq_add_one,
          Nat.sub_add_cancel d.weightRcp_pos]
      omega
    -- the average is a whole number of parts, as `2 ^ precision` is one
    obtain ⟨c, hc⟩ := Nat.pow_dvd_pow 2 (BitVec.le_def.1 hle)
    have hparts : old.toNat = x.toNat * c * 2 ^ d.weightRcp.toNat := by
      rw [hold.2, hc, Nat.mul_assoc, Nat.mul_comm c]
    have haverage := h.average hold.ne_zero
    rw [hsame, hval, hparts, ← hq] at haverage
    have hqx := eq_of_rounds hweight weightRcp_pos haverage
    rw [hqx, ← hparts, hold.2] at hq
    have hvx := Nat.eq_of_mul_eq_mul_right (Nat.two_pow_pos _) hq
    exact ⟨hle, (BitVec.eq_of_toNat_eq hvx).symm⟩
  · have hadded := h.added
    rw [add_none hle hold.ne_zero] at hadded
    cases hadded

/-- Behind an average that holds a sample, only that sample is added
right, as long as there is one to add. -/
theorem Averages.stays {x a : ULong} {us rest : List ULong}
    (h : d.Averages (us ++ rest)) (hsmall : d.Small (us ++ rest))
    (hrun : d.addAll us = some a) (hx : d.Holds x a) :
    ∀ u ∈ rest, d.weightRcp ≤ d.precision ∧ u = x := by
  induction rest generalizing us with
  | nil =>
      intro u hu
      cases hu
  | cons w rest ih =>
      have hsplit : us ++ w :: rest = us ++ [w] ++ rest := by simp
      obtain ⟨old, new, value, hright⟩ :=
        h us w (hsplit ▸ List.prefix_append _ _)
      have hold : old = a := Option.some.inj (hright.before.symm.trans hrun)
      obtain ⟨hle, hw⟩ := hright.same (hold ▸ hx)
        (hsmall w (List.mem_append_right _ List.mem_cons_self))
      have hnext : d.addAll (us ++ [w]) = some a := by
        rw [addAll_snoc, hrun, hw]
        exact hx.add hle
      rw [hsplit] at h hsmall
      intro u hu
      rcases List.mem_cons.1 hu with rfl | hu
      · exact ⟨hle, hw⟩
      · exact ih h hsmall hnext u hu

/-- What averages a whole list is steady behind leading zeros. -/
theorem Averages.steady {us rest : List ULong} (h : d.Averages (us ++ rest))
    (hsmall : d.Small (us ++ rest)) (hrun : d.addAll us = some 0) :
    d.Steady rest := by
  induction rest generalizing us with
  | nil => trivial
  | cons w rest ih =>
      have hsplit : us ++ w :: rest = us ++ [w] ++ rest := by simp
      have hnext : d.addAll (us ++ [w]) = d.add 0 w := by
        rw [addAll_snoc, hrun]
        rfl
      obtain ⟨a, ha, hval⟩ := scaled
        (hsmall w (List.mem_append_right _ List.mem_cons_self))
      rw [hsplit] at h hsmall
      unfold Steady
      split
      next hzero =>
        rw [hzero, add_zero_zero] at hnext
        rw [hzero] at h hsmall
        exact ih h hsmall hnext
      next hzero =>
        rw [add_zero, ha] at hnext
        exact h.stays hsmall hnext ⟨hzero, hval⟩

end DeclareEwma

/-- For every precision and weight that can be declared, a sequence of
small samples is averaged as it should exactly if it is steady. -/
theorem ewma_averages_iff (d : DeclareEwma) (samples : List ULong)
    (hsmall : d.Small samples) : d.Averages samples ↔ d.Steady samples := by
  constructor
  · intro h
    have hall : d.Averages ([] ++ samples) := h
    exact hall.steady hsmall rfl
  · intro h us v hp
    have hown : d.Small (us ++ [v]) := fun u hu => hsmall u (hp.subset hu)
    rcases (h.of_prefix hp).before hown.init with hrun | ⟨hle, a, hrun, ha⟩
    · obtain ⟨new, hnew, -⟩ := DeclareEwma.scaled hown.last
      have hadd := (DeclareEwma.add_zero v).trans hnew
      exact ⟨0, new, DeclareEwma.addsRight_of hown hrun hadd
        fun hne => absurd rfl hne⟩
    · refine ⟨a, a, DeclareEwma.addsRight_of hown hrun (ha.add hle) ?_⟩
      intro _
      -- the sample, moved up, is the average itself
      have hpos := d.weightRcp_pos
      have hmul : (d.weightRcp.toNat - 1) * a.toNat + a.toNat
          = d.weightRcp.toNat * a.toNat := by
        rw [← Nat.succ_mul, Nat.succ_eq_add_one, Nat.sub_add_cancel hpos]
      rw [← ha.2, hmul]
      exact ⟨by omega, by omega⟩

/-- Ten bits of precision, and an eighth of the weight for a new sample. -/
def signalEwma : DeclareEwma :=
  ⟨10, 8, by decide, 3, by decide⟩

/-- A level signal behind one zero sample. -/
theorem level_signal_averages :
    signalEwma.Averages [0, 100, 100, 100] :=
  (ewma_averages_iff signalEwma _
    (by simp [DeclareEwma.Small, signalEwma])).2 (by decide)

/-- A sample of 200 behind an average of 100 leaves 100.39, not 112.5. -/
theorem signal_jump_lags :
    signalEwma.addAll [100, 200] = some 102800
      ∧ signalEwma.read 102800 = some 100
      ∧ (7 * (100 * 2 ^ 10) + 200 * 2 ^ 10) / 8 = 115200
      ∧ ¬ ∀ (d : DeclareEwma) (samples : List ULong),
          d.Small samples → d.Averages samples := by
  refine ⟨by decide, by decide, by decide, fun h => ?_⟩
  have hsmall : signalEwma.Small ([] ++ [100, 200]) := by
    simp [DeclareEwma.Small, signalEwma]
  have hsteady := (h signalEwma _ hsmall).steady hsmall rfl
  exact absurd hsteady (by decide)

end Rtw88
