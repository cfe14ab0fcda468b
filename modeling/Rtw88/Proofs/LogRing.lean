/-
The log ring refines a bounded queue: `log_ring_refines`.

The ring holds (`HoldsFrom`) exactly what is unread (`LogInv`). A turn of
the loop of `rtw88_log_append` is a `put` and a turn of the loop of
`rtw88_read_log` a `get`, each by induction over its loop.

The two indices are 32-bit words that run on and wrap, and a cell is
found by the remainder modulo the size of the ring. As the size divides
2^32 the remainder runs on through the wrap (`logStep_index`). One cell
stays free, or a full ring would look like an empty one; so what a `put`
pushes out is the oldest of 8191 bytes. The history of a run keeps all
that was ever appended, and the invariant cuts it in three: what was
read, what was pushed out since, and what is unread
(`LogHist.appended_split`).
-/
import Rtw88.Lib.Circ
import Rtw88.Spec.LogRing

namespace Rtw88

-- ===================================================================== loops

/-- The cells of the ring. -/
def LogRing.cells (r : LogRing) (i : Nat) : UInt8 := peek r.ring i

/-- The ring is whole and holds `xs`. -/
structure LogRing.Holds (r : LogRing) (xs : List UInt8) : Prop where
  size : r.ring.length = 8192
  held : HoldsFrom 8192 r.cells r.tail.toNat r.head.toNat xs

/-- A step of an index: the size of the ring divides 2^32. -/
theorem logStep_index (i : UInt32) :
    ((i + 1) % logRingSize).toNat = nextSlot 8192 i.toNat := by
  unfold nextSlot logRingSize
  rw [UInt32.toNat_mod, UInt32.toNat_add]
  simp only [UInt32.reduceToNat]
  omega

theorem cells_set {l : List UInt8} {i : Nat} (h : i < l.length)
    (c : UInt8) : peek (l.set i c) = Function.update (peek l) i c := by
  funext j
  unfold peek
  by_cases hj : j = i
  · rw [hj, Function.update_self, List.getD_eq_getElem?_getD,
      List.getElem?_set_self h, Option.getD_some]
  · rw [Function.update_of_ne hj, List.getD_eq_getElem?_getD,
      List.getElem?_set_ne (Ne.symm hj), ← List.getD_eq_getElem?_getD]

/-- One byte more. -/
theorem LogRing.Holds.put {r : LogRing} {xs : List UInt8}
    (h : r.Holds xs) (c : UInt8) :
    (r.put c).Holds ((xs ++ [c]).rtake logCapacity) := by
  have hput := h.held.put c
  have hhead := logStep_index r.head
  have htail := logStep_index r.tail
  have hcells : peek (r.ring.set r.head.toNat c)
      = Function.update r.cells r.head.toNat c :=
    cells_set (by rw [h.size]; exact h.held.head_lt) c
  have hmeet : (r.head + 1) % logRingSize = r.tail
      ↔ nextSlot 8192 r.head.toNat = r.tail.toNat := by
    rw [← hhead, UInt32.toNat_inj]
  unfold LogRing.put
  dsimp only
  by_cases hfull : (r.head + 1) % logRingSize = r.tail
  · rw [if_pos hfull]
    rw [if_pos (hmeet.1 hfull), ← hhead, ← htail, ← hcells] at hput
    exact ⟨by rw [List.length_set, h.size], hput⟩
  · rw [if_neg hfull]
    rw [if_neg (fun hm => hfull (hmeet.2 hm)), ← hhead, ← hcells] at hput
    exact ⟨by rw [List.length_set, h.size], hput⟩

/-- A message. -/
theorem LogRing.Holds.putAll {r : LogRing} {xs : List UInt8}
    (h : r.Holds (xs.rtake logCapacity)) (msg : List UInt8) :
    (LogRing.putAll msg r).Holds ((xs ++ cStr msg).rtake logCapacity) := by
  induction msg generalizing r xs with
  | nil =>
      rw [show cStr [] = [] from rfl, List.append_nil]
      exact h
  | cons c msg ih =>
      unfold LogRing.putAll cStr
      by_cases hc : c = 0
      · rw [if_pos hc, List.takeWhile_cons_of_neg (by simp [hc]),
          List.append_nil]
        exact h
      · rw [if_neg hc, List.takeWhile_cons_of_pos (by simp [hc])]
        have hnext := h.put c
        rw [rtake_concat_rtake] at hnext
        have hrest := ih hnext
        rw [List.append_assoc] at hrest
        exact hrest

/-- The loop of a read takes the oldest. -/
theorem LogRing.Holds.getAll {r : LogRing} {xs : List UInt8}
    (h : r.Holds xs) (n : Nat) :
    (LogRing.getAll n r).1 = xs.take n
      ∧ (LogRing.getAll n r).2.Holds (xs.drop n)
      ∧ (LogRing.getAll n r).2.lock = r.lock := by
  induction n generalizing r xs with
  | zero => exact ⟨by rw [List.take_zero]; rfl, h, rfl⟩
  | succ n ih =>
      have hmeet : r.tail = r.head ↔ xs = [] := by
        rw [← h.held.meet_iff, UInt32.toNat_inj]
        exact eq_comm
      unfold LogRing.getAll
      cases xs with
      | nil =>
          rw [if_neg (not_not.2 (hmeet.2 rfl))]
          exact ⟨List.take_nil.symm, h, rfl⟩
      | cons x xs =>
          rw [if_pos fun heq => List.cons_ne_nil x xs (hmeet.1 heq)]
          obtain ⟨hx, hrest⟩ := h.held.get
          rw [← logStep_index r.tail] at hrest
          obtain ⟨hout, hholds, hlock⟩ := ih
            (r := { r with tail := (r.tail + 1) % logRingSize })
            ⟨h.size, hrest⟩
          refine ⟨?_, hholds, hlock⟩
          dsimp only
          rw [hout, List.take_succ_cons]
          exact congrArg (· :: xs.take n) hx

/-- How much a call of `rtw88_read_log` may take. -/
def readBound (outBuf : Bool) (maxLen : UInt32) (r : LogRing) : Nat :=
  if outBuf && r.lock then maxLen.toNat else 0

/-- A read. -/
theorem LogRing.Holds.read {r : LogRing} {xs : List UInt8}
    (h : r.Holds xs) (outBuf : Bool) (maxLen : UInt32) :
    (rtw88ReadLog outBuf maxLen r).1 = xs.take (readBound outBuf maxLen r)
      ∧ (rtw88ReadLog outBuf maxLen r).2.Holds
        (xs.drop (readBound outBuf maxLen r)) := by
  unfold rtw88ReadLog
  by_cases hno : (!outBuf || maxLen == 0 || !r.lock) = true
  · have hzero : readBound outBuf maxLen r = 0 := by
      unfold readBound
      simp only [Bool.or_eq_true, Bool.not_eq_true', beq_iff_eq] at hno
      rcases hno with (hbuf | hlen) | hlock
      · rw [hbuf, Bool.false_and]
        rfl
      · rw [hlen, UInt32.toNat_zero, ite_self]
      · rw [hlock, Bool.and_false]
        rfl
    rw [if_pos hno, hzero, List.take_zero, List.drop_zero]
    exact ⟨rfl, h⟩
  · have hbound : readBound outBuf maxLen r = maxLen.toNat := by
      simp only [Bool.or_eq_true, Bool.not_eq_true', not_or,
        Bool.not_eq_false] at hno
      unfold readBound
      rw [hno.1.1, hno.2]
      rfl
    rw [if_neg hno, hbound]
    obtain ⟨hout, hholds, -⟩ := h.getAll maxLen.toNat
    exact ⟨hout, hholds⟩

-- ====================================================================== runs

/-- The ring holds what is unread. -/
structure LogInv (v : LogHist) : Prop where
  holds : v.ring.Holds v.unread
  consumed : v.consumed ≤ v.appended.length
  order : v.returned.Sublist (v.appended.take v.consumed)

theorem LogInv.init : LogInv LogHist.init := by
  refine ⟨⟨?_, ?_⟩, Nat.le_refl 0, List.Sublist.slnil⟩
  · exact List.length_replicate
  · exact .nil (by decide)

/-- A message appended. -/
theorem LogInv.append {v : LogHist} (h : LogInv v) (msg : List UInt8) :
    LogInv (logStep v (.append msg)) := by
  unfold logStep rtw88LogAppend
  cases hlock : v.ring.lock with
  | false => exact ⟨h.holds, h.consumed, h.order⟩
  | true =>
      have hconsumed := h.consumed
      constructor
      · have hput := h.holds.putAll msg
        rw [← List.drop_append_of_le_length hconsumed] at hput
        exact hput
      · dsimp only
        rw [if_pos rfl, List.length_append]
        omega
      · dsimp only
        rw [if_pos rfl, List.take_append_of_le_length hconsumed]
        exact h.order

/-- What was appended: up to the last byte read, what was pushed out
since, and what is unread. -/
theorem LogHist.appended_split (v : LogHist) :
    ∃ lost, v.appended
      = v.appended.take v.consumed ++ (lost ++ v.unread) := by
  refine ⟨(v.appended.drop v.consumed).take
    ((v.appended.drop v.consumed).length - logCapacity), ?_⟩
  unfold LogHist.unread List.rtake
  rw [List.take_append_drop, List.take_append_drop]

/-- A read of `n` bytes or what is there. -/
theorem LogInv.consume {v : LogHist} (h : LogInv v) {r : LogRing} {n : Nat}
    (hr : r.Holds (v.unread.drop n)) :
    LogInv
      { v with
        ring := r
        returned := v.returned ++ v.unread.take n
        consumed := if v.unread.take n = [] then v.consumed
          else v.appended.length - v.unread.length
            + (v.unread.take n).length } := by
  obtain ⟨lost, hsplit⟩ := v.appended_split
  by_cases hnil : v.unread.take n = []
  · -- nothing was asked for, or nothing is there
    have hsame : v.unread.drop n = v.unread := by
      rcases List.take_eq_nil_iff.1 hnil with hzero | hempty
      · rw [hzero, List.drop_zero]
      · rw [hempty, List.drop_nil]
    rw [hnil, if_pos rfl, List.append_nil]
    rw [hsame] at hr
    exact ⟨hr, h.consumed, h.order⟩
  · rw [if_neg hnil]
    have hshort : v.unread.length ≤ logCapacity := by
      unfold LogHist.unread
      rw [rtake_length]
      exact Nat.min_le_right _ _
    -- the bytes up to the last one read now
    obtain ⟨upto, hupto⟩ : ∃ upto, upto = v.appended.take v.consumed
        ++ (lost ++ v.unread.take n) := ⟨_, rfl⟩
    have hnow : v.appended = upto ++ v.unread.drop n := by
      rw [hupto, List.append_assoc, List.append_assoc,
        List.take_append_drop]
      exact hsplit
    have hat : v.appended.length - v.unread.length
        + (v.unread.take n).length = upto.length := by
      have hlen := congrArg List.length hnow
      have hpart := congrArg List.length hupto
      rw [List.length_append, List.length_drop] at hlen
      have hn : (v.unread.take n).length = min n v.unread.length :=
        List.length_take
      rw [List.length_append, List.length_append] at hpart
      omega
    have hdrop : v.appended.drop upto.length = v.unread.drop n := by
      rw [hnow, List.drop_left]
    have htake : v.appended.take upto.length = upto := by
      rw [hnow, List.take_left]
    rw [hat]
    constructor
    · show r.Holds ((v.appended.drop upto.length).rtake logCapacity)
      rw [hdrop, rtake_of_length_le]
      · exact hr
      · rw [List.length_drop]
        omega
    · show upto.length ≤ v.appended.length
      rw [hnow, List.length_append]
      omega
    · show (v.returned ++ v.unread.take n).Sublist
        (v.appended.take upto.length)
      rw [htake, hupto]
      exact h.order.append (List.sublist_append_right lost _)

theorem LogInv.step {v : LogHist} (h : LogInv v) (e : LogEvent) :
    LogInv (logStep v e) := by
  cases e with
  | init alloc => exact ⟨⟨h.holds.size, h.holds.held⟩, h.consumed, h.order⟩
  | exit => exact ⟨⟨h.holds.size, h.holds.held⟩, h.consumed, h.order⟩
  | append msg => exact h.append msg
  | read outBuf maxLen =>
      obtain ⟨hout, hholds⟩ := h.holds.read outBuf maxLen
      unfold logStep
      dsimp only
      rw [hout]
      exact h.consume hholds

/-- In every state that messages and reads lead to, the ring is a queue
of the newest 8191 bytes appended since the last one read. -/
theorem log_ring_refines (es : List LogEvent) :
    BoundedFifo (runFrom logStep LogHist.init es) := by
  have hinv : LogInv (runFrom logStep LogHist.init es) :=
    runFrom_inv (fun _ e h => h.step e) LogInv.init es
  generalize runFrom logStep LogHist.init es = v at hinv
  refine ⟨hinv.order, fun hlock maxLen => ?_, hinv.holds.held.head_lt,
    hinv.holds.held.tail_lt, ?_⟩
  · have hbound : readBound true maxLen v.ring = maxLen.toNat := by
      unfold readBound
      rw [hlock]
      rfl
    rw [(hinv.holds.read true maxLen).1, hbound]
  · rw [← hinv.holds.held.meet_iff, UInt32.toNat_inj]

end Rtw88
