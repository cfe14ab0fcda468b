/-
What an `sk_buff` is for: `SkbView`, an allocation cut in three, with the
frame between a headroom and a tailroom.

The calls of linux/skbuff.h check nothing, so a run of them keeps the
buffer in order exactly if each one finds the room it takes
(`skb_run_kept_iff`), and then it does to the three parts what
`viewStep` says.

# One event

`SkbIs b v` says that the pointers of `b` cut its allocation in the parts
of `v`. For each event there is the step that finds its room and what it
does to the view (`SkbIs.step`); the other way round, an event that does
not find it leaves the buffer or puts the pointers out of order
(`SkbIs.kept_iff`). The length is a 32-bit word, which may wrap where the
pointers do not; then it is no longer their distance, and the buffer is
out of order too. The run is an induction over its events, with the view
on one side and the pointers on the other.

# Frames

The second half is what the frames of the kext and of rtw88_compat.c
need of it: what each routine puts in its buffer is the frame the rest
of the model speaks of, in an allocation it does not leave, with the
headroom the driver's descriptor is pushed into. `SkbHolds` is `SkbIs`
for a frame under construction, and `Carries.bind` joins two steps of a
routine; a routine's lemma follows its source line by line.

# Copies and chains

`skb_copy` allocates anew and copies the headroom with the frame. An mbuf
chain is copied segment by segment, into a buffer made for the length its
header names: it stays inside exactly if the segments are together no
longer than that (`mbufToSkb_inside_iff`), and no line of the source
compares the two.
-/
import Rtw88.Lib.Trace
import Rtw88.Model.SkbData
import Rtw88.Spec.AccessPoint

namespace Rtw88

-- ==================================================================== views

/-- An allocation cut at `data` and at `tail`. -/
structure SkbView where
  pre : List UInt8
  bytes : List UInt8
  post : List UInt8
  deriving DecidableEq

/-- What lies at and behind `data`, written over at an offset. -/
def SkbView.write (v : SkbView) (i : Nat) (bs : List UInt8) : SkbView :=
  let rest := splice (v.bytes ++ v.post) i bs
  { v with
    bytes := rest.take v.bytes.length, post := rest.drop v.bytes.length }

/-- The frame takes the bytes `bs` more from the tailroom. -/
def SkbView.append (v : SkbView) (bs : List UInt8) : SkbView :=
  { v with bytes := v.bytes ++ bs, post := v.post.drop bs.length }

/-- What an event does to the three parts. -/
def viewStep (v : SkbView) : SkbEvent → SkbView
  | .put len => v.append (v.post.take len.toNat)
  | .putZero len => v.append (List.replicate len.toNat 0)
  | .putData bs => v.append (bs.take (UInt32.ofNat bs.length).toNat)
  | .push len =>
      let cut := v.pre.length - len.toNat
      { v with pre := v.pre.take cut, bytes := v.pre.drop cut ++ v.bytes }
  | .pull len =>
      { v with
        pre := v.pre ++ v.bytes.take len.toNat
        bytes := v.bytes.drop len.toNat }
  | .reserve len =>
      let whole := v.pre ++ v.bytes ++ v.post
      let cut := (v.pre.length + len).toNat
      { pre := whole.take cut
        bytes := (whole.drop cut).take v.bytes.length
        post := whole.drop (cut + v.bytes.length) }
  | .trim len =>
      { v with
        bytes := v.bytes.take len.toNat
        post := v.bytes.drop len.toNat ++ v.post }
  | .resetTail => v
  | .write i bs => v.write i bs

/-- There is the room an event takes. `skb_reset_tail_pointer` moves a
pointer and not the length, so it wants an empty frame. -/
def SkbFits (v : SkbView) : SkbEvent → Prop
  | .put len => len.toNat ≤ v.post.length
  | .putZero len => len.toNat ≤ v.post.length
  | .putData bs => (UInt32.ofNat bs.length).toNat ≤ v.post.length
  | .push len => len.toNat ≤ v.pre.length
  | .pull len => len.toNat ≤ v.bytes.length
  | .reserve len => -v.pre.length ≤ len ∧ len ≤ v.post.length
  | .trim _ => True
  | .resetTail => v.bytes = []
  | .write i bs => i + bs.length ≤ v.bytes.length + v.post.length

instance (v : SkbView) (e : SkbEvent) : Decidable (SkbFits v e) := by
  cases e <;> unfold SkbFits <;> infer_instance

/-- A buffer in order: the pointers cut its allocation in these three
parts, and the length is that of the middle one. -/
structure SkbIs (s : SkbBuf) (v : SkbView) : Prop where
  buf : s.buf = v.pre ++ v.bytes ++ v.post
  data : s.data = v.pre.length
  tail : s.tail = v.pre.length + v.bytes.length
  len : s.len.toNat = v.bytes.length
  small : s.buf.length < 2 ^ 32

/-- The pointers are in order and the length is their distance. -/
structure InOrder (s : SkbBuf) : Prop where
  base : 0 ≤ s.data
  order : s.data ≤ s.tail
  top : s.tail ≤ s.buf.length
  len : (s.len.toNat : Int) = s.tail - s.data
  small : s.buf.length < 2 ^ 32

/-- The allocation is headroom, data and tailroom. -/
theorem SkbIs.size {s : SkbBuf} {v : SkbView} (h : SkbIs s v) :
    s.buf.length = v.pre.length + v.bytes.length + v.post.length := by
  rw [h.buf, List.length_append, List.length_append]

/-- Its four offsets are in order. -/
theorem SkbIs.inOrder {s : SkbBuf} {v : SkbView} (h : SkbIs s v) :
    InOrder s := by
  have hsize := h.size
  obtain ⟨-, hdata, htail, hlen, hsmall⟩ := h
  exact ⟨by omega, by omega, by omega, by omega, hsmall⟩

-- ==================================================================== stores

/-- A store inside an allocation of three parts. -/
private theorem splice_mid (as bs cs ds : List UInt8) (i : Nat) :
    splice (as ++ bs ++ cs) (as.length + i) ds
      = as ++ splice (bs ++ cs) i ds := by
  unfold splice
  rw [List.append_assoc as bs cs, List.take_length_add_append, Nat.add_assoc,
    List.drop_length_add_append]
  simp only [List.append_assoc]

/-- A store behind `data` that stays in the allocation. -/
theorem SkbIs.store {s : SkbBuf} {v : SkbView} (h : SkbIs s v) (i : Nat)
    (bs : List UInt8)
    (hfit : i + bs.length ≤ v.bytes.length + v.post.length) :
    ∃ s', s.store (s.data + i) bs = some s' ∧ SkbIs s' (v.write i bs)
      ∧ s'.queueMapping = s.queueMapping := by
  have hsize := h.size
  have hlen : i + bs.length ≤ (v.bytes ++ v.post).length := by
    rw [List.length_append]
    exact hfit
  have hrest : (splice (v.bytes ++ v.post) i bs).length
      = v.bytes.length + v.post.length := by
    rw [splice_length hlen, List.length_append]
  refine ⟨{ s with buf := splice s.buf (s.data + i).toNat bs }, ?_,
    ⟨?_, h.data, ?_, ?_, ?_⟩, rfl⟩
  · unfold SkbBuf.store
    rw [if_pos]
    rw [h.data]
    omega
  · have hoff : (s.data + i).toNat = v.pre.length + i := by
      rw [h.data]
      omega
    dsimp only [SkbView.write]
    rw [hoff, h.buf, splice_mid, List.append_assoc,
      List.take_append_drop]
  · dsimp only [SkbView.write]
    rw [h.tail, List.length_take, hrest]
    omega
  · dsimp only [SkbView.write]
    rw [h.len, List.length_take, hrest]
    omega
  · dsimp only
    rw [splice_length]
    · exact h.small
    · rw [h.data]
      omega

/-- A store outside the allocation is one. -/
theorem SkbIs.store_none {s : SkbBuf} {v : SkbView} (h : SkbIs s v) {i : Nat}
    {bs : List UInt8}
    (hfit : ¬i + bs.length ≤ v.bytes.length + v.post.length) :
    s.store (s.data + i) bs = none := by
  have hsize := h.size
  unfold SkbBuf.store
  rw [if_neg]
  rw [h.data]
  omega

-- =============================================================== one event

/-- A `skb_put` that finds the room. -/
theorem SkbIs.put {s : SkbBuf} {v : SkbView} (h : SkbIs s v) {len : UInt32}
    (hfit : len.toNat ≤ v.post.length) :
    SkbIs (s.put len).2 (v.append (v.post.take len.toNat)) := by
  have hsize := h.size
  obtain ⟨hbuf, hdata, htail, hlen, hsmall⟩ := h
  have hmin : (v.post.take len.toNat).length = len.toNat := by
    rw [List.length_take]
    omega
  refine ⟨?_, hdata, ?_, ?_, hsmall⟩
  · dsimp only [SkbBuf.put, SkbView.append]
    rw [hmin, hbuf]
    simp only [List.append_assoc, List.take_append_drop]
  · dsimp only [SkbBuf.put, SkbView.append]
    rw [List.length_append, hmin, htail]
    omega
  · dsimp only [SkbBuf.put, SkbView.append]
    rw [List.length_append, hmin, UInt32.toNat_add]
    omega

/-- What is written over the bytes a `skb_put` took. -/
private theorem SkbView.append_write (v : SkbView) {bs : List UInt8} {n : Nat}
    (hn : bs.length = n) (hfit : n ≤ v.post.length) :
    (v.append (v.post.take n)).write v.bytes.length bs = v.append bs := by
  subst hn
  have hmin : (v.post.take bs.length).length = bs.length := by
    rw [List.length_take]
    omega
  have hover : splice (v.bytes ++ v.post.take bs.length
      ++ v.post.drop bs.length) v.bytes.length bs
        = v.bytes ++ bs ++ v.post.drop bs.length := by
    unfold splice
    rw [List.append_assoc v.bytes (v.post.take bs.length) _,
      List.take_left' rfl, List.drop_length_add_append, List.drop_left' hmin]
  have hlen : (v.bytes ++ v.post.take bs.length).length
      = (v.bytes ++ bs).length := by
    rw [List.length_append, List.length_append, hmin]
  unfold SkbView.write SkbView.append
  dsimp only
  rw [hmin, hover, hlen, List.take_left' rfl, List.drop_left' rfl]

/-- A `skb_put` and the bytes written there. -/
theorem SkbIs.putStore {s : SkbBuf} {v : SkbView} (h : SkbIs s v)
    {len : UInt32} {bs : List UInt8} (hlen : bs.length = len.toNat)
    (hfit : len.toNat ≤ v.post.length) :
    ∃ s', (s.put len).2.store (s.put len).1 bs = some s'
      ∧ SkbIs s' (v.append bs) ∧ s'.queueMapping = s.queueMapping := by
  have hoff : (s.put len).1 = (s.put len).2.data + v.bytes.length := by
    dsimp only [SkbBuf.put]
    rw [h.tail, h.data]
  obtain ⟨s', hs', his, hq⟩ := (h.put hfit).store v.bytes.length bs (by
    simp only [SkbView.append, List.length_append, List.length_drop,
      List.length_take]
    omega)
  rw [v.append_write hlen hfit] at his
  exact ⟨s', by rw [hoff, hs'], his, hq⟩

/-- Data that do not fit in the tailroom are written beyond the end. -/
theorem SkbIs.putStore_none {s : SkbBuf} {v : SkbView} (h : SkbIs s v)
    {len : UInt32} {bs : List UInt8} (hlen : bs.length = len.toNat)
    (hfit : ¬len.toNat ≤ v.post.length) :
    (s.put len).2.store (s.put len).1 bs = none := by
  have hsize := h.size
  have htail := h.tail
  unfold SkbBuf.store SkbBuf.put
  dsimp only
  rw [if_neg (by omega)]

/-- The buffer was not left, and its pointers are in order. -/
def Kept (s : Option SkbBuf) : Prop := ∃ s', s = some s' ∧ InOrder s'

/-- What an event that finds its room does. -/
theorem SkbIs.step {s : SkbBuf} {v : SkbView} {e : SkbEvent}
    (h : SkbIs s v) (hfit : SkbFits v e) :
    ∃ s', skbDataStep s e = some s' ∧ SkbIs s' (viewStep v e) := by
  have hsize := h.size
  cases e with
  | put len => exact ⟨_, rfl, h.put hfit⟩
  | putZero len =>
      obtain ⟨s', hs', his, -⟩ := h.putStore (List.length_replicate ..) hfit
      exact ⟨s', hs', his⟩
  | putData bs =>
      obtain ⟨s', hs', his, -⟩ := h.putStore (by
        rw [List.length_take, UInt32.toNat_ofNat']
        exact Nat.min_eq_left (Nat.mod_le ..)) hfit
      exact ⟨s', hs', his⟩
  | push len =>
      obtain ⟨hbuf, hdata, htail, hlen, hsmall⟩ := h
      have hfit' : len.toNat ≤ v.pre.length := hfit
      refine ⟨_, rfl, ?_, ?_, ?_, ?_, hsmall⟩
      · simp only [SkbBuf.push, viewStep, hbuf, List.append_assoc]
        rw [← List.append_assoc (v.pre.take _), List.take_append_drop]
      · simp only [SkbBuf.push, viewStep, List.length_take]
        omega
      · simp only [SkbBuf.push, viewStep, List.length_take,
          List.length_append, List.length_drop]
        omega
      · simp only [SkbBuf.push, viewStep, UInt32.toNat_add,
          List.length_append, List.length_drop]
        omega
  | pull len =>
      obtain ⟨hbuf, hdata, htail, hlen, hsmall⟩ := h
      have hfit' : len.toNat ≤ v.bytes.length := hfit
      have hle : len ≤ s.len := UInt32.le_iff_toNat_le.2 (by omega)
      refine ⟨_, rfl, ?_, ?_, ?_, ?_, hsmall⟩
      · simp only [SkbBuf.pull, viewStep, hbuf, List.append_assoc]
        rw [← List.append_assoc (v.bytes.take _), List.take_append_drop]
      · simp only [SkbBuf.pull, viewStep, List.length_take,
          List.length_append]
        omega
      · simp only [SkbBuf.pull, viewStep, List.length_take,
          List.length_append, List.length_drop]
        omega
      · simp only [SkbBuf.pull, viewStep, UInt32.toNat_sub_of_le _ _ hle,
          List.length_drop]
        omega
  | reserve len =>
      obtain ⟨hbuf, hdata, htail, hlen, hsmall⟩ := h
      obtain ⟨hlow, hhigh⟩ :
        -(v.pre.length : Int) ≤ len ∧ len ≤ v.post.length := hfit
      refine ⟨_, rfl, ?_, ?_, ?_, ?_, hsmall⟩
      · simp only [SkbBuf.reserve, viewStep, ← hbuf]
        rw [List.append_assoc, ← List.drop_drop, List.take_append_drop,
          List.take_append_drop]
      all_goals
        simp only [SkbBuf.reserve, viewStep, ← hbuf, List.length_take,
          List.length_drop]
        omega
  | trim len =>
      obtain ⟨hbuf, hdata, htail, hlen, hsmall⟩ := h
      refine ⟨_, rfl, ?_⟩
      unfold SkbBuf.trim
      split
      next hlt =>
        have hlt' : len.toNat < s.len.toNat := UInt32.lt_iff_toNat_lt.1 hlt
        have hle : len ≤ s.len := UInt32.le_iff_toNat_le.2 (by omega)
        refine ⟨?_, ?_, ?_, ?_, hsmall⟩
        · simp only [viewStep, hbuf, List.append_assoc]
          rw [← List.append_assoc (v.bytes.take _), List.take_append_drop]
        all_goals
          simp only [viewStep, UInt32.toNat_sub_of_le _ _ hle,
            List.length_take]
          omega
      next hge =>
        have hge' : s.len.toNat ≤ len.toNat := by
          rw [UInt32.lt_iff_toNat_lt] at hge
          omega
        have hwhole : v.bytes.take len.toNat = v.bytes :=
          List.take_of_length_le (by omega)
        have hnone : v.bytes.drop len.toNat = [] :=
          List.drop_of_length_le (by omega)
        simp only [viewStep, hwhole, hnone, List.nil_append]
        exact ⟨hbuf, hdata, htail, hlen, hsmall⟩
  | resetTail =>
      have hempty : v.bytes = [] := hfit
      refine ⟨_, rfl, h.buf, h.data, ?_, h.len, h.small⟩
      simp only [SkbBuf.resetTailPointer, viewStep, hempty, List.length_nil,
        h.data]
      omega
  | write i bs =>
      obtain ⟨s', hs', his, -⟩ := h.store i bs hfit
      exact ⟨s', hs', his⟩

/-- An event keeps the buffer in order exactly if it finds its room. -/
theorem SkbIs.kept_iff {s : SkbBuf} {v : SkbView} {e : SkbEvent}
    (h : SkbIs s v) : Kept (skbDataStep s e) ↔ SkbFits v e := by
  refine ⟨fun ⟨s', hs', hin⟩ => ?_, fun hfit => ?_⟩
  · have hsize := h.size
    by_contra hfit
    obtain ⟨hbase, horder, htop, hlen', hsmall'⟩ := hin
    cases e with
    | put len =>
        cases hs'
        obtain ⟨-, hdata, htail, hlen, hsmall⟩ := h
        simp only [SkbFits, SkbBuf.put] at hfit htop
        omega
    | putZero len =>
        rw [show skbDataStep s (.putZero len) = none from
          h.putStore_none (List.length_replicate ..) hfit] at hs'
        cases hs'
    | putData bs =>
        rw [show skbDataStep s (.putData bs) = none from
          h.putStore_none (by
            rw [List.length_take, UInt32.toNat_ofNat']
            exact Nat.min_eq_left (Nat.mod_le ..)) hfit] at hs'
        cases hs'
    | push len =>
        cases hs'
        obtain ⟨-, hdata, htail, hlen, hsmall⟩ := h
        simp only [SkbFits, SkbBuf.push] at hfit hbase
        omega
    | pull len =>
        cases hs'
        obtain ⟨-, hdata, htail, hlen, hsmall⟩ := h
        simp only [SkbFits, SkbBuf.pull] at hfit horder
        omega
    | reserve len =>
        cases hs'
        obtain ⟨-, hdata, htail, hlen, hsmall⟩ := h
        simp only [SkbFits, SkbBuf.reserve] at hfit htop hbase
        omega
    | trim len => exact hfit trivial
    | resetTail =>
        cases hs'
        simp only [SkbBuf.resetTailPointer] at hlen'
        have hnil : v.bytes.length = 0 := by
          rw [← h.len]
          omega
        exact hfit (List.length_eq_zero_iff.1 hnil)
    | write i bs =>
        rw [show skbDataStep s (.write i bs) = none from
          h.store_none hfit] at hs'
        cases hs'
  · obtain ⟨s', hs', his⟩ := h.step hfit
    exact ⟨s', hs', his.inOrder⟩

-- ================================================================ the run

/-- Every event of the run keeps the buffer in order. -/
def KeptAlong : SkbBuf → List SkbEvent → Prop
  | _, [] => True
  | s, e :: es =>
      ∃ s', skbDataStep s e = some s' ∧ InOrder s' ∧ KeptAlong s' es

/-- The run of a list of events. -/
def skbDataRun (s : SkbBuf) (es : List SkbEvent) : Option SkbBuf :=
  es.foldlM skbDataStep s

/-- Along a run a buffer stays inside exactly while its view has the room. -/
theorem SkbIs.keptAlong_iff {s : SkbBuf} {v : SkbView} (h : SkbIs s v)
    (es : List SkbEvent) : KeptAlong s es ↔ Along viewStep SkbFits v es := by
  induction es generalizing s v with
  | nil => exact Iff.rfl
  | cons e es ih =>
      refine ⟨fun ⟨s', hs', hin, hrun⟩ => ?_, fun ⟨hfit, hrun⟩ => ?_⟩
      · have hfit : SkbFits v e := h.kept_iff.1 ⟨s', hs', hin⟩
        obtain ⟨t, ht, hist⟩ := h.step hfit
        rw [hs'] at ht
        cases ht
        exact ⟨hfit, (ih hist).1 hrun⟩
      · obtain ⟨s', hs', his⟩ := h.step hfit
        exact ⟨s', hs', his.inOrder, (ih his).2 hrun⟩

/-- A run that fits gives what the view's run gives. -/
theorem SkbIs.run {s : SkbBuf} {v : SkbView} (h : SkbIs s v)
    {es : List SkbEvent} (hes : Along viewStep SkbFits v es) :
    ∃ s', skbDataRun s es = some s' ∧ SkbIs s' (runFrom viewStep v es) := by
  induction es generalizing s v with
  | nil => exact ⟨s, rfl, h⟩
  | cons e es ih =>
      obtain ⟨s', hs', his⟩ := h.step hes.1
      obtain ⟨t, ht, hist⟩ := ih his hes.2
      refine ⟨t, ?_, hist⟩
      unfold skbDataRun at ht ⊢
      rw [List.foldlM_cons, hs']
      exact ht

/-- What `alloc_skb` gives: an empty frame, all of it tailroom. -/
def allocView (size : UInt32) (junk : Nat → UInt8) : SkbView :=
  { pre := [], bytes := [], post := (SkbBuf.alloc size junk).buf }

/-- A fresh buffer is all tailroom. -/
theorem alloc_skbIs (size : UInt32) (junk : Nat → UInt8) :
    SkbIs (SkbBuf.alloc size junk) (allocView size junk) := by
  refine ⟨rfl, rfl, rfl, rfl, ?_⟩
  simp only [SkbBuf.alloc, List.length_map, List.length_range]
  exact UInt32.toNat_lt _

/-- Every run from `alloc_skb` keeps the buffer in order if and only if
each event of it finds the room it takes in the parts as they are then;
and such a run stays in the allocation and does to the parts what
`viewStep` says. -/
theorem skb_run_kept_iff (size : UInt32) (junk : Nat → UInt8)
    (es : List SkbEvent) :
    (KeptAlong (SkbBuf.alloc size junk) es
        ↔ Along viewStep SkbFits (allocView size junk) es)
      ∧ (Along viewStep SkbFits (allocView size junk) es →
        ∃ s, skbDataRun (SkbBuf.alloc size junk) es = some s
          ∧ SkbIs s (runFrom viewStep (allocView size junk) es)) :=
  ⟨(alloc_skbIs size junk).keptAlong_iff es, (alloc_skbIs size junk).run⟩

-- ================================================================== frames

/-- The buffer holds this frame, behind `head` bytes of headroom and
before `tail` bytes of tailroom. -/
def SkbHolds (s : SkbBuf) (head : Nat) (frame : List UInt8) (tail : Nat) :
    Prop :=
  ∃ pre post, SkbIs s { pre := pre, bytes := frame, post := post }
    ∧ pre.length = head ∧ post.length = tail

/-- A routine gives a buffer, and stays in its allocation. -/
def Carries (r : Option SkbBuf) (head : Nat) (frame : List UInt8)
    (tail : Nat) : Prop :=
  ∃ s, r = some s ∧ SkbHolds s head frame tail

/-- A frame built in two steps. -/
theorem Carries.bind {r : Option SkbBuf} {f : SkbBuf → Option SkbBuf}
    {head head' tail tail' : Nat} {frame frame' : List UInt8}
    (h : Carries r head frame tail)
    (hf : ∀ s, SkbHolds s head frame tail →
      Carries (f s) head' frame' tail') :
    Carries (r >>= f) head' frame' tail' := by
  obtain ⟨s, rfl, hs⟩ := h
  exact hf s hs

/-- `alloc_skb`, and then `skb_reserve`. -/
theorem alloc_reserve (size : UInt32) (junk : Nat → UInt8) {n : Nat}
    (h : n ≤ (size + 64).toNat) :
    SkbHolds ((SkbBuf.alloc size junk).reserve n) n []
      ((size + 64).toNat - n) := by
  have hlen : (SkbBuf.alloc size junk).buf.length = (size + 64).toNat := by
    simp [SkbBuf.alloc]
  have hsmall := (alloc_skbIs size junk).small
  have hpre : ((SkbBuf.alloc size junk).buf.take n).length = n := by
    rw [List.length_take, hlen]
    omega
  refine ⟨(SkbBuf.alloc size junk).buf.take n,
    (SkbBuf.alloc size junk).buf.drop n, ⟨?_, ?_, ?_, rfl, hsmall⟩, hpre, ?_⟩
  · simp [SkbBuf.reserve]
  · rw [hpre]
    exact Int.zero_add _
  · rw [hpre]
    exact Int.add_comm 0 n
  · rw [List.length_drop, hlen]

/-- Bytes put at the end take as much of the tailroom. -/
theorem SkbHolds.putData {s : SkbBuf} {head tail : Nat}
    {frame : List UInt8} (h : SkbHolds s head frame tail) {bs : List UInt8}
    (hfit : bs.length ≤ tail) :
    Carries (s.putData bs) head (frame ++ bs) (tail - bs.length) := by
  obtain ⟨pre, post, his, rfl, rfl⟩ := h
  have hsize := his.size
  have hsmall := his.small
  dsimp only at hsize
  have hlen : (UInt32.ofNat bs.length).toNat = bs.length := by
    rw [UInt32.toNat_ofNat', Nat.mod_eq_of_lt (by omega)]
  obtain ⟨s', hs', his', -⟩ := his.putStore
    (show (bs.take bs.length).length = (UInt32.ofNat bs.length).toNat by
      rw [hlen, List.take_length]) (by rw [hlen]; exact hfit)
  rw [List.take_length] at his'
  refine ⟨s', ?_, pre, post.drop bs.length, his', rfl, ?_⟩
  · rw [List.take_length] at hs'
    rw [SkbBuf.putData, hlen, List.take_length]
    exact hs'
  · rw [List.length_drop]

/-- Bytes put on a condition. -/
theorem SkbHolds.putIf {s : SkbBuf} {head tail : Nat} {frame : List UInt8}
    (h : SkbHolds s head frame tail) {p : Prop} [Decidable p]
    (bs : List UInt8) (hfit : bs.length ≤ tail) :
    Carries (if p then s.putData bs else some s) head
      (frame ++ if p then bs else [])
      (tail - if p then bs.length else 0) := by
  split
  · exact h.putData hfit
  · rw [List.append_nil]
    exact ⟨s, rfl, h⟩

theorem SkbHolds.putZero {s : SkbBuf} {head tail : Nat}
    {frame : List UInt8} (h : SkbHolds s head frame tail) {len : UInt32}
    (hfit : len.toNat ≤ tail) :
    Carries (s.putZero len) head (frame ++ List.replicate len.toNat 0)
      (tail - len.toNat) := by
  obtain ⟨pre, post, his, rfl, rfl⟩ := h
  obtain ⟨s', hs', his', -⟩ := his.putStore (List.length_replicate ..) hfit
  refine ⟨s', hs', pre, post.drop len.toNat, ?_, rfl, ?_⟩
  · simpa [SkbView.append] using his'
  · rw [List.length_drop]

/-- A write inside the frame. -/
theorem SkbHolds.store {s : SkbBuf} {head tail : Nat} {frame : List UInt8}
    (h : SkbHolds s head frame tail) (i : Nat) (bs : List UInt8)
    (hfit : i + bs.length ≤ frame.length) :
    Carries (s.store (head + i) bs) head (splice frame i bs) tail := by
  obtain ⟨pre, post, his, rfl, rfl⟩ := h
  obtain ⟨s', hs', his', -⟩ := his.store i bs (by dsimp only; omega)
  have hsplit : splice (frame ++ post) i bs = splice frame i bs ++ post := by
    unfold splice
    rw [List.take_append_of_le_length (by omega),
      List.drop_append_of_le_length (by omega)]
    simp only [List.append_assoc]
  have hlen : (splice frame i bs).length = frame.length := splice_length hfit
  refine ⟨s', ?_, pre, post, ?_, rfl, rfl⟩
  · rw [← hs', his.data]
  · simpa [SkbView.write, hsplit, ← hlen] using his'

/-- The next bytes of a frame that was zeroed first. -/
theorem SkbHolds.fill {s : SkbBuf} {head tail k : Nat} {front : List UInt8}
    (h : SkbHolds s head (front ++ List.replicate k 0) tail) {off : Int}
    (hoff : off = head + front.length) {bs : List UInt8}
    (hfit : bs.length ≤ k) :
    Carries (s.store off bs) head
      (front ++ bs ++ List.replicate (k - bs.length) 0) tail := by
  have hstore := h.store front.length bs (by
    rw [List.length_append, List.length_replicate]
    omega)
  have hover : splice (front ++ List.replicate k 0) front.length bs
      = front ++ bs ++ List.replicate (k - bs.length) 0 := by
    unfold splice
    rw [List.take_left' rfl, List.drop_length_add_append, List.drop_replicate]
  rw [hover] at hstore
  rw [hoff]
  exact hstore

/-- The driver's descriptor, in front of the frame. -/
theorem SkbHolds.descriptor {s : SkbBuf} {head tail : Nat}
    {frame desc : List UInt8} (h : SkbHolds s head frame tail)
    (hfit : desc.length ≤ head) :
    let pushed := s.push (UInt32.ofNat desc.length)
    Carries (pushed.store pushed.data desc) (head - desc.length)
      (desc ++ frame) tail := by
  obtain ⟨pre, post, his, rfl, rfl⟩ := h
  have hsize := his.size
  have hsmall := his.small
  dsimp only at hsize
  have hlen : (UInt32.ofNat desc.length).toNat = desc.length := by
    rw [UInt32.toNat_ofNat', Nat.mod_eq_of_lt (by omega)]
  obtain ⟨s', hs', his'⟩ := his.step
    (e := .push (UInt32.ofNat desc.length)) (by
      simp only [SkbFits, hlen]
      exact hfit)
  cases hs'
  have hcut : (pre.drop (pre.length - desc.length)).length = desc.length := by
    rw [List.length_drop]
    omega
  simp only [viewStep, hlen] at his'
  have hholds : SkbHolds (s.push (UInt32.ofNat desc.length))
      (pre.length - desc.length)
      (pre.drop (pre.length - desc.length) ++ frame) post.length :=
    ⟨_, _, his', by rw [List.length_take]; omega, rfl⟩
  have hstore := hholds.store 0 desc (by
    rw [List.length_append, hcut]
    omega)
  have hover : splice (pre.drop (pre.length - desc.length) ++ frame) 0 desc
      = desc ++ frame := by
    unfold splice
    rw [List.take_zero, List.nil_append, Nat.zero_add, List.drop_left' hcut]
  rw [hover] at hstore
  have hdata : (s.push (UInt32.ofNat desc.length)).data
      = ((pre.length - desc.length : Nat) : Int) + (0 : Nat) := by
    rw [his'.data, List.length_take]
    omega
  dsimp only
  rw [hdata]
  exact hstore

variable {hw : Hw} {junk : Nat → UInt8}

/-- What becomes of a buffer's routing does not touch its bytes. -/
theorem SkbHolds.routed {s : SkbBuf} {head tail : Nat} {frame : List UInt8}
    (h : SkbHolds s head frame tail) (q : UInt16) (prio : UInt32) :
    SkbHolds { s with queueMapping := q, priority := prio } head frame
      tail := by
  obtain ⟨pre, post, ⟨hbuf, hdata, htail, hlen, hsmall⟩, hpre, hpost⟩ := h
  exact ⟨pre, post, ⟨hbuf, hdata, htail, hlen, hsmall⟩, hpre, hpost⟩

/-- A management frame, in a buffer that leaves 128 bytes in front of it. -/
theorem txMgmtSkb_carries {frame : List UInt8}
    (h : frame.length + 192 < 2 ^ 32) :
    Carries (txMgmtSkb junk frame) 128 frame 64 := by
  have hsize : (UInt32.ofNat frame.length + 128 + 64).toNat
      = frame.length + 192 := by
    simp only [UInt32.toNat_add, UInt32.toNat_ofNat', UInt32.reduceToNat]
    omega
  have halloc := alloc_reserve (UInt32.ofNat frame.length + 128) junk
    (n := 128) (by omega)
  rw [hsize] at halloc
  have hput := halloc.putData (show frame.length ≤ _ by omega)
  rw [show frame.length + 192 - 128 - frame.length = 64 by omega] at hput
  exact hput

/-- A null-data frame, in a buffer of the same kind. -/
theorem txNullFuncSkb_carries (powerSave : Bool) (s : Mlme) :
    Carries (txNullFuncSkb hw junk powerSave s) 128
      (hdr3addr (ftypeData ||| stypeNullfunc ||| fctlToDs
        ||| (if powerSave then fctlPm else 0)) s.targetBSS.bssid hw.macAddr
        s.targetBSS.bssid (seqField s.txSeq)) 64 := by
  have halloc := alloc_reserve (24 + 128) junk (n := 128) (by decide)
  unfold txNullFuncSkb
  refine (halloc.putData (by simp)).bind fun t ht => ?_
  rw [hdr3addr_length] at ht
  exact ⟨_, rfl, ht.routed acBe 0⟩

/-- The LLC/SNAP header has eight bytes. -/
@[simp] theorem snapHdr_length (ethertype : UInt16) :
    (snapHdr ethertype).length = 8 := rfl

/-- The bytes of the CCMP header, if there is one. -/
private def ccmpBytes (pn : Bytes 6) : Option KeyConf → List UInt8
  | some k => ccmpHdr pn k.keyidx
  | none => []

/-- A data frame, part by part. -/
private theorem dataFrame_parts (m : List UInt8) (seq : UInt16)
    (key : Option KeyConf) (pn : Bytes 6) (s : Mlme) :
    dataFrame hw m seq key pn s
      = hdr3addr (ftypeData ||| fctlToDs
            ||| (if htAllowed s then stypeQosData else 0)
            ||| (if key.isSome then fctlProtected else 0))
          s.targetBSS.bssid hw.macAddr (grab m 0 6) (seqField seq)
        ++ (if htAllowed s then [baTid &&& 0x0f, 0] else [])
        ++ ccmpBytes pn key ++ snapHdr (be16At m 12) ++ m.drop 14 := by
  cases key <;> rfl

/-- The CCMP header is put where there is a key. -/
private theorem SkbHolds.putCcmp {s : SkbBuf} {head tail : Nat}
    {frame : List UInt8} (h : SkbHolds s head frame tail)
    (key : Option KeyConf) (pn : Bytes 6)
    (hfit : (if key.isSome then 8 else 0) ≤ tail) :
    Carries (Rtw88.putCcmp pn s key) head (frame ++ ccmpBytes pn key)
      (tail - if key.isSome then 8 else 0) := by
  cases key with
  | none =>
      rw [ccmpBytes, List.append_nil]
      exact ⟨s, rfl, h⟩
  | some k => exact h.putData hfit

/-- `paylen`, for a frame `txDataFrame` takes. -/
private theorem paylen_toNat {m : List UInt8} (hmin : 14 ≤ m.length)
    (hmax : m.length ≤ 2048) :
    (UInt32.ofNat m.length - 14).toNat = m.length - 14 := by
  have hm : (UInt32.ofNat m.length).toNat = m.length := by
    rw [UInt32.toNat_ofNat', Nat.mod_eq_of_lt (by omega)]
  have hle : (14 : UInt32) ≤ UInt32.ofNat m.length := by
    rw [UInt32.le_iff_toNat_le, hm]
    exact hmin
  rw [UInt32.toNat_sub_of_le _ _ hle, hm]
  rfl

/-- `txDataFrame` builds the frame the model has it send, in a buffer
that leaves 128 bytes for the descriptor. -/
theorem txDataSkb_carries {m : List UInt8} (seq : UInt16)
    (key : Option KeyConf) (pn : Bytes 6) (s : Mlme) (hmin : 14 ≤ m.length)
    (hmax : m.length ≤ 2048) :
    Carries (txDataSkb hw junk m seq key pn s) 128
      (dataFrame hw m seq key pn s) 64 := by
  have hpay := paylen_toNat hmin hmax
  have hzero : UInt32.ofNat m.length - 14 ≠ 0 ↔ 14 < m.length := by
    rw [Ne, ← UInt32.toNat_inj, hpay]
    show ¬m.length - 14 = 0 ↔ _
    omega
  have hsize : ((if htAllowed s then (26 : UInt32) else 24)
      + (if key.isSome then 8 else 0) + 8 + (UInt32.ofNat m.length - 14)
      + 128 + 64).toNat
        = 24 + (if htAllowed s then 2 else 0) + (if key.isSome then 8 else 0)
          + 8 + (m.length - 14) + 192 := by
    simp only [UInt32.toNat_add, hpay]
    split <;> split <;> simp only [UInt32.reduceToNat] <;> omega
  have halloc := alloc_reserve ((if htAllowed s then (26 : UInt32) else 24)
      + (if key.isSome then 8 else 0) + 8 + (UInt32.ofNat m.length - 14)
      + 128) junk (n := 128) (by omega)
  rw [hsize] at halloc
  unfold txDataSkb
  refine (halloc.putData (by rw [hdr3addr_length]; omega)).bind
    fun t ht => ?_
  rw [hdr3addr_length] at ht
  have hqos := ht.putIf (p := htAllowed s = true) [baTid &&& 0x0f, 0] (by
    simp only [List.length_cons, List.length_nil]
    omega)
  simp only [List.length_cons, List.length_nil, Nat.zero_add,
    Nat.reduceAdd] at hqos
  refine hqos.bind fun t ht => (ht.putCcmp key pn (by omega)).bind
    fun t ht => ?_
  refine (ht.putData (show (snapHdr (be16At m 12)).length ≤ _ by
    rw [snapHdr_length]
    omega)).bind fun t ht => ?_
  rw [snapHdr_length] at ht
  have hpayload := ht.putIf (p := UInt32.ofNat m.length - 14 ≠ 0) (m.drop 14)
    (by
      rw [List.length_drop]
      omega)
  refine hpayload.bind fun t ht => ⟨_, rfl, ?_⟩
  have hdrop : (if UInt32.ofNat m.length - 14 ≠ 0 then m.drop 14 else [])
      = m.drop 14 := by
    split
    · rfl
    next hnone =>
      have hle : m.length ≤ 14 := by
        rw [hzero] at hnone
        omega
      rw [List.drop_of_length_le hle]
  have htail : (if UInt32.ofNat m.length - 14 ≠ 0 then (m.drop 14).length
      else 0) = m.length - 14 := by
    rw [← List.length_nil (α := UInt8), ← apply_ite List.length, hdrop,
      List.length_drop]
  rw [hdrop, htail, List.nil_append, ← dataFrame_parts] at ht
  have hroom : 24 + (if htAllowed s then 2 else 0)
      + (if key.isSome then 8 else 0) + 8 + (m.length - 14) + 192 - 128 - 24
      - (if htAllowed s then 2 else 0) - (if key.isSome then 8 else 0) - 8
      - (m.length - 14) = 64 := by
    omega
  rw [hroom] at ht
  exact ht.routed acBe 0

/-- Whatever `txDataFrame` hands to the driver, its `sk_buff` holds, built
piece by piece without leaving the allocation; and a descriptor of up to
128 bytes goes in front of it without touching it. -/
theorem txDataFrame_skb {env : Env} {m : List UInt8} {s : Mlme}
    (h : (txDataFrame hw env m s).1 = true) :
    let key := txKey (be16At m 12) s
    let seq := if htAllowed s then s.dataSeq else s.txSeq
    let s' := txCounters key s
    ∃ tx b, (txDataFrame hw env m s).2 = s'.emit (.tx tx)
      ∧ txDataSkb hw junk m seq key s'.ccmpTxPn s' = some b
      ∧ SkbHolds b 128 tx.data 64
      ∧ ∀ desc : List UInt8, desc.length ≤ 128 →
        let pushed := b.push (UInt32.ofNat desc.length)
        Carries (pushed.store pushed.data desc) (128 - desc.length)
          (desc ++ tx.data) 64 := by
  unfold txDataFrame at h ⊢
  split at h
  · cases h
  next sta hsta =>
    dsimp only at h ⊢
    split at h
    · cases h
    next hgo =>
      rw [if_neg hgo]
      split at h
      · cases h
      next hpay =>
        rw [if_neg hpay]
        simp only [Bool.or_eq_true, decide_eq_true_eq, not_or] at hgo
        obtain ⟨b, hb, hholds⟩ :
            Carries (txDataSkb hw junk m _ _ _ _) 128 _ 64 :=
          txDataSkb_carries _ _ _ _ (by omega) (by omega)
        exact ⟨_, b, rfl, hb, hholds, fun desc hlen => hholds.descriptor hlen⟩

/-- The frame is a QoS data frame with the Protected bit. -/
def Obs.isProtectedQos : Obs → Bool
  | .tx skb =>
      isDataQos (frameControl skb.data) && hasProtected (frameControl skb.data)
  | _ => false

/-- An IP packet on a WPA2 network with its pairwise key. -/
theorem sample_txDataFrame_skb :
    let hw := sampleHw samplePrims
    let m := List.replicate 12 7 ++ [0x08, 0x00, 1, 2, 3]
    let sta := { addr := 1, mac := zeros 6, aid := 1, bandwidth := 0,
                 htCap := {}, vhtCap := {} }
    let key := newKeyConf 2 true 0 cipherCcmp (List.replicate 16 0x5a)
    let s := { Mlme.init true with
      sta := some sta, wpa2 := true, ptkConf := some key }
    let s' := txCounters (some key) s
    ∃ tx b, (txDataFrame hw {} m s).2 = s'.emit (.tx tx)
      ∧ (Obs.tx tx).isProtectedQos = true
      ∧ txDataSkb hw (fun _ => 0xa5) m s.dataSeq (some key) s'.ccmpTxPn s'
        = some b
      ∧ SkbHolds b 128 tx.data 64
      ∧ ∀ desc : List UInt8, desc.length ≤ 128 →
        let pushed := b.push (UInt32.ofNat desc.length)
        Carries (pushed.store pushed.data desc) (128 - desc.length)
          (desc ++ tx.data) 64 := by
  intro hw m sta key s s'
  have hkey : txKey (be16At m 12) s = some key := if_pos (by decide)
  have hqos : htAllowed s = true := by decide +kernel
  have hhead : (txDataFrame hw {} m s).2.log.head?.map Obs.isProtectedQos
      = some true := by decide +kernel
  have hframe := @txDataFrame_skb hw (fun _ => 0xa5) {} m s
    (by decide +kernel)
  rw [hkey, if_pos hqos] at hframe
  obtain ⟨tx, b, hemit, hskb, hholds, hdesc⟩ := hframe
  refine ⟨tx, b, hemit, ?_, hskb, hholds, hdesc⟩
  rw [hemit] at hhead
  exact Option.some.inj hhead

-- ================================================= frames of rtw88_compat.c

/-- The low byte of a word needs no mask. -/
private theorem and_ff_toUInt8 (x : UInt16) :
    (x &&& 0xFF).toUInt8 = x.toUInt8 := by
  rw [UInt16.toUInt8_and]
  exact UInt8.and_neg_one

/-- A null-data frame of `rtw88_compat.c` is the one the kext builds, with
sequence number zero; a QoS one has two zero bytes more. -/
theorem ieee80211NullfuncGet_carries (bssid addr : Bytes 6) (qosOk : Bool) :
    Carries (ieee80211NullfuncGet junk bssid addr qosOk) 64
      (hdr3addr (ftypeData ||| stypeNullfunc ||| fctlToDs
          ||| (if qosOk then stypeQosData else 0)) bssid addr bssid 0
        ++ if qosOk then [0, 0] else []) 64 := by
  have halloc := alloc_reserve (64 + if qosOk then 26 else 24) junk (n := 64)
    (by cases qosOk <;> decide)
  have hp : ((SkbBuf.alloc (64 + if qosOk then 26 else 24) junk).reserve
      64).tail = 64 := rfl
  unfold ieee80211NullfuncGet
  simp only [hp]
  refine (halloc.putZero (by cases qosOk <;> decide)).bind fun t ht => ?_
  refine (ht.fill rfl (by cases qosOk <;> simp)).bind fun t ht => ?_
  refine (ht.fill rfl (by cases qosOk <;> simp)).bind fun t ht => ?_
  refine (ht.fill rfl (by cases qosOk <;> simp)).bind fun t ht => ?_
  refine (ht.fill rfl (by cases qosOk <;> simp)).bind fun t ht => ?_
  refine (ht.fill (by simp) (by cases qosOk <;> simp)).bind fun t ht => ?_
  refine (ht.fill (by simp) (by cases qosOk <;> simp)).bind fun t ht => ?_
  refine (ht.fill (by simp) (by cases qosOk <;> simp)).bind fun t ht => ?_
  cases qosOk with
  | false =>
    refine ⟨t, rfl, ?_⟩
    convert ht using 1
    · simp [hdr3addr, le16]
      decide
    · rfl
  | true =>
    have hqos := ht.fill (show ((64 : Int) + 24) = _ by simp)
      (show ([0, 0] : List UInt8).length ≤ _ by simp)
    show Carries (t.store (64 + 24) [0, 0]) 64 _ 64
    convert hqos using 1
    · simp [hdr3addr, le16]
      decide
    · rfl

/-- A PS-Poll frame of `rtw88_compat.c`, with the association identifier and
its two high bits. -/
theorem ieee80211PspollGet_carries (bssid addr : Bytes 6) (cfgAid : UInt16) :
    Carries (ieee80211PspollGet junk bssid addr cfgAid) 64
      (le16 0x00A4 ++ le16 (cfgAid ||| 0xC000) ++ bssid.toList
        ++ addr.toList) 64 := by
  have halloc := alloc_reserve (64 + 16) junk (n := 64) (by decide)
  have hp : ((SkbBuf.alloc (64 + 16) junk).reserve 64).tail = 64 := rfl
  unfold ieee80211PspollGet
  simp only [hp]
  refine (halloc.putZero (by decide)).bind fun t ht => ?_
  refine (ht.fill rfl (by decide)).bind fun t ht => ?_
  refine (ht.fill rfl (by decide)).bind fun t ht => ?_
  refine (ht.fill rfl (by simp)).bind fun t ht => ?_
  refine (ht.fill rfl (by simp)).bind fun t ht => ?_
  refine (ht.fill (by simp) (by simp)).bind fun t ht => ?_
  have hlast := ht.fill (show ((64 : Int) + 10) = _ by simp)
    (show addr.toList.length ≤ _ by simp)
  simp only [and_ff_toUInt8] at hlast
  convert hlast using 1
  · simp [le16]
    decide
  · rfl

-- =================================================================== copies

/-- `skb_headroom` and the length, as numbers. -/
theorem SkbIs.headroom {s : SkbBuf} {v : SkbView} (h : SkbIs s v) :
    s.headroom.toNat = v.pre.length := by
  have hsize := h.size
  have hsmall := h.small
  unfold SkbBuf.headroom
  rw [h.data, UInt32.toNat_ofNat']
  omega

/-- A load of the data gives the data. -/
theorem SkbIs.load {s : SkbBuf} {v : SkbView} (h : SkbIs s v) :
    s.load s.data s.len.toNat = some v.bytes := by
  have hsize := h.size
  have hoff : s.data.toNat = v.pre.length := by
    rw [h.data]
    exact Int.toNat_natCast _
  unfold SkbBuf.load
  rw [if_pos ⟨by rw [h.data]; omega, by rw [h.data, h.len]; omega⟩, hoff,
    h.buf, h.len, List.append_assoc, List.drop_left' rfl, List.take_left' rfl]

/-- A store moves no end. -/
theorem SkbBuf.store_length {s s' : SkbBuf} {off : Int} {bs : List UInt8}
    (h : s.store off bs = some s') : s'.buf.length = s.buf.length := by
  unfold SkbBuf.store at h
  split at h
  next hin =>
    cases h
    dsimp only
    rw [splice_length (by omega)]
  · cases h

/-- No event does. -/
theorem skbDataStep_length {s s' : SkbBuf} {e : SkbEvent}
    (h : skbDataStep s e = some s') : s'.buf.length = s.buf.length := by
  cases e with
  | put len | push len | pull len | reserve len | resetTail =>
      cases h
      rfl
  | trim len =>
      cases h
      unfold SkbBuf.trim
      split <;> rfl
  | putZero len | putData bs | write i bs =>
      have hstore := SkbBuf.store_length h
      exact hstore

/-- A run leaves the allocation as long as it was. -/
theorem skbDataRun_length {s s' : SkbBuf} {es : List SkbEvent}
    (h : skbDataRun s es = some s') : s'.buf.length = s.buf.length := by
  induction es generalizing s with
  | nil =>
      cases h
      rfl
  | cons e es ih =>
      unfold skbDataRun at h ih
      rw [List.foldlM_cons] at h
      obtain ⟨t, ht, hrun⟩ := Option.bind_eq_some_iff.1 h
      rw [ih hrun, skbDataStep_length ht]

/-- `skb_copy` of a buffer in order. -/
theorem SkbIs.copy {s : SkbBuf} {v : SkbView} (h : SkbIs s v)
    (junk : Nat → UInt8) (hsize : s.buf.length + 64 < 2 ^ 31) :
    ∃ n, s.copy junk = some n ∧ SkbHolds n v.pre.length v.bytes 64
      ∧ n.cb = s.cb ∧ n.queueMapping = 0 := by
  have hparts := h.size
  have hhead := h.headroom
  have hlen := h.len
  have hint : s.headroom.toInt32.toInt = v.pre.length := by
    show s.headroom.toBitVec.toInt = _
    rw [BitVec.toInt_eq_toNat_bmod, UInt32.toNat_toBitVec, hhead]
    exact Int.bmod_eq_of_le (by omega) (by omega)
  have hroom : (s.len + s.headroom + 64).toNat
      = v.bytes.length + v.pre.length + 64 := by
    rw [UInt32.toNat_add, UInt32.toNat_add, hhead, hlen]
    show ((_ + _) % 2 ^ 32 + 64) % 2 ^ 32 = _
    omega
  obtain ⟨pre, post, his, hpre, hpost⟩ :=
    alloc_reserve (s.len + s.headroom) junk (n := v.pre.length) (by omega)
  obtain ⟨n, hn, his', hq⟩ := his.putStore hlen.symm (by
    dsimp only
    omega)
  refine ⟨{ n with cb := s.cb }, ?_, ?_, rfl, hq⟩
  · unfold SkbBuf.copy
    rw [hint, h.load]
    simp only [Option.bind_eq_bind, Option.bind_some]
    rw [hn]
    rfl
  · obtain ⟨hb, hd, ht, hl, hs⟩ := his'
    refine ⟨_, _, ⟨hb, hd, ht, hl, hs⟩, hpre, ?_⟩
    simp only [List.length_drop]
    omega

/-- `skb_copy` of what any run that found its room made: it stays in
both allocations, and the copy has the bytes, as much headroom, 64 bytes
of tailroom and the control block, but not the queue mapping: it is for
the ring of `IEEE80211_AC_VO`. -/
theorem skb_copy_run (size : UInt32) (junk junk' : Nat → UInt8)
    (es : List SkbEvent)
    (h : Along viewStep SkbFits (allocView size junk) es)
    (hsize : (size + 64).toNat + 64 < 2 ^ 31) :
    let v := runFrom viewStep (allocView size junk) es
    ∃ s n, skbDataRun (SkbBuf.alloc size junk) es = some s
      ∧ s.copy junk' = some n ∧ SkbHolds n v.pre.length v.bytes 64
      ∧ n.cb = s.cb ∧ n.queueMapping = 0 := by
  obtain ⟨s, hs, his⟩ := (alloc_skbIs size junk).run h
  have hbuf : s.buf.length = (size + 64).toNat := by
    rw [skbDataRun_length hs]
    simp [SkbBuf.alloc]
  obtain ⟨n, hn, hcopy⟩ := his.copy junk' (by omega)
  exact ⟨s, n, hs, hn, hcopy⟩

/-- A frame with a header in front, copied. -/
theorem sample_skb_copy :
    let es := [SkbEvent.reserve 32, .putData [1, 2, 3], .push 2,
      .write 0 [8, 9], .trim 4]
    let v := runFrom viewStep (allocView 100 fun _ => 0xa5) es
    ∃ s n, skbDataRun (SkbBuf.alloc 100 fun _ => 0xa5) es = some s
      ∧ s.copy (fun _ => 0x5a) = some n ∧ SkbHolds n v.pre.length v.bytes 64
      ∧ n.cb = s.cb ∧ n.queueMapping = 0 :=
  skb_copy_run 100 _ _ _ (by decide +kernel) (by decide)

-- ==================================================================== chains

/-- A segment that fits is copied behind the others. -/
theorem SkbHolds.putSegment {s : SkbBuf} {head tail : Nat}
    {frame seg : List UInt8} (h : SkbHolds s head frame tail)
    (hfit : seg.length ≤ tail) :
    Carries (Rtw88.putSegment s seg) head (frame ++ seg)
      (tail - seg.length) := by
  unfold Rtw88.putSegment
  split
  · have hput := h.putData hfit
    obtain ⟨pre, post, his, rfl, rfl⟩ := h
    have hsize := his.size
    have hsmall := his.small
    dsimp only at hsize
    have hlen : (UInt32.ofNat seg.length).toNat = seg.length := by
      rw [UInt32.toNat_ofNat', Nat.mod_eq_of_lt (by omega)]
    unfold SkbBuf.putData at hput
    dsimp only at hput
    rw [hlen, List.take_length] at hput
    exact hput
  next hnone =>
    have hnil : seg = [] := List.length_eq_zero_iff.1 (by omega)
    subst hnil
    rw [List.append_nil]
    exact ⟨s, rfl, h⟩

/-- One that does not would be copied beyond the end. -/
theorem SkbHolds.putSegment_none {s : SkbBuf} {head tail : Nat}
    {frame seg : List UInt8} (h : SkbHolds s head frame tail)
    (hfit : tail < seg.length) : Rtw88.putSegment s seg = none := by
  obtain ⟨pre, post, his, rfl, rfl⟩ := h
  have hsize := his.size
  have htail := his.tail
  dsimp only at hsize htail
  unfold Rtw88.putSegment SkbBuf.store SkbBuf.put
  dsimp only
  rw [if_pos (by omega), if_neg (by omega)]

/-- A chain of segments fits exactly if they do together. -/
theorem SkbHolds.putChain {s : SkbBuf} {head tail : Nat}
    {frame : List UInt8} (h : SkbHolds s head frame tail)
    (chain : List (List UInt8)) :
    (chain.flatten.length ≤ tail →
        Carries (chain.foldlM Rtw88.putSegment s) head
          (frame ++ chain.flatten) (tail - chain.flatten.length))
      ∧ (tail < chain.flatten.length →
        chain.foldlM Rtw88.putSegment s = none) := by
  induction chain generalizing s frame tail with
  | nil =>
      refine ⟨fun _ => ?_, fun hlt => absurd hlt (Nat.not_lt_zero _)⟩
      rw [List.flatten_nil, List.append_nil]
      exact ⟨s, rfl, h⟩
  | cons seg chain ih =>
      rw [List.flatten_cons, List.length_append, List.foldlM_cons]
      refine ⟨fun hfit => ?_, fun hlt => ?_⟩
      · refine (h.putSegment (by omega)).bind fun t ht => ?_
        have hrest := (ih ht).1 (by omega)
        rw [List.append_assoc, Nat.sub_sub] at hrest
        exact hrest
      · by_cases hseg : seg.length ≤ tail
        · obtain ⟨t, ht, hholds⟩ := h.putSegment hseg
          rw [ht]
          exact (ih hholds).2 (by omega)
        · rw [h.putSegment_none (by omega)]
          rfl

/-- `mbufToSkb` stays in its allocation exactly if the chain is no longer
than its `pkthdr.len`; then the buffer has all of it. -/
theorem mbufToSkb_inside_iff (total : Nat) (chain : List (List UInt8))
    (h : total + 128 < 2 ^ 32) :
    ((mbufToSkb junk total chain).isSome
        ↔ chain.flatten.length ≤ total)
      ∧ (chain.flatten.length ≤ total →
        Carries (mbufToSkb junk total chain) 128 chain.flatten
          (total - chain.flatten.length)) := by
  have hsize : (UInt32.ofNat (total + 64) + 64).toNat = total + 128 := by
    rw [UInt32.toNat_add, UInt32.toNat_ofNat']
    show ((total + 64) % 2 ^ 32 + 64) % 2 ^ 32 = _
    omega
  have halloc := alloc_reserve (UInt32.ofNat (total + 64)) junk (n := 128)
    (by omega)
  rw [hsize, Nat.add_sub_cancel] at halloc
  obtain ⟨hfits, hover⟩ := halloc.putChain chain
  refine ⟨⟨fun hsome => ?_, fun hle => ?_⟩, hfits⟩
  · by_contra hlt
    have hnone : mbufToSkb junk total chain = none := hover (by omega)
    rw [hnone] at hsome
    cases hsome
  · obtain ⟨t, ht, -⟩ := hfits hle
    have hsome : mbufToSkb junk total chain = some t := ht
    rw [hsome]
    rfl

/-- Two segments, in a buffer made for them. -/
theorem sample_mbufToSkb :
    ((mbufToSkb (fun _ => 0) 5 [[1, 2, 3], [4, 5]]).isSome
        ↔ [[1, 2, 3], [4, (5 : UInt8)]].flatten.length ≤ 5)
      ∧ ([[1, 2, 3], [4, (5 : UInt8)]].flatten.length ≤ 5 →
        Carries (mbufToSkb (fun _ => 0) 5 [[1, 2, 3], [4, 5]]) 128
          [[1, 2, 3], [4, (5 : UInt8)]].flatten 0) :=
  mbufToSkb_inside_iff 5 _ (by decide)

end Rtw88
