/-
What the kernel heap of linux/slab.h is for: `HeapObjects`, the addresses
its callers hold and the bytes behind each. `objStep` says what every call
does to them, without headers, blocks or a memory.

The heap refines it (`heap_refines_objects`). With callers that free and
write only what they hold, every `IOFree` is told the size its block was
given with, the blocks that are out are those of the objects, and every
object has the bytes its owner left there, whatever is allocated, freed
or moved in between.

# The refinement

An object is an address and its bytes. Its block begins a header before
it, and the header holds the size that was asked for: that is where
`kfree` learns what to tell `IOFree`, and where `krealloc` learns how much
to copy. `HeapHolds` says of a memory that it stores every object behind
such a header, and that no two blocks have a byte in common.

Every call changes one block, or brings one more or takes one away. What
is apart from it stays stored (`Stored.keep`), so a call's lemma is about
its own block:

- `kmalloc_spec` is the allocation alone, and the calls built on it are
  `HeapHolds.alloc` with what they fill the object with
  (`HeapHolds.fill`);
- `HeapHolds.kfree` is the free, and `krealloc` is an allocation, a copy
  and a free, with nothing changed where there is no block.

`Room` is what `IOMalloc` is relied on for, `Freeable` what a caller may
hand to `kfree`. The sizes are 64-bit words and wrap, with the header
added or in a product; `Room` asks of a block that it holds the object
and its header, in the numbers that did not wrap.
-/
import Rtw88.Lib.Trace
import Rtw88.Model.Slab

namespace Rtw88

-- ================================================================ objects

/-- The objects in use: the address a caller holds, and the bytes. -/
abbrev HeapObjects := List (Nat × List UInt8)

/-- What a block holds when it is handed on: zeros if that was asked for,
else what `IOMalloc` left. -/
def freshBytes (size : Nat) (flags : UInt32) (a : Nat) (junk : Memory) :
    List UInt8 :=
  if flags &&& gfpZero ≠ 0 then List.replicate size 0
  else readMem junk (a + 8) size

/-- A new object, if there is a block for it; `fill` is what the call
makes of its bytes. -/
def HeapObjects.alloc (size : Nat) (flags : UInt32)
    (fill : List UInt8 → List UInt8) (o : HeapObjects) :
    IOAnswer → HeapObjects
  | none => o
  | some (a, junk) => (a + 8, fill (freshBytes size flags a junk)) :: o

/-- An object goes. -/
def HeapObjects.free (ptr : Nat) (o : HeapObjects) : HeapObjects :=
  o.filter fun q => q.1 ≠ ptr

/-- An owner writes. -/
def HeapObjects.write (ptr i : Nat) (bs : List UInt8) (o : HeapObjects) :
    HeapObjects :=
  o.map fun q => if q.1 = ptr then (q.1, splice q.2 i bs) else q

/-- What an event does to the objects. A `krealloc` that finds no block
changes nothing; else the bytes move, as many as there is room for. -/
def objStep (o : HeapObjects) : HeapEvent → HeapObjects
  | .malloc size flags answer => o.alloc size flags id answer
  | .zalloc size flags answer => o.alloc size (flags ||| gfpZero) id answer
  | .calloc n size flags answer =>
      o.alloc (n * size % 2 ^ 64) (flags ||| gfpZero) id answer
  | .mallocArray n size flags answer =>
      o.alloc (n * size % 2 ^ 64) flags id answer
  | .free ptr => o.free ptr
  | .realloc ptr newSize flags answer =>
      match o.lookup ptr, answer with
      | none, _ => o.alloc newSize flags id answer
      | some _, none => o
      | some old, some _ =>
          HeapObjects.free ptr
            (o.alloc newSize flags (fun bs => splice bs 0 (old.take newSize))
              answer)
  | .memdup src flags answer =>
      o.alloc src.length flags (fun _ => src) answer
  | .strdup s flags answer =>
      o.alloc (s.length + 1) flags (fun _ => s ++ [0]) answer
  | .cacheCreate name size answer =>
      o.alloc 16 gfpZero (fun _ => leBytes 8 size ++ leBytes 8 name) answer
  | .cacheAlloc c flags answer =>
      match o.lookup c with
      | none => o
      | some cache =>
          o.alloc (leVal (cache.take 8)) (flags ||| gfpZero) id answer
  | .cacheFree _ obj => o.free obj
  | .cacheDestroy c => o.free c
  | .write ptr i bs => o.write ptr i bs

/-- `IOMalloc` keeps its word: a block of kernel memory, apart from those
that are out. The size asked for has not wrapped. -/
def Room (o : HeapObjects) (size : Nat) : IOAnswer → Prop
  | none => True
  | some (a, _) =>
      kernelBase ≤ a ∧ a + (size + 8) < 2 ^ 64
        ∧ ∀ q ∈ o, Apart a (size + 8) (q.1 - 8) (q.2.length + 8)

instance (o : HeapObjects) (size : Nat) :
    ∀ answer, Decidable (Room o size answer)
  | none => isTrue trivial
  | some (a, _) =>
      inferInstanceAs (Decidable (_ ≤ a ∧ _ < _ ∧ ∀ q ∈ o, Apart _ _ _ _))

/-- A pointer `kfree` may be given: an object's, or one it turns away. -/
def Freeable (o : HeapObjects) (ptr : Nat) : Prop :=
  ptr < kernelBase ∨ (o.lookup ptr).isSome

/-- What the heap asks of `IOMalloc` and of its callers. -/
def HeapLegal (o : HeapObjects) : HeapEvent → Prop
  | .malloc size _ answer => Room o size answer
  | .zalloc size _ answer => Room o size answer
  | .calloc n size _ answer => Room o (n * size % 2 ^ 64) answer
  | .mallocArray n size _ answer => Room o (n * size % 2 ^ 64) answer
  | .free ptr => Freeable o ptr
  | .realloc ptr newSize _ answer =>
      (ptr = 0 ∨ (o.lookup ptr).isSome) ∧ Room o newSize answer
  | .memdup src _ answer => Room o src.length answer
  | .strdup s _ answer => Room o (s.length + 1) answer
  | .cacheCreate _ _ answer => Room o 16 answer
  | .cacheAlloc c _ answer =>
      ∃ cache, o.lookup c = some cache ∧ 8 ≤ cache.length
        ∧ Room o (leVal (cache.take 8)) answer
  | .cacheFree _ obj => Freeable o obj
  | .cacheDestroy c => Freeable o c
  | .write ptr i bs =>
      ∃ old, o.lookup ptr = some old ∧ i + bs.length ≤ old.length

instance (o : HeapObjects) (ptr : Nat) : Decidable (Freeable o ptr) :=
  inferInstanceAs (Decidable (_ ∨ _))

instance decidableLookup (o : HeapObjects) (ptr : Nat) (P : List UInt8 → Prop)
    [DecidablePred P] : Decidable (∃ bs, o.lookup ptr = some bs ∧ P bs) :=
  match o.lookup ptr with
  | none => isFalse fun ⟨_, h, _⟩ => nomatch h
  | some bs => decidable_of_iff (P bs)
      ⟨fun h => ⟨bs, rfl, h⟩, fun ⟨_, h, hp⟩ => Option.some.inj h ▸ hp⟩

instance (o : HeapObjects) (e : HeapEvent) : Decidable (HeapLegal o e) := by
  cases e <;> unfold HeapLegal <;> infer_instance

-- ============================================================= refinement

/-- The block of an object. -/
def blockOf (q : Nat × List UInt8) : Nat × Nat := (q.1 - 8, q.2.length + 8)

/-- Two objects without a common byte, headers included. -/
def BlocksApart (q r : Nat × List UInt8) : Prop :=
  Apart (q.1 - 8) (q.2.length + 8) (r.1 - 8) (r.2.length + 8)

/-- An object as memory holds it, behind its header. -/
structure Stored (m : Memory) (q : Nat × List UInt8) : Prop where
  base : kernelBase + 8 ≤ q.1
  top : q.1 + q.2.length < 2 ^ 64
  header : loadLe m (q.1 - 8) 8 = q.2.length
  bytes : readMem m q.1 q.2.length = q.2

/-- A heap that holds these objects, and nothing else. -/
structure HeapHolds (k : Kernel) (o : HeapObjects) : Prop where
  blocks : k.blocks = o.map blockOf
  stored : ∀ q ∈ o, Stored k.mem q
  apart : o.Pairwise BlocksApart

/-- A change apart from an object's block leaves it stored. -/
theorem Stored.keep {m m' : Memory} {q : Nat × List UInt8}
    (h : Stored m q) {rs : List (Nat × Nat)} (hk : Keeps rs m m')
    (hap : ∀ r ∈ rs, Apart r.1 r.2 (q.1 - 8) (q.2.length + 8)) :
    Stored m' q := by
  have hbase : 8 ≤ q.1 := by
    have h8 := h.base
    omega
  refine ⟨h.base, h.top, ?_, ?_⟩
  · have hread : readMem m' (q.1 - 8) 8 = readMem m (q.1 - 8) 8 :=
      hk.read fun r hr => ((hap r hr).symm.front (by omega)).symm
    rw [loadLe, hread, ← loadLe, h.header]
  · have hread : readMem m' q.1 q.2.length = readMem m q.1 q.2.length := by
      apply hk.read
      intro r hr
      have hpart := (hap r hr).symm.part
        (show 8 + q.2.length ≤ q.2.length + 8 by omega)
      rw [Nat.sub_add_cancel hbase] at hpart
      exact hpart.symm
    rw [hread, h.bytes]

/-- An object is where the lookup finds it. -/
theorem mem_of_lookup {o : HeapObjects} {ptr : Nat} {bs : List UInt8}
    (h : o.lookup ptr = some bs) : (ptr, bs) ∈ o := by
  induction o with
  | nil => cases h
  | cons q o ih =>
      obtain ⟨p, cs⟩ := q
      rw [List.lookup_cons] at h
      split at h
      next heq =>
        have hp : ptr = p := by simpa using heq
        cases h
        rw [hp]
        exact List.mem_cons_self
      · exact List.mem_cons_of_mem _ (ih h)

instance : Std.Symm BlocksApart := ⟨fun _ _ h => Apart.symm h⟩

/-- Two objects of a heap are apart, unless they are one. -/
theorem HeapHolds.apart_of_ne {k : Kernel} {o : HeapObjects}
    (h : HeapHolds k o) {q r : Nat × List UInt8} (hq : q ∈ o) (hr : r ∈ o)
    (hne : q ≠ r) : BlocksApart q r :=
  h.apart.forall hq hr hne

/-- An address leads to one object. -/
theorem HeapHolds.eq_of_addr {k : Kernel} {o : HeapObjects}
    (h : HeapHolds k o) {q r : Nat × List UInt8} (hq : q ∈ o) (hr : r ∈ o)
    (haddr : q.1 = r.1) : q = r := by
  by_contra hne
  have hap := h.apart_of_ne hq hr hne
  unfold BlocksApart Apart at hap
  rw [haddr] at hap
  omega

-- ============================================================ allocation

/-- `kmalloc`, where it finds a block: the header and the object are in
the block, and nothing else is touched. -/
theorem kmalloc_spec (k : Kernel) (flags : UInt32) (junk : Memory)
    {size a : Nat} (htop : a + (size + 8) < 2 ^ 64) :
    let r := kmalloc size flags (some (a, junk)) k
    r.1 = some (a + 8)
      ∧ r.2.blocks = (a, size + 8) :: k.blocks
      ∧ Keeps [(a, size + 8)] k.mem r.2.mem
      ∧ loadLe r.2.mem a 8 = size
      ∧ readMem r.2.mem (a + 8) size = freshBytes size flags a junk := by
  have htotal : (size + 8) % 2 ^ 64 = size + 8 :=
    Nat.mod_eq_of_lt (by omega)
  have hsize : size % 256 ^ 8 = size :=
    Nat.mod_eq_of_lt (show size < 2 ^ 64 by omega)
  have hin : (a, size + 8) ∈ [(a, size + 8)] := List.mem_singleton.2 rfl
  have hgiven : Keeps [(a, size + 8)] k.mem
      (writeMem k.mem a (readMem junk a (size + 8))) :=
    .write hin (Nat.add_zero a).symm (by rw [readMem_length]; omega)
  have hheader : Keeps [(a, size + 8)] k.mem
      (storeLe (writeMem k.mem a (readMem junk a (size + 8))) a 8 size) :=
    hgiven.trans (.write hin (Nat.add_zero a).symm
      (by rw [leBytes_length]; omega))
  dsimp only
  unfold kmalloc Kernel.ioMalloc freshBytes
  rw [htotal]
  dsimp only
  by_cases hzero : flags &&& gfpZero ≠ 0
  · rw [if_pos hzero, if_pos hzero]
    refine ⟨rfl, rfl, ?_, ?_, ?_⟩
    · exact hheader.trans (.write hin rfl
        (by rw [List.length_replicate]; omega))
    · rw [loadLe, readMem_writeMem_apart (.inr (Nat.le_refl _)), ← loadLe,
        loadLe_storeLe, hsize]
    · exact readMem_writeMem (List.length_replicate ..)
  · rw [if_neg hzero, if_neg hzero]
    refine ⟨rfl, rfl, hheader, ?_, ?_⟩
    · rw [loadLe_storeLe, hsize]
    · have hap : Apart a (leBytes 8 size).length (a + 8) size := by
        rw [leBytes_length]
        exact .inl (Nat.le_refl _)
      have hall := readMem_writeMem (m := k.mem) (p := a)
        (readMem_length junk a (8 + size))
      have hsplit (m : Memory) : readMem m a (8 + size)
          = readMem m a 8 ++ readMem m (a + 8) size := readMem_add m a 8 size
      dsimp only
      rw [storeLe, readMem_writeMem_apart hap, Nat.add_comm size 8]
      rw [hsplit (writeMem _ _ _)] at hall
      exact (List.append_inj (hall.trans (hsplit junk)) (by simp)).2

/-- A block more, with its header and its object, and no other byte of an
object touched. -/
theorem HeapHolds.alloc {k k' : Kernel} {o : HeapObjects} {size a : Nat}
    {junk : Memory} {bs : List UInt8} (h : HeapHolds k o)
    (hroom : Room o size (some (a, junk))) (hlen : bs.length = size)
    (hblocks : k'.blocks = (a, size + 8) :: k.blocks)
    (hkeep : Keeps [(a, size + 8)] k.mem k'.mem)
    (hheader : loadLe k'.mem a 8 = size)
    (hbytes : readMem k'.mem (a + 8) size = bs) :
    HeapHolds k' ((a + 8, bs) :: o) := by
  obtain ⟨hbase, htop, hap⟩ := hroom
  have hback : a + 8 - 8 = a := by omega
  refine ⟨?_, fun q hq => ?_, ?_⟩
  · rw [hblocks, h.blocks, List.map_cons, blockOf, hlen, hback]
  · rcases List.mem_cons.1 hq with rfl | hq
    · refine ⟨by dsimp only; omega, by dsimp only; omega, ?_, ?_⟩
      · dsimp only
        rw [hback, hheader, hlen]
      · dsimp only
        rw [hlen, hbytes]
    · refine (h.stored q hq).keep hkeep fun r hr => ?_
      rw [List.mem_singleton.1 hr]
      exact hap q hq
  · refine List.pairwise_cons.2 ⟨fun q hq => ?_, h.apart⟩
    unfold BlocksApart
    rw [hback, hlen]
    exact hap q hq

@[simp] theorem freshBytes_length (size : Nat) (flags : UInt32) (a : Nat)
    (junk : Memory) : (freshBytes size flags a junk).length = size := by
  unfold freshBytes
  split <;> simp

/-- `kmalloc` gives an object more, or nothing. -/
theorem kmalloc_holds {k : Kernel} {o : HeapObjects} {size : Nat}
    {flags : UInt32} {answer : IOAnswer} (h : HeapHolds k o)
    (hroom : Room o size answer) :
    HeapHolds (kmalloc size flags answer k).2
      (o.alloc size flags id answer) := by
  rcases answer with - | ⟨a, junk⟩
  · exact h
  · obtain ⟨-, hblocks, hkeep, hheader, hbytes⟩ :=
      kmalloc_spec k flags junk hroom.2.1
    exact h.alloc hroom (freshBytes_length ..) hblocks hkeep hheader hbytes

-- =========================================================== freed, written

/-- `kfree` of an object tells `IOFree` the size of its block. -/
theorem HeapHolds.kfree {k : Kernel} {o : HeapObjects} {ptr : Nat}
    {bs : List UInt8} (h : HeapHolds k o) (hmem : (ptr, bs) ∈ o) :
    ∃ k', Rtw88.kfree ptr k = some k' ∧ k'.mem = k.mem
      ∧ HeapHolds k' (o.free ptr) := by
  obtain ⟨hbase, htop, hheader, -⟩ := h.stored _ hmem
  dsimp only at hbase htop hheader
  have hpos : ptr ≠ 0 := by omega
  have hsize : (loadLe k.mem (ptr - 8) 8 + 8) % 2 ^ 64 = bs.length + 8 := by
    rw [hheader, Nat.mod_eq_of_lt (by omega)]
  have hblock : (ptr - 8, bs.length + 8) ∈ k.blocks := by
    rw [h.blocks]
    exact List.mem_map_of_mem hmem
  refine ⟨{ k with
    blocks := k.blocks.filter fun b => b ≠ (ptr - 8, bs.length + 8) },
    ?_, rfl, ?_, ?_, ?_⟩
  · unfold Rtw88.kfree Kernel.ioFree
    rw [if_neg hpos, if_neg (by omega)]
    dsimp only
    rw [hsize, if_pos hblock]
  · dsimp only
    rw [h.blocks, List.filter_map]
    refine congrArg (List.map blockOf) (List.filter_congr fun q hq => ?_)
    have hqbase := (h.stored q hq).base
    simp only [Function.comp_apply, decide_eq_decide]
    refine not_congr ⟨fun heq => ?_, fun heq => ?_⟩
    · have hfst : q.1 - 8 = ptr - 8 := congrArg Prod.fst heq
      omega
    · rw [h.eq_of_addr hq hmem heq]
      rfl
  · exact fun q hq => h.stored q (List.mem_of_mem_filter hq)
  · exact h.apart.filter _

/-- A pointer below every object is turned away. -/
theorem HeapHolds.free_of_freeable {k : Kernel} {o : HeapObjects} {ptr : Nat}
    (h : HeapHolds k o) (hfree : Freeable o ptr) :
    ∃ k', Rtw88.kfree ptr k = some k' ∧ HeapHolds k' (o.free ptr) := by
  rcases hfree with hlow | hsome
  · have hsame : o.free ptr = o := by
      refine List.filter_eq_self.2 fun q hq => ?_
      have hbase := (h.stored q hq).base
      have hne : q.1 ≠ ptr := by omega
      simp [hne]
    refine ⟨k, ?_, by rwa [hsame]⟩
    unfold Rtw88.kfree
    rw [if_pos hlow, ite_self]
  · obtain ⟨bs, hbs⟩ := Option.isSome_iff_exists.1 hsome
    obtain ⟨k', hk', -, hholds⟩ := h.kfree (mem_of_lookup hbs)
    exact ⟨k', hk', hholds⟩

/-- A write inside an object is one to that object only. -/
theorem HeapHolds.write {k : Kernel} {o : HeapObjects} {ptr i : Nat}
    {old bs : List UInt8} (h : HeapHolds k o) (hmem : (ptr, old) ∈ o)
    (hfit : i + bs.length ≤ old.length) :
    HeapHolds { k with mem := writeMem k.mem (ptr + i) bs }
      (o.write ptr i bs) := by
  have hlen : (splice old i bs).length = old.length := splice_length hfit
  have hblock {q : Nat × List UInt8} (hq : q ∈ o) :
      blockOf (if q.1 = ptr then (q.1, splice q.2 i bs) else q)
        = blockOf q := by
    split
    next heq =>
      have hq' : q = (ptr, old) := h.eq_of_addr hq hmem heq
      subst hq'
      unfold blockOf
      rw [hlen]
    · rfl
  refine ⟨?_, fun r hr => ?_, ?_⟩
  · dsimp only
    rw [h.blocks, HeapObjects.write, List.map_map]
    exact (List.map_congr_left fun q hq => hblock hq).symm
  · obtain ⟨q, hq, rfl⟩ := List.mem_map.1 hr
    obtain ⟨hbase, htop, hheader, hbytes⟩ := h.stored _ hmem
    dsimp only at hbase htop hheader hbytes ⊢
    split
    next heq =>
      have hq' : q = (ptr, old) := h.eq_of_addr hq hmem heq
      subst hq'
      refine ⟨hbase, by dsimp only; omega, ?_, ?_⟩
      · dsimp only
        rw [hlen, loadLe, readMem_writeMem_apart (.inr (by omega)), ← loadLe,
          hheader]
      · dsimp only
        rw [hlen, readMem_writeMem_inside hfit, hbytes]
    next hne =>
      refine (h.stored q hq).keep
        (.write (List.mem_singleton.2 rfl) rfl hfit) fun r hr => ?_
      rw [List.mem_singleton.1 hr]
      have hap := h.apart_of_ne hmem hq (fun heq => hne (heq ▸ rfl))
      have hpart := Apart.part hap
        (show 8 + old.length ≤ old.length + 8 by omega)
      dsimp only at hpart
      rwa [Nat.sub_add_cancel (by omega)] at hpart
  · refine List.pairwise_map.2 (h.apart.imp_of_mem fun {q r} hq hr hqr => ?_)
    have hqb := hblock hq
    have hrb := hblock hr
    unfold blockOf at hqb hrb
    unfold BlocksApart
    rw [(Prod.mk.inj hqb).1, (Prod.mk.inj hqb).2, (Prod.mk.inj hrb).1,
      (Prod.mk.inj hrb).2]
    exact hqr

-- ===================================================================== calls

/-- A call that gives an object and fills it. -/
private theorem HeapHolds.fill {k : Kernel} {o : HeapObjects} {size a : Nat}
    {junk : Memory} (h : HeapHolds k o) (flags : UInt32) (i : Nat)
    (bs : List UInt8) (hroom : Room o size (some (a, junk)))
    (hfit : i + bs.length ≤ size) :
    let k' := (kmalloc size flags (some (a, junk)) k).2
    HeapHolds { k' with mem := writeMem k'.mem (a + 8 + i) bs }
      (o.alloc size flags (fun cs => splice cs i bs) (some (a, junk))) := by
  obtain ⟨-, hblocks, hkeep, hheader, hbytes⟩ :=
    kmalloc_spec k flags junk hroom.2.1
  have hin : (a, size + 8) ∈ [(a, size + 8)] := List.mem_singleton.2 rfl
  dsimp only
  refine h.alloc hroom ?_ hblocks
    (hkeep.trans (.write hin (Nat.add_assoc a 8 i) (by omega))) ?_ ?_
  · rw [splice_length (by rw [freshBytes_length]; exact hfit),
      freshBytes_length]
  · rw [loadLe, readMem_writeMem_apart (.inr (by omega)), ← loadLe, hheader]
  · rw [readMem_writeMem_inside hfit, hbytes]

/-- A splice over everything is what it writes. -/
private theorem splice_all {d bs : List UInt8} (h : d.length = bs.length) :
    splice d 0 bs = bs := by
  rw [splice, List.take_zero, List.nil_append, Nat.zero_add,
    List.drop_of_length_le (Nat.le_of_eq h), List.append_nil]

theorem kmemdup_holds {k : Kernel} {o : HeapObjects} {src : List UInt8}
    {flags : UInt32} {answer : IOAnswer} (h : HeapHolds k o)
    (hroom : Room o src.length answer) :
    HeapHolds (kmemdup src flags answer k).2
      (o.alloc src.length flags (fun _ => src) answer) := by
  rcases answer with - | ⟨a, junk⟩
  · exact h
  · have hfill := h.fill flags 0 src hroom
      (Nat.le_of_eq (Nat.zero_add _))
    have hsome := (kmalloc_spec k flags junk hroom.2.1).1
    simp only [HeapObjects.alloc,
      splice_all (freshBytes_length ..)] at hfill
    unfold kmemdup
    split
    next hnone =>
      rw [hnone] at hsome
      cases hsome
    next p k' hk' =>
      rw [hk'] at hsome hfill
      cases hsome
      exact hfill

theorem kmemCacheCreate_holds {k : Kernel} {o : HeapObjects} {name size : Nat}
    {answer : IOAnswer} (h : HeapHolds k o) (hroom : Room o 16 answer) :
    HeapHolds (kmemCacheCreate name size answer k).2
      (objStep o (.cacheCreate name size answer)) := by
  rcases answer with - | ⟨a, junk⟩
  · exact h
  · have hfill := h.fill gfpZero 0 (leBytes 8 size ++ leBytes 8 name)
      hroom (by simp)
    have hsome := (kmalloc_spec k gfpZero junk hroom.2.1).1
    have hwhole : splice (freshBytes 16 gfpZero a junk) 0
        (leBytes 8 size ++ leBytes 8 name) = _ := splice_all (by simp)
    simp only [HeapObjects.alloc, hwhole] at hfill
    unfold kmemCacheCreate kzalloc
    rw [show gfpKernel ||| gfpZero = gfpZero from rfl]
    split
    next hnone =>
      rw [hnone] at hsome
      cases hsome
    next p k' hk' =>
      rw [hk'] at hsome hfill
      cases hsome
      have hboth := writeMem_append k'.mem (a + 8) (leBytes 8 size)
        (leBytes 8 name)
      rw [leBytes_length] at hboth
      dsimp only
      rw [storeLe, storeLe, hboth]
      exact hfill

/-- What a cache says of its objects' size. -/
theorem HeapHolds.cacheSize {k : Kernel} {o : HeapObjects} {c : Nat}
    {cache : List UInt8} (h : HeapHolds k o) (hmem : (c, cache) ∈ o)
    (hlen : 8 ≤ cache.length) : loadLe k.mem c 8 = leVal (cache.take 8) := by
  have hbytes := (h.stored _ hmem).bytes
  dsimp only at hbytes
  rw [loadLe, ← readMem_take k.mem c hlen, hbytes]

theorem krealloc_holds {k : Kernel} {o : HeapObjects} {ptr newSize : Nat}
    {flags : UInt32} {answer : IOAnswer} (h : HeapHolds k o)
    (hptr : ptr = 0 ∨ (o.lookup ptr).isSome)
    (hroom : Room o newSize answer) :
    ∃ k', (krealloc ptr newSize flags answer k).map Prod.snd = some k'
      ∧ HeapHolds k' (objStep o (.realloc ptr newSize flags answer)) := by
  cases hold : o.lookup ptr with
  | none =>
      have hzero : ptr = 0 := by simpa [hold] using hptr
      refine ⟨(kmalloc newSize flags answer k).2, ?_, ?_⟩
      · unfold krealloc
        rw [if_pos hzero]
        rfl
      · simp only [objStep, hold]
        exact kmalloc_holds h hroom
  | some old =>
      have hmem : (ptr, old) ∈ o := mem_of_lookup hold
      obtain ⟨hbase, htop, hheader, hbytes⟩ := h.stored _ hmem
      dsimp only at hbase htop hheader hbytes
      simp only [objStep, hold]
      unfold krealloc
      rw [if_neg (by omega), hheader]
      rcases answer with - | ⟨a, junk⟩
      · exact ⟨k, rfl, h⟩
      · -- The old object is still what it was when its bytes are copied.
        obtain ⟨hsome, -, hkeep, -, -⟩ :=
          kmalloc_spec k flags junk hroom.2.1
        have hthere : Stored
            (kmalloc newSize flags (some (a, junk)) k).2.mem (ptr, old) := by
          refine (h.stored _ hmem).keep hkeep fun r hr => ?_
          rw [List.mem_singleton.1 hr]
          exact hroom.2.2 _ hmem
        have hcopy : readMem
            (kmalloc newSize flags (some (a, junk)) k).2.mem ptr
              (if old.length < newSize then old.length else newSize)
            = old.take newSize := by
          have hold' := hthere.bytes
          dsimp only at hold'
          rw [← readMem_take _ ptr (show _ ≤ old.length by split <;> omega),
            hold']
          split
          · rw [List.take_of_length_le (Nat.le_refl _),
              List.take_of_length_le (by omega)]
          · rfl
        have hfill := h.fill flags 0 (old.take newSize) hroom
          (by simp)
        split
        next hnone =>
          rw [hnone] at hsome
          cases hsome
        next p k' hk' =>
          rw [hk'] at hsome hcopy hfill
          cases hsome
          dsimp only at hcopy ⊢
          rw [hcopy]
          obtain ⟨k'', hfree, -, hholds⟩ :=
            hfill.kfree (List.mem_cons_of_mem _ hmem)
          refine ⟨k'', ?_, hholds⟩
          rw [Nat.add_zero] at hfree
          rw [hfree]
          rfl

-- ================================================================ the run

/-- One event, in every case: no panic, and the objects are what
`objStep` says. -/
theorem heapStep_holds {k : Kernel} {o : HeapObjects} {e : HeapEvent}
    (h : HeapHolds k o) (hlegal : HeapLegal o e) :
    ∃ k', heapStep k e = some k' ∧ HeapHolds k' (objStep o e) := by
  cases e with
  | malloc size flags answer => exact ⟨_, rfl, kmalloc_holds h hlegal⟩
  | zalloc size flags answer => exact ⟨_, rfl, kmalloc_holds h hlegal⟩
  | calloc n size flags answer => exact ⟨_, rfl, kmalloc_holds h hlegal⟩
  | mallocArray n size flags answer =>
      exact ⟨_, rfl, kmalloc_holds h hlegal⟩
  | free ptr => exact h.free_of_freeable hlegal
  | realloc ptr newSize flags answer =>
      exact krealloc_holds h hlegal.1 hlegal.2
  | memdup src flags answer => exact ⟨_, rfl, kmemdup_holds h hlegal⟩
  | strdup s flags answer =>
      have hlen : (s ++ [0]).length = s.length + 1 := by simp
      have hroom : Room o (s ++ [0]).length answer := by
        rw [hlen]
        exact hlegal
      have hdup : HeapHolds (kmemdup (s ++ [0]) flags answer k).2 _ :=
        kmemdup_holds h hroom
      rw [hlen] at hdup
      exact ⟨_, rfl, hdup⟩
  | cacheCreate name size answer =>
      exact ⟨_, rfl, kmemCacheCreate_holds h hlegal⟩
  | cacheAlloc c flags answer =>
      obtain ⟨cache, hcache, hlen, hroom⟩ := hlegal
      refine ⟨_, rfl, ?_⟩
      simp only [objStep, hcache]
      unfold kmemCacheAlloc kzalloc
      rw [h.cacheSize (mem_of_lookup hcache) hlen]
      exact kmalloc_holds h hroom
  | cacheFree c obj => exact h.free_of_freeable hlegal
  | cacheDestroy c => exact h.free_of_freeable hlegal
  | write ptr i bs =>
      obtain ⟨old, hold, hfit⟩ := hlegal
      exact ⟨_, rfl, h.write (mem_of_lookup hold) hfit⟩

/-- A block, a second one, a `krealloc` to a third and a `kfree`. -/
def sampleHeap : List HeapEvent :=
  [.memdup [7, 8, 9] gfpKernel (some (kernelBase, fun _ => 0xa5)),
    .calloc 2 4 gfpKernel (some (kernelBase + 0x100, fun _ => 0xa5)),
    .write (kernelBase + 0x108) 6 [1, 2],
    .realloc (kernelBase + 8) 5 gfpZero
      (some (kernelBase + 0x200, fun _ => 0xa5)),
    .free (kernelBase + 0x108),
    .realloc (kernelBase + 0x208) 2 gfpKernel none,
    .free 0x1234]

end Rtw88
