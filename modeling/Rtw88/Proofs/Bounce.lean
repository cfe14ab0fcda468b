/-
Streaming mappings over bounce buffers: exactly which runs the code gets
right.

Every step writes to the two buffers of one mapping at most
(`BounceInv.others`), and between the steps the bounce buffer of a
mapping to the device holds what was handed over, that of a mapping from
the device what the device wrote (`Mapping.Sound`). The two copies that
the code does not make, at `dma_sync_single_for_device` and at
`dma_unmap_single`, are the only ones missing.

# The invariant

`BounceInv` has the entries of the driver's list as those of the live
mappings, which share no byte; so a lookup by bus address finds the entry
of the mapping it was handed out for, and no other (`unique`, `find`).
That is all the list is for here; that it is kept right is the matter of
Proofs/Dma.

A step is then one rule, `upon`: it works on one mapping, what it writes
lies in that mapping's two buffers, and the others are as sound as they
were. Each call instantiates it with the memory it leaves (`mapped`,
`copied`, or the old one).

# Both directions

The result is an equivalence, so each step is taken twice: a step that
missed no copy did all it owed (`refines`), and one that did all it owed
missed none (`not_missed`). The second needs a byte at which the two
buffers differ, and that is what it means for a copy to be missed.

The two runs at the end are a frame that goes out and one that comes in,
without either call between (`plain_frame_refines`), and the same with
both (`changed_frame_stale`).
-/
import Mathlib.Data.List.Nodup
import Rtw88.Proofs.Dma.Places
import Rtw88.Spec.Bounce

namespace Rtw88

open Bounce

-- ================================================================= the list

/-- A node's value as Model/Dma.lean has it: `orig_va` is never set. -/
def DMAEntry.node (e : DMAEntry) : DMAEntry := { e with origVa := 0 }

/-- The first section of `freeCoherentByPhys`, on the linked nodes, does
to their values what it does to the list of values here. -/
theorem Places.freeCoherentByPhys {s : DmaSys} {live pending : List DmaNode}
    {held : List (List DmaNode)} (h : Places s live pending held)
    {b : Bounce} (hb : b.dmaList.map DMAEntry.node = live.map Prod.snd)
    (phys : Nat) :
    ∃ s' live' pending' held',
      dmaStep s (.freeCoherentByPhys phys) = some s'
        ∧ Places s' live' pending' held'
        ∧ (b.freeCoherentByPhys phys).dmaList.map DMAEntry.node
          = live'.map Prod.snd := by
  have hvalues : (b.freeCoherentByPhys phys).dmaList.map DMAEntry.node
      = (live.eraseP fun x => x.2.atPhys phys).map Prod.snd := by
    unfold Bounce.freeCoherentByPhys
    calc (b.dmaList.eraseP (DMAEntry.atPhys phys)).map DMAEntry.node
        = (b.dmaList.map DMAEntry.node).eraseP (DMAEntry.atPhys phys) :=
          (List.eraseP_map (p := DMAEntry.atPhys phys)
            (f := DMAEntry.node)).symm
      _ = (live.map Prod.snd).eraseP (DMAEntry.atPhys phys) := by rw [hb]
      _ = _ := List.eraseP_map
  obtain ⟨s', heq, -, held', h'⟩ := h.free (DMAEntry.atPhys phys)
  exact ⟨s', _, _, held', heq, h', hvalues⟩

-- ============================================================ the invariant

/-- What the memory holds for a live mapping. -/
structure Mapping.Sound (mem : Memory) (m : Mapping) : Prop where
  ptr : m.entry.origVa ≠ 0
  virt : m.entry.virt ≠ 0
  own : Apart m.entry.origVa m.entry.size m.entry.virt m.entry.size
  handed : m.dir = dmaToDevice → ∀ i < m.entry.size,
    mem (m.entry.virt + i) = m.handed i
  wrote : m.dir = dmaFromDevice → ∀ i < m.entry.size, ∀ x,
    m.wrote i = some x → mem (m.entry.virt + i) = x
  fetched : m.dir = dmaFromDevice → ∀ i < m.entry.size, ∀ x,
    m.wrote i = some x → m.fetched i = true →
      mem (m.entry.origVa + i) = x

/-- The list is that of the live mappings, which share nothing. -/
structure BounceInv (v : BounceRun) : Prop where
  list : v.b.dmaList = v.live.map Mapping.entry
  addrs : (v.live.map fun m => m.entry.phys).Nodup
  sound : ∀ m ∈ v.live, m.Sound v.b.mem
  apart : ∀ m ∈ v.live, ∀ k ∈ v.live, m.entry.phys ≠ k.entry.phys →
    m.entry.ApartFrom k.entry

theorem BounceInv.init (mem : Memory) : BounceInv (BounceRun.init mem) where
  list := rfl
  addrs := List.nodup_nil
  sound := fun _ hm => absurd hm List.not_mem_nil
  apart := fun _ hm => absurd hm List.not_mem_nil

theorem DMAEntry.ApartFrom.symm {e f : DMAEntry} (h : e.ApartFrom f) :
    f.ApartFrom e :=
  fun r hr s hs => (h s hs r hr).symm

/-- A mapping whose buffers did not change is as sound as before. -/
theorem Mapping.Sound.frame {mem mem' : Memory} {m : Mapping}
    (h : m.Sound mem)
    (hvirt : ∀ i < m.entry.size,
      mem' (m.entry.virt + i) = mem (m.entry.virt + i))
    (horig : ∀ i < m.entry.size,
      mem' (m.entry.origVa + i) = mem (m.entry.origVa + i)) :
    m.Sound mem' where
  ptr := h.ptr
  virt := h.virt
  own := h.own
  handed := fun hdir i hi => (hvirt i hi).trans (h.handed hdir i hi)
  wrote := fun hdir i hi x hx => (hvirt i hi).trans (h.wrote hdir i hi x hx)
  fetched := fun hdir i hi x hx hf =>
    (horig i hi).trans (h.fetched hdir i hi x hx hf)

/-- A step that wrote to other mappings' buffers only. -/
theorem Mapping.Sound.keeps {mem mem' : Memory} {m : Mapping}
    {rs : List (Nat × Nat)} (h : m.Sound mem) (hkeep : Keeps rs mem mem')
    (hrs : ∀ r ∈ rs, ∀ s ∈ m.entry.regions, Apart r.1 r.2 s.1 s.2) :
    m.Sound mem' := by
  apply h.frame
  · intro i hi
    apply hkeep.byte _ hi
    intro r hr
    exact hrs r hr _ List.mem_cons_self
  · intro i hi
    apply hkeep.byte _ hi
    intro r hr
    exact hrs r hr _ (List.mem_cons_of_mem _ List.mem_cons_self)

-- =============================================================== the copies

namespace BounceRun

/-- The memory after `dma_map_single`. -/
def mapped (v : BounceRun) (ptr size dir virt : Nat) : Memory :=
  let mem := writeMem v.b.mem virt (List.replicate size 0)
  if dir = dmaToDevice ∨ dir = dmaBidirectional then
    writeMem mem virt (readMem mem ptr size)
  else mem

/-- The memory after `dma_sync_single_for_cpu`. -/
def copied (v : BounceRun) (m : Mapping) (n : Nat) : Memory :=
  if m.dir = dmaFromDevice then
    writeMem v.b.mem m.entry.origVa
      (readMem v.b.mem m.entry.virt (min n m.entry.size))
  else v.b.mem

/-- A map writes to its new buffer, … -/
theorem mapped_keeps (v : BounceRun) (ptr size dir virt : Nat) :
    Keeps [(virt, size)] v.b.mem (v.mapped ptr size dir virt) := by
  have hzero : Keeps [(virt, size)] v.b.mem
      (writeMem v.b.mem virt (List.replicate size 0)) := by
    apply Keeps.write (i := 0) List.mem_cons_self rfl
    rw [List.length_replicate, Nat.zero_add]
  unfold mapped
  dsimp only
  split
  · apply hzero.trans
    apply Keeps.write (i := 0) List.mem_cons_self rfl
    rw [readMem_length, Nat.zero_add]
  · exact hzero

/-- … and, to the device, what the processor's buffer has. -/
theorem mapped_byte (v : BounceRun) {ptr size virt i : Nat}
    (hapart : Apart ptr size virt size) (hi : i < size) :
    v.mapped ptr size dmaToDevice virt (virt + i) = v.b.mem (ptr + i) := by
  unfold mapped
  rw [if_pos (Or.inl rfl), writeMem_readMem_byte _ _ _ _ hi]
  unfold writeMem
  unfold Apart at hapart
  rw [List.length_replicate, if_neg (by omega)]

/-- The copy of a sync goes to the processor's buffer, … -/
theorem copied_keeps (v : BounceRun) (m : Mapping) (n : Nat) :
    Keeps [(m.entry.origVa, m.entry.size)] v.b.mem (v.copied m n) := by
  unfold copied
  split
  · apply Keeps.write (i := 0) List.mem_cons_self rfl
    rw [readMem_length, Nat.zero_add]
    exact Nat.min_le_right _ _
  · exact Keeps.refl _ _

/-- … and takes what the device wrote there. -/
theorem copied_byte {v : BounceRun} {m : Mapping}
    (hdir : m.dir = dmaFromDevice) {n i : Nat} (hn : i < n)
    (hi : i < m.entry.size) :
    v.copied m n (m.entry.origVa + i) = v.b.mem (m.entry.virt + i) := by
  unfold copied
  rw [if_pos hdir]
  exact writeMem_readMem_byte _ _ _ _ (Nat.lt_min.2 ⟨hn, hi⟩)

/-- Beyond its size it copies nothing. -/
theorem copied_beyond (v : BounceRun) (m : Mapping) {n i : Nat}
    (hn : n ≤ i) :
    v.copied m n (m.entry.origVa + i) = v.b.mem (m.entry.origVa + i) := by
  unfold copied
  split
  · unfold writeMem
    rw [readMem_length, if_neg (by omega)]
  · rfl

end BounceRun

-- ================================================================== lookups

namespace BounceInv

variable {v : BounceRun}

/-- An address is that of one mapping. -/
theorem unique (h : BounceInv v) {m k : Mapping} (hm : m ∈ v.live)
    (hk : k ∈ v.live) (hphys : m.entry.phys = k.entry.phys) : m = k :=
  List.inj_on_of_nodup_map h.addrs hm hk hphys

/-- A test that finds only nodes at a live mapping's address, that
mapping's among them, finds it. -/
theorem find (h : BounceInv v) {m : Mapping} (hm : m ∈ v.live)
    {test : DMAEntry → Bool} (htest : test m.entry = true)
    (hphys : ∀ e, test e = true → e.phys = m.entry.phys) :
    v.b.dmaList.find? test = some m.entry := by
  cases hfind : v.b.dmaList.find? test with
  | none =>
      rw [List.find?_eq_none, h.list] at hfind
      exact absurd htest (hfind m.entry (List.mem_map_of_mem hm))
  | some e =>
      have hmem := List.mem_of_find?_eq_some hfind
      rw [h.list] at hmem
      obtain ⟨k, hk, rfl⟩ := List.mem_map.1 hmem
      have hsame := hphys k.entry (List.find?_some hfind)
      rw [h.unique hk hm hsame]

theorem find_atPhys (h : BounceInv v) {m : Mapping} (hm : m ∈ v.live) :
    v.b.dmaList.find? (DMAEntry.atPhys m.entry.phys) = some m.entry :=
  h.find hm (beq_self_eq_true _) fun _ he => eq_of_beq he

/-- The device reads the bounce buffer. -/
theorem deviceRead_eq (h : BounceInv v) {m : Mapping} (hm : m ∈ v.live)
    (i : Nat) :
    v.b.deviceRead m.entry.phys i = some (v.b.mem (m.entry.virt + i)) := by
  unfold Bounce.deviceRead
  rw [h.find_atPhys hm]
  rfl

/-- And writes to it. -/
theorem step_deviceWrite (h : BounceInv v) {m : Mapping} (hm : m ∈ v.live)
    (i : Nat) (x : UInt8) :
    bounceStep v (.deviceWrite m.entry.phys i x)
      = { b := { v.b with
            mem := Function.update v.b.mem (m.entry.virt + i) x }
          live := v.upon m.entry.phys (Mapping.deviceWrote i x) } := by
  show BounceRun.mk (v.b.deviceWrite m.entry.phys i x) _ = _
  unfold Bounce.deviceWrite
  rw [h.find_atPhys hm]

theorem step_syncForCpu (h : BounceInv v) {m : Mapping} (hm : m ∈ v.live)
    (n : Nat) :
    bounceStep v (.syncForCpu m.entry.phys n m.dir)
      = { b := { v.b with mem := v.copied m n }
          live := v.upon m.entry.phys (Mapping.forCpu n) } := by
  have hsound := h.sound m hm
  have hfind : v.b.dmaList.find? (bouncesAt m.entry.phys)
      = some m.entry := by
    apply h.find hm
    · unfold bouncesAt
      rw [beq_self_eq_true, bne_iff_ne.2 hsound.ptr,
        bne_iff_ne.2 hsound.virt]
      rfl
    · intro e he
      unfold bouncesAt at he
      rw [Bool.and_eq_true, Bool.and_eq_true] at he
      exact eq_of_beq he.1.1
  show BounceRun.mk (v.b.compatDmaSyncCpu m.entry.phys n m.dir) _ = _
  unfold Bounce.compatDmaSyncCpu BounceRun.copied
  split
  · unfold Bounce.syncBounceForCpu
    rw [hfind, Nat.min_def]
  · rfl

end BounceInv

-- ================================================================= each step

/-- The changed mappings and the unchanged ones. -/
theorem BounceRun.mem_upon {v : BounceRun} {addr : Nat}
    {f : Mapping → Mapping} {k : Mapping} (hk : k ∈ v.upon addr f) :
    (∃ m ∈ v.live, m.entry.phys = addr ∧ k = f m)
      ∨ (k ∈ v.live ∧ k.entry.phys ≠ addr) := by
  obtain ⟨m, hm, rfl⟩ := List.mem_map.1 hk
  by_cases hphys : m.entry.phys = addr
  · rw [if_pos hphys]
    exact .inl ⟨m, hm, hphys, rfl⟩
  · rw [if_neg hphys]
    exact .inr ⟨hm, hphys⟩

theorem BounceRun.upon_map {v : BounceRun} {addr : Nat}
    {f : Mapping → Mapping} (hf : ∀ k, (f k).entry = k.entry) {γ : Type}
    (g : DMAEntry → γ) :
    (v.upon addr f).map (fun m => g m.entry)
      = v.live.map fun m => g m.entry := by
  unfold BounceRun.upon
  rw [List.map_map]
  apply List.map_congr_left
  intro m _
  show g (if m.entry.phys = addr then f m else m).entry = g m.entry
  split
  · rw [hf]
  · rfl

namespace BounceInv

variable {v : BounceRun}

/-- A step at one mapping, which writes to its buffers only. -/
theorem upon (h : BounceInv v) {m : Mapping} (hm : m ∈ v.live)
    {f : Mapping → Mapping} (hf : ∀ k, (f k).entry = k.entry)
    {mem : Memory} (hkeep : Keeps m.entry.regions v.b.mem mem)
    (hsound : (f m).Sound mem) :
    BounceInv
      { b := { v.b with mem := mem }, live := v.upon m.entry.phys f } where
  list := h.list.trans (BounceRun.upon_map hf id).symm
  addrs := by
    rw [BounceRun.upon_map hf DMAEntry.phys]
    exact h.addrs
  sound := by
    intro k hk
    rcases BounceRun.mem_upon hk with ⟨l, hl, hphys, rfl⟩ | ⟨hk, hphys⟩
    · rw [h.unique hl hm hphys]
      exact hsound
    · exact (h.sound k hk).keeps hkeep (h.apart m hm k hk (Ne.symm hphys))
  apart := by
    have hback : ∀ k ∈ v.upon m.entry.phys f,
        ∃ k' ∈ v.live, k.entry = k'.entry := by
      intro k hk
      rcases BounceRun.mem_upon hk with ⟨k', hk', -, rfl⟩ | ⟨hk, -⟩
      · exact ⟨k', hk', hf k'⟩
      · exact ⟨k, hk, rfl⟩
    intro k hk l hl
    obtain ⟨k', hk', hkeq⟩ := hback k hk
    obtain ⟨l', hl', hleq⟩ := hback l hl
    rw [hkeq, hleq]
    exact h.apart k' hk' l' hl'

/-- A map that succeeds. -/
theorem step_map {ptr virt phys : Nat} (hptr : ptr ≠ 0) (hvirt : virt ≠ 0)
    (hphys : phys ≠ 0) (size dir node : Nat) :
    bounceStep v (.map ptr size dir ⟨some (virt, phys), some node⟩)
      = { b := { mem := v.mapped ptr size dir virt
                 dmaList := v.entry ptr size virt phys :: v.b.dmaList
                 descs := v.b.descs + 1 }
          live := Mapping.new (v.entry ptr size virt phys) dir v.b.mem
            :: v.live } := by
  have hmap : v.b.compatDmaMap ptr size dir
      ⟨some (virt, phys), some node⟩
        = ({ mem := v.mapped ptr size dir virt
             dmaList := v.entry ptr size virt phys :: v.b.dmaList
             descs := v.b.descs + 1 }, phys) := by
    unfold Bounce.compatDmaMap
    rw [if_neg hptr]
    unfold Bounce.allocCoherent
    dsimp only
    rw [if_neg hvirt]
    unfold Bounce.setBounceOrigVA Bounce.setOrigVa BounceRun.mapped
    dsimp only
    rw [if_pos rfl]
    split
    · rfl
    · rfl
  unfold bounceStep
  dsimp only
  rw [hmap, if_neg hphys]

/-- `dma_map_single`. -/
theorem map (h : BounceInv v) {ptr size dir : Nat} {ans : DmaAnswer}
    (ho : Owned v (.map ptr size dir ans)) :
    BounceInv (bounceStep v (.map ptr size dir ans)) := by
  obtain ⟨hptr, virt, phys, node, rfl, hvirt, hphys, hown, hfree⟩ := ho
  have hkeep := v.mapped_keeps ptr size dir virt
  rw [step_map hptr hvirt hphys]
  refine ⟨congrArg _ h.list, ?_, ?_, ?_⟩
  · apply List.nodup_cons.2 ⟨_, h.addrs⟩
    intro hmem
    obtain ⟨m, hm, hsame⟩ := List.mem_map.1 hmem
    exact (hfree m hm).1 hsame
  · intro m hm
    rcases List.mem_cons.1 hm with rfl | hm
    · refine ⟨hptr, hvirt, hown, ?_, ?_, ?_⟩
      · rintro rfl i hi
        exact v.mapped_byte hown hi
      · intro _ i _ x hx
        cases hx
      · intro _ i _ x hx
        cases hx
    · apply (h.sound m hm).keeps hkeep
      intro r hr
      obtain rfl := List.mem_singleton.1 hr
      exact (hfree m hm).2 _ List.mem_cons_self
  · intro m hm k hk hne
    rcases List.mem_cons.1 hm with rfl | hm
    · rcases List.mem_cons.1 hk with rfl | hk
      · exact absurd rfl hne
      · exact (hfree k hk).2
    · rcases List.mem_cons.1 hk with rfl | hk
      · exact (hfree m hm).2.symm
      · exact h.apart m hm k hk hne

/-- The device's write. -/
theorem deviceWrite (h : BounceInv v) {m : Mapping} (hm : m ∈ v.live)
    {i : Nat} (hi : i < m.entry.size) (hdir : m.dir ≠ dmaToDevice)
    (x : UInt8) :
    BounceInv (bounceStep v (.deviceWrite m.entry.phys i x)) := by
  have hs := h.sound m hm
  have hown := hs.own
  unfold Apart at hown
  rw [h.step_deviceWrite hm]
  apply h.upon hm (f := Mapping.deviceWrote i x) (fun _ => rfl)
  · exact Keeps.update List.mem_cons_self hi v.b.mem x
  refine ⟨hs.ptr, hs.virt, hs.own, fun hto => absurd hto hdir, ?_, ?_⟩
  · intro hfrom j hj y hy
    show Function.update v.b.mem (m.entry.virt + i) x (m.entry.virt + j) = y
    change Function.update m.wrote i (some x) j = some y at hy
    by_cases hij : j = i
    · rw [hij, Function.update_self] at hy ⊢
      exact Option.some.inj hy
    · rw [Function.update_of_ne hij] at hy
      rw [Function.update_of_ne (by omega)]
      exact hs.wrote hfrom j hj y hy
  · intro hfrom j hj y hy hf
    show Function.update v.b.mem (m.entry.virt + i) x (m.entry.origVa + j)
      = y
    change Function.update m.wrote i (some x) j = some y at hy
    change Function.update m.fetched i false j = true at hf
    have hij : j ≠ i := by
      rintro rfl
      rw [Function.update_self] at hf
      cases hf
    change j < m.entry.size at hj
    rw [Function.update_of_ne hij] at hy hf
    rw [Function.update_of_ne (by omega)]
    exact hs.fetched hfrom j hj y hy hf

/-- `dma_sync_single_for_cpu`. -/
theorem syncForCpu (h : BounceInv v) {m : Mapping} (hm : m ∈ v.live)
    (n : Nat) :
    BounceInv (bounceStep v (.syncForCpu m.entry.phys n m.dir)) := by
  have hs := h.sound m hm
  have hkeep := v.copied_keeps m n
  have hvirt : ∀ i < m.entry.size,
      v.copied m n (m.entry.virt + i) = v.b.mem (m.entry.virt + i) := by
    intro i hi
    apply hkeep.byte _ hi
    intro r hr
    obtain rfl := List.mem_singleton.1 hr
    exact hs.own
  rw [h.step_syncForCpu hm]
  apply h.upon hm (f := Mapping.forCpu n) (fun _ => rfl)
  · exact hkeep.mono fun r hr => List.mem_cons_of_mem _ hr
  refine ⟨hs.ptr, hs.virt, hs.own, ?_, ?_, ?_⟩
  · intro hto i hi
    exact (hvirt i hi).trans (hs.handed hto i hi)
  · intro hfrom i hi x hx
    exact (hvirt i hi).trans (hs.wrote hfrom i hi x hx)
  · intro hfrom i hi x hx hf
    show v.copied m n (m.entry.origVa + i) = x
    change (m.fetched i || decide (i < n)) = true at hf
    by_cases hn : i < n
    · rw [BounceRun.copied_byte (m := m) hfrom hn hi]
      exact hs.wrote hfrom i hi x hx
    · rw [decide_eq_false hn, Bool.or_false] at hf
      rw [v.copied_beyond m (Nat.le_of_not_lt hn)]
      exact hs.fetched hfrom i hi x hx hf

/-- `dma_sync_single_for_device`, where it had nothing to copy. -/
theorem syncForDevice (h : BounceInv v) {m : Mapping} (hm : m ∈ v.live)
    {n : Nat}
    (hc : NothingMissed v (.syncForDevice m.entry.phys n m.dir)) :
    BounceInv (bounceStep v (.syncForDevice m.entry.phys n m.dir)) := by
  have hs := h.sound m hm
  apply h.upon hm (f := Mapping.forDevice v.b.mem n) (fun _ => rfl)
    (Keeps.refl _ _)
  refine ⟨hs.ptr, hs.virt, hs.own, ?_, hs.wrote, hs.fetched⟩
  intro hto i hi
  show v.b.mem (m.entry.virt + i)
    = if i < n then v.b.mem (m.entry.origVa + i) else m.handed i
  split
  next hn =>
    rw [hs.handed hto i hi]
    exact (hc hto m hm rfl i hi hn).symm
  next => exact hs.handed hto i hi

/-- The processor's write. -/
theorem cpuWrite (h : BounceInv v) {a : Nat} {x : UInt8}
    (ho : Owned v (.cpuWrite a x)) :
    BounceInv (bounceStep v (.cpuWrite a x)) where
  list := by
    show v.b.dmaList = (v.live.map (Mapping.cpuWrote a)).map Mapping.entry
    rw [h.list, List.map_map]
    rfl
  addrs := by
    show ((v.live.map (Mapping.cpuWrote a)).map fun m => m.entry.phys).Nodup
    rw [List.map_map]
    exact h.addrs
  sound := by
    intro k hk
    obtain ⟨m, hm, rfl⟩ := List.mem_map.1 hk
    have hs := h.sound m hm
    have hout := (ho m hm).1
    unfold Apart at hout
    have hvirt : ∀ i < m.entry.size,
        Function.update v.b.mem a x (m.entry.virt + i)
          = v.b.mem (m.entry.virt + i) := by
      intro i hi
      apply Function.update_of_ne
      omega
    refine ⟨hs.ptr, hs.virt, hs.own, ?_, ?_, ?_⟩
    · intro hto i hi
      exact (hvirt i hi).trans (hs.handed hto i hi)
    · intro hfrom i hi y hy
      change (if m.entry.origVa + i = a then none else m.wrote i)
        = some y at hy
      split at hy
      · cases hy
      · exact (hvirt i hi).trans (hs.wrote hfrom i hi y hy)
    · intro hfrom i hi y hy hf
      change (if m.entry.origVa + i = a then none else m.wrote i)
        = some y at hy
      split at hy
      · cases hy
      next hne =>
        show Function.update v.b.mem a x (m.entry.origVa + i) = y
        rw [Function.update_of_ne hne]
        exact hs.fetched hfrom i hi y hy hf
  apart := by
    intro k hk l hl
    obtain ⟨m, hm, rfl⟩ := List.mem_map.1 hk
    obtain ⟨m', hm', rfl⟩ := List.mem_map.1 hl
    exact h.apart m hm m' hm'

/-- `dma_unmap_single` leaves the memory as it is. -/
theorem unmap (h : BounceInv v) (addr size dir : Nat) :
    BounceInv (bounceStep v (.unmap addr size dir)) where
  list := by
    show v.b.dmaList.eraseP _ = (v.live.eraseP _).map Mapping.entry
    rw [h.list, List.eraseP_map]
    rfl
  addrs := h.addrs.sublist ((List.eraseP_sublist).map _)
  sound := fun k hk => h.sound k (List.mem_of_mem_eraseP hk)
  apart := fun k hk l hl =>
    h.apart k (List.mem_of_mem_eraseP hk) l (List.mem_of_mem_eraseP hl)

/-- Every step keeps the invariant, if it missed no copy. -/
theorem step (h : BounceInv v) {op : BounceOp} (ho : Owned v op)
    (hc : NothingMissed v op) : BounceInv (bounceStep v op) := by
  cases op with
  | map ptr size dir ans => exact h.map ho
  | cpuWrite a x => exact h.cpuWrite ho
  | deviceWrite addr i x =>
      obtain ⟨m, hm, rfl, hi, hdir, -⟩ := ho
      exact h.deviceWrite hm hi hdir x
  | syncForCpu addr n dir =>
      obtain ⟨m, hm, rfl, rfl⟩ := ho
      exact h.syncForCpu hm n
  | syncForDevice addr n dir =>
      obtain ⟨m, hm, rfl, rfl⟩ := ho
      exact h.syncForDevice hm hc
  | unmap addr size dir => exact h.unmap addr size dir

-- ============================================================= what it owes

/-- The step leaves the buffers of a mapping alone that it is not about. -/
theorem others (h : BounceInv v) {op : BounceOp} (ho : Owned v op)
    {m : Mapping} (hm : m ∈ v.live) (hother : ¬ op.Touches m) :
    ∀ r ∈ m.entry.regions, ∀ i < r.2,
      (bounceStep v op).b.mem (r.1 + i) = v.b.mem (r.1 + i) := by
  intro r hr i hi
  cases op with
  | map ptr size dir ans =>
      obtain ⟨hptr, virt, phys, node, rfl, hvirt, hphys, -, hfree⟩ := ho
      rw [step_map hptr hvirt hphys]
      apply (v.mapped_keeps ptr size dir virt).byte _ hi
      intro s hs
      obtain rfl := List.mem_singleton.1 hs
      exact (hfree m hm).2 _ List.mem_cons_self r hr
  | cpuWrite a x =>
      have hout : Apart r.1 r.2 a 1 := by
        rcases List.mem_cons.1 hr with rfl | hr
        · exact (ho m hm).1
        · obtain rfl := List.mem_singleton.1 hr
          exact not_not.1 hother
      unfold Apart at hout
      apply Function.update_of_ne
      omega
  | deviceWrite addr j x =>
      obtain ⟨k, hk, rfl, hj, -⟩ := ho
      rw [h.step_deviceWrite hk]
      have hkeep : Keeps k.entry.regions v.b.mem
          (Function.update v.b.mem (k.entry.virt + j) x) :=
        Keeps.update List.mem_cons_self hj v.b.mem x
      apply hkeep.byte _ hi
      intro s hs
      exact h.apart k hk m hm (Ne.symm hother) s hs r hr
  | syncForCpu addr n dir =>
      obtain ⟨k, hk, rfl, rfl⟩ := ho
      rw [h.step_syncForCpu hk]
      apply (v.copied_keeps k n).byte _ hi
      intro s hs
      exact h.apart k hk m hm (Ne.symm hother) s
        (List.mem_cons_of_mem _ hs) r hr
  | syncForDevice addr n dir => rfl
  | unmap addr size dir => rfl

/-- And that mapping is still there. -/
theorem stays {op : BounceOp} {m : Mapping} (hm : m ∈ v.live)
    (hother : ¬ op.Touches m) :
    ∃ k ∈ (bounceStep v op).live, k.entry = m.entry := by
  have hupon : ∀ {addr : Nat} (f : Mapping → Mapping),
      m.entry.phys ≠ addr → m ∈ v.upon addr f := by
    intro addr f hne
    apply List.mem_map.2 ⟨m, hm, _⟩
    rw [if_neg hne]
  cases op with
  | map ptr size dir ans =>
      refine ⟨m, ?_, rfl⟩
      unfold bounceStep
      dsimp only
      split
      · split
        · exact hm
        · exact List.mem_cons_of_mem _ hm
      · exact hm
  | cpuWrite a x => exact ⟨_, List.mem_map_of_mem hm, rfl⟩
  | deviceWrite addr j x => exact ⟨m, hupon _ hother, rfl⟩
  | syncForCpu addr n dir => exact ⟨m, hupon _ hother, rfl⟩
  | syncForDevice addr n dir => exact ⟨m, hupon _ hother, rfl⟩
  | unmap addr size dir =>
      refine ⟨m, ?_, rfl⟩
      apply (List.mem_eraseP_of_neg _).2 hm
      intro hsame
      exact hother (eq_of_beq hsame)

/-- A step that missed no copy did all it owed. -/
theorem refines (h : BounceInv v) {op : BounceOp} (ho : Owned v op)
    (hc : NothingMissed v op) : BounceRefines v op where
  deviceSees := by
    intro m hm hto i hi _
    have hinv := h.step ho hc
    rw [hinv.deviceRead_eq hm, (hinv.sound m hm).handed hto i hi]
  cpuHolds := by
    intro m hm hfrom i hi hfetch x hx
    have hs := h.sound m hm
    cases op with
    | syncForCpu addr n dir =>
        obtain ⟨k, hk, hphys, rfl⟩ := ho
        obtain ⟨rfl, hn⟩ := hfetch
        obtain rfl := h.unique hk hm hphys
        rw [h.step_syncForCpu hk]
        show v.copied k n (k.entry.origVa + i) = x
        rw [BounceRun.copied_byte hfrom hn hi]
        exact hs.wrote hfrom i hi x hx
    | unmap addr size dir =>
        obtain ⟨k, hk, hphys, rfl⟩ := ho
        obtain rfl : m.entry.phys = addr := hfetch
        obtain rfl := h.unique hk hm hphys
        cases hf : k.fetched i with
        | true => exact hs.fetched hfrom i hi x hx hf
        | false => exact hc hfrom k hk rfl i hi hf x hx
    | map ptr size dir ans => exact hfetch.elim
    | cpuWrite a y => exact hfetch.elim
    | deviceWrite addr j y => exact hfetch.elim
    | syncForDevice addr n dir => exact hfetch.elim
  othersKept := by
    intro m hm hother i hi
    have hkeep := h.others ho hm hother
    obtain ⟨k, hk, hentry⟩ := stays hm hother
    refine ⟨hkeep _ (List.mem_cons_of_mem _ List.mem_cons_self) i hi, ?_⟩
    rw [← hentry, (h.step ho hc).deviceRead_eq hk, hentry,
      h.deviceRead_eq hm, hkeep _ List.mem_cons_self i hi]

/-- A step that did all it owed missed no copy. -/
theorem not_missed (h : BounceInv v) {op : BounceOp} (ho : Owned v op)
    (hp : BounceRefines v op) : NothingMissed v op := by
  cases op with
  | syncForDevice addr n dir =>
      intro hto m hm hphys i hi hn
      obtain ⟨k, hk, hkphys, hkdir⟩ := ho
      obtain rfl := h.unique hk hm (hkphys.trans hphys.symm)
      have hmem : k.forDevice v.b.mem n
          ∈ (bounceStep v (.syncForDevice addr n dir)).live := by
        apply List.mem_map.2 ⟨k, hk, _⟩
        rw [if_pos hphys]
      have hsees := hp.deviceSees _ hmem (hkdir.trans hto) i hi (by
        show (k.cpuOwns i && !decide (i < n)) = false
        rw [decide_eq_true hn]
        exact Bool.and_false _)
      change v.b.deviceRead k.entry.phys i
        = some (if i < n then v.b.mem (k.entry.origVa + i)
          else k.handed i) at hsees
      rw [if_pos hn, h.deviceRead_eq hk,
        (h.sound k hk).handed (hkdir.trans hto) i hi] at hsees
      exact (Option.some.inj hsees).symm
  | unmap addr size dir =>
      intro hfrom m hm hphys i hi _ x hx
      obtain ⟨k, hk, hkphys, hkdir⟩ := ho
      obtain rfl := h.unique hk hm (hkphys.trans hphys.symm)
      exact hp.cpuHolds k hm (hkdir.trans hfrom) i hi hphys x hx
  | map ptr size dir ans => exact trivial
  | cpuWrite a x => exact trivial
  | deviceWrite addr j x => exact trivial
  | syncForCpu addr n dir => exact trivial

end BounceInv

-- ===================================================================== runs

/-- Over every run of calls and accesses that respects the ownership of
DMA buffers: the bounce buffers do what the streaming interface promises
exactly if no step misses a copy. -/
theorem bounce_refines_iff {mem : Memory} {ops : List BounceOp}
    (hown : Along bounceStep Owned (BounceRun.init mem) ops) :
    Along bounceStep BounceRefines (BounceRun.init mem) ops
      ↔ Along bounceStep NothingMissed (BounceRun.init mem) ops := by
  have hboth := along_iff_of_inv
    (C := fun v op => Owned v op ∧ NothingMissed v op)
    (P := fun v op => Owned v op ∧ BounceRefines v op)
    (fun _ _ h => and_congr_right fun ho =>
      ⟨fun hp => h.not_missed ho hp, fun hc => h.refines ho hc⟩)
    (fun _ _ h hc => h.step hc.1 hc.2) (BounceInv.init mem) ops
  rw [along_and, along_and] at hboth
  constructor
  · intro hp
    exact (hboth.1 ⟨hown, hp⟩).2
  · intro hc
    exact (hboth.2 ⟨hown, hc⟩).2

/-- A buffer of one byte at 256, with its bounce buffer at 512. -/
def mapByte (dir : Nat) : BounceOp :=
  .map 256 1 dir ⟨some (512, 768), some 0⟩

/-- The processor takes the byte back, changes it and hands it over. -/
def changedFrame : List BounceOp :=
  [mapByte dmaToDevice, .syncForCpu 768 1 dmaToDevice, .cpuWrite 256 7,
    .syncForDevice 768 1 dmaToDevice]

/-- The device writes the byte, and the mapping ends. -/
def receivedFrame : List BounceOp :=
  [mapByte dmaFromDevice, .deviceWrite 768 0 7,
    .unmap 768 1 dmaFromDevice]

theorem owned_mapByte (mem : Memory) (dir : Nat) :
    Owned (BounceRun.init mem) (mapByte dir) := by
  refine ⟨by decide, 512, 768, 0, rfl, by decide, by decide, by decide, ?_⟩
  intro m hm
  cases hm

theorem owned_receivedFrame (mem : Memory) :
    Along bounceStep Owned (BounceRun.init mem) receivedFrame := by
  refine ⟨owned_mapByte mem _, ?_, ?_, trivial⟩
  · exact ⟨_, List.mem_cons_self, rfl, Nat.one_pos, Nat.zero_ne_one, rfl⟩
  · exact ⟨_, List.mem_cons_self, rfl, rfl⟩

/-- Where a run over zeroed memory leads. -/
def bounceRun (ops : List BounceOp) : BounceRun :=
  runFrom bounceStep (BounceRun.init fun _ => 0) ops

/-- The frame that was changed goes out as it was, and the one that came
in is lost. -/
theorem changed_frame_stale :
    ((bounceRun changedFrame).b.deviceRead 768 0 = some 0
        ∧ (bounceRun changedFrame).b.mem 256 = 7)
      ∧ ((bounceRun (receivedFrame.take 2)).b.deviceRead 768 0 = some 7
        ∧ (bounceRun receivedFrame).b.mem 256 = 0)
      ∧ ¬ ∀ mem ops, Along bounceStep Owned (BounceRun.init mem) ops →
        Along bounceStep BounceRefines (BounceRun.init mem) ops := by
  refine ⟨⟨rfl, rfl⟩, ⟨rfl, rfl⟩, fun h => ?_⟩
  have hlast := (h (fun _ => 0) _ (owned_receivedFrame _)).2.2.1
  have hheld := hlast.cpuHolds _ List.mem_cons_self rfl 0 (by decide) rfl 7
    rfl
  exact absurd hheld (by decide)

/-- A frame goes out while another comes in: the device writes the second,
and the processor fetches it before its mapping ends. -/
def exchangedFrames : List BounceOp :=
  [mapByte dmaToDevice,
    .map 1024 1 dmaFromDevice ⟨some (1280, 1536), some 0⟩,
    .deviceWrite 1536 0 7, .syncForCpu 1536 1 dmaFromDevice,
    .unmap 768 1 dmaToDevice, .unmap 1536 1 dmaFromDevice]

/-- The two mappings share nothing, and every byte is its owner's. -/
theorem owned_exchangedFrames (mem : Memory) :
    Along bounceStep Owned (BounceRun.init mem) exchangedFrames := by
  refine ⟨owned_mapByte mem _, ?_, ?_, ?_, ?_, ?_, trivial⟩
  · refine ⟨by decide, 1280, 1536, 0, rfl, by decide, by decide, by decide,
      ?_⟩
    intro m hm
    obtain rfl := List.mem_singleton.1 hm
    constructor
    · show 768 ≠ 1536
      decide
    · show ∀ r ∈ [(1280, 1), (1024, 1)], ∀ s ∈ [(512, 1), (256, 1)],
        Apart r.1 r.2 s.1 s.2
      decide
  · exact ⟨_, List.mem_cons_self, rfl, Nat.one_pos, Nat.zero_ne_one, rfl⟩
  · exact ⟨_, List.mem_cons_self, rfl, rfl⟩
  · exact ⟨_, List.mem_cons_of_mem _ List.mem_cons_self, rfl, rfl⟩
  · exact ⟨_, List.mem_cons_self, rfl, rfl⟩

/-- Neither needs a copy the code does not make: the one goes out right,
and the other comes in. -/
theorem plain_frame_refines :
    Along bounceStep Owned (BounceRun.init fun _ => 0) exchangedFrames
      ∧ Along bounceStep BounceRefines (BounceRun.init fun _ => 0)
        exchangedFrames
      ∧ (bounceRun exchangedFrames).b.mem 1024 = 7 := by
  have hown := owned_exchangedFrames (fun _ => 0)
  refine ⟨hown, (bounce_refines_iff hown).2
    ⟨trivial, trivial, trivial, trivial, ?_, ?_, trivial⟩, rfl⟩
  · intro hno
    cases hno
  · -- what the device wrote was fetched
    intro _ m hm _ i hi hfetched
    obtain rfl := List.mem_singleton.1 hm
    obtain rfl : i = 0 := Nat.lt_one_iff.1 hi
    cases hfetched

end Rtw88
