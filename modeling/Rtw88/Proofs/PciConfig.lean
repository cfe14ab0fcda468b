/-
The capability search and the accessors on every configuration space:
`find_capability_iff`, `capability_access_iff`.

# The search

The loop of `pciFindCapability` is a `chase` (`findCapabilityFrom_eq`), so
it ends exactly if the chain stops, and that shows in its first 64
pointers (`orbit_early`): the masks leave no more than that, so a chain
that has not stopped by then has come back to where it was. The source
counts no turns, so on a chain that does not stop it never returns, as on
a device that reads as all ones.

# The accessors

What the accessors really do is on the register at `pos`
(`ExpressRegister.read`, `setWord_eq`, `clearWord_eq`), which is disjoint
from that at `base + pos`: the constant they add is cut off where the
offset becomes eight bits (`lowByte_add`). So an access is right exactly
if it comes to the same on this space, which for a write is a question
of what the two registers hold (`onlyRegister_iff`).
-/
import Rtw88.Lib.Orbit
import Rtw88.Spec.PciConfig

namespace Rtw88

namespace ConfigSpace

variable {cfg : ConfigSpace} {cap : Int}

-- ================================================================== the search

/-- What the loop says at a pointer, if it stops there. -/
def capStop (cfg : ConfigSpace) (cap : Int) (p : UInt8) : Option Int :=
  if p ≠ 0 then
    if ((cfg p).toNat : Int) = cap then some p.toNat else none
  else some 0

/-- The search is a chase along the chain. -/
theorem findCapabilityFrom_eq (n : Nat) (p : UInt8) :
    cfg.findCapabilityFrom cap n p
      = chase (cfg.capStop cap) cfg.nextCap n p := by
  induction n generalizing p with
  | zero => rfl
  | succ n ih =>
      unfold findCapabilityFrom chase capStop
      by_cases hp : p = 0
      · rw [if_neg (not_not.2 hp), if_neg (not_not.2 hp)]
      · rw [if_pos hp, if_pos hp]
        dsimp only [configRead8]
        by_cases hid : ((cfg p).toNat : Int) = cap
        · rw [if_pos hid, if_pos hid]
        · rw [if_neg hid, if_neg hid]
          exact ih _

/-- The whole function is a chase from the masked pointer at 0x34. -/
theorem pciFindCapability_eq (n : Nat) :
    cfg.pciFindCapability cap n
      = chase (cfg.capStop cap) cfg.nextCap n (cfg 0x34 &&& 0xfc) :=
  findCapabilityFrom_eq n _

/-- The loop goes on past a capability with another id, … -/
theorem capStop_none_iff {p : UInt8} :
    cfg.capStop cap p = none ↔ p ≠ 0 ∧ ((cfg p).toNat : Int) ≠ cap := by
  unfold capStop
  by_cases hp : p = 0
  · rw [if_neg (not_not.2 hp)]
    simp [hp]
  · rw [if_pos hp]
    by_cases hid : ((cfg p).toNat : Int) = cap
    · rw [if_pos hid]
      simp [hid]
    · rw [if_neg hid]
      simp [hp, hid]

/-- … and stops elsewhere. -/
theorem capStop_isSome_iff {p : UInt8} :
    (cfg.capStop cap p).isSome = true
      ↔ p = 0 ∨ ((cfg p).toNat : Int) = cap := by
  rw [Option.isSome_iff_ne_none, ne_eq, capStop_none_iff, not_and_or,
    not_not, not_not]

/-- What it answers is what it should. -/
theorem isAnswer_of_find {n : Nat} {r : Int}
    (h : cfg.pciFindCapability cap n = some r) : cfg.IsAnswer cap r := by
  rw [pciFindCapability_eq, chase_eq_some_iff] at h
  obtain ⟨i, -, hbefore, hi⟩ := h
  have hlinked : ∀ j < i, cfg.chain j ≠ 0 ∧ ¬ cfg.HasId cap j :=
    fun j hj => capStop_none_iff.1 (hbefore j hj)
  have hstop : cfg.capStop cap (cfg.chain i) = some r := hi
  unfold capStop at hstop
  by_cases hnull : cfg.chain i = 0
  · rw [if_neg (not_not.2 hnull)] at hstop
    rw [← Option.some.inj hstop]
    refine .absent fun n hn hid => ?_
    -- the chain is linked up to the null pointer, no further
    have hlt : n < i := by
      by_contra hge
      exact hn i (Nat.le_of_not_lt hge) hnull
    exact (hlinked n hlt).2 hid
  · rw [if_pos hnull] at hstop
    by_cases hid : ((cfg (cfg.chain i)).toNat : Int) = cap
    · rw [if_pos hid] at hstop
      rw [← Option.some.inj hstop]
      refine .found i (fun j hj => ?_) hid fun j hj => (hlinked j hj).2
      rcases Nat.lt_or_eq_of_le hj with hlt | heq
      · exact (hlinked j hlt).1
      · rw [heq]
        exact hnull
    · rw [if_neg hid] at hstop
      cases hstop

-- ================================================================ its pointers

/-- The pointers the masks leave. -/
def maskedPointers : Finset UInt8 :=
  (Finset.range 64).image fun k => UInt8.ofNat (4 * k)

/-- There are 64 masked pointers. -/
theorem maskedPointers_card : maskedPointers.card ≤ 64 :=
  Finset.card_image_le.trans (Finset.card_range 64).le

theorem masked_mem (x : UInt8) : x &&& 0xfc ∈ maskedPointers := by
  have hmask : ∀ n < 256, n &&& 252 = 4 * (n / 4) := by decide +kernel
  have hlt := x.toNat_lt
  refine Finset.mem_image.2 ⟨x.toNat / 4, ?_, ?_⟩
  · rw [Finset.mem_range]
    omega
  · apply UInt8.toNat_inj.1
    have hand : (x &&& 0xfc).toNat = x.toNat &&& 252 := rfl
    rw [hand, hmask _ hlt, UInt8.toNat_ofNat']
    omega

/-- The chain stays among the masked pointers. -/
theorem chain_mem (n : Nat) : cfg.chain n ∈ maskedPointers := by
  unfold chain
  cases n with
  | zero => exact masked_mem _
  | succ n =>
      rw [Function.iterate_succ_apply']
      exact masked_mem _

/-- Whether the chain stops shows among its first 64 pointers. -/
theorem chainStops_iff :
    cfg.ChainStops cap
      ↔ ∃ n, (cfg.capStop cap (cfg.chain n)).isSome = true := by
  constructor
  · rintro ⟨n, -, hn⟩
    exact ⟨n, capStop_isSome_iff.2 hn⟩
  · rintro ⟨n, hn⟩
    obtain ⟨m, hm, heq⟩ := orbit_early (s := maskedPointers)
      (fun n => @chain_mem cfg n) n
    have hsame : cfg.chain n = cfg.chain m := heq
    rw [hsame] at hn
    exact ⟨m, Nat.lt_of_lt_of_le hm maskedPointers_card,
      capStop_isSome_iff.1 hn⟩

end ConfigSpace

/-- On every configuration space and for every id, the search ends with
the right answer exactly if the chain stops before it repeats. -/
theorem find_capability_iff (cfg : ConfigSpace) (cap : Int) :
    cfg.FindsCapability cap ↔ cfg.ChainStops cap := by
  rw [ConfigSpace.chainStops_iff]
  have hends := @chase_ends_iff _ _ (cfg.capStop cap) cfg.nextCap
    (cfg 0x34 &&& 0xfc)
  constructor
  · rintro ⟨n, r, hfind, -⟩
    rw [ConfigSpace.pciFindCapability_eq] at hfind
    exact hends.1 ⟨n, r, hfind⟩
  · intro h
    obtain ⟨n, r, hchase⟩ := hends.2 h
    rw [← ConfigSpace.pciFindCapability_eq] at hchase
    exact ⟨n, r, hchase, ConfigSpace.isAnswer_of_find hchase⟩

/-- What a device that was removed reads as. -/
def removedDevice : ConfigSpace := fun _ => 0xff

/-- There the search for the PCI Express capability never ends. -/
theorem removed_device_hangs :
    (∀ n, removedDevice.pciFindCapability pciCapIdExp n = none)
      ∧ ¬ ∀ cfg cap, ConfigSpace.FindsCapability cfg cap := by
  have hloop : ∀ n, removedDevice.findCapabilityFrom pciCapIdExp n 0xfc
      = none := by
    intro n
    induction n with
    | zero => rfl
    | succ n ih => exact ih
  refine ⟨hloop, fun h => ?_⟩
  obtain ⟨n, r, hfind, -⟩ := h removedDevice pciCapIdExp
  have hno := (hloop n).symm.trans hfind
  cases hno

-- ================================================================= accessors

namespace ConfigSpace

variable {cfg : ConfigSpace}

/-- The added constant is cut off with the high bits. -/
theorem lowByte_add (pos : Nat) :
    lowByte (0x100 + (pos : Int)) = UInt8.ofNat pos
      ∧ lowByte (pos : Int) = UInt8.ofNat pos := by
  have hcast : ((pos : Int) % 256).toNat = pos % 256 := by omega
  have hwrap : UInt8.ofNat (pos % 256) = UInt8.ofNat pos := by
    apply UInt8.toNat_inj.1
    rw [UInt8.toNat_ofNat', UInt8.toNat_ofNat', Nat.mod_mod]
  unfold lowByte
  constructor
  · rw [Int.add_comm, Int.add_emod_right, hcast, hwrap]
  · rw [hcast, hwrap]

theorem ofNat_add_one (off : Nat) :
    UInt8.ofNat off + 1 = UInt8.ofNat (off + 1) := by
  apply UInt8.toNat_inj.1
  rw [UInt8.toNat_add, UInt8.toNat_ofNat', UInt8.toNat_ofNat']
  show (off % 2 ^ 8 + 1) % 256 = (off + 1) % 2 ^ 8
  omega

/-- A register is its two bytes. -/
theorem register_eq (off : Nat) :
    cfg.register off = (cfg (UInt8.ofNat off)).toUInt16
      ||| ((cfg (UInt8.ofNat (off + 1))).toUInt16 <<< 8) := by
  unfold register configRead16
  rw [ofNat_add_one]

/-- A register that is written reads back, and no byte outside it
changes. -/
theorem onlyRegister_write (off : Nat) (val : UInt16) :
    cfg.OnlyRegister (cfg.configWrite16 (UInt8.ofNat off) val) off val := by
  have hne : UInt8.ofNat off ≠ UInt8.ofNat (off + 1) := by
    intro h
    have hnat := congrArg UInt8.toNat h
    rw [UInt8.toNat_ofNat', UInt8.toNat_ofNat'] at hnat
    omega
  unfold configWrite16
  rw [ofNat_add_one]
  constructor
  · rw [register_eq, Function.update_self, Function.update_of_ne hne,
      Function.update_self]
    exact le16At_le16 val []
  · intro i hlow hhigh
    rw [Function.update_of_ne hhigh, Function.update_of_ne hlow]

/-- Registers at even places of the space are the same or apart. -/
theorem apart {a b : Nat} (hab : a < b) (hb : b + 1 < 256)
    (ha : a % 2 = 0) (heven : b % 2 = 0) :
    ∀ x ∈ [UInt8.ofNat b, UInt8.ofNat (b + 1)],
      x ≠ UInt8.ofNat a ∧ x ≠ UInt8.ofNat (a + 1) := by
  have hval : ∀ n, n < 256 → (UInt8.ofNat n).toNat = n := by
    intro n hn
    rw [UInt8.toNat_ofNat']
    omega
  have hne : ∀ m n, m < 256 → n < 256 → m ≠ n →
      UInt8.ofNat m ≠ UInt8.ofNat n := by
    intro m n hm hn hmn heq
    apply hmn
    rw [← hval m hm, ← hval n hn, heq]
  intro x hx
  rcases List.mem_cons.1 hx with rfl | hx
  · exact ⟨hne _ _ (by omega) (by omega) (by omega),
      hne _ _ (by omega) (by omega) (by omega)⟩
  · rw [List.mem_singleton.1 hx]
    exact ⟨hne _ _ (by omega) (by omega) (by omega),
      hne _ _ (by omega) (by omega) (by omega)⟩

/-- Two bytes as one word, by its value. -/
theorem word_toNat (a b : UInt8) :
    (a.toUInt16 ||| (b.toUInt16 <<< 8)).toNat
      = a.toNat + 256 * b.toNat := by
  have ha := a.toNat_lt
  have hb := b.toNat_lt
  have hhigh : b.toNat * 256 % 65536 = 2 ^ 8 * b.toNat := by omega
  rw [UInt16.toNat_or, UInt16.toNat_shiftLeft, UInt8.toNat_toUInt16,
    UInt8.toNat_toUInt16]
  simp only [UInt16.reduceToNat, Nat.reduceMod, Nat.shiftLeft_eq,
    Nat.reducePow, hhigh]
  have hor : 2 ^ 8 * b.toNat + a.toNat = 2 ^ 8 * b.toNat ||| a.toNat :=
    Nat.two_pow_add_eq_or_of_lt (by omega) _
  rw [Nat.or_comm]
  exact hor.symm.trans (by omega)

/-- Writing a register back leaves the space. -/
theorem write_register (off : Nat) :
    cfg.configWrite16 (UInt8.ofNat off) (cfg.register off) = cfg := by
  generalize hlo : cfg (UInt8.ofNat off) = a
  generalize hhi : cfg (UInt8.ofNat (off + 1)) = b
  have ha := a.toNat_lt
  have hlow : (cfg.register off).toUInt8 = a := by
    apply UInt8.toNat_inj.1
    rw [register_eq, hlo, hhi, UInt16.toNat_toUInt8, word_toNat]
    omega
  have hhigh : (cfg.register off >>> 8).toUInt8 = b := by
    apply UInt8.toNat_inj.1
    have hb := b.toNat_lt
    rw [register_eq, hlo, hhi, UInt16.toNat_toUInt8, UInt16.toNat_shiftRight,
      word_toNat]
    simp only [UInt16.reduceToNat, Nat.reduceMod, Nat.shiftRight_eq_div_pow,
      Nat.reducePow]
    omega
  unfold configWrite16
  rw [ofNat_add_one, hlow, hhigh, ← hlo, Function.update_eq_self, ← hhi,
    Function.update_eq_self]

/-- A register written at `pos` is a right access to the one at `off`
exactly if nothing changes, and nothing should. -/
theorem onlyRegister_iff {pos off : Nat} (hlt : pos < off)
    (hoff : off + 1 < 256) (hpos : pos % 2 = 0) (heven : off % 2 = 0)
    (new val : UInt16) :
    cfg.OnlyRegister (cfg.configWrite16 (UInt8.ofNat pos) new) off val
      ↔ new = cfg.register pos ∧ val = cfg.register off := by
  have hapart := apart hlt hoff hpos heven
  have hwrite := @onlyRegister_write cfg pos new
  constructor
  · intro h
    constructor
    · obtain ⟨h₁, h₂⟩ := hapart (UInt8.ofNat off) (by simp)
      obtain ⟨h₃, h₄⟩ := hapart (UInt8.ofNat (off + 1)) (by simp)
      rw [← hwrite.register, register_eq, register_eq,
        h.others _ h₁.symm h₃.symm, h.others _ h₂.symm h₄.symm]
    · rw [← h.register, register_eq, register_eq]
      obtain ⟨h₁, h₂⟩ := hapart (UInt8.ofNat off) (by simp)
      obtain ⟨h₃, h₄⟩ := hapart (UInt8.ofNat (off + 1)) (by simp)
      rw [hwrite.others _ h₁ h₂, hwrite.others _ h₃ h₄]
  · rintro ⟨rfl, rfl⟩
    rw [write_register]
    exact ⟨rfl, fun _ _ _ => rfl⟩

end ConfigSpace

open ConfigSpace

variable {h : PciHost} {base pos : Nat}

/-- Where a capability was found the device is there. -/
theorem ExpressRegister.attached (hr : ExpressRegister h base pos) :
    h.ops = true ∧ h.inst = true := by
  obtain ⟨n, hfind⟩ := hr.found
  have hzero : (some 0 : Option Int) ≠ some (base : Int) := by
    intro heq
    exact hr.there (by exact_mod_cast (Option.some.inj heq).symm)
  unfold PciHost.pciFindCapability at hfind
  cases hops : h.ops with
  | false =>
      rw [hops] at hfind
      exact absurd hfind hzero
  | true =>
      cases hinst : h.inst with
      | false =>
          rw [hops, hinst] at hfind
          exact absurd hfind hzero
      | true => exact ⟨rfl, rfl⟩

/-- And it starts at a multiple of four, as every pointer of the chain. -/
theorem ExpressRegister.aligned (hr : ExpressRegister h base pos) :
    base % 4 = 0 := by
  obtain ⟨hops, hinst⟩ := hr.attached
  obtain ⟨n, hfind⟩ := hr.found
  unfold PciHost.pciFindCapability at hfind
  rw [hops, hinst] at hfind
  have hthere := hr.there
  generalize hbase : (base : Int) = r at hfind
  cases isAnswer_of_find hfind with
  | found n linked id first =>
      obtain ⟨k, -, hk⟩ := Finset.mem_image.1 (@chain_mem h.cfg n)
      have hval := congrArg UInt8.toNat hk
      rw [UInt8.toNat_ofNat'] at hval
      omega
  | absent no => omega

/-- A register is read where it is. -/
theorem ExpressRegister.read (hr : ExpressRegister h base pos) {off : Int}
    (hoff : lowByte off = UInt8.ofNat pos) :
    h.pciReadConfigWord off = (0, h.cfg.register pos) := by
  obtain ⟨hops, hinst⟩ := hr.attached
  unfold PciHost.pciReadConfigWord pciReadWord
  rw [hops, hinst, hoff]
  rfl

theorem ExpressRegister.write (hr : ExpressRegister h base pos) {off : Int}
    (hoff : lowByte off = UInt8.ofNat pos) (val : UInt16) :
    (h.pciWriteConfigWord off val).1 = 0
      ∧ (h.pciWriteConfigWord off val).2.cfg
        = h.cfg.configWrite16 (UInt8.ofNat pos) val := by
  obtain ⟨hops, hinst⟩ := hr.attached
  unfold PciHost.pciWriteConfigWord pciWriteWord
  rw [hops, hinst, hoff]
  exact ⟨rfl, rfl⟩

/-- What the accessors do is to the register at `pos`, in the standard
header. -/
theorem ExpressRegister.setWord_eq (hr : ExpressRegister h base pos)
    (bits : UInt16) :
    (h.pcieCapabilitySetWord pos bits).1 = 0
      ∧ (h.pcieCapabilitySetWord pos bits).2.cfg
        = h.cfg.configWrite16 (UInt8.ofNat pos)
          (h.cfg.register pos ||| bits) := by
  unfold PciHost.pcieCapabilitySetWord
  rw [hr.read (lowByte_add pos).1]
  exact hr.write (lowByte_add pos).1 _

/-- Clearing bits is a read and a write. -/
theorem ExpressRegister.clearWord_eq (hr : ExpressRegister h base pos)
    (bits : UInt16) :
    (h.pcieCapabilityClearWord pos bits).1 = 0
      ∧ (h.pcieCapabilityClearWord pos bits).2.cfg
        = h.cfg.configWrite16 (UInt8.ofNat pos)
          (h.cfg.register pos &&& ~~~bits) := by
  unfold PciHost.pcieCapabilityClearWord
  rw [hr.read (lowByte_add pos).1]
  exact hr.write (lowByte_add pos).1 _

/-- For every space with a PCI Express capability, every register of it
and every access: the access is right exactly if the standard header
happens to hold there what the capability does. -/
theorem capability_access_iff (hr : ExpressRegister h base pos)
    (access : CapabilityAccess) :
    AccessRight h base pos access
      ↔ HeaderCoincides h.cfg base pos access := by
  have hlt : pos < base + pos := by
    have hthere := hr.there
    omega
  have heven : (base + pos) % 2 = 0 := by
    have hfour := hr.aligned
    have hpos := hr.even
    omega
  cases access with
  | readWord =>
      show h.pcieCapabilityReadWord pos = _ ↔ _
      unfold PciHost.pcieCapabilityReadWord
      rw [hr.read (lowByte_add pos).2, Prod.mk.injEq]
      exact and_iff_right rfl
  | setWord bits =>
      obtain ⟨hret, hcfg⟩ := hr.setWord_eq bits
      unfold AccessRight HeaderCoincides
      dsimp only
      rw [hret, hcfg, onlyRegister_iff hlt hr.inside hr.even heven]
      exact and_iff_right rfl
  | clearWord bits =>
      obtain ⟨hret, hcfg⟩ := hr.clearWord_eq bits
      unfold AccessRight HeaderCoincides
      dsimp only
      rw [hret, hcfg, onlyRegister_iff hlt hr.inside hr.even heven]
      exact and_iff_right rfl

/-- A PCI Express capability at 0x40, everything else zero. -/
def expressSpace : ConfigSpace := fun i =>
  if i = 0x34 then 0x40 else if i = 0x40 then 0x10 else 0

def expressHost : PciHost :=
  { ops := true, inst := true, cfg := expressSpace }

/-- The link control register and the base address register at 0x10 are
both clear of the bits for ASPM. -/
theorem express_aspm_clear :
    AccessRight expressHost 0x40 0x10 (.clearWord 0x03) :=
  (capability_access_iff ⟨⟨1, rfl⟩, by decide, by decide, by decide⟩ _).2
    ⟨by decide, by decide⟩

/-- Setting a bit of the link control register changes the base address
register instead. -/
theorem express_aspm_hits_bar :
    (expressHost.pcieCapabilitySetWord 0x10 0x02).2.cfg 0x50 = 0
      ∧ (expressHost.pcieCapabilitySetWord 0x10 0x02).2.cfg 0x10 = 0x02
      ∧ ¬ ∀ h base pos access, ExpressRegister h base pos →
        AccessRight h base pos access := by
  refine ⟨by decide, by decide, fun h => ?_⟩
  have hright := h expressHost 0x40 0x10 (.setWord 0x02)
    ⟨⟨1, rfl⟩, by decide, by decide, by decide⟩
  have hbar := hright.2.others 0x10 (by decide) (by decide)
  exact absurd hbar (by decide)

end Rtw88
