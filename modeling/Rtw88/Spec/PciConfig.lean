/-
Capabilities: which one a search should find, and what an accessor of the
PCI Express capability may touch.
-/
import Mathlib.Logic.Function.Iterate
import Rtw88.Model.PciConfig

namespace Rtw88

namespace ConfigSpace

variable (cfg : ConfigSpace) (cap : Int)

-- ==================================================================== chains

/-- The pointer behind the capability at `p`. -/
def nextCap (p : UInt8) : UInt8 := cfg (p + 1) &&& 0xfc

/-- The `n`-th pointer of the chain that starts in byte 0x34. -/
def chain (n : Nat) : UInt8 := cfg.nextCap^[n] (cfg 0x34 &&& 0xfc)

/-- The `n`-th pointer leads to a capability with this id. -/
def HasId (n : Nat) : Prop := ((cfg (cfg.chain n)).toNat : Int) = cap

instance (n : Nat) : Decidable (cfg.HasId cap n) :=
  inferInstanceAs (Decidable (_ = _))

/-- No pointer up to the `n`-th is null. -/
def Linked (n : Nat) : Prop := ∀ j ≤ n, cfg.chain j ≠ 0

/-- What the search should return: the first capability with the id, or
zero when the chain has none, however it goes on. -/
inductive IsAnswer : Int → Prop
  | found (n : Nat) (linked : cfg.Linked n) (id : cfg.HasId cap n)
      (first : ∀ j < n, ¬ cfg.HasId cap j) : IsAnswer (cfg.chain n).toNat
  | absent (no : ∀ n, cfg.Linked n → ¬ cfg.HasId cap n) : IsAnswer 0

/-- The search ends, and with what it should return. -/
def FindsCapability : Prop :=
  ∃ n r, cfg.pciFindCapability cap n = some r ∧ cfg.IsAnswer cap r

/-- Among the first 64 pointers, which are all there can be, is a null
pointer or a capability with the id. -/
def ChainStops : Prop := ∃ n < 64, cfg.chain n = 0 ∨ cfg.HasId cap n

instance : Decidable (cfg.ChainStops cap) :=
  inferInstanceAs (Decidable (∃ n < 64, _ ∨ _))

-- ================================================================= accessors

/-- The 16-bit register at `off`. -/
def register (off : Nat) : UInt16 := cfg.configRead16 (UInt8.ofNat off)

/-- After the step the register at `off` reads `val`, and every byte of
the space outside it is as it was. -/
structure OnlyRegister (cfg' : ConfigSpace) (off : Nat) (val : UInt16) :
    Prop where
  register : cfg'.register off = val
  others : ∀ i, i ≠ UInt8.ofNat off → i ≠ UInt8.ofNat (off + 1) →
    cfg' i = cfg i

end ConfigSpace

/-- A PCI Express capability is at `base`, and `pos` is the offset of a
register in it. -/
structure ExpressRegister (h : PciHost) (base pos : Nat) : Prop where
  found : ∃ n, h.pciFindCapability pciCapIdExp n = some (base : Int)
  there : base ≠ 0
  even : pos % 2 = 0
  inside : base + pos + 1 < 256

/-- An access to a register of the capability. -/
inductive CapabilityAccess
  | readWord
  | setWord (bits : UInt16)
  | clearWord (bits : UInt16)

/-- The accessor does to the register at `base + pos` what its name says,
and nothing to any other byte. -/
def AccessRight (h : PciHost) (base pos : Nat) : CapabilityAccess → Prop
  | .readWord =>
      h.pcieCapabilityReadWord pos = (0, h.cfg.register (base + pos))
  | .setWord bits =>
      (h.pcieCapabilitySetWord pos bits).1 = 0
        ∧ h.cfg.OnlyRegister (h.pcieCapabilitySetWord pos bits).2.cfg
          (base + pos) (h.cfg.register (base + pos) ||| bits)
  | .clearWord bits =>
      (h.pcieCapabilityClearWord pos bits).1 = 0
        ∧ h.cfg.OnlyRegister (h.pcieCapabilityClearWord pos bits).2.cfg
          (base + pos) (h.cfg.register (base + pos) &&& ~~~bits)

/-- The register of the standard header at `pos` and that of the
capability at `base + pos` read the same, or have the bits set or clear
already, both of them. -/
def HeaderCoincides (cfg : ConfigSpace) (base pos : Nat) :
    CapabilityAccess → Prop
  | .readWord => cfg.register pos = cfg.register (base + pos)
  | .setWord bits =>
      cfg.register pos ||| bits = cfg.register pos
        ∧ cfg.register (base + pos) ||| bits = cfg.register (base + pos)
  | .clearWord bits =>
      cfg.register pos &&& ~~~bits = cfg.register pos
        ∧ cfg.register (base + pos) &&& ~~~bits = cfg.register (base + pos)

end Rtw88
