/-
The PCI configuration space as the driver gets at it: the inline
functions of compat/linux/pci.h over the table `rtw88_pci_io_ops`, the
`compat_pci_*` functions behind the table, and the methods of
`RTW88PCIDevice` they call.

The space has 256 bytes; `configRead8`, `configRead16` and
`configWrite16` of `IOPCIDevice` take an 8-bit offset.
-/
import Mathlib.Logic.Function.Basic
import Rtw88.Lib.Bytes

namespace Rtw88

/-- The 256 bytes. -/
abbrev ConfigSpace := UInt8 → UInt8

namespace ConfigSpace

variable (cfg : ConfigSpace)

def configRead8 (off : UInt8) : UInt8 := cfg off

def configRead16 (off : UInt8) : UInt16 :=
  (cfg off).toUInt16 ||| ((cfg (off + 1)).toUInt16 <<< 8)

def configWrite16 (off : UInt8) (val : UInt16) : ConfigSpace :=
  Function.update (Function.update cfg off val.toUInt8) (off + 1)
    (val >>> 8).toUInt8

/-- `(UInt8)offset`. -/
def lowByte (offset : Int) : UInt8 := UInt8.ofNat (offset % 256).toNat

-- ========================================================== RTW88PCIDevice

def pciReadWord (offset : Int) : UInt16 := cfg.configRead16 (lowByte offset)

def pciWriteWord (offset : Int) (val : UInt16) : ConfigSpace :=
  cfg.configWrite16 (lowByte offset) val

/-- The loop of `pciFindCapability`, for `n` turns at most. -/
def findCapabilityFrom (cap : Int) : Nat → UInt8 → Option Int
  | 0, _ => none
  | n + 1, capPtr =>
      if capPtr ≠ 0 then
        let capId := cfg.configRead8 capPtr
        if (capId.toNat : Int) = cap then some capPtr.toNat
        else
          findCapabilityFrom cap n (cfg.configRead8 (capPtr + 1) &&& 0xfc)
      else some 0

/-- `pciFindCapability`. -/
def pciFindCapability (cap : Int) (n : Nat) : Option Int :=
  cfg.findCapabilityFrom cap n (cfg.configRead8 0x34 &&& 0xfc)

end ConfigSpace

-- =================================================================== pci.h

/-- `rtw88_pci_io_ops` and `g_pci_dev_instance`, whether they are set, and
the device. -/
structure PciHost where
  ops : Bool
  inst : Bool
  cfg : ConfigSpace

/-- `PCI_CAP_ID_EXP`. -/
def pciCapIdExp : Int := 0x10

namespace PciHost

variable (h : PciHost)

/-- `pci_read_config_word`: what it returns, and `*val`. -/
def pciReadConfigWord (off : Int) : Int × UInt16 :=
  if !h.ops then (-1, 0xffff)
  else if !h.inst then (-1, 0xffff)
  else (0, h.cfg.pciReadWord off)

/-- `pci_write_config_word`. -/
def pciWriteConfigWord (off : Int) (val : UInt16) : Int × PciHost :=
  if !h.ops then (-1, h)
  else if !h.inst then (-1, h)
  else (0, { h with cfg := h.cfg.pciWriteWord off val })

/-- `pci_find_capability`, with `n` turns of the loop at most. -/
def pciFindCapability (cap : Int) (n : Nat) : Option Int :=
  if !h.ops then some 0
  else if !h.inst then some 0
  else h.cfg.pciFindCapability cap n

/-- `pcie_capability_read_word`. -/
def pcieCapabilityReadWord (pos : Int) : Int × UInt16 :=
  h.pciReadConfigWord pos

/-- `pcie_capability_set_word`. -/
def pcieCapabilitySetWord (pos : Int) (set : UInt16) : Int × PciHost :=
  let r := h.pciReadConfigWord (0x100 + pos)
  if r.1 ≠ 0 then (r.1, h)
  else h.pciWriteConfigWord (0x100 + pos) (r.2 ||| set)

/-- `pcie_capability_clear_word`. -/
def pcieCapabilityClearWord (pos : Int) (clear : UInt16) : Int × PciHost :=
  let r := h.pciReadConfigWord (0x100 + pos)
  if r.1 ≠ 0 then (r.1, h)
  else h.pciWriteConfigWord (0x100 + pos) (r.2 &&& ~~~clear)

end PciHost

end Rtw88
