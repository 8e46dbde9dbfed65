import Mathlib
import Fomos.Memory.FrameAllocator

/-!
# The configuration space of a PCI device

Registers are read a dword at a time through the two ports; the narrower reads shift theirs out of
it.
-/
namespace Fomos

/-- What the data port answers for what is written to the address port. -/
abbrev ConfigSpace := BitVec 32 → BitVec 32

structure Pci where
  bus : BitVec 8
  slot : BitVec 8
  func : BitVec 8
  deriving DecidableEq, Repr

inductive Bar
  | none
  | io (port : BitVec 32)
  | mm (phys : PhysAddr)

namespace PCIConfigRegisters

def pciBAR0 : BitVec 8 := 0x10#8
def pciBAR1 : BitVec 8 := 0x14#8
def pciBAR2 : BitVec 8 := 0x18#8
def pciBAR3 : BitVec 8 := 0x1C#8
def pciBAR4 : BitVec 8 := 0x20#8
def pciBAR5 : BitVec 8 := 0x24#8
def pciCapabilitiesPointer : BitVec 8 := 0x34#8

end PCIConfigRegisters

namespace Pci
variable (pci : Pci) (space : ConfigSpace)

def configAddress (off : BitVec 8) : BitVec 32 :=
  pci.bus.setWidth 32 <<< 16 ||| pci.slot.setWidth 32 <<< 11 ||| pci.func.setWidth 32 <<< 8 |||
    (off.setWidth 32 &&& 0xfc#32) ||| 0x80000000#32

def configReadU32 (off : BitVec 8) : BitVec 32 := space (pci.configAddress off)

def configReadU8 (off : BitVec 8) : BitVec 8 :=
  let read := space (pci.configAddress off)
  let read := read >>> ((off &&& 3#8) * 8#8).toNat &&& 0xff#32
  read.setWidth 8

/-- A memory bar beyond the physical addresses panics. -/
def getBar (idx : ℕ) : Option Bar :=
  let register := match idx with
    | 0 => PCIConfigRegisters.pciBAR0
    | 1 => PCIConfigRegisters.pciBAR1
    | 2 => PCIConfigRegisters.pciBAR2
    | 3 => PCIConfigRegisters.pciBAR3
    | 4 => PCIConfigRegisters.pciBAR4
    | _ => PCIConfigRegisters.pciBAR5
  let bar := (pci.configReadU32 space register).setWidth 64
  if bar = 0 then some .none
  else if bar &&& 0x1#64 ≠ 0 then some (.io ((bar &&& 0xFFFFFFFFFFFFFFFC#64).setWidth 32))
  else
    let bit64 := bar &&& 0x4#64 ≠ 0
    let notLast := idx < 5
    let next := PCIConfigRegisters.pciBAR0 + BitVec.ofNat 8 ((idx + 1) * 4)
    let bar :=
      if bit64 ∧ notLast then bar ||| (pci.configReadU32 space next).setWidth 64 <<< 32 else bar
    let masked := bar &&& 0xFFFFFFFFFFFFFFF0#64
    if masked = 0 then some .none else (PhysAddr.new masked.toNat).map .mm

/-- `for idx in 0..=5` -/
def getBars : Option (Vector Bar 6) := do
  let bar0 ← pci.getBar space 0
  let bar1 ← pci.getBar space 1
  let bar2 ← pci.getBar space 2
  let bar3 ← pci.getBar space 3
  let bar4 ← pci.getBar space 4
  let bar5 ← pci.getBar space 5
  return #v[bar0, bar1, bar2, bar3, bar4, bar5]

end Pci
end Fomos
