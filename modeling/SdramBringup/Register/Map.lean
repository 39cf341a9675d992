/-
**The register block of a memory controller.**

A controller occupies a block of registers from its base address on. This module names the registers
that are programmed and gives their offsets in the block, names the two that only identify the
controller, and gives the bits that are used as whole words.

Main definitions:

* `Register` — the programmable registers, with `Register.offset`;
* `Identification` — the offsets of the revision registers;
* `Bits` — single bits and masks as words.
-/

import SdramBringup.Register.Field

set_option relaxedAutoImplicit false
set_option autoImplicit false

namespace SdramBringup

/-- The programmable registers of a controller. -/
inductive Register where
  /-- Address range of a chip select. -/
  | bounds (cs : Fin 4)
  /-- Configuration of a chip select. -/
  | config (cs : Fin 4)
  /-- Second configuration of a chip select. -/
  | config2 (cs : Fin 4)
  | timing0
  | timing1
  | timing2
  | timing3
  | timing4
  | timing5
  /-- Configuration of the controller. -/
  | sdramConfig
  /-- Second configuration of the controller. -/
  | sdramConfig2
  /-- Mode registers 1 and 0. -/
  | mode
  /-- Mode registers 2 and 3. -/
  | mode2
  /-- The mode registers of chip selects 1 to 3, two words each. -/
  | modeVariant (i : Fin 6)
  | modeControl
  | interval
  /-- The pattern that fills the memory. -/
  | dataInit
  | clockControl
  | initAddress
  | initAddressHigh
  | zqControl
  | writeLeveling
  | writeLeveling2
  | writeLeveling3
  | selfRefresh
  | controlWords1
  | controlWords2
  | driverControl1
  | driverControl2
  | errorDisable
  | errorInterrupt
  | optimization
  | debug (i : Fin 32)
  deriving DecidableEq, Repr

namespace Register

/-- The offset of a register in the block of its controller, in bytes. -/
def offset : Register → Nat
  | bounds cs => 0x000 + 8 * cs
  | config cs => 0x080 + 4 * cs
  | config2 cs => 0x0C0 + 4 * cs
  | timing3 => 0x100
  | timing0 => 0x104
  | timing1 => 0x108
  | timing2 => 0x10C
  | sdramConfig => 0x110
  | sdramConfig2 => 0x114
  | mode => 0x118
  | mode2 => 0x11C
  | modeControl => 0x120
  | interval => 0x124
  | dataInit => 0x128
  | clockControl => 0x130
  | initAddress => 0x148
  | initAddressHigh => 0x14C
  | timing4 => 0x160
  | timing5 => 0x164
  | zqControl => 0x170
  | writeLeveling => 0x174
  | selfRefresh => 0x17C
  | controlWords1 => 0x180
  | controlWords2 => 0x184
  | writeLeveling2 => 0x190
  | writeLeveling3 => 0x194
  | optimization => 0x1F0
  | modeVariant i => 0x200 + 4 * i
  | driverControl1 => 0xB28
  | driverControl2 => 0xB2C
  | errorDisable => 0xE44
  | errorInterrupt => 0xE48
  | debug i => 0xF00 + 4 * i

/-- All registers lie in a block of 4 KiB. -/
theorem offset_lt (r : Register) : r.offset < 0x1000 := by
  cases r <;> simp only [offset] <;> omega

end Register

namespace Identification

/-- Major and minor revision in the low half. -/
def revision : Nat := 0xBF8

/-- Errata level in bits 15 to 8. -/
def errata : Nat := 0xBFC

end Identification

namespace Bits

/-- The controller is enabled. -/
def memoryEnable : Word := 0x80000000#32

/-- Registered modules are installed. -/
def registered : Word := 0x10000000#32

/-- Commands take two clocks. -/
def twoT : Word := 0x00008000#32

/-- The initialization of the memory devices is skipped. -/
def bypassInit : Word := 0x00000001#32

/-- The width of the data bus. -/
def busWidth : Word := 0x00180000#32

/-- The lowest bit of the width of the data bus. -/
def busWidthShift : Nat := 19

/-- The memory is being filled. -/
def dataInit : Word := 0x00000010#32

/-- A chip select is enabled. -/
def chipSelectEnable : Word := 0x80000000#32

/-- A chip select is interleaved between two controllers. -/
def twoWay : Word := 0x20000000#32

/-- Three controllers are interleaved. -/
def threeWayEnable : Word := 0x80000000#32

/-- The mode of interleaving among three controllers. -/
def threeWayMode : Word := 0x0000001F#32

/-- The range of a chip select that maps no memory. -/
def noRange : Word := 0xFFFFFFFF#32

end Bits

end SdramBringup
