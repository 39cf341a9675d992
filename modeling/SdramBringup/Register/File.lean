/-
**The register values of a controller.**

What is computed for a controller is a value for each of its registers. The values are kept in a
record, and read back by register.

Main definitions:

* `ChipSelectRegisters` — the registers of one chip select;
* `RegisterFile` — the registers of a controller, with `RegisterFile.value`;
* `RegisterFile.illegal` — combinations that a controller must not be given.
-/

import SdramBringup.LogLine
import SdramBringup.Register.Map

set_option relaxedAutoImplicit false
set_option autoImplicit false

namespace SdramBringup

/-- The registers of one chip select. -/
structure ChipSelectRegisters where
  bounds : Word := 0
  config : Word := 0
  config2 : Word := 0
  deriving DecidableEq, Repr

namespace ChipSelectRegisters

instance : Inhabited ChipSelectRegisters := ⟨{}⟩

/-- The chip select is enabled. -/
def enabled (r : ChipSelectRegisters) : Bool := r.config &&& Bits.chipSelectEnable != 0

end ChipSelectRegisters

/-- The registers of one controller. -/
structure RegisterFile where
  chipSelects : Vector ChipSelectRegisters 4 := Vector.replicate 4 {}
  timing0 : Word := 0
  timing1 : Word := 0
  timing2 : Word := 0
  timing3 : Word := 0
  timing4 : Word := 0
  timing5 : Word := 0
  sdramConfig : Word := 0
  sdramConfig2 : Word := 0
  mode : Word := 0
  mode2 : Word := 0
  modeVariants : Vector Word 6 := Vector.replicate 6 0
  modeControl : Word := 0
  interval : Word := 0
  dataInit : Word := 0
  clockControl : Word := 0
  initAddress : Word := 0
  initAddressHigh : Word := 0
  zqControl : Word := 0
  writeLeveling : Word := 0
  writeLeveling2 : Word := 0
  writeLeveling3 : Word := 0
  selfRefresh : Word := 0
  controlWords1 : Word := 0
  controlWords2 : Word := 0
  driverControl1 : Word := 0
  driverControl2 : Word := 0
  errorDisable : Word := 0
  errorInterrupt : Word := 0
  optimization : Word := 0
  debug : Vector Word 32 := Vector.replicate 32 0
  deriving DecidableEq, Repr

namespace RegisterFile

instance : Inhabited RegisterFile := ⟨{}⟩

/-- The value of a register. -/
def value (f : RegisterFile) : Register → Word
  | .bounds cs => f.chipSelects[cs].bounds
  | .config cs => f.chipSelects[cs].config
  | .config2 cs => f.chipSelects[cs].config2
  | .timing0 => f.timing0
  | .timing1 => f.timing1
  | .timing2 => f.timing2
  | .timing3 => f.timing3
  | .timing4 => f.timing4
  | .timing5 => f.timing5
  | .sdramConfig => f.sdramConfig
  | .sdramConfig2 => f.sdramConfig2
  | .mode => f.mode
  | .mode2 => f.mode2
  | .modeVariant i => f.modeVariants[i]
  | .modeControl => f.modeControl
  | .interval => f.interval
  | .dataInit => f.dataInit
  | .clockControl => f.clockControl
  | .initAddress => f.initAddress
  | .initAddressHigh => f.initAddressHigh
  | .zqControl => f.zqControl
  | .writeLeveling => f.writeLeveling
  | .writeLeveling2 => f.writeLeveling2
  | .writeLeveling3 => f.writeLeveling3
  | .selfRefresh => f.selfRefresh
  | .controlWords1 => f.controlWords1
  | .controlWords2 => f.controlWords2
  | .driverControl1 => f.driverControl1
  | .driverControl2 => f.driverControl2
  | .errorDisable => f.errorDisable
  | .errorInterrupt => f.errorInterrupt
  | .optimization => f.optimization
  | .debug i => f.debug[i]

/-- The illegal combinations in the registers. Registered modules take commands in one clock. -/
def illegal (f : RegisterFile) : List LogLine :=
  if f.sdramConfig &&& Bits.registered ≠ 0 ∧ f.sdramConfig &&& Bits.twoT ≠ 0 then
    [.registeredWithSlowCommands]
  else []

end RegisterFile

end SdramBringup
