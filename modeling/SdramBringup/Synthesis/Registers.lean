/-
**The register values of a controller.**

Main definitions:

* `Synthesis.sizing` — the registers that tell the size of the memory;
* `Synthesis.registers` — all registers;
* `Synthesis.notes` — what could not be encoded;
* `Synthesis.compute` — the registers of a controller that has modules.
-/

import SdramBringup.Noted
import SdramBringup.Synthesis.ChipSelect
import SdramBringup.Synthesis.Configuration
import SdramBringup.Synthesis.Mode
import SdramBringup.Synthesis.Timing

set_option relaxedAutoImplicit false
set_option autoImplicit false

namespace SdramBringup.Synthesis

/-- A controller has no modules with a common timing. -/
inductive Error where
  | noModules
  deriving DecidableEq, Repr

/-- The reason in words. -/
def Error.message : Error → String
  | noModules => "no DIMMs with common timing parameters"

/-- The pattern that fills the memory. -/
def fillPattern : Word := 0xDEADBEEF#32

/-- The debug registers. One of them takes the override of the write latency, on controllers that
have it. -/
def debugRegisters (i : Inputs) : Vector Word 32 :=
  if Revision.longModeCycle < i.revision ∧ i.options.writeLatencyOverride ≠ 0 then
    (Vector.replicate 32 0).set 18 i.options.writeLatencyOverride
  else Vector.replicate 32 0

/-- The registers that tell the size of the memory; all others are zero. -/
def sizing (i : Inputs) : RegisterFile where
  chipSelects := chipSelects i

/-- All registers of a controller. -/
def registers (i : Inputs) : RegisterFile where
  chipSelects := chipSelects i
  timing0 := timing0 i
  timing1 := timing1 i
  timing2 := timing2 i
  timing3 := timing3 i
  timing4 := timing4 i
  timing5 := timing5 i
  sdramConfig := sdramConfig i
  sdramConfig2 := sdramConfig2 i
  mode := (modePairs i 0).1
  mode2 := (modePairs i 0).2
  modeVariants := modeVariants i
  interval := interval i
  dataInit := fillPattern
  clockControl := clockControl i
  zqControl := zqControl i.options
  writeLeveling := writeLeveling i.options
  writeLeveling2 := i.options.writeLeveling2
  writeLeveling3 := i.options.writeLeveling3
  selfRefresh := selfRefresh i.options
  controlWords1 := (controlWords i).1
  controlWords2 := (controlWords i).2
  driverControl1 := i.options.driverControl1
  driverControl2 := i.options.driverControl2
  optimization := optimization i.options
  debug := debugRegisters i

/-- What could not be encoded, in the order of the registers. -/
def notes (i : Inputs) : List LogLine :=
  (if 16 < writeRecovery i then [.writeRecovery (writeRecovery i)] else []) ++ modeNotes i ++
    (registers i).illegal

/-- The registers of a controller that has modules, all of them or only those that tell the size of
the memory. -/
def compute (i : Inputs) (sizeOnly : Bool) : Noted (Except Error RegisterFile) :=
  if i.common.dimmCount = 0 then pure (.error .noModules)
  else if sizeOnly then pure (.ok (sizing i))
  else { value := .ok (registers i), log := notes i }

end SdramBringup.Synthesis
