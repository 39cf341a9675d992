/-
**Programming a controller.**

A controller is programmed in two phases. The write phase gives it all registers and leaves it
disabled; after it the clocks need some time to settle. The enable phase lets it initialize the
memory devices and waits until it has filled the memory, with a budget of twice the time that one
pass over the memory takes. Boards that hold the memory in reset release it between the two.

Main definitions:

* `RegisterFile.commits` — the registers in the order in which they are written, with their values;
* `Programming.writePhase`, `Programming.enablePhase` — the two phases;
* `Programming.sizeUnits`, `Programming.pollBudget` — the memory behind a controller, and how often
  it is polled;
* `Programming.poll` — the wait for the end of the data initialization;
* `Programming.program` — one or both phases;
* `Programming.readRevision`, `Programming.enableThreeWay` — the other accesses to a controller.
-/

import SdramBringup.Clock
import SdramBringup.Hardware.Program
import SdramBringup.Interleave
import SdramBringup.Register.File
import SdramBringup.Register.Layout

set_option relaxedAutoImplicit false
set_option autoImplicit false

namespace SdramBringup

namespace Register

/-- The registers in the order in which they are written. The configuration comes last. -/
def commitOrder : List Register :=
  [optimization] ++
    (List.finRange 4).flatMap (fun cs => [bounds cs, config cs, config2 cs]) ++
    [timing3, timing0, timing1, timing2, mode, mode2] ++
    (List.finRange 6).map modeVariant ++
    [modeControl, interval, dataInit, clockControl, timing4, timing5, zqControl, writeLeveling,
      writeLeveling2, writeLeveling3, selfRefresh, controlWords1, controlWords2, driverControl1,
      driverControl2, errorDisable, errorInterrupt] ++
    (List.finRange 32).map debug ++
    [initAddress, initAddressHigh, sdramConfig, sdramConfig2]

/-- The register is left alone if its value is zero. -/
def optional : Register → Bool
  | optimization | writeLeveling2 | writeLeveling3 | debug _ => true
  | _ => false

end Register

namespace RegisterFile

/-- The value that the write phase gives a register: the controller stays disabled. -/
def committed (f : RegisterFile) : Register → Word
  | .sdramConfig => f.sdramConfig &&& ~~~Bits.memoryEnable
  | r => f.value r

/-- The writes of the write phase in order. -/
def commits (f : RegisterFile) : List (Register × Word) :=
  (Register.commitOrder.filter fun r => !(r.optional && f.value r == 0)).map fun r =>
    (r, f.committed r)

end RegisterFile

/-- Which phases are to be run. -/
inductive ProgramStep where
  | full
  | writeOnly
  | enableOnly
  deriving DecidableEq, Repr

/-- How far a controller has come. -/
inductive Progress where
  | untouched
  | written
  | enabled
  deriving DecidableEq, Repr

namespace Programming

/-! ### The write phase -/

/-- The time that the clocks need after the write phase, in nanoseconds. -/
def settleTime : Nat := 200000

/-- All registers of the controller at `base`, which stays disabled. -/
def writePhase (base : Nat) (f : RegisterFile) : Program Unit := do
  Program.storeAll (f.commits.map fun w => (base + w.1.offset, w.2))
  Program.perform (.delay settleTime)
  Program.perform .fence

/-! ### The size of the memory and the budget -/

/-- The code of the bus width in the registers. -/
def busWidthCode (f : RegisterFile) : Nat :=
  ((f.sdramConfig &&& Bits.busWidth) >>> Bits.busWidthShift).toNat

/-- The address bits of a chip select: bank, row and column, and three for the bytes of a full
bus. -/
def addressBits (config : Word) : Nat :=
  Layout.ChipSelect.bankBits.get config + 2 + (Layout.ChipSelect.rowBits.get config + 12) +
    (Layout.ChipSelect.columnBits.get config + 8) + 3

/-- The memory behind the enabled chip selects in units of 64 MiB. A controller that is interleaved
counts for its group. -/
def sizeUnits (f : RegisterFile) (threeWay : Bool) : Nat :=
  let own := ((f.chipSelects.toList.filter (·.enabled)).map fun cs =>
    2 ^ (addressBits cs.config - (busWidthCode f + 26))).sum
  if threeWay then own * 3
  else if f.chipSelects[(0 : Fin 4)].config &&& Bits.twoWay ≠ 0 then own * 2
  else own

/-- The time between two polls in nanoseconds: ten milliseconds. -/
def pollInterval : Nat := 10000000

/-- How often the data initialization is polled again: twice the time that one transfer of the
memory takes at the data rate. -/
def pollBudget (units : Nat) (f : RegisterFile) (clock : Clock) : Nat :=
  let busExponent := 3 - busWidthCode f
  let mebirate := max (clock.transfers / 2 ^ 20) 1
  units * 2 ^ (6 - busExponent) * 100 / mebirate * 2

/-! ### The enable phase -/

/-- Waits until the controller has filled the memory, and tells whether it did within the given
number of further polls. -/
def poll (address : Nat) : Nat → Program Bool
  | 0 => do
      let v ← Program.load address
      return v &&& Bits.dataInit == 0
  | n + 1 => do
      let v ← Program.load address
      if v &&& Bits.dataInit == 0 then return true
      Program.perform (.delay pollInterval)
      poll address n

/-- Whether the platform interleaves three controllers, by its register for it. -/
def threeWayEnabled (register : Option Nat) : Program Bool :=
  match register with
  | none => return false
  | some address => do
      let v ← Program.load address
      return v &&& Bits.threeWayEnable != 0

/-- Enables the controller at `base`, and tells whether its data initialization ended in time. -/
def enablePhase (base : Nat) (f : RegisterFile) (clock : Clock) (threeWayRegister : Option Nat) :
    Program Bool := do
  let configAddress := base + Register.sdramConfig.offset
  Program.perform .fence
  let v ← Program.load configAddress
  let config := v &&& ~~~Bits.bypassInit
  Program.store configAddress config
  Program.perform .fence
  Program.store configAddress (config ||| Bits.memoryEnable)
  Program.perform .fence
  let threeWay ← threeWayEnabled threeWayRegister
  poll (base + Register.sdramConfig2.offset) (pollBudget (sizeUnits f threeWay) f clock)

/-! ### Both phases -/

/-- How far a controller came, and whether its data initialization ended in time. -/
structure Programmed where
  progress : Progress
  initialized : Bool
  deriving DecidableEq, Repr

/-- The phases of a step on the controller at `base`. -/
def program (base : Nat) (f : RegisterFile) (clock : Clock) (step : ProgramStep)
    (threeWayRegister : Option Nat) : Program Programmed :=
  match step with
  | .writeOnly => do
      writePhase base f
      return ⟨.written, true⟩
  | .enableOnly => do
      let inTime ← enablePhase base f clock threeWayRegister
      return ⟨.enabled, inTime⟩
  | .full => do
      writePhase base f
      let inTime ← enablePhase base f clock threeWayRegister
      return ⟨.enabled, inTime⟩

/-! ### Other accesses -/

/-- The revision of the controller at `base`: major and minor revision and errata level, a byte
each. -/
def readRevision (base : Nat) : Program Nat := do
  let revision ← Program.load (base + Identification.revision)
  let errata ← Program.load (base + Identification.errata)
  return revision.toNat % 2 ^ 16 * 256 + errata.toNat / 256 % 256

/-- Interleaves three controllers with the granule of the mode. -/
def enableThreeWay (address : Nat) (mode : ControllerMode) : Program Unit :=
  Program.store address
    (Bits.threeWayEnable ||| (BitVec.ofNat 32 mode.code &&& Bits.threeWayMode))

end Programming

end SdramBringup
