/-
**The options of a controller.**

Between the modules and the registers stand the decisions about a controller: which features it
uses, how its chip selects terminate and interleave, and the values that a board has tuned. They are
kept as one record per controller, so that they can be inspected and changed before the registers
are computed.

Main definitions:

* `BusWidth`, `BurstPolicy` — the width of the data bus and the bursts on it;
* `Options` — the decisions;
* `Options.withBurst` — the options with the bursts that suit their bus width.
-/

import SdramBringup.Interleave
import SdramBringup.Odt
import SdramBringup.Register.Field

set_option relaxedAutoImplicit false
set_option autoImplicit false

namespace SdramBringup

/-- Width of the data bus, not counting the lines for error correction. -/
inductive BusWidth where
  | bits64
  | bits32
  | bits16
  deriving DecidableEq, Repr

namespace BusWidth

/-- The code of a width in the configuration register. -/
def code : BusWidth → Nat
  | bits64 => 0
  | bits32 => 1
  | bits16 => 2

/-- The bus width of a module with the given number of data lines, up to eight of which are for
error correction. -/
def ofLines? (lines : Nat) : Option BusWidth :=
  if 64 ≤ lines ∧ lines ≤ 72 then some bits64
  else if 32 ≤ lines ∧ lines ≤ 40 then some bits32
  else if 16 ≤ lines ∧ lines ≤ 24 then some bits16
  else none

end BusWidth

/-- The bursts on the data bus. -/
inductive BurstPolicy where
  /-- Every burst is chopped to four transfers. -/
  | chopped
  /-- Every burst has eight transfers. -/
  | full
  /-- Each command chooses. -/
  | onTheFly
  deriving DecidableEq, Repr

/-- The decisions about one controller. Times are in picoseconds, latencies in clocks. -/
structure Options where
  /-- Termination of the chip selects. -/
  odt : Vector ChipSelectOdt 4 := Vector.replicate 4 .unused
  /-- Interleaving with other controllers. -/
  controllerMode : Option ControllerMode := none
  /-- Interleaving of the chip selects. -/
  bankMode : BankMode := .off
  addressHash : Bool := false
  /-- Error correction is asked for. -/
  ecc : Bool := false
  /-- The controller fills the memory, so that its check bits are right. -/
  eccInit : Bool := false
  strobeConfig : Nat := 0
  selfRefreshInSleep : Bool := false
  dynamicPower : Bool := false
  busWidth : BusWidth := .bits64
  burst : BurstPolicy := .full
  /-- Bursts may be chopped by each command. -/
  chopOnTheFly : Bool := false
  mirrored : Bool := false
  quadRank : Bool := false
  registered : Bool := false
  addressParity : Bool := false
  /-- The memory devices have four data lines each. -/
  x4Devices : Bool := false
  casLatency : Option Nat := none
  additiveLatency : Option Nat := none
  preambleOverride : Nat := 0
  writeDataDelay : Nat := 0
  twoT : Bool := false
  threeT : Bool := false
  prechargeInterval : Nat := 0
  fourActivatesPs : Nat := 0
  ckePulsePs : Nat := 0
  /-- A nominal termination for all chip selects. -/
  nominalTermination : Option Termination := none
  /-- A write termination for all chip selects. -/
  writeTermination : Option WriteTermination := none
  halfStrength : Bool := false
  clockAdjust : Nat := 0
  autoSelfRefresh : Bool := false
  selfRefreshIdle : Nat := 0
  zqCalibration : Bool := false
  writeLeveling : Bool := false
  /-- The sampling of write levelling is tuned. -/
  writeLevelingTuned : Bool := false
  writeLevelingSample : Nat := 0
  writeLevelingStart : Nat := 0
  writeLeveling2 : Word := 0
  writeLeveling3 : Word := 0
  /-- The control words below replace those of the modules. -/
  controlWordsFixed : Bool := false
  controlWords1 : Word := 0
  controlWords2 : Word := 0
  /-- Override of the write latency per chip select, zero for none. -/
  writeLatencyOverride : Word := 0
  driverControl1 : Word := 0
  driverControl2 : Word := 0
  deriving DecidableEq, Repr

namespace Options

instance : Inhabited Options := ⟨{}⟩

/-- The options with the bursts that suit their bus width: only on a bus of 64 bits can a command
choose. -/
def withBurst (o : Options) : Options :=
  if o.busWidth = .bits64 then { o with burst := .onTheFly, chopOnTheFly := true }
  else { o with burst := .full, chopOnTheFly := false }

end Options

end SdramBringup
