/-
**The fields of the controller's registers.**

One namespace per register, one definition per field, named for what the field says. The mode
registers at the end belong to the memory devices: the controller sends them during initialization.

Main definitions:

* `Layout` — the width of a register and its fields;
* `Layout.ChipSelect`, `Layout.Timing0`, … — the fields, register by register;
* `Layout.all` — all layouts.
-/

import SdramBringup.Register.Field

set_option relaxedAutoImplicit false
set_option autoImplicit false

namespace SdramBringup

/-- A register: its width and its fields. -/
structure Layout where
  width : Nat
  fields : List Field
  deriving DecidableEq, Repr

/-- Every field lies within the register, and no two fields share a bit. -/
def Layout.WellFormed (l : Layout) : Prop :=
  (∀ f ∈ l.fields, f.low + f.width ≤ l.width) ∧ l.fields.Pairwise Field.Disjoint

instance (l : Layout) : Decidable l.WellFormed := inferInstanceAs (Decidable (_ ∧ _))

namespace Layout

/-- The field of a single bit. -/
def bit (i : Nat) : Field := ⟨i, 1⟩

/-! ### Chip selects -/

namespace Bounds

def first : Field := ⟨16, 16⟩
def last : Field := ⟨0, 16⟩

/-- Range of a chip select: bits 39 to 24 of the first and the last address. -/
def layout : Layout := ⟨32, [first, last]⟩

end Bounds

namespace ChipSelect

def enable : Field := bit 31
/-- The chip select is interleaved with that of another controller. -/
def interleave : Field := ⟨29, 2⟩
def interleaveMode : Field := ⟨24, 4⟩
def autoPrecharge : Field := bit 23
def odtOnRead : Field := ⟨20, 3⟩
def odtOnWrite : Field := ⟨16, 3⟩
/-- Number of bank bits less two. -/
def bankBits : Field := ⟨14, 2⟩
/-- Number of row bits less twelve. -/
def rowBits : Field := ⟨8, 3⟩
/-- Number of column bits less eight. -/
def columnBits : Field := ⟨0, 3⟩

/-- Configuration of a chip select. -/
def layout : Layout :=
  ⟨32, [enable, interleave, interleaveMode, autoPrecharge, odtOnRead, odtOnWrite, bankBits, rowBits,
    columnBits]⟩

end ChipSelect

/-! ### Timing of commands -/

namespace Timing0

def readToWrite : Field := ⟨30, 2⟩
def writeToRead : Field := ⟨28, 2⟩
def readToRead : Field := ⟨26, 2⟩
def writeToWrite : Field := ⟨24, 2⟩
def activePowerdownExit : Field := ⟨20, 4⟩
def prechargePowerdownExit : Field := ⟨16, 4⟩
def odtPowerdownExit : Field := ⟨8, 4⟩
def modeRegisterCycle : Field := ⟨0, 5⟩

/-- Turnarounds and exits. -/
def layout : Layout :=
  ⟨32, [readToWrite, writeToRead, readToRead, writeToWrite, activePowerdownExit,
    prechargePowerdownExit, odtPowerdownExit, modeRegisterCycle]⟩

end Timing0

namespace Timing1

def prechargeToActivate : Field := ⟨28, 4⟩
def activateToPrecharge : Field := ⟨24, 4⟩
def activateToAccess : Field := ⟨20, 4⟩
/-- Read latency in half clocks, less one. -/
def casLatency : Field := ⟨16, 4⟩
/-- Refresh recovery less eight. -/
def refreshRecovery : Field := ⟨12, 4⟩
def writeRecovery : Field := ⟨8, 4⟩
def activateToActivate : Field := ⟨4, 4⟩
def writeToRead : Field := ⟨0, 4⟩

/-- The low bits of intervals between commands. -/
def layout : Layout :=
  ⟨32, [prechargeToActivate, activateToPrecharge, activateToAccess, casLatency, refreshRecovery,
    writeRecovery, activateToActivate, writeToRead]⟩

end Timing1

namespace Timing2

def additiveLatency : Field := ⟨28, 4⟩
/-- Override of the time from a read to its preamble. -/
def preambleOverride : Field := ⟨23, 5⟩
def writeLatency : Field := ⟨19, 4⟩
/-- Bit 4 of the write latency. -/
def writeLatencyHigh : Field := bit 18
def readToPrecharge : Field := ⟨13, 4⟩
def writeDataDelay : Field := ⟨9, 4⟩
def ckePulse : Field := ⟨6, 3⟩
def fourActivates : Field := ⟨0, 6⟩

/-- Latencies and windows. -/
def layout : Layout :=
  ⟨32, [additiveLatency, preambleOverride, writeLatency, writeLatencyHigh, readToPrecharge,
    writeDataDelay, ckePulse, fourActivates]⟩

end Timing2

namespace Timing3

def prechargeToActivate : Field := bit 28
def activateToPrecharge : Field := ⟨24, 2⟩
def activateToAccess : Field := bit 22
def refreshRecovery : Field := ⟨16, 5⟩
def casLatency : Field := ⟨12, 2⟩
def additiveLatency : Field := bit 10
def writeRecovery : Field := bit 8
def controlAdjust : Field := ⟨0, 3⟩

/-- The high bits of the intervals in `Timing1` and of the additive latency. -/
def layout : Layout :=
  ⟨32, [prechargeToActivate, activateToPrecharge, activateToAccess, refreshRecovery, casLatency,
    additiveLatency, writeRecovery, controlAdjust]⟩

end Timing3

namespace Timing4

def readToWrite : Field := ⟨28, 4⟩
def writeToRead : Field := ⟨24, 4⟩
def readToRead : Field := ⟨20, 4⟩
def writeToWrite : Field := ⟨16, 4⟩
def dllLock : Field := ⟨0, 2⟩

/-- Turnarounds within a chip select. -/
def layout : Layout := ⟨32, [readToWrite, writeToRead, readToRead, writeToWrite, dllLock]⟩

end Timing4

namespace Timing5

def readOdtOn : Field := ⟨24, 5⟩
def readOdtOff : Field := ⟨20, 3⟩
def writeOdtOn : Field := ⟨12, 5⟩
def writeOdtOff : Field := ⟨8, 3⟩

/-- When the termination is switched. -/
def layout : Layout := ⟨32, [readOdtOn, readOdtOff, writeOdtOn, writeOdtOff]⟩

end Timing5

/-! ### Configuration -/

namespace Config

def memoryEnable : Field := bit 31
/-- Self refresh while the system sleeps. -/
def selfRefresh : Field := bit 30
def ecc : Field := bit 29
def registered : Field := bit 28
def memoryType : Field := ⟨24, 3⟩
def dynamicPower : Field := bit 21
def busWidth : Field := ⟨19, 2⟩
/-- Bursts of eight transfers. -/
def burstOfEight : Field := bit 18
def nonConcurrentPrecharge : Field := bit 17
def threeT : Field := bit 16
def twoT : Field := bit 15
def bankInterleave : Field := ⟨8, 7⟩
def x32 : Field := bit 5
def prechargeBit8 : Field := bit 4
def halfStrength : Field := bit 3
/-- Error correction is accessed separately on a narrow bus. -/
def eccAccess : Field := bit 2
def halt : Field := bit 1
def bypassInit : Field := bit 0

/-- Configuration of the controller. -/
def layout : Layout :=
  ⟨32, [memoryEnable, selfRefresh, ecc, registered, memoryType, dynamicPower, busWidth,
    burstOfEight, nonConcurrentPrecharge, threeT, twoT, bankInterleave, x32, prechargeBit8, halfStrength,
    eccAccess, halt, bypassInit]⟩

end Config

namespace Config2

def forceSelfRefresh : Field := bit 31
def selfRefreshInterrupt : Field := bit 30
def dllResetDisable : Field := bit 29
def strobe : Field := ⟨26, 2⟩
def odt : Field := ⟨21, 2⟩
def postedRefreshes : Field := ⟨12, 4⟩
def slow : Field := bit 11
def x4 : Field := bit 10
def quadRank : Field := bit 9
/-- Every chip select has mode registers of its own. -/
def uniqueModes : Field := bit 8
def onTheFlyBurst : Field := bit 6
def addressParity : Field := bit 5
/-- The controller fills the memory; it clears the bit when it is done. -/
def dataInit : Field := bit 4
def controlWords : Field := bit 2
def mirrored : Field := bit 0

/-- Second configuration of the controller. -/
def layout : Layout :=
  ⟨32, [forceSelfRefresh, selfRefreshInterrupt, dllResetDisable, strobe, odt, postedRefreshes, slow,
    x4, quadRank, uniqueModes, onTheFlyBurst, addressParity, dataInit, controlWords, mirrored]⟩

end Config2

namespace Interval

def refresh : Field := ⟨16, 16⟩
def precharge : Field := ⟨0, 14⟩

/-- Refresh and precharge interval in clocks. -/
def layout : Layout := ⟨32, [refresh, precharge]⟩

end Interval

namespace ClockControl

def adjust : Field := ⟨22, 5⟩

/-- Clock adjustment in sixteenths of a clock. -/
def layout : Layout := ⟨32, [adjust]⟩

end ClockControl

namespace ZqControl

def enable : Field := bit 31
def initial : Field := ⟨24, 4⟩
def long : Field := ⟨16, 4⟩
def short : Field := ⟨8, 4⟩

/-- Calibration of the output drivers. The lengths are exponents of a number of clocks. -/
def layout : Layout := ⟨32, [enable, initial, long, short]⟩

end ZqControl

namespace WriteLeveling

def enable : Field := bit 31
def modeDelay : Field := ⟨24, 3⟩
def odtDelay : Field := ⟨20, 3⟩
def strobeDelay : Field := ⟨16, 3⟩
def sample : Field := ⟨12, 4⟩
def repetition : Field := ⟨8, 3⟩
def start : Field := ⟨0, 5⟩

/-- Write levelling. -/
def layout : Layout :=
  ⟨32, [enable, modeDelay, odtDelay, strobeDelay, sample, repetition, start]⟩

end WriteLeveling

namespace SelfRefresh

def idleThreshold : Field := ⟨16, 4⟩

/-- Self refresh after a time without accesses. -/
def layout : Layout := ⟨32, [idleThreshold]⟩

end SelfRefresh

namespace Optimization

def addressHash : Field := bit 30

/-- Optional optimizations. -/
def layout : Layout := ⟨32, [addressHash]⟩

end Optimization

namespace DriverControl1

/-- Compensation of the drivers by hardware. -/
def compensation : Field := bit 31
/-- The upper two bits of the termination code. -/
def odtHigh : Field := ⟨18, 2⟩

/-- First control register of the output drivers. -/
def layout : Layout := ⟨32, [compensation, odtHigh]⟩

end DriverControl1

namespace DriverControl2

/-- The lowest bit of the termination code. -/
def odtLow : Field := bit 0

/-- Second control register of the output drivers. -/
def layout : Layout := ⟨32, [odtLow]⟩

end DriverControl2

/-! ### Mode registers of the memory devices -/

namespace ModePair

def high : Field := ⟨16, 16⟩
def low : Field := ⟨0, 16⟩

/-- A register that holds two mode registers. -/
def layout : Layout := ⟨32, [high, low]⟩

end ModePair

namespace Mode0

/-- The delay locked loop stays on in precharge powerdown. -/
def dllOn : Field := bit 12
def writeRecovery : Field := ⟨9, 3⟩
def dllReset : Field := bit 8
def testMode : Field := bit 7
def casLatencyHigh : Field := ⟨4, 3⟩
def interleavedBurst : Field := bit 3
def casLatencyLow : Field := bit 2
def burstLength : Field := ⟨0, 2⟩

/-- Mode register 0. -/
def layout : Layout :=
  ⟨16, [dllOn, writeRecovery, dllReset, testMode, casLatencyHigh, interleavedBurst, casLatencyLow,
    burstLength]⟩

end Mode0

namespace Mode1

def outputsOff : Field := bit 12
def strobeTermination : Field := bit 11
/-- Bit 2 of the nominal termination. -/
def nominal2 : Field := bit 9
def writeLeveling : Field := bit 7
/-- Bit 1 of the nominal termination. -/
def nominal1 : Field := bit 6
def driveStrength1 : Field := bit 5
def additiveLatency : Field := ⟨3, 2⟩
/-- Bit 0 of the nominal termination. -/
def nominal0 : Field := bit 2
def driveStrength0 : Field := bit 1
def dllDisable : Field := bit 0

/-- Mode register 1. -/
def layout : Layout :=
  ⟨16, [outputsOff, strobeTermination, nominal2, writeLeveling, nominal1, driveStrength1,
    additiveLatency, nominal0, driveStrength0, dllDisable]⟩

/-- All bits but those of the nominal termination. -/
def otherThanNominal : BitVec 16 := 0xFDBB#16

end Mode1

namespace Mode2

def writeTermination : Field := ⟨9, 2⟩
/-- Self refresh in the extended temperature range. -/
def extendedRange : Field := bit 7
def autoSelfRefresh : Field := bit 6
/-- CAS write latency less five. -/
def writeLatency : Field := ⟨3, 3⟩
def partialArray : Field := ⟨0, 3⟩

/-- Mode register 2. -/
def layout : Layout :=
  ⟨16, [writeTermination, extendedRange, autoSelfRefresh, writeLatency, partialArray]⟩

/-- All bits but those of the write termination. -/
def otherThanWriteTermination : BitVec 16 := 0xF9FF#16

end Mode2

/-- All layouts. -/
def all : List Layout :=
  [Bounds.layout, ChipSelect.layout, Timing0.layout, Timing1.layout, Timing2.layout, Timing3.layout,
    Timing4.layout, Timing5.layout, Config.layout, Config2.layout, Interval.layout,
    ClockControl.layout, ZqControl.layout, WriteLeveling.layout, SelfRefresh.layout,
    Optimization.layout, DriverControl1.layout, DriverControl2.layout, ModePair.layout,
    Mode0.layout, Mode1.layout, Mode2.layout]

end Layout

end SdramBringup
