/-
**Configuration registers.**

Main definitions:

* `Synthesis.sdramConfig`, `Synthesis.sdramConfig2` — the features of the controller;
* `Synthesis.clockControl`, `Synthesis.zqControl`, `Synthesis.writeLeveling`,
  `Synthesis.selfRefresh`, `Synthesis.optimization` — the smaller registers;
* `Synthesis.controlWords` — the control words of registered modules.
-/

import SdramBringup.Register.Layout
import SdramBringup.Synthesis.Inputs

set_option relaxedAutoImplicit false
set_option autoImplicit false

namespace SdramBringup.Synthesis

open SdramBringup.Layout

/-! ### Features -/

/-- The kinds of memory that the controller knows. -/
inductive MemoryType where
  | ddr1
  | ddr2
  | ddr4
  | lpddr1
  | ddr3
  deriving DecidableEq, Repr

namespace MemoryType

/-- All kinds of memory. -/
def all : List MemoryType := [ddr1, ddr2, ddr4, lpddr1, ddr3]

/-- The code of a kind of memory in the configuration. -/
def code : MemoryType → Nat
  | ddr1 => 2
  | ddr2 => 3
  | ddr4 => 5
  | lpddr1 => 6
  | ddr3 => 7

end MemoryType

/-- Error correction is used if it is asked for and every module has it. -/
def usesEcc (i : Inputs) : Bool := i.options.ecc && i.common.allEccCapable

/-- Configuration of the controller. Registered modules never take two clocks for a command. -/
def sdramConfig (i : Inputs) : Word :=
  let o := i.options
  let registered := i.common.allRegistered
  assemble
    [(Config.memoryEnable, 1),
      (Config.selfRefresh, o.selfRefreshInSleep.toNat),
      (Config.ecc, (usesEcc i).toNat),
      (Config.registered, registered.toNat),
      (Config.memoryType, MemoryType.ddr3.code),
      (Config.dynamicPower, o.dynamicPower.toNat),
      (Config.busWidth, o.busWidth.code),
      (Config.burstOfEight, if o.burst = .full ∨ o.busWidth = .bits32 then 1 else 0),
      (Config.threeT, o.threeT.toNat),
      (Config.twoT, (o.twoT && !registered).toNat),
      (Config.bankInterleave, o.bankMode.code),
      (Config.halfStrength, o.halfStrength.toNat),
      (Config.eccAccess, if o.busWidth ≠ .bits64 ∧ usesEcc i then 1 else 0)]

/-- Below this data rate the controller runs in its slow mode. -/
def slowBelow : Nat := 1249000000

/-- Second configuration of the controller. -/
def sdramConfig2 (i : Inputs) : Word :=
  let o := i.options
  assemble
    [(Config2.dllResetDisable, 1),
      (Config2.strobe, o.strobeConfig),
      (Config2.odt, if o.odt.toList.any (·.used) then 2 else 0),
      (Config2.postedRefreshes, 1),
      (Config2.slow, if i.clock.transfers < slowBelow then 1 else 0),
      (Config2.x4, o.x4Devices.toNat),
      (Config2.quadRank, o.quadRank.toNat),
      (Config2.uniqueModes, i.uniqueModes.toNat),
      (Config2.onTheFlyBurst, o.chopOnTheFly.toNat),
      (Config2.addressParity, (o.registered && o.addressParity).toNat),
      (Config2.dataInit, o.eccInit.toNat),
      (Config2.controlWords, o.registered.toNat),
      (Config2.mirrored, o.mirrored.toNat)]

/-! ### Smaller registers -/

/-- Clock adjustment. Older controllers have four bits for it, above an unused one. -/
def clockControl (i : Inputs) : Word :=
  let adjust := i.options.clockAdjust
  assemble
    [(ClockControl.adjust,
      if Revision.fineClockAdjust ≤ i.revision then adjust % 32 else adjust % 16 * 2)]

/-- Calibration of the output drivers: 512 clocks at first, then 256 and 64. -/
def zqControl (o : Options) : Word :=
  if o.zqCalibration then
    assemble
      [(ZqControl.enable, 1), (ZqControl.initial, 9), (ZqControl.long, 8), (ZqControl.short, 6)]
  else 0#32

/-- Write levelling, with delays of 64, 128 and 32 clocks and a repetition after 64. -/
def writeLeveling (o : Options) : Word :=
  if o.writeLeveling then
    assemble
      [(WriteLeveling.enable, 1),
        (WriteLeveling.modeDelay, 6),
        (WriteLeveling.odtDelay, 7),
        (WriteLeveling.strobeDelay, 5),
        (WriteLeveling.sample, if o.writeLevelingTuned then o.writeLevelingSample else 0xF),
        (WriteLeveling.repetition, 6),
        (WriteLeveling.start, if o.writeLevelingTuned then o.writeLevelingStart else 0x8)]
  else 0#32

/-- Self refresh when the memory is idle. -/
def selfRefresh (o : Options) : Word :=
  assemble [(SelfRefresh.idleThreshold, if o.autoSelfRefresh then o.selfRefreshIdle else 0)]

/-- Optional optimizations. -/
def optimization (o : Options) : Word :=
  assemble [(Optimization.addressHash, o.addressHash.toNat)]

/-! ### Control words of registered modules -/

/-- Eight control words in one register, the first one in the top four bits. -/
def packWords (words : List UInt8) : Word :=
  words.foldl (fun acc w => (acc <<< 4) ||| BitVec.ofNat 32 (w.toNat % 16)) 0#32

/-- The two registers of control words: those that the options fix, or those of the modules. -/
def controlWords (i : Inputs) : Word × Word :=
  if i.common.allRegistered && !i.common.allUnbuffered then
    if i.options.controlWordsFixed then (i.options.controlWords1, i.options.controlWords2)
    else
      (packWords (i.common.controlWords.toList.take 8),
        packWords (i.common.controlWords.toList.drop 8))
  else (0#32, 0#32)

end SdramBringup.Synthesis
