/-
**Timing registers.**

Intervals are given to the controller in clocks. Some fields are too short for slow modules and have
their high bits in a register of their own, some have a least value or a code of their own.

Main definitions:

* `Synthesis.odtGap` — the distance that keeps terminations apart;
* `Synthesis.writeRecoveryCode` — the write recovery as the controller counts it;
* `Synthesis.timing0`, …, `Synthesis.timing5` — the registers.
-/

import SdramBringup.Register.Layout
import SdramBringup.Synthesis.Inputs

set_option relaxedAutoImplicit false
set_option autoImplicit false

namespace SdramBringup.Synthesis

open SdramBringup.Layout

/-! ### Turnarounds and exits -/

/-- How far accesses to different ranks have to be apart, so that their terminations do not overlap:
two steps between modules of several ranks, one between single ranks. -/
def odtGap (i : Inputs) : Nat :=
  let r₀ := i.ranksIn 0
  let r₁ := i.ranksIn 1
  if i.dimms.length = 1 then if r₀ = 4 then 2 else 0
  else if (r₀ = 2 ∧ r₁ = 2) ∨ r₀ = 4 then 2
  else if r₀ ≠ 0 ∧ r₁ ≠ 0 then 1
  else 0

/-- The exit from powerdown: three clocks, but no less than 7.5 ns. -/
def powerdownExit (i : Inputs) : Nat := i.cycles (max (i.clock.durationPs 3) 7500)

/-- The cycle of the mode registers. -/
def modeRegisterCycle (i : Inputs) : Nat :=
  if Revision.longModeCycle ≤ i.revision then max (i.cycles 15000) 12
  else if i.common.allRegistered then 8
  else 4

/-- Turnarounds between accesses and exits from powerdown. -/
def timing0 (i : Inputs) : Word :=
  let rate := i.clock.megatransfers
  assemble
    [(Timing0.readToWrite, if 1800 < rate then 2 else 1),
      (Timing0.writeToRead, if 1150 < rate ∨ i.options.controllerMode.isSome then 1 else 0),
      (Timing0.readToRead, if odtGap i = 2 then 1 else 0),
      (Timing0.writeToWrite, odtGap i),
      (Timing0.activePowerdownExit, powerdownExit i),
      (Timing0.prechargePowerdownExit, powerdownExit i),
      (Timing0.odtPowerdownExit, 1),
      (Timing0.modeRegisterCycle, modeRegisterCycle i)]

/-! ### Intervals between commands -/

/-- The write recoveries that have a code, by their clocks from one on. The modules recover in an
even number of clocks beyond eight. -/
def writeRecoveryCodes : List Nat := [1, 2, 3, 4, 5, 6, 7, 8, 10, 10, 12, 12, 14, 14, 0, 0]

/-- The write recovery as the controller counts it. What has no code is taken as it is. -/
def writeRecoveryCode (clocks : Nat) : Nat :=
  if clocks = 0 then 0 else writeRecoveryCodes.getD (clocks - 1) clocks

/-- The write recovery in clocks. -/
def writeRecovery (i : Inputs) : Nat := i.cycles i.common.timing.tWR

/-- The refresh recovery in clocks, as a number from eight on. -/
def refreshRecovery (i : Inputs) : Nat := i.cycles i.common.timing.tRFC - 8

/-- The read latency as the controller counts it, in half clocks. Later controllers count whole
clocks. -/
def readLatencyCode (i : Inputs) : Nat :=
  if i.revision ≤ Revision.uniqueModes then 2 * i.casLatency - 1 else 2 * (i.casLatency - 1)

/-- Intervals between commands. -/
def timing1 (i : Inputs) : Word :=
  let t := i.common.timing
  assemble
    [(Timing1.prechargeToActivate, i.cycles t.tRP),
      (Timing1.activateToPrecharge, i.cycles t.tRAS),
      (Timing1.activateToAccess, i.cycles t.tRCD),
      (Timing1.casLatency, readLatencyCode i),
      (Timing1.refreshRecovery, refreshRecovery i),
      (Timing1.writeRecovery, writeRecoveryCode (writeRecovery i) + i.chopExtra),
      (Timing1.activateToActivate, max (i.cycles t.tRRD) 4),
      (Timing1.writeToRead, max (i.cycles t.tWTR) 4 + i.chopExtra)]

/-- The single bit above a field of four bits: set from sixteen clocks on. -/
def highBit (clocks : Nat) : Nat := if clocks / 16 = 0 then 0 else 1

/-- The high bits of intervals between commands. -/
def timing3 (i : Inputs) : Word :=
  let t := i.common.timing
  assemble
    [(Timing3.prechargeToActivate, highBit (i.cycles t.tRP)),
      (Timing3.activateToPrecharge, i.cycles t.tRAS / 16),
      (Timing3.activateToAccess, highBit (i.cycles t.tRCD)),
      (Timing3.refreshRecovery, refreshRecovery i / 16),
      (Timing3.casLatency, (2 * i.casLatency - 1) / 16),
      (Timing3.additiveLatency, highBit i.additiveLatency),
      (Timing3.writeRecovery, highBit (writeRecovery i + i.chopExtra)),
      (Timing3.controlAdjust, 0)]

/-! ### Latencies and windows -/

/-- Latencies and windows. -/
def timing2 (i : Inputs) : Word :=
  let o := i.options
  assemble
    [(Timing2.additiveLatency, i.additiveLatency),
      (Timing2.preambleOverride, o.preambleOverride),
      (Timing2.writeLatency, i.clock.writeLatency),
      (Timing2.writeLatencyHigh, i.clock.writeLatency / 16 % 2),
      (Timing2.readToPrecharge, max (i.cycles i.common.timing.tRTP) 4 + i.chopExtra),
      (Timing2.writeDataDelay, o.writeDataDelay),
      (Timing2.ckePulse, max (i.cycles o.ckePulsePs) 3),
      (Timing2.fourActivates, i.cycles o.fourActivatesPs)]

/-- Turnarounds within a chip select, longer by two clocks if bursts are chopped, and the lock of
the delay locked loop after 512 clocks. -/
def timing4 (i : Inputs) : Word :=
  let turnaround := if i.options.burst = .full then 0 else 2
  assemble
    [(Timing4.readToRead, turnaround), (Timing4.writeToWrite, turnaround), (Timing4.dllLock, 1)]

/-- The termination for reads is switched on when the read latency exceeds the write latency. -/
def readOdtOn (i : Inputs) : Nat := i.casLatency + 1 - i.clock.writeLatency

/-- When the termination is switched. -/
def timing5 (i : Inputs) : Word :=
  assemble
    [(Timing5.readOdtOn, readOdtOn i), (Timing5.readOdtOff, 4), (Timing5.writeOdtOn, 1),
      (Timing5.writeOdtOff, 4)]

/-- Refresh and precharge interval. -/
def interval (i : Inputs) : Word :=
  assemble
    [(Interval.refresh, i.cycles i.common.refreshInterval),
      (Interval.precharge, i.options.prechargeInterval)]

end SdramBringup.Synthesis
