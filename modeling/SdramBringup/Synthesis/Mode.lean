/-
**Mode registers of the memory devices.**

During initialization the controller sends the mode registers to the memory devices: burst length,
CAS latency and write recovery in register 0, termination in registers 1 and 2. Newer controllers
hold them per chip select; what differs between chip selects is their termination.

Main definitions:

* `Synthesis.mode0`, `Synthesis.mode1`, `Synthesis.mode2` — the mode registers;
* `Synthesis.modesOf` — those of one chip select after another;
* `Synthesis.modePairs` — how the controller holds those of one chip select;
* `Synthesis.modeNotes` — what could not be encoded.
-/

import SdramBringup.LogLine
import SdramBringup.Register.Layout
import SdramBringup.Synthesis.Inputs

set_option relaxedAutoImplicit false
set_option autoImplicit false

namespace SdramBringup.Synthesis

open SdramBringup.Layout

/-! ### Register 0 -/

/-- The codes of the write recoveries of five to sixteen clocks. -/
def modeWriteRecoveryCodes : List Nat := [1, 2, 3, 4, 5, 5, 6, 6, 7, 7, 0, 0]

/-- The write recovery in whole periods of the clock. -/
def modeWriteRecovery (i : Inputs) : Nat :=
  let period := max i.clock.periodPs 1
  (i.common.timing.tWR + period - 1) / period

/-- The code of a write recovery: that of five clocks below five, and zero beyond sixteen. -/
def modeWriteRecoveryCode (clocks : Nat) : Nat := modeWriteRecoveryCodes.getD (clocks - 5) 0

/-- The codes of the CAS latencies of five to sixteen clocks. The lowest bit is apart from the
others in the register. -/
def modeCasLatencyCodes : List Nat :=
  [0x2, 0x4, 0x6, 0x8, 0xA, 0xC, 0xE, 0x1, 0x3, 0x5, 0x7, 0x9]

/-- The code of a CAS latency, zero if it has none. -/
def modeCasLatencyCode (latency : Nat) : Nat :=
  if latency < 5 then 0 else modeCasLatencyCodes.getD (latency - 5) 0

/-- The code of a burst policy. -/
def burstCode : BurstPolicy → Nat
  | .full => 0
  | .onTheFly => 1
  | .chopped => 2

/-- Mode register 0. -/
def mode0 (i : Inputs) : BitVec 16 :=
  assemble
    [(Mode0.dllOn, 1),
      (Mode0.writeRecovery, modeWriteRecoveryCode (modeWriteRecovery i)),
      (Mode0.casLatencyHigh, modeCasLatencyCode i.casLatency / 2),
      (Mode0.casLatencyLow, modeCasLatencyCode i.casLatency % 2),
      (Mode0.burstLength, burstCode i.options.burst)]

/-- What has no code in mode register 0. -/
def modeNotes (i : Inputs) : List LogLine :=
  (if 16 < modeWriteRecovery i then [.modeWriteRecovery (modeWriteRecovery i)] else []) ++
    if i.casLatency < 5 ∨ 16 < i.casLatency then [.modeCasLatency i.casLatency] else []

/-! ### Registers 1 and 2 -/

/-- The additive latency in relation to the CAS latency: one less, two less, or off. -/
def additiveLatencyCode (i : Inputs) : Nat :=
  if i.additiveLatency + 1 = i.casLatency then 1
  else if i.additiveLatency + 2 = i.casLatency then 2
  else 0

/-- The nominal termination of a chip select: that of all chip selects, if it is fixed. -/
def nominalTermination (i : Inputs) (cs : Fin 4) : Termination :=
  i.options.nominalTermination.getD i.options.odt[cs].nominal

/-- The termination of a chip select during writes: that of all chip selects, if it is fixed. -/
def writeTermination (i : Inputs) (cs : Fin 4) : WriteTermination :=
  i.options.writeTermination.getD i.options.odt[cs].duringWrite

/-- Mode register 1 of a chip select. Modules with four ranks are driven with a lower impedance. -/
def mode1 (i : Inputs) (cs : Fin 4) : BitVec 16 :=
  let rtt := (nominalTermination i cs).code
  assemble
    [(Mode1.nominal2, rtt / 4 % 2),
      (Mode1.nominal1, rtt / 2 % 2),
      (Mode1.nominal0, rtt % 2),
      (Mode1.driveStrength1, 0),
      (Mode1.driveStrength0, i.options.quadRank.toNat),
      (Mode1.additiveLatency, additiveLatencyCode i)]

/-- Mode register 2 of a chip select. -/
def mode2 (i : Inputs) (cs : Fin 4) : BitVec 16 :=
  assemble
    [(Mode2.writeTermination, (writeTermination i cs).code),
      (Mode2.extendedRange, i.common.extendedTemperature.toNat),
      (Mode2.writeLatency, i.clock.writeLatency - 5)]

/-! ### One chip select after another -/

/-- The first word with the bits outside of the mask replaced by those of the second one. -/
def replaceOutside {n : Nat} (mask w v : BitVec n) : BitVec n := (w &&& mask) ||| (v &&& ~~~mask)

/-- Registers 1 and 2 of the chip selects in their order. Those of the first one are put together
from their fields, and every further chip select takes those of the one before, with its own
termination. -/
def modesOf (i : Inputs) : Nat → BitVec 16 × BitVec 16
  | 0 => (mode1 i 0, mode2 i 0)
  | cs + 1 =>
      let before := modesOf i cs
      let own := Fin.ofNat 4 (cs + 1)
      (replaceOutside Mode1.otherThanNominal before.1 (mode1 i own),
        replaceOutside Mode2.otherThanWriteTermination before.2 (mode2 i own))

/-! ### Pairs -/

/-- Registers 1 and 0 of a chip select in one word, and registers 2 and 3 in another. Register 3 is
zero. -/
def modePairs (i : Inputs) (cs : Fin 4) : Word × Word :=
  (assemble [(ModePair.high, (modesOf i cs).1.toNat), (ModePair.low, (mode0 i).toNat)],
    assemble [(ModePair.high, (modesOf i cs).2.toNat), (ModePair.low, 0)])

/-- The words of chip selects 1 to 3, which only newer controllers hold. -/
def modeVariants (i : Inputs) : Vector Word 6 :=
  if i.uniqueModes then
    #v[(modePairs i 1).1, (modePairs i 1).2, (modePairs i 2).1, (modePairs i 2).2,
      (modePairs i 3).1, (modePairs i 3).2]
  else Vector.replicate 6 0

end SdramBringup.Synthesis
