/-
**Memory modules and their minimum times.**

A slot of a controller is described by one `Dimm` record: geometry, capacity, the minimum times of
its devices in picoseconds and the CAS latencies they support. A slot without ranks is an empty
slot.

Main definitions:

* `Timing` — the minimum times that a controller has to respect;
* `Timing.slowest` — the times that satisfy two modules at once;
* `Dimm` — what is known about the module in a slot;
* `Dimm.isEmpty`, `Dimm.isQuadRank` — the two populations that need care.
-/

import SdramBringup.Instances

set_option relaxedAutoImplicit false
set_option autoImplicit false

namespace SdramBringup

/-- Minimum times in picoseconds, named as in the DDR3 standard. -/
structure Timing where
  /-- Clock period. -/
  tCK : Nat := 0
  /-- Read command to first data. -/
  tAA : Nat := 0
  /-- Activate to read or write. -/
  tRCD : Nat := 0
  /-- Precharge to activate. -/
  tRP : Nat := 0
  /-- Activate to precharge. -/
  tRAS : Nat := 0
  /-- Write recovery. -/
  tWR : Nat := 0
  /-- Write to read. -/
  tWTR : Nat := 0
  /-- Refresh recovery. -/
  tRFC : Nat := 0
  /-- Activate to activate of another bank. -/
  tRRD : Nat := 0
  /-- Read to precharge. -/
  tRTP : Nat := 0
  /-- Activate to activate of the same bank. -/
  tRC : Nat := 0
  /-- Window of four activates. -/
  tFAW : Nat := 0
  deriving DecidableEq, Repr

namespace Timing

/-- The least times that satisfy both: each one is the longer of the two. -/
def slowest (a b : Timing) : Timing where
  tCK := max a.tCK b.tCK
  tAA := max a.tAA b.tAA
  tRCD := max a.tRCD b.tRCD
  tRP := max a.tRP b.tRP
  tRAS := max a.tRAS b.tRAS
  tWR := max a.tWR b.tWR
  tWTR := max a.tWTR b.tWTR
  tRFC := max a.tRFC b.tRFC
  tRRD := max a.tRRD b.tRRD
  tRTP := max a.tRTP b.tRTP
  tRC := max a.tRC b.tRC
  tFAW := max a.tFAW b.tFAW

end Timing

/-- The module in one slot. All times are in picoseconds, all sizes in bytes. -/
structure Dimm where
  /-- The vendor's name of the part, empty if the module does not say. -/
  partNumber : String := ""
  /-- Number of ranks, zero for an empty slot. -/
  ranks : Nat := 0
  /-- Size of one rank. -/
  rankSize : Nat := 0
  /-- Size of all ranks together. -/
  capacity : Nat := 0
  /-- Data lines without those for error correction. -/
  primaryWidth : Nat := 0
  /-- Data lines for error correction. -/
  extensionWidth : Nat := 0
  /-- All data lines. -/
  dataWidth : Nat := 0
  /-- Data lines of one memory device. -/
  deviceWidth : Nat := 0
  /-- Commands and addresses pass through a register on the module. -/
  registered : Bool := false
  /-- The address lines of every second rank are mirrored. -/
  mirrored : Bool := false
  /-- The module has the lines for error correction. -/
  eccCapable : Bool := false
  rowBits : Nat := 0
  columnBits : Nat := 0
  banks : Nat := 0
  /-- Supported burst lengths, bit `n` for a burst of `n` transfers. -/
  burstLengths : BitVec 32 := 0
  /-- The first address assigned to the module. -/
  base : Nat := 0
  /-- The medium timebase, in whole picoseconds. -/
  mediumTimebase : Nat := 0
  /-- The fine timebase, in tenths of a picosecond. -/
  fineTimebase : Nat := 0
  timing : Timing := {}
  /-- Longest clock period, zero if there is no bound. -/
  maxClockPeriod : Nat := 0
  /-- Supported CAS latencies, bit `n` for a latency of `n` clocks. -/
  casLatencies : BitVec 32 := 0
  /-- Longest time between two refreshes. -/
  refreshInterval : Nat := 0
  /-- The module may run in the extended temperature range, with the refresh that it asks for. -/
  extendedTemperature : Bool := false
  /-- The sixteen control words of the register, for registered modules. -/
  controlWords : Vector UInt8 16 := Vector.replicate 16 0
  deriving DecidableEq, Repr

namespace Dimm

instance : Inhabited Dimm := ⟨{}⟩

/-- A slot without ranks is empty. -/
def isEmpty (d : Dimm) : Bool := d.ranks == 0

/-- Four ranks need all chip selects of a controller. -/
def isQuadRank (d : Dimm) : Bool := d.ranks == 4

end Dimm

end SdramBringup
