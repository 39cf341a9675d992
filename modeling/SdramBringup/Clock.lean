/-
**The clock of a memory channel.**

Every minimum time of a memory module is given in picoseconds, every field of the controller in
clocks, and what joins them is the data rate of the channel: two transfers take one memory clock.
All conversions are exact integer computations with one stated rounding each.

Main definitions:

* `Clock` — a channel clock, given by its data rate;
* `Clock.periodPs` — the length of a memory clock, rounded to the nearest picosecond;
* `Clock.cyclesFor` — the clocks that cover a time, where an excess of up to one picosecond does
  not cost a further clock;
* `Clock.durationPs` — the time that a number of clocks takes;
* `Clock.writeLatency` — the CAS write latency of the speed bin;
* `Clock.minCkePulsePs` — the least CKE pulse of the speed bin.
-/

import SdramBringup.Instances

set_option relaxedAutoImplicit false
set_option autoImplicit false

namespace SdramBringup

/-- A channel clock. -/
structure Clock where
  /-- The data rate in transfers per second, twice the frequency of the memory clock. -/
  rate : UInt32
  deriving DecidableEq, Repr

namespace Clock

/-- The largest number that a 32 bit quantity holds. Conversions saturate here. -/
def limit : Nat := 2 ^ 32 - 1

/-- Transfers per second. -/
def transfers (c : Clock) : Nat := c.rate.toNat

/-- Whole millions of transfers per second. -/
def megatransfers (c : Clock) : Nat := c.transfers / 10 ^ 6

/-- The memory clock period in picoseconds, rounded to nearest, in 32 bits. A stopped clock has
period zero. -/
def periodPs (c : Clock) : Nat :=
  ((2 * 10 ^ 12 + c.transfers / 2) / c.transfers) % 2 ^ 32

/-! ### Times and clocks

A picosecond is `rate / (2 * 10 ^ 12)` clocks. The divisor is `5 ^ 12 * 2 ^ 13`, so the quotient and
the remainder of the product are computed by a division by a 32 bit number and a shift. -/

/-- The time in units of `1 / (2 * 10 ^ 12)` clocks. -/
def scaled (c : Clock) (ps : Nat) : Nat := ps * c.transfers

/-- The remainder of the scaled time over whole clocks, put together from the remainders of the two
divisions. -/
def excess (c : Clock) (ps : Nat) : Nat :=
  c.scaled ps % 5 ^ 12 + c.scaled ps / 5 ^ 12 % 2 ^ 13 * 5 ^ 12

/-- The number of clocks that cover `ps` picoseconds: the whole clocks, and one more if what remains
is longer than one picosecond. -/
def cyclesFor (c : Clock) (ps : Nat) : Nat :=
  min limit (c.scaled ps / 5 ^ 12 / 2 ^ 13 + if c.transfers < c.excess ps then 1 else 0)

/-- The time of `cycles` clocks in picoseconds. -/
def durationPs (c : Clock) (cycles : Nat) : Nat := min limit (cycles * c.periodPs)

/-! ### Speed bins -/

/-- Periods below this one are faster than every speed bin of the standard. -/
def fastestBinPs : Nat := 750

/-- The speed bins: the least clock period of the bin in picoseconds and its CAS write latency in
clocks, slowest bin first. -/
def writeLatencyBins : List (Nat × Nat) :=
  [(2500, 5), (1875, 6), (1500, 7), (1250, 8), (1070, 9), (935, 10), (833, 11), (fastestBinPs, 12)]

/-- The CAS write latency in clocks: that of the first speed bin the period reaches. A period below
all bins takes the latency of the fastest one. -/
def writeLatency (c : Clock) : Nat :=
  ((writeLatencyBins.find? fun bin => bin.1 ≤ c.periodPs).map (·.2)).getD 12

/-- The clock is faster than every speed bin, so that its write latency is not from the standard. -/
def beyondBins (c : Clock) : Bool := c.periodPs < fastestBinPs

/-- The least CKE pulse width of the speed bin in picoseconds. -/
def minCkePulsePs (c : Clock) : Nat :=
  if c.megatransfers ≤ 800 then 7500 else if c.megatransfers ≤ 1333 then 5625 else 5000

end Clock

end SdramBringup
