/-
**Selection of the CAS latency.**

The CAS latency is a number of clocks that every module of the controller supports and that gives
the slowest of them enough time at the current clock. The lowest such latency is taken, among the
least sufficient one and the sixteen above it.

Main definitions:

* `CasLatency.least` — the least latency that is long enough;
* `CasLatency.candidates` — the latencies that are tried;
* `CasLatency.select` — the selected latency, with the warnings about it.
-/

import SdramBringup.Clock
import SdramBringup.Noted

set_option relaxedAutoImplicit false
set_option autoImplicit false

namespace SdramBringup.CasLatency

/-- The longest time from a read command to its data in any speed grade. -/
def longestPs : Nat := 20000

/-- How many latencies above the least sufficient one are tried. -/
def retries : Nat := 16

/-- The least number of clocks of the given period that covers the time `tAA`. -/
def least (periodPs tAA : Nat) : Nat := (tAA + periodPs - 1) / periodPs

/-- The latencies that are tried, lowest first. -/
def candidates (n : Nat) : List Nat := (List.range (retries + 1)).map (n + ·)

/-- The lowest latency of the mask among the candidates from `n` on. -/
def lowest? (mask : BitVec 32) (n : Nat) : Option Nat := (candidates n).find? mask.getLsbD

/-- The warnings about a selected latency. -/
def tooLong (ctrl periodPs latency : Nat) : List Warning :=
  if longestPs < latency * periodPs then [.casLatencyTooLong ctrl latency] else []

/-- The warnings about a clock that the modules are not made for. -/
def tooFast (ctrl periodPs : Nat) (timing : Timing) : List Warning :=
  if periodPs < timing.tCK then [.clockTooFast ctrl periodPs timing.tCK] else []

/-- The CAS latency of modules that share the mask of latencies and the minimum times. -/
def select (clock : Clock) (mask : BitVec 32) (timing : Timing) (ctrl : Nat) :
    Noted (Except TimingError Nat) :=
  let period := clock.periodPs
  if period = 0 then pure (.error .stoppedClock)
  else
    let n := least period timing.tAA
    match lowest? mask n with
    | none =>
        { value := .error (.noCommonCasLatency mask n), warnings := tooFast ctrl period timing }
    | some latency =>
        { value := .ok latency
          warnings := tooFast ctrl period timing ++ tooLong ctrl period latency }

end SdramBringup.CasLatency
