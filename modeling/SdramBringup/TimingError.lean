/-
**Why a controller gets no timing.**

The modules of a controller have no common timing if the clock stands still or if no CAS latency
suits all of them. Nothing else can be wrong: an additive latency that takes longer than the way from
row to column would be a reason too, but `CommonTiming.reconcile` leaves the additive latency at zero,
which is never too long, so that there is no such error.

Main definitions:

* `TimingError` — the reasons, with `TimingError.message`.
-/

import SdramBringup.Hex

set_option relaxedAutoImplicit false
set_option autoImplicit false

namespace SdramBringup

/-- Why the modules of a controller have no common timing. -/
inductive TimingError where
  /-- The clock period is zero. -/
  | stoppedClock
  /-- The modules share no CAS latency from `least` on. -/
  | noCommonCasLatency (mask : BitVec 32) (least : Nat)
  deriving DecidableEq, Repr

/-- The reason in words. -/
def TimingError.message : TimingError → String
  | stoppedClock => "memory clock period is zero"
  | noCommonCasLatency mask least =>
      s!"no common CAS latency at or above {least} in mask " ++ Hex.marked 1 mask.toNat

end SdramBringup
