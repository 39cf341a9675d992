/-
**What the register values are computed from.**

Main definitions:

* `Region` — a range of addresses;
* `Synthesis.Inputs` — clock, options, timing, addresses and modules of one controller;
* `Synthesis.Revision` — the controller revisions at which an encoding changed.
-/

import SdramBringup.CommonTiming
import SdramBringup.Options

set_option relaxedAutoImplicit false
set_option autoImplicit false

namespace SdramBringup

/-- A range of addresses. -/
structure Region where
  base : Nat := 0
  size : Nat := 0
  deriving DecidableEq, Repr

/-- The first address after the range. -/
def Region.stop (r : Region) : Nat := r.base + r.size

namespace Synthesis

/-- What the register values of one controller are computed from. -/
structure Inputs where
  clock : Clock
  options : Options
  common : CommonTiming
  /-- The addresses of the controller. -/
  region : Region
  /-- The modules, slot by slot, with their addresses. -/
  dimms : List Dimm
  /-- By how many bits the narrow bus of the controller shrinks its ranks. -/
  widthShift : Nat
  /-- Major and minor revision and errata level of the controller, a byte each. -/
  revision : Nat
  deriving Repr

/-! ### Revisions -/

namespace Revision

/-- Controllers newer than this one have mode registers per chip select. -/
def uniqueModes : Nat := 0x40400

/-- From this one on the cycle of the mode registers includes the time to the next command. -/
def longModeCycle : Nat := 0x40700

/-- From this one on the clock adjustment has five bits. -/
def fineClockAdjust : Nat := 0x40701

end Revision

namespace Inputs

/-- The CAS latency in use: that of the options, if they fix one. -/
def casLatency (i : Inputs) : Nat := i.options.casLatency.getD i.common.casLatency

/-- The additive latency in use: that of the options, if they fix one. -/
def additiveLatency (i : Inputs) : Nat := i.options.additiveLatency.getD i.common.additiveLatency

/-- The clocks that cover a time. -/
def cycles (i : Inputs) (ps : Nat) : Nat := i.clock.cyclesFor ps

/-- The clocks that are added to intervals after a burst that might have been chopped. -/
def chopExtra (i : Inputs) : Nat := if i.options.chopOnTheFly then 2 else 0

/-- The controller has mode registers per chip select. -/
def uniqueModes (i : Inputs) : Bool := Revision.uniqueModes < i.revision

/-- The number of ranks in a slot. -/
def ranksIn (i : Inputs) (slot : Nat) : Nat := (i.dimms[slot]?.map (·.ranks)).getD 0

end Inputs

end Synthesis

end SdramBringup
