/-
**One timing for all modules of a controller.**

A controller runs all its modules with the same timing: every minimum time is the longest among the
modules, every capability is what all of them have. Empty slots and modules with four ranks in a
slot that does not support them do not count.

Main definitions:

* `CommonTiming` — the timing of a controller;
* `CommonTiming.participants` — the modules that count, with their slots;
* `CommonTiming.ofDimms` — what the modules have in common, apart from the CAS latency;
* `CommonTiming.reconcile` — the timing of a controller, or why there is none.
-/

import SdramBringup.CasLatency
import SdramBringup.Platform

set_option relaxedAutoImplicit false
set_option autoImplicit false

namespace SdramBringup

/-- The timing of one controller. All flags hold only if there is a module. -/
structure CommonTiming where
  /-- The slowest minimum times. -/
  timing : Timing := {}
  /-- Longest clock period, zero if there is no bound. -/
  maxClockPeriod : Nat := 0
  refreshInterval : Nat := 0
  extendedTemperature : Bool := false
  /-- Number of modules that count. -/
  dimmCount : Nat := 0
  allRegistered : Bool := false
  allUnbuffered : Bool := false
  allEccCapable : Bool := false
  /-- Burst lengths that all modules support. -/
  burstLengths : BitVec 32 := 0
  /-- Control words of the first module, if all are registered. -/
  controlWords : Vector UInt8 16 := Vector.replicate 16 0
  /-- CAS latency in clocks. -/
  casLatency : Nat := 0
  /-- Additive latency in clocks. Pages are opened without posted commands, so it is zero. -/
  additiveLatency : Nat := 0
  deriving DecidableEq, Repr

namespace CommonTiming

instance : Inhabited CommonTiming := ⟨{}⟩

/-! ### The modules that count -/

/-- The modules with the numbers of their slots. -/
def numbered (dimms : List Dimm) : List (Nat × Dimm) := dimms.zipIdx.map fun p => (p.2, p.1)

/-- The modules that count, with their slots. -/
def participants (platform : Platform) (dimms : List Dimm) : List (Nat × Dimm) :=
  (numbered dimms).filter fun p => platform.takesPart p.1 p.2

/-- The warnings about modules that are ignored for their four ranks. -/
def ignored (platform : Platform) (dimms : List Dimm) (ctrl : Nat) : List Warning :=
  ((numbered dimms).filter fun p => platform.ignoresQuadRank p.1 p.2).map fun p =>
    .quadRankIgnored ctrl p.1

/-! ### What the modules have in common -/

/-- The shortest of the bounds on the clock period, zero if there is none. Neither zero nor anything
from the largest 32 bit number on bounds the period. -/
def shortestBound (bounds : List Nat) : Nat :=
  let bound := (bounds.filter (· ≠ 0)).foldl min Clock.limit
  if bound = Clock.limit then 0 else bound

/-- The latencies or burst lengths that all masks have, among those of a first mask. -/
def sharedMask (first : BitVec 32) (masks : List (BitVec 32)) : BitVec 32 :=
  masks.foldl (· &&& ·) first

/-- The CAS latencies that all modules support. -/
def sharedLatencies (ds : List Dimm) : BitVec 32 :=
  sharedMask (BitVec.allOnes 32) (ds.map (·.casLatencies))

/-- All modules are registered. -/
def onlyRegistered (ds : List Dimm) : Bool := ds.any (·.registered) && !ds.any (!·.registered)

/-- All modules are unbuffered. -/
def onlyUnbuffered (ds : List Dimm) : Bool := ds.any (!·.registered) && !ds.any (·.registered)

/-- The control words of some module differ from those of the first. -/
def wordsDiffer : List Dimm → Bool
  | [] => false
  | d :: ds => ds.any fun e => d.controlWords != e.controlWords

/-- What a list of modules has in common, apart from the CAS latency. -/
def ofDimms (ds : List Dimm) : CommonTiming where
  timing := (ds.map (·.timing)).foldl Timing.slowest {}
  maxClockPeriod := shortestBound (ds.map (·.maxClockPeriod))
  refreshInterval := (ds.map (·.refreshInterval)).foldl max 0
  extendedTemperature := ds.all (·.extendedTemperature)
  dimmCount := ds.length
  allRegistered := onlyRegistered ds
  allUnbuffered := onlyUnbuffered ds
  allEccCapable := ds.all (·.eccCapable)
  burstLengths := sharedMask 0xFF (ds.map (·.burstLengths))
  controlWords :=
    if onlyRegistered ds then (ds.head?.map (·.controlWords)).getD (Vector.replicate 16 0)
    else Vector.replicate 16 0

/-- The warnings about modules that do not go together. -/
def mismatches (ds : List Dimm) (ctrl : Nat) : List Warning :=
  if ds.any (·.registered) && ds.any (!·.registered) then [.mixedModules ctrl]
  else if onlyRegistered ds && wordsDiffer ds then [.controlWordMismatch ctrl]
  else []

/-! ### Reconciliation -/

/-- The timing of the controller with the given modules in its slots, or why there is none. Without
modules that count, all of it is zero. -/
def reconcile (clock : Clock) (dimms : List Dimm) (platform : Platform) (ctrl : Nat) :
    Noted (Except TimingError CommonTiming) := do
  Noted.warn (ignored platform dimms ctrl)
  let counted := participants platform dimms
  let ds := counted.map (·.2)
  Noted.say (counted.map fun p => .takesPart ctrl p.1 p.2)
  if ds.isEmpty then return .ok {}
  let common := ofDimms ds
  Noted.warn (mismatches ds ctrl)
  let latency ← CasLatency.select clock (sharedLatencies ds) common.timing ctrl
  return latency.map fun cl => { common with casLatency := cl }

end CommonTiming

end SdramBringup
