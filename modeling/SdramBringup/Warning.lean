/-
**Conditions that do not stop the bring-up.**

A board should come up with whatever memory can be configured safely, so most inconsistencies
degrade the configuration and are recorded. The record has room for a fixed number of warnings;
further ones are counted.

There is no warning about registers that must not be combined, since no computed registers are such a
combination: with registered modules only, commands never take two clocks, whatever the options say.
That is `Stage.illegal_registersFor`.

Main definitions:

* `Warning` — the conditions;
* `Warnings` — the record of one run, with `Warnings.push` and `Warnings.record`.
-/

import SdramBringup.Interleave
import SdramBringup.Spd.Decode
import SdramBringup.TimingError

set_option relaxedAutoImplicit false
set_option autoImplicit false

namespace SdramBringup

/-- A condition that degrades the configuration. Controllers and slots are numbered from zero. -/
inductive Warning where
  /-- The image of a slot could not be read. The slot counts as empty. -/
  | spdReadFailed (ctrl slot : Nat)
  /-- The image of a slot was refused. The slot counts as empty. -/
  | spdUnusable (ctrl slot : Nat) (error : Spd.Error)
  /-- The check of an image failed, and the platform's fallback module is assumed. -/
  | fallbackAssumed (ctrl slot : Nat)
  /-- A module with four ranks is in a slot that does not support it. -/
  | quadRankIgnored (ctrl slot : Nat)
  /-- Registered and unbuffered modules share a controller. -/
  | mixedModules (ctrl : Nat)
  /-- The control words of the registered modules differ. -/
  | controlWordMismatch (ctrl : Nat)
  /-- The clock period is shorter than the shortest one of the modules. -/
  | clockTooFast (ctrl periodPs leastPs : Nat)
  /-- The CAS latency takes longer than the standard allows. -/
  | casLatencyTooLong (ctrl latency : Nat)
  /-- The clock is faster than every speed bin. -/
  | beyondSpeedBins (periodPs : Nat)
  /-- The modules of a controller have no common timing, and it is left out. -/
  | controllerSkipped (ctrl : Nat) (error : TimingError)
  /-- The ranks of a controller do not admit the mode that was asked for. -/
  | bankModeUnsupported (ctrl : Nat) (mode : BankMode)
  /-- Interleaving among controllers was asked for and is switched off. -/
  | controllerInterleavingDisabled
  /-- The board's table does not reach the data rate, and its fastest entry is used. -/
  | boardEntryTooSlow (ctrl megatransfers : Nat)
  /-- The board's table has no entry for the module. -/
  | boardEntryMissing (ctrl : Nat)
  /-- The data initialization did not end in time. -/
  | dataInitTimeout (ctrl : Nat)
  /-- The memory exceeds what can be addressed. -/
  | memoryClamped (total clamped : Nat)
  deriving DecidableEq, Repr

/-- The warnings of one run. -/
structure Warnings where
  /-- The stored warnings, oldest first. -/
  list : List Warning := []
  /-- How many warnings found no room. -/
  dropped : Nat := 0
  deriving DecidableEq, Repr

namespace Warnings

/-- How many warnings are stored. -/
def capacity : Nat := 32

/-- One more warning: stored if there is room, otherwise counted. -/
def push (ws : Warnings) (w : Warning) : Warnings :=
  if ws.list.length < capacity then { ws with list := ws.list ++ [w] }
  else { ws with dropped := ws.dropped + 1 }

/-- Several warnings, one after another. -/
def record (ws : Warnings) (new : List Warning) : Warnings := new.foldl push ws

/-- Nothing was recorded. -/
def isEmpty (ws : Warnings) : Bool := ws.list.isEmpty && ws.dropped == 0

/-- Some stored warning has the property. -/
def any (ws : Warnings) (p : Warning → Bool) : Bool := ws.list.any p

end Warnings

end SdramBringup
