/-
**What is known about the memory subsystem.**

The bring-up fills in one record per controller: the images of its slots, the modules, their common
timing, the options, the addresses and the register values. Each stage reads what earlier stages
left and replaces its own part, so that a run can be resumed at any stage.

Main definitions:

* `Controller` — what is known about one controller;
* `State` — what is known about all of them;
* `State.eachController` — a computation for every controller in use;
* `State.totalMemory` — the size of the memory by the registers.
-/

import SdramBringup.Hardware.Eeprom
import SdramBringup.Noted
import SdramBringup.Register.File
import SdramBringup.Register.Layout
import SdramBringup.Synthesis.Inputs

set_option relaxedAutoImplicit false
set_option autoImplicit false

namespace SdramBringup

/-- What is known about one controller. -/
structure Controller where
  images : Vector Spd.Image 2 := Vector.replicate 2 .blank
  dimms : Vector Dimm 2 := Vector.replicate 2 {}
  common : CommonTiming := {}
  /-- The addresses of the controller. -/
  region : Region := {}
  options : Options := {}
  registers : RegisterFile := {}
  /-- By how many bits the bus of the controller shrinks its modules. -/
  widthShift : Nat := 0
  /-- Major and minor revision and errata level, a byte each. -/
  revision : Nat := 0
  deriving DecidableEq

namespace Controller

instance : Inhabited Controller := ⟨{}⟩

/-- The modules in the first slots. -/
def installed (c : Controller) (slots : Nat) : List Dimm := c.dimms.toList.take slots

/-- The controller with other modules in its first slots. -/
def withInstalled (c : Controller) (ds : List Dimm) : Controller :=
  { c with dimms := Vector.ofFn fun i => (ds[i.val]?).getD c.dimms[i] }

/-- The controller with another image in one slot. -/
def withImage (c : Controller) (slot : Fin 2) (image : Spd.Image) : Controller :=
  { c with images := c.images.set slot image }

/-- The controller with another module in one slot. -/
def withDimm (c : Controller) (slot : Fin 2) (d : Dimm) : Controller :=
  { c with dimms := c.dimms.set slot d }

end Controller

/-- What is known about the memory subsystem. -/
structure State where
  platform : Platform
  controllers : Vector Controller 3 := Vector.replicate 3 {}
  /-- Registered modules are installed, which are held in reset while they are programmed. -/
  resetNeeded : Bool := false
  deriving DecidableEq

namespace State

/-- Nothing is known yet. -/
def fresh (platform : Platform) : State := { platform }

/-- The state with one controller replaced. -/
def put (s : State) (c : Fin 3) (new : Controller) : State :=
  { s with controllers := s.controllers.set c new }

/-- A computation for every controller in use, in order. -/
def eachController (s : State) (f : Fin 3 → Controller → Noted Controller) : Noted State :=
  s.platform.controllerList.foldlM
    (fun s c => do
      let new ← f c s.controllers[c]
      return s.put c new)
    s

/-- The modules of a controller in use. -/
def installed (s : State) (c : Fin 3) : List Dimm := s.controllers[c].installed s.platform.slots

/-- The last unit of 16 MiB that a chip select maps, if it is enabled and maps memory. -/
def rangeEnd? (cs : ChipSelectRegisters) : Option Nat :=
  if cs.enabled && cs.bounds != Bits.noRange then some (Layout.Bounds.last.get cs.bounds) else none

/-- The chip selects of all controllers in use, in order. -/
def chipSelects (s : State) : List ChipSelectRegisters :=
  s.platform.controllerList.flatMap fun c => s.controllers[c].registers.chipSelects.toList

/-- The ends of the ranges of all chip selects that map memory, in units of 16 MiB. -/
def rangeEnds (s : State) : List Nat := s.chipSelects.filterMap rangeEnd?

/-- The size of the memory by the registers: from its first address to the highest end. -/
def totalMemory (s : State) : Nat :=
  match s.rangeEnds.max? with
  | some e => (e + 1) * 2 ^ 24 - s.platform.sdramBase
  | none => 0

end State

end SdramBringup
