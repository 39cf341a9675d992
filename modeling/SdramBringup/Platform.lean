/-
**The memory subsystem of a platform.**

A platform has up to three memory controllers, each with one or two slots for modules and four chip
selects that the slots share. This module describes one, and lists its controllers and slots in the
order in which all work on them is done.

Main definitions:

* `Platform` — the static description;
* `Platform.controllers`, `Platform.slots` — the numbers of both, kept within what is supported;
* `Platform.chipSelectsPerSlot` — the chip selects of one slot;
* `Platform.ignoresQuadRank` — a module with four ranks does not fit the slot it is in;
* `Platform.takesPart` — the module in a slot takes part in the configuration.
-/

import SdramBringup.Dimm

set_option relaxedAutoImplicit false
set_option autoImplicit false

namespace SdramBringup

/-- The static description of a memory subsystem. -/
structure Platform where
  /-- Number of controllers, of which at most three are used. -/
  controllerCount : Nat
  /-- Number of slots of each controller, one or two. -/
  slotCount : Nat
  /-- The first slot is wired to all chip selects. -/
  firstSlotQuadCapable : Bool
  /-- The first register address of each controller. -/
  registerBases : Vector Nat 3
  /-- The first address of the memory. -/
  sdramBase : Nat
  /-- More than 4 GiB can be addressed. -/
  wideAddressing : Bool
  /-- The size that is reported instead of 4 GiB or more if they cannot be addressed. -/
  mappedLimit : Nat
  /-- The register that controls interleaving among three controllers, where there is one. -/
  threeWayRegister : Option Nat
  /-- The module that is assumed in the first slot if its image fails its check. -/
  fallbackDimm : Option Dimm
  deriving DecidableEq, Repr

namespace Platform

/-- One controller with a single slot, its registers at `0x1080000` and memory from 2 GiB on. -/
def singleSlot : Platform where
  controllerCount := 1
  slotCount := 1
  firstSlotQuadCapable := true
  registerBases := #v[0x01080000, 0, 0]
  sdramBase := 0x80000000
  wideAddressing := true
  mappedLimit := 0x80000000
  threeWayRegister := none
  fallbackDimm := none

/-- The number of controllers in use. -/
def controllers (p : Platform) : Nat := min p.controllerCount 3

/-- The number of slots in use at each controller. -/
def slots (p : Platform) : Nat := max 1 (min p.slotCount 2)

/-- The chip selects of one slot. -/
def chipSelectsPerSlot (p : Platform) : Nat := 4 / p.slots

/-- The controllers in use, in order. -/
def controllerList (p : Platform) : List (Fin 3) :=
  (List.finRange 3).filter fun c => c.val < p.controllers

/-- The slots in use at a controller, in order. -/
def slotList (p : Platform) : List (Fin 2) :=
  (List.finRange 2).filter fun s => s.val < p.slots

/-- All slots in use: controller by controller, slot by slot. -/
def positions (p : Platform) : List (Fin 3 × Fin 2) :=
  p.controllerList.flatMap fun c => p.slotList.map fun s => (c, s)

/-- A module with four ranks is ignored outside the first slot, and in the first slot if that has
too few chip selects and is not wired to those of the others. -/
def ignoresQuadRank (p : Platform) (slot : Nat) (d : Dimm) : Bool :=
  d.isQuadRank && (slot != 0 || (p.chipSelectsPerSlot < 4 && !p.firstSlotQuadCapable))

/-- The slot holds a module, and the module is not ignored. -/
def takesPart (p : Platform) (slot : Nat) (d : Dimm) : Bool :=
  !d.isEmpty && !p.ignoresQuadRank slot d

end Platform

end SdramBringup
