/-
**Where modules are in the address map.**

Modules are placed one after another, controller by controller. Controllers that are interleaved
share one range, which starts at the first address of the memory; a controller outside of the group
follows it. Interleaving is given up altogether unless the controllers of the group are alike and
are as many as the mode asks for.

Main definitions:

* `Placement.widthShift` — how much a narrow bus shrinks the modules;
* `Placement.chain`, `Placement.span` — modules one after another, and the room they take;
* `State.checkInterleaving` — interleaving that the controllers do not admit is given up;
* `State.assignAddresses` — the addresses of all modules, and the room they take together.
-/

import SdramBringup.State

set_option relaxedAutoImplicit false
set_option autoImplicit false

namespace SdramBringup

namespace Placement

/-! ### The modules of one controller -/

/-- By how many bits the bus of a controller shrinks its modules. The width of the modules is that
of the first one, not counting error correction, for a bus of 16 bits. -/
def widthShift (o : Options) (dimms : List Dimm) : Nat :=
  match o.busWidth with
  | .bits64 => 0
  | .bits32 => if dimms.any fun d => d.dataWidth == 64 || d.dataWidth == 72 then 1 else 0
  | .bits16 =>
      let width := ((dimms.find? (!·.isEmpty)).map (·.primaryWidth)).getD 0
      if width = 64 ∨ width = 72 then 2 else if width = 32 ∨ width = 40 then 1 else 0

/-- The room that a module takes on a bus. -/
def room (shift : Nat) (d : Dimm) : Nat := d.capacity / 2 ^ shift

/-- The modules one after another. -/
def chain (shift : Nat) : Nat → List Dimm → List Dimm
  | _, [] => []
  | base, d :: ds => { d with base := base } :: chain shift (base + room shift d) ds

/-- The range that modules one after another take. -/
def span (shift base : Nat) (dimms : List Dimm) : Region := ⟨base, (dimms.map (room shift)).sum⟩

/-- A controller with its modules one after another from a first address on. -/
def linear (slots base : Nat) (c : Controller) : Controller :=
  { c.withInstalled (chain c.widthShift base (c.installed slots)) with
    region := span c.widthShift base (c.installed slots) }

/-- A controller that shares a range with others. -/
def shared (slots : Nat) (region : Region) (c : Controller) : Controller :=
  { c.withInstalled ((c.installed slots).map fun d => { d with base := region.base }) with
    region := region }

end Placement

namespace State

/-! ### Whether controllers can be interleaved -/

/-- The controllers in use that are to be interleaved. -/
def interleaved (s : State) : List (Fin 3) :=
  s.platform.controllerList.filter fun c => s.controllers[c].options.controllerMode.isSome

/-- The controller has the mode of the first one, and the module in its first slot has the geometry
of that of the first one. -/
def matchesFirst (s : State) (c : Fin 3) : Bool :=
  let d := s.controllers[c].dimms[(0 : Fin 2)]
  let first := s.controllers[(0 : Fin 3)].dimms[(0 : Fin 2)]
  d.rankSize == first.rankSize && d.ranks == first.ranks && d.rowBits == first.rowBits &&
    d.columnBits == first.columnBits &&
    s.controllers[c].options.controllerMode == s.controllers[(0 : Fin 3)].options.controllerMode

/-- How many controllers the mode of the first one asks for. Two of three controllers may be
interleaved in pairs. -/
def requiredControllers (s : State) : Nat :=
  let n := s.platform.controllers
  match s.controllers[(0 : Fin 3)].options.controllerMode with
  | none => n
  | some mode => if mode.ways = 2 then if n = 3 then 2 else n else mode.ways

/-- The controllers that are to be interleaved are alike and as many as their mode asks for. -/
def interleavingSound (s : State) : Bool :=
  s.interleaved.all s.matchesFirst &&
    (s.interleaved.length == 0 || s.interleaved.length == s.requiredControllers)

/-- The controller without interleaving. -/
def alone (c : Controller) : Controller :=
  { c with options := { c.options with controllerMode := none } }

/-- Interleaving of controllers is given up unless it is sound. -/
def checkInterleaving (s : State) : Noted State :=
  if s.interleavingSound then pure s
  else
    { value := s.platform.controllerList.foldl (fun s c => s.put c (alone s.controllers[c])) s
      warnings := [.controllerInterleavingDisabled] }

/-! ### Addresses -/

/-- Every controller in use with the shift of its bus. -/
def withShifts (s : State) : State :=
  s.platform.controllerList.foldl
    (fun s c =>
      let k := s.controllers[c]
      s.put c { k with widthShift := Placement.widthShift k.options (s.installed c) })
    s

/-- The share of one controller in an interleaved range: the chip selects that are interleaved with
each other count, by the first module of the first controller. -/
def groupShare (s : State) : Nat :=
  let first := s.controllers[(0 : Fin 3)]
  let rank := first.dimms[(0 : Fin 2)].rankSize / 2 ^ first.widthShift
  match first.options.bankMode with
  | .allFour => 4 * rank
  | .lowPair | .bothPairs => 2 * rank
  | .off | .highPair | .auto => rank

/-- Controllers being placed. -/
structure Placing where
  state : State
  /-- The first address of the interleaved range. -/
  groupBase : Nat
  /-- The end of what has been placed. -/
  stop : Nat

/-- One more controller, on its own: it follows what has been placed. -/
def Placing.alone (p : Placing) (c : Fin 3) : Placing :=
  let k := Placement.linear p.state.platform.slots p.stop p.state.controllers[c]
  { state := p.state.put c k, groupBase := k.region.stop, stop := k.region.stop }

/-- One more controller, in the interleaved range or on its own. -/
def Placing.next (share : Nat) (p : Placing) (c : Fin 3) : Placing :=
  match p.state.controllers[c].options.controllerMode with
  | some mode =>
      let region : Region := ⟨p.groupBase, mode.ways * share⟩
      let k := Placement.shared p.state.platform.slots region p.state.controllers[c]
      { p with state := p.state.put c k, stop := region.stop }
  | none => p.alone c

/-- The addresses of all modules, and the size of the memory that is assigned. -/
def assignAddresses (s : State) : State × Nat :=
  let s := s.withShifts
  let start := s.platform.sdramBase
  let before : Placing := { state := s, groupBase := start, stop := start }
  let after :=
    if s.controllers[(0 : Fin 3)].options.controllerMode.isSome then
      s.platform.controllerList.foldl (Placing.next s.groupShare) before
    else s.platform.controllerList.foldl Placing.alone before
  (after.state, after.stop - start)

end State

end SdramBringup
