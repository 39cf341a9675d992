/-
**The stages of the configuration.**

A configuration is computed in six stages, from the images of the modules to the registers of the
controllers. Each stage is a function on the state; what it could not do as asked is in its notes.
Only the second stage can stop a run: when a module is present that cannot be trusted.

Main definitions:

* `Stage` — the stages, with `Stage.next` and `Stage.remaining`;
* `Setup` — what a run is given: clock, images, a board of any kind and what is asked for;
* `Stage.run` — one stage;
* `Stage.runAll` — stages one after another, up to the first failure.
-/

import SdramBringup.CommonTiming
import SdramBringup.Hardware.Program
import SdramBringup.Options.Derive
import SdramBringup.Placement
import SdramBringup.Synthesis.Registers

set_option relaxedAutoImplicit false
set_option autoImplicit false

namespace SdramBringup

/-- The stages of the configuration, in order. -/
inductive Stage where
  | readImages
  | decodeImages
  | reconcileTiming
  | deriveOptions
  | placeModules
  | computeRegisters
  | done
  deriving DecidableEq, Repr

namespace Stage

/-- The stage after a stage. Nothing comes after the end. -/
def next : Stage → Stage
  | readImages => decodeImages
  | decodeImages => reconcileTiming
  | reconcileTiming => deriveOptions
  | deriveOptions => placeModules
  | placeModules => computeRegisters
  | computeRegisters | done => done

/-- The stages from one on, without the end. -/
def remaining : Stage → List Stage
  | readImages =>
      [readImages, decodeImages, reconcileTiming, deriveOptions, placeModules, computeRegisters]
  | decodeImages => [decodeImages, reconcileTiming, deriveOptions, placeModules, computeRegisters]
  | reconcileTiming => [reconcileTiming, deriveOptions, placeModules, computeRegisters]
  | deriveOptions => [deriveOptions, placeModules, computeRegisters]
  | placeModules => [placeModules, computeRegisters]
  | computeRegisters => [computeRegisters]
  | done => []

end Stage

/-- The reset line of the memory on a board. -/
inductive ResetLine where
  /-- The board has no such line. -/
  | absent
  /-- The board has the line, and may ask for the reset by itself. -/
  | present (requested : Bool)
  deriving DecidableEq, Repr

namespace ResetLine

/-- The board asks for the reset. -/
def requested : ResetLine → Bool
  | absent => false
  | present r => r

/-- What is seen of a program on the board: without the line nothing is seen of it. -/
def shows (line : ResetLine) (e : Event) : Bool :=
  match line, e with
  | absent, .did .assertReset | absent, .did .releaseReset => false
  | _, _ => true

end ResetLine

/-- What a run is given, with a board of the given kind. -/
structure Setup (B : Type) [BoardHook B] where
  clock : Clock
  images : SpdSource
  interleave : InterleaveSource
  board : B
  resetLine : ResetLine

namespace Stage

variable {B : Type} [BoardHook B]

/-! ### Images and modules -/

/-- The image of one slot. A slot that cannot be read has a blank image. -/
def readSlot (setup : Setup B) (s : State) (position : Fin 3 × Fin 2) : Noted State :=
  let (ctrl, slot) := position
  let k := s.controllers[ctrl]
  match setup.images ctrl slot with
  | some image => pure (s.put ctrl (k.withImage slot image))
  | none =>
      { value := s.put ctrl (k.withImage slot .blank)
        warnings := [.spdReadFailed ctrl slot] }

/-- The module that an image describes. An image that is refused leaves the slot empty, unless a
module is present that cannot be trusted: then the fallback of the platform takes its place in the
first slot, and otherwise the run fails. -/
def decodeImage (platform : Platform) (ctrl slot : Nat) (image : Spd.Image) :
    Noted (Except Failure Dimm) :=
  match image.decode with
  | .ok d => { value := .ok d, log := [.decoded ctrl slot d], overflow := image.overflow }
  | .error .empty => pure (.ok {})
  | .error e =>
      if e.isFatal then
        match platform.fallbackDimm.filter fun _ => slot == 0 with
        | some d => { value := .ok d, warnings := [.fallbackAssumed ctrl slot] }
        | none => { value := .error ⟨ctrl, slot, e⟩, log := [.imageRejected ctrl slot e] }
      else { value := .ok {}, warnings := [.spdUnusable ctrl slot e] }

/-- The modules of the given slots, up to the first failure. -/
def decodeSlots : List (Fin 3 × Fin 2) → State → Noted (State × Option Failure)
  | [], s => pure (s, none)
  | (ctrl, slot) :: rest, s => do
      let k := s.controllers[ctrl]
      let decoded ← decodeImage s.platform ctrl slot k.images[slot]
      match decoded with
      | .error f => return (s, some f)
      | .ok d => decodeSlots rest (s.put ctrl (k.withDimm slot d))

/-! ### Controllers -/

/-- The common timing of a controller. Without one, the controller is left out. -/
def reconcileController (setup : Setup B) (platform : Platform) (ctrl : Fin 3) (k : Controller) :
    Noted Controller := do
  let result ← CommonTiming.reconcile setup.clock (k.installed platform.slots) platform ctrl
  match result with
  | .ok common => return { k with common, region := {} }
  | .error e =>
      Noted.warn [.controllerSkipped ctrl e]
      return { k with common := {}, region := {} }

/-- The options of a controller. -/
def optionsOf (setup : Setup B) (platform : Platform) (ctrl : Fin 3) (k : Controller) :
    Noted Controller := do
  let options ← Options.derive setup.clock k.common (k.installed platform.slots) ctrl platform
    setup.interleave setup.board
  return { k with options }

/-- Some controller in use has registered modules only. -/
def needsReset (s : State) : Bool :=
  s.platform.controllerList.any fun c => s.controllers[c].common.allRegistered

/-- What the registers of a controller are computed from. -/
def inputsOf (setup : Setup B) (platform : Platform) (k : Controller) : Synthesis.Inputs where
  clock := setup.clock
  options := k.options
  common := k.common
  region := k.region
  dimms := k.installed platform.slots
  widthShift := k.widthShift
  revision := k.revision

/-- The registers of a controller; all are zero if it has no modules. -/
def registersOf (setup : Setup B) (platform : Platform) (sizeOnly : Bool) (k : Controller) :
    Noted Controller := do
  let result ← Synthesis.compute (inputsOf setup platform k) sizeOnly
  return { k with registers := result.toOption.getD {} }

/-- The warning about a clock that is faster than every speed bin. -/
def binWarning (setup : Setup B) : List Warning :=
  if setup.clock.beyondBins then [.beyondSpeedBins setup.clock.periodPs] else []

/-! ### Stages -/

/-- One stage. Of the registers, only those that tell the size of the memory are computed if
`sizeOnly` is set. -/
def run (setup : Setup B) (sizeOnly : Bool) (stage : Stage) (s : State) :
    Noted (State × Option Failure) :=
  match stage with
  | readImages => do
      let s ← s.platform.positions.foldlM (readSlot setup) s
      return (s, none)
  | decodeImages => decodeSlots s.platform.positions s
  | reconcileTiming => do
      let s ← s.eachController (reconcileController setup s.platform)
      return (s, none)
  | deriveOptions => do
      let s ← s.eachController (optionsOf setup s.platform)
      return ({ s with resetNeeded := needsReset s }, none)
  | placeModules => do
      let s ← s.checkInterleaving
      return (s.assignAddresses.1, none)
  | computeRegisters => do
      if !sizeOnly then Noted.warn (binWarning setup)
      let s ← s.eachController fun _ => registersOf setup s.platform sizeOnly
      return (s, none)
  | done => pure (s, none)

/-- Stages one after another, up to the first failure. -/
def runAll (setup : Setup B) (sizeOnly : Bool) : List Stage → State → Noted (State × Option Failure)
  | [], s => pure (s, none)
  | stage :: rest, s => do
      let (s, failure) ← stage.run setup sizeOnly s
      match failure with
      | some f => return (s, some f)
      | none => runAll setup sizeOnly rest s

end Stage

end SdramBringup
