/-
**Bringing up the memory.**

A session keeps the state of the configuration from run to run, so that it can be inspected, changed
and resumed. The whole bring-up reads the revisions of the controllers, computes the configuration,
programs every controller that has modules, and reports the memory that can be used.

Main definitions:

* `Session` — a setup, the state, and the warnings and messages so far;
* `Session.runFrom` — the stages from one on, and the size of the memory;
* `Session.size` — the size of the memory without programming the controllers;
* `Completion` — the report of a bring-up;
* `Session.bringUp` — the whole bring-up, as a program.
-/

import SdramBringup.Programming
import SdramBringup.Stage

set_option relaxedAutoImplicit false
set_option autoImplicit false

namespace SdramBringup

/-- A configuration in progress. -/
structure Session (B : Type) [BoardHook B] where
  setup : Setup B
  state : State
  warnings : Warnings := {}
  /-- The messages so far, oldest first. -/
  log : List LogLine := []
  /-- What a build with overflow checks has stopped at, if it has. -/
  overflow : Option Spd.Overflow := none

variable {B : Type} [BoardHook B]

namespace Session

/-- A session in which nothing is known yet. -/
def start (setup : Setup B) (platform : Platform) : Session B := { setup, state := .fresh platform }

/-- The session that has forgotten its state and its warnings, apart from the platform. -/
def restart (s : Session B) : Session B :=
  { s with state := .fresh s.state.platform, warnings := {} }

/-- The session after a computation on its state. -/
def take (s : Session B) (n : Noted State) : Session B :=
  { s with
    state := n.value
    warnings := s.warnings.record n.warnings
    log := s.log ++ n.log
    overflow := s.overflow.or n.overflow }

/-- The stages from one on: the session after them, and the size of the memory by its registers or
the failure that stopped them. -/
def runFrom (s : Session B) (stage : Stage) (sizeOnly : Bool) :
    Session B × Except Failure Nat :=
  let ran := Stage.runAll s.setup sizeOnly stage.remaining s.state
  let s := s.take { ran with value := ran.value.1 }
  (s, match ran.value.2 with
    | some f => .error f
    | none => .ok s.state.totalMemory)

/-- The size of the memory, computed anew. -/
def size (s : Session B) : Session B × Except Failure Nat :=
  s.restart.runFrom .readImages true

end Session

/-! ### Programming the controllers -/

/-- The report of a bring-up. -/
structure Completion where
  /-- Memory that can be used, in bytes. -/
  totalMemory : Nat
  progress : Vector Progress 3
  warnings : Warnings
  /-- Why no controller was programmed. -/
  failure : Option Failure
  deriving DecidableEq, Repr

namespace BringUp

/-- The revisions of the controllers in use. -/
def readRevisions : List (Fin 3) → State → Program State
  | [], s => pure s
  | c :: rest, s => do
      let revision ← Programming.readRevision s.platform.registerBases[c]
      readRevisions rest (s.put c { s.controllers[c] with revision })

/-- The controllers in use that have modules. -/
def programmable (s : State) : List (Fin 3) :=
  s.platform.controllerList.filter fun c => s.controllers[c].common.dimmCount != 0

/-- One step of programming on the given controllers: how far all of them have come, and the
warnings about it. -/
def programEach (clock : Clock) (s : State) (step : ProgramStep) :
    List (Fin 3) → Vector Progress 3 → Program (Vector Progress 3 × List Warning)
  | [], progress => pure (progress, [])
  | c :: rest, progress => do
      let p ← Programming.program s.platform.registerBases[c] s.controllers[c].registers clock step
        s.platform.threeWayRegister
      let (progress, warnings) ← programEach clock s step rest (progress.set c p.progress)
      return (progress, (if p.initialized then [] else [.dataInitTimeout c]) ++ warnings)

/-- Interleaving among three controllers is switched on if the first controller is interleaved with
two others and the platform has the register for it. -/
def switchThreeWay (s : State) : Program Unit :=
  match s.controllers[(0 : Fin 3)].options.controllerMode, s.platform.threeWayRegister with
  | some mode, some address =>
      if mode.ways = 3 then Programming.enableThreeWay address mode else pure ()
  | _, _ => pure ()

/-- All controllers that have modules: in reset while their registers are written if that is needed,
and otherwise one after another. -/
def programControllers (setup : Setup B) (s : State) :
    Program (Vector Progress 3 × List Warning) := do
  let untouched := Vector.replicate 3 Progress.untouched
  if s.resetNeeded || setup.resetLine.requested then
    Program.perform .assertReset
    let (progress, ws) ← programEach setup.clock s .writeOnly (programmable s) untouched
    Program.perform .releaseReset
    let (progress, ws') ← programEach setup.clock s .enableOnly (programmable s) progress
    return (progress, ws ++ ws')
  else programEach setup.clock s .full (programmable s) untouched

/-- The memory that can be used of what is there. -/
def usable (platform : Platform) (total : Nat) : Noted Nat :=
  if !platform.wideAddressing && 2 ^ 32 ≤ total then
    { value := platform.mappedLimit, warnings := [.memoryClamped total platform.mappedLimit] }
  else pure total

end BringUp

namespace Session

/-- The configuration of a bring-up: first the size, then all registers. -/
def configure (s : Session B) : Session B × Except Failure Nat :=
  match s.runFrom .readImages true with
  | (s, .error f) => (s, .error f)
  | (s, .ok _) => s.runFrom .computeRegisters false

/-- The whole bring-up: the session after it, whose warnings have gone into the report. -/
def bringUp (s : Session B) : Program (Session B × Completion) := do
  let s := s.restart
  let state ← BringUp.readRevisions s.state.platform.controllerList s.state
  match configure { s with state } with
  | (s, .error f) =>
      return ({ s with warnings := {}, log := s.log ++ [.givenUp f] },
        ⟨0, Vector.replicate 3 .untouched, s.warnings, some f⟩)
  | (s, .ok total) => do
      BringUp.switchThreeWay s.state
      let (progress, ws) ← BringUp.programControllers s.setup s.state
      let memory := BringUp.usable s.state.platform total
      return ({ s with warnings := {}, log := s.log ++ [.memorySize memory.value] },
        ⟨memory.value, progress, (s.warnings.record ws).record memory.warnings, none⟩)

end Session

end SdramBringup
