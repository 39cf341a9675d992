/-
**What the stages leave behind.**

The stages of a configuration pass a state on together with notes, and all but one of them cannot
fail. What they compute is easier to see without the notes: from the modules on, a configuration is
a chain of functions on the state, each of which visits the controllers one by one. This module
names the functions and tells what each of them does to a controller.

Main definitions:

* `Setup.bare` — a run for which nothing is asked;
* `Stage.imaged`, `Stage.reconciled`, `Stage.derived`, `Stage.placed`, `Stage.computed` — the state
  after a stage;
* `Stage.inputsAt` — the inputs of a controller that is placed on its own;
* `Stage.commonOf`, `Stage.registersFor` — what two of them write into a controller.

Main results:

* `Stage.value_runAll_reconcileTiming` — **the configuration from the modules on**, as a chain;
* `Stage.chipSelects_registersFor` — the chip selects of a controller, whatever else is computed;
* `Stage.exists_compute` — a controller with modules is given registers;
* `Stage.value_runAll_decodeImages` — the configuration from the images on, which can fail;
* `Session.decodeSlots_of_runFrom` — a run that succeeds ends in such a chain.
-/

import SdramBringup.BringUp
import SdramBringup.Proofs.Controllers
import SdramBringup.Proofs.TrustedImage

set_option relaxedAutoImplicit false
set_option autoImplicit false

namespace SdramBringup

variable {B : Type} [BoardHook B]

/-- A run at a data rate without images, for which nothing is asked. -/
def Setup.bare (rate : UInt32) : Setup (Option Board) where
  clock := ⟨rate⟩
  images _ _ := none
  interleave := {}
  board := none
  resetLine := .absent

namespace Stage

variable (setup : Setup B) (sizeOnly : Bool) (s : State)

/-! ### The stages without their notes -/

/-- The state with the common timing of every controller. -/
def reconciled : State := (s.eachController (reconcileController setup s.platform)).value

/-- The state with the options of every controller. -/
def derived : State :=
  let s := (s.eachController (optionsOf setup s.platform)).value
  { s with resetNeeded := needsReset s }

/-- The state with the addresses of all modules. -/
def placed : State := s.checkInterleaving.value.assignAddresses.1

/-- The state with the registers of every controller. -/
def computed : State := (s.eachController fun _ => registersOf setup s.platform sizeOnly).value

theorem value_run_reconcileTiming :
    (run setup sizeOnly reconcileTiming s).value = (reconciled setup s, none) := rfl

theorem value_run_deriveOptions :
    (run setup sizeOnly deriveOptions s).value = (derived setup s, none) := rfl

theorem value_run_placeModules :
    (run setup sizeOnly placeModules s).value = (placed s, none) := rfl

theorem value_run_computeRegisters :
    (run setup sizeOnly computeRegisters s).value = (computed setup sizeOnly s, none) := by
  cases sizeOnly <;> rfl

/-! ### Stages one after another -/

variable {setup sizeOnly s} in
/-- A stage that succeeds passes its state on to the rest. -/
theorem value_runAll_cons {stage : Stage} {rest : List Stage} {t : State}
    (h : (run setup sizeOnly stage s).value = (t, none)) :
    (runAll setup sizeOnly (stage :: rest) s).value = (runAll setup sizeOnly rest t).value := by
  rw [runAll, Noted.value_bind, h]

variable {setup sizeOnly s} in
/-- A stage that fails ends the run. -/
theorem value_runAll_cons_of_failure {stage : Stage} {rest : List Stage} {t : State} {f : Failure}
    (h : (run setup sizeOnly stage s).value = (t, some f)) :
    (runAll setup sizeOnly (stage :: rest) s).value = (t, some f) := by
  rw [runAll, Noted.value_bind, h]
  rfl

theorem value_runAll_computeRegisters :
    (runAll setup sizeOnly computeRegisters.remaining s).value =
      (computed setup sizeOnly s, none) := by
  rw [remaining, value_runAll_cons (value_run_computeRegisters setup sizeOnly s)]
  rfl

theorem value_runAll_placeModules :
    (runAll setup sizeOnly placeModules.remaining s).value =
      (computed setup sizeOnly (placed s), none) := by
  rw [remaining, value_runAll_cons (value_run_placeModules setup sizeOnly s)]
  exact value_runAll_computeRegisters setup sizeOnly (placed s)

theorem value_runAll_deriveOptions :
    (runAll setup sizeOnly deriveOptions.remaining s).value =
      (computed setup sizeOnly (placed (derived setup s)), none) := by
  rw [remaining, value_runAll_cons (value_run_deriveOptions setup sizeOnly s)]
  exact value_runAll_placeModules setup sizeOnly (derived setup s)

/-- **From the modules on, a configuration cannot fail**: it is one stage after the other. -/
theorem value_runAll_reconcileTiming :
    (runAll setup sizeOnly reconcileTiming.remaining s).value =
      (computed setup sizeOnly (placed (derived setup (reconciled setup s))), none) := by
  rw [remaining, value_runAll_cons (value_run_reconcileTiming setup sizeOnly s)]
  exact value_runAll_deriveOptions setup sizeOnly (reconciled setup s)

/-! ### The common timing -/

/-- The common timing that a controller is given: none at all if it is left out. -/
def commonOf (platform : Platform) (ctrl : Fin 3) (k : Controller) : CommonTiming :=
  (CommonTiming.reconcile setup.clock (k.installed platform.slots) platform ctrl).value.toOption.getD
    {}

@[simp] theorem platform_reconciled : (reconciled setup s).platform = s.platform :=
  State.platform_eachController s _

theorem value_reconcileController (platform : Platform) (ctrl : Fin 3) (k : Controller) :
    (reconcileController setup platform ctrl k).value =
      { k with common := commonOf setup platform ctrl k, region := {} } := by
  rw [reconcileController, Noted.value_bind, commonOf]
  cases (CommonTiming.reconcile setup.clock (k.installed platform.slots) platform ctrl).value with
  | error e => rfl
  | ok common => rfl

theorem controllers_reconciled (c : Fin 3) :
    (reconciled setup s).controllers[c] =
      if c ∈ s.platform.controllerList then
        { s.controllers[c] with
          common := commonOf setup s.platform c s.controllers[c], region := {} }
      else s.controllers[c] := by
  rw [reconciled, State.controllers_eachController, value_reconcileController]

/-! ### The options -/

@[simp] theorem platform_derived : (derived setup s).platform = s.platform :=
  State.platform_eachController s _

theorem controllers_derived (c : Fin 3) :
    (derived setup s).controllers[c] =
      if c ∈ s.platform.controllerList then
        (optionsOf setup s.platform c s.controllers[c]).value
      else s.controllers[c] :=
  State.controllers_eachController s (optionsOf setup s.platform) c

/-! ### The registers -/

/-- The registers that a controller is given: all zero if it has no modules. -/
def registersFor (platform : Platform) (k : Controller) : RegisterFile :=
  (Synthesis.compute (inputsOf setup platform k) sizeOnly).value.toOption.getD {}

@[simp] theorem platform_computed : (computed setup sizeOnly s).platform = s.platform :=
  State.platform_eachController s _

theorem controllers_computed (c : Fin 3) :
    (computed setup sizeOnly s).controllers[c] =
      if c ∈ s.platform.controllerList then
        { s.controllers[c] with
          registers := registersFor setup sizeOnly s.platform s.controllers[c] }
      else s.controllers[c] :=
  State.controllers_eachController s (fun _ => registersOf setup s.platform sizeOnly) c

theorem options_computed (c : Fin 3) :
    (computed setup sizeOnly s).controllers[c].options = s.controllers[c].options := by
  rw [controllers_computed]
  split <;> rfl

theorem region_computed (c : Fin 3) :
    (computed setup sizeOnly s).controllers[c].region = s.controllers[c].region := by
  rw [controllers_computed]
  split <;> rfl

theorem installed_computed (c : Fin 3) :
    (computed setup sizeOnly s).installed c = s.installed c := by
  rw [State.installed, platform_computed, controllers_computed]
  split <;> rfl

theorem registers_computed {c : Fin 3} (hc : c ∈ s.platform.controllerList) :
    (computed setup sizeOnly s).controllers[c].registers =
      registersFor setup sizeOnly s.platform s.controllers[c] := by
  rw [controllers_computed, if_pos hc]

/-- **The chip selects of a controller** are the same whether or not only the size of the memory is
asked for. -/
theorem chipSelects_registersFor (platform : Platform) (k : Controller) :
    (registersFor setup sizeOnly platform k).chipSelects =
      if k.common.dimmCount = 0 then Vector.replicate 4 {}
      else Synthesis.chipSelects (inputsOf setup platform k) := by
  by_cases hcount : k.common.dimmCount = 0
  · rw [registersFor, Synthesis.compute, if_pos (show (inputsOf setup platform k).common.dimmCount = 0
      from hcount), if_pos hcount]
    rfl
  · rw [registersFor, Synthesis.compute, if_neg (show
      ¬(inputsOf setup platform k).common.dimmCount = 0 from hcount), if_neg hcount]
    cases sizeOnly <;> rfl

/-- A controller that has modules is given registers, with the chip selects of its inputs. -/
theorem exists_compute {i : Synthesis.Inputs} (hcount : i.common.dimmCount ≠ 0) :
    ∃ f, (Synthesis.compute i sizeOnly).value = .ok f ∧
      f.chipSelects = Synthesis.chipSelects i := by
  rw [Synthesis.compute, if_neg hcount]
  cases sizeOnly
  · exact ⟨Synthesis.registers i, rfl, rfl⟩
  · exact ⟨Synthesis.sizing i, rfl, rfl⟩

/-! ### The inputs of the registers -/

/-- The inputs of a controller that is placed on its own, from a first address on. -/
abbrev inputsAt (setup : Setup B) (p : Platform) (base : Nat) (k : Controller) : Synthesis.Inputs :=
  inputsOf setup p (Placement.linear p.slots base k)

theorem length_inputsOf (setup : Setup B) (p : Platform) (k : Controller) :
    (inputsOf setup p k).dimms.length = p.slots := k.length_installed p

theorem ranksIn_inputsOf (setup : Setup B) (p : Platform) (k : Controller) (slot : Nat) :
    (inputsOf setup p k).ranksIn slot = Options.ranksIn p (k.installed p.slots) slot := by
  rw [Options.ranksIn, List.take_of_length_le (Nat.le_of_eq (k.length_installed p))]
  rfl

/-- The ranks that the options see in a slot in use. -/
theorem ranksIn_installed (p : Platform) (k : Controller) {j : Fin 2} (hj : j.val < p.slots) :
    Options.ranksIn p (k.installed p.slots) j = k.dimms[j].ranks := by
  rw [Options.ranksIn, List.take_of_length_le (Nat.le_of_eq (k.length_installed p)),
    ← k.getD_installed hj, List.getD_eq_getElem?_getD]
  cases (k.installed p.slots)[j.val]? <;> rfl

theorem ranksIn_first (p : Platform) (k : Controller) :
    Options.ranksIn p (k.installed p.slots) 0 = k.dimms[(0 : Fin 2)].ranks :=
  ranksIn_installed p k (j := 0) p.slots_pos

theorem ranksIn_second {p : Platform} (k : Controller) (hslots : p.slots = 2) :
    Options.ranksIn p (k.installed p.slots) 1 = k.dimms[(1 : Fin 2)].ranks :=
  ranksIn_installed p k (j := 1) (by rw [hslots]; decide)

theorem perSlot_inputsOf (setup : Setup B) (p : Platform) (k : Controller) :
    Synthesis.perSlot (inputsOf setup p k) = p.chipSelectsPerSlot := by
  rw [Synthesis.perSlot, length_inputsOf, Platform.chipSelectsPerSlot, Nat.min_eq_left p.slots_le]

theorem dimms_inputsOf_ne_nil (setup : Setup B) (p : Platform) (k : Controller) :
    (inputsOf setup p k).dimms ≠ [] := by
  have hlength := length_inputsOf setup p k
  intro hnil
  rw [hnil] at hlength
  rcases p.slots_eq with h | h <;> simp [h] at hlength

/-- A controller without a common timing is given no registers. -/
theorem registersFor_of_dimmCount {platform : Platform} {k : Controller}
    (hcount : k.common.dimmCount = 0) : registersFor setup sizeOnly platform k = {} := by
  rw [registersFor, Synthesis.compute, if_pos (show (inputsOf setup platform k).common.dimmCount = 0
    from hcount)]
  rfl

end Stage

/-! ### A run from the images on -/

/-- A slot is given the image that was read, or a blank one. -/
theorem Stage.value_readSlot (setup : Setup B) (s : State) (ctrl : Fin 3) (slot : Fin 2) :
    (readSlot setup s (ctrl, slot)).value =
      s.put ctrl (s.controllers[ctrl].withImage slot ((setup.images ctrl slot).getD .blank)) := by
  rw [readSlot]
  cases setup.images ctrl slot <;> rfl

namespace State

@[simp] theorem platform_readSlot (setup : Setup B) (s : State) (ctrl : Fin 3) (slot : Fin 2) :
    (Stage.readSlot setup s (ctrl, slot)).value.platform = s.platform := by
  rw [Stage.readSlot]
  cases setup.images ctrl slot <;> rfl

theorem platform_readSlots (setup : Setup B) (positions : List (Fin 3 × Fin 2)) (s : State) :
    (positions.foldlM (Stage.readSlot setup) s).value.platform = s.platform := by
  rw [Noted.value_foldlM]
  induction positions generalizing s with
  | nil => rfl
  | cons position rest ih => rw [List.foldl_cons, ih, platform_readSlot]

theorem platform_decodeSlots (positions : List (Fin 3 × Fin 2)) (s : State) :
    (Stage.decodeSlots positions s).value.1.platform = s.platform := by
  induction positions generalizing s with
  | nil => rfl
  | cons position rest ih =>
      obtain ⟨ctrl, slot⟩ := position
      rw [Stage.decodeSlots, Noted.value_bind]
      cases (Stage.decodeImage s.platform ctrl slot s.controllers[ctrl].images[slot]).value with
      | error f => rfl
      | ok d => exact ih _

end State

namespace Stage

variable (setup : Setup B) (sizeOnly : Bool) (s : State)

/-- The state with the images of all slots in use. -/
def imaged : State := (s.platform.positions.foldlM (readSlot setup) s).value

@[simp] theorem platform_imaged : (imaged setup s).platform = s.platform :=
  State.platform_readSlots setup s.platform.positions s

/-- Reading the images cannot fail. -/
theorem value_runAll_readImages :
    (runAll setup sizeOnly readImages.remaining s).value =
      (runAll setup sizeOnly decodeImages.remaining (imaged setup s)).value :=
  value_runAll_cons rfl

/-- **From the images on, a configuration can fail in one way**: an image is refused. -/
theorem value_runAll_decodeImages :
    (runAll setup sizeOnly decodeImages.remaining s).value =
      match (decodeSlots s.platform.positions s).value with
      | (modules, some f) => (modules, some f)
      | (modules, none) =>
          (computed setup sizeOnly (placed (derived setup (reconciled setup modules))), none) := by
  obtain ⟨⟨modules, failure⟩, hdecode⟩ :
      ∃ decoded, (run setup sizeOnly .decodeImages s).value = decoded := ⟨_, rfl⟩
  have hdecoded : (decodeSlots s.platform.positions s).value = (modules, failure) := hdecode
  rw [hdecoded, remaining]
  cases failure with
  | some f => exact value_runAll_cons_of_failure hdecode
  | none =>
      rw [value_runAll_cons hdecode]
      exact value_runAll_reconcileTiming setup sizeOnly modules

end Stage

namespace Session

theorem state_runFrom (session : Session B) (stage : Stage) (sizeOnly : Bool) :
    (session.runFrom stage sizeOnly).1.state =
      (Stage.runAll session.setup sizeOnly stage.remaining session.state).value.1 := rfl

theorem result_runFrom (session : Session B) (stage : Stage) (sizeOnly : Bool) :
    (session.runFrom stage sizeOnly).2 =
      match (Stage.runAll session.setup sizeOnly stage.remaining session.state).value.2 with
      | some f => .error f
      | none => .ok (session.runFrom stage sizeOnly).1.state.totalMemory := rfl

/-- **A run that succeeds** reads and decodes the images without failure and computes the rest from
the modules it then has. -/
theorem decodeSlots_of_runFrom {session after : Session B} {sizeOnly : Bool} {total : Nat}
    (h : session.runFrom .readImages sizeOnly = (after, .ok total)) :
    ∃ modules : State,
      (Stage.decodeSlots session.state.platform.positions
        (Stage.imaged session.setup session.state)).value = (modules, none) ∧
      after.state = Stage.computed session.setup sizeOnly
        (Stage.placed (Stage.derived session.setup (Stage.reconciled session.setup modules))) ∧
      total = after.state.totalMemory := by
  have hstate := state_runFrom session .readImages sizeOnly
  have htotal := result_runFrom session .readImages sizeOnly
  rw [h, Stage.value_runAll_readImages, Stage.value_runAll_decodeImages,
    Stage.platform_imaged] at hstate htotal
  obtain ⟨⟨modules, failure⟩, hdecoded⟩ :
      ∃ decoded, (Stage.decodeSlots session.state.platform.positions
        (Stage.imaged session.setup session.state)).value = decoded := ⟨_, rfl⟩
  rw [hdecoded] at hstate htotal
  cases failure with
  | some f => simp at htotal
  | none =>
      simp only [Except.ok.injEq] at hstate htotal
      exact ⟨modules, hdecoded, hstate, htotal⟩

/-- What a run that succeeds leaves behind is computed from some modules on its platform. -/
theorem state_runFrom_readImages {session after : Session B} {sizeOnly : Bool} {total : Nat}
    (h : session.runFrom .readImages sizeOnly = (after, .ok total)) :
    ∃ modules : State, modules.platform = session.state.platform ∧
      after.state = Stage.computed session.setup sizeOnly
        (Stage.placed (Stage.derived session.setup (Stage.reconciled session.setup modules))) ∧
      total = after.state.totalMemory := by
  obtain ⟨modules, hdecoded, hstate, htotal⟩ := decodeSlots_of_runFrom h
  refine ⟨modules, ?_, hstate, htotal⟩
  have hplatform := State.platform_decodeSlots session.state.platform.positions
    (Stage.imaged session.setup session.state)
  rwa [hdecoded, Stage.platform_imaged] at hplatform

end Session

end SdramBringup
