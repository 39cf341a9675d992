/-
**What a stage reads and what it writes.**

A configuration can be resumed at any stage, and that stage then finds what it and the later ones
wrote before. This module takes away from the controllers in use what is written from a stage on.
Each stage takes no notice: its outcome is the same up to what only later stages write. And it writes
nothing else: without what it writes, the state is the same before and after it.

Main definitions:

* `State.mapInUse` — every controller in use replaced;
* `State.unwritten`, `State.unplaced`, `State.undecided`, `State.untimed` — the state without the
  registers, and further without the addresses, the options and the common timing.

Main results:

* `Stage.reconciled_untimed`, `Stage.derived_undecided`, `Stage.placed_unplaced`,
  `Stage.computed_unwritten` — **a stage does not read** what it or a later stage writes;
* `Stage.untimed_reconciled`, `Stage.undecided_derived`, `Stage.unplaced_placed`,
  `Stage.unwritten_computed` — **a stage writes** nothing but what belongs to it;
* `Stage.configured_congr`, `Stage.untimed_configured` — the same of all stages together;
* `Stage.computed_configured` — registers that are computed again are those of the last time.
-/

import SdramBringup.Proofs.BringUp
import SdramBringup.Proofs.Configured
import SdramBringup.Proofs.Unplaced

set_option relaxedAutoImplicit false
set_option autoImplicit false

namespace SdramBringup

variable {B : Type} [BoardHook B]

open Placement

/-! ### What is written from a stage on -/

namespace Controller

/-- The controller without its registers. -/
def unwritten (k : Controller) : Controller := { k with registers := {} }

/-- The controller before its options are known. -/
def undecided (p : Platform) (k : Controller) : Controller := { k.unplaced p with options := {} }

/-- The controller before its common timing is known. -/
def untimed (p : Platform) (k : Controller) : Controller := { k.undecided p with common := {} }

variable (p : Platform) (k : Controller)

/-- The module in a slot in use has lost its address. -/
theorem dimms_unplaced {j : Fin 2} (hj : j.val < p.slots) :
    (k.unplaced p).dimms[j] = k.dimms[j].unplaced := by
  have hlength : j.val < (k.installed p.slots).length := by rwa [length_installed]
  rw [← getD_installed (k.unplaced p) hj, installed_unplaced, List.getD_eq_getElem?_getD,
    List.getElem?_map, List.getElem?_eq_getElem hlength]
  exact congrArg Dimm.unplaced (getElem_installed k hlength j.isLt)

theorem unplaced_unplaced : (k.unplaced p).unplaced p = k.unplaced p := by
  have hagain : (k.withInstalled ((k.installed p.slots).map Dimm.unplaced)).unplaced p =
      k.unplaced p := by
    refine k.unplaced_withInstalled p ?_ ?_
    · rw [List.length_map, length_installed]
    · rw [List.map_map]
      rfl
  exact hagain

theorem undecided_unplaced : (k.unplaced p).undecided p = k.undecided p := by
  rw [undecided, unplaced_unplaced]
  rfl

theorem untimed_undecided : (k.undecided p).untimed p = k.untimed p := by
  have h : (k.undecided p).untimed p = (k.unplaced p).untimed p := rfl
  rw [h, untimed, undecided_unplaced]
  rfl

end Controller

namespace State

/-- States with the same controllers on the same platform are the same, if both need the reset or
both do not. -/
theorem eq_of_controllers {s t : State} (hplatform : s.platform = t.platform)
    (hreset : s.resetNeeded = t.resetNeeded) (h : ∀ c : Fin 3, s.controllers[c] = t.controllers[c]) :
    s = t := by
  obtain ⟨p, ks, r⟩ := s
  obtain ⟨q, ls, r'⟩ := t
  obtain rfl : p = q := hplatform
  obtain rfl : r = r' := hreset
  have hcontrollers : ks = ls := Vector.ext fun i hi => h ⟨i, hi⟩
  rw [hcontrollers]

/-- The state with every controller in use replaced. -/
def mapInUse (s : State) (f : Controller → Controller) : State :=
  { s with
    controllers := Vector.ofFn fun c =>
      if c ∈ s.platform.controllerList then f s.controllers[c] else s.controllers[c] }

theorem controllers_mapInUse (s : State) (f : Controller → Controller) (c : Fin 3) :
    (s.mapInUse f).controllers[c] =
      if c ∈ s.platform.controllerList then f s.controllers[c] else s.controllers[c] := by
  rw [mapInUse, getElem_fin, Vector.getElem_ofFn]

/-- The state without the registers. -/
def unwritten (s : State) : State := s.mapInUse Controller.unwritten

/-- The state before the modules are placed. -/
def unplaced (s : State) : State := s.mapInUse (Controller.unplaced s.platform)

/-- The state before the options are known. -/
def undecided (s : State) : State :=
  { s.mapInUse (Controller.undecided s.platform) with resetNeeded := false }

/-- The state before the common timing is known. -/
def untimed (s : State) : State :=
  { s.mapInUse (Controller.untimed s.platform) with resetNeeded := false }

variable (s : State) (c : Fin 3)

theorem controllers_unwritten :
    s.unwritten.controllers[c] =
      if c ∈ s.platform.controllerList then s.controllers[c].unwritten else s.controllers[c] :=
  controllers_mapInUse s Controller.unwritten c

theorem controllers_unplaced :
    s.unplaced.controllers[c] =
      if c ∈ s.platform.controllerList then s.controllers[c].unplaced s.platform
      else s.controllers[c] :=
  controllers_mapInUse s (Controller.unplaced s.platform) c

theorem controllers_undecided :
    s.undecided.controllers[c] =
      if c ∈ s.platform.controllerList then s.controllers[c].undecided s.platform
      else s.controllers[c] :=
  controllers_mapInUse s (Controller.undecided s.platform) c

theorem controllers_untimed :
    s.untimed.controllers[c] =
      if c ∈ s.platform.controllerList then s.controllers[c].untimed s.platform
      else s.controllers[c] :=
  controllers_mapInUse s (Controller.untimed s.platform) c

theorem unplaced_unwritten : s.unwritten.unplaced = s.unplaced := by
  refine eq_of_controllers rfl rfl fun c => ?_
  have hplatform : s.unwritten.platform = s.platform := rfl
  rw [controllers_unplaced, controllers_unplaced, controllers_unwritten, hplatform]
  split <;> rfl

theorem undecided_unplaced : s.unplaced.undecided = s.undecided := by
  refine eq_of_controllers rfl rfl fun c => ?_
  have hplatform : s.unplaced.platform = s.platform := rfl
  rw [controllers_undecided, controllers_undecided, controllers_unplaced, hplatform]
  split
  · exact Controller.undecided_unplaced s.platform s.controllers[c]
  · rfl

theorem untimed_undecided : s.undecided.untimed = s.untimed := by
  refine eq_of_controllers rfl rfl fun c => ?_
  have hplatform : s.undecided.platform = s.platform := rfl
  rw [controllers_untimed, controllers_untimed, controllers_undecided, hplatform]
  split
  · exact Controller.untimed_undecided s.platform s.controllers[c]
  · rfl

end State

/-! ### The common timing and the options -/

@[simp] theorem State.resetNeeded_eachController (s : State)
    (f : Fin 3 → Controller → Noted Controller) :
    (s.eachController f).value.resetNeeded = s.resetNeeded := by
  rw [value_eachController]
  exact resetNeeded_foldl_put (fun c k => (f c k).value) s.platform.controllerList s

namespace Stage

variable (setup : Setup B) (s : State)

theorem commonOf_untimed (p : Platform) (c : Fin 3) (k : Controller) :
    commonOf setup p c (k.untimed p) = commonOf setup p c k := by
  have hinstalled : (k.untimed p).installed p.slots = (k.installed p.slots).map Dimm.unplaced :=
    k.installed_unplaced p
  rw [commonOf, commonOf, hinstalled, CommonTiming.value_reconcile_unplaced]

/-- **The common timing is all** that is written with it, next to ranges that are taken back. -/
theorem untimed_reconciled : (reconciled setup s).untimed = s.untimed := by
  refine State.eq_of_controllers ?_ rfl fun c => ?_
  · exact platform_reconciled setup s
  · rw [State.controllers_untimed, State.controllers_untimed, platform_reconciled,
      controllers_reconciled]
    split <;> rfl

theorem value_optionsOf (p : Platform) (c : Fin 3) (k : Controller) :
    (optionsOf setup p c k).value =
      { k with
        options := (Options.derive setup.clock k.common (k.installed p.slots) c p setup.interleave
          setup.board).value } := rfl

/-- **The options are all** that is written with them. -/
theorem undecided_derived : (derived setup s).undecided = s.undecided := by
  refine State.eq_of_controllers ?_ rfl fun c => ?_
  · exact platform_derived setup s
  · rw [State.controllers_undecided, State.controllers_undecided, platform_derived,
      controllers_derived]
    split <;> rfl

end Stage

/-! ### The check of the interleaving -/

namespace State

variable (s : State)

theorem options_unplaced (c : Fin 3) :
    s.unplaced.controllers[c].options = s.controllers[c].options := by
  rw [controllers_unplaced]
  split <;> rfl

/-- Of the module in the first slot, all but the address is the same. -/
theorem first_unplaced (c : Fin 3) {α : Type} {f : Dimm → α} (hf : ∀ d, f d.unplaced = f d) :
    f s.unplaced.controllers[c].dimms[(0 : Fin 2)] = f s.controllers[c].dimms[(0 : Fin 2)] := by
  rw [controllers_unplaced]
  split
  · rw [Controller.dimms_unplaced _ _ s.platform.slots_pos, hf]
  · rfl

theorem matchesFirst_unplaced : s.unplaced.matchesFirst = s.matchesFirst := by
  funext c
  have hsize : ∀ c : Fin 3, s.unplaced.controllers[c].dimms[(0 : Fin 2)].rankSize =
      s.controllers[c].dimms[(0 : Fin 2)].rankSize := fun c =>
    s.first_unplaced c fun _ => rfl
  have hranks : ∀ c : Fin 3, s.unplaced.controllers[c].dimms[(0 : Fin 2)].ranks =
      s.controllers[c].dimms[(0 : Fin 2)].ranks := fun c =>
    s.first_unplaced c fun _ => rfl
  have hrows : ∀ c : Fin 3, s.unplaced.controllers[c].dimms[(0 : Fin 2)].rowBits =
      s.controllers[c].dimms[(0 : Fin 2)].rowBits := fun c =>
    s.first_unplaced c fun _ => rfl
  have hcolumns : ∀ c : Fin 3, s.unplaced.controllers[c].dimms[(0 : Fin 2)].columnBits =
      s.controllers[c].dimms[(0 : Fin 2)].columnBits := fun c =>
    s.first_unplaced c fun _ => rfl
  simp only [matchesFirst, options_unplaced, hsize, hranks, hrows, hcolumns]

theorem interleavingSound_unplaced : s.unplaced.interleavingSound = s.interleavingSound := by
  have hinterleaved : s.unplaced.interleaved = s.interleaved :=
    List.filter_congr fun c _ => by rw [options_unplaced]
  have hrequired : s.unplaced.requiredControllers = s.requiredControllers := by
    rw [requiredControllers, requiredControllers, options_unplaced]
    rfl
  rw [interleavingSound, interleavingSound, matchesFirst_unplaced, hinterleaved, hrequired]

/-- The check takes nothing away but what is taken away with the options. -/
theorem undecided_checkInterleaving : s.checkInterleaving.value.undecided = s.undecided := by
  refine eq_of_controllers (platform_checkInterleaving s) rfl fun c => ?_
  rw [controllers_undecided, controllers_undecided, controllers_checkInterleaving,
    platform_checkInterleaving]
  by_cases hc : c ∈ s.platform.controllerList
  · by_cases hsound : s.interleavingSound = false
    · simp only [hc, hsound, and_self, if_true]
      rfl
    · simp only [hc, hsound, reduceCtorEq, false_and, if_true, if_false]
  · simp only [hc, and_false, if_false]

/-! ### The placement -/

theorem unplaced_placing : s.placing.state.unplaced = s.unplaced := by
  refine eq_of_controllers (platform_placing s) (resetNeeded_placing s) fun c => ?_
  rw [controllers_unplaced, controllers_unplaced, platform_placing]
  by_cases hc : c ∈ s.platform.controllerList
  · obtain ⟨base, hbase⟩ := controllers_placing s hc
    rw [if_pos hc, if_pos hc, hbase, unplaced_placedAt]
  · rw [if_neg hc, if_neg hc, controllers_placing_of_not_mem s hc]

end State

/-! ### The placement and the registers as stages -/

namespace Stage

variable (setup : Setup B) (sizeOnly : Bool) (s : State)

theorem placed_eq : placed s = s.checkInterleaving.value.placing.state := by
  rw [placed, State.assignAddresses_checkInterleaving]

/-- **The addresses are all** that is written with them, once the interleaving is checked. -/
theorem unplaced_placed : (placed s).unplaced = s.checkInterleaving.value.unplaced := by
  rw [placed_eq, State.unplaced_placing]

/-- **The registers are not computed from** those that were there before. -/
theorem computed_unwritten : computed setup sizeOnly s.unwritten = computed setup sizeOnly s := by
  have hplatform : s.unwritten.platform = s.platform := rfl
  refine State.eq_of_controllers ?_ ?_ fun c => ?_
  · exact (platform_computed setup sizeOnly s.unwritten).trans
      (platform_computed setup sizeOnly s).symm
  · exact (State.resetNeeded_eachController s.unwritten _).trans
      (State.resetNeeded_eachController s _).symm
  · rw [controllers_computed, controllers_computed, State.controllers_unwritten, hplatform]
    split <;> rfl

/-- **The registers are all** that is written with them. -/
theorem unwritten_computed : (computed setup sizeOnly s).unwritten = s.unwritten := by
  refine State.eq_of_controllers ?_ ?_ fun c => ?_
  · exact platform_computed setup sizeOnly s
  · exact State.resetNeeded_eachController s _
  · rw [State.controllers_unwritten, State.controllers_unwritten, platform_computed,
      controllers_computed]
    split <;> rfl

/-! ### What the later stages depend on -/

/-- The registers depend on nothing that is written with them. -/
theorem computed_congr {s t : State} (h : s.unwritten = t.unwritten) :
    computed setup sizeOnly s = computed setup sizeOnly t := by
  rw [← computed_unwritten, h, computed_unwritten]

theorem configured_eq_computed (s : State) :
    configured setup sizeOnly s =
      computed setup sizeOnly (placed (derived setup (reconciled setup s))) := by
  rw [configured, value_runAll_reconcileTiming]

theorem unwritten_configured (s : State) :
    (configured setup sizeOnly s).unwritten =
      (placed (derived setup (reconciled setup s))).unwritten := by
  rw [configured_eq_computed, unwritten_computed]

theorem unplaced_configured (s : State) :
    (configured setup sizeOnly s).unplaced =
      (derived setup (reconciled setup s)).checkInterleaving.value.unplaced := by
  rw [← State.unplaced_unwritten, unwritten_configured, State.unplaced_unwritten, unplaced_placed]

theorem undecided_configured (s : State) :
    (configured setup sizeOnly s).undecided = (reconciled setup s).undecided := by
  rw [← State.undecided_unplaced, unplaced_configured, State.undecided_unplaced,
    State.undecided_checkInterleaving, undecided_derived]

theorem untimed_configured (s : State) : (configured setup sizeOnly s).untimed = s.untimed := by
  rw [← State.untimed_undecided, undecided_configured, State.untimed_undecided, untimed_reconciled]

/-- **The registers of a configuration can be computed again**, for the size of the memory only or
not. -/
theorem computed_configured (sizeOnly again : Bool) (s : State) :
    computed setup again (configured setup sizeOnly s) = configured setup again s := by
  rw [computed_congr setup again (unwritten_configured setup sizeOnly s), ← configured_eq_computed]

end Stage

end SdramBringup
