/-
**The configuration from the modules on.**

From the modules on, a configuration gives every controller its timing and its options, checks the
interleaving, hands out the addresses and computes the registers. This module follows one controller
through all of it, and tells which chip selects are enabled in the end.

Main definitions:

* `Stage.prepared` — the state with the timing and the options of every controller;
* `Stage.Gathered` — a controller has the options that are gathered for its modules;
* `Stage.arranged` — the state with the addresses of all modules;
* `Stage.configured` — the state after the configuration.

Main results:

* `Stage.controllers_prepared` — a prepared controller;
* `Stage.configured_eq` — the configuration is the computation of registers for the arranged state;
* `Stage.gathered_arranged` — a controller keeps its options until its registers are computed;
* `Stage.enabled_configured` — **the chip selects that are enabled**, whichever modules count.
-/

import SdramBringup.Proofs.ChipSelect
import SdramBringup.Proofs.Options
import SdramBringup.Proofs.Stages
import SdramBringup.Proofs.Unplaced

set_option relaxedAutoImplicit false
set_option autoImplicit false

namespace SdramBringup

variable {B : Type} [BoardHook B]

open Placement

namespace Stage

/-! ### Before the placement -/

/-- The state with the timing and the options of every controller. -/
def prepared (setup : Setup B) (s : State) : State := derived setup (reconciled setup s)

variable (setup : Setup B)

@[simp] theorem platform_prepared (s : State) : (prepared setup s).platform = s.platform := by
  rw [prepared, platform_derived, platform_reconciled]

/-- A controller with its common timing. -/
def timed (p : Platform) (c : Fin 3) (k : Controller) : Controller :=
  { k with common := commonOf setup p c k, region := {} }

theorem controllers_prepared (s : State) (c : Fin 3) :
    (prepared setup s).controllers[c] =
      if c ∈ s.platform.controllerList then
        (optionsOf setup s.platform c (timed setup s.platform c s.controllers[c])).value
      else s.controllers[c] := by
  rw [prepared, controllers_derived, platform_reconciled, controllers_reconciled]
  split <;> rfl

theorem controllers_prepared_congr {s t : State} (hp : s.platform = t.platform) {c : Fin 3}
    (h : s.controllers[c] = t.controllers[c]) :
    (prepared setup s).controllers[c] = (prepared setup t).controllers[c] := by
  rw [controllers_prepared, controllers_prepared, hp, h]

/-- The common timing is that of the modules that count. -/
theorem common_prepared {s : State} {c : Fin 3} (hc : c ∈ s.platform.controllerList) :
    (prepared setup s).controllers[c].common = commonOf setup s.platform c s.controllers[c] := by
  rw [controllers_prepared, if_pos hc]
  rfl

/-- The modules are those that were there. -/
theorem installed_prepared (s : State) (c : Fin 3) :
    (prepared setup s).installed c = s.installed c := by
  rw [State.installed, platform_prepared, controllers_prepared]
  split <;> rfl

/-- The mode of a controller is what is asked for, if there is another controller. -/
theorem controllerMode_prepared (setup : Setup (Option Board)) {s : State} {c : Fin 3}
    (hc : c ∈ s.platform.controllerList) :
    (prepared setup s).controllers[c].options.controllerMode =
      if 1 < s.platform.controllers then setup.interleave.controller c else none := by
  rw [controllers_prepared, if_pos hc]
  exact Options.controllerMode_derive setup.clock _ _ c s.platform setup.interleave setup.board

/-! ### The options of a controller -/

/-- The options of a controller are those that are gathered for its modules, whatever has become of
its interleaving with other controllers. -/
def Gathered (setup : Setup B) (p : Platform) (c : Fin 3) (k : Controller) : Prop :=
  ∃ controllerMode, k.options =
    { (Options.derive setup.clock k.common (k.installed p.slots) c p setup.interleave
        setup.board).value with controllerMode }

namespace Gathered

variable {setup : Setup (Option Board)} {p : Platform} {c : Fin 3} {k : Controller}
  (h : Gathered setup p c k)
include h

theorem bankMode_eq :
    k.options.bankMode =
      (Options.bankModeOf p (k.installed p.slots) setup.interleave c).value := by
  obtain ⟨mode, hoptions⟩ := h
  rw [hoptions]
  exact Options.bankMode_derive setup.clock k.common _ c p setup.interleave setup.board

/-- The ranks admit the interleaving of the chip selects. -/
theorem supported :
    k.options.bankMode.supported p.slots (Options.ranksIn p (k.installed p.slots) 0)
      (Options.ranksIn p (k.installed p.slots) 1) p.firstSlotQuadCapable = true := by
  obtain ⟨mode, hoptions⟩ := h
  rw [hoptions]
  exact Options.supported_bankMode_derive setup.clock k.common _ c p setup.interleave setup.board

end Gathered

/-! ### The placement and the registers -/

/-- The state with the addresses of all modules, from the modules on. -/
def arranged (setup : Setup B) (s : State) : State :=
  (prepared setup s).checkInterleaving.value.placing.state

/-- The state after a configuration from the modules on. -/
def configured (setup : Setup B) (sizeOnly : Bool) (s : State) : State :=
  (runAll setup sizeOnly reconcileTiming.remaining s).value.1

section Configured

variable (setup : Setup B) (sizeOnly : Bool) (s : State)

theorem configured_eq :
    configured setup sizeOnly s = computed setup sizeOnly (arranged setup s) := by
  rw [configured, value_runAll_reconcileTiming, placed, State.assignAddresses_checkInterleaving,
    arranged, prepared]

@[simp] theorem platform_arranged : (arranged setup s).platform = s.platform := by
  rw [arranged, State.platform_placing, State.platform_checkInterleaving, platform_prepared]

@[simp] theorem platform_configured : (configured setup sizeOnly s).platform = s.platform := by
  rw [configured_eq, platform_computed, platform_arranged]

section InUse

variable {s} {c : Fin 3} (hc : c ∈ s.platform.controllerList)
include hc

theorem mem_controllerList_checked :
    c ∈ (prepared setup s).checkInterleaving.value.platform.controllerList := by
  rwa [State.platform_checkInterleaving, platform_prepared]

theorem options_configured :
    (configured setup sizeOnly s).controllers[c].options =
      (prepared setup s).checkInterleaving.value.controllers[c].options := by
  rw [configured_eq, options_computed, arranged,
    State.options_placing (mem_controllerList_checked setup hc)]

theorem registers_configured :
    (configured setup sizeOnly s).controllers[c].registers =
      registersFor setup sizeOnly s.platform (arranged setup s).controllers[c] := by
  rw [configured_eq, registers_computed, platform_arranged]
  rwa [platform_arranged]

omit hc in
theorem region_configured :
    (configured setup sizeOnly s).controllers[c].region =
      (arranged setup s).controllers[c].region := by
  rw [configured_eq, region_computed]

omit hc in
theorem installed_configured :
    (configured setup sizeOnly s).installed c = (arranged setup s).installed c := by
  rw [configured_eq, installed_computed]

/-- The common timing of a placed controller is the one it was given. -/
theorem common_arranged :
    (arranged setup s).controllers[c].common = (prepared setup s).controllers[c].common := by
  rw [arranged, State.common_placing (mem_controllerList_checked setup hc),
    State.common_checkInterleaving]

/-- The modules are those that were there, apart from their addresses. -/
theorem map_installed_arranged {α : Type} {f : Dimm → α}
    (hf : ∀ d base, f { d with base := base } = f d) :
    ((arranged setup s).installed c).map f = (s.installed c).map f := by
  rw [arranged, State.map_installed_placing (mem_controllerList_checked setup hc) hf,
    State.installed_checkInterleaving, installed_prepared]

/-- **A chip select is enabled whenever its controller has a common timing and the module in its
slot has its rank**, whether the module counts or not. -/
theorem enabled_configured (cs : Fin 4) :
    ((configured setup sizeOnly s).controllers[c].registers.chipSelects[cs]).enabled = true ↔
      (prepared setup s).controllers[c].common.dimmCount ≠ 0 ∧
        cs % s.platform.chipSelectsPerSlot <
          ((s.installed c).getD (cs / s.platform.chipSelectsPerSlot) {}).ranks := by
  rw [registers_configured setup sizeOnly hc, chipSelects_registersFor, common_arranged setup hc]
  by_cases hcount : (prepared setup s).controllers[c].common.dimmCount = 0
  · rw [if_pos hcount]
    exact iff_of_false (by simp [ChipSelectRegisters.enabled, getElem_fin]) fun h => h.1 hcount
  · have hranks := getD_congr (map_installed_arranged setup hc (f := (·.ranks)) fun _ _ => rfl)
      (cs / s.platform.chipSelectsPerSlot)
    rw [State.installed, platform_arranged] at hranks
    rw [if_neg hcount, Synthesis.getElem_chipSelects (dimms_inputsOf_ne_nil setup _ _),
      Synthesis.enabled_chipSelect, Synthesis.hasRank, decide_eq_true_eq, Synthesis.rankOf,
      Synthesis.dimmOf, Synthesis.slotOf, perSlot_inputsOf, ← hranks]
    exact (and_iff_right hcount).symm

end InUse

end Configured

/-- Neither the check of the interleaving nor the placement touches what the options are gathered
from, and of the options they touch the interleaving with other controllers only. -/
theorem gathered_arranged [BoardHook.IgnoresAddresses B] (setup : Setup B) {s : State} {c : Fin 3}
    (hc : c ∈ s.platform.controllerList) :
    Gathered setup s.platform c (arranged setup s).controllers[c] := by
  have hmodules : ((arranged setup s).controllers[c].installed s.platform.slots).map Dimm.unplaced =
      (s.controllers[c].installed s.platform.slots).map Dimm.unplaced := by
    have hplaced := map_installed_arranged setup hc (f := Dimm.unplaced) fun _ _ => rfl
    rwa [State.installed, State.installed, platform_arranged] at hplaced
  have hprepared : (prepared setup s).controllers[c].options =
      (Options.derive setup.clock (prepared setup s).controllers[c].common
        (s.controllers[c].installed s.platform.slots) c s.platform setup.interleave
        setup.board).value := by
    rw [controllers_prepared, if_pos hc]
    rfl
  rw [Gathered, ← Options.derive_unplaced, hmodules, Options.derive_unplaced,
    common_arranged setup hc, ← hprepared, arranged,
    State.options_placing (mem_controllerList_checked setup hc), State.controllers_checkInterleaving]
  generalize (prepared setup s).controllers[c] = k
  split
  · exact ⟨none, rfl⟩
  · exact ⟨k.options.controllerMode, rfl⟩

end Stage

end SdramBringup
