/-
**States that are alike but for one controller.**

Two states that differ in the modules and the timing of one controller are checked and placed alike
as long as that controller is seen to be the same: by its options, by the check of the interleaving
and by the room of its modules. The outcome is then the same if the controller is left out.

Main definitions:

* `State.AgreeExcept` — two states that are alike but for one controller;
* `State.SameRoom` — the controller takes the same room in both;
* `SameOutcome` — two configurations with the same options, addresses, registers and size.

Main results:

* `State.AgreeExcept.map_region_placing_eq` — **the same ranges** are handed out in both states;
* `State.AgreeExcept.sameRoom_of_placing` — the converse for the controller that differs;
* `State.interleavingSound_eq_of_options` — the options tell the outcome of the check;
* `State.AgreeExcept.sameOutcome` — **the same outcome** in both states.
-/

import SdramBringup.Proofs.Stages
import SdramBringup.Proofs.Placement

set_option relaxedAutoImplicit false
set_option autoImplicit false

namespace SdramBringup

variable {B : Type} [BoardHook B]

open Placement

/-! ### Two placements -/

namespace State

section Placing

variable {s : State} {c : Fin 3} (hc : c ∈ s.platform.controllerList)
  (hslots : s.platform.slots = 2)
include hc hslots

/-- Where the two modules of a controller on its own are. -/
theorem placing_of_none (hmode : s.controllers[c].options.controllerMode = none) :
    ∃ base r₀ r₁, s.rooms c = [r₀, r₁] ∧ s.placing.state.controllers[c].region = ⟨base, r₀ + r₁⟩ ∧
      (s.placing.state.installed c).map (·.base) = [base, base + r₀] := by
  obtain ⟨base, h⟩ := controllers_placing s hc
  obtain ⟨shift, hshift⟩ :
      ∃ shift, widthShift s.controllers[c].options (s.installed c) = shift := ⟨_, rfl⟩
  have hk : withShift s.platform s.controllers[c] =
      { s.controllers[c] with widthShift := shift } := by
    rw [← hshift]
    rfl
  have htwo : s.controllers[c].installed s.platform.slots =
      [s.controllers[c].dimms[(0 : Fin 2)], s.controllers[c].dimms[(1 : Fin 2)]] := by
    rw [hslots, Controller.installed_two]
  rw [hk, placedAt_of_none (by exact hmode)] at h
  refine ⟨base, room shift s.controllers[c].dimms[(0 : Fin 2)],
    room shift s.controllers[c].dimms[(1 : Fin 2)], ?_, ?_, ?_⟩
  · rw [rooms, hshift, installed, htwo]
    rfl
  · have hspan : (linear s.platform.slots base
        { s.controllers[c] with widthShift := shift }).region =
          span shift base (s.controllers[c].installed s.platform.slots) := rfl
    rw [h, hspan, htwo]
    rfl
  · have hchain := installed_linear s.platform base { s.controllers[c] with widthShift := shift }
    rw [installed, h, platform_placing, hchain]
    have hinstalled : ({ s.controllers[c] with widthShift := shift } : Controller).installed
        s.platform.slots = s.controllers[c].installed s.platform.slots := rfl
    rw [hinstalled, htwo]
    rfl

/-- Where the modules of an interleaved controller are. -/
theorem placing_of_some {mode : ControllerMode}
    (hmode : s.controllers[c].options.controllerMode = some mode) :
    ∃ base, s.placing.state.controllers[c].region = ⟨base, mode.ways * s.withShifts.groupShare⟩ ∧
      (s.placing.state.installed c).map (·.base) = [base, base] := by
  obtain ⟨base, h⟩ := controllers_placing s hc
  have hsome : (withShift s.platform s.controllers[c]).options.controllerMode = some mode := hmode
  have htwo : (withShift s.platform s.controllers[c]).installed s.platform.slots =
      [s.controllers[c].dimms[(0 : Fin 2)], s.controllers[c].dimms[(1 : Fin 2)]] := by
    rw [hslots, Controller.installed_two]
    rfl
  rw [placedAt_of_some hsome] at h
  refine ⟨base, by rw [h]; rfl, ?_⟩
  rw [installed, h, platform_placing, installed_shared, htwo]
  rfl

end Placing

/-- Two states differ in nothing but the modules and the timing of one controller. -/
structure AgreeExcept (c : Fin 3) (s t : State) : Prop where
  platform : t.platform = s.platform
  others : ∀ d, c ≠ d → t.controllers[d] = s.controllers[d]
  options : t.controllers[c].options = s.controllers[c].options

/-- The modules of a controller take the same room in two states: each of them on its own if the
controller is not interleaved, and as the share of a group if it is the first one of the group. -/
structure SameRoom (c : Fin 3) (s t : State) : Prop where
  alone : s.controllers[c].options.controllerMode = none → t.rooms c = s.rooms c
  share : c = 0 → s.controllers[c].options.controllerMode ≠ none →
    t.withShifts.groupShare = s.withShifts.groupShare

namespace AgreeExcept

variable {c : Fin 3} {s t : State} (h : AgreeExcept c s t)
include h

theorem options_eq (d : Fin 3) : t.controllers[d].options = s.controllers[d].options := by
  by_cases hd : c = d
  · subst hd
    exact h.options
  · rw [h.others d hd]

theorem withShifts_of_ne {d : Fin 3} (hd : c ≠ d) :
    t.withShifts.controllers[d] = s.withShifts.controllers[d] := by
  rw [controllers_withShifts, controllers_withShifts, h.platform, h.others d hd]

theorem rooms_of_ne {d : Fin 3} (hd : c ≠ d) : t.rooms d = s.rooms d := by
  rw [rooms, rooms, installed, installed, h.platform, h.others d hd]

section SameRoom

variable (hroom : SameRoom c s t)
  (hfirst : s.controllers[(0 : Fin 3)].options.controllerMode = none →
    ∀ d ∈ s.platform.controllerList, s.controllers[d].options.controllerMode = none)
include hroom hfirst

/-- A group has the same share in both states. -/
theorem groupShare_eq {d : Fin 3} (hd : d ∈ s.platform.controllerList)
    (hmode : s.controllers[d].options.controllerMode ≠ none) :
    s.withShifts.groupShare = t.withShifts.groupShare := by
  by_cases hc : c = 0
  · subst hc
    exact (hroom.share rfl fun hzero => hmode (hfirst hzero d hd)).symm
  · have hzero : t.withShifts.controllers[(0 : Fin 3)] = s.withShifts.controllers[(0 : Fin 3)] :=
      h.withShifts_of_ne hc
    rw [groupShare, groupShare, hzero]

/-- **The ranges are the same in both states.** -/
theorem map_region_placing_eq :
    (t.platform.controllerList.map fun d => t.placing.state.controllers[d].region, t.placing.stop) =
      (s.platform.controllerList.map fun d => s.placing.state.controllers[d].region,
        s.placing.stop) := by
  rw [map_region_placing, map_region_placing, demands, demands, h.platform]
  refine (layout_congr ?_ ?_ ?_ _ _).symm
  · intro d _
    exact congrArg Options.controllerMode (h.options_eq d).symm
  · -- a controller on its own asks for the rooms of its modules
    intro d _ hnone
    by_cases hd : c = d
    · subst hd
      rw [hroom.alone hnone]
    · rw [h.rooms_of_ne hd]
  · intro d hd hmode
    exact h.groupShare_eq hroom hfirst hd hmode

theorem region_placing_eq {d : Fin 3} (hd : d ∈ s.platform.controllerList) :
    t.placing.state.controllers[d].region = s.placing.state.controllers[d].region := by
  have hregions := (Prod.ext_iff.1 (h.map_region_placing_eq hroom hfirst)).1
  simp only [h.platform] at hregions
  exact List.map_inj_left.1 hregions d hd

/-- **The other controllers are placed alike.** -/
theorem controllers_placing_of_ne {d : Fin 3} (hne : c ≠ d) (hd : d ∈ s.platform.controllerList) :
    t.placing.state.controllers[d] = s.placing.state.controllers[d] := by
  obtain ⟨base, hs⟩ := controllers_placing s hd
  obtain ⟨base', ht⟩ := controllers_placing t (h.platform.symm ▸ hd)
  have hregion := h.region_placing_eq hroom hfirst hd
  -- where a controller is put is the base of its range
  have hbase : base' = base := by
    have := congrArg Region.base hregion
    rwa [hs, ht, base_region_placedAt, base_region_placedAt] at this
  rw [hs, ht, h.platform, h.others d hne, hbase]
  cases hmode : s.controllers[d].options.controllerMode with
  | none =>
      have hnone : (withShift s.platform s.controllers[d]).options.controllerMode = none := hmode
      rw [placedAt_of_none hnone, placedAt_of_none hnone]
  | some mode =>
      have hsome : s.controllers[d].options.controllerMode ≠ none := by
        rw [hmode]
        exact Option.some_ne_none mode
      rw [h.groupShare_eq hroom hfirst hd hsome]

/-- The modules of the controller that differs are where they are in the other state. -/
theorem bases_placing_eq (hslots : s.platform.slots = 2) (hc : c ∈ s.platform.controllerList) :
    (t.placing.state.installed c).map (·.base) = (s.placing.state.installed c).map (·.base) := by
  have hregion := h.region_placing_eq hroom hfirst hc
  have hct : c ∈ t.platform.controllerList := h.platform.symm ▸ hc
  have hslots' : t.platform.slots = 2 := h.platform.symm ▸ hslots
  cases hmode : s.controllers[c].options.controllerMode with
  | none =>
      have hmode' : t.controllers[c].options.controllerMode = none := by rw [h.options, hmode]
      obtain ⟨base, r₀, r₁, hrooms, hrange, hbases⟩ := placing_of_none hc hslots hmode
      obtain ⟨base', r₀', r₁', hrooms', hrange', hbases'⟩ := placing_of_none hct hslots' hmode'
      rw [hrange, hrange', Region.mk.injEq] at hregion
      have hsame := hroom.alone hmode
      rw [hrooms, hrooms', List.cons.injEq] at hsame
      rw [hbases, hbases', hregion.1, hsame.1]
  | some mode =>
      have hmode' : t.controllers[c].options.controllerMode = some mode := by
        rw [h.options, hmode]
      obtain ⟨base, hrange, hbases⟩ := placing_of_some hc hslots hmode
      obtain ⟨base', hrange', hbases'⟩ := placing_of_some hct hslots' hmode'
      rw [hrange, hrange', Region.mk.injEq] at hregion
      rw [hbases, hbases', hregion.1]

end SameRoom

/-- **Modules that are placed alike take the same room.** -/
theorem sameRoom_of_placing (hslots : s.platform.slots = 2) (hc : c ∈ s.platform.controllerList)
    (hregion : t.placing.state.controllers[c].region = s.placing.state.controllers[c].region)
    (hbases : (t.placing.state.installed c).map (·.base) =
      (s.placing.state.installed c).map (·.base)) : SameRoom c s t := by
  have hct : c ∈ t.platform.controllerList := h.platform.symm ▸ hc
  have hslots' : t.platform.slots = 2 := h.platform.symm ▸ hslots
  cases hmode : s.controllers[c].options.controllerMode with
  | none =>
      have hmode' : t.controllers[c].options.controllerMode = none := by rw [h.options, hmode]
      obtain ⟨base, r₀, r₁, hrooms, hrange, hs⟩ := placing_of_none hc hslots hmode
      obtain ⟨base', r₀', r₁', hrooms', hrange', ht⟩ := placing_of_none hct hslots' hmode'
      rw [hrange, hrange', Region.mk.injEq] at hregion
      rw [hs, ht] at hbases
      simp only [List.cons.injEq, and_true] at hbases
      have hfirst : r₀' = r₀ := by omega
      have hsecond : r₁' = r₁ := by omega
      refine ⟨fun _ => ?_, fun _ hsome => absurd hmode hsome⟩
      rw [hrooms, hrooms', hfirst, hsecond]
  | some mode =>
      have hmode' : t.controllers[c].options.controllerMode = some mode := by
        rw [h.options, hmode]
      obtain ⟨base, hrange, -⟩ := placing_of_some hc hslots hmode
      obtain ⟨base', hrange', -⟩ := placing_of_some hct hslots' hmode'
      rw [hrange, hrange', Region.mk.injEq] at hregion
      have hways : 0 < mode.ways := by cases mode <;> decide
      have hnone : s.controllers[c].options.controllerMode ≠ none := by
        rw [hmode]
        exact Option.some_ne_none mode
      exact ⟨fun h => absurd h hnone, fun _ _ => Nat.eq_of_mul_eq_mul_left hways hregion.2⟩

end AgreeExcept

end State

/-! ### Two checks -/

/-- Options with the same mode that are the same without it are the same. -/
theorem Options.eq_of_controllerMode {o o' : Options} (hmode : o.controllerMode = o'.controllerMode)
    (h : ({ o with controllerMode := none } : Options) = { o' with controllerMode := none }) :
    o = o' :=
  calc
    o = { ({ o with controllerMode := none } : Options) with controllerMode := o.controllerMode } :=
      rfl
    _ = { ({ o' with controllerMode := none } : Options) with
          controllerMode := o'.controllerMode } := by rw [h, hmode]
    _ = o' := rfl

namespace State

section Check

variable {c : Fin 3} {s t : State}

/-- Checks with the same outcome keep states alike. -/
theorem AgreeExcept.checkInterleaving (h : AgreeExcept c s t)
    (hsound : t.interleavingSound = s.interleavingSound) :
    AgreeExcept c s.checkInterleaving.value t.checkInterleaving.value where
  platform := by rw [platform_checkInterleaving, platform_checkInterleaving, h.platform]
  others d hd := by
    rw [controllers_checkInterleaving, controllers_checkInterleaving, hsound, h.platform,
      h.others d hd]
  options := by
    rw [controllers_checkInterleaving, controllers_checkInterleaving, hsound, h.platform]
    split
    · rw [alone, alone, h.options]
    · exact h.options

/-- A check that takes interleaving away is seen in the options. -/
theorem interleavingSound_of_options (hplatform : t.platform = s.platform)
    (hmode : ∀ d ∈ s.platform.controllerList,
      t.controllers[d].options.controllerMode = s.controllers[d].options.controllerMode)
    (hoptions : ∀ d ∈ s.platform.controllerList,
      t.checkInterleaving.value.controllers[d].options =
        s.checkInterleaving.value.controllers[d].options)
    (hsound : s.interleavingSound = true) : t.interleavingSound = true := by
  by_contra hnot
  have hfalse : t.interleavingSound = false := by simpa using hnot
  -- a check cannot fail where no controller is interleaved
  refine hnot (interleavingSound_of_none fun d hd => ?_)
  rw [hplatform] at hd
  -- without its interleaving in one state, the controller has none in the other
  have hnone := congrArg Options.controllerMode (hoptions d hd)
  rw [checkInterleaving_of_sound hsound, controllers_checkInterleaving,
    if_pos ⟨hfalse, hplatform ▸ hd⟩] at hnone
  rw [hmode d hd, ← hnone]
  rfl

/-- Checks that leave the same options have the same outcome. -/
theorem interleavingSound_eq_of_options (hplatform : t.platform = s.platform)
    (hmode : ∀ d ∈ s.platform.controllerList,
      t.controllers[d].options.controllerMode = s.controllers[d].options.controllerMode)
    (hoptions : ∀ d ∈ s.platform.controllerList,
      t.checkInterleaving.value.controllers[d].options =
        s.checkInterleaving.value.controllers[d].options) :
    t.interleavingSound = s.interleavingSound := by
  refine Bool.eq_iff_iff.2 ⟨?_, interleavingSound_of_options hplatform hmode hoptions⟩
  refine interleavingSound_of_options hplatform.symm ?_ ?_
  · intro d hd
    exact (hmode d (hplatform ▸ hd)).symm
  · intro d hd
    exact (hoptions d (hplatform ▸ hd)).symm

/-- Options that are the same after the check were the same before it. -/
theorem options_eq_of_checkInterleaving
    (hplatform : t.platform = s.platform) (hsound : t.interleavingSound = s.interleavingSound)
    (hmode : t.controllers[c].options.controllerMode = s.controllers[c].options.controllerMode)
    (hoptions : t.checkInterleaving.value.controllers[c].options =
      s.checkInterleaving.value.controllers[c].options) :
    t.controllers[c].options = s.controllers[c].options := by
  rw [controllers_checkInterleaving, controllers_checkInterleaving, hsound, hplatform] at hoptions
  split at hoptions
  · exact Options.eq_of_controllerMode hmode hoptions
  · exact hoptions

end Check

end State

/-! ### Two outcomes -/

/-- Two configurations agree in options, addresses, registers and size. -/
structure SameOutcome (s t : State) : Prop where
  options : ∀ d ∈ s.platform.controllerList, t.controllers[d].options = s.controllers[d].options
  regions : ∀ d ∈ s.platform.controllerList, t.controllers[d].region = s.controllers[d].region
  bases : ∀ d ∈ s.platform.controllerList,
    (t.installed d).map (·.base) = (s.installed d).map (·.base)
  registers : ∀ d ∈ s.platform.controllerList,
    t.controllers[d].registers = s.controllers[d].registers
  totalMemory : t.totalMemory = s.totalMemory

/-- The size of the memory is by the chip selects of the controllers in use. -/
theorem State.totalMemory_eq_of_chipSelects {s t : State} (hplatform : t.platform = s.platform)
    (h : ∀ c ∈ s.platform.controllerList,
      t.controllers[c].registers.chipSelects = s.controllers[c].registers.chipSelects) :
    t.totalMemory = s.totalMemory := by
  have hselects : t.chipSelects = s.chipSelects := by
    rw [chipSelects, chipSelects, hplatform]
    exact List.flatMap_congr fun c hc => by rw [h c hc]
  rw [totalMemory, totalMemory, rangeEnds, rangeEnds, hselects, hplatform]

theorem State.totalMemory_congr {s t : State} (hplatform : t.platform = s.platform)
    (h : ∀ d ∈ s.platform.controllerList, t.controllers[d].registers = s.controllers[d].registers) :
    t.totalMemory = s.totalMemory :=
  totalMemory_eq_of_chipSelects hplatform fun d hd => by rw [h d hd]

section Outcome

variable {setup : Setup B} {sizeOnly : Bool} {c : Fin 3} {s t : State}

/-- **Placements of states that are alike lead to the same outcome** if the controller that differs
is left out in both. -/
theorem State.AgreeExcept.sameOutcome (h : State.AgreeExcept c s t) (hroom : State.SameRoom c s t)
    (hfirst : s.controllers[(0 : Fin 3)].options.controllerMode = none →
      ∀ d ∈ s.platform.controllerList, s.controllers[d].options.controllerMode = none)
    (hslots : s.platform.slots = 2) (hc : c ∈ s.platform.controllerList)
    (hs : s.controllers[c].common.dimmCount = 0) (ht : t.controllers[c].common.dimmCount = 0) :
    SameOutcome (Stage.computed setup sizeOnly s.placing.state)
      (Stage.computed setup sizeOnly t.placing.state) := by
  have hother : ∀ d ∈ s.platform.controllerList, c ≠ d →
      t.placing.state.controllers[d] = s.placing.state.controllers[d] := fun d hd hne =>
    h.controllers_placing_of_ne hroom hfirst hne hd
  have hplatform : t.placing.state.platform = s.placing.state.platform := by
    rw [State.platform_placing, State.platform_placing, h.platform]
  have huse : ∀ {d}, d ∈ s.platform.controllerList → d ∈ t.platform.controllerList := by
    rw [h.platform]
    exact id
  have hregisters : ∀ d ∈ s.platform.controllerList,
      (Stage.computed setup sizeOnly t.placing.state).controllers[d].registers =
        (Stage.computed setup sizeOnly s.placing.state).controllers[d].registers := by
    intro d hd
    have hds : d ∈ s.placing.state.platform.controllerList := by rwa [State.platform_placing]
    have hdt : d ∈ t.placing.state.platform.controllerList := by
      rw [State.platform_placing]
      exact huse hd
    rw [Stage.registers_computed setup sizeOnly _ hdt,
      Stage.registers_computed setup sizeOnly _ hds]
    by_cases hne : c = d
    · -- the controller that differs is left out in both states
      subst hne
      rw [Stage.registersFor_of_dimmCount, Stage.registersFor_of_dimmCount]
      · rw [State.common_placing hd]
        exact hs
      · rw [State.common_placing (huse hd)]
        exact ht
    · rw [hother d hd hne, hplatform]
  constructor
  case options =>
    intro d hd
    rw [Stage.platform_computed, State.platform_placing] at hd
    rw [Stage.options_computed, Stage.options_computed, State.options_placing hd,
      State.options_placing (huse hd)]
    exact h.options_eq d
  case regions =>
    intro d hd
    rw [Stage.platform_computed, State.platform_placing] at hd
    rw [Stage.region_computed, Stage.region_computed]
    exact h.region_placing_eq hroom hfirst hd
  case bases =>
    intro d hd
    rw [Stage.platform_computed, State.platform_placing] at hd
    rw [Stage.installed_computed, Stage.installed_computed]
    by_cases hne : c = d
    · subst hne
      exact h.bases_placing_eq hroom hfirst hslots hc
    · rw [State.installed, State.installed, hother d hd hne, hplatform]
  case registers =>
    rw [Stage.platform_computed, State.platform_placing]
    exact hregisters
  case totalMemory =>
    refine State.totalMemory_congr ?_ ?_
    · rw [Stage.platform_computed, Stage.platform_computed, hplatform]
    · rw [Stage.platform_computed, State.platform_placing]
      exact hregisters

end Outcome

end SdramBringup
