/-
**Where the interleaved group is.**

Interleaved controllers share one range, and every other controller has a range of its own. The
placement keeps two cursors for this, one for the base of the group and one for the end of what has
been placed, and a controller on its own moves both. As long as the group comes first this is
harmless. But of three controllers the first and the last may be the group, and then the one between
them moves the base of the group: its two members end up with ranges that have nothing in common.

Main definitions:

* `State.ranges` — the range of the group and those of the other controllers;
* `State.GroupPlaced` — **the promise**: one range for the group, and ranges that divide the memory;
* `State.Straddled` — a controller with memory stands between the members of the group.

Main results:

* `State.interleaved_of_sound` — the groups that the check leaves over;
* `State.groupPlaced_assignAddresses_iff` — **the promise is kept exactly when no controller stands
  between the members of the group**, or none of them has any memory.
-/

import SdramBringup.Proofs.Placement

set_option relaxedAutoImplicit false
set_option autoImplicit false

namespace SdramBringup

open Placement

theorem ControllerMode.ways_eq (mode : ControllerMode) :
    mode.ways = 2 ∨ mode.ways = 3 ∨ mode.ways = 4 := by
  cases mode <;> decide

namespace Platform

theorem controllerList_of_two {p : Platform} (h : p.controllers = 2) :
    p.controllerList = [0, 1] := by
  rw [controllerList, h]
  rfl

theorem controllerList_of_three {p : Platform} (h : p.controllers = 3) :
    p.controllerList = [0, 1, 2] := by
  rw [controllerList, h]
  rfl

end Platform

namespace State

/-! ### The promise -/

/-- The controllers in use that are not interleaved. -/
def separate (s : State) : List (Fin 3) :=
  s.platform.controllerList.filter fun c => s.controllers[c].options.controllerMode.isNone

/-- One range for the interleaved controllers together, and one for each of the others. -/
def ranges (s : State) : List Region :=
  (s.interleaved.take 1 ++ s.separate).map fun c => s.controllers[c].region

/-- Interleaved controllers have one range, which together with those of the others divides the
memory of the given size among them. -/
structure GroupPlaced (s : State) (total : Nat) : Prop where
  together : ∀ c ∈ s.interleaved, ∀ d ∈ s.interleaved,
    s.controllers[c].region = s.controllers[d].region
  divided : Region.Partition s.platform.sdramBase (s.platform.sdramBase + total) s.ranges

/-- The first and the last of three controllers are interleaved, the one between them is not, and
the group or the controller between its members takes some room. -/
def Straddled (s : State) : Prop :=
  s.interleaved = [0, 2] ∧ (0 < s.withShifts.groupShare ∨ 0 < (s.rooms 1).sum)

instance (s : State) : Decidable s.Straddled := inferInstanceAs (Decidable (_ ∧ _))

/-! ### The groups that the check leaves over -/

/-- **The groups of two or three controllers**: the first two, the first and the last of three, or
all three, as many as their common mode asks for. -/
theorem interleaved_of_sound {s : State} (h : s.interleavingSound = true)
    (hcount : 2 ≤ s.platform.controllers) (hne : s.interleaved ≠ []) :
    ∃ mode : ControllerMode, s.controllers[(0 : Fin 3)].options.controllerMode = some mode ∧
      (∀ c ∈ s.interleaved, s.controllers[c].options.controllerMode = some mode) ∧
      (s.interleaved = [0, 1] ∧ mode.ways = 2 ∨
        s.platform.controllers = 3 ∧ s.interleaved = [0, 2] ∧ mode.ways = 2 ∨
        s.platform.controllers = 3 ∧ s.interleaved = [0, 1, 2] ∧ mode.ways = 3) := by
  obtain ⟨hmatch, hlength⟩ := Bool.and_eq_true_iff.1 h
  have hsame : ∀ c ∈ s.interleaved,
      s.controllers[c].options.controllerMode =
        s.controllers[(0 : Fin 3)].options.controllerMode := by
    intro c hc
    have hfirst := List.all_eq_true.1 hmatch c hc
    simp only [matchesFirst, Bool.and_eq_true, beq_iff_eq] at hfirst
    exact hfirst.2
  obtain ⟨c, hc⟩ := List.exists_mem_of_ne_nil _ hne
  obtain ⟨mode, hmode⟩ := Option.isSome_iff_exists.1 (mem_interleaved.1 hc).2
  have hzero : s.controllers[(0 : Fin 3)].options.controllerMode = some mode :=
    (hsame c hc).symm.trans hmode
  have hrequired : s.interleaved.length = s.requiredControllers := by
    have hpos : s.interleaved.length ≠ 0 := fun hlen => hne (List.length_eq_zero_iff.1 hlen)
    simpa [hpos] using hlength
  refine ⟨mode, hzero, fun c hc => (hsame c hc).trans hzero, ?_⟩
  have hle : s.platform.controllers ≤ 3 := Nat.min_le_right _ _
  rw [requiredControllers, hzero] at hrequired
  simp only at hrequired
  -- the first controller is interleaved, and any of the others may be
  have hinterleaved : s.interleaved = s.platform.controllerList.filter fun c =>
    s.controllers[c].options.controllerMode.isSome := rfl
  rcases (by omega : s.platform.controllers = 2 ∨ s.platform.controllers = 3) with hn | hn
  · rw [Platform.controllerList_of_two hn] at hinterleaved
    cases h1 : s.controllers[(1 : Fin 3)].options.controllerMode.isSome <;>
      rw [hinterleaved] at hrequired ⊢ <;>
      simp [hzero, h1, hn] at hrequired ⊢ <;>
      rcases mode.ways_eq with hways | hways | hways <;> simp [hways] at hrequired ⊢
  · rw [Platform.controllerList_of_three hn] at hinterleaved
    cases h1 : s.controllers[(1 : Fin 3)].options.controllerMode.isSome <;>
      cases h2 : s.controllers[(2 : Fin 3)].options.controllerMode.isSome <;>
      rw [hinterleaved] at hrequired ⊢ <;>
      simp [hzero, h1, h2, hn] at hrequired ⊢ <;>
      rcases mode.ways_eq with hways | hways | hways <;> simp [hways] at hrequired ⊢

/-- The controllers on their own are those that are not in the group. -/
theorem separate_eq (s : State) :
    s.separate = s.platform.controllerList.filter fun c => decide (c ∉ s.interleaved) := by
  refine List.filter_congr fun c hc => ?_
  have hmem : c ∈ s.interleaved ↔ s.controllers[c].options.controllerMode.isSome = true :=
    mem_interleaved.trans (and_iff_right hc)
  cases hmode : s.controllers[c].options.controllerMode <;> simp_all

theorem mode_eq_none_of_not_mem {s : State} {c : Fin 3} (hc : c ∈ s.platform.controllerList)
    (h : c ∉ s.interleaved) : s.controllers[c].options.controllerMode = none := by
  by_contra hmode
  exact h (mem_interleaved.2 ⟨hc, Option.isSome_iff_ne_none.2 hmode⟩)

/-! ### The placed state -/

theorem interleaved_placing (s : State) : s.placing.state.interleaved = s.interleaved := by
  rw [interleaved, interleaved, platform_placing]
  exact List.filter_congr fun c hc => by rw [options_placing hc]

theorem ranges_placing (s : State) :
    s.placing.state.ranges =
      (s.interleaved.take 1 ++ s.separate).map fun c => s.placing.state.controllers[c].region := by
  rw [ranges, separate_eq, separate_eq, interleaved_placing, platform_placing]

/-- A group that shares a range, and ranges that tile the memory, keep the promise. -/
theorem groupPlaced_of_tiles {s : State}
    (htogether : ∀ c ∈ s.interleaved, ∀ d ∈ s.interleaved,
      s.placing.state.controllers[c].region = s.placing.state.controllers[d].region)
    (htiles : Region.Tiles s.platform.sdramBase
      ((s.interleaved.take 1 ++ s.separate).map fun c => s.placing.state.controllers[c].region)
      s.placing.stop) :
    s.placing.state.GroupPlaced (s.placing.stop - s.platform.sdramBase) where
  together := by rwa [interleaved_placing]
  divided := by
    rw [platform_placing, Nat.add_sub_cancel' htiles.le, ranges_placing]
    exact htiles.partition

/-- Without a group the promise is kept. -/
theorem groupPlaced_of_interleaved_nil {s : State} (h : s.interleaved = []) :
    s.placing.state.GroupPlaced (s.placing.stop - s.platform.sdramBase) := by
  refine groupPlaced_of_tiles (by simp [h]) ?_
  rw [separate_eq, h, List.take_nil, List.nil_append, List.filter_eq_self.2 (by simp)]
  exact tiles_placing fun c hc => mode_eq_none_of_not_mem hc (by simp [h])

/-! ### The groups -/

section Group

variable {s : State} {mode : ControllerMode}

/-- The ranges of three controllers and the end of the last one, by their demands. -/
theorem regions_of_three (hcount : s.platform.controllers = 3) :
    [s.placing.state.controllers[(0 : Fin 3)].region,
        s.placing.state.controllers[(1 : Fin 3)].region,
        s.placing.state.controllers[(2 : Fin 3)].region] =
        (layout s.withShifts.groupShare s.platform.sdramBase s.platform.sdramBase
          [(s.controllers[(0 : Fin 3)].options.controllerMode, (s.rooms 0).sum),
            (s.controllers[(1 : Fin 3)].options.controllerMode, (s.rooms 1).sum),
            (s.controllers[(2 : Fin 3)].options.controllerMode, (s.rooms 2).sum)]).1 ∧
      s.placing.stop =
        (layout s.withShifts.groupShare s.platform.sdramBase s.platform.sdramBase
          [(s.controllers[(0 : Fin 3)].options.controllerMode, (s.rooms 0).sum),
            (s.controllers[(1 : Fin 3)].options.controllerMode, (s.rooms 1).sum),
            (s.controllers[(2 : Fin 3)].options.controllerMode, (s.rooms 2).sum)]).2 := by
  have h := s.map_region_placing
  rw [demands, Platform.controllerList_of_three hcount] at h
  exact Prod.ext_iff.1 h

/-- The ranges of two controllers, by their demands. -/
theorem regions_of_two (hcount : s.platform.controllers = 2) :
    [s.placing.state.controllers[(0 : Fin 3)].region,
        s.placing.state.controllers[(1 : Fin 3)].region] =
        (layout s.withShifts.groupShare s.platform.sdramBase s.platform.sdramBase
          [(s.controllers[(0 : Fin 3)].options.controllerMode, (s.rooms 0).sum),
            (s.controllers[(1 : Fin 3)].options.controllerMode, (s.rooms 1).sum)]).1 ∧
      s.placing.stop =
        (layout s.withShifts.groupShare s.platform.sdramBase s.platform.sdramBase
          [(s.controllers[(0 : Fin 3)].options.controllerMode, (s.rooms 0).sum),
            (s.controllers[(1 : Fin 3)].options.controllerMode, (s.rooms 1).sum)]).2 := by
  have h := s.map_region_placing
  rw [demands, Platform.controllerList_of_two hcount] at h
  exact Prod.ext_iff.1 h

/-- The only two controllers are the group. -/
theorem groupPlaced_of_both (hcount : s.platform.controllers = 2) (hgroup : s.interleaved = [0, 1])
    (hmode : ∀ c ∈ s.interleaved, s.controllers[c].options.controllerMode = some mode) :
    s.placing.state.GroupPlaced (s.placing.stop - s.platform.sdramBase) := by
  have hzero : s.controllers[(0 : Fin 3)].options.controllerMode = some mode :=
    hmode 0 (by simp [hgroup])
  have hone : s.controllers[(1 : Fin 3)].options.controllerMode = some mode :=
    hmode 1 (by simp [hgroup])
  have hseparate : s.separate = [] := by
    rw [separate_eq, hgroup, Platform.controllerList_of_two hcount]
    rfl
  obtain ⟨hregions, hstop⟩ := regions_of_two hcount
  simp only [hzero, hone, layout_some, layout_nil, List.cons.injEq, and_true] at hregions hstop
  refine groupPlaced_of_tiles ?_ ?_
  · simp [hgroup, hregions]
  · simp [hgroup, hseparate, hregions, hstop]

/-- The group of the first two of three controllers: the third one follows it. -/
theorem groupPlaced_of_first_two (hcount : s.platform.controllers = 3)
    (hgroup : s.interleaved = [0, 1])
    (hmode : ∀ c ∈ s.interleaved, s.controllers[c].options.controllerMode = some mode) :
    s.placing.state.GroupPlaced (s.placing.stop - s.platform.sdramBase) := by
  have hzero : s.controllers[(0 : Fin 3)].options.controllerMode = some mode :=
    hmode 0 (by simp [hgroup])
  have hone : s.controllers[(1 : Fin 3)].options.controllerMode = some mode :=
    hmode 1 (by simp [hgroup])
  have htwo : s.controllers[(2 : Fin 3)].options.controllerMode = none :=
    mode_eq_none_of_not_mem (c := 2) (by simp [Platform.controllerList_of_three hcount])
      (by simp [hgroup])
  have hseparate : s.separate = [2] := by
    rw [separate_eq, hgroup, Platform.controllerList_of_three hcount]
    rfl
  obtain ⟨hregions, hstop⟩ := regions_of_three hcount
  simp only [hzero, hone, htwo, layout_some, layout_none, layout_nil, List.cons.injEq, and_true]
    at hregions hstop
  refine groupPlaced_of_tiles ?_ ?_
  · simp [hgroup, hregions]
  · simp [hgroup, hseparate, hregions, hstop]

/-- All three controllers are the group. -/
theorem groupPlaced_of_all (hcount : s.platform.controllers = 3)
    (hgroup : s.interleaved = [0, 1, 2])
    (hmode : ∀ c ∈ s.interleaved, s.controllers[c].options.controllerMode = some mode) :
    s.placing.state.GroupPlaced (s.placing.stop - s.platform.sdramBase) := by
  have hzero : s.controllers[(0 : Fin 3)].options.controllerMode = some mode :=
    hmode 0 (by simp [hgroup])
  have hone : s.controllers[(1 : Fin 3)].options.controllerMode = some mode :=
    hmode 1 (by simp [hgroup])
  have htwo : s.controllers[(2 : Fin 3)].options.controllerMode = some mode :=
    hmode 2 (by simp [hgroup])
  have hseparate : s.separate = [] := by
    rw [separate_eq, hgroup, Platform.controllerList_of_three hcount]
    rfl
  obtain ⟨hregions, hstop⟩ := regions_of_three hcount
  simp only [hzero, hone, htwo, layout_some, layout_nil, List.cons.injEq, and_true]
    at hregions hstop
  refine groupPlaced_of_tiles ?_ ?_
  · simp [hgroup, hregions]
  · simp [hgroup, hseparate, hregions, hstop]

/-- **The group of the first and the last of three controllers** keeps the promise only if all of
them are empty: the controller between them pushes the last one away. -/
theorem groupPlaced_of_first_and_last_iff (hcount : s.platform.controllers = 3)
    (hgroup : s.interleaved = [0, 2])
    (hmode : ∀ c ∈ s.interleaved, s.controllers[c].options.controllerMode = some mode)
    (hways : 0 < mode.ways) :
    s.placing.state.GroupPlaced (s.placing.stop - s.platform.sdramBase) ↔
      s.withShifts.groupShare = 0 ∧ (s.rooms 1).sum = 0 := by
  have hzero : s.controllers[(0 : Fin 3)].options.controllerMode = some mode :=
    hmode 0 (by simp [hgroup])
  have htwo : s.controllers[(2 : Fin 3)].options.controllerMode = some mode :=
    hmode 2 (by simp [hgroup])
  have hone : s.controllers[(1 : Fin 3)].options.controllerMode = none :=
    mode_eq_none_of_not_mem (c := 1) (by simp [Platform.controllerList_of_three hcount])
      (by simp [hgroup])
  have hseparate : s.separate = [1] := by
    rw [separate_eq, hgroup, Platform.controllerList_of_three hcount]
    rfl
  obtain ⟨hregions, hstop⟩ := regions_of_three hcount
  simp only [hzero, hone, htwo, layout_some, layout_none, layout_nil, List.cons.injEq, and_true]
    at hregions hstop
  obtain ⟨hfirst, hmiddle, hlast⟩ := hregions
  constructor
  · intro h
    -- the group's members have one base, so what stands between the bases is empty
    have hbase : s.placing.state.controllers[(0 : Fin 3)].region =
        s.placing.state.controllers[(2 : Fin 3)].region :=
      h.together 0 (by simp [interleaved_placing, hgroup]) 2 (by simp [interleaved_placing, hgroup])
    rw [hfirst, hlast, Region.mk.injEq] at hbase
    have hsize : mode.ways * s.withShifts.groupShare = 0 := by omega
    have hshare := (Nat.mul_eq_zero.1 hsize).resolve_left (Nat.ne_of_gt hways)
    exact ⟨hshare, by omega⟩
  · rintro ⟨hshare, hroom⟩
    simp only [hshare, hroom, Nat.mul_zero, Nat.add_zero] at hfirst hmiddle hlast hstop
    refine groupPlaced_of_tiles ?_ ?_
    · simp [hgroup, hfirst, hlast]
    · simp [hgroup, hseparate, hfirst, hmiddle, hstop]

end Group

/-! ### The promise kept and broken -/

/-- For a state that the check lets pass. -/
theorem groupPlaced_placing_iff {s : State} (h : s.interleavingSound = true)
    (hcount : 2 ≤ s.platform.controllers) :
    s.placing.state.GroupPlaced (s.placing.stop - s.platform.sdramBase) ↔ ¬s.Straddled := by
  by_cases hnil : s.interleaved = []
  · exact iff_of_true (groupPlaced_of_interleaved_nil hnil) (by simp [Straddled, hnil])
  obtain ⟨mode, -, hmode, hgroup⟩ := interleaved_of_sound h hcount hnil
  have hle : s.platform.controllers ≤ 3 := Nat.min_le_right _ _
  rcases hgroup with ⟨hgroup, -⟩ | ⟨hthree, hgroup, hways⟩ | ⟨hthree, hgroup, -⟩
  · refine iff_of_true ?_ (by simp [Straddled, hgroup])
    rcases (by omega : s.platform.controllers = 2 ∨ s.platform.controllers = 3) with hn | hn
    · exact groupPlaced_of_both hn hgroup hmode
    · exact groupPlaced_of_first_two hn hgroup hmode
  · rw [groupPlaced_of_first_and_last_iff hthree hgroup hmode (by omega), Straddled]
    simp only [hgroup, true_and]
    omega
  · exact iff_of_true (groupPlaced_of_all hthree hgroup hmode) (by simp [Straddled, hgroup])

/-- **The promise is kept exactly when no controller stands between the members of the group**: for
two or three controllers, whatever is asked for and whatever modules they have, the interleaved
controllers share one range after the check and the placement, and the ranges divide the memory,
unless the group is the first and the last of three controllers and there is any memory in the group
or between its members. -/
theorem groupPlaced_assignAddresses_iff (s : State) (hcount : 2 ≤ s.platform.controllers) :
    s.checkInterleaving.value.assignAddresses.1.GroupPlaced
        s.checkInterleaving.value.assignAddresses.2 ↔
      ¬s.checkInterleaving.value.Straddled := by
  rw [assignAddresses_checkInterleaving, ← platform_checkInterleaving s]
  refine groupPlaced_placing_iff (interleavingSound_checkInterleaving s) ?_
  rwa [platform_checkInterleaving]

/-- Three controllers with a module of 1 GiB each, and what is asked of them. -/
def threeControllers (m₀ m₁ m₂ : Option ControllerMode) : State :=
  let d : Dimm := { ranks := 1, rankSize := 2 ^ 30, capacity := 2 ^ 30 }
  let k (mode : Option ControllerMode) : Controller :=
    { dimms := #v[d, {}], options := { controllerMode := mode } }
  { platform := { Platform.singleSlot with controllerCount := 3 }
    controllers := #v[k m₀, k m₁, k m₂] }

/-- A controller after the group does no harm. -/
theorem groupPlaced_threeControllers :
    2 ≤ (threeControllers (some .page) (some .page) none).platform.controllers ∧
      (threeControllers (some .page) (some .page)
          none).checkInterleaving.value.assignAddresses.1.GroupPlaced
        (threeControllers (some .page) (some .page)
          none).checkInterleaving.value.assignAddresses.2 :=
  ⟨by decide, (groupPlaced_assignAddresses_iff (threeControllers (some .page) (some .page) none)
    (by decide)).2 (by decide +kernel)⟩

/-- A controller between the members of the group pulls them apart. -/
theorem not_groupPlaced_threeControllers :
    2 ≤ (threeControllers (some .page) none (some .page)).platform.controllers ∧
      ¬(threeControllers (some .page) none
          (some .page)).checkInterleaving.value.assignAddresses.1.GroupPlaced
        (threeControllers (some .page) none
          (some .page)).checkInterleaving.value.assignAddresses.2 := by
  refine ⟨by decide, fun h => ?_⟩
  have hregion := h.together 0 (by decide +kernel) 2 (by decide +kernel)
  exact absurd hregion (by decide +kernel)

end State

end SdramBringup
