/-
**What the check of the interleaving lets pass.**

Controllers that are to be interleaved have to be alike and as many as their mode joins. The check
compares each of them with the first controller, which need not be interleaved itself, and counts
them against a number that depends on the mode and on the platform. For two or three controllers all
of this comes down to one condition: nobody is to be interleaved, or the first controller and those
with its mode and its geometry are the group that the mode joins, and nobody else asks for anything.
Whatever else is asked for is given up, by all controllers in use, and nothing but that changes.

Main definitions:

* `State.Grouped` — the controllers that are to be interleaved are a group with one mode;
* `State.Interleavable` — **the condition**: there is such a group, or nobody is to be interleaved;
* `State.ungrouped` — the state after interleaving was given up.

Main results:

* `State.requiredControllers_eq_ways` — as many controllers are required as the mode joins;
* `State.interleavingSound_iff` — **the check passes exactly under the condition**;
* `State.checkInterleaving_of_not_sound` — what becomes of a state that does not pass;
* `State.checkInterleaving_keeps_or_ungroups` — **the check as a whole**.
-/

import SdramBringup.Proofs.ThreeWay

set_option relaxedAutoImplicit false
set_option autoImplicit false

namespace SdramBringup

theorem ControllerMode.mem_all (mode : ControllerMode) : mode ∈ ControllerMode.all := by
  cases mode <;> decide

namespace State

/-! ### The condition -/

/-- The first controller has the mode, every controller that is to be interleaved has it as well and
a module of the same geometry in its first slot, and they are as many as the mode joins. -/
structure Grouped (s : State) (mode : ControllerMode) : Prop where
  first : s.controllers[(0 : Fin 3)].options.controllerMode = some mode
  modes : ∀ c ∈ s.interleaved, s.controllers[c].options.controllerMode = some mode
  alike : ∀ c ∈ s.interleaved, s.AlikeFirst c
  count : s.interleaved.length = mode.ways

instance (s : State) (mode : ControllerMode) : Decidable (s.Grouped mode) :=
  decidable_of_iff
    (s.controllers[(0 : Fin 3)].options.controllerMode = some mode ∧
      (∀ c ∈ s.interleaved, s.controllers[c].options.controllerMode = some mode) ∧
      (∀ c ∈ s.interleaved, s.AlikeFirst c) ∧ s.interleaved.length = mode.ways)
    ⟨fun h => ⟨h.1, h.2.1, h.2.2.1, h.2.2.2⟩, fun h => ⟨h.first, h.modes, h.alike, h.count⟩⟩

/-- No controller in use is to be interleaved, or those that are form a group. -/
def Interleavable (s : State) : Prop :=
  (∀ c ∈ s.platform.controllerList, s.controllers[c].options.controllerMode = none) ∨
    ∃ mode, s.Grouped mode

instance (s : State) : Decidable s.Interleavable :=
  decidable_of_iff
    ((∀ c ∈ s.platform.controllerList, s.controllers[c].options.controllerMode = none) ∨
      ∃ mode ∈ ControllerMode.all, s.Grouped mode)
    (or_congr_right ⟨fun ⟨mode, _, h⟩ => ⟨mode, h⟩, fun ⟨mode, h⟩ => ⟨mode, mode.mem_all, h⟩⟩)

/-- The state in which no controller in use is interleaved, and which is otherwise the same. -/
def ungrouped (s : State) : State :=
  { s with
    controllers := Vector.ofFn fun c : Fin 3 =>
      if c.val < s.platform.controllers then
        { s.controllers[c] with
          options := { s.controllers[c].options with controllerMode := none } }
      else s.controllers[c] }

variable {s : State}

theorem controllers_ungrouped (s : State) (c : Fin 3) :
    s.ungrouped.controllers[c] =
      if c ∈ s.platform.controllerList then alone s.controllers[c] else s.controllers[c] := by
  have hmem : c ∈ s.platform.controllerList ↔ c.val < s.platform.controllers := by
    simp [Platform.controllerList, List.mem_filter]
  rw [getElem_fin, ungrouped, Vector.getElem_ofFn]
  exact (if_congr hmem rfl rfl).symm

/-! ### The check -/

/-- **As many controllers are required as the mode joins**, of two and of three controllers. -/
theorem requiredControllers_eq_ways (hcount : 2 ≤ s.platform.controllers) {mode : ControllerMode}
    (hfirst : s.controllers[(0 : Fin 3)].options.controllerMode = some mode) :
    s.requiredControllers = mode.ways := by
  have hle : s.platform.controllers ≤ 3 := Nat.min_le_right _ _
  simp only [requiredControllers, hfirst]
  split
  · -- a pair, of which three controllers have room for one
    split <;> omega
  · rfl

/-- A state that passes has a group, or nobody is to be interleaved. -/
theorem interleavable_of_sound (hcount : 2 ≤ s.platform.controllers)
    (h : s.interleavingSound = true) : s.Interleavable := by
  by_cases hnil : s.interleaved = []
  · refine .inl fun c hc => ?_
    have hnone := List.filter_eq_nil_iff.1 hnil c hc
    simpa using hnone
  · obtain ⟨mode, hfirst, hmodes, -⟩ := interleaved_of_sound h hcount hnil
    obtain ⟨hmatch, hlength⟩ := Bool.and_eq_true_iff.1 h
    have hmatches : ∀ c ∈ s.interleaved, s.matchesFirst c = true := List.all_eq_true.1 hmatch
    refine .inr ⟨mode, hfirst, hmodes, fun c hc => (matchesFirst_iff.1 (hmatches c hc)).1, ?_⟩
    have hsome : s.interleaved.length ≠ 0 := fun hlen => hnil (List.length_eq_zero_iff.1 hlen)
    rw [← requiredControllers_eq_ways hcount hfirst]
    simpa [hsome] using hlength

/-- A group passes. -/
theorem Grouped.sound {mode : ControllerMode} (h : s.Grouped mode)
    (hcount : 2 ≤ s.platform.controllers) : s.interleavingSound = true := by
  have hmatches : s.interleaved.all s.matchesFirst = true :=
    List.all_eq_true.2 fun c hc =>
      matchesFirst_iff.2 ⟨h.alike c hc, (h.modes c hc).trans h.first.symm⟩
  have hrequired : s.interleaved.length = s.requiredControllers :=
    h.count.trans (requiredControllers_eq_ways hcount h.first).symm
  rw [interleavingSound, hmatches, hrequired]
  simp

/-- **The check passes exactly under the condition.** -/
theorem interleavingSound_iff (hcount : 2 ≤ s.platform.controllers) :
    s.interleavingSound = true ↔ s.Interleavable := by
  constructor
  · exact interleavable_of_sound hcount
  · rintro (hnone | ⟨mode, hgroup⟩)
    · exact interleavingSound_of_none hnone
    · exact hgroup.sound hcount

/-- Interleaving is given up by all controllers in use, with one warning and nothing else. -/
theorem checkInterleaving_of_not_sound (h : s.interleavingSound = false) :
    s.checkInterleaving =
      { value := s.ungrouped, warnings := [.controllerInterleavingDisabled] } := by
  have hvalue : s.checkInterleaving.value = s.ungrouped := by
    refine eq_of_controllers (platform_checkInterleaving s) (resetNeeded_checkInterleaving s)
      fun c => ?_
    rw [controllers_checkInterleaving, controllers_ungrouped]
    simp only [h, true_and]
  rw [← hvalue, checkInterleaving, if_neg (by simp [h])]

/-- **The check as a whole**, on two or three controllers: a state in which nobody is to be
interleaved, or a group is, stays as it is, without a warning. In every other state interleaving is
given up by all controllers in use, which is warned of once, and nothing else changes. A second check
changes nothing. -/
theorem checkInterleaving_keeps_or_ungroups (hcount : 2 ≤ s.platform.controllers) :
    (s.Interleavable → s.checkInterleaving = pure s) ∧
      (¬s.Interleavable → s.checkInterleaving =
        { value := s.ungrouped, warnings := [.controllerInterleavingDisabled] }) ∧
      s.checkInterleaving.value.checkInterleaving = pure s.checkInterleaving.value := by
  refine ⟨fun h => ?_, fun h => ?_, ?_⟩
  · exact if_pos ((interleavingSound_iff hcount).2 h)
  · refine checkInterleaving_of_not_sound ?_
    simpa using mt (interleavingSound_iff hcount).1 h
  · exact if_pos (interleavingSound_checkInterleaving s)

/-- Of three controllers, the first and the last may be a pair; all three may not. -/
theorem checkInterleaving_pagePairs :
    2 ≤ (threeControllers (some .page) none (some .page)).platform.controllers ∧
      (threeControllers (some .page) none (some .page)).checkInterleaving =
        pure (threeControllers (some .page) none (some .page)) ∧
      2 ≤ (threeControllers (some .page) (some .page) (some .page)).platform.controllers ∧
      (threeControllers (some .page) (some .page) (some .page)).checkInterleaving =
        { value := threeControllers none none none
          warnings := [.controllerInterleavingDisabled] } := by
  have hungrouped : (threeControllers (some .page) (some .page) (some .page)).ungrouped =
      threeControllers none none none := by
    refine eq_of_controllers rfl rfl fun c => ?_
    match c with
    | 0 | 1 | 2 => rfl
  refine ⟨by decide, ?_, by decide, ?_⟩
  · exact (checkInterleaving_keeps_or_ungroups (by decide)).1 (by decide +kernel)
  · rw [← hungrouped]
    exact (checkInterleaving_keeps_or_ungroups (by decide)).2.1 (by decide +kernel)

end State

end SdramBringup
