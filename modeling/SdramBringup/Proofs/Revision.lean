/-
**Sizing does not look at revisions.**

A bring-up reads the revisions of the controllers before it computes anything, and the size of the
memory may be asked for without any access to them. Both go through the same stages. This module
forgets the revisions and shows that every stage of a sizing run does not notice: to forget them
before a stage or after it is the same.

Main definitions:

* `Controller.anonymous`, `State.anonymous` — a controller and a state without the revisions.

Main results:

* `State.anonymous_foldl` — a visit to all controllers that does not look at revisions;
* `Stage.run_anonymous` — **a stage of a sizing run does not look at revisions**;
* `Stage.runAll_anonymous` — nor does a whole sizing run.
-/

import SdramBringup.Proofs.Placement
import SdramBringup.Proofs.Stages

set_option relaxedAutoImplicit false
set_option autoImplicit false

namespace SdramBringup

variable {B : Type} [BoardHook B]

/-- The controller as if its revision was not known. -/
def Controller.anonymous (k : Controller) : Controller := { k with revision := 0 }

namespace State

/-- The state as if no revision was known. -/
def anonymous (s : State) : State :=
  { s with controllers := s.controllers.map Controller.anonymous }

@[simp] theorem platform_anonymous (s : State) : s.anonymous.platform = s.platform := rfl

@[simp] theorem resetNeeded_anonymous (s : State) : s.anonymous.resetNeeded = s.resetNeeded := rfl

@[simp] theorem controllers_anonymous (s : State) (c : Fin 3) :
    s.anonymous.controllers[c] = s.controllers[c].anonymous :=
  Vector.getElem_map _ _

theorem anonymous_put (s : State) (c : Fin 3) (k : Controller) :
    (s.put c k).anonymous = s.anonymous.put c k.anonymous := by
  simp [anonymous, put, Vector.map_set]

/-- A revision that is replaced is forgotten all the same. -/
theorem anonymous_put_revision (s : State) (c : Fin 3) (revision : Nat) :
    (s.put c { s.controllers[c] with revision }).anonymous = s.anonymous := by
  rw [anonymous_put]
  have hsame : ({ s.controllers[c] with revision } : Controller).anonymous =
      s.anonymous.controllers[c] := (controllers_anonymous s c).symm
  rw [hsame, put]
  exact congrArg (fun controllers => { s.anonymous with controllers })
    (Vector.set_getElem_self c.isLt)

@[simp] theorem installed_anonymous (s : State) (c : Fin 3) :
    s.anonymous.installed c = s.installed c := by
  rw [installed, installed, controllers_anonymous]
  rfl

/-! ### Visits -/

/-- **A visit to some controllers that does not look at revisions**: forgetting them before it or
after it is the same. -/
theorem anonymous_foldl {f : Fin 3 → Controller → Controller}
    (h : ∀ c k, f c k.anonymous = (f c k).anonymous) (cs : List (Fin 3)) (s : State) :
    cs.foldl (fun s c => s.put c (f c s.controllers[c])) s.anonymous =
      (cs.foldl (fun s c => s.put c (f c s.controllers[c])) s).anonymous := by
  refine List.foldl_hom State.anonymous fun s c => ?_
  rw [controllers_anonymous, h, anonymous_put]

theorem anonymous_eachController {f : Fin 3 → Controller → Noted Controller}
    (h : ∀ c k, (f c k.anonymous).value = (f c k).value.anonymous) (s : State) :
    (s.anonymous.eachController f).value = (s.eachController f).value.anonymous := by
  rw [value_eachController, value_eachController]
  exact anonymous_foldl (f := fun c k => (f c k).value) h s.platform.controllerList s

/-! ### The placement -/

theorem interleavingSound_anonymous (s : State) :
    s.anonymous.interleavingSound = s.interleavingSound := by
  have hoptions : ∀ c : Fin 3, s.anonymous.controllers[c].options = s.controllers[c].options :=
    fun c => by rw [controllers_anonymous]; rfl
  have hdimms : ∀ c : Fin 3, s.anonymous.controllers[c].dimms = s.controllers[c].dimms :=
    fun c => by rw [controllers_anonymous]; rfl
  have hmatches : s.anonymous.matchesFirst = s.matchesFirst := by
    funext c
    rw [matchesFirst, matchesFirst, hoptions, hoptions, hdimms, hdimms]
  have hinterleaved : s.anonymous.interleaved = s.interleaved :=
    List.filter_congr fun c _ => by rw [hoptions]
  have hrequired : s.anonymous.requiredControllers = s.requiredControllers := by
    rw [requiredControllers, requiredControllers, hoptions]
    rfl
  rw [interleavingSound, interleavingSound, hmatches, hinterleaved, hrequired]

theorem checkInterleaving_anonymous (s : State) :
    s.anonymous.checkInterleaving.value = s.checkInterleaving.value.anonymous := by
  have hsame := interleavingSound_anonymous s
  cases h : s.interleavingSound with
  | true =>
      rw [h] at hsame
      rw [checkInterleaving_of_sound h, checkInterleaving_of_sound hsame]
  | false =>
      rw [h] at hsame
      rw [value_checkInterleaving_of_not_sound h, value_checkInterleaving_of_not_sound hsame]
      exact anonymous_foldl (f := fun _ => alone) (fun _ _ => rfl) s.platform.controllerList s

theorem withShifts_anonymous (s : State) : s.anonymous.withShifts = s.withShifts.anonymous := by
  rw [withShifts_eq, withShifts_eq]
  exact anonymous_foldl (f := fun _ => withShift s.platform) (fun _ _ => rfl)
    s.platform.controllerList s

theorem groupShare_anonymous (s : State) : s.anonymous.groupShare = s.groupShare := by
  rw [groupShare, groupShare, controllers_anonymous]
  rfl

/-- Controllers being placed, as if no revision was known. -/
def Placing.anonymous (p : Placing) : Placing := { p with state := p.state.anonymous }

theorem Placing.next_anonymous (share : Nat) (p : Placing) (c : Fin 3) :
    p.anonymous.next share c = (p.next share c).anonymous := by
  have hcontroller : p.anonymous.state.controllers[c] = p.state.controllers[c].anonymous :=
    controllers_anonymous p.state c
  cases hmode : p.state.controllers[c].options.controllerMode with
  | none =>
      have hmode' : p.anonymous.state.controllers[c].options.controllerMode = none := by
        rw [hcontroller]
        exact hmode
      rw [next_of_none share hmode, next_of_none share hmode', alone, alone, hcontroller,
        Placing.anonymous, Placing.anonymous, anonymous_put]
      rfl
  | some mode =>
      have hmode' : p.anonymous.state.controllers[c].options.controllerMode = some mode := by
        rw [hcontroller]
        exact hmode
      rw [next_of_some share hmode, next_of_some share hmode', hcontroller,
        Placing.anonymous, Placing.anonymous, anonymous_put]
      rfl

theorem placing_anonymous (s : State) : s.anonymous.placing = s.placing.anonymous := by
  rw [placing, placing, withShifts_anonymous, groupShare_anonymous, platform_anonymous]
  have hstart : Placing.mk s.withShifts.anonymous s.platform.sdramBase s.platform.sdramBase =
      Placing.anonymous ⟨s.withShifts, s.platform.sdramBase, s.platform.sdramBase⟩ := rfl
  rw [hstart]
  exact List.foldl_hom Placing.anonymous fun p c =>
    Placing.next_anonymous s.withShifts.groupShare p c

end State

/-! ### The stages -/

namespace Stage

variable (setup : Setup B) (s : State)

theorem placed_anonymous : placed s.anonymous = (placed s).anonymous := by
  rw [placed, placed, State.assignAddresses_checkInterleaving,
    State.assignAddresses_checkInterleaving, State.checkInterleaving_anonymous,
    State.placing_anonymous]
  rfl

theorem readSlot_anonymous (position : Fin 3 × Fin 2) :
    (readSlot setup s.anonymous position).value =
      (readSlot setup s position).value.anonymous := by
  obtain ⟨c, slot⟩ := position
  rw [value_readSlot, value_readSlot, State.anonymous_put, State.controllers_anonymous]
  rfl

theorem decodeSlots_anonymous (positions : List (Fin 3 × Fin 2)) :
    (decodeSlots positions s.anonymous).value =
      ((decodeSlots positions s).value.1.anonymous, (decodeSlots positions s).value.2) := by
  induction positions generalizing s with
  | nil => rfl
  | cons position rest ih =>
      obtain ⟨c, slot⟩ := position
      have himage : s.anonymous.controllers[c].images[slot] = s.controllers[c].images[slot] := by
        rw [State.controllers_anonymous]
        rfl
      rw [decodeSlots, decodeSlots, Noted.value_bind, Noted.value_bind, himage,
        State.platform_anonymous]
      cases (decodeImage s.platform c slot s.controllers[c].images[slot]).value with
      | error f => rfl
      | ok d =>
          rw [← ih, State.anonymous_put, State.controllers_anonymous]
          rfl

theorem reconciled_anonymous : reconciled setup s.anonymous = (reconciled setup s).anonymous := by
  refine State.anonymous_eachController (fun c k => ?_) s
  rw [value_reconcileController, value_reconcileController]
  rfl

theorem derived_anonymous : derived setup s.anonymous = (derived setup s).anonymous := by
  have hoptions := State.anonymous_eachController (f := optionsOf setup s.platform)
    (fun _ _ => rfl) s
  have hreset : ∀ t : State, needsReset t.anonymous = needsReset t := by
    intro t
    rw [needsReset, needsReset]
    exact congrArg _ (funext fun c => by rw [State.controllers_anonymous]; rfl)
  rw [derived, derived, State.platform_anonymous, hoptions, hreset]
  rfl

/-- The registers that tell the size of the memory do not depend on the revision. -/
theorem registersFor_anonymous (platform : Platform) (k : Controller) :
    registersFor setup true platform k.anonymous = registersFor setup true platform k := by
  by_cases hcount : k.common.dimmCount = 0
  · rw [registersFor_of_dimmCount setup true hcount,
      registersFor_of_dimmCount setup true (k := k.anonymous) hcount]
  · have hinputs : ∀ k : Controller, ¬k.common.dimmCount = 0 →
        registersFor setup true platform k = Synthesis.sizing (inputsOf setup platform k) := by
      intro k hk
      rw [registersFor, Synthesis.compute, if_neg (show
        ¬(inputsOf setup platform k).common.dimmCount = 0 from hk)]
      rfl
    rw [hinputs k hcount, hinputs k.anonymous hcount]
    rfl

theorem computed_anonymous :
    computed setup true s.anonymous = (computed setup true s).anonymous := by
  refine State.anonymous_eachController (fun c k => ?_) s
  have hregisters := registersFor_anonymous setup s.platform k
  exact congrArg (fun registers => ({ k with registers } : Controller).anonymous) hregisters

/-- **A stage of a sizing run does not look at revisions.** -/
theorem run_anonymous (stage : Stage) :
    (run setup true stage s.anonymous).value =
      ((run setup true stage s).value.1.anonymous, (run setup true stage s).value.2) := by
  cases stage with
  | readImages =>
      have hread : (s.platform.positions.foldlM (readSlot setup) s.anonymous).value =
          (s.platform.positions.foldlM (readSlot setup) s).value.anonymous := by
        rw [Noted.value_foldlM, Noted.value_foldlM]
        exact List.foldl_hom State.anonymous fun s position => readSlot_anonymous setup s position
      exact congrArg (·, none) hread
  | decodeImages => exact decodeSlots_anonymous s s.platform.positions
  | reconcileTiming =>
      rw [value_run_reconcileTiming, value_run_reconcileTiming, reconciled_anonymous]
  | deriveOptions => rw [value_run_deriveOptions, value_run_deriveOptions, derived_anonymous]
  | placeModules => rw [value_run_placeModules, value_run_placeModules, placed_anonymous]
  | computeRegisters =>
      rw [value_run_computeRegisters, value_run_computeRegisters, computed_anonymous]
  | done => rfl

/-- **A sizing run does not look at revisions**: without them it ends in the same state but for
them, and fails alike. -/
theorem runAll_anonymous (stages : List Stage) :
    (runAll setup true stages s.anonymous).value =
      ((runAll setup true stages s).value.1.anonymous, (runAll setup true stages s).value.2) := by
  induction stages generalizing s with
  | nil => rfl
  | cons stage rest ih =>
      obtain ⟨⟨t, failure⟩, hrun⟩ : ∃ ran, (run setup true stage s).value = ran := ⟨_, rfl⟩
      have hrun' := run_anonymous setup s stage
      rw [hrun] at hrun'
      cases failure with
      | some f =>
          rw [value_runAll_cons_of_failure hrun, value_runAll_cons_of_failure hrun']
      | none => rw [value_runAll_cons hrun, value_runAll_cons hrun', ih]

end Stage

end SdramBringup
