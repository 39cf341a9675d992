/-
**The course of a bring-up.**

A bring-up reads the revisions of the controllers and computes the configuration. If that fails it
ends there; otherwise it may switch on interleaving among three controllers and programs every
controller that has modules. This module takes a bring-up apart into these steps, and tells what the
configuration makes of the state.

Main definitions:

* `BringUp.revisionAddresses` — the registers that tell the revisions of the controllers;
* `State.ResetKnown` — the state says rightly whether registered modules are installed.

Main results:

* `BringUp.yields_readRevisions` — **reading the revisions** does nothing else;
* `Stage.platform_runAll` — no run changes the platform;
* `Session.configure_of_ok`, `Session.configure_of_error` — the configuration by its first run;
* `Session.yields_bringUp` — **a bring-up step by step**;
* `State.resetKnown_placed`, `State.resetKnown_computed` — the stages after the options leave the
  reset to what it was found to be.
-/

import SdramBringup.Proofs.Programming
import SdramBringup.Proofs.Revision

set_option relaxedAutoImplicit false
set_option autoImplicit false

namespace SdramBringup

variable {B : Type} [BoardHook B]

open Program

/-! ### The steps before the configuration is used -/

namespace BringUp

/-- The registers that tell the revisions of the controllers in use, in the order in which they are
read. -/
def revisionAddresses (p : Platform) : List Nat :=
  p.controllerList.flatMap fun c =>
    [p.registerBases[c] + Identification.revision, p.registerBases[c] + Identification.errata]

theorem yields_readRevision {base : Nat} {events : List Event} {revision : Nat}
    (h : (Programming.readRevision base).Yields events revision) :
    events.map Event.readAddress? =
      [some (base + Identification.revision), some (base + Identification.errata)] := by
  rw [Programming.readRevision] at h
  simp only [yields_bind_iff, yields_load_iff, yields_pure_iff] at h
  obtain ⟨_, v, _, rfl, ⟨_, w, _, rfl, ⟨rfl, -⟩, rfl⟩, rfl⟩ := h
  rfl

/-- **Reading the revisions** reads them and does nothing else, and nothing but the revisions becomes
known. -/
theorem yields_readRevisions {cs : List (Fin 3)} {s t : State} {events : List Event}
    (h : (readRevisions cs s).Yields events t) :
    events.map Event.readAddress? =
        (cs.flatMap fun c => [s.platform.registerBases[c] + Identification.revision,
          s.platform.registerBases[c] + Identification.errata]).map some ∧
      t.anonymous = s.anonymous := by
  induction cs generalizing s events with
  | nil =>
      obtain ⟨rfl, rfl⟩ := yields_pure_iff.1 h
      exact ⟨rfl, rfl⟩
  | cons c cs ih =>
      rw [readRevisions] at h
      obtain ⟨first, revision, second, hfirst, hsecond, rfl⟩ := yields_bind_iff.1 h
      obtain ⟨haddresses, hstate⟩ := ih hsecond
      rw [State.platform_put] at haddresses
      rw [State.anonymous_put_revision] at hstate
      refine ⟨?_, hstate⟩
      rw [List.map_append, yields_readRevision hfirst, haddresses, List.flatMap_cons,
        List.map_append]
      rfl

theorem platform_of_readRevisions {cs : List (Fin 3)} {s t : State} {events : List Event}
    (h : (readRevisions cs s).Yields events t) : t.platform = s.platform := by
  have hplatform := congrArg State.platform (yields_readRevisions h).2
  rwa [State.platform_anonymous, State.platform_anonymous] at hplatform

/-- A list of reads holds nothing else. -/
theorem exists_eq_read {events : List Event} {addresses : List Nat}
    (h : events.map Event.readAddress? = addresses.map some) {e : Event} (he : e ∈ events) :
    ∃ address value, e = .read address value := by
  have hmem := List.mem_map_of_mem (f := Event.readAddress?) he
  rw [h] at hmem
  obtain ⟨address, -, haddress⟩ := List.mem_map.1 hmem
  cases e with
  | read address value => exact ⟨address, value, rfl⟩
  | did action => exact absurd haddress (by simp [Event.readAddress?])

/-- Interleaving among three controllers is switched on by a write into its register. -/
theorem only_switchThreeWay (s : State) :
    Only (fun e => ∃ address value, s.platform.threeWayRegister = some address ∧
      e = .did (.write address value)) (switchThreeWay s) := by
  unfold switchThreeWay
  split
  · rename_i mode address _ haddress
    split
    · exact only_store ⟨address, _, haddress, rfl⟩
    · exact only_pure _
  · exact only_pure _

end BringUp

namespace Stage

/-! ### What no stage changes -/

variable (setup : Setup B) (sizeOnly : Bool)

@[simp] theorem platform_placed (s : State) : (placed s).platform = s.platform := by
  rw [placed, State.assignAddresses_checkInterleaving, State.platform_placing,
    State.platform_checkInterleaving]

theorem platform_run (stage : Stage) (s : State) :
    (run setup sizeOnly stage s).value.1.platform = s.platform := by
  cases stage with
  | readImages => exact State.platform_readSlots setup s.platform.positions s
  | decodeImages => exact State.platform_decodeSlots s.platform.positions s
  | reconcileTiming => rw [value_run_reconcileTiming, platform_reconciled]
  | deriveOptions => rw [value_run_deriveOptions, platform_derived]
  | placeModules => rw [value_run_placeModules, platform_placed]
  | computeRegisters => rw [value_run_computeRegisters, platform_computed]
  | done => rfl

/-- **No run changes the platform.** -/
theorem platform_runAll (stages : List Stage) (s : State) :
    (runAll setup sizeOnly stages s).value.1.platform = s.platform := by
  induction stages generalizing s with
  | nil => rfl
  | cons stage rest ih =>
      have hplatform := platform_run setup sizeOnly stage s
      obtain ⟨⟨t, failure⟩, hrun⟩ : ∃ ran, (run setup sizeOnly stage s).value = ran := ⟨_, rfl⟩
      rw [hrun] at hplatform
      cases failure with
      | some f =>
          rw [value_runAll_cons_of_failure hrun]
          exact hplatform
      | none =>
          rw [value_runAll_cons hrun, ih]
          exact hplatform

end Stage

/-! ### The configuration -/

namespace Session

theorem setup_runFrom (s : Session B) (stage : Stage) (sizeOnly : Bool) :
    (s.runFrom stage sizeOnly).1.setup = s.setup := rfl

theorem setup_of_runFrom {s after : Session B} {stage : Stage} {sizeOnly : Bool}
    {result : Except Failure Nat} (h : s.runFrom stage sizeOnly = (after, result)) :
    after.setup = s.setup := by
  rw [← setup_runFrom s stage sizeOnly, h]

theorem setup_configure (s : Session B) : s.configure.1.setup = s.setup := by
  unfold configure
  split
  · rename_i after f h
    exact setup_of_runFrom h
  · rename_i after total h
    exact (setup_runFrom after .computeRegisters false).trans (setup_of_runFrom h)

theorem platform_runFrom (s : Session B) (stage : Stage) (sizeOnly : Bool) :
    (s.runFrom stage sizeOnly).1.state.platform = s.state.platform := by
  rw [state_runFrom]
  exact Stage.platform_runAll s.setup sizeOnly stage.remaining s.state

theorem platform_configure (s : Session B) : s.configure.1.state.platform = s.state.platform := by
  have hsized := s.platform_runFrom .readImages true
  unfold configure
  split
  · rename_i after f h
    rw [h] at hsized
    exact hsized
  · rename_i after total h
    rw [h] at hsized
    exact (after.platform_runFrom .computeRegisters false).trans hsized

/-- A configuration fails if its first run fails. -/
theorem configure_of_error {s after : Session B} {f : Failure}
    (h : s.runFrom .readImages true = (after, .error f)) :
    s.configure = (after, .error f) := by
  rw [configure, h]

/-- The registers of a state are computed again. -/
theorem runFrom_computeRegisters (s : Session B) (sizeOnly : Bool) :
    (s.runFrom .computeRegisters sizeOnly).1.state = Stage.computed s.setup sizeOnly s.state ∧
      (s.runFrom .computeRegisters sizeOnly).2 =
        .ok (Stage.computed s.setup sizeOnly s.state).totalMemory := by
  have hran : (Stage.runAll s.setup sizeOnly Stage.computeRegisters.remaining s.state).value =
      (Stage.computed s.setup sizeOnly s.state, none) := by
    rw [Stage.remaining, Stage.value_runAll_cons (Stage.value_run_computeRegisters ..)]
    rfl
  have hstate := s.state_runFrom .computeRegisters sizeOnly
  have hresult := s.result_runFrom .computeRegisters sizeOnly
  rw [hran] at hstate hresult
  rw [hstate] at hresult
  exact ⟨hstate, hresult⟩

/-- Otherwise all registers are computed from the state that the first run left. -/
theorem configure_of_ok {s sized : Session B} {total : Nat}
    (h : s.runFrom .readImages true = (sized, .ok total)) :
    s.configure.1.state = Stage.computed s.setup false sized.state ∧
      s.configure.2 = .ok (Stage.computed s.setup false sized.state).totalMemory := by
  have hconfigure : s.configure = sized.runFrom .computeRegisters false := by
    rw [configure, h]
  rw [hconfigure, ← setup_of_runFrom h]
  exact sized.runFrom_computeRegisters false

/-! ### The whole bring-up -/

/-- **A bring-up step by step.** The revisions are read first. If the configuration fails, nothing
else is done; if it succeeds, the controllers are programmed. -/
theorem yields_bringUp {s after : Session B} {report : Completion} {events : List Event}
    (h : s.bringUp.Yields events (after, report)) :
    ∃ reads state,
      (BringUp.readRevisions s.state.platform.controllerList
        (.fresh s.state.platform)).Yields reads state ∧
      after.setup = s.setup ∧
      after.state = (configure { s.restart with state }).1.state ∧
      match (configure { s.restart with state }).2 with
      | .error f => events = reads ∧ report.failure = some f ∧ report.totalMemory = 0 ∧
          report.progress = Vector.replicate 3 .untouched
      | .ok total => ∃ switch rest ws,
          (BringUp.switchThreeWay after.state).Yields switch () ∧
          (BringUp.programControllers s.setup after.state).Yields rest (report.progress, ws) ∧
          events = reads ++ (switch ++ rest) ∧ report.failure = none ∧
          report.totalMemory = (BringUp.usable after.state.platform total).value := by
  rw [bringUp] at h
  obtain ⟨reads, state, rest, hreads, hrest, rfl⟩ := yields_bind_iff.1 h
  refine ⟨reads, state, hreads, ?_⟩
  have hsetup : (configure { s.restart with state }).1.setup = s.setup := setup_configure _
  simp only at hrest
  generalize configure { s.restart with state } = configured at hsetup hrest ⊢
  obtain ⟨s', result⟩ := configured
  cases result with
  | error f =>
      obtain ⟨rfl, hend⟩ := yields_pure_iff.1 hrest
      obtain ⟨rfl, rfl⟩ := Prod.mk.inj hend
      exact ⟨hsetup, rfl, List.append_nil reads, rfl, rfl, rfl⟩
  | ok total =>
      obtain ⟨switch, _, second, hswitch, hsecond, rfl⟩ := yields_bind_iff.1 hrest
      obtain ⟨programming, ⟨progress, ws⟩, last, hprogramming, hlast, rfl⟩ :=
        yields_bind_iff.1 hsecond
      obtain ⟨rfl, hend⟩ := yields_pure_iff.1 hlast
      obtain ⟨rfl, rfl⟩ := Prod.mk.inj hend
      rw [hsetup] at hprogramming
      exact ⟨hsetup, rfl, switch, programming, ws, hswitch, hprogramming,
        by rw [List.append_nil], rfl, rfl⟩

/-- A bring-up keeps what the session was made for. -/
theorem bringUp_keeps {σ : Type} (d : Device σ) (s : Session B) (t : Traced σ) :
    (s.bringUp.run d t).1.1.setup = s.setup ∧
      (s.bringUp.run d t).1.1.state.platform = s.state.platform := by
  obtain ⟨events, hyields, -⟩ := yields_run d s.bringUp t
  obtain ⟨reads, state, hreads, hsetup, hstate, -⟩ := yields_bringUp hyields
  have hplatform : state.platform = (State.fresh s.state.platform).platform :=
    BringUp.platform_of_readRevisions hreads
  refine ⟨hsetup, ?_⟩
  rw [hstate, platform_configure, hplatform]
  rfl

end Session

/-! ### The reset -/

namespace State

/-- The state says that registered modules are held in reset exactly when some controller in use has
no others. -/
def ResetKnown (s : State) : Prop := s.resetNeeded = Stage.needsReset s

theorem resetNeeded_foldl_put (f : Fin 3 → Controller → Controller) (cs : List (Fin 3))
    (s : State) :
    (cs.foldl (fun s c => s.put c (f c s.controllers[c])) s).resetNeeded = s.resetNeeded := by
  induction cs generalizing s with
  | nil => rfl
  | cons c cs ih =>
      rw [List.foldl_cons, ih]
      rfl

theorem needsReset_congr {s t : State} (hplatform : t.platform = s.platform)
    (hcommon : ∀ c ∈ s.platform.controllerList,
      t.controllers[c].common = s.controllers[c].common) :
    Stage.needsReset t = Stage.needsReset s := by
  rw [Stage.needsReset, Stage.needsReset, hplatform, Bool.eq_iff_iff, List.any_eq_true,
    List.any_eq_true]
  exact exists_congr fun c => and_congr_right fun hc => by rw [hcommon c hc]

/-- A computation that changes neither the timing of a controller nor the answer keeps it right. -/
theorem ResetKnown.of_common {s t : State} (h : s.ResetKnown) (hplatform : t.platform = s.platform)
    (hneeded : t.resetNeeded = s.resetNeeded)
    (hcommon : ∀ c ∈ s.platform.controllerList,
      t.controllers[c].common = s.controllers[c].common) : t.ResetKnown := by
  rw [ResetKnown, hneeded, needsReset_congr hplatform hcommon]
  exact h

theorem resetKnown_derived (setup : Setup B) (s : State) : (Stage.derived setup s).ResetKnown := rfl

theorem resetNeeded_checkInterleaving (s : State) :
    s.checkInterleaving.value.resetNeeded = s.resetNeeded := by
  cases h : s.interleavingSound with
  | true => rw [checkInterleaving_of_sound h]
  | false =>
      rw [value_checkInterleaving_of_not_sound h]
      exact resetNeeded_foldl_put (fun _ => alone) _ s

theorem resetNeeded_foldl_next (share : Nat) (cs : List (Fin 3)) (p : Placing) :
    (cs.foldl (Placing.next share) p).state.resetNeeded = p.state.resetNeeded := by
  induction cs generalizing p with
  | nil => rfl
  | cons c cs ih =>
      obtain ⟨base, -, hnext⟩ := Placing.exists_state_next share p c
      rw [List.foldl_cons, ih, hnext]
      rfl

theorem resetNeeded_placing (s : State) : s.placing.state.resetNeeded = s.resetNeeded := by
  rw [placing, resetNeeded_foldl_next, withShifts_eq]
  exact resetNeeded_foldl_put (fun _ => withShift s.platform) _ s

/-- The placement leaves the reset to what it was found to be. -/
theorem resetKnown_placed {s : State} (h : s.ResetKnown) : (Stage.placed s).ResetKnown := by
  rw [Stage.placed, assignAddresses_checkInterleaving]
  refine h.of_common ?_ ?_ fun c hc => ?_
  · rw [platform_placing, platform_checkInterleaving]
  · rw [resetNeeded_placing, resetNeeded_checkInterleaving]
  · rw [common_placing (by rwa [platform_checkInterleaving]), common_checkInterleaving]

/-- The registers leave the reset to what it was found to be. -/
theorem resetKnown_computed {s : State} (h : s.ResetKnown) (setup : Setup B) (sizeOnly : Bool) :
    (Stage.computed setup sizeOnly s).ResetKnown := by
  refine h.of_common (Stage.platform_computed setup sizeOnly s) ?_ fun c hc => ?_
  · rw [Stage.computed, value_eachController]
    exact resetNeeded_foldl_put (fun _ k => (Stage.registersOf setup s.platform sizeOnly k).value) _ s
  · rw [Stage.controllers_computed, if_pos hc]

end State

end SdramBringup
