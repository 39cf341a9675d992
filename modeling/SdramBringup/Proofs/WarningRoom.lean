/-
**Room for every warning.**

The record of a run has room for a fixed number of warnings, and a warning that finds none is only
counted. This module shows that the room is enough: whatever goes wrong in a bring-up, with however
many controllers and slots, no two of its warnings have the same topic, and there are fewer topics
than places in the record.

Main definitions:

* `Topic.inUse` — all topics of a bring-up on a platform.

Main results:

* `Warnings.record_of_length_le` — warnings that find room are kept in order;
* `Topic.nodup_inUse_and_length_le` — the topics are different, and there are thirty at most;
* `BringUp.topics_programControllers` — the programming warns of the filling of memory only;
* `Session.exists_warnings_bringUp` — **the report of a bring-up** records its warnings one by one,
  each of a topic of its own;
* `Session.bringUp_loses_no_warning` — **no warning is lost**, and none is reported twice.
-/

import SdramBringup.Proofs.Convergence
import SdramBringup.Proofs.SizeAgreement
import SdramBringup.Proofs.Topics

set_option relaxedAutoImplicit false
set_option autoImplicit false

namespace SdramBringup

variable {B : Type} [BoardHook B]

open Program

/-! ### The record -/

namespace Warnings

theorem record_append (ws : Warnings) (a b : List Warning) :
    ws.record (a ++ b) = (ws.record a).record b :=
  List.foldl_append

/-- **Warnings that find room** are kept in order, and none of them is only counted. -/
theorem record_of_length_le {ws : Warnings} {new : List Warning}
    (h : ws.list.length + new.length ≤ capacity) :
    ws.record new = { ws with list := ws.list ++ new } := by
  induction new generalizing ws with
  | nil => rw [List.append_nil]; rfl
  | cons w new ih =>
      rw [List.length_cons] at h
      have hpush : ws.push w = { ws with list := ws.list ++ [w] } := if_pos (by omega)
      have hroom : (ws.push w).list.length + new.length ≤ capacity := by
        rw [hpush, List.length_append, List.length_singleton]
        omega
      rw [show ws.record (w :: new) = (ws.push w).record new from rfl, ih hroom, hpush]
      simp

end Warnings

/-! ### The topics of a bring-up -/

namespace Topic

/-- The topics of the programming of some controllers. -/
def fillings (cs : List (Fin 3)) : List Topic := cs.map fun c : Fin 3 => .filling c

/-- All topics of a bring-up: those of the configuration for the size of the memory, of all
registers and of the programming. -/
def inUse (p : Platform) : List Topic :=
  (Stage.decodeImages.remaining.flatMap (Stage.topics p true) ++
      Stage.computeRegisters.topics p false) ++
    (fillings p.controllerList ++ [.size])

/-- The topics depend on the numbers of controllers and slots only. -/
theorem inUse_congr {p q : Platform} (hcontrollers : p.controllers = q.controllers)
    (hslots : p.slots = q.slots) : inUse p = inUse q := by
  have hlist : p.controllerList = q.controllerList := by
    rw [Platform.controllerList, Platform.controllerList, hcontrollers]
  have hpositions : p.positions = q.positions := by
    rw [Platform.positions, Platform.positions, Platform.slotList, Platform.slotList, hlist, hslots]
  have htopics : ∀ sizeOnly, Stage.topics p sizeOnly = Stage.topics q sizeOnly := by
    intro sizeOnly
    funext stage
    cases stage <;> simp only [Stage.topics, hlist, hpositions]
  rw [inUse, inUse, htopics, htopics, hlist]

/-- **The topics are all different, and there are thirty of them at most.** -/
theorem nodup_inUse_and_length_le (p : Platform) :
    (inUse p).Nodup ∧ (inUse p).length ≤ 30 := by
  let like : Nat → Nat → Platform := fun controllers slots =>
    { Platform.singleSlot with controllerCount := controllers, slotCount := slots }
  have hfinite : ∀ controllers ≤ 3, ∀ slots ∈ [1, 2],
      (inUse (like controllers slots)).Nodup ∧ (inUse (like controllers slots)).length ≤ 30 := by
    decide
  have hle : p.controllers ≤ 3 := Nat.min_le_right _ _
  have hslots : p.slots ∈ [1, 2] := by simpa using p.slots_eq
  have hlike : (like p.controllers p.slots).slots = p.slots := by
    rcases p.slots_eq with h | h <;> rw [h] <;> rfl
  rw [inUse_congr (Nat.min_eq_left hle).symm hlike.symm]
  exact hfinite p.controllers hle p.slots hslots

end Topic

/-! ### The programming -/

namespace BringUp

/-- One step of programming warns of the filling of each memory at most once. -/
theorem topics_programEach {σ : Type} (d : Device σ) (clock : Clock) (s : State)
    (step : ProgramStep) (cs : List (Fin 3)) (progress : Vector Progress 3) (x : σ) :
    (((programEach clock s step cs progress).exec d x).1.2.map Warning.topic).Sublist
      (Topic.fillings cs) := by
  induction cs generalizing progress x with
  | nil => exact List.nil_sublist _
  | cons c cs ih =>
      rw [exec_programEach_cons]
      simp only [List.map_append]
      split
      · exact (ih _ _).cons _
      · exact (ih _ _).cons_cons _

/-- **The programming** warns of the filling of each memory at most once: in two steps, only the
second one warns. -/
theorem topics_programControllers {σ : Type} (d : Device σ) (setup : Setup B) (s : State) (x : σ) :
    (((programControllers setup s).exec d x).1.2.map Warning.topic).Sublist
      (Topic.fillings s.platform.controllerList) := by
  have hprogrammable : (Topic.fillings (programmable s)).Sublist
      (Topic.fillings s.platform.controllerList) := List.filter_sublist.map _
  refine List.Sublist.trans ?_ hprogrammable
  simp only [programControllers]
  split
  · simp only [exec_bind, exec_pure, warnings_programEach_writeOnly, List.nil_append]
    exact topics_programEach ..
  · exact topics_programEach ..

theorem topics_usable (p : Platform) (total : Nat) :
    ((usable p total).warnings.map Warning.topic).Sublist [.size] := by
  rw [usable]
  split
  · exact List.Sublist.refl _
  · exact List.nil_sublist _

end BringUp

/-! ### The whole bring-up -/

namespace Session

theorem warnings_runFrom (s : Session B) (stage : Stage) (sizeOnly : Bool) :
    (s.runFrom stage sizeOnly).1.warnings =
      s.warnings.record (Stage.runAll s.setup sizeOnly stage.remaining s.state).warnings := rfl

/-- **A configuration** records warnings of different topics. -/
theorem exists_warnings_configure (s : Session (Option Board)) :
    ∃ ws, s.configure.1.warnings = s.warnings.record ws ∧
      (ws.map Warning.topic).Subperm
        (Stage.decodeImages.remaining.flatMap (Stage.topics s.state.platform true) ++
          Stage.computeRegisters.topics s.state.platform false) := by
  have hfirst := Stage.topics_runAll_readImages s.setup true s.state
  have hplatform := s.platform_runFrom .readImages true
  have hwarnings := s.warnings_runFrom .readImages true
  obtain ⟨⟨sized, result⟩, hsized⟩ : ∃ ran, s.runFrom .readImages true = ran := ⟨_, rfl⟩
  rw [hsized] at hplatform hwarnings
  cases result with
  | error f =>
      rw [configure_of_error hsized]
      exact ⟨_, hwarnings, hfirst.trans (List.sublist_append_left _ _).subperm⟩
  | ok total =>
      have hsecond := Stage.topics_runAll sized.setup false Stage.computeRegisters.remaining
        sized.state
      rw [show sized.state.platform = s.state.platform from hplatform] at hsecond
      refine ⟨(Stage.runAll s.setup true Stage.readImages.remaining s.state).warnings ++
        (Stage.runAll sized.setup false Stage.computeRegisters.remaining sized.state).warnings,
        ?_, ?_⟩
      · rw [configure, hsized, Warnings.record_append, ← hwarnings]
        exact sized.warnings_runFrom .computeRegisters false
      · rw [List.map_append]
        exact ((List.subperm_append_right _).2 hfirst).trans
          ((List.subperm_append_left _).2 hsecond.subperm)

/-- **The report of a bring-up** records warnings of different topics. -/
theorem exists_warnings_bringUp {σ : Type} (d : Device σ) (s : Session (Option Board))
    (t : Traced σ) :
    ∃ ws, (s.bringUp.run d t).1.2.warnings = ({} : Warnings).record ws ∧
      (ws.map Warning.topic).Subperm (Topic.inUse s.state.platform) := by
  obtain ⟨⟨state, x⟩, hread⟩ : ∃ read, (BringUp.readRevisions s.state.platform.controllerList
    (.fresh s.state.platform)).exec d t.state = read := ⟨_, rfl⟩
  have hplatform : state.platform = s.state.platform := by
    obtain ⟨reads, hyields⟩ := exists_yields_exec d
      (BringUp.readRevisions s.state.platform.controllerList (.fresh s.state.platform)) t.state
    rw [hread] at hyields
    have hfresh : state.platform = (State.fresh s.state.platform).platform :=
      BringUp.platform_of_readRevisions hyields
    exact hfresh
  obtain ⟨ws, hconfigured, htopics⟩ := exists_warnings_configure { s.restart with state }
  have hafter := platform_configure { s.restart with state }
  simp only [hplatform] at htopics hafter
  obtain ⟨⟨configured, result⟩, hresult⟩ :
    ∃ ran, configure { s.restart with state } = ran := ⟨_, rfl⟩
  rw [hresult] at hconfigured hafter
  have hexec := congrArg (·.1.2.warnings) (run_eq_exec d s.bringUp t)
  cases result with
  | error f =>
      rw [exec_bringUp_of_error d hread hresult] at hexec
      refine ⟨ws, hexec.trans hconfigured, htopics.trans ?_⟩
      exact (List.sublist_append_left _ _).subperm
  | ok total =>
      rw [exec_bringUp_of_ok d hread hresult] at hexec
      have hprogrammed := BringUp.topics_programControllers d configured.setup configured.state
        ((BringUp.switchThreeWay configured.state).exec d x).2
      have hmemory := BringUp.topics_usable configured.state.platform total
      rw [show configured.state.platform = s.state.platform from hafter] at hprogrammed
      refine ⟨ws ++ (((BringUp.programControllers configured.setup configured.state).exec d
        ((BringUp.switchThreeWay configured.state).exec d x).2).1.2 ++
        (BringUp.usable configured.state.platform total).warnings), ?_, ?_⟩
      · rw [Warnings.record_append, Warnings.record_append]
        rw [show configured.warnings = ({} : Warnings).record ws from hconfigured] at hexec
        exact hexec
      · rw [List.map_append, List.map_append]
        exact ((List.subperm_append_right _).2 htopics).trans
          ((List.subperm_append_left _).2 (hprogrammed.append hmemory).subperm)

/-- **No warning of a bring-up is lost, and none is reported twice**, whatever the platform, the
images, the interleaving that is asked for, the devices and the state before, with any measured board
or none. -/
theorem bringUp_loses_no_warning {σ : Type} (d : Device σ) (s : Session (Option Board))
    (t : Traced σ) :
    (s.bringUp.run d t).1.2.warnings.dropped = 0 ∧
      (s.bringUp.run d t).1.2.warnings.list.Nodup := by
  obtain ⟨ws, hreport, ⟨topics, hperm, hsub⟩⟩ := exists_warnings_bringUp d s t
  obtain ⟨hnodup, hlength⟩ := Topic.nodup_inUse_and_length_le s.state.platform
  have htopics : (ws.map Warning.topic).Nodup := hperm.nodup_iff.1 (hsub.nodup hnodup)
  have hroom : ws.length ≤ 30 := by
    rw [← List.length_map Warning.topic, ← hperm.length_eq]
    exact hsub.length_le.trans hlength
  rw [hreport, Warnings.record_of_length_le (by simp [Warnings.capacity]; omega)]
  exact ⟨rfl, by simpa using htopics.of_map Warning.topic⟩

end Session

end SdramBringup
