/-
**A bring-up that succeeds.**

A bring-up computes its configuration twice: once for the size of the memory, and once more from the
placement on for all registers. What it programs then is the configuration of the modules that the
images describe, as if it had been computed once. This module takes a bring-up that succeeds apart:
reads, a change of the interleaving among three controllers, and the programming of the controllers
by that configuration.

Main results:

* `Session.state_configure_of_ok` — **the configuration of a bring-up** is that of some modules;
* `Session.run_bringUp_of_ok` — **a bring-up that succeeds**, step by step, and
  `Session.run_bringUp_of_failure` for one that fails.
-/

import SdramBringup.Proofs.Erasure

set_option relaxedAutoImplicit false
set_option autoImplicit false

namespace SdramBringup

variable {B : Type} [BoardHook B]

open Program

namespace Session

/-- **The configuration of a bring-up** is that of the modules that it decodes, all registers
included. -/
theorem state_configure_of_ok {s : Session B} {total : Nat} (h : s.configure.2 = .ok total) :
    ∃ modules : State, modules.platform = s.state.platform ∧
      s.configure.1.state = Stage.configured s.setup false modules := by
  obtain ⟨⟨sized, result⟩, hsized⟩ : ∃ ran, s.runFrom .readImages true = ran := ⟨_, rfl⟩
  cases result with
  | error f =>
      rw [configure_of_error hsized] at h
      exact absurd h (by simp)
  | ok size =>
      obtain ⟨modules, hplatform, hstate, -⟩ := state_runFrom_readImages hsized
      refine ⟨modules, hplatform, ?_⟩
      rw [(configure_of_ok hsized).1, hstate, ← Stage.configured_eq_computed,
        Stage.computed_configured]

/-- **A bring-up that fails** reads and does nothing else. -/
theorem run_bringUp_of_failure {σ : Type} (d : Device σ) (s : Session B) (x : σ)
    (hfailed : (s.bringUp.run d { state := x }).1.2.failure ≠ none) :
    ∀ e ∈ (s.bringUp.run d { state := x }).2.events, ∃ address value,
      e = Event.read address value := by
  obtain ⟨events, hyields, hevents⟩ := yields_run d s.bringUp { state := x }
  generalize s.bringUp.run d { state := x } = ran at *
  obtain ⟨⟨after, report⟩, trace⟩ := ran
  obtain ⟨reads, state, hreads, -, -, hend⟩ := yields_bringUp hyields
  generalize configure { s.restart with state } = configured at hend
  obtain ⟨configured, result⟩ := configured
  cases result with
  | error f =>
      obtain ⟨rfl, -⟩ := hend
      simp only [Traced.events, List.reverse_nil, List.nil_append] at hevents ⊢
      rw [hevents]
      exact fun e he => BringUp.exists_eq_read (BringUp.yields_readRevisions hreads).1 he
  | ok total =>
      obtain ⟨-, -, -, -, -, -, hnone, -⟩ := hend
      exact absurd hnone hfailed

/-- **A bring-up that succeeds** reads, may change the interleaving among three controllers, and
programs the controllers by the configuration of some modules. -/
theorem run_bringUp_of_ok {σ : Type} (d : Device σ) (s : Session B) (x : σ)
    (hok : (s.bringUp.run d { state := x }).1.2.failure = none) :
    ∃ reads switch rest ws modules,
      (∀ e ∈ reads, ∃ address value, e = Event.read address value) ∧
      (BringUp.switchThreeWay (s.bringUp.run d { state := x }).1.1.state).Yields switch () ∧
      (BringUp.programControllers s.setup (s.bringUp.run d { state := x }).1.1.state).Yields rest
        ((s.bringUp.run d { state := x }).1.2.progress, ws) ∧
      (s.bringUp.run d { state := x }).2.events = reads ++ (switch ++ rest) ∧
      modules.platform = s.state.platform ∧
      (s.bringUp.run d { state := x }).1.1.state = Stage.configured s.setup false modules := by
  obtain ⟨events, hyields, hevents⟩ := yields_run d s.bringUp { state := x }
  generalize s.bringUp.run d { state := x } = ran at *
  obtain ⟨⟨after, report⟩, trace⟩ := ran
  obtain ⟨reads, state, hreads, -, hafter, hend⟩ := yields_bringUp hyields
  have hall : ∀ e ∈ reads, ∃ address value, e = Event.read address value := fun e he =>
    BringUp.exists_eq_read (BringUp.yields_readRevisions hreads).1 he
  have hstart : state.platform = (State.fresh s.state.platform).platform :=
    BringUp.platform_of_readRevisions hreads
  have hresult := @state_configure_of_ok B _ { s.restart with state }
  generalize configure { s.restart with state } = configured at hafter hend hresult
  obtain ⟨configured, result⟩ := configured
  cases result with
  | error f =>
      obtain ⟨-, hfailure, -⟩ := hend
      exact absurd (hfailure.symm.trans hok) (by simp)
  | ok total =>
      obtain ⟨switch, rest, ws, hswitch, hprogram, rfl, -, -⟩ := hend
      obtain ⟨modules, hplatform, hstate⟩ := hresult rfl
      exact ⟨reads, switch, rest, ws, modules, hall, hswitch, hprogram, hevents,
        hplatform.trans hstart, hafter.trans hstate⟩

end Session

end SdramBringup
