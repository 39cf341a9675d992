/-
**Memory that is held in reset while it is programmed.**

Registered modules must not see a clock that is not stable yet. A bring-up that has to do with them,
or a board that asks for it, puts the memory into reset, writes the registers of all controllers,
gives the clocks the time that they need, and only then lets the memory out of reset and enables the
controllers. This module proves that of every bring-up that succeeds, whatever the controllers
answer.

Main definitions:

* `Platform.block`, `Platform.BlocksDisjoint` — the registers of a controller, and registers that
  nothing else uses;
* `State.Staged` — the memory is to be held in reset;
* `SettlesIn` — the writes into a block of registers and the time that they are given;
* `HeldInReset` — **the promise**, for the events before, during and after the reset.

Main results:

* `BringUp.settlesIn_writeEvents` — each of several write phases is given its time;
* `BringUp.heldInReset` — the events of the two phases keep the promise;
* `Session.resetSequence` — **the promise is kept by every bring-up that succeeds**, and without a
  need for it the reset line is left alone.
-/

import SdramBringup.Proofs.BringUp
import SdramBringup.Proofs.ReportedMemory

set_option relaxedAutoImplicit false
set_option autoImplicit false

namespace SdramBringup

variable {B : Type} [BoardHook B]

open Program

/-! ### Registers that nothing else uses -/

theorem Region.disjoint_of_stop_le {r q : Region} (h : r.stop ≤ q.base ∨ q.stop ≤ r.base) :
    r.Disjoint q := by
  rintro a ⟨⟨hr, hr'⟩, hq, hq'⟩
  omega

namespace Platform

/-- The addresses of the registers of a controller. -/
def block (p : Platform) (c : Fin 3) : Region := ⟨p.registerBases[c], 0x1000⟩

/-- No two controllers in use share an address, and the register for interleaving among three
controllers belongs to none of them. -/
structure BlocksDisjoint (p : Platform) : Prop where
  apart : ∀ c ∈ p.controllerList, ∀ d ∈ p.controllerList, c ≠ d → (p.block c).Disjoint (p.block d)
  threeWay : ∀ c ∈ p.controllerList, ∀ address, p.threeWayRegister = some address →
    ¬(p.block c).Contains address

/-- The address of the configuration of a controller. -/
def configAddress (p : Platform) (c : Fin 3) : Nat :=
  p.registerBases[c] + Register.sdramConfig.offset

theorem contains_configAddress (p : Platform) (c : Fin 3) :
    (p.block c).Contains (p.configAddress c) :=
  Register.offset_pos_lt p.registerBases[c] .sdramConfig

end Platform

/-! ### The promise -/

/-- The memory is to be held in reset: a controller in use has registered modules only, or the board
asks for it. -/
def State.Staged (setup : Setup B) (s : State) : Prop :=
  (∃ c ∈ s.platform.controllerList, s.controllers[c].common.allRegistered = true) ∨
    setup.resetLine.requested = true

instance (setup : Setup B) (s : State) : Decidable (s.Staged setup) :=
  inferInstanceAs (Decidable (_ ∨ _))

/-- What is written into a block of registers is written in one go, and is then given the time that
the clocks need. -/
def SettlesIn (r : Region) (events : List Event) : Prop :=
  ∃ earlier writes later,
    events = earlier ++ (writes ++ .did (.delay Programming.settleTime) :: later) ∧
      writes ≠ [] ∧ (∀ e ∈ writes, e.WritesTo r) ∧ ∀ e ∈ earlier ++ later, ¬e.WritesTo r

/-- The events before the memory is put into reset, while it is held there and after it has been let
out of it. The reset line is not moved in between, no controller is written before, none is enabled
while the memory is held in reset, and every controller that is programmed has settled then. -/
structure HeldInReset (p : Platform) (Programmed : Fin 3 → Prop)
    (before held after : List Event) : Prop where
  once : ∀ e ∈ before ++ (held ++ after), ¬e.IsReset
  silent : ∀ c ∈ p.controllerList, ∀ e ∈ before, ¬e.WritesTo (p.block c)
  disabled : ∀ c ∈ p.controllerList, ∀ e ∈ before ++ held, ¬e.Enables (p.configAddress c)
  settled : ∀ c, Programmed c → SettlesIn (p.block c) held

/-! ### The write phases -/

/-- A write that enables a controller is a write to its registers. -/
theorem Event.Enables.writesTo {address : Nat} {e : Event} {r : Region} (h : e.Enables address)
    (hr : r.Contains address) : e.WritesTo r := by
  obtain ⟨value, rfl, -⟩ := h
  exact Event.writesTo_write_iff.2 hr

namespace BringUp

variable {s : State} {cs : List (Fin 3)}

theorem not_isReset_of_mem_writeEvents {e : Event} (he : e ∈ writeEvents s cs) : ¬e.IsReset := by
  obtain ⟨c, -, hphase⟩ := List.mem_flatMap.1 he
  rcases Programming.mem_writeEvents hphase with hcommit | rfl | rfl
  · exact Programming.not_isReset_of_mem_commitEvents hcommit
  · decide
  · decide

/-- A write phase does not write to the registers of another controller. -/
theorem not_writesTo_of_mem_phase {p : Platform} (hblocks : p.BlocksDisjoint) {c d : Fin 3}
    (hc : c ∈ p.controllerList) (hd : d ∈ p.controllerList) (hne : d ≠ c) {f : RegisterFile}
    {e : Event} (he : e ∈ Programming.writeEvents p.registerBases[d] f) :
    ¬e.WritesTo (p.block c) := by
  rcases Programming.mem_writeEvents he with hcommit | rfl | rfl
  · obtain ⟨r, rfl⟩ := Programming.mem_commitEvents hcommit
    rw [Event.writesTo_write_iff]
    intro hcontains
    exact hblocks.apart d hd c hc hne _ ⟨r.offset_pos_lt _, hcontains⟩
  · simp [Event.WritesTo]
  · simp [Event.WritesTo]

section Blocks

variable (hblocks : s.platform.BlocksDisjoint) (hcs : ∀ c ∈ cs, c ∈ s.platform.controllerList)
include hblocks hcs

/-- The write phases of some controllers do not write to the registers of another one. -/
theorem not_writesTo_of_mem_writeEvents {c : Fin 3} (hc : c ∈ s.platform.controllerList)
    (hother : c ∉ cs) {e : Event} (he : e ∈ writeEvents s cs) :
    ¬e.WritesTo (s.platform.block c) := by
  obtain ⟨d, hd, hphase⟩ := List.mem_flatMap.1 he
  exact not_writesTo_of_mem_phase hblocks hc (hcs d hd) (ne_of_mem_of_not_mem hd hother) hphase

/-- **No write phase enables any controller**: not its own, and it does not reach the others. -/
theorem not_enables_of_mem_writeEvents {c : Fin 3} (hc : c ∈ s.platform.controllerList) {e : Event}
    (he : e ∈ writeEvents s cs) : ¬e.Enables (s.platform.configAddress c) := by
  obtain ⟨d, hd, hphase⟩ := List.mem_flatMap.1 he
  by_cases hdc : d = c
  · subst hdc
    rcases Programming.mem_writeEvents hphase with hcommit | rfl | rfl
    · exact Programming.not_enables_of_mem_commitEvents hcommit
    · simp [Event.Enables]
    · simp [Event.Enables]
  · have hwrites := not_writesTo_of_mem_phase hblocks hc (hcs d hd) hdc hphase
    exact fun henables => hwrites (henables.writesTo (s.platform.contains_configAddress c))

/-- **Each of several write phases is given its time**: the others do not write to the registers of
its controller. -/
theorem settlesIn_writeEvents (hnodup : cs.Nodup) {c : Fin 3} (hc : c ∈ cs) :
    SettlesIn (s.platform.block c) (writeEvents s cs) := by
  obtain ⟨first, last, rfl⟩ := List.append_of_mem hc
  obtain ⟨-, hlast, hdisjoint⟩ := List.nodup_append.1 hnodup
  have hfirst : c ∉ first := fun h => hdisjoint c h c List.mem_cons_self rfl
  have hin := hcs c hc
  refine ⟨writeEvents s first, Programming.commitEvents s.platform.registerBases[c]
    s.controllers[c].registers, .did .fence :: writeEvents s last, ?_,
    Programming.commitEvents_ne_nil _ _, fun e he => Programming.writesTo_of_mem_commitEvents he,
    fun e he => ?_⟩
  · simp [writeEvents, Programming.writeEvents]
  · rcases List.mem_append.1 he with he | he
    · exact not_writesTo_of_mem_writeEvents hblocks
        (fun d hd => hcs d (List.mem_append_left _ hd)) hin hfirst he
    · rcases List.mem_cons.1 he with rfl | he
      · simp [Event.WritesTo]
      · exact not_writesTo_of_mem_writeEvents hblocks
          (fun d hd => hcs d (List.mem_append_right _ (List.mem_cons_of_mem _ hd))) hin
          (List.nodup_cons.1 hlast).1 he

end Blocks

/-! ### The controllers in two steps -/

variable {setup : Setup B} {events : List Event} {progress : Vector Progress 3} {ws : List Warning}

/-- With the memory held in reset, all controllers are written first and enabled afterwards. -/
theorem yields_programControllers_of_staged
    (hstaged : (s.resetNeeded || setup.resetLine.requested) = true)
    (h : (programControllers setup s).Yields events (progress, ws)) :
    ∃ enable, events = .did .assertReset ::
        (writeEvents s (programmable s) ++ .did .releaseReset :: enable) ∧
      (∀ e ∈ enable, ¬e.IsReset) ∧
      ∀ c, progress[c] ≠ .untouched → c ∈ programmable s := by
  rw [programControllers, if_pos hstaged] at h
  simp only [yields_bind_iff, yields_perform_iff, yields_pure_iff, Prod.exists, Prod.mk.injEq] at h
  obtain ⟨_, _, _, rfl, ⟨write, written, ws₁, _, hwrite, ⟨_, _, _, rfl, ⟨enable, enabled, ws₂, _,
    henable, ⟨rfl, rfl, rfl⟩, rfl⟩, rfl⟩, rfl⟩, rfl⟩ := h
  rw [yields_programEach_writeOnly hwrite]
  refine ⟨enable, by simp, ?_, fun c hc => ?_⟩
  · exact only_programEach setup.clock .enableOnly
      (fun _ _ => Programming.permits_not_isReset _ _) _ _ _ henable
  · by_contra hnot
    refine hc ?_
    rw [progress_of_not_mem henable hnot, progress_of_not_mem hwrite hnot]
    exact Vector.getElem_replicate c.isLt

/-- Otherwise the reset line is left alone. -/
theorem only_programControllers_of_not_staged
    (hstaged : ¬(s.resetNeeded || setup.resetLine.requested) = true) :
    Only (fun e => ¬e.IsReset) (programControllers setup s) := by
  rw [programControllers, if_neg hstaged]
  exact only_programEach setup.clock .full (fun _ _ => Programming.permits_not_isReset _ _) _

theorem not_isReset_of_switchThreeWay {switch : List Event} {u : Unit}
    (h : (switchThreeWay s).Yields switch u) : ∀ e ∈ switch, ¬e.IsReset := by
  intro e he
  obtain ⟨address, value, -, rfl⟩ := only_switchThreeWay s _ _ h e he
  exact Event.not_isReset_write address value

/-- **The events of the two steps keep the promise**, after reads and a change of the interleaving
among three controllers. -/
theorem heldInReset (hblocks : s.platform.BlocksDisjoint) {reads switch enable : List Event}
    (hreads : ∀ e ∈ reads, ∃ address value, e = Event.read address value)
    {u : Unit} (hswitch : (switchThreeWay s).Yields switch u)
    (henable : ∀ e ∈ enable, ¬e.IsReset) :
    HeldInReset s.platform (· ∈ programmable s) (reads ++ switch) (writeEvents s (programmable s))
      enable := by
  have hprogrammable : ∀ c ∈ programmable s, c ∈ s.platform.controllerList :=
    fun c hc => (State.mem_programmable.1 hc).1
  have hsilent : ∀ c ∈ s.platform.controllerList, ∀ e ∈ reads ++ switch,
      ¬e.WritesTo (s.platform.block c) := by
    intro c hc e he
    rcases List.mem_append.1 he with he | he
    · obtain ⟨address, value, rfl⟩ := hreads e he
      exact Event.not_writesTo_read _ address value
    · obtain ⟨address, value, haddress, rfl⟩ := only_switchThreeWay s _ _ hswitch e he
      rw [Event.writesTo_write_iff]
      exact hblocks.threeWay c hc address haddress
  constructor
  case once =>
    intro e he
    rcases List.mem_append.1 he with he | he
    · rcases List.mem_append.1 he with he | he
      · obtain ⟨address, value, rfl⟩ := hreads e he
        exact Event.not_isReset_read address value
      · exact not_isReset_of_switchThreeWay hswitch e he
    · rcases List.mem_append.1 he with he | he
      · exact not_isReset_of_mem_writeEvents he
      · exact henable e he
  case silent => exact hsilent
  case disabled =>
    intro c hc e he
    rcases List.mem_append.1 he with he | he
    · exact fun h => hsilent c hc e he (h.writesTo (s.platform.contains_configAddress c))
    · exact not_enables_of_mem_writeEvents hblocks hprogrammable hc he
  case settled =>
    intro c hc
    exact settlesIn_writeEvents hblocks hprogrammable s.nodup_programmable hc

end BringUp

/-! ### The whole bring-up -/

/-- A device that answers every read with zero. -/
def Device.silent : Device Unit where
  read _ x := (0, x)
  act _ x := x

namespace Session

/-- A configuration that succeeds knows whether the reset is needed. -/
theorem resetKnown_configure {s : Session B} {total : Nat} (h : s.configure.2 = .ok total) :
    s.configure.1.state.ResetKnown := by
  obtain ⟨⟨sized, result⟩, hsized⟩ : ∃ ran, s.runFrom .readImages true = ran := ⟨_, rfl⟩
  cases result with
  | error f =>
      rw [configure_of_error hsized] at h
      exact absurd h (by simp)
  | ok size =>
      obtain ⟨modules, -, hstate, -⟩ := state_runFrom_readImages hsized
      have hknown : sized.state.ResetKnown := by
        rw [hstate]
        exact State.resetKnown_computed (State.resetKnown_placed (State.resetKnown_derived _ _)) _ _
      rw [(configure_of_ok hsized).1]
      exact State.resetKnown_computed hknown _ _

theorem staged_iff {setup : Setup B} {s : State} (h : s.ResetKnown) :
    s.Staged setup ↔ (s.resetNeeded || setup.resetLine.requested) = true := by
  rw [State.Staged, h, Stage.needsReset, Bool.or_eq_true, List.any_eq_true]

/-- **Memory is held in reset while it is programmed.** In a bring-up that succeeds, whatever the
controllers answer: if registered modules or the board need it, the memory is put into reset once and
let out of it once, no controller is written before and none is enabled in between, and every
controller that is programmed has settled by then; otherwise the reset line is left alone. -/
theorem resetSequence {σ : Type} (d : Device σ) (s : Session B) (x : σ)
    (hblocks : s.state.platform.BlocksDisjoint)
    (hok : (s.bringUp.run d { state := x }).1.2.failure = none) :
    ((s.bringUp.run d { state := x }).1.1.state.Staged s.setup →
      ∃ before held after,
        (s.bringUp.run d { state := x }).2.events =
          before ++ .did .assertReset :: (held ++ .did .releaseReset :: after) ∧
        HeldInReset s.state.platform
          (fun c => (s.bringUp.run d { state := x }).1.2.progress[c] ≠ .untouched)
          before held after) ∧
      (¬(s.bringUp.run d { state := x }).1.1.state.Staged s.setup →
        ∀ e ∈ (s.bringUp.run d { state := x }).2.events, ¬e.IsReset) := by
  obtain ⟨events, hyields, hevents⟩ := yields_run d s.bringUp { state := x }
  generalize s.bringUp.run d { state := x } = ran at *
  obtain ⟨⟨after, report⟩, trace⟩ := ran
  obtain ⟨reads, state, hreads, -, hafter, hend⟩ := yields_bringUp hyields
  have hall : ∀ e ∈ reads, ∃ address value, e = Event.read address value := fun e he =>
    BringUp.exists_eq_read (BringUp.yields_readRevisions hreads).1 he
  have hstart : state.platform = (State.fresh s.state.platform).platform :=
    BringUp.platform_of_readRevisions hreads
  have hresult := @resetKnown_configure B _ { s.restart with state }
  have hkept := platform_configure { s.restart with state }
  generalize configure { s.restart with state } = configured at hafter hend hresult hkept
  obtain ⟨configured, result⟩ := configured
  cases result with
  | error f =>
      obtain ⟨-, hfailure, -⟩ := hend
      exact absurd (hfailure.symm.trans hok) (by simp)
  | ok total =>
      obtain ⟨switch, rest, ws, hswitch, hprogram, rfl, -, -⟩ := hend
      have hknown := hresult rfl
      rw [← hafter] at hknown hkept
      have hp : after.state.platform = s.state.platform := hkept.trans hstart
      simp only at hevents
      rw [staged_iff hknown, hevents]
      constructor
      · intro hstaged
        obtain ⟨enable, rfl, henable, hprogress⟩ :=
          BringUp.yields_programControllers_of_staged hstaged hprogram
        refine ⟨reads ++ switch, BringUp.writeEvents after.state (BringUp.programmable after.state),
          enable, ?_, ?_⟩
        · simp [Traced.events]
        · have hheld := BringUp.heldInReset (hp ▸ hblocks) hall hswitch henable
          rw [hp] at hheld
          exact { hheld with settled := fun c hc => hheld.settled c (hprogress c hc) }
      · intro hstaged e he
        rw [Traced.events, List.reverse_nil, List.nil_append] at he
        rcases List.mem_append.1 he with he | he
        · obtain ⟨address, value, rfl⟩ := hall e he
          exact Event.not_isReset_read address value
        · rcases List.mem_append.1 he with he | he
          · exact BringUp.not_isReset_of_switchThreeWay hswitch e he
          · exact BringUp.only_programControllers_of_not_staged hstaged _ _ hprogram e he

/-- A controller with a registered module of 256 MiB. -/
def registeredModule : Session (Option Board) :=
  .start
    { Setup.bare 1600000000 with
      images := fun _ _ =>
        some (Spd.Image.withCrc (.ofBytes [0, 0, 0x0B, 1, 0, 0, 0, 1, 3, 0, 0, 1, 0, 0, 1])) }
    .singleSlot

set_option maxRecDepth 100000 in
/-- A registered module is held in reset. -/
theorem resetSequence_registeredModule :
    registeredModule.state.platform.BlocksDisjoint ∧
      (registeredModule.bringUp.run .silent { state := () }).1.2.failure = none ∧
      (registeredModule.bringUp.run .silent { state := () }).1.1.state.Staged
        registeredModule.setup ∧
      ∃ before held after,
        (registeredModule.bringUp.run .silent { state := () }).2.events =
          before ++ .did .assertReset :: (held ++ .did .releaseReset :: after) ∧
        HeldInReset registeredModule.state.platform
          (fun c => (registeredModule.bringUp.run .silent { state := () }).1.2.progress[c] ≠
            .untouched)
          before held after := by
  have hblocks : registeredModule.state.platform.BlocksDisjoint :=
    ⟨fun c hc d hd hne => Region.disjoint_of_stop_le (by revert c d; decide),
      fun c hc address haddress =>
        absurd haddress (by simp [registeredModule, start, State.fresh, Platform.singleSlot])⟩
  have hok : (registeredModule.bringUp.run .silent { state := () }).1.2.failure = none := by
    decide +kernel
  have hstaged : (registeredModule.bringUp.run .silent { state := () }).1.1.state.Staged
      registeredModule.setup := by
    decide +kernel
  exact ⟨hblocks, hok, hstaged, (resetSequence .silent registeredModule () hblocks hok).1 hstaged⟩

end Session

end SdramBringup
