/-
**Who is programmed, and where writes go.**

A bring-up programs the controllers with modules that take part and have a common timing, and leaves
the others alone. This module tells, for every bring-up that succeeds and whatever the controllers
answer, how far each of the controllers comes in the end, and that every write goes to a register of
one that is programmed, but for a single one that may switch on interleaving among three controllers.
A bring-up that fails does not write at all.

Main definitions:

* `Event.writtenAddress?` — the address of a write;
* `State.Timed` — modules of a controller take part, and they have a common timing;
* `Footprint` — **the promise**, for what is known in the end, the report and the events.

Main results:

* `Stage.dimmCount_configured_ne_zero_iff` — the controllers with modules are those that are timed;
* `BringUp.progress_programControllers` — how far the controllers come;
* `BringUp.only_programControllers` — where they are written;
* `Session.footprint_bringUp` — **the promise is kept by every bring-up**.
-/

import SdramBringup.Proofs.CommonTiming
import SdramBringup.Proofs.ResetSequence
import SdramBringup.Proofs.Success

set_option relaxedAutoImplicit false
set_option autoImplicit false

namespace SdramBringup

variable {B : Type} [BoardHook B]

open Program

/-! ### The controllers with modules -/

/-- Modules of the controller take part, and those that do have a common timing. -/
def State.Timed (setup : Setup B) (s : State) (c : Fin 3) : Prop :=
  CommonTiming.participants s.platform (s.installed c) ≠ [] ∧
    ∃ common, (CommonTiming.reconcile setup.clock (s.installed c) s.platform c).value = .ok common

namespace Stage

variable (setup : Setup B) (sizeOnly : Bool) {s : State} {c : Fin 3}

/-- A controller has modules by its timing exactly when some take part and the timing succeeds. -/
theorem dimmCount_commonOf_ne_zero_iff (p : Platform) (c : Fin 3) (k : Controller) :
    (commonOf setup p c k).dimmCount ≠ 0 ↔
      CommonTiming.participants p (k.installed p.slots) ≠ [] ∧ ∃ common,
        (CommonTiming.reconcile setup.clock (k.installed p.slots) p c).value = .ok common := by
  rw [commonOf]
  cases hresult : (CommonTiming.reconcile setup.clock (k.installed p.slots) p c).value with
  | error e => simp [Except.toOption]
  | ok common =>
      have hcount := (CommonTiming.dimmCount_of_reconcile hresult).trans (List.length_map _)
      simp [Except.toOption, hcount]

theorem common_configured_eq_arranged (hc : c ∈ s.platform.controllerList) :
    (configured setup sizeOnly s).controllers[c].common =
      (arranged setup s).controllers[c].common := by
  have harranged : c ∈ (arranged setup s).platform.controllerList := by rwa [platform_arranged]
  rw [configured_eq, controllers_computed, if_pos harranged]

/-- The timing of a controller in a configuration is the one that its modules have in common, where
they are in the end. -/
theorem common_configured (hc : c ∈ s.platform.controllerList) :
    (configured setup sizeOnly s).controllers[c].common =
      commonOf setup s.platform c (configured setup sizeOnly s).controllers[c] := by
  have hgiven := (common_configured_eq_arranged setup sizeOnly hc).trans
    ((common_arranged setup hc).trans (common_prepared setup hc))
  -- the placement changes the modules in their addresses only
  have huntimed : (configured setup sizeOnly s).untimed.controllers[c] =
      s.untimed.controllers[c] := by
    rw [untimed_configured]
  rw [State.controllers_untimed, State.controllers_untimed, platform_configured, if_pos hc,
    if_pos hc] at huntimed
  have hbefore := commonOf_untimed setup s.platform c s.controllers[c]
  have hafter := commonOf_untimed setup s.platform c (configured setup sizeOnly s).controllers[c]
  rw [huntimed] at hafter
  exact hgiven.trans (hbefore.symm.trans hafter)

/-- **The controllers with modules** are those whose modules take part and have a common timing. -/
theorem dimmCount_configured_ne_zero_iff (hc : c ∈ s.platform.controllerList) :
    (configured setup sizeOnly s).controllers[c].common.dimmCount ≠ 0 ↔
      (configured setup sizeOnly s).Timed setup c := by
  rw [common_configured setup sizeOnly hc, dimmCount_commonOf_ne_zero_iff, State.Timed,
    State.installed, platform_configured]

end Stage

/-! ### The events of the programming -/

/-- The address of a write. -/
def Event.writtenAddress? : Event → Option Nat
  | .did (.write address _) => some address
  | _ => none

namespace BringUp

variable {setup : Setup B} {s : State} {events : List Event} {progress : Vector Progress 3}
  {ws : List Warning}

/-- An address of a register of one of some controllers. -/
def RegisterOf (p : Platform) (cs : List (Fin 3)) (address : Nat) : Prop :=
  ∃ c ∈ cs, ∃ r : Register, address = p.registerBases[c] + r.offset

/-- What the programming of one of some controllers may do writes to registers of them only. -/
theorem permits_registerOf (p : Platform) {cs : List (Fin 3)} {c : Fin 3} (hc : c ∈ cs) :
    Programming.Permits p.registerBases[c] p.threeWayRegister fun e =>
      ∀ address, e.writtenAddress? = some address → RegisterOf p cs address where
  read _ _ _ h := absurd h (by simp [Event.writtenAddress?])
  threeWay _ _ _ _ h := absurd h (by simp [Event.writtenAddress?])
  delay _ _ h := absurd h (by simp [Event.writtenAddress?])
  fence _ h := absurd h (by simp [Event.writtenAddress?])
  write r _ _ h := ⟨c, hc, r, (Option.some.inj h).symm⟩

/-- **The programming writes** to registers of controllers with modules only. -/
theorem only_programControllers (setup : Setup B) (s : State) :
    Only (fun e => ∀ address, e.writtenAddress? = some address →
      RegisterOf s.platform (programmable s) address) (programControllers setup s) := by
  have heach : ∀ (step : ProgramStep) (progress : Vector Progress 3),
      Only (fun e => ∀ address, e.writtenAddress? = some address →
        RegisterOf s.platform (programmable s) address)
        (programEach setup.clock s step (programmable s) progress) := fun step progress =>
    only_programEach setup.clock step (fun c hc => permits_registerOf s.platform hc) progress
  rw [programControllers]
  split
  · refine only_bind (only_perform fun _ h => absurd h (by simp [Event.writtenAddress?])) fun _ => ?_
    refine only_bind (heach _ _) fun _ => ?_
    refine only_bind (only_perform fun _ h => absurd h (by simp [Event.writtenAddress?])) fun _ => ?_
    exact only_bind (heach _ _) fun _ => only_pure _
  · exact heach _ _

/-- **How far the controllers come**: those with modules to the end, in one step or in two, and the
others not at all. -/
theorem progress_programControllers
    (h : (programControllers setup s).Yields events (progress, ws)) (c : Fin 3) :
    progress[c] = if c ∈ programmable s then .enabled else .untouched := by
  have hnodup := s.nodup_programmable
  have huntouched : (Vector.replicate 3 Progress.untouched)[c] = .untouched :=
    Vector.getElem_replicate c.isLt
  rw [programControllers] at h
  split at h
  · simp only [yields_bind_iff, yields_perform_iff, yields_pure_iff, Prod.exists, Prod.mk.injEq] at h
    obtain ⟨_, _, _, -, ⟨write, written, ws₁, _, hwrite, ⟨_, _, _, -, ⟨enable, enabled, ws₂, _,
      henable, ⟨-, rfl, -⟩, -⟩, -⟩, -⟩, -⟩ := h
    split
    · rw [progress_of_mem henable hnodup ‹_›]
      rfl
    · rw [progress_of_not_mem henable ‹_›, progress_of_not_mem hwrite ‹_›, huntouched]
  · split
    · rw [progress_of_mem h hnodup ‹_›]
      rfl
    · rw [progress_of_not_mem h ‹_›, huntouched]

end BringUp

/-! ### The promise -/

/-- The addresses that were written, in order. -/
def written (events : List Event) : List Nat := events.filterMap Event.writtenAddress?

/-- The controllers with modules are enabled and the others are not touched. Every write goes to a
register of a controller with modules, except for one at most to the register for interleaving among
three controllers, and none reaches the registers of another controller. -/
structure Footprint (s : State) (progress : Vector Progress 3) (events : List Event) : Prop where
  progress : ∀ c : Fin 3,
    progress[c] = if c ∈ BringUp.programmable s then .enabled else .untouched
  confined : ∀ address ∈ written events,
    BringUp.RegisterOf s.platform (BringUp.programmable s) address ∨
      s.platform.threeWayRegister = some address
  once : ∀ address, s.platform.threeWayRegister = some address → (written events).count address ≤ 1
  spared : ∀ c ∈ s.platform.controllerList, c ∉ BringUp.programmable s →
    ∀ address ∈ written events, ¬(s.platform.block c).Contains address

theorem mem_written {events : List Event} {address : Nat} :
    address ∈ written events ↔ ∃ e ∈ events, e.writtenAddress? = some address :=
  List.mem_filterMap

theorem written_append (first second : List Event) :
    written (first ++ second) = written first ++ written second :=
  List.filterMap_append

/-- Reads write nothing. -/
theorem written_of_reads {events : List Event}
    (h : ∀ e ∈ events, ∃ address value, e = Event.read address value) : written events = [] := by
  refine List.filterMap_eq_nil_iff.2 fun e he => ?_
  obtain ⟨address, value, rfl⟩ := h e he
  rfl

namespace BringUp

variable {s : State}

/-- Interleaving among three controllers is switched on by one write at most. -/
theorem written_switchThreeWay {events : List Event} (h : (switchThreeWay s).Yields events ()) :
    written events = [] ∨
      ∃ address, s.platform.threeWayRegister = some address ∧ written events = [address] := by
  unfold switchThreeWay at h
  split at h
  · rename_i mode address _ haddress
    split at h
    · rw [yields_store_iff.1 h]
      exact .inr ⟨address, haddress, rfl⟩
    · rw [(yields_pure_iff.1 h).1]
      exact .inl rfl
  · rw [(yields_pure_iff.1 h).1]
    exact .inl rfl

/-- A register of a controller is in its block. -/
theorem RegisterOf.contains {p : Platform} {cs : List (Fin 3)} {address : Nat}
    (h : RegisterOf p cs address) : ∃ c ∈ cs, (p.block c).Contains address := by
  obtain ⟨c, hc, r, rfl⟩ := h
  exact ⟨c, hc, r.offset_pos_lt _⟩

/-- **The steps of a bring-up keep the promise.** -/
theorem footprint_of_yields (hblocks : s.platform.BlocksDisjoint) {reads switch rest : List Event}
    (hreads : ∀ e ∈ reads, ∃ address value, e = Event.read address value)
    (hswitch : (switchThreeWay s).Yields switch ()) {setup : Setup B} {progress : Vector Progress 3}
    {ws : List Warning} (hrest : (programControllers setup s).Yields rest (progress, ws)) :
    Footprint s progress (reads ++ (switch ++ rest)) := by
  have hwritten : written (reads ++ (switch ++ rest)) = written switch ++ written rest := by
    rw [written_append, written_append, written_of_reads hreads, List.nil_append]
  have hregisters : ∀ address ∈ written rest, RegisterOf s.platform (programmable s) address := by
    intro address hmem
    obtain ⟨e, he, haddress⟩ := mem_written.1 hmem
    exact only_programControllers setup s _ _ hrest e he address haddress
  have hlist : ∀ c ∈ programmable s, c ∈ s.platform.controllerList := fun c hc =>
    (State.mem_programmable.1 hc).1
  have hthree : ∀ address ∈ written switch, s.platform.threeWayRegister = some address := by
    intro address hmem
    rcases written_switchThreeWay hswitch with hnone | ⟨other, hother, hone⟩
    · rw [hnone] at hmem
      exact absurd hmem List.not_mem_nil
    · rw [hone] at hmem
      rw [List.mem_singleton.1 hmem]
      exact hother
  constructor
  case progress => exact progress_programControllers hrest
  case confined =>
    intro address hmem
    rw [hwritten] at hmem
    rcases List.mem_append.1 hmem with hmem | hmem
    · exact .inr (hthree address hmem)
    · exact .inl (hregisters address hmem)
  case once =>
    intro address haddress
    -- the register belongs to no controller, so that only the switch can write to it
    have hnot : address ∉ written rest := by
      intro hmem
      obtain ⟨c, hc, hcontains⟩ := (hregisters address hmem).contains
      exact hblocks.threeWay c (hlist c hc) address haddress hcontains
    rw [hwritten, List.count_append, List.count_eq_zero_of_not_mem hnot]
    rcases written_switchThreeWay hswitch with hnone | ⟨other, -, hone⟩
    · rw [hnone]
      exact Nat.zero_le 1
    · rw [hone]
      exact List.count_le_length
  case spared =>
    intro c hc hother address hmem hcontains
    rw [hwritten] at hmem
    rcases List.mem_append.1 hmem with hmem | hmem
    · exact hblocks.threeWay c hc address (hthree address hmem) hcontains
    · obtain ⟨d, hd, hd'⟩ := (hregisters address hmem).contains
      exact hblocks.apart d (hlist d hd) c hc (ne_of_mem_of_not_mem hd hother) address
        ⟨hd', hcontains⟩

end BringUp

namespace Session

theorem blocksDisjoint_twoModules (latencies₀ latencies₁ : UInt8) :
    (twoModules latencies₀ latencies₁).state.platform.BlocksDisjoint := by
  have hplatform : (twoModules latencies₀ latencies₁).state.platform =
      { Platform.singleSlot with controllerCount := 2 } := rfl
  rw [hplatform]
  constructor
  case apart => exact fun c hc d hd hne => Region.disjoint_of_stop_le (by revert c d; decide)
  case threeWay => exact fun c hc address haddress => absurd haddress (by simp [Platform.singleSlot])

/-- **Who is programmed, and where writes go.** In a bring-up that succeeds, whatever the controllers
answer: the controllers in use some of whose modules take part and have a common timing come to the
end, the others are not touched, and all writes go to the registers of the former, but for one at
most to the register for interleaving among three controllers. A bring-up that fails writes
nothing. -/
theorem footprint_bringUp {σ : Type} (d : Device σ) (s : Session B) (x : σ)
    (hblocks : s.state.platform.BlocksDisjoint) :
    ((s.bringUp.run d { state := x }).1.2.failure = none →
      Footprint (s.bringUp.run d { state := x }).1.1.state
          (s.bringUp.run d { state := x }).1.2.progress
          (s.bringUp.run d { state := x }).2.events ∧
        ∀ c, c ∈ BringUp.programmable (s.bringUp.run d { state := x }).1.1.state ↔
          c ∈ s.state.platform.controllerList ∧
            (s.bringUp.run d { state := x }).1.1.state.Timed s.setup c) ∧
      ((s.bringUp.run d { state := x }).1.2.failure ≠ none →
        written (s.bringUp.run d { state := x }).2.events = []) := by
  constructor
  · intro hok
    obtain ⟨reads, switch, rest, ws, modules, hreads, hswitch, hrest, hevents, hplatform, hstate⟩ :=
      run_bringUp_of_ok d s x hok
    generalize s.bringUp.run d { state := x } = ran at *
    have hp : ran.1.1.state.platform = s.state.platform := by
      rw [hstate, Stage.platform_configured, hplatform]
    rw [hevents]
    refine ⟨BringUp.footprint_of_yields (hp ▸ hblocks) hreads hswitch hrest, fun c => ?_⟩
    rw [State.mem_programmable, hp]
    refine and_congr_right fun hc => ?_
    rw [hstate]
    exact Stage.dimmCount_configured_ne_zero_iff s.setup false (hplatform ▸ hc)
  · intro hfailed
    exact written_of_reads (run_bringUp_of_failure d s x hfailed)

set_option maxRecDepth 100000 in
/-- Of two controllers, the one whose module supports no CAS latency is not touched. -/
theorem footprint_bringUp_twoModules :
    (twoModules 1 0).state.platform.BlocksDisjoint ∧
      ((twoModules 1 0).bringUp.run .silent { state := () }).1.2.failure = none ∧
      BringUp.programmable ((twoModules 1 0).bringUp.run .silent { state := () }).1.1.state = [0] ∧
      Footprint ((twoModules 1 0).bringUp.run .silent { state := () }).1.1.state
        ((twoModules 1 0).bringUp.run .silent { state := () }).1.2.progress
        ((twoModules 1 0).bringUp.run .silent { state := () }).2.events := by
  have hblocks := blocksDisjoint_twoModules 1 0
  have hran : ((twoModules 1 0).bringUp.run .silent { state := () }).1.2.failure = none ∧
      BringUp.programmable ((twoModules 1 0).bringUp.run .silent { state := () }).1.1.state =
        [0] := by
    decide +kernel
  obtain ⟨hok, hprogrammable⟩ := hran
  obtain ⟨hfootprint, -⟩ := (footprint_bringUp .silent (twoModules 1 0) () hblocks).1 hok
  exact ⟨hblocks, hok, hprogrammable, hfootprint⟩

end Session

end SdramBringup
