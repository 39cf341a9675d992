/-
**Interleaving among three controllers.**

Three controllers that are interleaved share one range of addresses, and a register of the platform
has to be told before any of them is programmed. A platform need not have that register. The check of
the interleaving does not look: it lets three controllers of one geometry share a range whether or
not there is a register to switch it on. This module shows that a bring-up tells the register whenever
there is one, and which requests on which platforms leave controllers interleaved that nothing
interleaves.

Main definitions:

* `State.AlikeFirst` — the first module of a controller has the geometry of that of the first one;
* `State.ThreeWay` — three controllers of one geometry are interleaved in one mode;
* `ThreeWayEngaged` — the register is told of a mode before any controller is programmed;
* `ThreeWayKept` — **the promise**, for what is left in the state and what was done;
* `Setup.AsksThreeWay` — one mode for three controllers is asked for at all of them.

Main results:

* `State.threeWay_of_sound` — what the check lets pass;
* `Stage.region_configured_of_threeWay` — the range that the controllers then share;
* `Stage.threeWay_configured_iff` — **the requests that are left over** in a configuration;
* `Session.threeWayKept_iff` — **when the promise is kept**, and
  `Session.not_threeWayKept_threeModules` for a platform that breaks it.
-/

import SdramBringup.Proofs.GroupPlacement
import SdramBringup.Proofs.ResetSequence
import SdramBringup.Proofs.Success

set_option relaxedAutoImplicit false
set_option autoImplicit false

namespace SdramBringup

variable {B : Type} [BoardHook B]

open Program

/-! ### Three controllers that are interleaved -/

namespace State

/-- The module in the first slot of a controller has the geometry of that of the first controller. -/
def AlikeFirst (s : State) (c : Fin 3) : Prop :=
  s.controllers[c].dimms[(0 : Fin 2)].rankSize =
      s.controllers[(0 : Fin 3)].dimms[(0 : Fin 2)].rankSize ∧
    s.controllers[c].dimms[(0 : Fin 2)].ranks =
      s.controllers[(0 : Fin 3)].dimms[(0 : Fin 2)].ranks ∧
    s.controllers[c].dimms[(0 : Fin 2)].rowBits =
      s.controllers[(0 : Fin 3)].dimms[(0 : Fin 2)].rowBits ∧
    s.controllers[c].dimms[(0 : Fin 2)].columnBits =
      s.controllers[(0 : Fin 3)].dimms[(0 : Fin 2)].columnBits

instance (s : State) (c : Fin 3) : Decidable (s.AlikeFirst c) :=
  inferInstanceAs (Decidable (_ ∧ _ ∧ _ ∧ _))

/-- All controllers are interleaved with the mode, which is one for three controllers. -/
structure ThreeWay (s : State) (mode : ControllerMode) : Prop where
  ways : mode.ways = 3
  controllers : s.platform.controllers = 3
  modes : ∀ c : Fin 3, s.controllers[c].options.controllerMode = some mode
  alike : ∀ c : Fin 3, s.AlikeFirst c

variable {s : State}

theorem matchesFirst_iff {c : Fin 3} :
    s.matchesFirst c = true ↔ s.AlikeFirst c ∧
      s.controllers[c].options.controllerMode =
        s.controllers[(0 : Fin 3)].options.controllerMode := by
  simp only [matchesFirst, AlikeFirst, Bool.and_eq_true, beq_iff_eq, and_assoc]

theorem alikeFirst_unplaced (c : Fin 3) : s.unplaced.AlikeFirst c ↔ s.AlikeFirst c := by
  have hsame : ∀ c : Fin 3, ∀ f : Dimm → Nat, (∀ d, f d.unplaced = f d) →
      f s.unplaced.controllers[c].dimms[(0 : Fin 2)] = f s.controllers[c].dimms[(0 : Fin 2)] :=
    fun c _ hf => s.first_unplaced c hf
  rw [AlikeFirst, AlikeFirst, hsame c Dimm.rankSize fun _ => rfl, hsame c Dimm.ranks fun _ => rfl,
    hsame c Dimm.rowBits fun _ => rfl, hsame c Dimm.columnBits fun _ => rfl,
    hsame 0 Dimm.rankSize fun _ => rfl, hsame 0 Dimm.ranks fun _ => rfl,
    hsame 0 Dimm.rowBits fun _ => rfl, hsame 0 Dimm.columnBits fun _ => rfl]

theorem threeWay_unplaced {mode : ControllerMode} : s.unplaced.ThreeWay mode ↔ s.ThreeWay mode := by
  constructor
  · intro h
    exact ⟨h.ways, h.controllers, fun c => by rw [← options_unplaced, h.modes],
      fun c => (alikeFirst_unplaced c).1 (h.alike c)⟩
  · intro h
    exact ⟨h.ways, h.controllers, fun c => by rw [options_unplaced, h.modes],
      fun c => (alikeFirst_unplaced c).2 (h.alike c)⟩

theorem alikeFirst_checkInterleaving (c : Fin 3) :
    s.checkInterleaving.value.AlikeFirst c ↔ s.AlikeFirst c := by
  have hdimms : ∀ c : Fin 3, s.checkInterleaving.value.controllers[c].dimms =
      s.controllers[c].dimms := by
    intro c
    rw [controllers_checkInterleaving]
    split <;> rfl
  rw [AlikeFirst, AlikeFirst, hdimms, hdimms]

/-- **The check lets a mode for three controllers pass** only if all of three controllers have it and
their modules are alike. -/
theorem threeWay_of_sound (h : s.interleavingSound = true) {c : Fin 3}
    (hc : c ∈ s.platform.controllerList) {mode : ControllerMode}
    (hmode : s.controllers[c].options.controllerMode = some mode) (hways : mode.ways = 3) :
    s.ThreeWay mode := by
  obtain ⟨hmatch, hlength⟩ := Bool.and_eq_true_iff.1 h
  have hmatches : ∀ d ∈ s.interleaved, s.matchesFirst d = true := List.all_eq_true.1 hmatch
  have hmem : c ∈ s.interleaved := mem_interleaved.2 ⟨hc, by rw [hmode]; rfl⟩
  have hzero : s.controllers[(0 : Fin 3)].options.controllerMode = some mode :=
    (matchesFirst_iff.1 (hmatches c hmem)).2.symm.trans hmode
  have hrequired : s.requiredControllers = 3 := by
    rw [requiredControllers, hzero]
    simp [hways]
  have hthree : s.interleaved.length = 3 := by
    have hne : s.interleaved.length ≠ 0 := fun hnil =>
      List.ne_nil_of_mem hmem (List.length_eq_zero_iff.1 hnil)
    simpa [hne, hrequired] using hlength
  -- three of three controllers are in use and interleaved
  have hall : ∀ d : Fin 3, d.val < s.platform.controllers ∧
      s.controllers[d].options.controllerMode.isSome = true := by
    rw [interleaved, Platform.controllerList, List.filter_filter] at hthree
    intro d
    have hd := List.length_filter_eq_length_iff.1 (hthree.trans (List.length_finRange (n := 3)).symm)
      d (List.mem_finRange d)
    simpa [and_comm] using hd
  have hin : ∀ d : Fin 3, d ∈ s.interleaved := fun d =>
    mem_interleaved.2 ⟨List.mem_filter.2 ⟨List.mem_finRange d, by simpa using (hall d).1⟩, (hall d).2⟩
  have hcount : s.platform.controllers = 3 :=
    Nat.le_antisymm (Nat.min_le_right _ _) (hall 2).1
  exact ⟨hways, hcount, fun d => (matchesFirst_iff.1 (hmatches d (hin d))).2.trans hzero,
    fun d => (matchesFirst_iff.1 (hmatches d (hin d))).1⟩

/-- Three controllers that are alike pass the check. -/
theorem ThreeWay.sound {mode : ControllerMode} (h : s.ThreeWay mode) :
    s.interleavingSound = true := by
  have hinterleaved : s.interleaved = [0, 1, 2] := by
    rw [interleaved, Platform.controllerList_of_three h.controllers]
    exact List.filter_eq_self.2 fun c _ => by rw [h.modes c]; rfl
  have hrequired : s.requiredControllers = 3 := by
    rw [requiredControllers, h.modes 0]
    simp [h.ways]
  have hmatches : s.interleaved.all s.matchesFirst = true :=
    List.all_eq_true.2 fun c _ =>
      matchesFirst_iff.2 ⟨h.alike c, (h.modes c).trans (h.modes 0).symm⟩
  rw [interleavingSound, hmatches, hrequired, hinterleaved]
  rfl

end State

/-! ### What is left over in a configuration -/

/-- One mode for three controllers is asked for at all of them. -/
def Setup.AsksThreeWay (setup : Setup B) (mode : ControllerMode) : Prop :=
  mode.ways = 3 ∧ ∀ c : Fin 3, setup.interleave.controller c = some mode

namespace Stage

variable {setup : Setup B} {sizeOnly : Bool} {s : State}

/-- A configuration passes the check of its interleaving. -/
theorem interleavingSound_configured (setup : Setup B) (sizeOnly : Bool) (s : State) :
    (configured setup sizeOnly s).interleavingSound = true := by
  rw [← State.interleavingSound_unplaced, unplaced_configured, State.interleavingSound_unplaced]
  exact State.interleavingSound_checkInterleaving (derived setup (reconciled setup s))

/-- The placement and the registers leave a group of three to what the check made of it. -/
theorem threeWay_configured_iff_checked {mode : ControllerMode} :
    (configured setup sizeOnly s).ThreeWay mode ↔
      (prepared setup s).checkInterleaving.value.ThreeWay mode := by
  rw [← State.threeWay_unplaced, unplaced_configured, State.threeWay_unplaced, prepared]

/-- **The requests that are left over**: three controllers are interleaved in a configuration exactly
when all of three ask for one mode and their modules are alike. -/
theorem threeWay_configured_iff {setup : Setup (Option Board)} {mode : ControllerMode} :
    (configured setup sizeOnly s).ThreeWay mode ↔
      s.platform.controllers = 3 ∧ setup.AsksThreeWay mode ∧
        ∀ c : Fin 3, (configured setup sizeOnly s).AlikeFirst c := by
  have huse : ∀ c : Fin 3, s.platform.controllers = 3 → c ∈ s.platform.controllerList := by
    intro c hcount
    rw [Platform.controllerList_of_three hcount]
    exact List.mem_finRange c
  constructor
  · intro h
    have hcount : s.platform.controllers = 3 := by
      rw [← platform_configured setup sizeOnly s]
      exact h.controllers
    have hchecked := threeWay_configured_iff_checked.1 h
    -- a mode that is left over was there before the check
    have hsound : (prepared setup s).interleavingSound = true := by
      by_contra hnot
      have hfalse : (prepared setup s).interleavingSound = false := by simpa using hnot
      have hmode := hchecked.modes 0
      rw [State.controllers_checkInterleaving, platform_prepared, if_pos ⟨hfalse, huse 0 hcount⟩]
        at hmode
      exact absurd hmode (by simp [State.alone])
    rw [State.checkInterleaving_of_sound hsound] at hchecked
    refine ⟨hcount, ⟨h.ways, fun c => ?_⟩, h.alike⟩
    rw [← hchecked.modes c, controllerMode_prepared setup (huse c hcount), if_pos (by omega)]
  · rintro ⟨hcount, ⟨hways, hasks⟩, halike⟩
    have hprepared : (prepared setup s).ThreeWay mode := by
      refine ⟨hways, by rwa [platform_prepared], fun c => ?_, fun c => ?_⟩
      · rw [controllerMode_prepared setup (huse c hcount), if_pos (by omega)]
        exact hasks c
      · rw [← State.alikeFirst_checkInterleaving, ← State.alikeFirst_unplaced, prepared,
          ← unplaced_configured setup sizeOnly, State.alikeFirst_unplaced]
        exact halike c
    rw [threeWay_configured_iff_checked, State.checkInterleaving_of_sound hprepared.sound]
    exact hprepared

/-- **Three controllers share a range** that starts at the first address of the memory and has room
for three shares. -/
theorem region_configured_of_threeWay {mode : ControllerMode}
    (h : (configured setup sizeOnly s).ThreeWay mode) :
    ∃ share, ∀ c : Fin 3, (configured setup sizeOnly s).controllers[c].region =
      ⟨s.platform.sdramBase, 3 * share⟩ := by
  have hchecked := threeWay_configured_iff_checked.1 h
  have hplatform : (prepared setup s).checkInterleaving.value.platform = s.platform := by
    rw [State.platform_checkInterleaving, platform_prepared]
  have hregions := congrArg Prod.fst
    (State.map_region_placing (prepared setup s).checkInterleaving.value)
  rw [State.demands, Platform.controllerList_of_three hchecked.controllers] at hregions
  simp only [List.map_cons, List.map_nil, hchecked.modes, Placement.layout_some,
    Placement.layout_nil, hchecked.ways, hplatform, List.cons.injEq, and_true] at hregions
  obtain ⟨h₀, h₁, h₂⟩ := hregions
  refine ⟨(prepared setup s).checkInterleaving.value.withShifts.groupShare, fun c => ?_⟩
  rw [region_configured, arranged]
  obtain rfl | rfl | rfl : c = 0 ∨ c = 1 ∨ c = 2 := by omega
  · exact h₀
  · exact h₁
  · exact h₂

end Stage

/-! ### The promise -/

/-- The value that switches interleaving among three controllers on. -/
def ControllerMode.threeWayWord (mode : ControllerMode) : Word :=
  Bits.threeWayEnable ||| (BitVec.ofNat 32 mode.code &&& Bits.threeWayMode)

/-- The register for interleaving among three controllers is told of the mode before anything else is
done than to read. -/
def ThreeWayEngaged (p : Platform) (mode : ControllerMode) (events : List Event) : Prop :=
  ∃ address before after, p.threeWayRegister = some address ∧
    events = before ++ .did (.write address mode.threeWayWord) :: after ∧
      ∀ e ∈ before, ∃ a v, e = Event.read a v

/-- Controllers that are left with a mode for three are interleaved by the hardware, and none is left
with such a mode where the hardware cannot do it. -/
structure ThreeWayKept (s : State) (events : List Event) : Prop where
  engaged : ∀ c ∈ s.platform.controllerList, ∀ mode,
    s.controllers[c].options.controllerMode = some mode → mode.ways = 3 →
      ThreeWayEngaged s.platform mode events
  supported : s.platform.threeWayRegister = none → ∀ c ∈ s.platform.controllerList, ∀ mode,
    s.controllers[c].options.controllerMode = some mode → mode.ways ≠ 3

namespace BringUp

/-- The register is told of the mode of three interleaved controllers, and of nothing else. -/
theorem yields_switchThreeWay_of_threeWay {s : State} {mode : ControllerMode}
    (h : s.ThreeWay mode) {address : Nat} (hregister : s.platform.threeWayRegister = some address)
    {events : List Event} (hswitch : (switchThreeWay s).Yields events ()) :
    events = [.did (.write address mode.threeWayWord)] := by
  simp only [switchThreeWay, h.modes 0, hregister, h.ways, if_true] at hswitch
  exact yields_store_iff.1 hswitch

end BringUp

namespace Session

/-- **When interleaving among three controllers is switched on.** In a bring-up that succeeds,
whatever the controllers answer: controllers that are left with a mode for three are interleaved by
the hardware, unless the platform has no register for it, three controllers all ask for that mode and
their first modules are alike. -/
theorem threeWayKept_iff {σ : Type} (d : Device σ) (s : Session (Option Board)) (x : σ)
    (hok : (s.bringUp.run d { state := x }).1.2.failure = none) :
    ThreeWayKept (s.bringUp.run d { state := x }).1.1.state
        (s.bringUp.run d { state := x }).2.events ↔
      ¬(s.state.platform.threeWayRegister = none ∧ s.state.platform.controllers = 3 ∧
        (∃ mode, s.setup.AsksThreeWay mode) ∧
        ∀ c : Fin 3, (s.bringUp.run d { state := x }).1.1.state.AlikeFirst c) := by
  obtain ⟨reads, switch, rest, ws, modules, hreads, hswitch, -, hevents, hplatform, hstate⟩ :=
    run_bringUp_of_ok d s x hok
  generalize s.bringUp.run d { state := x } = ran at *
  have hp : ran.1.1.state.platform = s.state.platform := by
    rw [hstate, Stage.platform_configured, hplatform]
  have hsound : ran.1.1.state.interleavingSound = true := by
    rw [hstate]
    exact Stage.interleavingSound_configured s.setup false modules
  have hiff : ∀ mode, ran.1.1.state.ThreeWay mode ↔ s.state.platform.controllers = 3 ∧
      s.setup.AsksThreeWay mode ∧ ∀ c : Fin 3, ran.1.1.state.AlikeFirst c := by
    intro mode
    rw [hstate, ← hplatform]
    exact Stage.threeWay_configured_iff
  rw [hevents]
  constructor
  · -- a group of three without the register is not supported
    rintro hkept ⟨hnone, hcount, ⟨mode, hasks⟩, halike⟩
    have hthree := (hiff mode).2 ⟨hcount, hasks, halike⟩
    refine hkept.supported (hp ▸ hnone) 0 ?_ mode (hthree.modes 0) hthree.ways
    rw [Platform.controllerList_of_three hthree.controllers]
    exact List.mem_cons_self
  · intro hnot
    have hgroup : ∀ c ∈ ran.1.1.state.platform.controllerList, ∀ mode,
        ran.1.1.state.controllers[c].options.controllerMode = some mode → mode.ways = 3 →
          ran.1.1.state.ThreeWay mode ∧ ran.1.1.state.platform.threeWayRegister ≠ none := by
      intro c hc mode hmode hways
      have hthree := State.threeWay_of_sound hsound hc hmode hways
      obtain ⟨hcount, hasks, halike⟩ := (hiff mode).1 hthree
      exact ⟨hthree, fun hnone => hnot ⟨hp ▸ hnone, hcount, ⟨mode, hasks⟩, halike⟩⟩
    constructor
    case engaged =>
      intro c hc mode hmode hways
      obtain ⟨hthree, hregister⟩ := hgroup c hc mode hmode hways
      obtain ⟨address, haddress⟩ := Option.ne_none_iff_exists'.1 hregister
      obtain rfl := BringUp.yields_switchThreeWay_of_threeWay hthree haddress hswitch
      exact ⟨address, reads, rest, haddress, rfl, hreads⟩
    case supported =>
      intro hnone c hc mode hmode hways
      exact (hgroup c hc mode hmode hways).2 hnone

/-- Three controllers with a module of 256 MiB each, which are to be interleaved. -/
def threeModules (register : Option Nat) : Session (Option Board) :=
  .start
    { Setup.bare 1600000000 with
      images := fun _ _ => some (moduleImage 1)
      interleave := .uniform (some .threeWay1k) none false }
    { Platform.singleSlot with
      controllerCount := 3
      registerBases := #v[0x01080000, 0x01090000, 0x010A0000]
      threeWayRegister := register }

set_option maxRecDepth 100000 in
/-- With the register, the promise is kept. -/
theorem threeWayKept_threeModules :
    ((threeModules (some 0x01018000)).bringUp.run .silent { state := () }).1.2.failure = none ∧
      ThreeWayKept ((threeModules (some 0x01018000)).bringUp.run .silent { state := () }).1.1.state
        ((threeModules (some 0x01018000)).bringUp.run .silent { state := () }).2.events := by
  have hok : ((threeModules (some 0x01018000)).bringUp.run .silent { state := () }).1.2.failure =
      none := by
    decide +kernel
  refine ⟨hok, (threeWayKept_iff .silent _ () hok).2 fun h => ?_⟩
  exact absurd h.1 (by simp [threeModules, start, State.fresh])

set_option maxRecDepth 100000 in
/-- Without it, three controllers share a range that nothing interleaves. -/
theorem not_threeWayKept_threeModules :
    ((threeModules none).bringUp.run .silent { state := () }).1.2.failure = none ∧
      ¬ThreeWayKept ((threeModules none).bringUp.run .silent { state := () }).1.1.state
        ((threeModules none).bringUp.run .silent { state := () }).2.events := by
  have hleft : ((threeModules none).bringUp.run .silent { state := () }).1.2.failure = none ∧
      ((threeModules none).bringUp.run .silent { state := () }).1.1.state.platform =
        (threeModules none).state.platform ∧
      ((threeModules none).bringUp.run .silent { state := () }).1.1.state.controllers[
        (0 : Fin 3)].options.controllerMode = some .threeWay1k := by
    decide +kernel
  obtain ⟨hok, hplatform, hmode⟩ := hleft
  refine ⟨hok, fun h => ?_⟩
  have hnone := h.supported (by rw [hplatform]; rfl) 0 (by rw [hplatform]; decide) .threeWay1k hmode
  exact hnone rfl

end Session

end SdramBringup
