/-
**Whether an interleaved range is backed by memory.**

The range of a group is as large as the shares of its members together, and one share is reckoned
from the first module of the first controller: a number of its ranks, by how the first controller
interleaves its chip selects. The check before it compares the first modules of all members. But
four chip selects that share a range may belong to two modules, and a bus may shrink the modules of
one member more than those of another. Then a share is more than the first module of a member, and
the range is backed only if the modules in the second slots make up for what is missing.

Main definitions:

* `Dimm.Genuine` — the sizes of a module fit together;
* `State.GroupBacked` — **the promise**: the range of a group is no larger than its modules;
* `State.Stretched` — a share counts more than the first module of some member;
* `State.firstRooms`, `State.secondRooms`, `State.shortfall` — what the slots contribute, and what
  the first ones lack.

Main results:

* `State.groupShare_le_room` — a share that is not stretched is within the first module of a member;
* `State.groupBacked_placed_iff` — **the promise is kept exactly when the second slots make up for a
  stretched share**.
-/

import Mathlib.Algebra.Order.BigOperators.Group.List
import Mathlib.Algebra.Order.Ring.Nat
import SdramBringup.Proofs.Configured
import SdramBringup.Proofs.GroupPlacement
import SdramBringup.Proofs.IgnoredModule
import SdramBringup.Proofs.ReportedMemory

set_option relaxedAutoImplicit false
set_option autoImplicit false

namespace SdramBringup

open Placement

/-! ### Modules whose sizes fit together -/

/-- The size of the module is that of its ranks, and without ranks there is no rank size. -/
def Dimm.Genuine (d : Dimm) : Prop :=
  d.capacity = d.ranks * d.rankSize ∧ (d.ranks = 0 → d.rankSize = 0)

instance (d : Dimm) : Decidable d.Genuine := inferInstanceAs (Decidable (_ ∧ _))

/-- Whatever an image describes is genuine. -/
theorem Spd.Image.genuine_decode {image : Spd.Image} {d : Dimm} (h : image.decode = .ok d) :
    d.Genuine := by
  have hwell := wellFormed_of_decode h
  refine ⟨hwell.capacity.1, fun hnone => ?_⟩
  have hranks := hwell.ranks.1
  omega

/-! ### Shares -/

/-- How many ranks of the first module a share of a group counts. -/
def BankMode.counted : BankMode → Nat
  | allFour => 4
  | lowPair | bothPairs => 2
  | off | highPair | auto => 1

/-- **Only four chip selects can be more than the first module has ranks.** -/
theorem BankMode.counted_le {mode : BankMode} {slots r₀ r₁ : Nat} {quadCapable : Bool}
    (h : mode.supported slots r₀ r₁ quadCapable = true) (hranks : r₀ ≠ 0)
    (hfour : mode = allFour → 4 ≤ r₀) : mode.counted ≤ r₀ := by
  cases mode with
  | off => exact Nat.one_le_iff_ne_zero.2 hranks
  | highPair => exact Nat.one_le_iff_ne_zero.2 hranks
  | auto => exact Nat.one_le_iff_ne_zero.2 hranks
  | lowPair => simpa [supported, counted] using h
  | allFour => exact hfour rfl
  | bothPairs =>
      rw [counted]
      by_cases hslots : slots = 1 <;> simp [supported, hslots] at h <;> omega

/-- Ranks on a wide bus are within the whole module on a bus that is not narrower. -/
theorem Placement.mul_div_le_room {d : Dimm} (hcapacity : d.capacity = d.ranks * d.rankSize)
    {n shift shift' : Nat} (hn : n ≤ d.ranks) (hshift : shift' ≤ shift) :
    n * (d.rankSize / 2 ^ shift) ≤ room shift' d := by
  rw [room, hcapacity]
  calc n * (d.rankSize / 2 ^ shift) ≤ n * d.rankSize / 2 ^ shift := Nat.mul_div_le_mul_div_assoc ..
    _ ≤ d.ranks * d.rankSize / 2 ^ shift := Nat.div_le_div_right (Nat.mul_le_mul_right _ hn)
    _ ≤ d.ranks * d.rankSize / 2 ^ shift' :=
        Nat.div_le_div_left (Nat.pow_le_pow_right (by decide) hshift) (Nat.two_pow_pos shift')

namespace State

theorem groupShare_eq (s : State) :
    s.groupShare =
      s.controllers[(0 : Fin 3)].options.bankMode.counted *
        (s.controllers[(0 : Fin 3)].dimms[(0 : Fin 2)].rankSize /
          2 ^ s.controllers[(0 : Fin 3)].widthShift) := by
  cases h : s.controllers[(0 : Fin 3)].options.bankMode <;>
    simp only [groupShare, h, BankMode.counted, Nat.one_mul]

/-! ### The promise -/

variable (s : State)

/-- The room of the modules of a controller. -/
def occupied (c : Fin 3) : Nat :=
  ((s.installed c).map (room s.controllers[c].widthShift)).sum

/-- The range of a group is no larger than the modules of its members together. -/
def GroupBacked : Prop :=
  ∀ c ∈ s.interleaved, s.controllers[c].region.size ≤ (s.interleaved.map s.occupied).sum

/-- The room of the module in the first slot of a controller. -/
def firstRoom (c : Fin 3) : Nat :=
  room s.controllers[c].widthShift s.controllers[c].dimms[(0 : Fin 2)]

/-- The room of the modules in the first slots of a group. -/
def firstRooms : Nat := (s.interleaved.map s.firstRoom).sum

/-- The room of the modules in the second slots of a group. -/
def secondRooms : Nat :=
  (s.interleaved.map fun c =>
    (((s.installed c).drop 1).map (room s.controllers[c].widthShift)).sum).sum

/-- What the modules in the first slots lack for the shares of all members. -/
def shortfall : Nat := s.interleaved.length * s.groupShare - s.firstRooms

/-- A share counts more than the first module of some member: its bus is narrower than that of the
first controller, or four chip selects are counted where the first module has fewer ranks. -/
def Stretched : Prop :=
  (∃ c ∈ s.interleaved,
    s.controllers[(0 : Fin 3)].widthShift < s.controllers[c].widthShift) ∨
    s.controllers[(0 : Fin 3)].options.bankMode = .allFour ∧
      s.controllers[(0 : Fin 3)].dimms[(0 : Fin 2)].ranks < 4

instance : Decidable s.GroupBacked := inferInstanceAs (Decidable (∀ c ∈ s.interleaved, _))

instance : Decidable s.Stretched := inferInstanceAs (Decidable (_ ∨ _))

/-- The modules of a group are those in the first slots and those in the second ones. -/
theorem sum_occupied : (s.interleaved.map s.occupied).sum = s.firstRooms + s.secondRooms := by
  rw [firstRooms, secondRooms, ← List.sum_map_add]
  refine congrArg List.sum (List.map_congr_left fun c _ => ?_)
  rw [occupied, firstRoom, installed]
  rcases s.platform.slots_eq with h | h
  · rw [h, Controller.installed_one]
    rfl
  · rw [h, Controller.installed_two]
    rfl

/-! ### The placed group -/

section Placed

variable {s} {c : Fin 3}

/-- Nothing but the address of the module in the first slot changes. -/
theorem first_placing (hc : c ∈ s.platform.controllerList) {α : Type} {f : Dimm → α}
    (hf : ∀ d base, f { d with base := base } = f d) :
    f s.placing.state.controllers[c].dimms[(0 : Fin 2)] =
      f s.controllers[c].dimms[(0 : Fin 2)] := by
  have h := getD_congr (map_installed_placing hc hf) (0 : Fin 2)
  rw [installed, installed, platform_placing,
    Controller.getD_installed _ (j := 0) s.platform.slots_pos,
    Controller.getD_installed _ (j := 0) s.platform.slots_pos] at h
  exact h

theorem groupShare_placing (hzero : 0 ∈ s.platform.controllerList) :
    s.placing.state.groupShare = s.withShifts.groupShare := by
  rw [groupShare_eq, groupShare_eq, options_placing hzero, widthShift_placing hzero,
    first_placing hzero (f := Dimm.rankSize) fun _ _ => rfl, controllers_withShifts, if_pos hzero]
  rfl

/-- The range of a member has a share for each of the ways of its mode. -/
theorem size_region_placing (hc : c ∈ s.platform.controllerList) {mode : ControllerMode}
    (hmode : s.controllers[c].options.controllerMode = some mode) :
    s.placing.state.controllers[c].region.size = mode.ways * s.withShifts.groupShare := by
  obtain ⟨base, h⟩ := controllers_placing s hc
  have hsome : (withShift s.platform s.controllers[c]).options.controllerMode = some mode := hmode
  rw [h, placedAt_of_some hsome]
  rfl

/-- A group that the check lets pass has as many members as its mode has ways, and they are alike in
their first slots. -/
theorem group_of_sound (h : s.interleavingSound = true) (hcount : 2 ≤ s.platform.controllers)
    (hne : s.interleaved ≠ []) :
    0 ∈ s.platform.controllerList ∧ ∃ mode : ControllerMode, s.interleaved.length = mode.ways ∧
      ∀ c ∈ s.interleaved, s.controllers[c].options.controllerMode = some mode ∧
        s.controllers[c].dimms[(0 : Fin 2)].rankSize =
          s.controllers[(0 : Fin 3)].dimms[(0 : Fin 2)].rankSize ∧
        s.controllers[c].dimms[(0 : Fin 2)].ranks =
          s.controllers[(0 : Fin 3)].dimms[(0 : Fin 2)].ranks := by
  obtain ⟨mode, -, hmode, hgroup⟩ := interleaved_of_sound h hcount hne
  have hzero : 0 ∈ s.interleaved := by
    rcases hgroup with ⟨hgroup, -⟩ | ⟨-, hgroup, -⟩ | ⟨-, hgroup, -⟩ <;> simp [hgroup]
  have hlength : s.interleaved.length = mode.ways := by
    rcases hgroup with ⟨hgroup, hways⟩ | ⟨-, hgroup, hways⟩ | ⟨-, hgroup, hways⟩ <;>
      simp [hgroup, hways]
  refine ⟨(mem_interleaved.1 hzero).1, mode, hlength, fun c hc => ⟨hmode c hc, ?_⟩⟩
  have hmatch := List.all_eq_true.1 (Bool.and_eq_true_iff.1 h).1 c hc
  simp only [matchesFirst, Bool.and_eq_true, beq_iff_eq] at hmatch
  exact ⟨hmatch.1.1.1.1, hmatch.1.1.1.2⟩

end Placed

/-- The ranks that the interleaving of the chip selects sees in the first slot. -/
theorem ranksIn_first (s : State) (c : Fin 3) :
    Options.ranksIn s.platform (s.installed c) 0 = s.controllers[c].dimms[(0 : Fin 2)].ranks :=
  Stage.ranksIn_first s.platform s.controllers[c]

/-- **A share that is not stretched is within the first module of every member.** -/
theorem groupShare_le_room {s : State} (hsupported : s.BankModesSupported)
    (hzero : 0 ∈ s.platform.controllerList) (hstretched : ¬s.Stretched) {c : Fin 3}
    (hc : c ∈ s.interleaved) (hgenuine : s.controllers[c].dimms[(0 : Fin 2)].Genuine)
    (hsize : s.controllers[c].dimms[(0 : Fin 2)].rankSize =
      s.controllers[(0 : Fin 3)].dimms[(0 : Fin 2)].rankSize)
    (hranks : s.controllers[c].dimms[(0 : Fin 2)].ranks =
      s.controllers[(0 : Fin 3)].dimms[(0 : Fin 2)].ranks) :
    s.groupShare ≤ s.firstRoom c := by
  obtain ⟨hshift, hfour⟩ := not_or.1 hstretched
  obtain ⟨hcapacity, hempty⟩ := hgenuine
  rw [groupShare_eq, ← hsize, firstRoom]
  by_cases hnone : s.controllers[c].dimms[(0 : Fin 2)].ranks = 0
  · simp [hempty hnone]
  · have hmode := hsupported 0 hzero
    rw [ranksIn_first, ← hranks] at hmode
    refine mul_div_le_room hcapacity (BankMode.counted_le hmode hnone fun hall => ?_) ?_
    · by_contra hless
      exact hfour ⟨hall, by omega⟩
    · by_contra hless
      exact hshift ⟨c, hc, by omega⟩

/-! ### The promise kept and broken -/

/-- The range of a placed group against the modules in its slots. -/
theorem groupBacked_placing_iff {s : State} (h : s.interleavingSound = true)
    (hcount : 2 ≤ s.platform.controllers) (hne : s.interleaved ≠ []) :
    s.placing.state.GroupBacked ↔
      s.placing.state.shortfall ≤ s.placing.state.secondRooms := by
  obtain ⟨hzero, mode, hlength, halike⟩ := group_of_sound h hcount hne
  have hsize : ∀ c ∈ s.interleaved, s.placing.state.controllers[c].region.size =
      s.interleaved.length * s.placing.state.groupShare := by
    intro c hc
    rw [size_region_placing (mem_interleaved.1 hc).1 (halike c hc).1, hlength,
      groupShare_placing hzero]
  have hbacked : s.placing.state.GroupBacked ↔
      s.interleaved.length * s.placing.state.groupShare ≤
        s.placing.state.firstRooms + s.placing.state.secondRooms := by
    rw [GroupBacked, sum_occupied, interleaved_placing]
    constructor
    · intro hall
      obtain ⟨c, hc⟩ := List.exists_mem_of_ne_nil _ hne
      rw [← hsize c hc]
      exact hall c hc
    · intro hle c hc
      rwa [hsize c hc]
  rw [hbacked, shortfall, interleaved_placing]
  omega

/-- Without a stretched share the first slots lack nothing. -/
theorem shortfall_eq_zero {s : State} (h : s.interleavingSound = true)
    (hcount : 2 ≤ s.platform.controllers) (hsupported : s.BankModesSupported)
    (hgenuine : ∀ c ∈ s.platform.controllerList, ∀ d ∈ s.installed c, d.Genuine)
    (hstretched : ¬s.placing.state.Stretched) : s.placing.state.shortfall = 0 := by
  by_cases hne : s.interleaved = []
  · rw [shortfall, interleaved_placing, hne, List.length_nil, Nat.zero_mul, Nat.zero_sub]
  obtain ⟨hzero, mode, -, halike⟩ := group_of_sound h hcount hne
  rw [shortfall, Nat.sub_eq_zero_iff_le, firstRooms]
  have hroom : ∀ n ∈ s.placing.state.interleaved.map s.placing.state.firstRoom,
      s.placing.state.groupShare ≤ n := by
    intro n hn
    obtain ⟨c, hc, rfl⟩ := List.mem_map.1 hn
    have hin : c ∈ s.interleaved := by rwa [interleaved_placing] at hc
    have hlist : c ∈ s.platform.controllerList := (mem_interleaved.1 hin).1
    obtain ⟨-, hsize, hranks⟩ := halike c hin
    refine groupShare_le_room (bankModesSupported_placing hsupported) ?_ hstretched hc ?_ ?_ ?_
    · rwa [platform_placing]
    · rw [first_placing hlist (f := Dimm.Genuine) fun _ _ => rfl]
      exact hgenuine c hlist _ (s.controllers[c].first_mem_installed s.platform)
    · rw [first_placing hlist (f := Dimm.rankSize) fun _ _ => rfl,
        first_placing hzero (f := Dimm.rankSize) fun _ _ => rfl, hsize]
    · rw [first_placing hlist (f := Dimm.ranks) fun _ _ => rfl,
        first_placing hzero (f := Dimm.ranks) fun _ _ => rfl, hranks]
  have hsum := List.card_nsmul_le_sum _ _ hroom
  rwa [List.length_map, Nat.nsmul_eq_mul] at hsum

/-- The check interleaves no controller that was not interleaved before. -/
theorem mode_checkInterleaving_of_none {s : State} {c : Fin 3}
    (h : s.controllers[c].options.controllerMode = none) :
    s.checkInterleaving.value.controllers[c].options.controllerMode = none := by
  rw [controllers_checkInterleaving]
  split
  · rfl
  · exact h

/-- A controller without another one is not interleaved. -/
theorem mode_prepared_of_single (setup : Setup (Option Board)) {s : State} {c : Fin 3}
    (hc : c ∈ s.platform.controllerList) (hone : ¬1 < s.platform.controllers) :
    (Stage.prepared setup s).controllers[c].options.controllerMode = none := by
  rw [Stage.controllerMode_prepared setup hc, if_neg hone]

/-- Interleaving survives the check only where there is another controller. -/
theorem two_le_of_interleaved (setup : Setup (Option Board)) (s : State)
    (h : (Stage.prepared setup s).checkInterleaving.value.interleaved ≠ []) :
    2 ≤ s.platform.controllers := by
  obtain ⟨c, hc⟩ := List.exists_mem_of_ne_nil _ h
  obtain ⟨hlist, hmode⟩ := mem_interleaved.1 hc
  rw [platform_checkInterleaving, Stage.platform_prepared] at hlist
  by_contra hone
  have hnone := mode_checkInterleaving_of_none (mode_prepared_of_single setup hlist hone)
  rw [hnone] at hmode
  exact absurd hmode (by decide)

/-- **The promise is kept exactly when the second slots make up for a stretched share.** Whatever is
asked for, and whatever modules there are: after the check and the placement the range of the group
is no larger than the modules of its members, unless the share is stretched and the second slots of
the group hold less than the first ones lack. -/
theorem groupBacked_placed_iff (setup : Setup (Option Board)) {s : State}
    (hgenuine : ∀ c ∈ s.platform.controllerList, ∀ d ∈ s.installed c, d.Genuine) :
    (Stage.placed (Stage.prepared setup s)).GroupBacked ↔
      ((Stage.placed (Stage.prepared setup s)).Stretched →
        (Stage.placed (Stage.prepared setup s)).shortfall ≤
          (Stage.placed (Stage.prepared setup s)).secondRooms) := by
  have hsupported : (Stage.prepared setup s).checkInterleaving.value.BankModesSupported :=
    bankModesSupported_checkInterleaving (bankModesSupported_derived setup _)
  have hsound := interleavingSound_checkInterleaving (Stage.prepared setup s)
  have htwo := two_le_of_interleaved setup s
  have hplatform : (Stage.prepared setup s).checkInterleaving.value.platform = s.platform := by
    rw [platform_checkInterleaving, Stage.platform_prepared]
  have hmodules : ∀ c ∈ s.platform.controllerList,
      ∀ d ∈ (Stage.prepared setup s).checkInterleaving.value.installed c, d.Genuine := by
    intro c hc
    rw [installed_checkInterleaving, Stage.installed_prepared]
    exact hgenuine c hc
  rw [Stage.placed, assignAddresses_checkInterleaving]
  rw [← hplatform] at hmodules htwo
  -- from here on only the facts above are used of the checked state
  generalize (Stage.prepared setup s).checkInterleaving.value = u at *
  by_cases hne : u.interleaved = []
  · refine iff_of_true ?_ fun _ => ?_
    · simp [GroupBacked, interleaved_placing, hne]
    · simp [shortfall, interleaved_placing, hne]
  · rw [groupBacked_placing_iff hsound (htwo hne) hne]
    constructor
    · exact fun h _ => h
    · intro h
      by_cases hstretched : u.placing.state.Stretched
      · exact h hstretched
      · rw [shortfall_eq_zero hsound (htwo hne) hsupported hmodules hstretched]
        exact Nat.zero_le _

/-- Interleaving of the controllers by pages and of the chip selects as widely as they admit. -/
def widestPages : Setup (Option Board) :=
  { Setup.bare 1600000000 with interleave := .uniform (some .page) (some .auto) false }

/-- Two controllers with two modules of two ranks each, but for the last slot. -/
def pairs (last : Dimm) : State :=
  twoByTwo (plainModule 2 (BitVec.allOnes 32)) (plainModule 2 (BitVec.allOnes 32))
    (plainModule 2 (BitVec.allOnes 32)) last

set_option maxRecDepth 100000 in
/-- Two modules at each of the two controllers back the range of the group. -/
theorem groupBacked_pairs :
    (∀ c ∈ (pairs (plainModule 2 (BitVec.allOnes 32))).platform.controllerList,
      ∀ d ∈ (pairs (plainModule 2 (BitVec.allOnes 32))).installed c, d.Genuine) ∧
      (Stage.placed (Stage.prepared widestPages
        (pairs (plainModule 2 (BitVec.allOnes 32))))).Stretched ∧
      (Stage.placed (Stage.prepared widestPages
        (pairs (plainModule 2 (BitVec.allOnes 32))))).GroupBacked :=
  ⟨by decide +kernel, by decide +kernel,
    (groupBacked_placed_iff widestPages (by decide +kernel)).2 fun _ => by decide +kernel⟩

set_option maxRecDepth 100000 in
/-- With an empty last slot a quarter of the range of the group is missing, although every module
takes part and both controllers have their timing. -/
theorem not_groupBacked_pairs :
    (∀ c ∈ (pairs {}).platform.controllerList, ∀ d ∈ (pairs {}).installed c, d.Genuine) ∧
      (∀ c ∈ (pairs {}).platform.controllerList, ∀ d ∈ ((pairs {}).installed c).zipIdx,
        d.1.isEmpty = true ∨ (pairs {}).platform.takesPart d.2 d.1 = true) ∧
      (∀ c ∈ (pairs {}).platform.controllerList,
        (Stage.prepared widestPages (pairs {})).controllers[c].common.dimmCount ≠ 0) ∧
      (Stage.placed (Stage.prepared widestPages (pairs {}))).interleaved = [0, 1] ∧
      (Stage.placed (Stage.prepared widestPages (pairs {}))).controllers[(0 : Fin 3)].region.size =
        2 ^ 31 ∧
      ((Stage.placed (Stage.prepared widestPages (pairs {}))).interleaved.map
        (Stage.placed (Stage.prepared widestPages (pairs {}))).occupied).sum = 3 * 2 ^ 29 ∧
      ¬(Stage.placed (Stage.prepared widestPages (pairs {}))).GroupBacked := by
  refine ⟨by decide +kernel, by decide +kernel, by decide +kernel, by decide +kernel,
    by decide +kernel, by decide +kernel, by decide +kernel⟩

end State

end SdramBringup
