/-
**Memory without interleaving.**

Without interleaving every rank has a range of its own. Three computations have to agree on these
ranges: the placement sums up the room of the modules, the chip selects count ranks within their
module and cut the result to units of 16 MiB, and the size of the memory is read back from the
highest unit of all. This module proves that they do: the enabled chip selects tile the memory, and
its size is what was assigned.

Main definitions:

* `State.rankRegions` — the ranges of all ranks, module by module;
* `GridPopulation` — modules that fit their slots and the grid of 16 MiB, without interleaving;
* `LinearPopulation` — such modules that all take part.

Main results:

* `GridPopulation.tiles_rankRegions` — the ranks tile what the placement assigns;
* `LinearPopulation.enabledRegions_computed` — the enabled chip selects answer to the ranks;
* `LinearPopulation.tiling` — **the enabled chip selects tile the memory**, each as long as its
  rank, and the size of the memory is what was assigned.
-/

import SdramBringup.Proofs.ChipSelect
import SdramBringup.Proofs.Stages

set_option relaxedAutoImplicit false
set_option autoImplicit false

namespace SdramBringup

variable {B : Type} [BoardHook B]

open Placement

/-! ### The chip selects of one controller -/

/-- A controller without interleaving, whose modules are placed on the grid of 16 MiB, fit their
slots and are empty unless they have a common timing. -/
structure LinearController (p : Platform) (k : Controller) : Prop where
  controllerMode : k.options.controllerMode = none
  bankMode : k.options.bankMode = .off ∨ k.options.bankMode = .auto
  counted : ∀ d ∈ k.installed p.slots, d.isEmpty = false → k.common.dimmCount ≠ 0
  fits : ∀ d ∈ k.installed p.slots, d.ranks ≤ p.chipSelectsPerSlot
  ranks : ∀ r ∈ (k.installed p.slots).flatMap (Dimm.rankRegions k.widthShift),
    2 ^ 24 ∣ r.base ∧ 2 ^ 24 ∣ r.size ∧ 0 < r.size ∧ r.stop ≤ 2 ^ 40

namespace LinearController

variable {p : Platform} {k : Controller} (h : LinearController p k) (setup : Setup B)
include h

theorem map_rankRegion :
    ((List.finRange 4).filter (Synthesis.hasRank (Stage.inputsOf setup p k))).map
        (Synthesis.rankRegion (Stage.inputsOf setup p k)) =
      (k.installed p.slots).flatMap (Dimm.rankRegions k.widthShift) := by
  have hlength : (Stage.inputsOf setup p k).dimms.length = p.slots := k.length_installed p
  refine Synthesis.map_rankRegion_filter_hasRank (hlength ▸ p.slots_eq) fun d hd => ?_
  rw [Stage.perSlot_inputsOf]
  exact h.fits d hd

/-- A chip select with a rank answers to the rank. -/
theorem region_chipSelect {cs : Fin 4}
    (hrank : Synthesis.hasRank (Stage.inputsOf setup p k) cs = true) :
    (Synthesis.chipSelect (Stage.inputsOf setup p k) cs).region =
      Synthesis.rankRegion (Stage.inputsOf setup p k) cs := by
  have hmem : Synthesis.rankRegion (Stage.inputsOf setup p k) cs ∈
      (k.installed p.slots).flatMap (Dimm.rankRegions k.widthShift) := by
    rw [← h.map_rankRegion setup]
    exact List.mem_map_of_mem (List.mem_filter.2 ⟨List.mem_finRange cs, hrank⟩)
  obtain ⟨hbase, hsize, hpos, htop⟩ := h.ranks _ hmem
  exact Synthesis.region_chipSelect hrank h.controllerMode h.bankMode hbase hsize hpos htop

/-- **The enabled chip selects of the controller** answer to the ranks of its modules, one after
another. -/
theorem enabledRegions_registersFor (sizeOnly : Bool) :
    ((Stage.registersFor setup sizeOnly p k).chipSelects.toList.filter (·.enabled)).map (·.region) =
      (k.installed p.slots).flatMap (Dimm.rankRegions k.widthShift) := by
  rw [Stage.chipSelects_registersFor]
  by_cases hcount : k.common.dimmCount = 0
  · -- all slots are empty
    have hnil : (k.installed p.slots).flatMap (Dimm.rankRegions k.widthShift) = [] := by
      rw [List.flatMap_eq_nil_iff]
      intro d hd
      cases hempty : d.isEmpty with
      | false => exact absurd hcount (h.counted d hd hempty)
      | true =>
          have hzero : d.ranks = 0 := by simpa [Dimm.isEmpty] using hempty
          simp [Dimm.rankRegions, hzero]
    rw [if_pos hcount, hnil]
    rfl
  · have hfilter : (List.finRange 4).filter
        ((·.enabled) ∘ Synthesis.chipSelect (Stage.inputsOf setup p k)) =
          (List.finRange 4).filter (Synthesis.hasRank (Stage.inputsOf setup p k)) :=
      List.filter_congr fun cs _ => Synthesis.enabled_chipSelect (Stage.inputsOf setup p k) cs
    rw [if_neg hcount, Synthesis.toList_chipSelects (Stage.dimms_inputsOf_ne_nil setup p k),
      List.filter_map, List.map_map, hfilter, ← h.map_rankRegion setup]
    exact List.map_congr_left fun cs hcs => h.region_chipSelect setup (List.mem_filter.1 hcs).2

/-- An enabled chip select is as long as its rank on the bus. -/
theorem size_region_registersFor (sizeOnly : Bool) {cs : Fin 4}
    (henabled : ((Stage.registersFor setup sizeOnly p k).chipSelects[cs]).enabled = true) :
    ((Stage.registersFor setup sizeOnly p k).chipSelects[cs]).region.size =
      ((k.installed p.slots).getD (cs / p.chipSelectsPerSlot) {}).rankSize / 2 ^ k.widthShift := by
  rw [Stage.chipSelects_registersFor] at henabled ⊢
  by_cases hcount : k.common.dimmCount = 0
  · rw [if_pos hcount] at henabled
    exact absurd henabled (by simp [ChipSelectRegisters.enabled, getElem_fin])
  · rw [if_neg hcount, Synthesis.getElem_chipSelects (Stage.dimms_inputsOf_ne_nil setup p k)]
      at henabled ⊢
    rw [Synthesis.enabled_chipSelect] at henabled
    rw [h.region_chipSelect setup henabled, ← Stage.perSlot_inputsOf setup p k]
    rfl

end LinearController

/-! ### The population -/

/-- The ranges of all ranks: controller by controller, module by module. -/
def State.rankRegions (s : State) : List Region :=
  s.platform.controllerList.flatMap fun c =>
    (s.installed c).flatMap (Dimm.rankRegions s.controllers[c].widthShift)

/-- The room that the placement assigns to all modules together. -/
def State.assigned (s : State) : Nat := s.checkInterleaving.value.assignAddresses.2

/-- Modules that fit their slots and the grid of 16 MiB, without any interleaving. -/
structure GridPopulation (s : State) : Prop where
  base_aligned : 2 ^ 24 ∣ s.platform.sdramBase
  controllerMode : ∀ c ∈ s.platform.controllerList, s.controllers[c].options.controllerMode = none
  bankMode : ∀ c ∈ s.platform.controllerList,
    s.controllers[c].options.bankMode = .off ∨ s.controllers[c].options.bankMode = .auto
  fits : ∀ c ∈ s.platform.controllerList, ∀ d ∈ s.installed c,
    d.ranks ≤ s.platform.chipSelectsPerSlot
  capacity : ∀ c ∈ s.platform.controllerList, ∀ d ∈ s.installed c, d.capacity = d.ranks * d.rankSize
  granular : ∀ c ∈ s.platform.controllerList, ∀ d ∈ s.installed c, d.isEmpty = false →
    d.rankSize ≠ 0 ∧ 2 ^ 24 * 2 ^ widthShift s.controllers[c].options (s.installed c) ∣ d.rankSize

/-- Such modules that all take part: the controller of a module has a common timing. -/
structure LinearPopulation (s : State) : Prop extends GridPopulation s where
  counted : ∀ c ∈ s.platform.controllerList, ∀ d ∈ s.installed c, d.isEmpty = false →
    s.controllers[c].common.dimmCount ≠ 0

namespace GridPopulation

variable {s : State} (h : GridPopulation s)
include h

/-- There is no interleaving to give up. -/
theorem checkInterleaving_eq : s.checkInterleaving.value = s :=
  State.checkInterleaving_of_sound (State.interleavingSound_of_none h.controllerMode)

theorem placed_eq : Stage.placed s = s.placing.state := by
  rw [Stage.placed, State.assignAddresses_checkInterleaving, h.checkInterleaving_eq]

theorem assigned_eq : s.assigned = s.placing.stop - s.platform.sdramBase := by
  rw [State.assigned, State.assignAddresses_checkInterleaving, h.checkInterleaving_eq]

/-! ### The ranks -/

/-- **The ranks tile what the placement assigns**, from the first address of the memory on. -/
theorem tiles_rankRegions :
    Region.Tiles s.platform.sdramBase s.placing.state.rankRegions s.placing.stop := by
  rw [State.rankRegions, State.platform_placing]
  refine Region.tiles_flatMap (State.tiles_placing h.controllerMode) fun c hc => ?_
  have hcapacity := State.forall_installed_placing hc (fun _ _ => Iff.rfl) (h.capacity c hc)
  have hgranular := State.forall_installed_placing hc (fun _ _ => Iff.rfl) (h.granular c hc)
  rw [← State.widthShift_placing hc] at hgranular
  refine Region.tiles_flatMap (State.tiles_installed_placing hc (h.controllerMode c hc))
    fun d hd => ?_
  exact Dimm.tiles_rankRegions (hcapacity d hd) fun hempty =>
    Nat.dvd_trans (Nat.dvd_mul_left _ _) (hgranular d hd hempty).2

/-- A rank on the bus is a number of units of 16 MiB. -/
theorem exists_rankSize_eq {c : Fin 3} (hc : c ∈ s.platform.controllerList) {d : Dimm}
    (hd : d ∈ s.installed c) (hempty : d.isEmpty = false) :
    ∃ n, 0 < n ∧
      d.rankSize / 2 ^ widthShift s.controllers[c].options (s.installed c) = 2 ^ 24 * n := by
  obtain ⟨hne, n, hn⟩ := h.granular c hc d hd hempty
  refine ⟨n, Nat.pos_of_ne_zero fun hzero => hne (by rw [hn, hzero, Nat.mul_zero]), ?_⟩
  rw [hn, Nat.mul_right_comm]
  exact Nat.mul_div_cancel _ (Nat.two_pow_pos _)

/-- Every rank is on the grid of 16 MiB, and none is empty. -/
theorem size_of_mem_rankRegions {r : Region} (hr : r ∈ s.placing.state.rankRegions) :
    2 ^ 24 ∣ r.size ∧ 0 < r.size := by
  rw [State.rankRegions, State.platform_placing] at hr
  obtain ⟨c, hc, hr⟩ := List.mem_flatMap.1 hr
  obtain ⟨d, hd, hr⟩ := List.mem_flatMap.1 hr
  obtain ⟨i, hi, rfl⟩ := List.mem_map.1 hr
  have hempty : d.isEmpty = false := by
    have := List.mem_range.1 hi
    simp only [Dimm.isEmpty, beq_eq_false_iff_ne]
    omega
  have hspan := State.forall_installed_placing hc (fun _ _ => Iff.rfl)
    (fun d hd => h.exists_rankSize_eq hc (d := d) hd) d hd hempty
  rw [← State.widthShift_placing hc] at hspan
  obtain ⟨n, hpos, hdiv⟩ := hspan
  simp only [hdiv]
  exact ⟨Nat.dvd_mul_right _ n, Nat.mul_pos (Nat.two_pow_pos 24) hpos⟩

end GridPopulation

/-! ### The chip selects -/

namespace LinearPopulation

variable {s : State} (h : LinearPopulation s)
include h

/-- A placed controller keeps to the grid and has what the population has. -/
theorem linearController (htop : s.placing.stop + 2 ^ 24 ≤ 2 ^ 40) {c : Fin 3}
    (hc : c ∈ s.platform.controllerList) :
    LinearController s.platform s.placing.state.controllers[c] := by
  have htiles := h.tiles_rankRegions
  obtain ⟨hbases, -⟩ := htiles.dvd h.base_aligned fun r hr => (h.size_of_mem_rankRegions hr).1
  have hinstalled : s.placing.state.installed c =
      s.placing.state.controllers[c].installed s.platform.slots := by
    rw [State.installed, State.platform_placing]
  constructor
  case controllerMode =>
    rw [State.options_placing hc]
    exact h.controllerMode c hc
  case bankMode =>
    rw [State.options_placing hc]
    exact h.bankMode c hc
  case counted =>
    rw [State.common_placing hc, ← hinstalled]
    exact State.forall_installed_placing hc (fun _ _ => Iff.rfl) (h.counted c hc)
  case fits =>
    rw [← hinstalled]
    exact State.forall_installed_placing hc (fun _ _ => Iff.rfl) (h.fits c hc)
  case ranks =>
    intro r hr
    have hmem : r ∈ s.placing.state.rankRegions := by
      rw [State.rankRegions, State.platform_placing]
      exact List.mem_flatMap.2 ⟨c, hc, hinstalled ▸ hr⟩
    have hstop := (htiles.bounds hmem).2
    obtain ⟨hsize, hpos⟩ := h.size_of_mem_rankRegions hmem
    exact ⟨hbases r hmem, hsize, hpos, by omega⟩

/-- **The enabled chip selects answer to the ranks**, in the same order. -/
theorem enabledRegions_computed (setup : Setup B) (sizeOnly : Bool)
    (htop : s.placing.stop + 2 ^ 24 ≤ 2 ^ 40) :
    (Stage.computed setup sizeOnly s.placing.state).enabledRegions =
      s.placing.state.rankRegions := by
  rw [State.enabledRegions, State.chipSelects, Stage.platform_computed, State.platform_placing,
    List.filter_flatMap, List.map_flatMap, State.rankRegions, State.platform_placing]
  refine List.flatMap_congr fun c hc => ?_
  rw [Stage.controllers_computed, State.platform_placing, if_pos hc, State.installed,
    State.platform_placing]
  exact (h.linearController htop hc).enabledRegions_registersFor setup sizeOnly

/-- An enabled chip select is as long as its rank on the bus. -/
theorem size_region_computed (setup : Setup B) (sizeOnly : Bool)
    (htop : s.placing.stop + 2 ^ 24 ≤ 2 ^ 40) {c : Fin 3} (hc : c ∈ s.platform.controllerList)
    {cs : Fin 4} (henabled : ((Stage.computed setup sizeOnly
      s.placing.state).controllers[c].registers.chipSelects[cs]).enabled = true) :
    ((Stage.computed setup sizeOnly
      s.placing.state).controllers[c].registers.chipSelects[cs]).region.size =
      ((s.installed c).getD (cs / s.platform.chipSelectsPerSlot) {}).rankSize /
        2 ^ widthShift s.controllers[c].options (s.installed c) := by
  rw [Stage.controllers_computed, State.platform_placing, if_pos hc] at henabled ⊢
  have hsize := (h.linearController htop hc).size_region_registersFor setup sizeOnly henabled
  have hinstalled : s.placing.state.installed c =
      s.placing.state.controllers[c].installed s.platform.slots := by
    rw [State.installed, State.platform_placing]
  have hranks := State.map_installed_placing hc (f := Dimm.rankSize) fun _ _ => rfl
  rwa [← hinstalled, getD_congr hranks, State.widthShift_placing hc] at hsize

/-! ### The whole -/

/-- **Memory without interleaving is tiled by its ranks.** After the placement and the registers are
computed, the enabled chip selects follow each other from the first address of the memory to the end
of what was assigned; each is as long as its rank on the bus; and the size of the memory, which is
read back from the registers, is what was assigned. -/
theorem tiling (setup : Setup B) (sizeOnly : Bool)
    (htop : s.platform.sdramBase + s.assigned + 2 ^ 24 ≤ 2 ^ 40) :
    ∃ after : State,
      (Stage.runAll setup sizeOnly Stage.placeModules.remaining s).value = (after, none) ∧
      Region.Tiles s.platform.sdramBase after.enabledRegions (s.platform.sdramBase + s.assigned) ∧
      (∀ c ∈ s.platform.controllerList, ∀ cs : Fin 4,
        (after.controllers[c].registers.chipSelects[cs]).enabled = true →
          (after.controllers[c].registers.chipSelects[cs]).region.size =
            ((s.installed c).getD (cs / s.platform.chipSelectsPerSlot) {}).rankSize /
              2 ^ widthShift s.controllers[c].options (s.installed c)) ∧
      after.totalMemory = s.assigned := by
  have htiles := h.tiles_rankRegions
  have hstop : s.platform.sdramBase + s.assigned = s.placing.stop := by
    rw [h.assigned_eq]
    exact Nat.add_sub_cancel' htiles.le
  rw [hstop] at htop
  have hregions := h.enabledRegions_computed setup sizeOnly htop
  refine ⟨Stage.computed setup sizeOnly s.placing.state, ?_, ?_,
    fun c hc cs henabled => h.size_region_computed setup sizeOnly htop hc henabled, ?_⟩
  · rw [Stage.value_runAll_placeModules, h.placed_eq]
  · rwa [hregions, hstop]
  · have htotal : Region.Tiles (Stage.computed setup sizeOnly s.placing.state).platform.sdramBase
        (Stage.computed setup sizeOnly s.placing.state).enabledRegions s.placing.stop := by
      rwa [hregions, Stage.platform_computed, State.platform_placing]
    have hpos : ∀ r ∈ (Stage.computed setup sizeOnly s.placing.state).enabledRegions,
        0 < r.size := by
      rw [hregions]
      exact fun r hr => (h.size_of_mem_rankRegions hr).2
    rw [State.totalMemory_of_tiles (s := Stage.computed setup sizeOnly s.placing.state) htotal hpos
      htop, Stage.platform_computed,
      State.platform_placing, h.assigned_eq]

end LinearPopulation

/-- Two controllers with two slots each: two modules with three ranks together at the first, one
module behind an empty slot at the second. -/
def twoControllers : State :=
  let large : Dimm := { ranks := 2, rankSize := 2 ^ 30, capacity := 2 ^ 31 }
  let small : Dimm := { ranks := 1, rankSize := 2 ^ 29, capacity := 2 ^ 29 }
  { platform := { Platform.singleSlot with controllerCount := 2, slotCount := 2 }
    controllers :=
      #v[{ dimms := #v[large, small], common := { dimmCount := 2 } },
        { dimms := #v[{}, small], common := { dimmCount := 1 } }, {}] }

theorem linearPopulation_twoControllers : LinearPopulation twoControllers where
  base_aligned := by decide +kernel
  controllerMode := by decide +kernel
  bankMode := by decide +kernel
  counted := by decide +kernel
  fits := by decide +kernel
  capacity := by decide +kernel
  granular := by decide +kernel

/-- The four ranks of two controllers tile the 3 GiB that they hold. -/
theorem tiling_twoControllers :
    LinearPopulation twoControllers ∧ twoControllers.assigned = 3 * 2 ^ 30 ∧
      ∃ after : State,
        (Stage.runAll (.bare 1600000000) false Stage.placeModules.remaining twoControllers).value =
          (after, none) ∧
        Region.Tiles (2 ^ 31) after.enabledRegions (2 ^ 31 + 3 * 2 ^ 30) ∧
        after.totalMemory = 3 * 2 ^ 30 := by
  have hassigned : twoControllers.assigned = 3 * 2 ^ 30 := by decide +kernel
  obtain ⟨after, hrun, htiles, -, htotal⟩ :=
    linearPopulation_twoControllers.tiling (.bare 1600000000) false (by decide +kernel)
  rw [hassigned] at htiles htotal
  exact ⟨linearPopulation_twoControllers, hassigned, after, hrun, htiles, htotal⟩

end SdramBringup
