/-
**Controllers that are left out.**

The placement gives room to the modules of a controller whether or not the controller has a common
timing. Without interleaving, the room of a controller that is left out pushes all later controllers
to higher addresses, and the size of the memory, which reaches up to the last of them, counts it.
This module makes precise when that happens for modules on the grid of 16 MiB: the order of the
controllers decides.

Main results:

* `GridPopulation.forall_mappedEnds_le_iff` — what a controller maps ends where its range does;
* `GridPopulation.backed_placing` — the memory that is there is the ranges of the controllers that
  are programmed;
* `Stage.totalMemory_configured_le_backed_iff` — **the reported memory is there exactly when no
  controller that is left out with its modules stands before one that is programmed**.
-/

import SdramBringup.Proofs.CommonTiming
import SdramBringup.Proofs.Configured
import SdramBringup.Proofs.LinearTiling
import SdramBringup.Proofs.ReportedMemory

set_option relaxedAutoImplicit false
set_option autoImplicit false

namespace SdramBringup

variable {B : Type} [BoardHook B]

open Placement

/-! ### The modules that count -/

/-- A module that fits its slot is not ignored for its ranks. -/
theorem Platform.takesPart_of_fits {p : Platform} {j : Nat} {d : Dimm} (hj : j < p.slots)
    (hfits : d.ranks ≤ p.chipSelectsPerSlot) : p.takesPart j d = !d.isEmpty := by
  have hignored : p.ignoresQuadRank j d = false := by
    rw [ignoresQuadRank]
    cases hquad : d.isQuadRank with
    | false => rfl
    | true =>
        have hranks : d.ranks = 4 := by simpa [Dimm.isQuadRank] using hquad
        rcases p.slots_eq with hone | htwo
        · have hzero : j = 0 := by omega
          simp [hzero, chipSelectsPerSlot, hone]
        · rw [hranks, chipSelectsPerSlot, htwo] at hfits
          omega
  rw [takesPart, hignored, Bool.not_false, Bool.and_true]

/-- Modules that fit their slots all count, unless they are not there. -/
theorem CommonTiming.counted_of_fits {p : Platform} {k : Controller}
    (hfits : ∀ d ∈ k.installed p.slots, d.ranks ≤ p.chipSelectsPerSlot) :
    counted p (k.installed p.slots) = (k.installed p.slots).filter (!·.isEmpty) := by
  have hcounts : ∀ q ∈ (k.installed p.slots).zipIdx, p.takesPart q.2 q.1 = !q.1.isEmpty := by
    rintro ⟨d, j⟩ hq
    obtain ⟨hj, hget⟩ := List.mem_zipIdx' hq
    rw [k.length_installed p] at hj
    exact Platform.takesPart_of_fits hj (hfits d (hget ▸ List.getElem_mem _))
  exact counted_eq_filter hcounts

/-- Without a module there is no common timing. -/
theorem CommonTiming.value_reconcile_of_isEmpty {clock : Clock} {ds : List Dimm} {p : Platform}
    {ctrl : Nat} (h : ∀ d ∈ ds, d.isEmpty = true) : (reconcile clock ds p ctrl).value = .ok {} := by
  have hnil : counted p ds = [] := by
    rw [List.eq_nil_iff_forall_not_mem]
    intro d hd
    obtain ⟨slot, hslotted, hpart⟩ := mem_counted_iff.1 hd
    have hempty := h d (List.mem_of_getElem? hslotted)
    simp [Platform.takesPart, hempty] at hpart
  exact (reconcile_of_nil hnil).1

/-! ### The controllers that are programmed -/

/-- Programmed controllers are the same before and after the placement. -/
theorem State.programmable_placing (s : State) :
    BringUp.programmable s.placing.state = BringUp.programmable s := by
  rw [BringUp.programmable, State.platform_placing]
  exact List.filter_congr fun c hc => by rw [State.common_placing hc]

/-- The registers have no part in the memory that is there. -/
theorem State.backed_computed (setup : Setup B) (sizeOnly : Bool) (s : State) :
    (Stage.computed setup sizeOnly s).backed = s.backed := by
  rw [backed, backed, programmable_computed]
  refine congrArg List.sum (List.map_congr_left fun c hc => ?_)
  rw [counted, counted, installed, installed, Stage.platform_computed, Stage.controllers_computed,
    if_pos (mem_programmable.1 hc).1]
  rfl

/-- What is left out of a sum may be left out if it is nothing. -/
theorem sum_map_filter {α : Type} {p : α → Bool} {f : α → Nat} {as : List α}
    (h : ∀ a ∈ as, p a = false → f a = 0) : ((as.filter p).map f).sum = (as.map f).sum := by
  induction as with
  | nil => rfl
  | cons a as ih =>
      have hrest := ih fun b hb => h b (List.mem_cons_of_mem a hb)
      cases hp : p a with
      | true => rw [List.filter_cons_of_pos hp, List.map_cons, List.map_cons, List.sum_cons,
          List.sum_cons, hrest]
      | false =>
          rw [List.filter_cons_of_neg (by simp [hp]), hrest, List.map_cons, List.sum_cons,
            h a List.mem_cons_self hp, Nat.zero_add]

/-! ### The modules of one controller -/

namespace GridPopulation

variable {s : State} (h : GridPopulation s)
include h

section Placed

variable {c : Fin 3} (hc : c ∈ s.platform.controllerList)
include hc

/-- The room of a placed module is that of its ranks. -/
theorem room_placing {d : Dimm} (hd : d ∈ s.placing.state.installed c) :
    room s.placing.state.controllers[c].widthShift d =
      d.ranks * (d.rankSize / 2 ^ s.placing.state.controllers[c].widthShift) := by
  have hcapacity := State.forall_installed_placing hc (fun _ _ => Iff.rfl) (h.capacity c hc)
  have hgranular := State.forall_installed_placing hc (fun _ _ => Iff.rfl) (h.granular c hc)
  rw [← State.widthShift_placing hc] at hgranular
  exact Dimm.room_eq (hcapacity d hd) fun hempty =>
    Nat.dvd_trans (Nat.dvd_mul_left _ _) (hgranular d hd hempty).2

/-- The room of a placed module is on the grid, and a module that is there takes some. -/
theorem dvd_room_placing {d : Dimm} (hd : d ∈ s.placing.state.installed c) :
    2 ^ 24 ∣ room s.placing.state.controllers[c].widthShift d ∧
      (d.isEmpty = false ↔ 0 < room s.placing.state.controllers[c].widthShift d) := by
  rw [h.room_placing hc hd]
  cases hempty : d.isEmpty with
  | true =>
      have hranks : d.ranks = 0 := by simpa [Dimm.isEmpty] using hempty
      simp [hranks]
  | false =>
      have hranks : 0 < d.ranks := by
        simp only [Dimm.isEmpty, beq_eq_false_iff_ne] at hempty
        omega
      have hspan := State.forall_installed_placing hc (fun _ _ => Iff.rfl)
        (fun d hd => h.exists_rankSize_eq hc (d := d) hd) d hd hempty
      rw [← State.widthShift_placing hc] at hspan
      obtain ⟨n, hpos, hdiv⟩ := hspan
      rw [hdiv]
      refine ⟨Nat.dvd_mul_left_of_dvd (Nat.dvd_mul_right _ n) _, iff_of_true rfl ?_⟩
      exact Nat.mul_pos hranks (Nat.mul_pos (Nat.two_pow_pos 24) hpos)

/-- A range is as long as the rooms of its modules. -/
theorem size_region_placing :
    s.placing.state.controllers[c].region.size =
      ((s.placing.state.installed c).map
        (room s.placing.state.controllers[c].widthShift)).sum := by
  have htiles := (State.tiles_installed_placing hc (h.controllerMode c hc)).stop_eq
  rw [List.map_map] at htiles
  exact Nat.add_left_cancel htiles

/-- A range without room is that of a controller without modules. -/
theorem size_region_placing_eq_zero_iff :
    s.placing.state.controllers[c].region.size = 0 ↔ ∀ d ∈ s.installed c, d.isEmpty = true := by
  have hempty : (∀ d ∈ s.installed c, d.isEmpty = true) ↔
      ∀ d ∈ s.placing.state.installed c, d.isEmpty = true := by
    have hmap := State.map_installed_placing hc (f := Dimm.isEmpty) fun _ _ => rfl
    rw [← List.forall_mem_map (f := Dimm.isEmpty) (P := (· = true)), ← hmap, List.forall_mem_map]
  rw [hempty, h.size_region_placing hc, List.sum_eq_zero_iff_forall_eq_nat, List.forall_mem_map]
  refine forall₂_congr fun d hd => ?_
  have hpos := (h.dvd_room_placing hc hd).2
  cases hd : d.isEmpty with
  | true => simpa [hd] using hpos
  | false => simpa [hd, Nat.pos_iff_ne_zero] using hpos

end Placed

/-! ### All controllers -/

/-- Every placed module that is there ends on the grid. -/
theorem dvd_stop_placing {c : Fin 3} (hc : c ∈ s.platform.controllerList) {d : Dimm}
    (hd : d ∈ s.placing.state.installed c) :
    2 ^ 24 ∣ d.base + room s.placing.state.controllers[c].widthShift d := by
  -- the modules of all controllers follow each other, and each is a number of units long
  have htiles := Region.tiles_flatMap (State.tiles_placing h.controllerMode) fun c hc =>
    State.tiles_installed_placing hc (h.controllerMode c hc)
  have hsizes : ∀ r ∈ s.platform.controllerList.flatMap (fun c =>
      (s.placing.state.installed c).map fun d =>
        (⟨d.base, room s.placing.state.controllers[c].widthShift d⟩ : Region)),
      2 ^ 24 ∣ r.size := by
    intro r hr
    obtain ⟨c, hc, hr⟩ := List.mem_flatMap.1 hr
    obtain ⟨d, hd, rfl⟩ := List.mem_map.1 hr
    exact (h.dvd_room_placing hc hd).1
  have hbase := (htiles.dvd h.base_aligned hsizes).1 _
    (List.mem_flatMap.2 ⟨c, hc, List.mem_map_of_mem hd⟩)
  exact Nat.dvd_add hbase (h.dvd_room_placing hc hd).1

/-- What a controller maps ends where its modules do. -/
theorem mappedEnds_placing (setup : Setup B) {c : Fin 3} (hc : c ∈ s.platform.controllerList) :
    s.placing.state.mappedEnds setup c =
      ((s.placing.state.installed c).filter (!·.isEmpty)).map fun d =>
        d.base + room s.placing.state.controllers[c].widthShift d := by
  have hbank : s.placing.state.controllers[c].options.bankMode ≠ .allFour := by
    rw [State.options_placing hc]
    rcases h.bankMode c hc with hmode | hmode <;> rw [hmode] <;> decide
  have hnone : ¬s.placing.state.controllers[c].options.controllerMode.isSome = true := by
    rw [State.options_placing hc, h.controllerMode c hc]
    decide
  have hfits := State.forall_installed_placing hc (fun _ _ => Iff.rfl) (h.fits c hc)
  have hper : Synthesis.perSlot (Stage.inputsOf setup s.placing.state.platform
      s.placing.state.controllers[c]) = s.platform.chipSelectsPerSlot := by
    rw [Stage.perSlot_inputsOf, State.platform_placing]
  rw [State.mappedEnds, Synthesis.ends, if_neg (show ¬(Stage.inputsOf setup _ _).options.bankMode = _
    from hbank), if_neg (show ¬(Stage.inputsOf setup _ _).options.controllerMode.isSome = true
    from hnone), hper]
  refine List.map_congr_left fun d hd => ?_
  have hmem : d ∈ s.placing.state.installed c := (List.mem_filter.1 hd).1
  rw [h.room_placing hc hmem, Nat.min_eq_left (hfits d hmem)]
  rfl

/-- A programmed controller maps its modules to below a bound exactly when its range ends there. -/
theorem forall_mappedEnds_le_iff (setup : Setup B) {c : Fin 3} (hc : c ∈ s.platform.controllerList)
    (hsize : s.placing.state.controllers[c].region.size ≠ 0) (bound : Nat) :
    (∀ e ∈ s.placing.state.mappedEnds setup c, unitEnd e ≤ bound) ↔
      s.placing.state.controllers[c].region.stop ≤ bound := by
  have htiles := State.tiles_installed_placing hc (h.controllerMode c hc)
  rw [h.mappedEnds_placing setup hc, List.forall_mem_map]
  have hunit : ∀ d ∈ s.placing.state.installed c, d.isEmpty = false →
      unitEnd (d.base + room s.placing.state.controllers[c].widthShift d) =
        d.base + room s.placing.state.controllers[c].widthShift d := by
    intro d hd hempty
    have hpos := (h.dvd_room_placing hc hd).2.1 hempty
    have hdvd := h.dvd_stop_placing hc hd
    unfold unitEnd
    omega
  constructor
  · intro hle
    -- only modules that are there are known to end below the bound
    have hends : ∀ d ∈ s.placing.state.installed c,
        0 < room s.placing.state.controllers[c].widthShift d →
          d.base + room s.placing.state.controllers[c].widthShift d ≤ bound := by
      intro d hd hpos
      have hempty := (h.dvd_room_placing hc hd).2.2 hpos
      have := hle d (List.mem_filter.2 ⟨hd, by simp [hempty]⟩)
      rwa [hunit d hd hempty] at this
    obtain ⟨d, hd, hpos⟩ : ∃ d ∈ s.placing.state.installed c,
        0 < room s.placing.state.controllers[c].widthShift d := by
      by_contra hnone
      refine hsize ?_
      rw [h.size_region_placing hc, List.sum_eq_zero_iff_forall_eq_nat, List.forall_mem_map]
      exact fun d hd => Nat.eq_zero_of_not_pos fun hpos => hnone ⟨d, hd, hpos⟩
    have hbase := (htiles.bounds (List.mem_map_of_mem hd)).1
    refine htiles.stop_le ?_ ?_
    · have := hends d hd hpos
      simp only at hbase
      omega
    · exact List.forall_mem_map.2 hends
  · intro hstop d hd
    obtain ⟨hd, hempty⟩ := List.mem_filter.1 hd
    rw [hunit d hd (by simpa using hempty)]
    exact Nat.le_trans (htiles.bounds (List.mem_map_of_mem hd)).2 hstop

/-- The memory that is there is the ranges of the controllers that are programmed. -/
theorem backed_placing :
    s.placing.state.backed =
      ((BringUp.programmable s).map fun c => s.placing.state.controllers[c].region.size).sum := by
  rw [State.backed, State.programmable_placing]
  refine congrArg List.sum (List.map_congr_left fun c hc => ?_)
  have hc := (State.mem_programmable.1 hc).1
  have hfits := State.forall_installed_placing hc (fun _ _ => Iff.rfl) (h.fits c hc)
  have hcounted : s.placing.state.counted c =
      (s.placing.state.installed c).filter (!·.isEmpty) := by
    refine CommonTiming.counted_of_fits fun d hd => ?_
    rw [State.platform_placing]
    exact hfits d hd
  rw [h.size_region_placing hc, hcounted]
  refine sum_map_filter fun d hd hempty => ?_
  have hroom := (h.dvd_room_placing hc hd).2
  rw [Bool.not_eq_false'] at hempty
  rw [hempty] at hroom
  simpa using hroom

theorem bankModesSupported_placing : s.placing.state.BankModesSupported := by
  intro c hc
  rw [State.platform_placing] at hc
  rw [State.options_placing hc]
  rcases h.bankMode c hc with hmode | hmode <;> rw [hmode] <;> rfl

/-- **Without interleaving, the reported memory is there exactly when no controller that is left out
with its modules stands before one that is programmed.** -/
theorem totalMemory_le_backed_iff (setup : Setup B) (sizeOnly : Bool)
    (hmodule : ∀ c ∈ BringUp.programmable s, ∃ d ∈ s.installed c, d.isEmpty = false)
    (htop : s.platform.sdramBase + s.assigned + 2 ^ 24 ≤ 2 ^ 40) :
    (Stage.computed setup sizeOnly s.placing.state).totalMemory ≤ s.placing.state.backed ↔
      s.platform.controllerList.Pairwise fun c d =>
        s.controllers[c].common.dimmCount = 0 → s.controllers[d].common.dimmCount ≠ 0 →
          ∀ m ∈ s.installed c, m.isEmpty = true := by
  have htiles := State.tiles_placing h.controllerMode
  have hstop : s.platform.sdramBase + s.assigned = s.placing.stop := by
    rw [h.assigned_eq]
    exact Nat.add_sub_cancel' htiles.le
  have hends : ∀ c ∈ BringUp.programmable s, ∀ bound,
      (∀ e ∈ s.placing.state.mappedEnds setup c, unitEnd e ≤ bound) ↔
        s.placing.state.controllers[c].region.stop ≤ bound := by
    intro c hc bound
    have hlist := (State.mem_programmable.1 hc).1
    refine h.forall_mappedEnds_le_iff setup hlist (fun hzero => ?_) bound
    obtain ⟨d, hd, hempty⟩ := hmodule c hc
    have := (h.size_region_placing_eq_zero_iff hlist).1 hzero d hd
    rw [hempty] at this
    exact absurd this (by decide)
  have hbelow : ∀ c ∈ BringUp.programmable s, ∀ e ∈ s.placing.state.mappedEnds setup c,
      unitEnd e < 2 ^ 40 := by
    intro c hc e he
    have hregion := (htiles.bounds
      (List.mem_map_of_mem (State.mem_programmable.1 hc).1)).2
    have := (hends c hc s.placing.stop).2 hregion e he
    omega
  rw [State.totalMemory_computed_le_iff_mappedEnds h.bankModesSupported_placing sizeOnly (by
    rwa [State.programmable_placing]), State.programmable_placing, State.platform_placing,
    h.backed_placing]
  -- the programmed controllers are the marked ones of a tiling
  have hmarked : (∀ c ∈ BringUp.programmable s, ∀ e ∈ s.placing.state.mappedEnds setup c,
      unitEnd e ≤ s.platform.sdramBase + ((BringUp.programmable s).map fun c =>
        s.placing.state.controllers[c].region.size).sum) ↔
      ∀ c ∈ s.platform.controllerList, (s.controllers[c].common.dimmCount != 0) = true →
        s.placing.state.controllers[c].region.stop ≤ s.platform.sdramBase +
          ((BringUp.programmable s).map fun c =>
            s.placing.state.controllers[c].region.size).sum := by
    rw [← List.forall_mem_filter]
    exact forall₂_congr fun c hc => hends c hc _
  rw [hmarked, BringUp.programmable, htiles.forall_stop_le_iff]
  refine List.Pairwise.iff_of_mem fun hc hd => ?_
  rw [h.size_region_placing_eq_zero_iff hc]
  simp

end GridPopulation

/-! ### The whole configuration -/

/-- A controller with a common timing has a module. -/
theorem Stage.exists_module_of_programmable {setup : Setup B} {s : State} {c : Fin 3}
    (hc : c ∈ BringUp.programmable (Stage.prepared setup s)) :
    ∃ d ∈ (Stage.prepared setup s).installed c, d.isEmpty = false := by
  obtain ⟨hlist, hcount⟩ := State.mem_programmable.1 hc
  rw [platform_prepared] at hlist
  by_contra hnone
  have hempty : ∀ d ∈ s.installed c, d.isEmpty = true := by
    intro d hd
    by_contra hne
    rw [installed_prepared] at hnone
    exact hnone ⟨d, hd, by simpa using hne⟩
  refine hcount ?_
  rw [common_prepared setup hlist, commonOf, ← State.installed,
    CommonTiming.value_reconcile_of_isEmpty hempty]
  rfl

/-- **Without interleaving, a configuration reports memory that is there exactly when no controller
that is left out with its modules stands before one that is programmed.** -/
theorem Stage.totalMemory_configured_le_backed_iff {setup : Setup B} {s : State}
    (h : GridPopulation (prepared setup s)) (sizeOnly : Bool)
    (htop : s.platform.sdramBase + (prepared setup s).assigned + 2 ^ 24 ≤ 2 ^ 40) :
    (configured setup sizeOnly s).totalMemory ≤ (configured setup sizeOnly s).backed ↔
      s.platform.controllerList.Pairwise fun c d =>
        (prepared setup s).controllers[c].common.dimmCount = 0 →
          (prepared setup s).controllers[d].common.dimmCount ≠ 0 →
            ∀ m ∈ s.installed c, m.isEmpty = true := by
  have hpairs := h.totalMemory_le_backed_iff setup sizeOnly
    (fun c hc => exists_module_of_programmable hc) (by rwa [platform_prepared])
  simp only [platform_prepared, installed_prepared] at hpairs
  rw [configured_eq, arranged, h.checkInterleaving_eq, State.backed_computed]
  exact hpairs

end SdramBringup
