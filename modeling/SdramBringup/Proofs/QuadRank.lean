/-
**Four ranks in the first of two slots.**

A first slot that is wired to all chip selects takes a module with four ranks. The chip selects are
shared evenly by the slots all the same: the first two select the first two ranks of the module, and
the other two belong to the second slot, where there is nothing to select. So half of the chip selects
are enabled, and what they map is the lower half of the module, unless one range is asked for all chip
selects: then the two map what is meant for four.

Main definitions:

* `Controller.firstSpan` — the length of the ranks in the first slot;
* `QuadFirstSlot` — a controller with such a module in its first slot and none in the second.

Main results:

* `QuadFirstSlot.hasRank_iff` — the chip selects of the first slot have a rank each;
* `QuadFirstSlot.bankMode_cases` — the interleaving that is left for them;
* `QuadFirstSlot.mapped_iff` — **two of four chip selects are enabled**, and how much of the module
  they map.
-/

import SdramBringup.Proofs.BankGroups
import SdramBringup.Proofs.UnusedChipSelects

set_option relaxedAutoImplicit false
set_option autoImplicit false

namespace SdramBringup

variable {B : Type} [BoardHook B]

open Placement

/-- The length of the ranks in the first slot on the bus. -/
def Controller.firstSpan (k : Controller) : Nat := k.dimms[(0 : Fin 2)].rankSize / 2 ^ k.widthShift

/-- A controller on its own with a module of four ranks on the grid of 16 MiB in its first slot, which
is wired to all chip selects, and none in its second. -/
structure QuadFirstSlot (p : Platform) (k : Controller) : Prop where
  slots : p.slots = 2
  capable : p.firstSlotQuadCapable = true
  four : k.dimms[(0 : Fin 2)].ranks = 4
  capacity : k.dimms[(0 : Fin 2)].capacity = 4 * k.dimms[(0 : Fin 2)].rankSize
  granular : 2 ^ 24 * 2 ^ k.widthShift ∣ k.dimms[(0 : Fin 2)].rankSize
  vacant : k.dimms[(1 : Fin 2)].isEmpty = true
  alone : k.options.controllerMode = none
  counted : k.common.dimmCount ≠ 0

namespace QuadFirstSlot

variable {p : Platform} {k : Controller} (h : QuadFirstSlot p k) (setup : Setup B) (base : Nat)
include h

/-- The module takes part in the configuration. -/
theorem takesPart : p.takesPart 0 k.dimms[(0 : Fin 2)] = true := by
  simp [Platform.takesPart, Platform.ignoresQuadRank, Dimm.isEmpty, h.four, h.capable]

theorem room_eq : room k.widthShift k.dimms[(0 : Fin 2)] = 4 * k.firstSpan := by
  rw [Dimm.room_eq (by rw [h.capacity, h.four]) fun _ =>
    Nat.dvd_trans (Nat.dvd_mul_left _ _) h.granular, h.four]
  rfl

theorem dvd_firstSpan : 2 ^ 24 ∣ k.firstSpan :=
  Nat.dvd_div_of_mul_dvd (Nat.mul_comm _ _ ▸ h.granular)

/-! ### The placed module -/

theorem dimms_eq :
    (Stage.inputsAt setup p base k).dimms =
      [{ k.dimms[(0 : Fin 2)] with base := base },
        { k.dimms[(1 : Fin 2)] with base := base + room k.widthShift k.dimms[(0 : Fin 2)] }] := by
  refine (installed_linear p base k).trans ?_
  rw [h.slots, k.installed_two]
  rfl

theorem perSlot_eq : Synthesis.perSlot (Stage.inputsAt setup p base k) = 2 := by
  rw [Stage.perSlot_inputsOf, Platform.chipSelectsPerSlot, h.slots]

/-- The chip selects of the first slot select the first two ranks. -/
theorem dimmOf_of_lt {cs : Fin 4} (hcs : cs.val < 2) :
    Synthesis.dimmOf (Stage.inputsAt setup p base k) cs =
        { k.dimms[(0 : Fin 2)] with base := base } ∧
      Synthesis.rankOf (Stage.inputsAt setup p base k) cs = cs := by
  rw [Synthesis.dimmOf, Synthesis.slotOf, Synthesis.rankOf, h.perSlot_eq, h.dimms_eq,
    Nat.div_eq_of_lt hcs, Nat.mod_eq_of_lt hcs]
  exact ⟨rfl, rfl⟩

/-- Those of the second slot select nothing. -/
theorem isEmpty_dimmOf {cs : Fin 4} (hcs : 2 ≤ cs.val) :
    (Synthesis.dimmOf (Stage.inputsAt setup p base k) cs).isEmpty = true := by
  have hslot : cs.val / 2 = 1 := by omega
  rw [Synthesis.dimmOf, Synthesis.slotOf, h.perSlot_eq, h.dimms_eq, hslot]
  exact h.vacant

theorem hasRank_iff (cs : Fin 4) :
    Synthesis.hasRank (Stage.inputsAt setup p base k) cs = true ↔ cs.val < 2 := by
  constructor
  · intro hrank
    by_contra hcs
    rw [Synthesis.hasRank_of_isEmpty (h.isEmpty_dimmOf setup base (by omega))] at hrank
    exact absurd hrank (by decide)
  · intro hcs
    obtain ⟨hdimm, hrank⟩ := h.dimmOf_of_lt setup base hcs
    rw [Synthesis.hasRank, hdimm, hrank, h.four, decide_eq_true_eq]
    omega

/-- The range of the controller starts with the module, and is no shorter. -/
theorem region_eq :
    (linear p.slots base k).region =
      ⟨base, room k.widthShift k.dimms[(0 : Fin 2)] + room k.widthShift k.dimms[(1 : Fin 2)]⟩ := by
  rw [linear, span, h.slots, k.installed_two]
  simp

/-! ### What a chip select maps -/

section Mapped

variable {setup base} (hbase : 2 ^ 24 ∣ base) (htop : (linear p.slots base k).region.stop ≤ 2 ^ 40)
include htop

theorem stop_le : base + 4 * k.firstSpan ≤ 2 ^ 40 := by
  rw [h.region_eq, Region.stop_mk, h.room_eq] at htop
  omega

section ChipSelect

variable {cs : Fin 4} (hcs : cs.val < 2)
include hcs

/-- If all chip selects share a range, those of the first slot map the whole module. -/
theorem contains_of_allFour (hmode : k.options.bankMode = .allFour) {a : Nat}
    (ha : Region.Contains ⟨base, room k.widthShift k.dimms[(0 : Fin 2)]⟩ a) :
    (Synthesis.chipSelect (Stage.inputsAt setup p base k) cs).region.Contains a := by
  have hrank := (h.hasRank_iff setup base cs).2 hcs
  have hrange : Synthesis.range? (Stage.inputsAt setup p base k) cs =
      some (Synthesis.regionRange (Stage.inputsAt setup p base k)) := by
    rw [Synthesis.range?, show (Stage.inputsAt setup p base k).options = k.options from rfl, h.alone,
      hmode]
    rfl
  have hbounds : (Synthesis.chipSelect (Stage.inputsAt setup p base k) cs).bounds =
      Synthesis.boundsOf (Synthesis.regionRange (Stage.inputsAt setup p base k)) := by
    rw [Synthesis.bounds_chipSelect hrank, hrange]
    rfl
  refine Synthesis.contains_boundsOf hbounds htop ?_
  rw [show (Stage.inputsAt setup p base k).region = (linear p.slots base k).region from rfl,
    h.region_eq]
  rw [Region.Contains, Region.stop_mk] at ha
  exact ⟨ha.1, Nat.lt_of_lt_of_le ha.2 (by simp only; omega)⟩

variable (hpos : 0 < k.firstSpan)
include hbase hpos

/-- Without interleaving a chip select maps its rank. -/
theorem region_of_off (hmode : k.options.bankMode = .off ∨ k.options.bankMode = .auto) :
    (Synthesis.chipSelect (Stage.inputsAt setup p base k) cs).region =
      ⟨base + cs * k.firstSpan, k.firstSpan⟩ := by
  have hstop := h.stop_le htop
  obtain ⟨hdimm, hrankOf⟩ := h.dimmOf_of_lt setup base hcs
  have hregion : Synthesis.rankRegion (Stage.inputsAt setup p base k) cs =
      ⟨base + cs * k.firstSpan, k.firstSpan⟩ := by
    rw [Synthesis.rankRegion, Synthesis.rankSpan, hdimm, hrankOf]
    rfl
  have hspan := h.dvd_firstSpan
  have hcases : cs.val = 0 ∨ cs.val = 1 := by omega
  rw [← hregion]
  refine Synthesis.region_chipSelect ((h.hasRank_iff setup base cs).2 hcs) h.alone hmode ?_ ?_ ?_ ?_
  all_goals rw [hregion]
  · exact Nat.dvd_add hbase (Dvd.dvd.mul_left hspan _)
  · exact hspan
  · exact hpos
  · rw [Region.stop_mk]
    rcases hcases with hzero | hone
    · rw [hzero]
      omega
    · rw [hone]
      omega

/-- If the lower pair shares a range, both chip selects map both ranks. -/
theorem region_of_lowPair (hmode : k.options.bankMode = .lowPair) :
    (Synthesis.chipSelect (Stage.inputsAt setup p base k) cs).region =
      ⟨base, 2 * k.firstSpan⟩ := by
  have hstop := h.stop_le htop
  obtain ⟨hlead, hzero⟩ := h.dimmOf_of_lt setup base (show (0 : Fin 4).val < 2 by decide)
  obtain ⟨hpartner, hone⟩ := h.dimmOf_of_lt setup base (show (1 : Fin 4).val < 2 by decide)
  have hspan : Synthesis.rankSpan (Stage.inputsAt setup p base k) 0 = k.firstSpan := by
    rw [Synthesis.rankSpan, hlead]
    rfl
  have hmem : cs ∈ [(0 : Fin 4), 1] := by
    simp only [List.mem_cons, Fin.ext_iff, Fin.val_zero, Fin.val_one, List.not_mem_nil, or_false]
    omega
  have hrank := (h.hasRank_iff setup base cs).2 hcs
  have hrange : Synthesis.range? (Stage.inputsAt setup p base k) cs =
      some (base, Synthesis.lastOf base (2 * k.firstSpan)) := by
    rw [Synthesis.range?, show (Stage.inputsAt setup p base k).options = k.options from rfl, h.alone,
      hmode, if_neg (by decide)]
    simp only [hrank, if_true]
    rw [Synthesis.pairRange_of_mem (by decide) (hpartner.trans hlead.symm) (by rw [hzero, hone]; rfl)
      (by rw [hzero]; exact Nat.zero_mul _) (by rw [hlead, hspan]; simp only; omega) hmem, hlead,
      hspan]
  refine Synthesis.region_boundsOf ?_ hbase (Dvd.dvd.mul_left h.dvd_firstSpan 2) ?_ ?_
  · rw [Synthesis.bounds_chipSelect hrank, hrange]
    rfl
  · omega
  · omega

end ChipSelect

variable (hpos : 0 < k.firstSpan) {a : Nat}
include hbase hpos

/-- Without interleaving the lower two ranks are mapped, one by each chip select. -/
theorem mapped_of_off (hmode : k.options.bankMode = .off ∨ k.options.bankMode = .auto) :
    (∃ cs : Fin 4, cs.val < 2 ∧
      (Synthesis.chipSelect (Stage.inputsAt setup p base k) cs).region.Contains a) ↔
        Region.Contains ⟨base, 2 * k.firstSpan⟩ a := by
  have hregion : ∀ cs : Fin 4, cs.val < 2 →
      (Synthesis.chipSelect (Stage.inputsAt setup p base k) cs).region =
        ⟨base + cs * k.firstSpan, k.firstSpan⟩ :=
    fun cs hcs => h.region_of_off hbase htop hcs hpos hmode
  rw [Region.Contains, Region.stop_mk]
  constructor
  · rintro ⟨cs, hcs, hmem⟩
    rw [hregion cs hcs, Region.Contains, Region.stop_mk] at hmem
    rcases (by omega : cs.val = 0 ∨ cs.val = 1) with hcs | hcs <;> rw [hcs] at hmem <;>
      simp only at hmem ⊢ <;> omega
  · rintro ⟨hge, hlt⟩
    by_cases hfirst : a < base + k.firstSpan
    · refine ⟨0, by decide, ?_⟩
      rw [hregion 0 (by decide), Region.Contains, Region.stop_mk]
      simp only [Fin.val_zero] at hge ⊢
      omega
    · refine ⟨1, by decide, ?_⟩
      rw [hregion 1 (by decide), Region.Contains, Region.stop_mk]
      simp only [Fin.val_one] at hge ⊢
      omega

/-- If they share a range, both chip selects map both ranks. -/
theorem mapped_of_lowPair (hmode : k.options.bankMode = .lowPair) :
    (∃ cs : Fin 4, cs.val < 2 ∧
      (Synthesis.chipSelect (Stage.inputsAt setup p base k) cs).region.Contains a) ↔
        Region.Contains ⟨base, 2 * k.firstSpan⟩ a := by
  constructor
  · rintro ⟨cs, hcs, hmem⟩
    rwa [h.region_of_lowPair hbase htop hcs hpos hmode] at hmem
  · intro hmem
    refine ⟨0, by decide, ?_⟩
    rwa [h.region_of_lowPair hbase htop (by decide) hpos hmode]

end Mapped

/-! ### The interleaving -/

variable {setup : Setup (Option Board)} {base : Nat} {c : Fin 3}
  (hgathered : Stage.Gathered setup p c k)
include hgathered

theorem bankMode_eq_allFour_iff :
    k.options.bankMode = .allFour ↔ setup.interleave.AsksForAll c := by
  rw [hgathered.bankMode_eq]
  exact Options.bankModeOf_eq_allFour_iff h.slots h.capable ((Stage.ranksIn_first p k).trans h.four)

/-- Without ranks in the second slot, there is no interleaving of its chip selects. -/
theorem bankMode_cases :
    (k.options.bankMode = .off ∨ k.options.bankMode = .auto) ∨ k.options.bankMode = .lowPair ∨
      k.options.bankMode = .allFour := by
  have hranks : k.dimms[(1 : Fin 2)].ranks = 0 := by simpa [Dimm.isEmpty] using h.vacant
  have hsupported := hgathered.supported
  rw [Stage.ranksIn_second k h.slots, h.slots, hranks] at hsupported
  cases hmode : k.options.bankMode <;> simp [hmode, BankMode.supported] at hsupported ⊢

/-! ### What is mapped -/

/-- **Two of the four chip selects are enabled.** The other two have no range, and what is mapped of
the module is its lower half, or all of it if one range is asked for all chip selects. -/
theorem mapped_iff (hbase : 2 ^ 24 ∣ base) (htop : (linear p.slots base k).region.stop ≤ 2 ^ 40)
    (sizeOnly : Bool) :
    ∃ f, (Synthesis.compute (Stage.inputsAt setup p base k) sizeOnly).value = .ok f ∧
      (∀ cs : Fin 4, f.chipSelects[cs].enabled = true ↔ cs.val < 2) ∧
      (∀ cs : Fin 4, 2 ≤ cs.val → f.chipSelects[cs].bounds = Bits.noRange) ∧
      ∀ a, Region.Contains ⟨base, room k.widthShift k.dimms[(0 : Fin 2)]⟩ a →
        ((∃ cs : Fin 4, f.chipSelects[cs].enabled = true ∧ f.chipSelects[cs].region.Contains a) ↔
          setup.interleave.AsksForAll c ∨ a < base + 2 * k.firstSpan) := by
  obtain ⟨f, hf, hchipSelects⟩ := Stage.exists_compute
    (i := Stage.inputsAt setup p base k) sizeOnly h.counted
  have hget : ∀ cs : Fin 4, f.chipSelects[cs] =
      Synthesis.chipSelect (Stage.inputsAt setup p base k) cs := by
    intro cs
    rw [hchipSelects, Synthesis.getElem_chipSelects (Stage.dimms_inputsOf_ne_nil _ _ _)]
  refine ⟨f, hf, fun cs => ?_, fun cs hcs => ?_, fun a ha => ?_⟩
  · rw [hget, Synthesis.enabled_chipSelect, h.hasRank_iff]
  · rw [hget, Synthesis.chipSelect, if_pos (h.isEmpty_dimmOf setup base hcs)]
  · simp only [hget, Synthesis.enabled_chipSelect, h.hasRank_iff]
    rw [← h.bankMode_eq_allFour_iff hgathered]
    have hpos : 0 < k.firstSpan := by
      rw [Region.Contains, Region.stop_mk, h.room_eq] at ha
      simp only at ha
      omega
    rcases h.bankMode_cases hgathered with hmode | hmode | hmode
    · rw [h.mapped_of_off hbase htop hpos hmode, Region.Contains, Region.stop_mk,
        or_iff_right (by rcases hmode with hmode | hmode <;> simp [hmode])]
      exact and_iff_right ha.1
    · rw [h.mapped_of_lowPair hbase htop hpos hmode, Region.Contains, Region.stop_mk,
        or_iff_right (by simp [hmode])]
      exact and_iff_right ha.1
    · exact iff_of_true ⟨0, by decide, h.contains_of_allFour htop (by decide) hmode ha⟩ (.inl hmode)

end QuadFirstSlot

/-- A module with four ranks in the first slot of two, whatever is asked for. -/
def quadModule : State := twoByTwo (plainModule 4 (BitVec.allOnes 32)) {} {} {}

/-- Its controller after the placement. -/
def quadArranged (setup : Setup (Option Board)) : Controller :=
  (Stage.arranged setup quadModule).controllers[(0 : Fin 3)]

theorem gathered_quadArranged (setup : Setup (Option Board)) :
    Stage.Gathered setup quadModule.platform 0 (quadArranged setup) :=
  Stage.gathered_arranged setup (by decide)

set_option maxRecDepth 100000 in
/-- If the widest interleaving is asked for, two chip selects map the whole module. -/
theorem mapped_quadArranged :
    QuadFirstSlot quadModule.platform (quadArranged .widest) ∧
      ∃ f, (Synthesis.compute (Stage.inputsAt .widest quadModule.platform (2 ^ 31)
          (quadArranged .widest)) false).value = .ok f ∧
        (∀ cs : Fin 4, f.chipSelects[cs].enabled = true ↔ cs.val < 2) ∧
        ∀ a, Region.Contains ⟨2 ^ 31, 2 ^ 30⟩ a →
          ∃ cs : Fin 4, f.chipSelects[cs].enabled = true ∧ f.chipSelects[cs].region.Contains a := by
  have hquad : QuadFirstSlot quadModule.platform (quadArranged .widest) := by
    constructor <;> decide +kernel
  have hroom : Placement.room (quadArranged .widest).widthShift
      (quadArranged .widest).dimms[(0 : Fin 2)] = 2 ^ 30 := by decide +kernel
  obtain ⟨f, hf, henabled, -, hmapped⟩ := hquad.mapped_iff (gathered_quadArranged .widest)
    (show 2 ^ 24 ∣ 2 ^ 31 by decide) (by decide +kernel) false
  rw [hroom] at hmapped
  exact ⟨hquad, f, hf, henabled, fun a ha => (hmapped a ha).2 (.inl (by decide))⟩

set_option maxRecDepth 100000 in
/-- If nothing is asked for, the upper half of the module is not mapped, although the module takes
part. -/
theorem not_mapped_quadArranged :
    QuadFirstSlot quadModule.platform (quadArranged (.bare 1600000000)) ∧
      quadModule.platform.takesPart 0 (quadArranged (.bare 1600000000)).dimms[(0 : Fin 2)] = true ∧
      (quadArranged (.bare 1600000000)).region = ⟨2 ^ 31, 2 ^ 30⟩ ∧
      ∃ f, (Synthesis.compute (Stage.inputsOf (.bare 1600000000) quadModule.platform
          (quadArranged (.bare 1600000000))) false).value = .ok f ∧
        f.chipSelects[(2 : Fin 4)].enabled = false ∧ f.chipSelects[(3 : Fin 4)].enabled = false ∧
        ¬∃ cs : Fin 4, f.chipSelects[cs].enabled = true ∧
          f.chipSelects[cs].region.Contains (2 ^ 31 + 2 ^ 29) := by
  have hquad : QuadFirstSlot quadModule.platform (quadArranged (.bare 1600000000)) := by
    constructor <;> decide +kernel
  refine ⟨hquad, hquad.takesPart, by decide +kernel, _, rfl, by decide +kernel, by decide +kernel, ?_⟩
  simp only [Region.Contains]
  decide +kernel

end SdramBringup
