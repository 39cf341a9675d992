/-
**The memory behind a controller, by its modules and by its registers.**

The placement measures the memory of a controller by the sizes that its modules state, shrunk to the
bus. The programming needs the size again, because filling more memory takes longer, and reads it
out of the registers: the bank, row and column bits of every enabled chip select, and the code of
the bus width. This module proves that both come to the same size, for every geometry that the
registers can hold.

Main definitions:

* `BusWidth.lines` — the data lines of a bus;
* `Dimm.Measured` — the cells of a module account for the size of its ranks;
* `MeasuredController` — a controller on its own whose modules are such modules of one width.

Main results:

* `MeasuredController.shift_mul_lines` — a bus is narrower than the modules by its shift;
* `Programming.addressBits_chipSelectConfig` — the address bits of a chip select are those of the
  cells of its rank;
* `Synthesis.sum_rankSpan_filter_hasRank` — the ranks behind the enabled chip selects are all ranks;
* `MeasuredController.size_agrees` — **the size by the registers is the size that the placement
  assigns**.
-/

import Mathlib.Algebra.BigOperators.Ring.List
import Mathlib.Algebra.Ring.Nat
import SdramBringup.Proofs.ChipSelect
import SdramBringup.Proofs.Configuration
import SdramBringup.Proofs.Stages
import SdramBringup.Proofs.Unplaced

set_option relaxedAutoImplicit false
set_option autoImplicit false

namespace SdramBringup

variable {B : Type} [BoardHook B]

open Placement

/-! ### Modules that can be measured -/

/-- The data lines of a bus, without those for error correction. -/
def BusWidth.lines : BusWidth → Nat
  | bits64 => 64
  | bits32 => 32
  | bits16 => 16

/-- Every code halves the bus once more. -/
theorem BusWidth.lines_eq (w : BusWidth) : w.lines = 2 ^ (6 - w.code) := by
  cases w <;> rfl

/-- The size of a rank is that of its cells: `width` bits in each column of each row of each bank.
Banks, rows and columns are as many as the registers can tell. -/
structure Dimm.Measured (width : Nat) (d : Dimm) : Prop where
  primary : d.primaryWidth = width
  lines : d.dataWidth = width ∨ d.dataWidth = width + 8
  rankSize : 8 * d.rankSize = 2 ^ (d.rowBits + d.columnBits) * d.banks * width
  rows : 12 ≤ d.rowBits ∧ d.rowBits ≤ 19
  columns : 9 ≤ d.columnBits ∧ d.columnBits ≤ 15
  banks : d.banks = 8 ∨ d.banks = 16 ∨ d.banks = 32

namespace Dimm.Measured

variable {width : Nat} {d : Dimm} (h : d.Measured width)
include h

theorem log2_banks : 3 ≤ d.banks.log2 ∧ d.banks.log2 ≤ 5 := by
  rcases h.banks with hb | hb | hb <;> rw [hb] <;> decide

theorem banks_eq : d.banks = 2 ^ d.banks.log2 := by
  rcases h.banks with hb | hb | hb <;> rw [hb] <;> rfl

end Dimm.Measured

/-- A controller that is not interleaved with others and has modules of one width, at least as wide
as its bus. Its ranks fill at least one unit of 64 MiB on the bus, and a slot without ranks has no
data lines, or as many as a module. -/
structure MeasuredController (p : Platform) (k : Controller) (width : Nat) : Prop where
  known : width = 16 ∨ width = 32 ∨ width = 64
  alone : k.options.controllerMode = none
  counted : k.common.dimmCount ≠ 0
  narrow : k.options.busWidth.lines ≤ width
  measured : ∀ d ∈ k.installed p.slots, d.isEmpty = false → d.Measured width
  /-- On a bus of 32 bits, `Placement.widthShift` looks at the records of empty slots too. In a run
  their data width is zero. -/
  vacant : ∀ d ∈ k.installed p.slots, d.isEmpty = true →
    d.dataWidth = 0 ∨ d.dataWidth = width ∨ d.dataWidth = width + 8
  fits : ∀ d ∈ k.installed p.slots, d.ranks ≤ p.chipSelectsPerSlot
  capacity : ∀ d ∈ k.installed p.slots, d.capacity = d.ranks * d.rankSize
  large : ∀ d ∈ k.installed p.slots, d.isEmpty = false →
    2 ^ 26 * width ≤ d.rankSize * k.options.busWidth.lines

/-! ### What the registers say -/

/-- **The address bits of an enabled chip select** are those of the cells of its rank. -/
theorem Programming.addressBits_chipSelectConfig {i : Synthesis.Inputs} {cs : Fin 4} {width : Nat}
    (hrank : Synthesis.hasRank i cs = true) (h : (Synthesis.dimmOf i cs).Measured width) :
    addressBits (Synthesis.chipSelectConfig i cs) =
      (Synthesis.dimmOf i cs).rowBits + (Synthesis.dimmOf i cs).columnBits +
        (Synthesis.dimmOf i cs).banks.log2 + 3 := by
  have hbanks : Layout.ChipSelect.bankBits.get (Synthesis.chipSelectConfig i cs) =
      ((Synthesis.dimmOf i cs).banks.log2 - 2) % 2 ^ 2 :=
    Synthesis.get_chipSelectConfig (if_pos hrank) rfl (by simp)
  have hrows : Layout.ChipSelect.rowBits.get (Synthesis.chipSelectConfig i cs) =
      ((Synthesis.dimmOf i cs).rowBits - 12) % 2 ^ 3 :=
    Synthesis.get_chipSelectConfig (if_pos hrank) rfl (by simp)
  have hcolumns : Layout.ChipSelect.columnBits.get (Synthesis.chipSelectConfig i cs) =
      ((Synthesis.dimmOf i cs).columnBits - 8) % 2 ^ 3 :=
    Synthesis.get_chipSelectConfig (if_pos hrank) rfl (by simp)
  have hlog := h.log2_banks
  have hrow := h.rows
  have hcolumn := h.columns
  rw [addressBits, hbanks, hrows, hcolumns]
  omega

/-- Without other controllers in its range, no chip select is marked as interleaved. -/
theorem Synthesis.chipSelectConfig_and_twoWay {i : Inputs} (hmode : i.options.controllerMode = none)
    (cs : Fin 4) : chipSelectConfig i cs &&& Bits.twoWay = 0 := by
  have hmask : Bits.twoWay = (Layout.bit 29).mask 32 := by decide
  have hnone : interleaveFields i cs = [] := by rw [interleaveFields, hmode]
  have hget : (Layout.bit 29).get (chipSelectConfig i cs) = 0 := by
    by_cases hrank : hasRank i cs = true
    · simp only [chipSelectConfig, if_pos hrank, hnone, List.append_nil, assemble]
      rw [Field.get_foldl_set_of_disjoint, Field.get_zero]
      simp only [List.forall_mem_cons]
      decide
    · rw [chipSelectConfig, if_neg hrank, Field.get_zero]
  rw [hmask]
  exact (Field.and_mask_eq_zero_iff (Layout.bit 29) _).2 hget

/-- The room that the enabled chip selects give is that of all modules: nothing is lost to the bus,
and every module has all its ranks selected. -/
theorem Synthesis.sum_rankSpan_filter_hasRank {i : Inputs}
    (hlength : i.dimms.length = 1 ∨ i.dimms.length = 2)
    (hfit : ∀ d ∈ i.dimms, d.ranks ≤ perSlot i)
    (hcapacity : ∀ d ∈ i.dimms, d.capacity = d.ranks * d.rankSize)
    (hshift : ∀ d ∈ i.dimms, d.isEmpty = false → 2 ^ i.widthShift ∣ d.rankSize) :
    (((List.finRange 4).filter (hasRank i)).map (rankSpan i)).sum =
      (i.dimms.map (room i.widthShift)).sum := by
  have hregions := congrArg (fun rs : List Region => (rs.map (·.size)).sum)
    (map_rankRegion_filter_hasRank hlength hfit)
  simp only [List.map_map, List.map_flatMap] at hregions
  rw [show rankSpan i = Region.size ∘ rankRegion i from rfl, hregions, List.flatMap,
    List.sum_flatten, List.map_map]
  refine congrArg List.sum (List.map_congr_left fun d hd => ?_)
  have hsizes : (d.rankRegions i.widthShift).map (·.size) =
      List.replicate d.ranks (d.rankSize / 2 ^ i.widthShift) := by
    rw [Dimm.rankRegions, List.map_map]
    calc ((List.range d.ranks).map fun _ => d.rankSize / 2 ^ i.widthShift)
        = List.replicate (List.range d.ranks).length (d.rankSize / 2 ^ i.widthShift) :=
          List.map_const'
      _ = List.replicate d.ranks (d.rankSize / 2 ^ i.widthShift) := by rw [List.length_range]
  rw [Dimm.room_eq (hcapacity d hd) (hshift d hd), Function.comp_apply, hsizes,
    List.sum_replicate_nat]

/-- The room behind the chip selects that are enabled: each of them selects a rank of the module in
its slot, as large as it is on the bus. -/
def Placement.selectedRoom (p : Platform) (k : Controller) (f : RegisterFile) : Nat :=
  (((List.finRange 4).filter fun cs => f.chipSelects[cs].enabled).map fun cs : Fin 4 =>
    ((k.installed p.slots).getD (cs / p.chipSelectsPerSlot) {}).rankSize / 2 ^ k.widthShift).sum

/-- The chip selects that are enabled are those with a rank. -/
theorem Placement.selectedRoom_registers (setup : Setup B) (p : Platform) (k : Controller) :
    selectedRoom p k (Synthesis.registers (Stage.inputsOf setup p k)) =
      (((List.finRange 4).filter (Synthesis.hasRank (Stage.inputsOf setup p k))).map
        (Synthesis.rankSpan (Stage.inputsOf setup p k))).sum := by
  have henabled : ∀ cs : Fin 4,
      (Synthesis.registers (Stage.inputsOf setup p k)).chipSelects[cs].enabled =
        Synthesis.hasRank (Stage.inputsOf setup p k) cs := by
    intro cs
    rw [show (Synthesis.registers (Stage.inputsOf setup p k)).chipSelects =
      Synthesis.chipSelects (Stage.inputsOf setup p k) from rfl,
      Synthesis.getElem_chipSelects (Stage.dimms_inputsOf_ne_nil setup p k),
      Synthesis.enabled_chipSelect]
  have hspan : ∀ cs : Fin 4,
      ((k.installed p.slots).getD (cs / p.chipSelectsPerSlot) {}).rankSize / 2 ^ k.widthShift =
        Synthesis.rankSpan (Stage.inputsOf setup p k) cs := by
    intro cs
    rw [← Stage.perSlot_inputsOf setup p k]
    rfl
  simp only [selectedRoom, henabled, hspan]

/-! ### The bus -/

namespace MeasuredController

variable {p : Platform} {k : Controller} {width : Nat} (h : MeasuredController p k width)
include h

/-- **A bus is narrower than the modules by its shift.** -/
theorem shift_mul_lines {d : Dimm} (hd : d ∈ k.installed p.slots) (hne : d.isEmpty = false) :
    2 ^ widthShift k.options (k.installed p.slots) * k.options.busWidth.lines = width := by
  have hnarrow := h.narrow
  rw [widthShift]
  cases hbus : k.options.busWidth with
  | bits64 =>
      rw [hbus] at hnarrow
      rcases h.known with rfl | rfl | rfl <;> simp_all [BusWidth.lines]
  | bits32 =>
      rw [hbus] at hnarrow
      rcases h.known with rfl | rfl | rfl
      · simp [BusWidth.lines] at hnarrow
      · -- no module has the lines of a full bus
        have hany : ((k.installed p.slots).any fun d => d.dataWidth == 64 || d.dataWidth == 72) =
            false := by
          rw [List.any_eq_false]
          intro e he
          have hlines : e.dataWidth = 0 ∨ e.dataWidth = 32 ∨ e.dataWidth = 32 + 8 := by
            cases hempty : e.isEmpty with
            | true => exact h.vacant e he hempty
            | false => exact .inr (h.measured e he hempty).lines
          simp only [Bool.or_eq_true, beq_iff_eq]
          omega
        simp [hany, BusWidth.lines]
      · have hlines := (h.measured d hd hne).lines
        have hany : ((k.installed p.slots).any fun d => d.dataWidth == 64 || d.dataWidth == 72) =
            true := by
          rw [List.any_eq_true]
          exact ⟨d, hd, by simpa using hlines⟩
        simp [hany, BusWidth.lines]
  | bits16 =>
      obtain ⟨e, he⟩ : ∃ e, (k.installed p.slots).find? (!·.isEmpty) = some e := by
        rw [← Option.isSome_iff_exists, List.find?_isSome]
        exact ⟨d, hd, by simp [hne]⟩
      have hempty : e.isEmpty = false := by simpa using List.find?_some he
      have hprimary := (h.measured e (List.mem_of_find?_eq_some he) hempty).primary
      simp only [he, Option.map_some, Option.getD_some, hprimary]
      rcases h.known with rfl | rfl | rfl <;> simp [BusWidth.lines]

/-- A rank shrinks on the bus to what its cells hold on as many lines. -/
theorem rankSize_eq {d : Dimm} (hd : d ∈ k.installed p.slots) (hne : d.isEmpty = false) :
    d.rankSize = 2 ^ widthShift k.options (k.installed p.slots) *
      2 ^ (d.rowBits + d.columnBits + d.banks.log2 + 3 - k.options.busWidth.code) := by
  have hmeasured := h.measured d hd hne
  have hcode : k.options.busWidth.code ≤ 2 := by
    cases k.options.busWidth <;> decide
  have hrows := hmeasured.rows
  refine Nat.eq_of_mul_eq_mul_left (show 0 < 2 ^ 3 by decide) ?_
  calc 2 ^ 3 * d.rankSize
      = 2 ^ (d.rowBits + d.columnBits) * 2 ^ d.banks.log2 *
          (2 ^ widthShift k.options (k.installed p.slots) * 2 ^ (6 - k.options.busWidth.code)) := by
        rw [← BusWidth.lines_eq, h.shift_mul_lines hd hne, ← hmeasured.banks_eq]
        exact hmeasured.rankSize
    _ = 2 ^ 3 * (2 ^ widthShift k.options (k.installed p.slots) *
          2 ^ (d.rowBits + d.columnBits + d.banks.log2 + 3 - k.options.busWidth.code)) := by
        rw [← Nat.pow_add, ← Nat.pow_add, ← Nat.pow_add, ← Nat.pow_add, ← Nat.pow_add]
        congr 1
        omega

theorem dvd_rankSize {d : Dimm} (hd : d ∈ k.installed p.slots) (hne : d.isEmpty = false) :
    2 ^ widthShift k.options (k.installed p.slots) ∣ d.rankSize :=
  ⟨_, h.rankSize_eq hd hne⟩

/-- The size of a rank on the bus, in units of 64 MiB. -/
theorem rankSize_div {d : Dimm} (hd : d ∈ k.installed p.slots) (hne : d.isEmpty = false) :
    d.rankSize / 2 ^ widthShift k.options (k.installed p.slots) =
      2 ^ 26 * 2 ^ (d.rowBits + d.columnBits + d.banks.log2 + 3 -
        (k.options.busWidth.code + 26)) := by
  have hlines : 0 < k.options.busWidth.lines := by
    rw [BusWidth.lines_eq]
    exact Nat.two_pow_pos _
  have hlarge := h.large d hd hne
  rw [h.rankSize_eq hd hne] at hlarge
  nth_rewrite 1 [← h.shift_mul_lines hd hne] at hlarge
  have hbits : 2 ^ 26 ≤
      2 ^ (d.rowBits + d.columnBits + d.banks.log2 + 3 - k.options.busWidth.code) := by
    refine Nat.le_of_mul_le_mul_left ?_
      (Nat.mul_pos (Nat.two_pow_pos (widthShift k.options (k.installed p.slots))) hlines)
    calc _ = 2 ^ 26 * (2 ^ widthShift k.options (k.installed p.slots) *
          k.options.busWidth.lines) := Nat.mul_comm _ _
      _ ≤ _ := hlarge
      _ = _ := by rw [Nat.mul_right_comm]
  have hle := (Nat.pow_le_pow_iff_right (by decide : 1 < 2)).1 hbits
  rw [h.rankSize_eq hd hne, Nat.mul_div_cancel_left _ (Nat.two_pow_pos _), ← Nat.pow_add]
  congr 1
  omega

/-! ### The size of the controller -/

/-- The modules of a controller can be measured as before after the controller was placed. -/
theorem placed (base : Nat) :
    MeasuredController p (linear p.slots base (State.withShift p k)) width := by
  have hmem : ∀ e ∈ (linear p.slots base (State.withShift p k)).installed p.slots,
      ∃ d ∈ k.installed p.slots, ∃ b, e = { d with base := b } := by
    intro e he
    rw [installed_linear] at he
    exact exists_eq_of_mem_chain he
  exact
    { known := h.known
      alone := h.alone
      counted := h.counted
      narrow := h.narrow
      measured := by
        intro e he hne
        obtain ⟨d, hd, b, rfl⟩ := hmem e he
        obtain ⟨hprimary, hlines, hsize, hrows, hcolumns, hbanks⟩ := h.measured d hd hne
        exact ⟨hprimary, hlines, hsize, hrows, hcolumns, hbanks⟩
      vacant := by
        intro e he
        obtain ⟨d, hd, b, rfl⟩ := hmem e he
        exact h.vacant d hd
      fits := by
        intro e he
        obtain ⟨d, hd, b, rfl⟩ := hmem e he
        exact h.fits d hd
      capacity := by
        intro e he
        obtain ⟨d, hd, b, rfl⟩ := hmem e he
        exact h.capacity d hd
      large := by
        intro e he
        obtain ⟨d, hd, b, rfl⟩ := hmem e he
        exact h.large d hd }

/-- The chip selects that the programming counts are those of the ranks. -/
theorem sizeUnits_registers (setup : Setup B)
    (hshift : k.widthShift = widthShift k.options (k.installed p.slots)) :
    2 ^ 26 * Programming.sizeUnits (Synthesis.registers (Stage.inputsOf setup p k)) false =
      selectedRoom p k (Synthesis.registers (Stage.inputsOf setup p k)) := by
  rw [selectedRoom_registers]
  obtain ⟨i, hi⟩ : ∃ i, Stage.inputsOf setup p k = i := ⟨_, rfl⟩
  have hdimms : i.dimms = k.installed p.slots := by rw [← hi]; rfl
  have hoptions : i.options = k.options := by rw [← hi]; rfl
  have hnil : i.dimms ≠ [] := hi ▸ Stage.dimms_inputsOf_ne_nil setup p k
  have hmode : i.options.controllerMode = none := hoptions ▸ h.alone
  have hunit : ∀ cs, Synthesis.hasRank i cs = true →
      2 ^ 26 * 2 ^ (Programming.addressBits (Synthesis.chipSelect i cs).config -
        (i.options.busWidth.code + 26)) = Synthesis.rankSpan i cs := by
    intro cs hrank
    have hd : Synthesis.dimmOf i cs ∈ k.installed p.slots := hdimms ▸ Synthesis.dimmOf_mem hrank
    have hne := Synthesis.isEmpty_dimmOf hrank
    have hconfig : (Synthesis.chipSelect i cs).config = Synthesis.chipSelectConfig i cs := by
      rw [Synthesis.chipSelect, if_neg (by simp [hne])]
    rw [hconfig, Programming.addressBits_chipSelectConfig hrank (h.measured _ hd hne), hoptions,
      ← h.rankSize_div hd hne, ← hshift, ← hi]
    rfl
  have htwoWay : (Synthesis.registers i).chipSelects[(0 : Fin 4)].config &&& Bits.twoWay = 0 := by
    rw [show (Synthesis.registers i).chipSelects = Synthesis.chipSelects i from rfl,
      Synthesis.getElem_chipSelects hnil, Synthesis.chipSelect]
    split
    · exact BitVec.zero_and
    · exact Synthesis.chipSelectConfig_and_twoWay hmode 0
  have hfilter : (List.finRange 4).filter ((·.enabled) ∘ Synthesis.chipSelect i) =
      (List.finRange 4).filter (Synthesis.hasRank i) :=
    List.filter_congr fun cs _ => Synthesis.enabled_chipSelect i cs
  rw [hi, Programming.sizeUnits, Programming.busWidthCode_registers,
    show (Synthesis.registers i).chipSelects.toList = (List.finRange 4).map (Synthesis.chipSelect i)
      from Synthesis.toList_chipSelects hnil]
  simp only [Bool.false_eq_true, if_false, htwoWay, ne_eq, not_true_eq_false]
  rw [List.filter_map, hfilter, List.map_map, ← List.sum_map_mul_left]
  exact congrArg List.sum (List.map_congr_left fun cs hcs => hunit cs (List.mem_filter.1 hcs).2)

/-- The ranks behind the enabled chip selects take the room of the modules. -/
theorem selectedRoom_eq (setup : Setup B)
    (hshift : k.widthShift = widthShift k.options (k.installed p.slots)) :
    selectedRoom p k (Synthesis.registers (Stage.inputsOf setup p k)) =
      ((k.installed p.slots).map (room k.widthShift)).sum := by
  have hlength : (Stage.inputsOf setup p k).dimms.length = p.slots := k.length_installed p
  rw [selectedRoom_registers]
  refine Synthesis.sum_rankSpan_filter_hasRank (hlength ▸ p.slots_eq) ?_ h.capacity ?_
  · rw [Stage.perSlot_inputsOf]
    exact h.fits
  · intro d hd hne
    show 2 ^ k.widthShift ∣ d.rankSize
    rw [hshift]
    exact h.dvd_rankSize hd hne

/-- **The size that the programming of a controller reads out of its registers** is the size that
the placement assigns to the controller: both are the size, on the bus, of the ranks behind the
enabled chip selects. -/
theorem size_agrees (setup : Setup B) (base : Nat) :
    let placed := linear p.slots base (State.withShift p k)
    ∃ f, (Synthesis.compute (Stage.inputsOf setup p placed) false).value = .ok f ∧
      2 ^ 26 * Programming.sizeUnits f false = selectedRoom p placed f ∧
      selectedRoom p placed f = placed.region.size := by
  intro placed
  have hplaced : MeasuredController p placed width := h.placed base
  have hinstalled : placed.installed p.slots =
      chain (State.withShift p k).widthShift base (k.installed p.slots) :=
    installed_linear p base (State.withShift p k)
  have hshift : placed.widthShift = widthShift placed.options (placed.installed p.slots) := by
    rw [hinstalled, widthShift_chain]
    rfl
  refine ⟨Synthesis.registers (Stage.inputsOf setup p placed), ?_,
    hplaced.sizeUnits_registers setup hshift, ?_⟩
  · rw [Synthesis.compute, if_neg (show ¬(Stage.inputsOf setup p placed).common.dimmCount = 0 from
      hplaced.counted)]
    rfl
  · rw [hplaced.selectedRoom_eq setup hshift, hinstalled, map_chain (fun _ _ => rfl)]
    rfl

end MeasuredController

namespace MeasuredController

/-- A platform with two slots. -/
def twoSlots : Platform := { Platform.singleSlot with slotCount := 2 }

/-- Modules of 64 lines and error correction on a bus of 32 lines: two ranks of 1 GiB beside one of
512 MiB. -/
def narrowPair : Controller where
  dimms :=
    #v[{ ranks := 2, rankSize := 2 ^ 30, capacity := 2 ^ 31, primaryWidth := 64, dataWidth := 72,
         rowBits := 14, columnBits := 10, banks := 8 },
      { ranks := 1, rankSize := 2 ^ 29, capacity := 2 ^ 29, primaryWidth := 64, dataWidth := 72,
        rowBits := 13, columnBits := 10, banks := 8 }]
  common := { dimmCount := 2 }
  options := { busWidth := .bits32 }

theorem measured_narrowPair : MeasuredController twoSlots narrowPair 64 where
  known := by decide
  alone := rfl
  counted := by decide
  narrow := by decide
  measured := by
    rw [show twoSlots.slots = 2 from rfl, Controller.installed_two]
    simp only [List.forall_mem_cons]
    exact ⟨fun _ => ⟨rfl, .inr rfl, rfl, by decide, by decide, .inl rfl⟩,
      fun _ => ⟨rfl, .inr rfl, rfl, by decide, by decide, .inl rfl⟩, by simp⟩
  vacant := by decide
  fits := by decide
  capacity := by decide
  large := by decide

/-- Half the lines of the two modules hold 1 GiB and 256 MiB, by both. -/
theorem size_agrees_narrowPair :
    MeasuredController twoSlots narrowPair 64 ∧
      let placed := linear twoSlots.slots 0x80000000 (State.withShift twoSlots narrowPair)
      placed.region.size = 2 ^ 30 + 2 ^ 28 ∧
        ∃ f, (Synthesis.compute (Stage.inputsOf (.bare 1600000000) twoSlots placed) false).value =
            .ok f ∧
          2 ^ 26 * Programming.sizeUnits f false = selectedRoom twoSlots placed f ∧
          selectedRoom twoSlots placed f = placed.region.size :=
  ⟨measured_narrowPair, by decide,
    measured_narrowPair.size_agrees (.bare 1600000000) 0x80000000⟩

end MeasuredController

end SdramBringup
