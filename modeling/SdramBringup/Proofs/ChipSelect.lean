/-
**What the registers of a chip select say.**

A chip select is described twice: by the range and the geometry that it was computed from, and by
the words that the controller is given. The memory that a configuration reports is read back from
the words, so this module proves that nothing is lost on the way: a chip select is enabled exactly
when its module has its rank, and below the top of the address space its register holds the units
of 16 MiB of its range.

Main definitions:

* `ChipSelectRegisters.region` — the range that a chip select answers to, by its registers;
* `Synthesis.rankRegion` — the range of a chip select whose rank has a range of its own;
* `State.enabledRegions` — the ranges of all enabled chip selects, in order.

Main results:

* `ChipSelectRegisters.enabled_iff` — the enable bit as a field;
* `Synthesis.enabled_chipSelect` — **a chip select is enabled exactly when it has a rank**;
* `Synthesis.region_boundsOf` — a range on the grid of 16 MiB is read back as it is;
* `Synthesis.region_chipSelect` — **a chip select with a range of its own** answers to its rank;
* `Synthesis.rangeEnd?_chipSelect` — the last unit of a chip select, as the size of the memory
  counts it;
* `State.totalMemory_of_tiles` — **the size of the memory** is that of the interval which the
  enabled chip selects tile.
-/

import Mathlib.Data.List.FinRange
import SdramBringup.Proofs.Field
import SdramBringup.Proofs.Placement
import SdramBringup.Synthesis.ChipSelect

set_option relaxedAutoImplicit false
set_option autoImplicit false

namespace SdramBringup

/-! ### The enable bit -/

/-- A chip select is enabled when its enable field is not zero. -/
theorem ChipSelectRegisters.enabled_iff (r : ChipSelectRegisters) :
    r.enabled = true ↔ Layout.ChipSelect.enable.get r.config ≠ 0 := by
  have hmask : Bits.chipSelectEnable = Layout.ChipSelect.enable.mask 32 := by decide
  rw [enabled, hmask, bne_iff_ne, ne_eq, ne_eq]
  exact not_congr (Field.and_mask_eq_zero_iff Layout.ChipSelect.enable r.config)

/-- The range that a chip select answers to, from the first byte of its first unit of 16 MiB to the
last byte of its last one. -/
def ChipSelectRegisters.region (r : ChipSelectRegisters) : Region where
  base := Layout.Bounds.first.get r.bounds * 2 ^ 24
  size := (Layout.Bounds.last.get r.bounds + 1) * 2 ^ 24 -
    Layout.Bounds.first.get r.bounds * 2 ^ 24

/-- An address is compared with the units of 16 MiB in the register. -/
theorem ChipSelectRegisters.contains_region_iff (r : ChipSelectRegisters) (a : Nat) :
    r.region.Contains a ↔
      Layout.Bounds.first.get r.bounds ≤ a / 2 ^ 24 ∧
        a / 2 ^ 24 ≤ Layout.Bounds.last.get r.bounds := by
  simp only [Region.Contains, Region.stop, region]
  omega

namespace Synthesis

/-- A module has no rank for a chip select if it has none at all. -/
theorem hasRank_of_isEmpty {i : Inputs} {cs : Fin 4} (h : (dimmOf i cs).isEmpty = true) :
    hasRank i cs = false := by
  have hranks : (dimmOf i cs).ranks = 0 := by simpa [Dimm.isEmpty] using h
  simp [hasRank, hranks]

theorem dimmOf_mem {i : Inputs} {cs : Fin 4} (hrank : hasRank i cs = true) :
    dimmOf i cs ∈ i.dimms := by
  rw [hasRank, dimmOf, List.getD_eq_getElem?_getD] at hrank
  rw [dimmOf, List.getD_eq_getElem?_getD]
  cases hget : i.dimms[slotOf i cs]? with
  | none => simp [hget] at hrank
  | some d => exact List.mem_of_getElem? hget

theorem isEmpty_dimmOf {i : Inputs} {cs : Fin 4} (hrank : hasRank i cs = true) :
    (dimmOf i cs).isEmpty = false := by
  cases hempty : (dimmOf i cs).isEmpty with
  | false => rfl
  | true => exact absurd hrank (by simp [hasRank_of_isEmpty hempty])

/-- The fields for interleaving are both there or neither is. -/
theorem map_interleaveFields (i : Inputs) (cs : Fin 4) :
    (interleaveFields i cs).map (·.1) = [] ∨
      (interleaveFields i cs).map (·.1) =
        [Layout.ChipSelect.interleave, Layout.ChipSelect.interleaveMode] := by
  unfold interleaveFields
  cases i.options.controllerMode with
  | none => exact .inl rfl
  | some mode =>
      by_cases h : cs = 0 ∧ mode.ways = 2
      · exact .inr (by simp [h])
      · exact .inl (by simp [h])

/-- A field of a chip select reads back, whether or not the chip select is interleaved. -/
theorem get_chipSelectConfig {i : Inputs} {cs : Fin 4} {f : Field} {v : Nat}
    {own : List (Field × Nat)}
    (hown : chipSelectConfig i cs = assemble (own ++ interleaveFields i cs))
    (hfields : own.map (·.1) =
      [Layout.ChipSelect.enable, Layout.ChipSelect.odtOnRead, Layout.ChipSelect.odtOnWrite,
        Layout.ChipSelect.bankBits, Layout.ChipSelect.rowBits, Layout.ChipSelect.columnBits])
    (hp : (f, v) ∈ own) : f.get (chipSelectConfig i cs) = v % 2 ^ f.width := by
  rw [hown]
  refine get_assemble ?_ ?_ (List.mem_append_left _ hp)
  all_goals
    rw [List.map_append, hfields]
    rcases map_interleaveFields i cs with hf | hf <;> rw [hf] <;> decide

/-- The enable field of a chip select with a rank is set, whatever its other fields are. -/
theorem get_enable_chipSelectConfig {i : Inputs} {cs : Fin 4} (h : hasRank i cs = true) :
    Layout.ChipSelect.enable.get (chipSelectConfig i cs) = 1 :=
  get_chipSelectConfig (if_pos h) rfl (v := 1) List.mem_cons_self

/-- **A chip select is enabled exactly when its module has a rank for it.** -/
theorem enabled_chipSelect (i : Inputs) (cs : Fin 4) :
    (chipSelect i cs).enabled = hasRank i cs := by
  cases hrank : hasRank i cs with
  | false =>
      have hconfig : (chipSelect i cs).config = 0#32 := by
        unfold chipSelect
        split
        · rfl
        · rw [chipSelectConfig, if_neg (by simp [hrank])]
      rw [ChipSelectRegisters.enabled, hconfig]
      decide
  | true =>
      have hne : ¬(dimmOf i cs).isEmpty = true := by
        intro he
        rw [hasRank_of_isEmpty he] at hrank
        exact absurd hrank (by decide)
      rw [ChipSelectRegisters.enabled_iff, chipSelect, if_neg hne]
      rw [get_enable_chipSelectConfig hrank]
      decide

/-! ### The range -/

/-- A bounds register has the unit of the first address, as far as it has bits for it. -/
theorem get_first_boundsOf (range : Nat × Nat) :
    Layout.Bounds.first.get (boundsOf range) = range.1 / 2 ^ 24 % 2 ^ 16 :=
  Layout.get_assemble (l := Layout.Bounds.layout) (by decide) rfl rfl List.mem_cons_self

theorem first_boundsOf {first : Nat} (last : Nat) (h : first < 2 ^ 40) :
    Layout.Bounds.first.get (boundsOf (first, last)) = first / 2 ^ 24 := by
  rw [get_first_boundsOf]
  exact Nat.mod_eq_of_lt (Nat.div_lt_of_lt_mul (Nat.lt_of_lt_of_le h (by decide)))

theorem last_boundsOf (first : Nat) {last : Nat} (h : last < 2 ^ 40) :
    Layout.Bounds.last.get (boundsOf (first, last)) = last / 2 ^ 24 := by
  have hget : Layout.Bounds.last.get (boundsOf (first, last)) =
      last / 2 ^ 24 % 2 ^ Layout.Bounds.last.width :=
    Layout.get_assemble (l := Layout.Bounds.layout) (by decide) rfl rfl
      (List.mem_cons_of_mem _ List.mem_cons_self)
  have hlt : last / 2 ^ 24 < 2 ^ Layout.Bounds.last.width :=
    Nat.div_lt_of_lt_mul (Nat.lt_of_lt_of_le h (by decide))
  rwa [Nat.mod_eq_of_lt hlt] at hget

/-- A range that ends below the last unit of 16 MiB is not mistaken for the mark of no range. -/
theorem boundsOf_ne_noRange {first last : Nat} (h : last / 2 ^ 24 + 1 < 2 ^ 16) :
    boundsOf (first, last) ≠ Bits.noRange := by
  intro he
  have hlast := last_boundsOf first (show last < 2 ^ 40 by omega)
  rw [he, show Layout.Bounds.last.get Bits.noRange = 2 ^ 16 - 1 by decide] at hlast
  omega

/-- **A range on the grid of 16 MiB is read back from its register as it is**, even one of no size,
unless that is at either end of the addresses. -/
theorem region_boundsOf {r : ChipSelectRegisters} {start size : Nat}
    (hr : r.bounds = boundsOf (start, lastOf start size)) (hstart : 2 ^ 24 ∣ start)
    (hsize : 2 ^ 24 ∣ size) (hnone : size = 0 → 0 < start ∧ start < 2 ^ 40)
    (htop : start + size ≤ 2 ^ 40) :
    r.region = ⟨start, size⟩ := by
  obtain ⟨u, rfl⟩ := hstart
  obtain ⟨v, rfl⟩ := hsize
  have hlast : lastOf (2 ^ 24 * u) (2 ^ 24 * v) = 2 ^ 24 * u + 2 ^ 24 * v - 1 := by
    unfold lastOf
    omega
  rw [hlast] at hr
  rw [ChipSelectRegisters.region, hr, first_boundsOf _ (by omega), last_boundsOf _ (by omega)]
  simp only [Region.mk.injEq]
  omega

/-- No address of a range is lost in its register, be it on the grid or not. -/
theorem contains_boundsOf {r : ChipSelectRegisters} {start size a : Nat}
    (hr : r.bounds = boundsOf (start, lastOf start size)) (htop : start + size ≤ 2 ^ 40)
    (ha : start ≤ a ∧ a < start + size) : r.region.Contains a := by
  have hlast : lastOf start size = start + size - 1 := by
    unfold lastOf
    omega
  rw [hlast] at hr
  rw [ChipSelectRegisters.contains_region_iff, hr, first_boundsOf _ (by omega),
    last_boundsOf _ (by omega)]
  omega

/-- The range of a chip select with a module, whether or not it has a rank. -/
theorem bounds_chipSelect_of_module {i : Inputs} {cs : Fin 4} (h : (dimmOf i cs).isEmpty = false) :
    (chipSelect i cs).bounds = ((range? i cs).map boundsOf).getD Bits.noRange := by
  rw [chipSelect, if_neg (by simp [h])]

theorem bounds_chipSelect {i : Inputs} {cs : Fin 4} (h : hasRank i cs = true) :
    (chipSelect i cs).bounds = ((range? i cs).map boundsOf).getD Bits.noRange :=
  bounds_chipSelect_of_module (isEmpty_dimmOf h)

/-- The last unit of 16 MiB of a chip select, as far as the size of the memory counts it, is that of
its range, provided that this ends below the last unit of all. -/
theorem rangeEnd?_chipSelect {i : Inputs} {cs : Fin 4}
    (h : hasRank i cs = true → ∀ range, range? i cs = some range →
      range.2 / 2 ^ 24 + 1 < 2 ^ 16) :
    State.rangeEnd? (chipSelect i cs) =
      if hasRank i cs then (range? i cs).map fun range => range.2 / 2 ^ 24 else none := by
  rw [State.rangeEnd?, enabled_chipSelect]
  cases hrank : hasRank i cs with
  | false => rfl
  | true =>
      rw [bounds_chipSelect hrank]
      cases hrange : range? i cs with
      | none => rfl
      | some range =>
          have hunit := h hrank range hrange
          have hne : boundsOf range ≠ Bits.noRange := boundsOf_ne_noRange hunit
          have hlast : Layout.Bounds.last.get (boundsOf range) = range.2 / 2 ^ 24 :=
            last_boundsOf range.1 (by omega)
          simp [hne, hlast]

/-! ### The four chip selects of a controller -/

theorem chipSelects_of_dimms {i : Inputs} (h : i.dimms ≠ []) :
    chipSelects i = Vector.ofFn (chipSelect i) := by
  rw [chipSelects, if_neg (by simpa using h)]

theorem getElem_chipSelects {i : Inputs} (h : i.dimms ≠ []) (cs : Fin 4) :
    (chipSelects i)[cs] = chipSelect i cs := by
  rw [chipSelects_of_dimms h]
  exact Vector.getElem_ofFn cs.isLt

theorem toList_chipSelects {i : Inputs} (h : i.dimms ≠ []) :
    (chipSelects i).toList = (List.finRange 4).map (chipSelect i) := by
  rw [chipSelects_of_dimms h, Vector.toList_ofFn, List.ofFn_eq_map]

/-! ### Ranks with ranges of their own -/

/-- The range of a chip select whose rank has a range of its own. -/
def rankRegion (i : Inputs) (cs : Fin 4) : Region :=
  ⟨(dimmOf i cs).base + rankOf i cs * rankSpan i cs, rankSpan i cs⟩

/-- The chip selects that have a rank are, slot by slot, the ranks of the modules, provided that no
module has more ranks than its slot has chip selects. -/
theorem map_rankRegion_filter_hasRank {i : Inputs}
    (hlength : i.dimms.length = 1 ∨ i.dimms.length = 2)
    (hfit : ∀ d ∈ i.dimms, d.ranks ≤ perSlot i) :
    ((List.finRange 4).filter (hasRank i)).map (rankRegion i) =
      i.dimms.flatMap (Dimm.rankRegions i.widthShift) := by
  rw [show List.finRange 4 = [0, 1, 2, 3] from rfl]
  rcases hlength with hone | htwo
  · obtain ⟨d, hd⟩ := List.length_eq_one_iff.1 hone
    have hper : perSlot i = 4 := by simp [perSlot, hone]
    have hranks : d.ranks ≤ 4 := hper ▸ hfit d (by simp [hd])
    rcases (by omega : d.ranks = 0 ∨ d.ranks = 1 ∨ d.ranks = 2 ∨ d.ranks = 3 ∨ d.ranks = 4) with
      h | h | h | h | h <;>
      simp [hasRank, rankRegion, rankOf, slotOf, dimmOf, rankSpan, hper, hd, h, Dimm.rankRegions,
        List.range_succ]
  · obtain ⟨d, e, hd⟩ := List.length_eq_two.1 htwo
    have hper : perSlot i = 2 := by simp [perSlot, htwo]
    have hranks : d.ranks ≤ 2 := hper ▸ hfit d (by simp [hd])
    have hranks' : e.ranks ≤ 2 := hper ▸ hfit e (by simp [hd])
    rcases (by omega : d.ranks = 0 ∨ d.ranks = 1 ∨ d.ranks = 2) with h | h | h <;>
    rcases (by omega : e.ranks = 0 ∨ e.ranks = 1 ∨ e.ranks = 2) with h' | h' | h' <;>
      simp [hasRank, rankRegion, rankOf, slotOf, dimmOf, rankSpan, hper, hd, h, h', Dimm.rankRegions,
        List.range_succ]

/-- **A chip select with a range of its own** answers to its rank. -/
theorem region_chipSelect {i : Inputs} {cs : Fin 4} (hrank : hasRank i cs = true)
    (hmode : i.options.controllerMode = none)
    (hbank : i.options.bankMode = .off ∨ i.options.bankMode = .auto)
    (hbase : 2 ^ 24 ∣ (rankRegion i cs).base) (hsize : 2 ^ 24 ∣ (rankRegion i cs).size)
    (hpos : 0 < (rankRegion i cs).size) (htop : (rankRegion i cs).stop ≤ 2 ^ 40) :
    (chipSelect i cs).region = rankRegion i cs := by
  have hrange : range? i cs = some (rankRange i cs) := by
    rcases hbank with h | h <;> simp [range?, hmode, h, hrank]
  refine region_boundsOf ?_ hbase hsize (fun hzero => absurd hzero hpos.ne') htop
  rw [bounds_chipSelect hrank, hrange]
  rfl

end Synthesis

/-! ### The size of the memory -/

namespace State

theorem mem_rangeEnds {s : State} {e : Nat} :
    e ∈ s.rangeEnds ↔ ∃ c ∈ s.platform.controllerList, ∃ cs : Fin 4,
      rangeEnd? s.controllers[c].registers.chipSelects[cs] = some e := by
  have hmem : ∀ (v : Vector ChipSelectRegisters 4) r, r ∈ v.toList ↔ ∃ cs : Fin 4, v[cs] = r := by
    intro v r
    rw [Vector.mem_toList_iff, Vector.mem_iff_getElem]
    exact ⟨fun ⟨i, hi, he⟩ => ⟨⟨i, hi⟩, he⟩, fun ⟨i, he⟩ => ⟨i.val, i.isLt, he⟩⟩
  simp only [rangeEnds, chipSelects, List.mem_filterMap, List.mem_flatMap, hmem]
  constructor
  · rintro ⟨r, ⟨c, hc, cs, rfl⟩, he⟩
    exact ⟨c, hc, cs, he⟩
  · rintro ⟨c, hc, cs, he⟩
    exact ⟨_, ⟨c, hc, cs, rfl⟩, he⟩

/-- The memory that the registers tell is no larger than what its highest end leaves. -/
theorem totalMemory_le_iff (s : State) (n : Nat) :
    s.totalMemory ≤ n ↔ ∀ e ∈ s.rangeEnds, (e + 1) * 2 ^ 24 ≤ s.platform.sdramBase + n := by
  unfold totalMemory
  cases hmax : s.rangeEnds.max? with
  | none =>
      rw [List.max?_eq_none_iff] at hmax
      simp [hmax]
  | some m =>
      obtain ⟨hm, hle⟩ := List.max?_eq_some_iff.1 hmax
      constructor
      · intro h e he
        have := Nat.mul_le_mul_right (2 ^ 24) (Nat.succ_le_succ (hle e he))
        simp only at h
        omega
      · intro h
        have := h m hm
        simp only
        omega

/-- The ranges of the enabled chip selects, controller by controller. -/
def enabledRegions (s : State) : List Region :=
  (s.chipSelects.filter (·.enabled)).map (·.region)

/-- A chip select that is enabled for some memory below the last unit of 16 MiB counts for the size
of the memory. -/
theorem rangeEnd?_of_enabled {r : ChipSelectRegisters} (henabled : r.enabled = true)
    (hpos : 0 < r.region.size) (htop : r.region.stop + 2 ^ 24 ≤ 2 ^ 40) :
    ∃ e, rangeEnd? r = some e ∧ (e + 1) * 2 ^ 24 = r.region.stop := by
  have hstop : (Layout.Bounds.last.get r.bounds + 1) * 2 ^ 24 = r.region.stop := by
    simp only [ChipSelectRegisters.region, Region.stop] at hpos ⊢
    omega
  have hne : r.bounds ≠ Bits.noRange := by
    intro h
    rw [h, show Layout.Bounds.last.get Bits.noRange = 2 ^ 16 - 1 by decide] at hstop
    omega
  exact ⟨Layout.Bounds.last.get r.bounds, by simp [rangeEnd?, henabled, hne], hstop⟩

/-- **The size of the memory is that of the interval which the enabled chip selects tile.** -/
theorem totalMemory_of_tiles {s : State} {stop : Nat}
    (h : Region.Tiles s.platform.sdramBase s.enabledRegions stop)
    (hpos : ∀ r ∈ s.enabledRegions, 0 < r.size) (htop : stop + 2 ^ 24 ≤ 2 ^ 40) :
    s.totalMemory = stop - s.platform.sdramBase := by
  have hbounds : ∀ r ∈ s.enabledRegions, r.stop ≤ stop := fun r hr => (h.bounds hr).2
  have hend : ∀ r ∈ s.chipSelects, r.enabled = true →
      ∃ e, rangeEnd? r = some e ∧ (e + 1) * 2 ^ 24 = r.region.stop := by
    intro r hr henabled
    have hmem : r.region ∈ s.enabledRegions :=
      List.mem_map_of_mem (List.mem_filter.2 ⟨hr, henabled⟩)
    have := hbounds r.region hmem
    exact rangeEnd?_of_enabled henabled (hpos r.region hmem) (by omega)
  have hle := h.le
  refine Nat.le_antisymm ?_ ?_
  · -- no end lies beyond the interval
    rw [totalMemory_le_iff]
    intro e he
    obtain ⟨r, hr, hre⟩ := List.mem_filterMap.1 he
    have henabled : r.enabled = true := by
      by_contra hnot
      simp [rangeEnd?, hnot] at hre
    obtain ⟨e', he', hstop⟩ := hend r hr henabled
    obtain rfl : e' = e := Option.some.inj (he'.symm.trans hre)
    have := hbounds r.region (List.mem_map_of_mem (List.mem_filter.2 ⟨hr, henabled⟩))
    omega
  · -- the last of the chip selects ends where the interval does
    rcases List.eq_nil_or_concat s.enabledRegions with hnil | ⟨_, _, hcons⟩
    · rw [hnil, Region.tiles_nil] at h
      omega
    · obtain ⟨q, hq, hstop⟩ := h.exists_stop (by simp [hcons])
      obtain ⟨r, hr, rfl⟩ := List.mem_map.1 hq
      obtain ⟨hmem, henabled⟩ := List.mem_filter.1 hr
      obtain ⟨e, he, hlast⟩ := hend r hmem henabled
      have := (totalMemory_le_iff s s.totalMemory).1 (Nat.le_refl _) e
        (List.mem_filterMap.2 ⟨r, hmem, he⟩)
      omega

end State

end SdramBringup
