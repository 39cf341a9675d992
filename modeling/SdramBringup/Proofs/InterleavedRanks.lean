/-
**Which ranks are interleaved with each other.**

Ranks that share a range take turns in it address by address, so they have to be alike: of one size,
with the same rows, columns and banks. The ranks of one module are. Whether chip selects are
interleaved is decided from the numbers of ranks alone, though, and one mode joins the ranks of two
modules. This module tells when that mode is used, and that the ranks of a group are alike exactly
if the two modules are or are not joined.

Main definitions:

* `Dimm.RanksAlike` — the ranks of two modules are alike;
* `Platform.moduleBehind`, `Platform.HasRankBehind` — what is behind a chip select;
* `BankMode.InterleavesAlike` — **the ranks that a mode interleaves are alike**.

Main results:

* `BankMode.interleavesAlike_of_one_slot`, `BankMode.interleavesAlike_of_ne_allFour` — within one
  module they are;
* `BankMode.interleavesAlike_allFour_iff` — the mode for all chip selects joins the two slots;
* `Options.interleavesAlike_derive_iff` — **the ranks that the options interleave are alike** exactly
  if the modules of joined slots are.
-/

import SdramBringup.Proofs.BankGroups
import SdramBringup.Proofs.Options
import SdramBringup.Proofs.UnusedChipSelects

set_option relaxedAutoImplicit false
set_option autoImplicit false

namespace SdramBringup

/-! ### Ranks that are alike -/

/-- The ranks of two modules have the same size and the same geometry. -/
structure Dimm.RanksAlike (d e : Dimm) : Prop where
  rankSize : d.rankSize = e.rankSize
  rowBits : d.rowBits = e.rowBits
  columnBits : d.columnBits = e.columnBits
  banks : d.banks = e.banks

instance (d e : Dimm) : Decidable (d.RanksAlike e) :=
  decidable_of_iff
    (d.rankSize = e.rankSize ∧ d.rowBits = e.rowBits ∧ d.columnBits = e.columnBits ∧
      d.banks = e.banks)
    ⟨fun ⟨hsize, hrows, hcolumns, hbanks⟩ => ⟨hsize, hrows, hcolumns, hbanks⟩,
      fun ⟨hsize, hrows, hcolumns, hbanks⟩ => ⟨hsize, hrows, hcolumns, hbanks⟩⟩

theorem Dimm.RanksAlike.refl (d : Dimm) : d.RanksAlike d := ⟨rfl, rfl, rfl, rfl⟩

theorem Dimm.RanksAlike.symm {d e : Dimm} (h : d.RanksAlike e) : e.RanksAlike d :=
  ⟨h.rankSize.symm, h.rowBits.symm, h.columnBits.symm, h.banks.symm⟩

namespace Platform

/-- The module in the slot of a chip select. -/
def moduleBehind (p : Platform) (ds : List Dimm) (cs : Fin 4) : Dimm :=
  ds.getD (cs / p.chipSelectsPerSlot) {}

/-- The module has a rank for the chip select. -/
def HasRankBehind (p : Platform) (ds : List Dimm) (cs : Fin 4) : Prop :=
  cs % p.chipSelectsPerSlot < (p.moduleBehind ds cs).ranks

instance (p : Platform) (ds : List Dimm) (cs : Fin 4) : Decidable (p.HasRankBehind ds cs) :=
  inferInstanceAs (Decidable (_ < _))

end Platform

/-- The ranks that a mode interleaves with each other are alike. -/
def BankMode.InterleavesAlike (mode : BankMode) (p : Platform) (ds : List Dimm) : Prop :=
  ∀ g ∈ mode.groups, ∀ cs ∈ g, ∀ cs' ∈ g, p.HasRankBehind ds cs → p.HasRankBehind ds cs' →
    (p.moduleBehind ds cs).RanksAlike (p.moduleBehind ds cs')

instance (mode : BankMode) (p : Platform) (ds : List Dimm) :
    Decidable (mode.InterleavesAlike p ds) :=
  inferInstanceAs (Decidable (∀ g ∈ mode.groups, ∀ cs ∈ g, ∀ cs' ∈ g, _ → _ → _))

namespace BankMode

variable {mode : BankMode} {p : Platform} {ds : List Dimm}

/-- Ranks of a single module are alike. -/
theorem interleavesAlike_of_same_slot
    (h : ∀ g ∈ mode.groups, ∀ cs ∈ g, ∀ cs' ∈ g,
      cs.val / p.chipSelectsPerSlot = cs'.val / p.chipSelectsPerSlot) :
    mode.InterleavesAlike p ds := by
  intro g hg cs hcs cs' hcs' _ _
  rw [Platform.moduleBehind, Platform.moduleBehind, h g hg cs hcs cs' hcs']
  exact Dimm.RanksAlike.refl _

/-- A controller with a single slot has a single module. -/
theorem interleavesAlike_of_one_slot (hslots : p.slots = 1) : mode.InterleavesAlike p ds := by
  refine interleavesAlike_of_same_slot fun g _ cs _ cs' _ => ?_
  rw [Platform.chipSelectsPerSlot, hslots]
  omega

/-- All groups but that of all chip selects are within one of two slots. -/
theorem interleavesAlike_of_ne_allFour (hslots : p.slots = 2) (hmode : mode ≠ allFour) :
    mode.InterleavesAlike p ds := by
  refine interleavesAlike_of_same_slot fun g hg cs hcs cs' hcs' => ?_
  rw [Platform.chipSelectsPerSlot, hslots]
  obtain ⟨only, rfl, -⟩ | ⟨rfl, -⟩ | ⟨rfl, -⟩ | ⟨-, hall⟩ := cases_of_mem_groups hg
  · rw [List.mem_singleton.1 hcs, List.mem_singleton.1 hcs']
  · revert cs cs'
    decide
  · revert cs cs'
    decide
  · exact absurd hall hmode

/-- The group of all chip selects joins the modules of two slots. -/
theorem interleavesAlike_allFour_iff (hslots : p.slots = 2) :
    allFour.InterleavesAlike p ds ↔ ((ds.getD 0 {}).ranks ≠ 0 → (ds.getD 1 {}).ranks ≠ 0 →
      (ds.getD 0 {}).RanksAlike (ds.getD 1 {})) := by
  have hper : p.chipSelectsPerSlot = 2 := by rw [Platform.chipSelectsPerSlot, hslots]
  have hbehind : ∀ cs : Fin 4, p.moduleBehind ds cs = ds.getD (cs / 2) {} := fun cs => by
    rw [Platform.moduleBehind, hper]
  have hhas : ∀ cs : Fin 4, p.HasRankBehind ds cs ↔ cs % 2 < (ds.getD (cs / 2) {}).ranks :=
    fun cs => by rw [Platform.HasRankBehind, hbehind, hper]
  constructor
  · intro h hfirst hsecond
    have hpair := h _ (List.mem_singleton.2 rfl) 0 (by decide) 2 (by decide)
    rw [hhas, hhas, hbehind, hbehind] at hpair
    exact hpair (Nat.pos_of_ne_zero hfirst) (Nat.pos_of_ne_zero hsecond)
  · intro halike g _ cs _ cs' _ hcs hcs'
    rw [hhas] at hcs hcs'
    rw [hbehind, hbehind]
    have hslot : ∀ cs : Fin 4, cs.val / 2 = 0 ∨ cs.val / 2 = 1 := by decide
    rcases hslot cs with h | h <;> rcases hslot cs' with h' | h' <;> rw [h] at hcs <;>
      rw [h'] at hcs' <;> rw [h, h']
    · exact Dimm.RanksAlike.refl _
    · exact halike (Nat.ne_zero_of_lt hcs) (Nat.ne_zero_of_lt hcs')
    · exact (halike (Nat.ne_zero_of_lt hcs') (Nat.ne_zero_of_lt hcs)).symm
    · exact Dimm.RanksAlike.refl _

end BankMode

/-! ### The interleaving that is used -/

namespace Options

theorem ranksIn_eq_ranks_getD {p : Platform} {slot : Nat} (hslot : slot < p.slots)
    (ds : List Dimm) : ranksIn p ds slot = (ds.getD slot {}).ranks := by
  rw [ranksIn, List.getElem?_take_of_lt hslot, List.getD_eq_getElem?_getD]
  cases ds[slot]? <;> rfl

/-- **The ranks that the options interleave with each other are alike** exactly if joined slots do
not have modules that differ. The options join them by the numbers of ranks. -/
theorem interleavesAlike_derive_iff (clock : Clock) (common : CommonTiming) (ds : List Dimm)
    (ctrl : Nat) (p : Platform) (source : InterleaveSource) (board : Option Board) :
    (derive clock common ds ctrl p source board).value.bankMode.InterleavesAlike p ds ↔
      ¬(p.slots = 2 ∧
        source.JoinsSlots ctrl (ds.getD 0 {}).ranks (ds.getD 1 {}).ranks p.firstSlotQuadCapable ∧
        (ds.getD 1 {}).ranks ≠ 0 ∧ ¬(ds.getD 0 {}).RanksAlike (ds.getD 1 {})) := by
  rw [bankMode_derive]
  rcases p.slots_eq with hone | htwo
  · exact iff_of_true (BankMode.interleavesAlike_of_one_slot hone) fun h => by omega
  have hjoins : (bankModeOf p ds source ctrl).value = .allFour ↔
      source.JoinsSlots ctrl (ds.getD 0 {}).ranks (ds.getD 1 {}).ranks p.firstSlotQuadCapable := by
    rw [bankModeOf_eq_allFour_iff_joinsSlots htwo, ranksIn_eq_ranks_getD (by omega),
      ranksIn_eq_ranks_getD (by omega)]
  by_cases hmode : (bankModeOf p ds source ctrl).value = .allFour
  · have hjoined := hjoins.1 hmode
    have hfirst : (ds.getD 0 {}).ranks ≠ 0 := by
      obtain ⟨-, -, hfour⟩ | ⟨hle, -⟩ := hjoined <;> omega
    rw [hmode, BankMode.interleavesAlike_allFour_iff htwo]
    constructor
    · exact fun halike h => h.2.2.2 (halike hfirst h.2.2.1)
    · intro h _ hsecond
      by_contra hdiffer
      exact h ⟨htwo, hjoined, hsecond, hdiffer⟩
  · refine iff_of_true (BankMode.interleavesAlike_of_ne_allFour htwo hmode) fun h => ?_
    exact hmode (hjoins.2 h.2.1)

/-- A module with two ranks of the given size. -/
def twoRanks (rankSize : Nat) : Dimm :=
  { ranks := 2, rankSize, capacity := 2 * rankSize, primaryWidth := 64, dataWidth := 64,
    deviceWidth := 8, rowBits := 15, columnBits := 10, banks := 8 }

/-- **Ranks of 512 MiB are interleaved with ranks of 256 MiB** if one range is asked for all chip
selects and both modules have two of them. -/
theorem not_interleavesAlike_sizes :
    let p : Platform := { Platform.singleSlot with slotCount := 2 }
    let ds := [twoRanks (2 ^ 29), twoRanks (2 ^ 28)]
    let mode := (derive ⟨1600000000⟩ {} ds 0 p (.uniform none (some .allFour) false)
      (none : Option Board)).value.bankMode
    mode = .allFour ∧ p.HasRankBehind ds 0 ∧ p.HasRankBehind ds 2 ∧
      (p.moduleBehind ds 0).rankSize = 2 ^ 29 ∧ (p.moduleBehind ds 2).rankSize = 2 ^ 28 ∧
      ¬mode.InterleavesAlike p ds := by
  decide +kernel

end Options

end SdramBringup
