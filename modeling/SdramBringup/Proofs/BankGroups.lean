/-
**Chip selects that share a range.**

Under an interleaving mode some chip selects of a controller share a range, and every other one has
a range of its own. Each mode computes the ranges in its own way, from the chip select, the rank and
the module behind it. What it has to come to is the same for all of them: joining the ranks that
share a range, group by group, must leave a division of the range of the controller. This module
shows that it does, and where it does not.

Main definitions:

* `BankMode.groups` — the chip selects that share a range;
* `Synthesis.MapsGroups` — the chip selects of a group have the same range, and the groups divide the
  range of the controller;
* `Synthesis.groupRegion` — the ranks behind a group, as one range;
* `Synthesis.MemoryAtEnds` — no group without memory stands at an end of the addresses;
* `Synthesis.Banked` — a controller on its own whose ranks tile its range;
* `BankedController` — a controller with modules that make it one wherever it is placed.

Main results:

* `Synthesis.Banked.hasRank_of_mem` — an admitted group has all its ranks;
* `Synthesis.Banked.tiles_groups` — the groups tile the range of the controller;
* `Synthesis.Banked.range?_eq` — **every chip select has the range of its group**, but for one mode
  on a controller with a single slot;
* `BankedController.mapsGroups_iff` — **the range of a controller is divided among its groups**,
  exactly but for that mode.
-/

import Mathlib.Algebra.BigOperators.Ring.List
import Mathlib.Algebra.Ring.Nat
import Mathlib.Data.List.Pairwise
import SdramBringup.Proofs.Reach
import SdramBringup.Proofs.Stages
import SdramBringup.Proofs.Unplaced

set_option relaxedAutoImplicit false
set_option autoImplicit false

namespace SdramBringup

variable {B : Type} [BoardHook B]

/-! ### Groups -/

/-- The chip selects that share a range, group by group. -/
def BankMode.groups : BankMode → List (List (Fin 4))
  | off | auto => [[0], [1], [2], [3]]
  | lowPair => [[0, 1], [2], [3]]
  | highPair => [[0], [1], [2, 3]]
  | bothPairs => [[0, 1], [2, 3]]
  | allFour => [[0, 1, 2, 3]]

theorem BankMode.flatten_groups (mode : BankMode) : mode.groups.flatten = List.finRange 4 := by
  cases mode <;> rfl

/-- The mode leaves a chip select to itself. -/
def BankMode.Single (mode : BankMode) (cs : Fin 4) : Prop :=
  mode = off ∨ mode = auto ∨ (mode = lowPair ∧ 2 ≤ cs.val) ∨ (mode = highPair ∧ cs.val < 2)

/-- A group is a single chip select, a pair, or all four. -/
theorem BankMode.cases_of_mem_groups {mode : BankMode} {g : List (Fin 4)} (hg : g ∈ mode.groups) :
    (∃ cs, g = [cs] ∧ mode.Single cs) ∨ (g = [0, 1] ∧ (mode = lowPair ∨ mode = bothPairs)) ∨
      (g = [2, 3] ∧ (mode = highPair ∨ mode = bothPairs)) ∨
      (g = [0, 1, 2, 3] ∧ mode = allFour) := by
  cases mode <;> simp only [groups, List.mem_cons, List.not_mem_nil, or_false] at hg
  case off | auto => rcases hg with rfl | rfl | rfl | rfl <;> simp [Single]
  case lowPair | highPair => rcases hg with rfl | rfl | rfl <;> simp [Single]
  case bothPairs => rcases hg with rfl | rfl <;> simp
  case allFour => simp [hg]

namespace Synthesis

/-- The enabled chip selects divide a range among their groups: those of one group have the same
bounds, those of different groups share no address, and every address of the range is mapped. -/
structure MapsGroups (mode : BankMode) (region : Region) (v : Vector ChipSelectRegisters 4) :
    Prop where
  equal : ∀ g ∈ mode.groups, ∀ cs ∈ g, ∀ cs' ∈ g, v[cs].enabled = true → v[cs'].enabled = true →
    v[cs].bounds = v[cs'].bounds
  apart : ∀ g ∈ mode.groups, ∀ g' ∈ mode.groups, g ≠ g' → ∀ cs ∈ g, ∀ cs' ∈ g',
    v[cs].enabled = true → v[cs'].enabled = true → Region.Disjoint v[cs].region v[cs'].region
  covers : ∀ a, (∃ cs : Fin 4, v[cs].enabled = true ∧ v[cs].region.Contains a) ↔ region.Contains a

/-- The ranks behind a group of chip selects, as one range. -/
def groupRegion (i : Inputs) (g : List (Fin 4)) : Region :=
  Region.hull ((g.filter (hasRank i)).map (rankRegion i))

/-- The groups with a rank. -/
def activeGroups (i : Inputs) : List (List (Fin 4)) :=
  i.options.bankMode.groups.filter fun g => g.any (hasRank i)

theorem mem_activeGroups {i : Inputs} {g : List (Fin 4)} :
    g ∈ activeGroups i ↔ g ∈ i.options.bankMode.groups ∧ ∃ cs ∈ g, hasRank i cs = true := by
  rw [activeGroups, List.mem_filter, List.any_eq_true]

/-- A group of ranks without memory stands at neither end of the addresses. -/
def MemoryAtEnds (i : Inputs) : Prop :=
  ∀ g ∈ activeGroups i, (groupRegion i g).size = 0 →
    0 < (groupRegion i g).base ∧ (groupRegion i g).base < 2 ^ 40

/-! ### Ranges of single chip selects and of pairs -/

theorem groupRegion_single {i : Inputs} {cs : Fin 4} (hrank : hasRank i cs = true) :
    groupRegion i [cs] = rankRegion i cs := by
  rw [groupRegion, List.filter_cons_of_pos hrank]
  rfl

/-- The range of a pair on one module. -/
theorem groupRegion_pair {i : Inputs} {lead partner : Fin 4}
    (hsame : dimmOf i partner = dimmOf i lead) (hlead : hasRank i lead = true)
    (hpartner : hasRank i partner = true) :
    groupRegion i [lead, partner] =
      ⟨(dimmOf i lead).base + rankOf i lead * rankSpan i lead, 2 * rankSpan i lead⟩ := by
  have hspan : rankSpan i partner = rankSpan i lead := by rw [rankSpan, rankSpan, hsame]
  rw [groupRegion, List.filter_cons_of_pos hlead, List.filter_cons_of_pos hpartner]
  simp only [List.filter_nil, List.map_cons, List.map_nil, Region.hull, rankRegion, hspan,
    List.sum_cons, List.sum_nil, Nat.add_zero, Nat.two_mul]

/-- A range that is made longer within 64 bits ends later. -/
theorem lastOf_add {start size extra : Nat} (hextra : start + size = 0 → extra = 0)
    (hbits : start + size + extra < 2 ^ 64) :
    lastOf start size + extra = lastOf start (size + extra) := by
  unfold lastOf
  omega

/-- A chip select outside of the pair has the range of its rank. -/
theorem pairRange_of_ne {i : Inputs} {lead partner cs : Fin 4} (hlead : cs ≠ lead)
    (hpartner : cs ≠ partner) (htop : (rankRegion i cs).stop ≤ 2 ^ 40) :
    pairRange i lead partner cs = rankRange i cs := by
  simp only [rankRegion, Region.stop_mk] at htop
  have hzero : (dimmOf i cs).base + rankSpan i cs = 0 → rankOf i cs * rankSpan i cs = 0 := by
    intro h
    rw [show rankSpan i cs = 0 by omega, Nat.mul_zero]
  simp only [pairRange, rankRange, if_neg hlead, if_neg hpartner, Nat.add_zero]
  rw [lastOf_add hzero (by omega), lastOf, lastOf, Nat.add_right_comm, Nat.add_assoc]

/-- A chip select of the pair has the range of the pair, which starts where the module does. -/
theorem pairRange_of_mem {i : Inputs} {lead partner cs : Fin 4} (hne : lead ≠ partner)
    (hsame : dimmOf i partner = dimmOf i lead) (hnext : rankOf i partner = rankOf i lead + 1)
    (hfirst : rankOf i lead * rankSpan i lead = 0)
    (htop : (dimmOf i lead).base + 2 * rankSpan i lead ≤ 2 ^ 40) (hcs : cs ∈ [lead, partner]) :
    pairRange i lead partner cs =
      ((dimmOf i lead).base, lastOf (dimmOf i lead).base (2 * rankSpan i lead)) := by
  have hspan : rankSpan i partner = rankSpan i lead := by rw [rankSpan, rankSpan, hsame]
  have hlast : lastOf (dimmOf i lead).base (rankSpan i lead) + rankSpan i lead =
      lastOf (dimmOf i lead).base (2 * rankSpan i lead) := by
    rw [lastOf_add (by omega) (by omega), Nat.two_mul]
  simp only [List.mem_cons, List.not_mem_nil, or_false] at hcs
  rcases hcs with rfl | rfl
  · simp only [pairRange, if_neg hne, hfirst, Nat.add_zero, if_true, hlast]
  · simp only [pairRange, hsame, hspan, hnext, Nat.succ_mul, hfirst, Nat.zero_add, if_true,
      if_neg hne.symm, Nat.add_zero, hlast]

/-- Where the chip selects of the pairs are: on one module each, one rank behind the other, from the
first rank of the module on or from the third. -/
theorem positions_of_pairs {i : Inputs} (hlength : i.dimms.length = 1 ∨ i.dimms.length = 2) :
    (dimmOf i 1 = dimmOf i 0 ∧ rankOf i 0 = 0 ∧ rankOf i 1 = 1) ∧
      dimmOf i 3 = dimmOf i 2 ∧ rankOf i 3 = rankOf i 2 + 1 ∧ slotOf i 3 = slotOf i 2 ∧
        rankOf i 2 = if slotOf i 2 = 0 then 2 else 0 := by
  rcases hlength with hlen | hlen <;>
    simp [dimmOf, slotOf, rankOf, perSlot, hlen]

/-- If both pairs share a range each, the lower one is where its module starts. -/
theorem bothPairsRange_low {i : Inputs} (hlength : i.dimms.length = 1 ∨ i.dimms.length = 2)
    {cs : Fin 4} (hcs : cs ∈ [(0 : Fin 4), 1]) :
    bothPairsRange i cs = ((dimmOf i 0).base, lastOf (dimmOf i 0).base (2 * rankSpan i 0)) := by
  obtain ⟨⟨hsame, -, -⟩, -⟩ := positions_of_pairs hlength
  simp only [List.mem_cons, List.not_mem_nil, or_false] at hcs
  rcases hcs with rfl | rfl <;> simp [bothPairsRange, rankSpan, hsame]

/-- If both pairs share a range each, the upper one is where its first rank is. -/
theorem bothPairsRange_high {i : Inputs} (hlength : i.dimms.length = 1 ∨ i.dimms.length = 2)
    {cs : Fin 4} (hcs : cs ∈ [(2 : Fin 4), 3]) :
    bothPairsRange i cs =
      ((dimmOf i 2).base + rankOf i 2 * rankSpan i 2,
        lastOf ((dimmOf i 2).base + rankOf i 2 * rankSpan i 2) (2 * rankSpan i 2)) := by
  obtain ⟨-, hsame, -, hslot, hrank⟩ := positions_of_pairs hlength
  have hspan : rankSpan i 3 = rankSpan i 2 := by rw [rankSpan, rankSpan, hsame]
  simp only [List.mem_cons, List.not_mem_nil, or_false] at hcs
  rcases hcs with rfl | rfl <;> by_cases hfirst : slotOf i 2 = 0 <;>
    simp [bothPairsRange, hsame, hspan, hslot, hrank, hfirst]

/-! ### A controller on its own -/

/-- A controller on its own, with interleaving that its ranks admit, whose ranks are on the grid of
16 MiB and tile the range of the controller. -/
structure Banked (i : Inputs) : Prop where
  length : i.dimms.length = 1 ∨ i.dimms.length = 2
  alone : i.options.controllerMode = none
  fits : ∀ d ∈ i.dimms, d.ranks ≤ perSlot i
  supported : ∃ quadCapable,
    i.options.bankMode.supported i.dimms.length (i.ranksIn 0) (i.ranksIn 1) quadCapable = true
  tiles : Region.Tiles i.region.base (i.dimms.flatMap (Dimm.rankRegions i.widthShift)) i.region.stop
  base_aligned : 2 ^ 24 ∣ i.region.base
  span_aligned : ∀ d ∈ i.dimms, d.isEmpty = false → 2 ^ 24 ∣ d.rankSize / 2 ^ i.widthShift
  top : i.region.stop ≤ 2 ^ 40

namespace Banked

variable {i : Inputs} (h : Banked i)
include h

/-- **An admitted group of several chip selects has all its ranks.** -/
theorem hasRank_of_mem {g : List (Fin 4)} (hg : g ∈ i.options.bankMode.groups) (hlong : 1 < g.length)
    {cs : Fin 4} (hcs : cs ∈ g) : hasRank i cs = true := by
  obtain ⟨quadCapable, hsupported⟩ := h.supported
  have hfirst : i.ranksIn 0 ≤ perSlot i := by
    rw [ranksIn_eq, List.getD_eq_getElem?_getD]
    cases hget : i.dimms[0]? with
    | none => exact Nat.zero_le _
    | some d => exact h.fits d (List.mem_of_getElem? hget)
  have hbound := cs.isLt
  rw [hasRank, decide_eq_true_eq, dimmOf, ← ranksIn_eq]
  rcases BankMode.cases_of_mem_groups hg with ⟨_, rfl, -⟩ | hgroup
  · simp at hlong
  -- what remains are the pairs and all four, in a controller with one slot or with two
  rcases slot_cases h.length cs with ⟨hlen, hper, hslot, hrank⟩ | ⟨hlen, hper, hlow, hslot, hrank⟩ |
    ⟨hlen, hper, hhigh, hslot, hrank⟩
  all_goals
    rw [hslot, hrank]
    rw [hper] at hfirst
    rcases hgroup with ⟨rfl, hmode | hmode⟩ | ⟨rfl, hmode | hmode⟩ | ⟨rfl, hmode⟩ <;>
      simp [hmode, hlen, BankMode.supported] at hsupported hcs <;> omega

/-- The groups **tile the range of the controller**. -/
theorem tiles_groups :
    Region.Tiles i.region.base ((activeGroups i).map (groupRegion i)) i.region.stop := by
  have hranks : (i.options.bankMode.groups.map fun g =>
      (g.filter (hasRank i)).map (rankRegion i)).flatten =
        i.dimms.flatMap (Dimm.rankRegions i.widthShift) := by
    rw [← map_rankRegion_filter_hasRank h.length h.fits,
      ← BankMode.flatten_groups i.options.bankMode, List.filter_flatten, List.map_flatten,
      List.map_map]
    rfl
  have hactive : ((!·.isEmpty) ∘ fun g : List (Fin 4) =>
      (g.filter (hasRank i)).map (rankRegion i)) = fun g => g.any (hasRank i) := by
    funext g
    rw [Function.comp_apply, List.isEmpty_map]
    induction g with
    | nil => rfl
    | cons cs g ih => cases hrank : hasRank i cs <;> simp [hrank, ih]
  have htiles := Region.tiles_map_hull (hranks ▸ h.tiles)
  rwa [List.filter_map, List.map_map, hactive] at htiles

theorem dvd_rankSpan {cs : Fin 4} (hrank : hasRank i cs = true) : 2 ^ 24 ∣ rankSpan i cs :=
  h.span_aligned _ (dimmOf_mem hrank) (isEmpty_dimmOf hrank)

/-- The size of a group is a number of units of 16 MiB. -/
theorem dvd_size_groupRegion (g : List (Fin 4)) : 2 ^ 24 ∣ (groupRegion i g).size := by
  rw [groupRegion, Region.size_hull]
  refine List.dvd_sum fun n hn => ?_
  simp only [List.mem_map, List.mem_filter, exists_exists_and_eq_and] at hn
  obtain ⟨cs, ⟨-, hrank⟩, rfl⟩ := hn
  exact h.dvd_rankSpan hrank

theorem groupRegion_low (hg : [0, 1] ∈ i.options.bankMode.groups) :
    groupRegion i [0, 1] = ⟨(dimmOf i 0).base, 2 * rankSpan i 0⟩ := by
  obtain ⟨⟨hsame, hzero, -⟩, -⟩ := positions_of_pairs h.length
  rw [groupRegion_pair hsame (h.hasRank_of_mem hg (by decide) (by decide))
    (h.hasRank_of_mem hg (by decide) (by decide)), hzero, Nat.zero_mul, Nat.add_zero]

theorem groupRegion_high (hg : [2, 3] ∈ i.options.bankMode.groups) :
    groupRegion i [2, 3] =
      ⟨(dimmOf i 2).base + rankOf i 2 * rankSpan i 2, 2 * rankSpan i 2⟩ :=
  groupRegion_pair (positions_of_pairs h.length).2.1
    (h.hasRank_of_mem hg (by decide) (by decide)) (h.hasRank_of_mem hg (by decide) (by decide))

/-- All four chip selects have the range of the controller. -/
theorem groupRegion_all (hmode : i.options.bankMode = .allFour) :
    groupRegion i [0, 1, 2, 3] = i.region := by
  have hg : [0, 1, 2, 3] ∈ i.options.bankMode.groups := by
    rw [hmode]
    exact List.mem_singleton_self _
  have hany : ([0, 1, 2, 3] : List (Fin 4)).any (hasRank i) = true :=
    List.any_eq_true.2 ⟨0, by decide, h.hasRank_of_mem hg (by decide) (by decide)⟩
  have hactive : activeGroups i = [[0, 1, 2, 3]] := by
    simp only [activeGroups, hmode, BankMode.groups, List.filter_cons, hany, if_true,
      List.filter_nil]
  have htiles := h.tiles_groups
  rw [hactive, List.map_singleton, Region.tiles_cons, Region.tiles_nil] at htiles
  exact Region.eq_of_stop htiles.1 htiles.2

section Group

variable {g : List (Fin 4)} (hg : g ∈ i.options.bankMode.groups) {cs : Fin 4} (hcs : cs ∈ g)
  (hrank : hasRank i cs = true)
include hg hcs hrank

omit h in
theorem groupRegion_mem : groupRegion i g ∈ (activeGroups i).map (groupRegion i) :=
  List.mem_map_of_mem (mem_activeGroups.2 ⟨hg, cs, hcs, hrank⟩)

/-- A group is on the grid of 16 MiB, within the addresses. -/
theorem groupRegion_grid : 2 ^ 24 ∣ (groupRegion i g).base ∧ (groupRegion i g).stop ≤ 2 ^ 40 := by
  have hmem := groupRegion_mem hg hcs hrank
  have hgrid := h.tiles_groups.dvd h.base_aligned (by
    rw [List.forall_mem_map]
    exact fun g _ => h.dvd_size_groupRegion g)
  exact ⟨hgrid.1 _ hmem, Nat.le_trans (h.tiles_groups.bounds hmem).2 h.top⟩

/-- **Every chip select has the range of its group**, provided that the upper pair, if it alone
shares a range, starts where its module does. -/
theorem range?_eq (hpair : i.options.bankMode = .highPair → rankOf i 2 * rankSpan i 2 = 0) :
    range? i cs = some ((groupRegion i g).base,
      lastOf (groupRegion i g).base (groupRegion i g).size) := by
  have htop := (h.groupRegion_grid hg hcs hrank).2
  obtain ⟨⟨hsame, hzero, hone⟩, hsame', hnext, -, -⟩ := positions_of_pairs h.length
  rw [range?, h.alone, if_neg (by decide)]
  rcases BankMode.cases_of_mem_groups hg with ⟨c, rfl, hsingle⟩ | ⟨rfl, hmode | hmode⟩ |
    ⟨rfl, hmode | hmode⟩ | ⟨rfl, hmode⟩
  · obtain rfl : cs = c := List.mem_singleton.1 hcs
    rw [groupRegion_single hrank] at htop ⊢
    rcases hsingle with hmode | hmode | ⟨hmode, hhigh⟩ | ⟨hmode, hlow⟩
    · simp only [hmode, if_pos hrank]
      rfl
    · simp only [hmode, if_pos hrank]
      rfl
    · simp only [hmode, if_pos hrank]
      rw [pairRange_of_ne (by rintro rfl; simp at hhigh) (by rintro rfl; simp at hhigh) htop]
      rfl
    · simp only [hmode, if_pos hrank]
      rw [pairRange_of_ne (by rintro rfl; simp at hlow) (by rintro rfl; simp at hlow) htop]
      rfl
  · -- the lower pair, alone or beside the upper one
    have hgroup := h.groupRegion_low hg
    rw [hgroup] at htop ⊢
    simp only [hmode, if_pos hrank]
    rw [pairRange_of_mem (by decide) hsame (by rw [hzero, hone]) (by rw [hzero, Nat.zero_mul]) htop
      hcs]
  · simp only [hmode]
    rw [bothPairsRange_low h.length hcs, h.groupRegion_low hg]
  · -- the upper pair, alone or beside the lower one
    have hgroup := h.groupRegion_high hg
    rw [hgroup, hpair hmode, Nat.add_zero] at htop ⊢
    simp only [hmode, if_pos hrank]
    rw [pairRange_of_mem (by decide) hsame' hnext (hpair hmode) htop hcs]
  · simp only [hmode]
    rw [bothPairsRange_high h.length hcs, h.groupRegion_high hg]
  · -- all four, in the range of the controller
    simp only [hmode]
    rw [h.groupRegion_all hmode, regionRange]

theorem bounds_eq (hpair : i.options.bankMode = .highPair → rankOf i 2 * rankSpan i 2 = 0) :
    (chipSelect i cs).bounds = boundsOf ((groupRegion i g).base,
      lastOf (groupRegion i g).base (groupRegion i g).size) := by
  rw [bounds_chipSelect hrank, h.range?_eq hg hcs hrank hpair]
  rfl

/-- The register of a chip select says the range of its group, unless the group has no memory and
stands at either end of the addresses. -/
theorem region_eq (hpair : i.options.bankMode = .highPair → rankOf i 2 * rankSpan i 2 = 0)
    (hnone : (groupRegion i g).size = 0 →
      0 < (groupRegion i g).base ∧ (groupRegion i g).base < 2 ^ 40) :
    (chipSelect i cs).region = groupRegion i g := by
  obtain ⟨hbase, htop⟩ := h.groupRegion_grid hg hcs hrank
  exact region_boundsOf (h.bounds_eq hg hcs hrank hpair) hbase (h.dvd_size_groupRegion g) hnone htop

/-- The register of a group without memory at either end of the addresses says that address zero is
mapped. -/
theorem contains_zero (hpair : i.options.bankMode = .highPair → rankOf i 2 * rankSpan i 2 = 0)
    (hedge : (groupRegion i g).base = 0 ∨ 2 ^ 40 ≤ (groupRegion i g).base) :
    (chipSelect i cs).region.Contains 0 := by
  have htop := (h.groupRegion_grid hg hcs hrank).2
  rw [Region.stop] at htop
  rw [ChipSelectRegisters.contains_region_iff, h.bounds_eq hg hcs hrank hpair, get_first_boundsOf]
  simp only
  omega

end Group

theorem getElem_eq (cs : Fin 4) : (chipSelects i)[cs] = chipSelect i cs :=
  getElem_chipSelects (dimms_ne_nil h.length) cs

theorem enabled_eq (cs : Fin 4) : (chipSelects i)[cs].enabled = hasRank i cs := by
  rw [h.getElem_eq, enabled_chipSelect]

/-- If the groups are mapped, the upper pair starts where its module does: its second chip select
has no other start. -/
theorem rank_mul_span_eq_zero (hmaps : MapsGroups i.options.bankMode i.region (chipSelects i))
    (hmode : i.options.bankMode = .highPair) : rankOf i 2 * rankSpan i 2 = 0 := by
  obtain ⟨-, hsame, -, -, -⟩ := positions_of_pairs h.length
  have hg : [2, 3] ∈ i.options.bankMode.groups := by
    rw [hmode]
    decide
  have hlead : hasRank i 2 = true := h.hasRank_of_mem hg (by decide) (by decide)
  have hpartner : hasRank i 3 = true := h.hasRank_of_mem hg (by decide) (by decide)
  have hequal := hmaps.equal [2, 3] hg 2 (by decide) 3 (by decide)
    ((h.enabled_eq 2).trans hlead) ((h.enabled_eq 3).trans hpartner)
  rw [h.getElem_eq, h.getElem_eq,
    bounds_chipSelect hlead, bounds_chipSelect hpartner, range?, range?, h.alone] at hequal
  simp only [Option.isSome_none, Bool.false_eq_true, if_false, hmode, hlead, hpartner, if_true,
    Option.map_some, Option.getD_some] at hequal
  have hfirst := congrArg Layout.Bounds.first.get hequal
  rw [get_first_boundsOf, get_first_boundsOf] at hfirst
  obtain ⟨hbase, htop⟩ := h.groupRegion_grid hg (by decide) hlead
  rw [h.groupRegion_high hg] at hbase htop
  simp only [Region.stop_mk] at hbase htop
  have hskip : 2 ^ 24 ∣ rankOf i 2 * rankSpan i 2 := Dvd.dvd.mul_left (h.dvd_rankSpan hlead) _
  have hspan : rankSpan i 2 = 0 → rankOf i 2 * rankSpan i 2 = 0 := by
    intro hzero
    rw [hzero, Nat.mul_zero]
  simp only [pairRange, hsame, Fin.reduceEq, if_true, if_false, Nat.reducePow] at hfirst
  omega

/-- **The groups divide the range of the controller** exactly if the upper pair starts where its
module does and groups without memory keep away from the ends of the addresses. -/
theorem mapsGroups_chipSelects_iff :
    MapsGroups i.options.bankMode i.region (chipSelects i) ↔
      (i.options.bankMode = .highPair → rankOf i 2 * rankSpan i 2 = 0) ∧ MemoryAtEnds i := by
  have hpartition := h.tiles_groups.partition
  constructor
  · intro hmaps
    have hpair := h.rank_mul_span_eq_zero hmaps
    refine ⟨hpair, fun g hactive hsize => ?_⟩
    obtain ⟨hg, cs, hcs, hrank⟩ := mem_activeGroups.1 hactive
    by_contra hedge
    -- the group says that it has address zero, which a group with memory has too
    have hzero := h.contains_zero hg hcs hrank hpair (by omega)
    rw [← h.getElem_eq] at hzero
    have henabled := (h.enabled_eq cs).trans hrank
    obtain ⟨r, hr, hmem⟩ := (hpartition.covers 0).2 ((hmaps.covers 0).1 ⟨cs, henabled, hzero⟩)
    obtain ⟨g', hactive', rfl⟩ := List.mem_map.1 hr
    obtain ⟨hg', cs', hcs', hrank'⟩ := mem_activeGroups.1 hactive'
    have hsize' : (groupRegion i g').size ≠ 0 := by
      rw [Region.Contains, Region.stop] at hmem
      omega
    have hne : g ≠ g' := by
      rintro rfl
      exact hsize' hsize
    rw [← h.region_eq hg' hcs' hrank' hpair (fun hnone => absurd hnone hsize'),
      ← h.getElem_eq] at hmem
    exact hmaps.apart g hg g' hg' hne cs hcs cs' hcs' henabled ((h.enabled_eq cs').trans hrank') 0
      ⟨hzero, hmem⟩
  · rintro ⟨hpair, hedge⟩
    have hregion : ∀ g ∈ i.options.bankMode.groups, ∀ cs ∈ g, hasRank i cs = true →
        (chipSelects i)[cs].region = groupRegion i g := by
      intro g hg cs hcs hrank
      rw [h.getElem_eq]
      exact h.region_eq hg hcs hrank hpair (hedge g (mem_activeGroups.2 ⟨hg, cs, hcs, hrank⟩))
    constructor
    case equal =>
      intro g hg cs hcs cs' hcs' henabled henabled'
      rw [h.enabled_eq] at henabled henabled'
      rw [h.getElem_eq, h.getElem_eq,
        h.bounds_eq hg hcs henabled hpair, h.bounds_eq hg hcs' henabled' hpair]
    case apart =>
      intro g hg g' hg' hne cs hcs cs' hcs' henabled henabled'
      rw [h.enabled_eq] at henabled henabled'
      rw [hregion g hg cs hcs henabled, hregion g' hg' cs' hcs' henabled']
      have : Std.Symm fun g g' => Region.Disjoint (groupRegion i g) (groupRegion i g') :=
        ⟨fun _ _ hdisjoint a hmem => hdisjoint a hmem.symm⟩
      exact (List.pairwise_map.1 hpartition.apart).forall
        (mem_activeGroups.2 ⟨hg, cs, hcs, henabled⟩)
        (mem_activeGroups.2 ⟨hg', cs', hcs', henabled'⟩) hne
    case covers =>
      intro a
      refine Iff.trans ?_ (hpartition.covers a)
      constructor
      · rintro ⟨cs, henabled, hmem⟩
        rw [h.enabled_eq] at henabled
        obtain ⟨g, hg, hcs⟩ := List.mem_flatten.1
          (i.options.bankMode.flatten_groups ▸ List.mem_finRange cs)
        rw [hregion g hg cs hcs henabled] at hmem
        exact ⟨_, groupRegion_mem hg hcs henabled, hmem⟩
      · rintro ⟨r, hr, hmem⟩
        obtain ⟨g, hactive, rfl⟩ := List.mem_map.1 hr
        obtain ⟨hg, cs, hcs, hrank⟩ := mem_activeGroups.1 hactive
        exact ⟨cs, (h.enabled_eq cs).trans hrank, hregion g hg cs hcs hrank ▸ hmem⟩

end Banked

end Synthesis

/-! ### A controller with its modules -/

open Placement

/-- A controller on its own whose modules fit their slots and are on the grid of 16 MiB, with
interleaving that they admit. -/
structure BankedController (p : Platform) (k : Controller) : Prop where
  controllerMode : k.options.controllerMode = none
  bankMode : k.options.bankMode.supported p.slots (Options.ranksIn p (k.installed p.slots) 0)
    (Options.ranksIn p (k.installed p.slots) 1) p.firstSlotQuadCapable = true
  fits : ∀ d ∈ k.installed p.slots, d.ranks ≤ p.chipSelectsPerSlot
  capacity : ∀ d ∈ k.installed p.slots, d.capacity = d.ranks * d.rankSize
  granular : ∀ d ∈ k.installed p.slots, d.isEmpty = false → 2 ^ 24 * 2 ^ k.widthShift ∣ d.rankSize
  counted : k.common.dimmCount ≠ 0

/-- The ranks of placed modules are as long as before. -/
theorem Stage.rankSpan_linear (setup : Setup B) (p : Platform) (k : Controller) (base : Nat)
    (cs : Fin 4) :
    Synthesis.rankSpan (inputsAt setup p base k) cs =
      ((k.installed p.slots).getD (cs / p.chipSelectsPerSlot) {}).rankSize / 2 ^ k.widthShift := by
  have hdimms : (inputsAt setup p base k).dimms =
      chain k.widthShift base (k.installed p.slots) := installed_linear p base k
  rw [Synthesis.rankSpan, Synthesis.dimmOf, Synthesis.slotOf, perSlot_inputsOf, hdimms,
    getD_congr (map_chain (f := Dimm.rankSize) (fun _ _ => rfl) _ _ _)]
  rfl

namespace BankedController

variable {p : Platform} {k : Controller} (h : BankedController p k) (setup : Setup B)
include h

/-- Placed on the grid of 16 MiB, its ranks tile its range. -/
theorem banked {base : Nat} (hbase : 2 ^ 24 ∣ base)
    (htop : (linear p.slots base k).region.stop ≤ 2 ^ 40) :
    Synthesis.Banked (Stage.inputsAt setup p base k) := by
  have hdimms : (Stage.inputsAt setup p base k).dimms =
      chain k.widthShift base (k.installed p.slots) := installed_linear p base k
  have hranks : ∀ slot, (Stage.inputsAt setup p base k).ranksIn slot =
      (Stage.inputsOf setup p k).ranksIn slot := by
    intro slot
    rw [Synthesis.ranksIn_eq, Synthesis.ranksIn_eq, hdimms]
    exact getD_congr (map_chain (fun _ _ => rfl) _ _ _) slot
  -- a placed module is one of the modules, apart from its address
  have hmodules : ∀ P : Dimm → Prop, (∀ d base, P d → P { d with base := base }) →
      (∀ d ∈ k.installed p.slots, P d) →
        ∀ d ∈ (Stage.inputsAt setup p base k).dimms, P d := by
    intro P hP hall e he
    obtain ⟨d, hd, b, rfl⟩ := exists_eq_of_mem_chain (hdimms ▸ he)
    exact hP d b (hall d hd)
  constructor
  case length =>
    rw [Stage.length_inputsOf]
    exact p.slots_eq
  case alone => exact h.controllerMode
  case fits =>
    rw [Stage.perSlot_inputsOf]
    exact hmodules _ (fun _ _ h => h) h.fits
  case supported =>
    refine ⟨p.firstSlotQuadCapable, ?_⟩
    rw [Stage.length_inputsOf, hranks, hranks, Stage.ranksIn_inputsOf, Stage.ranksIn_inputsOf]
    exact h.bankMode
  case tiles =>
    refine Region.tiles_flatMap (tiles_linear p base k) fun d hd => ?_
    refine Dimm.tiles_rankRegions (hmodules _ (fun _ _ h => h) h.capacity d hd) fun hempty => ?_
    exact Nat.dvd_trans (Nat.dvd_mul_left _ _) (hmodules _ (fun _ _ h => h) h.granular d hd hempty)
  case base_aligned => exact hbase
  case span_aligned =>
    intro d hd hempty
    have hgranular := hmodules _ (fun _ _ h => h) h.granular d hd hempty
    rw [Nat.mul_comm] at hgranular
    exact Nat.dvd_div_of_mul_dvd hgranular
  case top => exact htop

/-- A module whose ranks come to nothing on the bus has ranks of no size. -/
theorem div_eq_zero_iff {d : Dimm} (hd : d ∈ k.installed p.slots) (hempty : d.isEmpty = false) :
    d.rankSize / 2 ^ k.widthShift = 0 ↔ d.rankSize = 0 := by
  obtain ⟨n, hn⟩ := h.granular d hd hempty
  rw [hn, Nat.mul_right_comm, Nat.mul_div_cancel _ (Nat.two_pow_pos _)]
  simp

/-- The upper pair starts where its module does, but for a single slot: there it is two ranks
behind. -/
theorem rank_mul_span_eq_zero_iff (base : Nat) :
    (k.options.bankMode = .highPair →
      Synthesis.rankOf (Stage.inputsAt setup p base k) 2 *
        Synthesis.rankSpan (Stage.inputsAt setup p base k) 2 = 0) ↔
      ¬(p.slots = 1 ∧ k.options.bankMode = .highPair ∧ k.dimms[(0 : Fin 2)].rankSize ≠ 0) := by
  rw [Stage.rankSpan_linear, Synthesis.rankOf, Stage.perSlot_inputsOf, Platform.chipSelectsPerSlot]
  rcases p.slots_eq with hone | htwo
  · by_cases hmode : k.options.bankMode = .highPair
    · have hfirst : (k.installed p.slots).getD 0 {} = k.dimms[(0 : Fin 2)] :=
        k.getD_installed (j := 0) p.slots_pos
      have hranks : 4 ≤ k.dimms[(0 : Fin 2)].ranks := by
        have hsupported := h.bankMode
        rwa [hmode, Stage.ranksIn_first, BankMode.supported, if_pos hone, decide_eq_true_eq]
          at hsupported
      have hempty : k.dimms[(0 : Fin 2)].isEmpty = false := by
        simp only [Dimm.isEmpty, beq_eq_false_iff_ne]
        omega
      have hslot : (2 : Fin 4).val / (4 / p.slots) = 0 := by
        rw [hone]
        rfl
      have hrank : (2 : Fin 4).val % (4 / p.slots) = 2 := by
        rw [hone]
        rfl
      rw [hslot, hrank, hfirst, Nat.mul_eq_zero, h.div_eq_zero_iff (k.first_mem_installed p) hempty]
      simp [hone, hmode]
    · simp [hmode]
  · simp [htwo]

/-- **The range of a controller is divided among its groups**: the chip selects of a group have the
same bounds, groups are apart, and together they are the range of the controller. With one slot there
is an exception: if the upper pair alone shares a range, its second chip select starts where the
module does. Ranks without memory must keep away from the ends of the addresses. -/
theorem mapsGroups_iff {base : Nat} (hbase : 2 ^ 24 ∣ base)
    (htop : (linear p.slots base k).region.stop ≤ 2 ^ 40) (sizeOnly : Bool) :
    ∃ f, (Synthesis.compute (Stage.inputsAt setup p base k) sizeOnly).value = .ok f ∧
      (Synthesis.MapsGroups k.options.bankMode (linear p.slots base k).region f.chipSelects ↔
        ¬(p.slots = 1 ∧ k.options.bankMode = .highPair ∧ k.dimms[(0 : Fin 2)].rankSize ≠ 0) ∧
          Synthesis.MemoryAtEnds (Stage.inputsAt setup p base k)) := by
  obtain ⟨f, hf, hchipSelects⟩ := Stage.exists_compute
    (i := Stage.inputsAt setup p base k) sizeOnly h.counted
  refine ⟨f, hf, ?_⟩
  rw [hchipSelects]
  refine (h.banked setup hbase htop).mapsGroups_chipSelects_iff.trans (and_congr_left' ?_)
  rw [← h.rank_mul_span_eq_zero_iff setup base]
  rfl

end BankedController

/-- Two modules of different sizes at one controller, the larger one with two ranks that share a
range. -/
def highPairController : Controller where
  dimms := #v[{ ranks := 1, rankSize := 2 ^ 29, capacity := 2 ^ 29 },
    { ranks := 2, rankSize := 2 ^ 30, capacity := 2 ^ 31 }]
  common := { dimmCount := 2 }
  options := { bankMode := .highPair }

/-- Its upper pair shares the two upper gigabytes. -/
theorem mapsGroups_highPairController :
    BankedController { Platform.singleSlot with slotCount := 2 } highPairController ∧
      ∃ f, (Synthesis.compute (Stage.inputsOf (.bare 1600000000)
          { Platform.singleSlot with slotCount := 2 }
          (linear 2 (2 ^ 31) highPairController)) false).value = .ok f ∧
        Synthesis.MapsGroups .highPair ⟨2 ^ 31, 2 ^ 29 + 2 ^ 31⟩ f.chipSelects := by
  have hbanked : BankedController { Platform.singleSlot with slotCount := 2 }
      highPairController := by
    constructor <;> decide +kernel
  obtain ⟨f, hf, hmaps⟩ := hbanked.mapsGroups_iff (.bare 1600000000)
    (show 2 ^ 24 ∣ 2 ^ 31 by decide) (by decide +kernel) false
  refine ⟨hbanked, f, hf, hmaps.2 ⟨by decide +kernel, ?_⟩⟩
  unfold Synthesis.MemoryAtEnds
  decide +kernel

/-- A module with four ranks in the only slot, of which the upper two share a range. -/
def quadHighPairController : Controller where
  dimms := #v[{ ranks := 4, rankSize := 2 ^ 28, capacity := 2 ^ 30 }, {}]
  common := { dimmCount := 1 }
  options := { bankMode := .highPair }

/-- Its upper pair does not share a range: the two chip selects have different bounds. -/
theorem not_mapsGroups_quadHighPairController :
    BankedController Platform.singleSlot quadHighPairController ∧
      (linear 1 (2 ^ 31) quadHighPairController).region = ⟨2 ^ 31, 2 ^ 30⟩ ∧
      ∃ f, (Synthesis.compute (Stage.inputsOf (.bare 1600000000) Platform.singleSlot
          (linear 1 (2 ^ 31) quadHighPairController)) false).value = .ok f ∧
        f.chipSelects[2].bounds = 0x00A000BF#32 ∧ f.chipSelects[3].bounds = 0x008000BF#32 ∧
        ¬Synthesis.MapsGroups .highPair ⟨2 ^ 31, 2 ^ 30⟩ f.chipSelects := by
  have hbanked : BankedController Platform.singleSlot quadHighPairController := by
    constructor <;> decide +kernel
  refine ⟨hbanked, by decide +kernel, _, rfl, by decide +kernel, by decide +kernel, fun hmaps => ?_⟩
  have hequal := hmaps.equal [2, 3] (by decide) 2 (by decide) 3 (by decide) (by decide +kernel)
    (by decide +kernel)
  exact absurd hequal (by decide +kernel)

end SdramBringup
