/-
**How far the chip selects of a controller reach.**

A chip select maps a rank, its pair maps two, and under some interleaving all chip selects map the
range of the whole controller. What matters for the size of the memory is only where all of this
ends. This module reduces the ranges of the chip selects to the ends of the modules behind them: with
interleaving or without, what a controller maps ends where its modules end, as far as their ranks
have chip selects, or where its range does.

Main definitions:

* `unitEnd` — an end, rounded up to whole units of 16 MiB;
* `Synthesis.reach` — how far into its module a chip select reaches, in ranks;
* `Synthesis.ends` — where what a controller maps ends;
* `Synthesis.Within` — no chip select with a rank reaches beyond a bound.

Main results:

* `Synthesis.unit_range?_le_iff` — a chip select ends where it reaches to;
* `Synthesis.reach_le` — it reaches no further than there are ranks, in every admitted mode;
* `Synthesis.within_iff` — **nothing is mapped beyond a bound exactly when what is mapped ends
  there**.
-/

import SdramBringup.Proofs.ChipSelect

set_option relaxedAutoImplicit false
set_option autoImplicit false

namespace SdramBringup

/-! ### Units of 16 MiB -/

/-- The end of the last unit of 16 MiB that a range with the given end reaches into. -/
def unitEnd (stop : Nat) : Nat := ((stop - 1) / 2 ^ 24 + 1) * 2 ^ 24

theorem unitEnd_mono {m n : Nat} (h : m ≤ n) : unitEnd m ≤ unitEnd n := by
  unfold unitEnd
  omega

namespace Synthesis

/-- The units of 16 MiB of a range, by its last address. Beyond 64 bits the last address is wrong,
but still beyond every bound of interest. -/
theorem unit_lastOf_le_iff {start size extra bound : Nat} (hbound : bound ≤ 2 ^ 40)
    (hextra : start + size = 0 → extra = 0) :
    ((lastOf start size + extra) / 2 ^ 24 + 1) * 2 ^ 24 ≤ bound ↔
      unitEnd (start + size + extra) ≤ bound := by
  unfold lastOf unitEnd
  omega

theorem ranksIn_eq (i : Inputs) (slot : Nat) : i.ranksIn slot = (i.dimms.getD slot {}).ranks := by
  rw [Inputs.ranksIn, List.getD_eq_getElem?_getD]
  cases i.dimms[slot]? <;> rfl

/-! ### How far a chip select reaches -/

/-- How far into its module a chip select reaches, in ranks. The lead of a pair reaches as far as its
partner. -/
def reach (i : Inputs) (cs : Fin 4) : Nat :=
  match i.options.bankMode with
  | .lowPair => if cs.val = 0 then rankOf i cs + 2 else rankOf i cs + 1
  | .highPair => if cs.val = 2 then rankOf i cs + 2 else rankOf i cs + 1
  | .bothPairs => if 2 ≤ cs.val ∧ slotOf i cs = 0 then 4 else 2
  | .off | .auto | .allFour => rankOf i cs + 1

/-- A chip select with a range of its own, or of its pair, ends where it reaches to. -/
theorem unit_range?_le_iff {i : Inputs} {cs : Fin 4} {range : Nat × Nat} {bound : Nat}
    (hbound : bound ≤ 2 ^ 40) (hmode : i.options.controllerMode = none)
    (hbank : i.options.bankMode ≠ .allFour) (hrange : range? i cs = some range) :
    (range.2 / 2 ^ 24 + 1) * 2 ^ 24 ≤ bound ↔
      unitEnd ((dimmOf i cs).base + reach i cs * rankSpan i cs) ≤ bound := by
  have hpair : ∀ lead partner : Fin 4,
      ((pairRange i lead partner cs).2 / 2 ^ 24 + 1) * 2 ^ 24 ≤ bound ↔
        unitEnd ((dimmOf i cs).base +
          (if cs.val = lead.val then rankOf i cs + 2 else rankOf i cs + 1) * rankSpan i cs) ≤
            bound := by
    intro lead partner
    have hend : (dimmOf i cs).base + rankSpan i cs +
        (rankOf i cs * rankSpan i cs + if cs.val = lead.val then rankSpan i cs else 0) =
          (dimmOf i cs).base +
            (if cs.val = lead.val then rankOf i cs + 2 else rankOf i cs + 1) * rankSpan i cs := by
      split <;> rw [Nat.add_mul] <;> omega
    simp only [pairRange, Fin.ext_iff]
    rw [Nat.add_assoc, unit_lastOf_le_iff hbound, hend]
    intro hzero
    have hspan : rankSpan i cs = 0 := by omega
    simp [hspan]
  have hown : ((rankRange i cs).2 / 2 ^ 24 + 1) * 2 ^ 24 ≤ bound ↔
      unitEnd ((dimmOf i cs).base + (rankOf i cs + 1) * rankSpan i cs) ≤ bound := by
    rw [rankRange, ← Nat.add_zero (lastOf _ _), unit_lastOf_le_iff hbound fun _ => rfl,
      Nat.add_zero, Nat.add_assoc, Nat.succ_mul]
  unfold range? at hrange
  rw [hmode, if_neg (by decide)] at hrange
  unfold reach
  cases hmode : i.options.bankMode with
  | allFour => exact absurd hmode hbank
  | off | auto =>
      simp only [hmode, Option.ite_none_right_eq_some, Option.some.injEq] at hrange
      rw [← hrange.2]
      exact hown
  | lowPair =>
      simp only [hmode, Option.ite_none_right_eq_some, Option.some.injEq] at hrange
      rw [← hrange.2]
      exact hpair 0 1
  | highPair =>
      simp only [hmode, Option.ite_none_right_eq_some, Option.some.injEq] at hrange
      rw [← hrange.2]
      exact hpair 2 3
  | bothPairs =>
      simp only [hmode, Option.some.injEq] at hrange
      have hend : (if 2 ≤ cs.val ∧ slotOf i cs = 0 then (dimmOf i cs).base + 2 * rankSpan i cs
          else (dimmOf i cs).base) + 2 * rankSpan i cs =
            (dimmOf i cs).base +
              (if 2 ≤ cs.val ∧ slotOf i cs = 0 then 4 else 2) * rankSpan i cs := by
        split <;> omega
      rw [← hrange, bothPairsRange, ← Nat.add_zero (lastOf _ _),
        unit_lastOf_le_iff hbound fun _ => rfl, Nat.add_zero, hend]

theorem exists_range? {i : Inputs} {cs : Fin 4} (hrank : hasRank i cs = true)
    (hmode : i.options.controllerMode = none) : ∃ range, range? i cs = some range := by
  rw [range?, hmode, if_neg (by decide)]
  cases i.options.bankMode <;> simp [hrank]

section Population

variable {i : Inputs} (hlength : i.dimms.length = 1 ∨ i.dimms.length = 2)
include hlength

theorem dimms_ne_nil : i.dimms ≠ [] := by
  intro hnil
  simp [hnil] at hlength

/-- Where a chip select is, if it is alone or shares the controller with another slot. -/
theorem slot_cases (cs : Fin 4) :
    (i.dimms.length = 1 ∧ perSlot i = 4 ∧ slotOf i cs = 0 ∧ rankOf i cs = cs) ∨
      (i.dimms.length = 2 ∧ perSlot i = 2 ∧ cs.val < 2 ∧ slotOf i cs = 0 ∧ rankOf i cs = cs) ∨
      (i.dimms.length = 2 ∧ perSlot i = 2 ∧ 2 ≤ cs.val ∧ slotOf i cs = 1 ∧
        rankOf i cs = cs - 2) := by
  have hcs := cs.isLt
  rcases hlength with h | h
  · have hper : perSlot i = 4 := by simp [perSlot, h]
    simp only [slotOf, rankOf, hper, h, true_and]
    omega
  · have hper : perSlot i = 2 := by simp [perSlot, h]
    simp only [slotOf, rankOf, hper, h, true_and]
    omega

theorem rankOf_lt_reach (cs : Fin 4) : rankOf i cs < reach i cs := by
  have hslot := slot_cases hlength cs
  have hcs := cs.isLt
  unfold reach
  cases i.options.bankMode with
  | off | auto | allFour => exact Nat.lt_succ_self _
  | lowPair | highPair => simp only; split <;> omega
  | bothPairs => simp only; split <;> omega

/-- A chip select reaches no further than the ranks of its module and the chip selects of its slot,
provided that the module admits the interleaving. -/
theorem reach_le {quadCapable : Bool} {cs : Fin 4} (hrank : hasRank i cs = true)
    (hbank : i.options.bankMode.supported i.dimms.length (i.ranksIn 0) (i.ranksIn 1) quadCapable =
      true) :
    reach i cs ≤ min (dimmOf i cs).ranks (perSlot i) := by
  have hlt : rankOf i cs < (dimmOf i cs).ranks := by simpa [hasRank] using hrank
  have hranks : (dimmOf i cs).ranks = i.ranksIn (slotOf i cs) := (ranksIn_eq i _).symm
  have hcs := cs.isLt
  rw [hranks] at hlt ⊢
  unfold reach
  -- a lead or a pair is admitted only if its module has the ranks for it
  rcases slot_cases hlength cs with ⟨hlen, hper, hslot, hrank⟩ | ⟨hlen, hper, hlow, hslot, hrank⟩ |
    ⟨hlen, hper, hhigh, hslot, hrank⟩
  all_goals
    rw [hslot] at hlt ⊢
    rw [hlen] at hbank
    cases hmode : i.options.bankMode <;> simp [hmode, BankMode.supported] at hbank ⊢ <;>
      (try split) <;> omega

end Population

/-! ### The ends of what is mapped -/

/-- Every rank that a slot has a chip select for is selected by one. -/
theorem exists_chipSelect {i : Inputs} (hlength : i.dimms.length = 1 ∨ i.dimms.length = 2)
    {d : Dimm} (hd : d ∈ i.dimms) {r : Nat} (hr : r < perSlot i) :
    ∃ cs : Fin 4, dimmOf i cs = d ∧ rankOf i cs = r := by
  rcases hlength with hone | htwo
  · have hper : perSlot i = 4 := by simp [perSlot, hone]
    obtain ⟨e, he⟩ := List.length_eq_one_iff.1 hone
    obtain rfl : d = e := by simpa [he] using hd
    rw [hper] at hr
    refine ⟨⟨r, hr⟩, ?_, ?_⟩
    · simp [dimmOf, slotOf, hper, he, Nat.div_eq_of_lt hr]
    · simp [rankOf, hper, Nat.mod_eq_of_lt hr]
  · have hper : perSlot i = 2 := by simp [perSlot, htwo]
    obtain ⟨e, f, he⟩ := List.length_eq_two.1 htwo
    rw [hper] at hr
    have hmem : d = e ∨ d = f := by simpa [he] using hd
    rcases hmem with rfl | rfl
    · refine ⟨⟨r, by omega⟩, ?_, ?_⟩
      · simp [dimmOf, slotOf, hper, he, Nat.div_eq_of_lt hr]
      · simp [rankOf, hper, Nat.mod_eq_of_lt hr]
    · have hslot : (r + 2) / 2 = 1 := by omega
      have hrank : (r + 2) % 2 = r := by omega
      refine ⟨⟨r + 2, by omega⟩, ?_, ?_⟩
      · simp [dimmOf, slotOf, hper, he, hslot]
      · simp [rankOf, hper, hrank]

/-- The ends of what a controller maps: of its whole range if one range is shared by its chip selects
or with other controllers, and otherwise of the ranks of every module that have a chip select. -/
def ends (i : Inputs) : List Nat :=
  if i.options.bankMode = .allFour then
    if i.dimms.all (·.isEmpty) then [] else [i.region.stop]
  else if i.options.controllerMode.isSome then
    if (dimmOf i 0).isEmpty then [] else [i.region.stop]
  else
    (i.dimms.filter (!·.isEmpty)).map fun d =>
      d.base + min d.ranks (perSlot i) * (d.rankSize / 2 ^ i.widthShift)

/-- No enabled chip select reaches into a unit of 16 MiB beyond the bound. -/
def Within (i : Inputs) (bound : Nat) : Prop :=
  ∀ cs, hasRank i cs = true → ∀ range, range? i cs = some range →
    (range.2 / 2 ^ 24 + 1) * 2 ^ 24 ≤ bound

section Within

variable {i : Inputs} {bound : Nat} (hlength : i.dimms.length = 1 ∨ i.dimms.length = 2)
  (hbound : bound ≤ 2 ^ 40)
include hlength hbound

/-- Chip selects that all answer to the range of the controller. -/
theorem within_iff_of_allFour (hbank : i.options.bankMode = .allFour) :
    Within i bound ↔ ∀ e ∈ ends i, unitEnd e ≤ bound := by
  have hrange : ∀ cs, range? i cs = some (regionRange i) := by
    intro cs
    cases hmode : i.options.controllerMode <;> simp [range?, hmode, hbank, answersForGroup]
  have hregion : ((regionRange i).2 / 2 ^ 24 + 1) * 2 ^ 24 ≤ bound ↔
      unitEnd i.region.stop ≤ bound := by
    rw [regionRange, ← Nat.add_zero (lastOf _ _), unit_lastOf_le_iff hbound fun _ => rfl]
    rfl
  rw [ends, if_pos hbank]
  by_cases hall : i.dimms.all (·.isEmpty) = true
  · rw [if_pos hall]
    refine iff_of_true (fun cs hrank => ?_) (by simp)
    have hempty := List.all_eq_true.1 hall _ (dimmOf_mem hrank)
    rw [isEmpty_dimmOf hrank] at hempty
    exact absurd hempty (by decide)
  · rw [if_neg hall, List.forall_mem_singleton, ← hregion]
    constructor
    · intro h
      obtain ⟨d, hd, hne⟩ : ∃ d ∈ i.dimms, d.isEmpty = false := by simpa using hall
      have hper : 0 < perSlot i := by rcases hlength with h | h <;> simp [perSlot, h]
      obtain ⟨cs, hcs, hzero⟩ := exists_chipSelect hlength hd hper
      have hpos : 0 < d.ranks := by
        simp only [Dimm.isEmpty, beq_eq_false_iff_ne] at hne
        omega
      exact h cs (by simp [hasRank, hcs, hzero, hpos]) _ (hrange cs)
    · intro h cs _ range heq
      rw [hrange cs, Option.some.injEq] at heq
      exact heq ▸ h

/-- Chip selects of the first slot that answer for a group of controllers. -/
theorem within_iff_of_group (hmode : i.options.controllerMode.isSome = true)
    (hbank : i.options.bankMode ≠ .allFour) :
    Within i bound ↔ ∀ e ∈ ends i, unitEnd e ≤ bound := by
  have hregion : ((regionRange i).2 / 2 ^ 24 + 1) * 2 ^ 24 ≤ bound ↔
      unitEnd i.region.stop ≤ bound := by
    rw [regionRange, ← Nat.add_zero (lastOf _ _), unit_lastOf_le_iff hbound fun _ => rfl]
    rfl
  have hslot : ∀ cs : Fin 4, answersForGroup i.options.bankMode cs = true →
      dimmOf i cs = dimmOf i 0 := by
    intro cs hcs
    have hlow : cs.val ≤ 1 := by
      cases hb : i.options.bankMode <;> simp [hb, answersForGroup] at hcs hbank <;> omega
    have hper : 2 ≤ perSlot i := by rcases hlength with h | h <;> simp [perSlot, h]
    simp [dimmOf, slotOf, Nat.div_eq_of_lt (Nat.lt_of_le_of_lt hlow hper)]
  rw [ends, if_neg hbank, if_pos hmode]
  by_cases hempty : (dimmOf i 0).isEmpty = true
  · rw [if_pos hempty]
    refine iff_of_true (fun cs hrank range heq => ?_) (by simp)
    rw [range?, if_pos hmode, Option.ite_none_right_eq_some] at heq
    have hne := isEmpty_dimmOf hrank
    rw [hslot cs heq.1, hempty] at hne
    exact absurd hne (by decide)
  · rw [if_neg hempty, List.forall_mem_singleton, ← hregion]
    constructor
    · intro h
      have hpos : 0 < (dimmOf i 0).ranks := by
        simp only [Dimm.isEmpty, beq_iff_eq] at hempty
        omega
      have hanswers : answersForGroup i.options.bankMode 0 = true := by
        cases i.options.bankMode <;> rfl
      exact h 0 (by simp [hasRank, rankOf, hpos]) _ (by rw [range?, if_pos hmode, if_pos hanswers])
    · intro h cs _ range heq
      rw [range?, if_pos hmode, Option.ite_none_right_eq_some, Option.some.injEq] at heq
      exact heq.2 ▸ h

/-- Chip selects with ranges of their own, or of their pairs. -/
theorem within_iff_of_own {quadCapable : Bool} (hmode : i.options.controllerMode = none)
    (hbank : i.options.bankMode ≠ .allFour)
    (hsupported : i.options.bankMode.supported i.dimms.length (i.ranksIn 0) (i.ranksIn 1)
      quadCapable = true) :
    Within i bound ↔ ∀ e ∈ ends i, unitEnd e ≤ bound := by
  have hnone : ¬i.options.controllerMode.isSome = true := by simp [hmode]
  rw [ends, if_neg hbank, if_neg hnone]
  simp only [List.forall_mem_map]
  constructor
  · intro h d hd
    obtain ⟨hd, hempty⟩ := List.mem_filter.1 hd
    have hpos : 0 < d.ranks := by
      simp only [Dimm.isEmpty, Bool.not_eq_true', beq_eq_false_iff_ne] at hempty
      omega
    have hper : 0 < perSlot i := by rcases hlength with h | h <;> simp [perSlot, h]
    -- the last rank of the module that has a chip select reaches as far as any
    obtain ⟨cs, rfl, hrank⟩ := exists_chipSelect hlength hd
      (show min d.ranks (perSlot i) - 1 < perSlot i by omega)
    have hhas : hasRank i cs = true := by
      simp only [hasRank, hrank, decide_eq_true_eq]
      omega
    obtain ⟨range, hrange⟩ := exists_range? hhas hmode
    have hreach : reach i cs = min (dimmOf i cs).ranks (perSlot i) := by
      have hle := reach_le hlength hhas hsupported
      have hlt := rankOf_lt_reach hlength cs
      omega
    have hunit := (unit_range?_le_iff hbound hmode hbank hrange).1 (h cs hhas range hrange)
    rwa [hreach] at hunit
  · intro h cs hhas range hrange
    rw [unit_range?_le_iff hbound hmode hbank hrange]
    have hend := h (dimmOf i cs)
      (List.mem_filter.2 ⟨dimmOf_mem hhas, by simp [isEmpty_dimmOf hhas]⟩)
    refine Nat.le_trans (unitEnd_mono (Nat.add_le_add_left ?_ _)) hend
    exact Nat.mul_le_mul_right _ (reach_le hlength hhas hsupported)

/-- **Nothing is mapped beyond a bound exactly when what is mapped ends there**, whatever the
interleaving. -/
theorem within_iff {quadCapable : Bool}
    (hsupported : i.options.bankMode.supported i.dimms.length (i.ranksIn 0) (i.ranksIn 1)
      quadCapable = true) :
    Within i bound ↔ ∀ e ∈ ends i, unitEnd e ≤ bound := by
  by_cases hbank : i.options.bankMode = .allFour
  · exact within_iff_of_allFour hlength hbound hbank
  · cases hmode : i.options.controllerMode with
    | none => exact within_iff_of_own hlength hbound hmode hbank hsupported
    | some mode => exact within_iff_of_group hlength hbound (by simp [hmode]) hbank

end Within

end Synthesis

end SdramBringup
