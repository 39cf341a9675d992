/-
**The write recovery, split over two registers.**

The standard counts write recoveries one by one up to eight clocks and then in steps of two, and a
module is given the next one of these. The field for it has four bits, which is one too few once
the clocks for chopped bursts are added, so a fifth bit is in another register. The low bits are
those of the rounded recovery, but the fifth bit is computed from the clocks as they are before
rounding. This module tells what the two registers say together, and when the carry of the rounding
is lost between them.

Main definitions:

* `writeRecoveries`, `nextWriteRecovery` — the write recoveries of the standard, and rounding up to
  the next one;
* `RegisterFile.writeRecovery` — the write recovery by the two registers.

Main results:

* `isLeast_nextWriteRecovery` — rounding gives the least write recovery that is long enough;
* `Synthesis.writeRecovery_registers` — **what the registers say**: the sixteens of the clocks as
  they are and the rest of the rounded ones;
* `Synthesis.writeRecovery_registers_iff` — **nothing is lost unless rounding carries into the fifth
  bit**, which it does in two cases.
-/

import Mathlib.Tactic.IntervalCases
import SdramBringup.Proofs.CasLatency
import SdramBringup.Proofs.Intervals

set_option relaxedAutoImplicit false
set_option autoImplicit false

namespace SdramBringup

open Layout

/-! ### The write recoveries of the standard -/

/-- The write recoveries that a DDR3 module can be given, in clocks. -/
def writeRecoveries : List Nat := [1, 2, 3, 4, 5, 6, 7, 8, 10, 12, 14, 16]

/-- The first write recovery that is no shorter than the given clocks. Beyond the longest one the
clocks are taken as they are. -/
def nextWriteRecovery (clocks : Nat) : Nat :=
  (writeRecoveries.find? (clocks ≤ ·)).getD clocks

/-- **Rounding gives the least write recovery that is long enough.** -/
theorem isLeast_nextWriteRecovery {clocks : Nat} (h : clocks ≤ 16) :
    IsLeast {r | r ∈ writeRecoveries ∧ clocks ≤ r} (nextWriteRecovery clocks) := by
  obtain ⟨r, hr⟩ : ∃ r, writeRecoveries.find? (clocks ≤ ·) = some r := by
    rw [← Option.isSome_iff_exists, List.find?_isSome]
    exact ⟨16, by decide, by simpa using h⟩
  have hsorted : writeRecoveries.Pairwise (· < ·) := by decide
  rw [nextWriteRecovery, hr, Option.getD_some]
  simpa only [decide_eq_true_eq] using isLeast_of_find? hsorted hr

/-- Up to the longest write recovery, rounding does not cross any of them. -/
theorem nextWriteRecovery_le_iff {clocks r : Nat} (h : clocks ≤ 16) (hr : r ∈ writeRecoveries) :
    nextWriteRecovery clocks ≤ r ↔ clocks ≤ r := by
  obtain ⟨⟨-, hround⟩, hleast⟩ := isLeast_nextWriteRecovery h
  exact ⟨Nat.le_trans hround, fun hle => hleast ⟨hr, hle⟩⟩

/-- Two numbers of clocks are rounded alike if no write recovery lies between them, and only then. -/
theorem nextWriteRecovery_eq_iff {m n : Nat} (hm : m ≤ 16) (hn : n ≤ 16) :
    nextWriteRecovery m = nextWriteRecovery n ↔ ∀ r ∈ writeRecoveries, (m ≤ r ↔ n ≤ r) := by
  constructor
  · intro heq r hr
    rw [← nextWriteRecovery_le_iff hm hr, heq, nextWriteRecovery_le_iff hn hr]
  · intro h
    have hm' := (isLeast_nextWriteRecovery hm).1
    have hn' := (isLeast_nextWriteRecovery hn).1
    refine Nat.le_antisymm ?_ ?_
    · exact (nextWriteRecovery_le_iff hm hn'.1).2 ((h _ hn'.1).2 hn'.2)
    · exact (nextWriteRecovery_le_iff hn hm'.1).2 ((h _ hm'.1).1 hm'.2)

/-! ### The two fields -/

/-- The write recovery by the two registers that hold it. -/
def RegisterFile.writeRecovery (f : RegisterFile) : Nat :=
  16 * Timing3.writeRecovery.get f.timing3 + Timing1.writeRecovery.get f.timing1

namespace Synthesis

/-- The code of a write recovery is the rounded one without its fifth bit. -/
theorem writeRecoveryCode_of_le {clocks : Nat} (hpos : 1 ≤ clocks) (hle : clocks ≤ 16) :
    writeRecoveryCode clocks = nextWriteRecovery clocks % 16 := by
  interval_cases clocks <;> decide

theorem chopExtra_le (i : Inputs) : i.chopExtra ≤ 2 := by
  unfold Inputs.chopExtra
  split <;> decide

/-- **What the registers say** of a write recovery that has a code: the sixteens of the clocks as
they are, and what the rounded ones leave of them. -/
theorem writeRecovery_registers {i : Inputs} (hpos : 1 ≤ writeRecovery i)
    (hle : writeRecovery i ≤ 16) :
    (registers i).writeRecovery =
      16 * ((writeRecovery i + i.chopExtra) / 16) +
        (nextWriteRecovery (writeRecovery i) + i.chopExtra) % 16 := by
  have hchop := chopExtra_le i
  rw [RegisterFile.writeRecovery, show (registers i).timing3 = timing3 i from rfl,
    show (registers i).timing1 = timing1 i from rfl, get_writeRecovery_timing3,
    get_writeRecovery_timing1, highBit_of_lt (by omega), writeRecoveryCode_of_le hpos hle]
  omega

/-- Rounding carries into the fifth bit where it crosses sixteen clocks: of 13 clocks when chopped
bursts add two more, and of 15 clocks when they do not. -/
theorem div_nextWriteRecovery_iff {clocks : Nat} (hpos : 1 ≤ clocks) (hle : clocks ≤ 16)
    (chopped : Bool) :
    (clocks + if chopped then 2 else 0) / 16 =
        (nextWriteRecovery clocks + if chopped then 2 else 0) / 16 ↔
      ¬(clocks = 13 ∧ chopped = true ∨ clocks = 15 ∧ chopped = false) := by
  interval_cases clocks <;> cases chopped <;> decide

/-- **Nothing of a write recovery is lost unless rounding carries into the fifth bit.** The two
registers hold the rounded write recovery with the clocks for chopped bursts, except for 13 clocks
with these and for 15 clocks without them; then they hold sixteen clocks too few, less than the
module needs. -/
theorem writeRecovery_registers_iff {i : Inputs} (hpos : 1 ≤ writeRecovery i)
    (hle : writeRecovery i ≤ 16) :
    ((registers i).writeRecovery = nextWriteRecovery (writeRecovery i) + i.chopExtra ↔
        ¬(writeRecovery i = 13 ∧ i.options.chopOnTheFly = true ∨
          writeRecovery i = 15 ∧ i.options.chopOnTheFly = false)) ∧
      (writeRecovery i + i.chopExtra ≤ (registers i).writeRecovery ↔
        ¬(writeRecovery i = 13 ∧ i.options.chopOnTheFly = true ∨
          writeRecovery i = 15 ∧ i.options.chopOnTheFly = false)) := by
  obtain ⟨⟨-, hround⟩, hleast⟩ := isLeast_nextWriteRecovery hle
  have hsixteen : nextWriteRecovery (writeRecovery i) ≤ 16 := hleast ⟨by decide, hle⟩
  have hchop := chopExtra_le i
  rw [← div_nextWriteRecovery_iff hpos hle i.options.chopOnTheFly, ← Inputs.chopExtra,
    writeRecovery_registers hpos hle]
  constructor <;> omega

/-- A module with a write recovery of 15 ns at 1600 million transfers per second: 12 clocks, and two
for chopped bursts. -/
def chopped1600 : Inputs where
  clock := ⟨1600000000⟩
  options := { chopOnTheFly := true }
  common := { timing := { tWR := 15000 } }
  region := {}
  dimms := []
  widthShift := 0
  revision := 0

theorem writeRecovery_registers_chopped1600 :
    (1 ≤ writeRecovery chopped1600 ∧ writeRecovery chopped1600 ≤ 16) ∧
      (registers chopped1600).writeRecovery = 14 := by
  have hclocks : writeRecovery chopped1600 = 12 := by decide
  refine ⟨by decide, ?_⟩
  have h := (writeRecovery_registers_iff (i := chopped1600) (by decide) (by decide)).1.2
    (by rw [hclocks]; decide)
  rw [h, hclocks]
  decide

/-- The same module at 1733 million transfers per second, where 15 ns are 13 clocks. -/
def chopped1733 : Inputs := { chopped1600 with clock := ⟨1733000000⟩ }

/-- At 1733 million transfers per second the registers say that a write needs no recovery at all. -/
theorem writeRecovery_registers_chopped1733 :
    writeRecovery chopped1733 = 13 ∧ chopped1733.chopExtra = 2 ∧
      nextWriteRecovery (writeRecovery chopped1733) = 14 ∧
      (registers chopped1733).writeRecovery = 0 := by
  decide +kernel

end Synthesis

end SdramBringup
