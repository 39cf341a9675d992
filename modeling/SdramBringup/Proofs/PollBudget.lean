/-
**How long a controller is waited for.**

The initialization writes the memory once, and the budget of polls is meant to allow twice the time
that the bus needs for it. It is computed by two divisions that round down: the rate is taken in whole
steps of 2 ^ 20 transfers per second, and the polls are counted before they are doubled. The doubling
makes up for what is cut off, except where nothing is left to be doubled: memory that the bus fills in
less than one interval gets a budget of no polls at all, and is found unfinished by the only look at
it. A rate below one step counts as one step, which allows too little time below half a step.

Main definitions:

* `BusWidth.bytes` — the bytes of a transfer;
* `Programming.CoversTransfer` — **the promise**: the time of some polls is enough for one transfer of
  the memory;
* `Programming.smallModule` — the registers for a module of 128 MiB.

Main results:

* `Programming.sizeUnits_le`, `Programming.pollBudget_products_lt` — how much memory registers map, and
  that no number has more than 64 bits;
* `Programming.coversTransfer_iff_mul_le` — the promise in whole numbers;
* `Programming.mul_le_div_mul_two_mul_iff` — what doubling makes up for;
* `Programming.coversTransfer_pollBudget_iff` — **when the budget is long enough**, and
  `Programming.not_coversTransfer_smallModule` for one that is not.
-/

import Mathlib.Algebra.Order.BigOperators.Group.List
import Mathlib.Algebra.Order.Ring.Nat
import Mathlib.Tactic.Ring
import SdramBringup.Proofs.ControllerSize

set_option relaxedAutoImplicit false
set_option autoImplicit false

namespace SdramBringup

/-- The bytes of a transfer, without those for error correction. -/
def BusWidth.bytes (w : BusWidth) : Nat := w.lines / 8

theorem BusWidth.bytes_pos (w : BusWidth) : 0 < w.bytes := by cases w <;> decide

namespace Programming

/-! ### The size of the numbers -/

theorem addressBits_le (config : Word) : addressBits config ≤ 42 := by
  have hbanks := Layout.ChipSelect.bankBits.get_lt config
  have hrows := Layout.ChipSelect.rowBits.get_lt config
  have hcolumns := Layout.ChipSelect.columnBits.get_lt config
  simp only [Layout.ChipSelect.bankBits, Layout.ChipSelect.rowBits, Layout.ChipSelect.columnBits]
    at hbanks hrows hcolumns
  simp only [addressBits, Layout.ChipSelect.bankBits, Layout.ChipSelect.rowBits,
    Layout.ChipSelect.columnBits]
  omega

/-- Four chip selects map 4 TiB each at most, for three controllers at most. -/
theorem sizeUnits_le (f : RegisterFile) (threeWay : Bool) : sizeUnits f threeWay ≤ 3 * 2 ^ 18 := by
  have hown : ((f.chipSelects.toList.filter (·.enabled)).map fun cs =>
      2 ^ (addressBits cs.config - (busWidthCode f + 26))).sum ≤ 2 ^ 18 := by
    refine (List.sum_le_card_nsmul _ (2 ^ 16) ?_).trans ?_
    · intro size hsize
      obtain ⟨cs, -, rfl⟩ := List.mem_map.1 hsize
      have hbits := addressBits_le cs.config
      exact Nat.pow_le_pow_right (by decide) (by omega)
    · have hlength : (f.chipSelects.toList.filter (·.enabled)).length ≤ 4 :=
        (List.length_filter_le _ _).trans (Vector.length_toList ..).le
      rw [List.length_map, Nat.nsmul_eq_mul]
      omega
  rw [sizeUnits]
  split
  · omega
  · split <;> omega

/-- **No number has more than 64 bits**, for 2 ^ 50 units at most: neither the product that is divided
by the rate nor the budget, which is twice as much at most. Registers do not map that many. -/
theorem pollBudget_products_lt {units : Nat} (hunits : units ≤ 2 ^ 50) (f : RegisterFile)
    (clock : Clock) :
    units * 2 ^ (6 - (3 - busWidthCode f)) * 100 < 2 ^ 64 ∧ pollBudget units f clock < 2 ^ 64 := by
  have hproduct : units * 2 ^ (6 - (3 - busWidthCode f)) * 100 ≤ 2 ^ 50 * 2 ^ 6 * 100 :=
    Nat.mul_le_mul_right 100 (Nat.mul_le_mul hunits
      (Nat.pow_le_pow_right (by decide) (Nat.sub_le 6 _)))
  have hquotient := Nat.div_le_self (units * 2 ^ (6 - (3 - busWidthCode f)) * 100)
    (max (clock.transfers / 2 ^ 20) 1)
  simp only [pollBudget]
  omega

/-! ### The promise -/

/-- In the time of some polls, at its rate, the bus moves as many bytes as there are in some units of
64 MiB. Intervals are in nanoseconds. -/
def CoversTransfer (clock : Clock) (w : BusWidth) (units polls : Nat) : Prop :=
  units * 2 ^ 26 * 10 ^ 9 ≤ polls * pollInterval * (clock.transfers * w.bytes)

instance (clock : Clock) (w : BusWidth) (units polls : Nat) :
    Decidable (CoversTransfer clock w units polls) :=
  inferInstanceAs (Decidable (_ ≤ _))

/-- The promise in whole numbers: there are a hundred polls in a second. -/
theorem coversTransfer_iff_mul_le {clock : Clock} {w : BusWidth} {units polls : Nat} :
    CoversTransfer clock w units polls ↔
      100 * units * 2 ^ 26 ≤ polls * clock.transfers * w.bytes := by
  have hleft : units * 2 ^ 26 * 10 ^ 9 = 10 ^ 7 * (100 * units * 2 ^ 26) := by ring
  have hright : polls * pollInterval * (clock.transfers * w.bytes) =
      10 ^ 7 * (polls * clock.transfers * w.bytes) := by
    rw [pollInterval]
    ring
  rw [CoversTransfer, hleft, hright]
  exact Nat.mul_le_mul_left_iff (by decide)

/-! ### What doubling makes up for -/

/-- **A quotient that is rounded down and then doubled** is enough if it is not zero. -/
theorem le_div_mul_two_mul {a m : Nat} (hm : 0 < m) (h : m ≤ a) : a ≤ a / m * 2 * m := by
  have hone : 1 ≤ a / m := Nat.div_pos h hm
  calc a ≤ m * (a / m + 1) := (Nat.lt_mul_div_succ a hm).le
    _ = (a / m + 1) * m := Nat.mul_comm ..
    _ ≤ a / m * 2 * m := Nat.mul_le_mul_right m (by omega)

/-- The rate in whole steps, one step at least: the doubled quotient is enough exactly if it is not
zero and the rate is half a step at least. -/
theorem mul_le_div_mul_two_mul_iff {a rate step : Nat} (ha : 0 < a) (hstep : 0 < step) :
    a * step ≤ a / max (rate / step) 1 * 2 * rate ↔ step ≤ 2 * rate ∧ rate / step ≤ a := by
  rcases Nat.lt_or_ge rate step with hslow | hfast
  · -- no whole step, and the quotient is exact
    rw [Nat.div_eq_of_lt hslow, Nat.max_eq_right (Nat.zero_le 1), Nat.div_one, Nat.mul_assoc,
      Nat.mul_le_mul_left_iff ha]
    exact (and_iff_left (Nat.zero_le a)).symm
  have hsteps : 0 < rate / step := Nat.div_pos hfast hstep
  rw [Nat.max_eq_left hsteps]
  constructor
  · intro h
    refine ⟨by omega, ?_⟩
    by_contra hlt
    have hpos : 0 < a * step := Nat.mul_pos ha hstep
    rw [Nat.div_eq_of_lt (by omega)] at h
    omega
  · rintro ⟨-, hle⟩
    calc a * step ≤ a / (rate / step) * 2 * (rate / step) * step :=
          Nat.mul_le_mul_right step (le_div_mul_two_mul hsteps hle)
      _ = a / (rate / step) * 2 * (rate / step * step) := Nat.mul_assoc ..
      _ ≤ a / (rate / step) * 2 * rate := Nat.mul_le_mul_left _ (Nat.div_mul_le_self rate step)

/-! ### The budget -/

/-- A unit of 64 MiB, in bytes, takes a whole number of transfers. -/
theorem units_mul_bytes {f : RegisterFile} {w : BusWidth} (hw : busWidthCode f = w.code)
    (units : Nat) :
    units * 2 ^ (6 - (3 - busWidthCode f)) * 100 * w.bytes = 6400 * units := by
  rw [hw]
  cases w <;> simp only [BusWidth.code, BusWidth.bytes, BusWidth.lines] <;> omega

/-- **When the budget is long enough**: the rate is 2 ^ 19 transfers per second at least, and the
memory is not smaller than what the bus moves in one interval, at the rate in whole steps of 2 ^ 20
transfers per second. For memory that is smaller the budget is zero. -/
theorem coversTransfer_pollBudget_iff {clock : Clock} {f : RegisterFile} {w : BusWidth}
    {units : Nat} (hw : busWidthCode f = w.code) (hunits : 0 < units) :
    CoversTransfer clock w units (pollBudget units f clock) ↔
      2 ^ 19 ≤ clock.transfers ∧ clock.transfers / 2 ^ 20 * w.bytes ≤ 6400 * units := by
  have hbytes := w.bytes_pos
  have hscaled := units_mul_bytes hw units
  rw [coversTransfer_iff_mul_le, pollBudget]
  -- transfers for a hundred times the memory, which are divided by the rate
  generalize units * 2 ^ (6 - (3 - busWidthCode f)) * 100 = a at hscaled ⊢
  have ha : 0 < a := by
    rcases Nat.eq_zero_or_pos a with rfl | ha
    · omega
    · exact ha
  have hpromise : 100 * units * 2 ^ 26 = a * 2 ^ 20 * w.bytes := by
    calc 100 * units * 2 ^ 26 = 6400 * units * 2 ^ 20 := by omega
      _ = a * 2 ^ 20 * w.bytes := by rw [← hscaled, Nat.mul_right_comm]
  rw [hpromise, Nat.mul_le_mul_right_iff hbytes, mul_le_div_mul_two_mul_iff ha (by decide),
    ← hscaled, Nat.mul_le_mul_right_iff hbytes]
  exact and_congr_left fun _ => by omega

/-- The registers for a module of 128 MiB on a bus of 64 bits. -/
def smallModule : RegisterFile :=
  { chipSelects := #v[{ config := 0x80004001#32 }, {}, {}, {}] }

/-- At 1600 million transfers per second a small module is waited for long enough. -/
theorem coversTransfer_smallModule :
    busWidthCode smallModule = BusWidth.bits64.code ∧ 0 < sizeUnits smallModule false ∧
      CoversTransfer ⟨1600000000⟩ .bits64 (sizeUnits smallModule false)
        (pollBudget (sizeUnits smallModule false) smallModule ⟨1600000000⟩) := by
  have hcode : busWidthCode smallModule = BusWidth.bits64.code := by decide
  have hunits : 0 < sizeUnits smallModule false := by decide +kernel
  exact ⟨hcode, hunits, (coversTransfer_pollBudget_iff hcode hunits).2 (by decide +kernel)⟩

/-- At 1866 million transfers per second it is not waited for at all. -/
theorem not_coversTransfer_smallModule :
    busWidthCode smallModule = BusWidth.bits64.code ∧ sizeUnits smallModule false = 2 ∧
      pollBudget (sizeUnits smallModule false) smallModule ⟨1866666666⟩ = 0 ∧
      ¬CoversTransfer ⟨1866666666⟩ .bits64 (sizeUnits smallModule false)
        (pollBudget (sizeUnits smallModule false) smallModule ⟨1866666666⟩) := by
  decide +kernel

end Programming

end SdramBringup
