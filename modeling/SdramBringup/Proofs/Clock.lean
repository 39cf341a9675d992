/-
**Times in clocks, in closed form.**

The conversion of a time into clocks divides by a 32 bit number, shifts, puts the remainder together
from what the two steps leave and compares it with the data rate. This module says what that comes to
without any of these steps: the clocks are the time less one picosecond, divided exactly and rounded
up. So they are the least number of clocks that falls short of the time by no more than a picosecond,
and longer times and faster clocks never take fewer of them. For times of 32 bits nothing on the way
leaves 64 bits, and the result is far from where it saturates.

Main definitions:

* `Clock.cyclesWord` — the conversion in machine words that wrap around;
* `Clock.ConvertsExactly` — **what the conversion of a time is worth**.

Main results:

* `Clock.cyclesFor_le_iff` — when a number of clocks is enough;
* `Clock.cyclesFor_le_cyclesFor`, `Clock.cyclesFor_mono` — longer times and faster clocks;
* `Clock.periodPs_mul_bounds`, `Clock.enough_iff_of_apart` — how far the period in whole picoseconds is
  off, and where that does not matter;
* `Clock.cyclesFor_eq_ceil` — the closed form;
* `Clock.toNat_cyclesWord` — machine words are enough for it;
* `Clock.convertsExactly` — **the conversion is exact**.
-/

import Mathlib.Data.Rat.Floor
import Mathlib.Tactic.Linarith
import SdramBringup.Clock

set_option relaxedAutoImplicit false
set_option autoImplicit false

namespace SdramBringup.Clock

theorem transfers_lt (c : Clock) : c.transfers < 2 ^ 32 := c.rate.toNat_lt

/-! ### Enough clocks -/

/-- The remainder is put together from those of the two divisions. -/
theorem excess_eq (c : Clock) (ps : Nat) : c.excess ps = c.scaled ps % (5 ^ 12 * 2 ^ 13) := by
  rw [excess, Nat.mod_mul, Nat.mul_comm (5 ^ 12)]

/-- Below the saturation a number of clocks is enough for a time **if it falls short of it by no more
than one picosecond**, and only then. -/
theorem cyclesFor_le_iff {c : Clock} {ps n : Nat} (h : n < limit) :
    c.cyclesFor ps ≤ n ↔ (ps - 1) * c.transfers ≤ n * (2 * 10 ^ 12) := by
  have hrate := c.transfers_lt
  rw [cyclesFor, excess_eq, Nat.div_div_eq_div_mul, Nat.sub_mul, Nat.one_mul, ← scaled]
  split_ifs <;> omega

theorem lt_cyclesFor_iff {c : Clock} {ps n : Nat} (h : n < limit) :
    n < c.cyclesFor ps ↔ n * (2 * 10 ^ 12) < (ps - 1) * c.transfers := by
  rw [← not_le, cyclesFor_le_iff h, not_le]

theorem cyclesFor_zero (c : Clock) : c.cyclesFor 0 = 0 := by
  rw [← Nat.le_zero, cyclesFor_le_iff (by decide), Nat.zero_sub, Nat.zero_mul]
  exact Nat.zero_le _

/-- **Longer times take no fewer clocks, and neither do faster clocks.** -/
theorem cyclesFor_le_cyclesFor {c c' : Clock} {ps ps' : Nat} (hps : ps ≤ ps')
    (hrate : c.transfers ≤ c'.transfers) : c.cyclesFor ps ≤ c'.cyclesFor ps' := by
  rcases Nat.lt_or_ge (c'.cyclesFor ps') limit with hlt | hge
  · rw [cyclesFor_le_iff hlt]
    calc
      (ps - 1) * c.transfers ≤ (ps' - 1) * c'.transfers :=
        Nat.mul_le_mul (Nat.sub_le_sub_right hps 1) hrate
      _ ≤ c'.cyclesFor ps' * (2 * 10 ^ 12) := (cyclesFor_le_iff hlt).1 (Nat.le_refl _)
  · exact Nat.le_trans (Nat.min_le_left _ _) hge

theorem cyclesFor_mono (c : Clock) : Monotone c.cyclesFor := fun _ _ h =>
  cyclesFor_le_cyclesFor h (Nat.le_refl _)

/-! ### The period -/

/-- The period in whole picoseconds is off by half a picosecond at most, unless the clock is too slow
for a period of 32 bits. -/
theorem periodPs_mul_bounds {c : Clock} (h : 466 ≤ c.transfers) :
    2 * (c.periodPs * c.transfers) ≤ 2 * (2 * 10 ^ 12) + c.transfers ∧
      2 * (2 * 10 ^ 12) ≤ 2 * (c.periodPs * c.transfers) + c.transfers := by
  have hpos : 0 < c.transfers := Nat.lt_of_lt_of_le (by decide) h
  have hfits : (2 * 10 ^ 12 + c.transfers / 2) / c.transfers < 2 ^ 32 := by
    rw [Nat.div_lt_iff_lt_mul hpos]
    omega
  have hle := Nat.div_mul_le_self (2 * 10 ^ 12 + c.transfers / 2) c.transfers
  have hlt := Nat.lt_div_mul_add (a := 2 * 10 ^ 12 + c.transfers / 2) hpos
  rw [periodPs, Nat.mod_eq_of_lt hfits]
  omega

theorem periodPs_ne_zero {c : Clock} (h : 466 ≤ c.transfers) : c.periodPs ≠ 0 := by
  intro hzero
  have hrate := c.transfers_lt
  have hbounds := periodPs_mul_bounds h
  rw [hzero, Nat.zero_mul] at hbounds
  omega

/-- A time of 32 bits that takes five clocks has a clock whose period fits 32 bits. -/
theorem le_transfers_of_cyclesFor {c : Clock} {ps : Nat} (hps : ps < 2 ^ 32)
    (h : 5 ≤ c.cyclesFor ps) : 466 ≤ c.transfers := by
  by_contra hslow
  have hle : c.cyclesFor ps ≤ 4 := by
    rw [cyclesFor_le_iff (by decide)]
    calc
      (ps - 1) * c.transfers ≤ 2 ^ 32 * 466 := Nat.mul_le_mul (by omega) (by omega)
      _ ≤ 4 * (2 * 10 ^ 12) := by decide
  omega

/-- Away from a whole number of periods, the period in whole picoseconds tells as well as the data
rate whether that many clocks are enough. -/
theorem enough_iff_of_apart {c : Clock} {ps n : Nat} (hpos : 0 < ps)
    (hrate : 466 ≤ c.transfers) (hn : n ≤ 14)
    (hapart : ps + 6 ≤ n * c.periodPs ∨ n * c.periodPs + 8 < ps) :
    (ps - 1) * c.transfers ≤ n * (2 * 10 ^ 12) ↔ ps ≤ n * c.periodPs := by
  obtain ⟨hover, hunder⟩ := periodPs_mul_bounds hrate
  have herror : n * c.transfers ≤ 14 * c.transfers := Nat.mul_le_mul_right _ hn
  have hover' := Nat.mul_le_mul_left n hover
  have hunder' := Nat.mul_le_mul_left n hunder
  rcases hapart with hshort | hlong
  · have htime : (ps - 1 + 7) * c.transfers ≤ n * c.periodPs * c.transfers :=
      Nat.mul_le_mul_right _ (by omega)
    exact iff_of_true (by linarith) (by omega)
  · have htime : (n * c.periodPs + 8) * c.transfers ≤ (ps - 1) * c.transfers :=
      Nat.mul_le_mul_right _ (by omega)
    exact iff_of_false (by linarith) (by omega)

/-! ### Times of 32 bits -/

section

variable {c : Clock} {ps : Nat}

theorem scaled_lt (hps : ps < 2 ^ 32) : c.scaled ps < 2 ^ 64 :=
  calc
    ps * c.transfers < 2 ^ 32 * 2 ^ 32 := Nat.mul_lt_mul'' hps c.transfers_lt
    _ = 2 ^ 64 := by decide

/-- A time of 32 bits takes less than ten million clocks, far from where the conversion saturates. -/
theorem cyclesFor_lt (hps : ps < 2 ^ 32) : c.cyclesFor ps < 10 ^ 7 := by
  have hscaled := c.scaled_lt hps
  have hle : c.cyclesFor ps ≤ 10 ^ 7 - 1 := by
    rw [cyclesFor_le_iff (by decide), Nat.sub_mul, Nat.one_mul, ← scaled]
    omega
  omega

theorem cyclesFor_lt_limit (hps : ps < 2 ^ 32) : c.cyclesFor ps < limit :=
  Nat.lt_trans (cyclesFor_lt hps) (by decide)

/-- In exact clocks: a number of clocks is enough if the time less one picosecond takes no more. -/
theorem cyclesFor_le_iff_exact {n : Nat} (h : n < limit) :
    c.cyclesFor ps ≤ n ↔ ((ps : ℚ) - 1) * c.transfers / (2 * 10 ^ 12) ≤ n := by
  rw [cyclesFor_le_iff h, div_le_iff₀ (by norm_num)]
  cases ps with
  | zero =>
      have hexact : ((0 : ℚ) - 1) * c.transfers ≤ n * (2 * 10 ^ 12) := by
        have hrate : (0 : ℚ) ≤ c.transfers := Nat.cast_nonneg _
        have hclocks : (0 : ℚ) ≤ n := Nat.cast_nonneg _
        linarith
      exact iff_of_true (by simp) (by exact_mod_cast hexact)
  | succ ps =>
      rw [Nat.add_sub_cancel, Nat.cast_succ, add_sub_cancel_right]
      norm_cast

/-- **The closed form**: the exact clocks of a time less one picosecond, rounded up. -/
theorem cyclesFor_eq_ceil (hps : ps < 2 ^ 32) :
    (c.cyclesFor ps : ℤ) = ⌈((ps : ℚ) - 1) * c.transfers / (2 * 10 ^ 12)⌉ := by
  have hlt := c.cyclesFor_lt_limit hps
  rw [eq_comm, Int.ceil_eq_iff]
  refine ⟨?_, (cyclesFor_le_iff_exact hlt).1 (Nat.le_refl _)⟩
  -- one clock less is not enough
  cases hclocks : c.cyclesFor ps with
  | zero =>
      rw [lt_div_iff₀ (by norm_num)]
      have hrate : (c.transfers : ℚ) < 2 ^ 32 := by exact_mod_cast c.transfers_lt
      have htime : (0 : ℚ) ≤ ps * c.transfers := by positivity
      push_cast
      linarith
  | succ n =>
      have hless : ¬c.cyclesFor ps ≤ n := by omega
      rw [cyclesFor_le_iff_exact (by omega), not_le] at hless
      push_cast
      linarith

/-- The clocks last as long as the time less one picosecond. -/
theorem sub_one_le_cyclesFor (hps : ps < 2 ^ 32) (hrate : 0 < c.transfers) :
    (ps : ℚ) - c.cyclesFor ps * (2 * 10 ^ 12 / c.transfers) ≤ 1 := by
  have henough := (cyclesFor_le_iff_exact (c.cyclesFor_lt_limit hps)).1 (Nat.le_refl _)
  have hpos : (0 : ℚ) < c.transfers := by exact_mod_cast hrate
  rw [div_le_iff₀ (by norm_num), ← le_div_iff₀ hpos, mul_div_assoc] at henough
  linarith

end

/-! ### Machine words -/

/-- What whole clocks leave of a product of time and rate, in a word of 64 bits. -/
def restWord (product : UInt64) : UInt64 :=
  product % 244140625 + (product / 244140625 &&& 0x1FFF) * 244140625

/-- The clocks of a product of time and rate, in a word of 64 bits. -/
def clocksWord (rate product : UInt64) : UInt64 :=
  (product / 244140625) >>> 13 + if rate < restWord product then 1 else 0

/-- The conversion in machine words: 64 bits that wrap around, and a result of 32 bits. -/
def cyclesWord (c : Clock) (ps : UInt32) : UInt32 :=
  let clocks := clocksWord c.rate.toUInt64 (ps.toUInt64 * c.rate.toUInt64)
  if ps = 0 then 0 else if 0xFFFFFFFF < clocks then 0xFFFFFFFF else clocks.toUInt32

theorem toNat_restWord (product : UInt64) :
    (restWord product).toNat =
      product.toNat % 5 ^ 12 + product.toNat / 5 ^ 12 % 2 ^ 13 * 5 ^ 12 := by
  have hdivisor : (244140625 : UInt64).toNat = 5 ^ 12 := by decide
  have hmask : (product / 244140625 &&& 0x1FFF).toNat = product.toNat / 5 ^ 12 % 2 ^ 13 := by
    rw [UInt64.toNat_and, UInt64.toNat_div, hdivisor]
    exact Nat.and_two_pow_sub_one_eq_mod _ 13
  rw [restWord, UInt64.toNat_add, UInt64.toNat_mul, UInt64.toNat_mod, hmask, hdivisor]
  -- both remainders are below their divisors, so that nothing wraps around
  omega

theorem toNat_clocksWord (rate product : UInt64) :
    (clocksWord rate product).toNat =
      product.toNat / 5 ^ 12 / 2 ^ 13 + if rate < restWord product then 1 else 0 := by
  have hwhole : ((product / 244140625) >>> 13).toNat = product.toNat / 5 ^ 12 / 2 ^ 13 := by
    rw [UInt64.toNat_shiftRight, UInt64.toNat_div]
    exact Nat.shiftRight_eq_div_pow _ 13
  have hproduct : product.toNat < 2 ^ 64 := product.toNat_lt
  rw [clocksWord, UInt64.toNat_add, hwhole]
  split_ifs
  · rw [UInt64.toNat_one]
    omega
  · rw [UInt64.toNat_zero]
    omega

/-- **Machine words are enough for the conversion**: nothing wraps around and nothing saturates. -/
theorem toNat_cyclesWord (c : Clock) (ps : UInt32) :
    (c.cyclesWord ps).toNat = c.cyclesFor ps.toNat := by
  have hps : ps.toNat < 2 ^ 32 := ps.toNat_lt
  have hlt := c.cyclesFor_lt_limit hps
  have hproduct : (ps.toUInt64 * c.rate.toUInt64).toNat = c.scaled ps.toNat := by
    rw [UInt64.toNat_mul, UInt32.toNat_toUInt64, UInt32.toNat_toUInt64]
    exact Nat.mod_eq_of_lt (scaled_lt hps)
  have hrest : c.rate.toUInt64 < restWord (ps.toUInt64 * c.rate.toUInt64) ↔
      c.transfers < c.excess ps.toNat := by
    rw [UInt64.lt_iff_toNat_lt, toNat_restWord, hproduct, UInt32.toNat_toUInt64]
    rfl
  have hclocks : (clocksWord c.rate.toUInt64 (ps.toUInt64 * c.rate.toUInt64)).toNat =
      c.cyclesFor ps.toNat := by
    rw [cyclesFor] at hlt ⊢
    rw [toNat_clocksWord, hproduct, min_eq_right (by omega)]
    simp only [hrest]
  have hfits : ¬0xFFFFFFFF < clocksWord c.rate.toUInt64 (ps.toUInt64 * c.rate.toUInt64) := by
    rw [UInt64.lt_iff_toNat_lt, hclocks]
    exact Nat.not_lt_of_gt hlt
  simp only [cyclesWord]
  rw [if_neg hfits]
  split_ifs with hzero
  · subst hzero
    exact c.cyclesFor_zero.symm
  · rw [UInt64.toNat_toUInt32, hclocks]
    exact Nat.mod_eq_of_lt (Nat.lt_trans hlt (by decide))

/-! ### What a conversion is worth -/

/-- What the conversion of a time of 32 bits is worth. -/
structure ConvertsExactly (c : Clock) (ps : UInt32) : Prop where
  /-- It has the closed form: the exact clocks of the time less one picosecond, rounded up. -/
  ceil : (c.cyclesFor ps.toNat : ℤ) = ⌈((ps.toNat : ℚ) - 1) * c.transfers / (2 * 10 ^ 12)⌉
  /-- The product of time and rate and the remainder that is put together from it fit 64 bits. -/
  fits : c.scaled ps.toNat < 2 ^ 64 ∧ c.excess ps.toNat < 2 ^ 64
  /-- Words that wrap around give the same number of clocks. -/
  word : (c.cyclesWord ps).toNat = c.cyclesFor ps.toNat
  /-- It stays below the largest number of 32 bits. -/
  unsaturated : c.cyclesFor ps.toNat < limit
  /-- Longer times and faster clocks take no fewer clocks. -/
  mono : ∀ (c' : Clock) (ps' : UInt32), ps ≤ ps' → c.rate ≤ c'.rate →
    c.cyclesFor ps.toNat ≤ c'.cyclesFor ps'.toNat
  /-- The clocks fall short of the time by no more than one picosecond. -/
  short : 0 < c.rate → (ps.toNat : ℚ) - c.cyclesFor ps.toNat * (2 * 10 ^ 12 / c.transfers) ≤ 1

/-- **The conversion is exact.** -/
theorem convertsExactly (c : Clock) (ps : UInt32) : c.ConvertsExactly ps := by
  have hps : ps.toNat < 2 ^ 32 := ps.toNat_lt
  constructor
  case ceil => exact cyclesFor_eq_ceil hps
  case fits =>
    refine ⟨scaled_lt hps, ?_⟩
    rw [excess_eq]
    exact Nat.lt_trans (Nat.mod_lt _ (by decide)) (by decide)
  case word => exact toNat_cyclesWord c ps
  case unsaturated => exact cyclesFor_lt_limit hps
  case mono => exact fun c' ps' hle hrate => cyclesFor_le_cyclesFor hle hrate
  case short => exact sub_one_le_cyclesFor hps

/-- At 1600 million transfers per second 13751 ps are 11 clocks, which are 13750 ps. -/
example : (⟨1600000000⟩ : Clock).cyclesFor 13751 = 11 := by decide

end SdramBringup.Clock
