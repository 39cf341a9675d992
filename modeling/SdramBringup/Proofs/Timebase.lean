/-
**Counts of the medium timebase, and the times that become of them.**

An image gives its minimum times as counts of a timebase that it also gives, as a fraction of a
nanosecond. Decoding rounds the timebase to whole picoseconds, multiplies it by the counts in 32 bits
and corrects some of the products. This module says where the two steps lose something. Counts of
eight and of twelve bits never make a product of more than 32 bits, whatever the timebase; the only
count of sixteen bits, that of the refresh recovery time, may. A release build then loses the bits
beyond and a build with overflow checks stops. What the rounding cuts off the timebase is missing in a
time once for every count, so that a time may be short by many picoseconds.

Main definitions:

* `Spd.Image.counts`, `Spd.Image.corrections` — the times of an image as it gives them;
* `Spd.Image.Fits` — the product for a time has 32 bits;
* `Spd.Image.TimesExactly` — **the times are made of exact products**;
* `Spd.Image.exactPs` — a count in exact picoseconds;
* `Spd.Image.RoundsDown` — **what the rounding of the timebase makes of a time**.

Main results:

* `Spd.Image.fits_of_mem_narrow` — the products that fit;
* `Spd.Timebase.time_add_le` — a product that does not fit makes a short time;
* `Spd.Image.timingBy_checkedTime` — **what a build with overflow checks makes of the counts**;
* `Spd.Image.timesExactly_iff` — **all products are exact if that for the refresh recovery time is**;
* `Spd.Image.exactPs_sub` — what is missing in a product;
* `Spd.Image.roundsDown_of_decode` — **how far a time is from the exact one**.
-/

import Mathlib.Algebra.Order.Field.Basic
import Mathlib.Algebra.Order.Ring.Rat
import Mathlib.Tactic.LinearCombination
import SdramBringup.Proofs.Checksum
import SdramBringup.Proofs.CommonTiming

set_option relaxedAutoImplicit false
set_option autoImplicit false

namespace SdramBringup

namespace Timing

/-- The times that are counts of the medium timebase and nothing else. -/
def uncorrected : List (Timing → Nat) := [tWR, tRRD, tRAS, tRFC, tWTR, tRTP, tFAW]

/-- The times that are corrected by a count of the fine timebase. -/
def corrected : List (Timing → Nat) := [tCK, tAA, tRCD, tRP, tRC]

/-- The times whose counts have eight or twelve bits. -/
def narrow : List (Timing → Nat) := [tCK, tAA, tWR, tRCD, tRRD, tRP, tRAS, tRC, tWTR, tRTP, tFAW]

theorem mem_times_iff {f : Timing → Nat} : f ∈ times ↔ f ∈ uncorrected ∨ f ∈ corrected := by
  simp only [times, uncorrected, corrected, List.mem_cons, List.not_mem_nil, or_false]
  tauto

theorem mem_times_iff_narrow {f : Timing → Nat} : f ∈ times ↔ f = tRFC ∨ f ∈ narrow := by
  simp only [times, narrow, List.mem_cons, List.not_mem_nil, or_false]
  tauto

end Timing

namespace Spd

/-! ### Products of 32 bits -/

namespace Timebase

variable {t : Timebase} {count : Nat}

theorem time_of_fits (h : count * t.medium < 2 ^ 32) : t.time count = count * t.medium :=
  Nat.mod_eq_of_lt h

/-- **A product of more than 32 bits makes a time that is far too short.** -/
theorem time_add_le (h : ¬count * t.medium < 2 ^ 32) :
    t.time count + 2 ^ 32 ≤ count * t.medium := by
  rw [time]
  omega

/-- With overflow checks a product is the same as without them, if there is one. -/
theorem checkedTime_eq :
    t.checkedTime count =
      if count * t.medium < 2 ^ 32 then .ok (t.time count) else .error .multiply := by
  rw [checkedTime]
  split
  case isTrue h => rw [time_of_fits h]
  case isFalse => rfl

end Timebase

namespace Image

variable {s : Image} {f : Timing → Nat}

/-- The minimum times in medium timebases, as the image gives them. -/
def counts (s : Image) : Timing where
  tCK := s.byte 12
  tAA := s.byte 16
  tWR := s.byte 17
  tRCD := s.byte 18
  tRRD := s.byte 19
  tRP := s.byte 20
  tRAS := s.byte 21 % 16 * 256 + s.byte 22
  tRC := s.byte 21 / 16 * 256 + s.byte 23
  tRFC := s.byte 25 * 256 + s.byte 24
  tWTR := s.byte 26
  tRTP := s.byte 27
  tFAW := s.byte 28 % 16 * 256 + s.byte 29

/-- The corrections of the times in fine timebases, as bytes without their signs. -/
def corrections (s : Image) : Timing where
  tCK := s.byte 34
  tAA := s.byte 35
  tRCD := s.byte 36
  tRP := s.byte 37
  tRC := s.byte 38

/-- The product for a time has 32 bits. -/
def Fits (s : Image) (f : Timing → Nat) : Prop := f s.counts * s.timebase.medium < 2 ^ 32

instance : Decidable (s.Fits f) :=
  inferInstanceAs (Decidable (f s.counts * s.timebase.medium < 2 ^ 32))

theorem timing_of_mem_uncorrected (hf : f ∈ Timing.uncorrected) :
    f s.timing = s.timebase.time (f s.counts) := by
  simp only [Timing.uncorrected, List.mem_cons, List.not_mem_nil, or_false] at hf
  rcases hf with rfl | rfl | rfl | rfl | rfl | rfl | rfl <;> rfl

theorem timing_of_mem_corrected (hf : f ∈ Timing.corrected) :
    f s.timing = s.timebase.correct (s.timebase.time (f s.counts)) (f s.corrections) := by
  simp only [Timing.corrected, List.mem_cons, List.not_mem_nil, or_false] at hf
  rcases hf with rfl | rfl | rfl | rfl | rfl <;> rfl

/-! ### Counts of eight, twelve and sixteen bits -/

/-- The longest timebase is that of 255 nanoseconds. -/
theorem medium_le (s : Image) : s.timebase.medium ≤ 255000 := by
  have hlt := s.byte_lt 10
  calc
    s.byte 10 * 1000 / s.byte 11 ≤ s.byte 10 * 1000 := Nat.div_le_self _ _
    _ ≤ 255000 := by omega

theorem counts_lt_of_mem_narrow (s : Image) (hf : f ∈ Timing.narrow) : f s.counts < 2 ^ 12 := by
  have hbyte (i : Fin 256) : s.byte i < 2 ^ 12 := by
    have hi := s.byte_lt i
    omega
  have hlow (i j : Fin 256) : s.byte i % 16 * 256 + s.byte j < 2 ^ 12 := by
    have hj := s.byte_lt j
    omega
  have hhigh (i j : Fin 256) : s.byte i / 16 * 256 + s.byte j < 2 ^ 12 := by
    have hi := s.byte_lt i
    have hj := s.byte_lt j
    omega
  simp only [Timing.narrow, List.mem_cons, List.not_mem_nil, or_false] at hf
  rcases hf with rfl | rfl | rfl | rfl | rfl | rfl | rfl | rfl | rfl | rfl | rfl
  exacts [hbyte 12, hbyte 16, hbyte 17, hbyte 18, hbyte 19, hbyte 20, hlow 21 22, hhigh 21 23,
    hbyte 26, hbyte 27, hlow 28 29]

/-- **A product fits, unless it is that for the refresh recovery time.** -/
theorem fits_of_mem_narrow (s : Image) (hf : f ∈ Timing.narrow) : s.Fits f :=
  calc
    f s.counts * s.timebase.medium ≤ 2 ^ 12 * 255000 :=
      Nat.mul_le_mul (Nat.le_of_lt (s.counts_lt_of_mem_narrow hf)) s.medium_le
    _ < 2 ^ 32 := by omega

theorem fits_of_fits_tRFC (hrefresh : s.Fits Timing.tRFC) (hf : f ∈ Timing.times) : s.Fits f := by
  obtain rfl | hnarrow := Timing.mem_times_iff_narrow.1 hf
  · exact hrefresh
  · exact s.fits_of_mem_narrow hnarrow

/-- The times are what the counts come to. -/
structure TimesExactly (s : Image) (t : Timing) : Prop where
  /-- Every product of a count and the timebase has 32 bits; -/
  fits : ∀ f ∈ Timing.times, s.Fits f
  /-- the times that are not corrected are the products, -/
  uncorrected : ∀ f ∈ Timing.uncorrected, f t = f s.counts * s.timebase.medium
  /-- and the others are products that are corrected. -/
  corrected : ∀ f ∈ Timing.corrected,
    f t = s.timebase.correct (f s.counts * s.timebase.medium) (f s.corrections)

theorem timesExactly_timing_iff : s.TimesExactly s.timing ↔ s.Fits Timing.tRFC := by
  constructor
  · intro hexact
    exact hexact.fits _ (by simp [Timing.times])
  · intro hrefresh
    refine ⟨fun f => fits_of_fits_tRFC hrefresh, fun f hf => ?_, fun f hf => ?_⟩
    · have hfits : s.Fits f := fits_of_fits_tRFC hrefresh (Timing.mem_times_iff.2 (.inl hf))
      exact (timing_of_mem_uncorrected hf).trans (Timebase.time_of_fits hfits)
    · have hfits : s.Fits f := fits_of_fits_tRFC hrefresh (Timing.mem_times_iff.2 (.inr hf))
      rw [← Timebase.time_of_fits hfits]
      exact timing_of_mem_corrected hf

/-! ### A build with overflow checks -/

/-- **A build with overflow checks** makes the same times, or stops at the refresh recovery time. -/
theorem timingBy_checkedTime (s : Image) :
    s.timingBy s.timebase.checkedTime =
      if s.Fits Timing.tRFC then .ok s.timing else .error .multiply := by
  have hkept : ∀ f ∈ Timing.narrow,
      s.timebase.checkedTime (f s.counts) = .ok (s.timebase.time (f s.counts)) :=
    fun f hf => Timebase.checkedTime_eq.trans (if_pos (s.fits_of_mem_narrow hf))
  have hrefresh : s.timebase.checkedTime s.counts.tRFC =
      if s.Fits Timing.tRFC then .ok (s.timebase.time s.counts.tRFC) else .error .multiply :=
    Timebase.checkedTime_eq
  -- eight products are made before that for the refresh recovery time, and three after it
  simp only [Timing.narrow, List.forall_mem_cons, counts] at hkept hrefresh
  simp only [timingBy, hkept, hrefresh]
  split
  case isTrue => rfl
  case isFalse => rfl

theorem decodeChecked_of_decode {d : Dimm} (h : s.decode = .ok d) :
    s.decodeChecked = if s.Fits Timing.tRFC then .ok (.ok d) else .error .multiply := by
  obtain ⟨kind, rfl⟩ := exists_kind_of_decode h
  rw [decodeChecked, h]
  simp only [timingBy_checkedTime]
  split
  case isTrue => rfl
  case isFalse => rfl

/-- **The times of a decoded module are what the counts come to** exactly if the product for the
refresh recovery time has 32 bits. If it has more, a build with overflow checks stops at it, and one
without them makes the time too short by four milliseconds or more. -/
theorem timesExactly_iff {d : Dimm} (h : s.decode = .ok d) :
    (s.TimesExactly d.timing ↔ s.Fits Timing.tRFC) ∧
      (s.decodeChecked = if s.Fits Timing.tRFC then .ok (.ok d) else .error .multiply) ∧
      (¬s.Fits Timing.tRFC → d.timing.tRFC + 2 ^ 32 ≤ s.counts.tRFC * s.timebase.medium) := by
  obtain ⟨kind, rfl⟩ := exists_kind_of_decode h
  exact ⟨timesExactly_timing_iff, decodeChecked_of_decode h, Timebase.time_add_le⟩

/-- The image of an unbuffered module with the given timebase and count of the refresh recovery
time, low byte first. -/
def refreshImage (dividend divisor low high : UInt8) : Image :=
  .withCrc (.ofBytes ([0, 0, 0x0B, 2, 0, 0, 0, 1, 3, 0, dividend, divisor, 0, 0, 1] ++
    List.replicate 9 0 ++ [low, high]))

section

variable {dividend divisor low high : UInt8}

theorem byte_refreshImage {i : Fin 256} (h : i.val < 126) :
    (refreshImage dividend divisor low high).byte i =
      (([0, 0, 0x0B, 2, 0, 0, 0, 1, 3, 0, dividend, divisor, 0, 0, 1] ++ List.replicate 9 0 ++
        [low, high] : List UInt8).getD i 0).toNat :=
  byte_withCrc_ofBytes _ h

theorem dividend_refreshImage : (refreshImage dividend divisor low high).byte 10 = dividend.toNat :=
  byte_refreshImage (by decide)

theorem divisor_refreshImage : (refreshImage dividend divisor low high).byte 11 = divisor.toNat :=
  byte_refreshImage (by decide)

theorem medium_refreshImage :
    (refreshImage dividend divisor low high).timebase.medium =
      dividend.toNat * 1000 / divisor.toNat := by
  rw [timebase, mediumDividend, mediumDivisor, dividend_refreshImage, divisor_refreshImage]

theorem counts_refreshImage :
    (refreshImage dividend divisor low high).counts.tRFC = high.toNat * 256 + low.toNat := by
  have hcount (s : Image) : s.counts.tRFC = s.byte 25 * 256 + s.byte 24 := rfl
  rw [hcount, byte_refreshImage (by decide), byte_refreshImage (by decide)]
  rfl

theorem decode_refreshImage (h : divisor ≠ 0) :
    (refreshImage dividend divisor low high).decode =
      .ok ((refreshImage dividend divisor low high).dimm .unbuffered) :=
  decode_withCrc_ofBytes rfl rfl h

theorem fits_refreshImage :
    (refreshImage dividend divisor low high).Fits Timing.tRFC ↔
      (high.toNat * 256 + low.toNat) * (dividend.toNat * 1000 / divisor.toNat) < 2 ^ 32 := by
  rw [Fits, counts_refreshImage, medium_refreshImage]

end

/-- With a timebase of an eighth of a nanosecond all times are what the counts come to. -/
theorem timesExactly_eighth :
    let s := refreshImage 1 8 0x00 0x05
    s.decode = .ok (s.dimm .unbuffered) ∧ s.Fits Timing.tRFC ∧
      s.TimesExactly (s.dimm .unbuffered).timing ∧
      s.decodeChecked = .ok (.ok (s.dimm .unbuffered)) := by
  intro s
  have hdecode : s.decode = .ok (s.dimm .unbuffered) := decode_refreshImage (by decide)
  have hfits : s.Fits Timing.tRFC := fits_refreshImage.2 (by decide)
  obtain ⟨hexact, hmade, -⟩ := timesExactly_iff hdecode
  rw [if_pos hfits] at hmade
  exact ⟨hdecode, hfits, hexact.2 hfits, hmade⟩

/-- **A refresh recovery time of more than four milliseconds** stops a build with overflow checks,
and is taken for a quarter of a microsecond without them. -/
theorem not_timesExactly_longTimebase :
    let s := refreshImage 255 1 0xCC 0x41
    s.decode = .ok (s.dimm .unbuffered) ∧ s.counts.tRFC * s.timebase.medium = 4295220000 ∧
      (s.dimm .unbuffered).timing.tRFC = 252704 ∧
      ¬s.TimesExactly (s.dimm .unbuffered).timing ∧ s.decodeChecked = .error .multiply := by
  intro s
  have hproduct : s.counts.tRFC * s.timebase.medium = 4295220000 := by
    rw [counts_refreshImage, medium_refreshImage]
    rfl
  have hdecode : s.decode = .ok (s.dimm .unbuffered) := decode_refreshImage (by decide)
  have hrefresh : ¬s.Fits Timing.tRFC := by
    rw [Fits, hproduct]
    omega
  refine ⟨hdecode, hproduct, ?_, ?_, ?_⟩
  · exact congrArg (· % 2 ^ 32) hproduct
  · intro hexact
    exact hrefresh (timesExactly_timing_iff.1 hexact)
  · rw [decodeChecked_of_decode hdecode, if_neg hrefresh]

/-! ### The rounding of the timebase -/

/-- A count of the medium timebase in exact picoseconds. -/
def exactPs (s : Image) (count : Nat) : ℚ := count * 1000 * s.byte 10 / s.byte 11

/-- **What is cut off the timebase is missing once for every count.** -/
theorem exactPs_sub (hdivisor : s.byte 11 ≠ 0) (count : Nat) :
    s.exactPs count - (count * s.timebase.medium : Nat) =
      (count * (s.byte 10 * 1000 % s.byte 11) : Nat) / s.byte 11 := by
  have hne : (s.byte 11 : ℚ) ≠ 0 := Nat.cast_ne_zero.2 hdivisor
  have hparts : (s.byte 11 : ℚ) * s.timebase.medium + (s.byte 10 * 1000 % s.byte 11 : Nat) =
      s.byte 10 * 1000 := by
    exact_mod_cast Nat.div_add_mod (s.byte 10 * 1000) (s.byte 11)
  rw [eq_div_iff hne, sub_mul, exactPs, div_mul_cancel₀ _ hne]
  push_cast
  linear_combination (-count : ℚ) * hparts

/-- What the rounding of the timebase makes of a time of so many counts. -/
structure RoundsDown (s : Image) (count ps : Nat) : Prop where
  /-- What is cut off the timebase is missing once for every count, -/
  missing : s.exactPs count - ps = (count * (s.byte 10 * 1000 % s.byte 11) : Nat) / s.byte 11
  /-- so that the time is never too long; -/
  le : (ps : ℚ) ≤ s.exactPs count
  /-- it is short by less than a picosecond for every count, -/
  lt : 0 < count → s.exactPs count - count < ps
  /-- and by less than one altogether exactly if what is missing comes to less than one. -/
  close : s.exactPs count - 1 < ps ↔ count * (s.byte 10 * 1000 % s.byte 11) < s.byte 11
  /-- Nothing is missing if the timebase is a whole number of picoseconds. -/
  whole : s.byte 11 ∣ s.byte 10 * 1000 → (ps : ℚ) = s.exactPs count

theorem roundsDown_mul (hdivisor : s.byte 11 ≠ 0) (count : Nat) :
    s.RoundsDown count (count * s.timebase.medium) := by
  have hpos : (0 : ℚ) < s.byte 11 := Nat.cast_pos.2 (Nat.pos_of_ne_zero hdivisor)
  have hmissing := exactPs_sub hdivisor count
  constructor
  case missing => exact hmissing
  case le =>
    rw [← sub_nonneg, hmissing]
    exact div_nonneg (Nat.cast_nonneg _) hpos.le
  case lt =>
    intro hcount
    have hrest : s.byte 10 * 1000 % s.byte 11 < s.byte 11 :=
      Nat.mod_lt _ (Nat.pos_of_ne_zero hdivisor)
    rw [sub_lt_comm, hmissing, div_lt_iff₀ hpos]
    exact_mod_cast Nat.mul_lt_mul_of_pos_left hrest hcount
  case close => rw [sub_lt_comm, hmissing, div_lt_one hpos, Nat.cast_lt]
  case whole =>
    intro hdvd
    rw [Nat.mod_eq_zero_of_dvd hdvd, Nat.mul_zero, Nat.cast_zero, zero_div] at hmissing
    exact (sub_eq_zero.1 hmissing).symm

/-- **A time that is not corrected is as far from the exact one** as the rounding of the timebase
makes it, if its product has 32 bits. -/
theorem roundsDown_of_decode {d : Dimm} (h : s.decode = .ok d) (hf : f ∈ Timing.uncorrected)
    (hfits : s.Fits f) : s.RoundsDown (f s.counts) (f d.timing) := by
  obtain ⟨htrust, kind, -, rfl⟩ := decode_eq_ok_iff.1 h
  have htime : f (s.dimm kind).timing = f s.counts * s.timebase.medium :=
    (timing_of_mem_uncorrected hf).trans (Timebase.time_of_fits hfits)
  rw [htime]
  exact roundsDown_mul htrust.timebase _

/-- One fifteenth of a nanosecond is two thirds of a picosecond longer than the time that is made of
it. -/
theorem roundsDown_fifteenth :
    let s := refreshImage 1 15 0x01 0x00
    s.decode = .ok (s.dimm .unbuffered) ∧ Timing.tRFC ∈ Timing.uncorrected ∧ s.Fits Timing.tRFC ∧
      s.RoundsDown (s.counts.tRFC) (s.dimm .unbuffered).timing.tRFC := by
  intro s
  have hdecode : s.decode = .ok (s.dimm .unbuffered) := decode_refreshImage (by decide)
  have hmem : Timing.tRFC ∈ Timing.uncorrected := by simp [Timing.uncorrected]
  have hfits : s.Fits Timing.tRFC := fits_refreshImage.2 (by decide)
  exact ⟨hdecode, hmem, hfits, roundsDown_of_decode hdecode hmem hfits⟩

/-- **A refresh recovery time of 160 nanoseconds** in fifteenths of a nanosecond is taken for one of
158.4 nanoseconds. -/
theorem shortened_fifteenth :
    let s := refreshImage 1 15 0x60 0x09
    s.decode = .ok (s.dimm .unbuffered) ∧ s.Fits Timing.tRFC ∧ s.exactPs s.counts.tRFC = 160000 ∧
      (s.dimm .unbuffered).timing.tRFC = 158400 ∧
      ¬s.exactPs s.counts.tRFC - 1 < (s.dimm .unbuffered).timing.tRFC := by
  intro s
  have hcount : s.counts.tRFC = 2400 := counts_refreshImage
  have hmedium : s.timebase.medium = 66 := medium_refreshImage
  have htime : (s.dimm .unbuffered).timing.tRFC = 158400 := by
    have hproduct : s.counts.tRFC * s.timebase.medium = 158400 := by rw [hcount, hmedium]
    exact congrArg (· % 2 ^ 32) hproduct
  have hexact : s.exactPs s.counts.tRFC = 160000 := by
    have hdividend : s.byte 10 = 1 := dividend_refreshImage
    have hdivisor : s.byte 11 = 15 := divisor_refreshImage
    rw [exactPs, hcount, hdividend, hdivisor]
    norm_num
  refine ⟨decode_refreshImage (by decide), fits_refreshImage.2 (by decide), hexact, htime, ?_⟩
  rw [hexact, htime]
  norm_num

end Image

end Spd

end SdramBringup
