/-
**Minimum times that are numbers of clocks.**

Some minimum times of a memory module are given twice, as a number of clocks and as a time: the exit
from powerdown takes three clocks, but no less than 7.5 ns. The longer of the two counts, and the
controller wants it in clocks. For the exit from powerdown the comparison is made in picoseconds, so
that the three clocks are converted into a time and back. The way there takes the clock period in
whole picoseconds, the way back takes the exact data rate, and forgives one picosecond: where three
periods are longer than three clocks by more than that, they come back as four. For the other minimum
times the comparison is made in clocks. What comes out is cut to the width of a field, whatever it is.

This module says at which data rates the registers hold the minimum times, for each field of its own
and for all of them together.

Main definitions:

* `Clock.Overshoots` — some periods are longer than as many clocks;
* `Clock.KeepsMinimums` — **the data rates at which the minimum times are kept**;
* `RegisterFile.HoldsClockMinimums` — what the registers are to hold.

Main results:

* `Clock.cyclesFor_durationPs_eq` — numbers of clocks come back as themselves, or as one more;
* `Synthesis.powerdownExit_eq_iff`, `Synthesis.ckePulse_eq_iff`, `Synthesis.longModeCycle_eq_iff` —
  when a field holds its minimum time;
* `Synthesis.holdsClockMinimums_compute_iff` — **when all of them do**.
-/

import SdramBringup.Proofs.Clock
import SdramBringup.Proofs.ModeRegister
import SdramBringup.Proofs.Options

set_option relaxedAutoImplicit false
set_option autoImplicit false

namespace SdramBringup

open Layout

/-! ### Clocks into a time and back -/

namespace Clock

/-- So many periods in whole picoseconds are longer than as many clocks, by more than the picosecond
that is forgiven. -/
def Overshoots (c : Clock) (n : Nat) : Prop :=
  n * (2 * 10 ^ 12) + c.transfers < n * (c.periodPs * c.transfers)

instance (c : Clock) (n : Nat) : Decidable (c.Overshoots n) := inferInstanceAs (Decidable (_ < _))

section

variable {c : Clock} {n : Nat}

theorem durationPs_of_le (hfits : n * c.periodPs ≤ limit) : c.durationPs n = n * c.periodPs :=
  Nat.min_eq_right hfits

/-- Exact clocks of a time that was given in periods. -/
theorem periods_sub_one_mul : (n * c.periodPs - 1) * c.transfers =
    n * (c.periodPs * c.transfers) - c.transfers := by
  rw [Nat.sub_mul, Nat.one_mul, Nat.mul_assoc]

/-- **A number of clocks comes back as itself or as one more**, up to 900 clocks whose time has 32
bits. -/
theorem cyclesFor_durationPs_bounds (hn : n ≤ 900) (hrate : 466 ≤ c.transfers)
    (hfits : n * c.periodPs ≤ limit) :
    n ≤ c.cyclesFor (c.durationPs n) ∧ c.cyclesFor (c.durationPs n) ≤ n + 1 := by
  obtain ⟨hover, hunder⟩ := periodPs_mul_bounds hrate
  have hover' := Nat.mul_le_mul_left n hover
  have hunder' := Nat.mul_le_mul_left n hunder
  -- half a picosecond for every clock is less than a clock
  have herror : n * c.transfers ≤ 900 * c.transfers := Nat.mul_le_mul_right _ hn
  have hfast := c.transfers_lt
  have hlimit : n < limit := Nat.lt_of_le_of_lt hn (by decide)
  rw [durationPs_of_le hfits]
  constructor
  · cases n with
    | zero => exact Nat.zero_le _
    | succ n =>
        refine Nat.succ_le_of_lt ?_
        rw [lt_cyclesFor_iff (Nat.lt_of_succ_lt hlimit), periods_sub_one_mul, Nat.lt_sub_iff_add_lt]
        linarith
  · rw [cyclesFor_le_iff (Nat.lt_of_le_of_lt (Nat.succ_le_succ hn) (by decide)),
      periods_sub_one_mul, Nat.sub_le_iff_le_add]
    linarith

/-- It comes back as itself **if the periods do not overshoot**, and only then. -/
theorem cyclesFor_durationPs_le_iff (hn : n < limit) (hfits : n * c.periodPs ≤ limit) :
    c.cyclesFor (c.durationPs n) ≤ n ↔ ¬c.Overshoots n := by
  rw [durationPs_of_le hfits, cyclesFor_le_iff hn, periods_sub_one_mul, Overshoots, not_lt,
    Nat.sub_le_iff_le_add]

theorem cyclesFor_durationPs_eq (hn : n ≤ 900) (hrate : 466 ≤ c.transfers)
    (hfits : n * c.periodPs ≤ limit) :
    c.cyclesFor (c.durationPs n) = if c.Overshoots n then n + 1 else n := by
  obtain ⟨hge, hle⟩ := cyclesFor_durationPs_bounds hn hrate hfits
  have hself := cyclesFor_durationPs_le_iff (Nat.lt_of_le_of_lt hn (by decide)) hfits
  split_ifs with hover
  · exact Nat.le_antisymm hle (Nat.lt_of_not_le fun h => hself.1 h hover)
  · exact Nat.le_antisymm (hself.2 hover) hge

/-! ### Three clocks -/

/-- The time of three clocks has 32 bits from 1397 transfers per second on. -/
theorem three_periods_le_limit_iff (hrate : 466 ≤ c.transfers) :
    3 * c.periodPs ≤ limit ↔ 1397 ≤ c.transfers := by
  obtain ⟨hover, hunder⟩ := periodPs_mul_bounds hrate
  rw [limit]
  constructor
  · intro hfits
    have hperiod : c.periodPs * c.transfers ≤ 1431655765 * c.transfers :=
      Nat.mul_le_mul_right _ (by omega)
    omega
  · intro hfast
    by_contra hlong
    have hperiod : 1431655766 * c.transfers ≤ c.periodPs * c.transfers :=
      Nat.mul_le_mul_right _ (by omega)
    omega

/-- Below that, the longest time of 32 bits is as good, down to 932 transfers per second. -/
theorem cyclesFor_limit_eq_three (hlow : 932 ≤ c.transfers) (hhigh : c.transfers < 1397) :
    c.cyclesFor limit = 3 := by
  have hle : c.cyclesFor limit ≤ 3 := by
    rw [cyclesFor_le_iff (by decide), limit]
    omega
  have hgt : 2 < c.cyclesFor limit := by
    rw [lt_cyclesFor_iff (by decide), limit]
    omega
  omega

/-- Slower clocks are so slow that no time of 32 bits takes three of them. -/
theorem cyclesFor_le_two {ps : Nat} (hps : ps ≤ limit) (hslow : c.transfers < 932) :
    c.cyclesFor ps ≤ 2 := by
  have hlongest : c.cyclesFor limit ≤ 2 := by
    rw [cyclesFor_le_iff (by decide), limit]
    omega
  exact (c.cyclesFor_mono hps).trans hlongest

/-- **What becomes of three clocks** on their way into a time and back. -/
theorem cyclesFor_durationPs_three (hrate : 932 ≤ c.transfers) :
    c.cyclesFor (c.durationPs 3) = if 1397 ≤ c.transfers ∧ c.Overshoots 3 then 4 else 3 := by
  have hfits := three_periods_le_limit_iff (c := c) (by omega)
  rcases Nat.lt_or_ge c.transfers 1397 with hslow | hfast
  · rw [durationPs, Nat.min_eq_left (Nat.le_of_not_le fun h => Nat.not_le_of_gt hslow (hfits.1 h)),
      cyclesFor_limit_eq_three hrate hslow, if_neg fun h => Nat.not_le_of_gt hslow h.1]
  · rw [cyclesFor_durationPs_eq (by decide) (by omega) (hfits.2 hfast)]
    simp only [hfast, true_and]

/-- From 800 million transfers per second on three periods are no longer than 7.5 ns. -/
theorem durationPs_three_le (hfast : 800000000 ≤ c.transfers) : c.durationPs 3 ≤ 7500 := by
  obtain ⟨hover, -⟩ := c.periodPs_mul_bounds (by omega)
  have hperiod : c.periodPs ≤ 2500 := by
    by_contra hlong
    have hlonger : 2501 * c.transfers ≤ c.periodPs * c.transfers :=
      Nat.mul_le_mul_right _ (Nat.lt_of_not_le hlong)
    omega
  exact (Nat.min_le_right _ _).trans (by omega)

end

end Clock

/-! ### Field by field -/

/-- A least number in front of a field that is wide enough for it is cut only if the number is too
large. -/
theorem max_mod_eq_iff {n least bound : Nat} (hleast : least < bound) :
    max n least % bound = max least n ↔ n < bound := by
  rw [Nat.max_comm n, Nat.mod_eq_iff_lt (by omega), Nat.max_lt, and_iff_right hleast]

namespace Synthesis

variable (i : Inputs)

/-- The exit from powerdown is the longer of the two after the conversion, too. -/
theorem powerdownExit_eq_max :
    powerdownExit i = max (i.clock.cyclesFor (i.clock.durationPs 3)) (i.cycles 7500) :=
  i.clock.cyclesFor_mono.map_max

/-- **When a field of four bits holds the exit from powerdown**: three clocks, but no less than
7.5 ns. -/
theorem powerdownExit_eq_iff :
    powerdownExit i % 16 = max 3 (i.cycles 7500) ↔
      932 ≤ i.clock.transfers ∧ i.clock.transfers ≤ 4000533404 ∧
        (1397 ≤ i.clock.transfers → i.clock.transfers ≤ 800000000 → ¬i.clock.Overshoots 3) := by
  rcases Nat.lt_or_ge i.clock.transfers 932 with hslower | hrate
  · have hexit : powerdownExit i ≤ 2 :=
      Clock.cyclesFor_le_two (Nat.max_le.2 ⟨Nat.min_le_left _ _, by decide⟩) hslower
    exact iff_of_false (by omega) fun h => Nat.not_le_of_gt hslower h.1
  rw [powerdownExit_eq_max]
  rcases le_or_gt i.clock.transfers 800000000 with hslow | hfast
  · -- the three clocks are the longer of the two
    have htime : i.cycles 7500 ≤ 3 := by
      rw [Inputs.cycles, Clock.cyclesFor_le_iff (by decide)]
      omega
    rw [Clock.cyclesFor_durationPs_three hrate]
    split_ifs with hover
    · exact iff_of_false (by omega) fun h => h.2.2 hover.1 hslow hover.2
    · exact iff_of_true (by omega) ⟨hrate, by omega, fun hfits _ h => hover ⟨hfits, h⟩⟩
  · -- the time is
    have hle : i.clock.cyclesFor (i.clock.durationPs 3) ≤ i.cycles 7500 :=
      i.clock.cyclesFor_mono (Clock.durationPs_three_le hfast.le)
    have hthree : 3 ≤ i.cycles 7500 := by
      rw [Inputs.cycles, Nat.succ_le_iff, Clock.lt_cyclesFor_iff (by decide)]
      omega
    have hfits : i.cycles 7500 ≤ 15 ↔ i.clock.transfers ≤ 4000533404 := by
      rw [Inputs.cycles, Clock.cyclesFor_le_iff (by decide)]
      omega
    rw [Nat.max_eq_right hle, Nat.max_eq_right hthree, Nat.mod_eq_iff_lt (by decide),
      Nat.lt_succ_iff, hfits]
    have hnot : ¬i.clock.transfers ≤ 800000000 := Nat.not_le_of_gt hfast
    simp only [hrate, hnot, true_and, false_implies, implies_true, and_true]

/-- **When a field of three bits holds the pulse of CKE**: three clocks, but no less than the time of
the speed bin. -/
theorem ckePulse_eq_iff :
    max (i.cycles i.clock.minCkePulsePs) 3 % 8 = max 3 (i.cycles i.clock.minCkePulsePs) ↔
      i.clock.transfers ≤ 2800560112 := by
  rw [max_mod_eq_iff (by decide), Nat.lt_succ_iff, Inputs.cycles, Clock.cyclesFor_le_iff (by decide),
    Clock.minCkePulsePs, Clock.megatransfers]
  split_ifs <;> omega

/-- **When a field of five bits holds the long cycle of the mode registers**: twelve clocks, but no
less than 15 ns. -/
theorem longModeCycle_eq_iff :
    max (i.cycles 15000) 12 % 32 = max 12 (i.cycles 15000) ↔ i.clock.transfers ≤ 4133608907 := by
  rw [max_mod_eq_iff (by decide), Nat.lt_succ_iff, Inputs.cycles, Clock.cyclesFor_le_iff (by decide)]
  omega

end Synthesis

/-! ### All fields -/

/-- The data rates at which the registers hold all minimum times that are numbers of clocks. -/
structure Clock.KeepsMinimums (c : Clock) : Prop where
  /-- Three clocks fit a time of 32 bits, -/
  slowest : 932 ≤ c.transfers
  /-- all fields are wide enough, -/
  fastest : c.transfers ≤ 2800560112
  /-- and three clocks come back as three where they are longer than 7.5 ns. -/
  rounded : 1397 ≤ c.transfers → c.transfers ≤ 800000000 → ¬c.Overshoots 3

instance (c : Clock) : Decidable c.KeepsMinimums :=
  decidable_of_iff (932 ≤ c.transfers ∧ c.transfers ≤ 2800560112 ∧
      (1397 ≤ c.transfers → c.transfers ≤ 800000000 → ¬c.Overshoots 3))
    ⟨fun h => ⟨h.1, h.2.1, h.2.2⟩, fun h => ⟨h.slowest, h.fastest, h.rounded⟩⟩

open Synthesis in
/-- What the registers are to hold of the minimum times that are numbers of clocks. -/
structure RegisterFile.HoldsClockMinimums (f : RegisterFile) (i : Inputs) : Prop where
  /-- The exit from active powerdown takes three clocks, but no less than 7.5 ns, -/
  activeExit : Timing0.activePowerdownExit.get f.timing0 = max 3 (i.cycles 7500)
  /-- and so does that from precharge powerdown. -/
  prechargeExit : Timing0.prechargePowerdownExit.get f.timing0 = max 3 (i.cycles 7500)
  /-- A pulse of CKE takes three clocks, but no less than the time of the speed bin. -/
  ckePulse : Timing2.ckePulse.get f.timing2 = max 3 (i.cycles i.clock.minCkePulsePs)
  /-- On later controllers the cycle of the mode registers takes twelve clocks, but no less than
  15 ns. -/
  modeCycle : Revision.longModeCycle ≤ i.revision →
    Timing0.modeRegisterCycle.get f.timing0 = max 12 (i.cycles 15000)

namespace Options

/-- No board changes the pulse of CKE. -/
theorem ckePulsePs_derive (clock : Clock) (common : CommonTiming) (dimms : List Dimm) (ctrl : Nat)
    (platform : Platform) (source : InterleaveSource) (board : Option Board) :
    (derive clock common dimms ctrl platform source board).value.ckePulsePs =
      clock.minCkePulsePs :=
  derive_of_preserved clock common dimms ctrl platform source board (fun _ _ _ => rfl) fun o =>
    Board.apply_of_preserved board o dimms clock ctrl (fun _ _ => rfl) fun _ _ => rfl

end Options

namespace Synthesis

/-- A field of the turnarounds and exits reads back. -/
theorem get_timing0 (i : Inputs) {f : Field} {v : Nat} {parts : List (Field × Nat)}
    (hparts : timing0 i = assemble parts) (hfields : parts.map (·.1) = Timing0.layout.fields)
    (hp : (f, v) ∈ parts) : f.get (timing0 i) = v % 2 ^ f.width :=
  Layout.get_assemble (l := Timing0.layout) (by decide) hparts hfields hp

/-- The registers hold the minimum times **exactly at the data rates that keep them**. -/
theorem holdsClockMinimums_registers_iff {i : Inputs}
    (hpulse : i.options.ckePulsePs = i.clock.minCkePulsePs) :
    (registers i).HoldsClockMinimums i ↔ i.clock.KeepsMinimums := by
  have hactive : Timing0.activePowerdownExit.get (registers i).timing0 = powerdownExit i % 16 :=
    get_timing0 i rfl rfl (by simp)
  have hprecharge : Timing0.prechargePowerdownExit.get (registers i).timing0 =
      powerdownExit i % 16 := get_timing0 i rfl rfl (by simp)
  have hcke : Timing2.ckePulse.get (registers i).timing2 =
      max (i.cycles i.options.ckePulsePs) 3 % 8 :=
    Layout.get_assemble (l := Timing2.layout) (by decide) rfl rfl (by simp)
  have hcycle : Timing0.modeRegisterCycle.get (registers i).timing0 = modeRegisterCycle i % 32 :=
    get_timing0 i rfl rfl (by simp)
  rw [hpulse] at hcke
  constructor
  · intro h
    obtain ⟨hslowest, -, hrounded⟩ :=
      (powerdownExit_eq_iff i).1 (hactive.symm.trans h.activeExit)
    exact ⟨hslowest, (ckePulse_eq_iff i).1 (hcke.symm.trans h.ckePulse), hrounded⟩
  · intro h
    have hfastest := h.fastest
    have hexit := (powerdownExit_eq_iff i).2 ⟨h.slowest, by omega, h.rounded⟩
    refine ⟨hactive.trans hexit, hprecharge.trans hexit,
      hcke.trans ((ckePulse_eq_iff i).2 hfastest), fun hrevision => hcycle.trans ?_⟩
    rw [modeRegisterCycle, if_pos hrevision]
    exact (longModeCycle_eq_iff i).2 (by omega)

/-- **When the registers of a controller hold the minimum times**, with the options that are derived
for it. -/
theorem holdsClockMinimums_compute_iff {i : Inputs} {dimms : List Dimm} {ctrl : Nat}
    {platform : Platform} {source : InterleaveSource} {board : Option Board}
    (hcount : i.common.dimmCount ≠ 0)
    (hoptions : i.options =
      (Options.derive i.clock i.common dimms ctrl platform source board).value) :
    ∃ f, (compute i false).value = .ok f ∧ (f.HoldsClockMinimums i ↔ i.clock.KeepsMinimums) := by
  refine ⟨registers i, (value_compute_eq_ok_iff i).2 ⟨hcount, rfl⟩,
    holdsClockMinimums_registers_iff ?_⟩
  rw [hoptions, Options.ckePulsePs_derive]

/-- A controller with one module that supports 5 to 16 clocks, and with nothing asked for. -/
def clocked (rate : UInt32) : Inputs :=
  let clock : Clock := ⟨rate⟩
  let dimms := [CommonTiming.reading 13750 0x1FFE0]
  let common := (CommonTiming.reconcile clock dimms Platform.singleSlot 0).value.toOption.getD {}
  { clock, common, dimms
    options :=
      (Options.derive clock common dimms 0 Platform.singleSlot {} (none : Option Board)).value
    region := {}
    widthShift := 0
    revision := Revision.longModeCycle }

/-- At 1600 million transfers per second all minimum times are kept. -/
theorem holdsClockMinimums_compute_1600 :
    let i := clocked 1600000000
    (CommonTiming.reconcile i.clock i.dimms Platform.singleSlot 0).value = .ok i.common ∧
      i.common.dimmCount ≠ 0 ∧
      i.options =
        (Options.derive i.clock i.common i.dimms 0 Platform.singleSlot {}
          (none : Option Board)).value ∧
      ∃ f, (compute i false).value = .ok f ∧ f.HoldsClockMinimums i ∧
        Timing0.activePowerdownExit.get f.timing0 = 6 ∧ Timing2.ckePulse.get f.timing2 = 4 ∧
        Timing0.modeRegisterCycle.get f.timing0 = 12 := by
  intro i
  have hok : (CommonTiming.reconcile i.clock i.dimms Platform.singleSlot 0).value = .ok i.common := by
    decide
  have hcount : i.common.dimmCount ≠ 0 := by decide
  have hoptions : i.options =
      (Options.derive i.clock i.common i.dimms 0 Platform.singleSlot {}
        (none : Option Board)).value := rfl
  obtain ⟨f, hf, hiff⟩ := holdsClockMinimums_compute_iff hcount hoptions
  have hholds := hiff.2 (by decide)
  exact ⟨hok, hcount, hoptions, f, hf, hholds, hholds.activeExit.trans (by decide),
    hholds.ckePulse.trans (by decide), (hholds.modeCycle (by decide)).trans (by decide)⟩

/-- **At 667 million transfers per second the exits take four clocks**, although three clocks are
longer than 7.5 ns: the period of 2998.5 ps is rounded up to 2999 ps. -/
theorem not_holdsClockMinimums_667 :
    let i := clocked 667000000
    (CommonTiming.reconcile i.clock i.dimms Platform.singleSlot 0).value = .ok i.common ∧
      i.common.dimmCount = 1 ∧ (compute i false).value = .ok (registers i) ∧
      Timing0.activePowerdownExit.get (registers i).timing0 = 4 ∧
      Timing0.prechargePowerdownExit.get (registers i).timing0 = 4 ∧
      max 3 (i.cycles 7500) = 3 ∧ ¬(registers i).HoldsClockMinimums i := by
  intro i
  have hcompute : (CommonTiming.reconcile i.clock i.dimms Platform.singleSlot 0).value =
        .ok i.common ∧
      i.common.dimmCount = 1 ∧ (compute i false).value = .ok (registers i) := by
    decide +kernel
  have hactive : Timing0.activePowerdownExit.get (registers i).timing0 = 4 := by decide +kernel
  have hprecharge : Timing0.prechargePowerdownExit.get (registers i).timing0 = 4 := by
    decide +kernel
  have hthree : max 3 (i.cycles 7500) = 3 := by decide
  refine ⟨hcompute.1, hcompute.2.1, hcompute.2.2, hactive, hprecharge, hthree, fun hholds => ?_⟩
  have hfour : 4 = 3 := hactive.symm.trans (hholds.activeExit.trans hthree)
  omega

end Synthesis

end SdramBringup
