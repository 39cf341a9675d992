/-
**What the modules are told, and what the controller counts.**

A module learns its CAS latency and its write recovery from mode register 0, which the controller
sends during initialization; the controller itself has both in its timing registers. The two have to
be the same numbers of clocks. They are computed apart. For the CAS latency the mode register has a
table of codes, and the choice of the latency does not know how far that table goes. For the write
recovery the mode register divides by the clock period in whole picoseconds, while the controller
uses the exact data rate and forgives a picosecond.

Main definitions:

* `standardLatency?`, `standardRecovery` — what the codes of the standard stand for;
* `RegisterFile.mode0` — mode register 0, as it is sent to a chip select;
* `RegisterFile.moduleLatency?`, `RegisterFile.moduleRecovery` — what the modules are told;
* `RegisterFile.controllerLatency` — the read latency that the controller counts;
* `RegisterFile.TellsLatency` — **what the registers say of a CAS latency**.

Main results:

* `standardLatency?_modeCasLatencyCode`, `standardRecovery_modeWriteRecoveryCode` — the tables of
  codes;
* `Synthesis.mode0_registers` — every chip select is sent the same mode register 0;
* `Synthesis.tellsLatency_compute` — **controller and modules agree on the CAS latency** if it has a
  code;
* `Synthesis.moduleRecovery_eq_iff` — **when they agree on the write recovery**.
-/

import Mathlib.Algebra.Ring.Nat
import Mathlib.Data.List.GetD
import SdramBringup.Proofs.Configuration
import SdramBringup.Proofs.RefreshInterval
import SdramBringup.Proofs.WriteRecovery

set_option relaxedAutoImplicit false
set_option autoImplicit false

namespace SdramBringup

open Layout

/-! ### The codes of the standard -/

/-- The CAS latency that three high bits and a low one stand for: 5 to 11 without the low bit, 12 to
16 with it. All other codes are reserved. -/
def standardLatency? (high low : Nat) : Option Nat :=
  if low = 0 then if high = 0 then none else some (high + 4)
  else if high ≤ 4 then some (high + 12) else none

/-- The write recovery that a code stands for: 5 to 8, then 10 to 14 in steps of two, and 16. -/
def standardRecovery (code : Nat) : Nat :=
  if code = 0 then 16 else if code ≤ 4 then code + 4 else 2 * code

/-- The latencies that have a code. -/
def Encodable (latency : Nat) : Prop := 5 ≤ latency ∧ latency ≤ 16

instance (latency : Nat) : Decidable (Encodable latency) :=
  inferInstanceAs (Decidable (_ ∧ _))

open Synthesis

/-- All other latencies share one code. -/
theorem modeCasLatencyCode_of_not_encodable {latency : Nat} (h : ¬Encodable latency) :
    modeCasLatencyCode latency = 0 := by
  rw [modeCasLatencyCode]
  split
  case isTrue => rfl
  case isFalse hlow =>
    have hhigh : 16 < latency := by
      by_contra hle
      exact h ⟨Nat.le_of_not_lt hlow, Nat.le_of_not_lt hle⟩
    have hbeyond : modeCasLatencyCodes.length ≤ latency - 5 := Nat.le_sub_of_add_le hhigh
    exact List.getD_eq_default _ _ hbeyond

/-- The table of codes has every latency from 5 to 16, and the reserved code for all others. -/
theorem standardLatency?_modeCasLatencyCode (latency : Nat) :
    standardLatency? (modeCasLatencyCode latency / 2 % 8) (modeCasLatencyCode latency % 2) =
      if Encodable latency then some latency else none := by
  by_cases hcode : Encodable latency
  · obtain ⟨hge, hle⟩ := hcode
    interval_cases latency <;> decide
  · rw [if_neg hcode, modeCasLatencyCode_of_not_encodable hcode]
    rfl

/-- The table of codes rounds up to the next write recovery, from 5 clocks on and up to 16. -/
theorem standardRecovery_modeWriteRecoveryCode (clocks : Nat) :
    standardRecovery (modeWriteRecoveryCode clocks % 8) =
      nextWriteRecovery (max 5 (min clocks 16)) := by
  rcases Nat.lt_or_ge 16 clocks with hhigh | hhigh
  · have hbeyond : modeWriteRecoveryCodes.length ≤ clocks - 5 := Nat.le_sub_of_add_le hhigh
    have hcode : modeWriteRecoveryCode clocks = 0 := List.getD_eq_default _ _ hbeyond
    rw [hcode, Nat.min_eq_right (Nat.le_of_lt hhigh)]
    decide
  · interval_cases clocks <;> decide

/-! ### Mode register 0 -/

namespace RegisterFile

/-- The word that holds mode registers 1 and 0 of a chip select. -/
def modeWord (f : RegisterFile) : Fin 4 → Word
  | 0 => f.mode
  | 1 => f.modeVariants[0]
  | 2 => f.modeVariants[2]
  | 3 => f.modeVariants[4]

/-- Mode register 0 of a chip select. -/
def mode0 (f : RegisterFile) (cs : Fin 4) : BitVec 16 :=
  BitVec.ofNat 16 (ModePair.low.get (f.modeWord cs))

/-- The CAS latency that the modules of a chip select are told, if the code stands for one. -/
def moduleLatency? (f : RegisterFile) (cs : Fin 4) : Option Nat :=
  standardLatency? (Mode0.casLatencyHigh.get (f.mode0 cs)) (Mode0.casLatencyLow.get (f.mode0 cs))

/-- The write recovery that the modules of a chip select are told. -/
def moduleRecovery (f : RegisterFile) (cs : Fin 4) : Nat :=
  standardRecovery (Mode0.writeRecovery.get (f.mode0 cs))

/-- The read latency that the controller counts: half clocks less one, or whole clocks less one with
a bit below them on later revisions. -/
def controllerLatency (f : RegisterFile) (revision : Nat) : Nat :=
  if revision ≤ Revision.uniqueModes then (SplitField.casLatency.get f + 1) / 2
  else SplitField.casLatency.get f / 2 + 1

end RegisterFile

namespace Synthesis

/-- The chip select has a word for its mode registers: the first one always, the others on later
revisions. -/
def Inputs.HasModeWord (i : Inputs) (cs : Fin 4) : Prop := cs = 0 ∨ i.uniqueModes = true

instance (i : Inputs) (cs : Fin 4) : Decidable (i.HasModeWord cs) :=
  inferInstanceAs (Decidable (_ ∨ _))

theorem modeVariants_of_uniqueModes {i : Inputs} (h : i.uniqueModes = true) :
    (registers i).modeVariants =
      #v[(modePairs i 1).1, (modePairs i 1).2, (modePairs i 2).1, (modePairs i 2).2,
        (modePairs i 3).1, (modePairs i 3).2] :=
  if_pos h

theorem modeWord_registers {i : Inputs} {cs : Fin 4} (h : i.HasModeWord cs) :
    (registers i).modeWord cs = (modePairs i cs).1 := by
  rcases h with rfl | hunique
  · rfl
  · match cs with
    | 0 => rfl
    | 1 | 2 | 3 =>
        rw [RegisterFile.modeWord, modeVariants_of_uniqueModes hunique]
        rfl

/-- Two mode registers in one word are taken apart again. -/
theorem halves_pair (high low : BitVec 16) :
    let word : Word := assemble [(ModePair.high, high.toNat), (ModePair.low, low.toNat)]
    BitVec.ofNat 16 (ModePair.high.get word) = high ∧
      BitVec.ofNat 16 (ModePair.low.get word) = low := by
  intro word
  have hhigh : ModePair.high.get word = high.toNat % 2 ^ 16 :=
    Layout.get_assemble (l := ModePair.layout) (by decide) rfl rfl (by simp)
  have hlow : ModePair.low.get word = low.toNat % 2 ^ 16 :=
    Layout.get_assemble (l := ModePair.layout) (by decide) rfl rfl (by simp)
  rw [hhigh, hlow, Nat.mod_eq_of_lt high.isLt, Nat.mod_eq_of_lt low.isLt]
  simp only [BitVec.ofNat_toNat, BitVec.setWidth_eq, and_self]

/-- **Every chip select is sent the same mode register 0.** -/
theorem mode0_registers {i : Inputs} {cs : Fin 4} (h : i.HasModeWord cs) :
    (registers i).mode0 cs = mode0 i := by
  rw [RegisterFile.mode0, modeWord_registers h]
  exact (halves_pair _ (mode0 i)).2

/-- A field of mode register 0 that was written reads back. -/
theorem get_mode0 {i : Inputs} {f : Field} {v : Nat} {parts : List (Field × Nat)}
    (hparts : mode0 i = assemble parts)
    (hfields : parts.map (·.1) =
      [Mode0.dllOn, Mode0.writeRecovery, Mode0.casLatencyHigh, Mode0.casLatencyLow,
        Mode0.burstLength])
    (hp : (f, v) ∈ parts) : f.get (mode0 i) = v % 2 ^ f.width :=
  get_of_eq_assemble (by decide) (by decide) hparts hfields hp

/-! ### The CAS latency -/

theorem casLatencyHigh_registers {i : Inputs} {cs : Fin 4} (h : i.HasModeWord cs) :
    Mode0.casLatencyHigh.get ((registers i).mode0 cs) =
      modeCasLatencyCode i.casLatency / 2 % 8 := by
  rw [mode0_registers h]
  exact get_mode0 rfl rfl (by simp)

theorem casLatencyLow_registers {i : Inputs} {cs : Fin 4} (h : i.HasModeWord cs) :
    Mode0.casLatencyLow.get ((registers i).mode0 cs) = modeCasLatencyCode i.casLatency % 2 := by
  rw [mode0_registers h, ← Nat.mod_mod]
  exact get_mode0 rfl rfl (by simp)

theorem moduleLatency?_registers {i : Inputs} {cs : Fin 4} (h : i.HasModeWord cs) :
    (registers i).moduleLatency? cs =
      if Encodable i.casLatency then some i.casLatency else none := by
  rw [RegisterFile.moduleLatency?, casLatencyHigh_registers h, casLatencyLow_registers h,
    standardLatency?_modeCasLatencyCode]

theorem controllerLatency_registers {i : Inputs} (hpos : 1 ≤ i.casLatency)
    (hle : i.casLatency ≤ 32) : (registers i).controllerLatency i.revision = i.casLatency := by
  rw [RegisterFile.controllerLatency, get_casLatency i hpos hle]
  split <;> omega

/-- A latency without a code is noted. -/
theorem modeCasLatency_mem_notes {i : Inputs} :
    .modeCasLatency i.casLatency ∈ notes i ↔ ¬Encodable i.casLatency := by
  simp only [notes, modeNotes, illegal_registers, Encodable, List.append_nil, List.mem_append]
  split_ifs <;> simp <;> omega

end Synthesis

/-- What the registers and the log say of a CAS latency. -/
structure RegisterFile.TellsLatency (f : RegisterFile) (log : List LogLine) (i : Inputs)
    (latency : Nat) : Prop where
  /-- The controller counts the latency, -/
  controller : 1 ≤ latency → f.controllerLatency i.revision = latency
  /-- as earlier revisions do in half clocks and later ones in whole clocks. -/
  field : 1 ≤ latency → SplitField.casLatency.get f =
    if i.revision ≤ Revision.uniqueModes then 2 * latency - 1 else 2 * latency - 2
  /-- The modules of every chip select are told the same latency if it has a code, and else none. -/
  modules : ∀ cs, i.HasModeWord cs →
    f.moduleLatency? cs = if Encodable latency then some latency else none
  /-- None is the reserved code, whose bits are all zero. -/
  reserved : ¬Encodable latency → ∀ cs, i.HasModeWord cs →
    Mode0.casLatencyHigh.get (f.mode0 cs) = 0 ∧ Mode0.casLatencyLow.get (f.mode0 cs) = 0
  /-- The log tells when they are told none. -/
  logged : .modeCasLatency latency ∈ log ↔ ¬Encodable latency

namespace Synthesis

/-- The registers of a controller tell the latency in use. -/
theorem tellsLatency_registers {i : Inputs} (hle : i.casLatency ≤ 32) :
    (registers i).TellsLatency (notes i) i i.casLatency where
  controller hpos := controllerLatency_registers hpos hle
  field hpos := get_casLatency i hpos hle
  modules _ h := moduleLatency?_registers h
  reserved hcode _ h := by
    rw [casLatencyHigh_registers h, casLatencyLow_registers h,
      modeCasLatencyCode_of_not_encodable hcode]
    exact ⟨rfl, rfl⟩
  logged := modeCasLatency_mem_notes

end Synthesis

namespace CommonTiming

open CasLatency

/-- The latency of a common timing is one that all modules support. -/
theorem shared_of_reconcile {clock : Clock} {ds : List Dimm} {p : Platform} {ctrl : Nat}
    {common : CommonTiming} (h : (reconcile clock ds p ctrl).value = .ok common)
    (hne : counted p ds ≠ []) : Shared (counted p ds) common.casLatency :=
  (((chooses_counted hne clock ctrl).ok_iff common.casLatency).1 (by rw [h]; rfl)).2.1.shared

end CommonTiming

namespace Synthesis

/-- **Controller and modules agree on the CAS latency** of a common timing if it has a code. -/
theorem tellsLatency_compute {i : Inputs} {ds : List Dimm} {p : Platform} {ctrl : Nat}
    (h : (CommonTiming.reconcile i.clock ds p ctrl).value = .ok i.common)
    (hcount : i.common.dimmCount ≠ 0) (hoptions : i.options.casLatency = none) :
    (∃ f, (compute i false).value = .ok f ∧
        f.TellsLatency (compute i false).log i i.common.casLatency) ∧
      (Described (CommonTiming.counted p ds) →
        4 ≤ i.common.casLatency ∧ i.common.casLatency ≤ 19) := by
  obtain ⟨hne, -⟩ := CommonTiming.exists_eq_of_reconcile h hcount
  have hshared := CommonTiming.shared_of_reconcile h hne
  have hlatency : i.casLatency = i.common.casLatency := by
    rw [Inputs.casLatency, hoptions, Option.getD_none]
  constructor
  · refine ⟨registers i, by simp [compute, hcount], ?_⟩
    rw [show (compute i false).log = notes i by simp [compute, hcount], ← hlatency]
    exact tellsLatency_registers (by rw [hlatency]; exact Nat.le_of_lt hshared.1)
  · intro hdescribed
    obtain ⟨d, hd⟩ := List.exists_mem_of_ne_nil _ hne
    obtain ⟨image, hdecode⟩ := hdescribed d hd
    exact (Spd.Image.wellFormed_of_decode hdecode).casLatencies _ (hshared.2 d hd)

/-- A controller with one module whose slowest read takes 13.75 ns, at 1600 million transfers per
second. -/
def reader (latencies : BitVec 32) : Inputs where
  clock := ⟨1600000000⟩
  options := {}
  common :=
    (CommonTiming.reconcile ⟨1600000000⟩ [CommonTiming.reading 13750 latencies]
      Platform.singleSlot 0).value.toOption.getD {}
  region := {}
  dimms := []
  widthShift := 0
  revision := 0x40502

/-- A module that supports 11 clocks is told so, and the controller counts as many. -/
theorem tellsLatency_compute_eleven :
    let i := reader 0x800
    (CommonTiming.reconcile i.clock [CommonTiming.reading 13750 0x800] Platform.singleSlot 0).value =
        .ok i.common ∧
      i.common.dimmCount ≠ 0 ∧ i.options.casLatency = none ∧
      ∃ f, (compute i false).value = .ok f ∧ f.controllerLatency i.revision = 11 ∧
        ∀ cs, f.moduleLatency? cs = some 11 := by
  intro i
  have hok : (CommonTiming.reconcile i.clock [CommonTiming.reading 13750 0x800]
      Platform.singleSlot 0).value = .ok i.common := by decide
  have hcount : i.common.dimmCount ≠ 0 := by decide
  have hlatency : i.common.casLatency = 11 := by decide
  obtain ⟨⟨f, hf, htells⟩, -⟩ := tellsLatency_compute hok hcount rfl
  rw [hlatency] at htells
  exact ⟨hok, hcount, rfl, f, hf, htells.controller (by decide), fun cs =>
    htells.modules cs (.inr (by decide))⟩

/-- **A module that supports 17 clocks only is told no latency**, while the controller counts 17. -/
theorem not_told_seventeen :
    let i := reader 0x20000
    (CommonTiming.reconcile i.clock [CommonTiming.reading 13750 0x20000]
        Platform.singleSlot 0).value = .ok i.common ∧
      i.common.dimmCount = 1 ∧ i.common.casLatency = 17 ∧ i.options.casLatency = none ∧
      (compute i false).value = .ok (registers i) ∧
      (registers i).controllerLatency i.revision = 17 ∧
      (registers i).moduleLatency? 0 = none := by
  decide +kernel

/-! ### The write recovery -/

theorem moduleRecovery_registers {i : Inputs} {cs : Fin 4} (h : i.HasModeWord cs) :
    (registers i).moduleRecovery cs = nextWriteRecovery (max 5 (min (modeWriteRecovery i) 16)) := by
  have hcode : Mode0.writeRecovery.get (mode0 i) =
      modeWriteRecoveryCode (modeWriteRecovery i) % 8 := get_mode0 rfl rfl (by simp)
  rw [RegisterFile.moduleRecovery, mode0_registers h, hcode,
    standardRecovery_modeWriteRecoveryCode]

/-- The write recoveries that mode register 0 has codes for, without the longest one. -/
def shortRecoveries : List Nat := [5, 6, 7, 8, 10, 12, 14]

/-- Within the range of the codes, two numbers of clocks are rounded alike if they are on the same
side of each of the shorter write recoveries, and only then. -/
theorem nextWriteRecovery_clamped_eq_iff {m n : Nat} (hlow : 5 ≤ n) (hhigh : n ≤ 16) :
    nextWriteRecovery (max 5 (min m 16)) = nextWriteRecovery n ↔
      ∀ r ∈ shortRecoveries, (n ≤ r ↔ m ≤ r) := by
  rw [nextWriteRecovery_eq_iff (by omega) hhigh]
  simp only [writeRecoveries, shortRecoveries, List.forall_mem_cons, List.not_mem_nil,
    false_implies, implies_true, and_true]
  omega

/-- The mode register divides by the period in whole picoseconds. -/
theorem modeWriteRecovery_le_iff {i : Inputs} (hperiod : i.clock.periodPs ≠ 0) {r : Nat} :
    modeWriteRecovery i ≤ r ↔ i.common.timing.tWR ≤ r * i.clock.periodPs := by
  have hmax : max i.clock.periodPs 1 = i.clock.periodPs :=
    Nat.max_eq_left (Nat.one_le_iff_ne_zero.2 hperiod)
  have hleast : modeWriteRecovery i =
      CasLatency.least i.clock.periodPs i.common.timing.tWR := by
    rw [modeWriteRecovery, hmax, CasLatency.least]
  rw [hleast, CasLatency.least_le_iff hperiod]

/-- **When controller and modules agree on the write recovery**: exactly if for every shorter write
recovery the time in exact clocks, with one picosecond forgiven, and the time in whole picoseconds
per clock tell the same of whether it is enough. They can tell different things only where the time
is within some picoseconds of that many periods. -/
theorem moduleRecovery_eq_iff {i : Inputs} {cs : Fin 4} (hword : i.HasModeWord cs)
    (hps : i.common.timing.tWR < 2 ^ 32) (hlow : 5 ≤ writeRecovery i)
    (hhigh : writeRecovery i ≤ 16) :
    ((registers i).moduleRecovery cs = nextWriteRecovery (writeRecovery i) ↔
        ∀ r ∈ shortRecoveries,
          ((i.common.timing.tWR - 1) * i.clock.transfers ≤ r * (2 * 10 ^ 12) ↔
            i.common.timing.tWR ≤ r * i.clock.periodPs)) ∧
      ((∀ r ∈ shortRecoveries, i.common.timing.tWR + 6 ≤ r * i.clock.periodPs ∨
          r * i.clock.periodPs + 8 < i.common.timing.tWR) →
        (registers i).moduleRecovery cs = nextWriteRecovery (writeRecovery i)) := by
  have hrate : 466 ≤ i.clock.transfers := Clock.le_transfers_of_cyclesFor hps hlow
  have hperiod := Clock.periodPs_ne_zero hrate
  have hpos : 0 < i.common.timing.tWR := by
    refine Nat.pos_of_ne_zero fun hzero => ?_
    rw [writeRecovery, Inputs.cycles, hzero, Clock.cyclesFor_zero] at hlow
    exact absurd hlow (by decide)
  have hlongest : ∀ r ∈ shortRecoveries, r ≤ 14 := by decide
  have hexact : (registers i).moduleRecovery cs = nextWriteRecovery (writeRecovery i) ↔
      ∀ r ∈ shortRecoveries,
        ((i.common.timing.tWR - 1) * i.clock.transfers ≤ r * (2 * 10 ^ 12) ↔
          i.common.timing.tWR ≤ r * i.clock.periodPs) := by
    rw [moduleRecovery_registers hword, nextWriteRecovery_clamped_eq_iff hlow hhigh]
    refine forall₂_congr fun r hr => iff_congr ?_ (modeWriteRecovery_le_iff hperiod)
    exact Clock.cyclesFor_le_iff (Nat.lt_of_le_of_lt (hlongest r hr) (by decide))
  refine ⟨hexact, fun hapart => hexact.2 fun r hr => ?_⟩
  exact Clock.enough_iff_of_apart hpos hrate (hlongest r hr) (hapart r hr)

/-- At 1600 million transfers per second a period is a whole number of picoseconds, and the modules
are told the 12 clocks that the controller counts. -/
theorem moduleRecovery_chopped1600 :
    writeRecovery chopped1600 = 12 ∧ (registers chopped1600).moduleRecovery 0 = 12 := by
  have hclocks : writeRecovery chopped1600 = 12 := by decide
  refine ⟨hclocks, ?_⟩
  rw [(moduleRecovery_eq_iff (i := chopped1600) (.inl rfl) (by decide) (by decide)
    (by decide)).1.2 (by decide), hclocks]
  decide

/-- The same module at 1866 million transfers per second, where a period is 1071.4 ps. -/
def chopped1866 : Inputs := { chopped1600 with clock := ⟨1866666666⟩ }

/-- **At 1866 million transfers per second the modules are told 16 clocks**, while the controller
counts 14: 15 ns are no more than 14 periods, but more than 14 times 1071 ps. -/
theorem moduleRecovery_chopped1866 :
    writeRecovery chopped1866 = 14 ∧ nextWriteRecovery (writeRecovery chopped1866) = 14 ∧
      chopped1866.clock.periodPs = 1071 ∧ (registers chopped1866).moduleRecovery 0 = 16 := by
  decide +kernel

end Synthesis

end SdramBringup
