/-
**Intervals that two registers hold together.**

A field of four bits is too short for the intervals of slow modules, so that a second register holds
the bits above it: a single bit for the shorter intervals, more for the longer ones. The two halves
are computed apart, and not by the same formula: a single bit says whether there are sixteen clocks
at all, and the high bits of the read latency are always those of the half clocks that earlier
controllers count, whatever the low ones are. This module puts the halves together again and says up
to where they give back the clocks they were computed from.

Main definitions:

* `SplitField` — a low field of the one register with the bits above it in the other;
* `RegisterFile.HoldsIntervals` — **what the two registers say**, field by field.

Main results:

* `Synthesis.get_timing1`, `Synthesis.get_timing3` — single fields of the two registers;
* `Synthesis.get_splitField` — the two halves of a number give it back;
* `Synthesis.get_casLatency` — the read latency, as each revision counts it;
* `Synthesis.holdsIntervals_registers` — **the intervals read back** as long as they fit.
-/

import SdramBringup.Proofs.Field
import SdramBringup.Synthesis.Registers

set_option relaxedAutoImplicit false
set_option autoImplicit false

namespace SdramBringup

open Layout

/-! ### Split fields -/

/-- A number in two registers: the field with its low four bits, and that with the bits above. -/
structure SplitField where
  high : Field
  low : Field

namespace SplitField

/-- The number in the two registers. -/
def get (s : SplitField) (f : RegisterFile) : Nat :=
  16 * s.high.get f.timing3 + s.low.get f.timing1

def prechargeToActivate : SplitField := ⟨Timing3.prechargeToActivate, Timing1.prechargeToActivate⟩

def activateToPrecharge : SplitField := ⟨Timing3.activateToPrecharge, Timing1.activateToPrecharge⟩

def activateToAccess : SplitField := ⟨Timing3.activateToAccess, Timing1.activateToAccess⟩

def refreshRecovery : SplitField := ⟨Timing3.refreshRecovery, Timing1.refreshRecovery⟩

def casLatency : SplitField := ⟨Timing3.casLatency, Timing1.casLatency⟩

end SplitField

/-! ### Single fields -/

namespace Synthesis

variable (i : Inputs)

/-- A field of the register with the low bits reads back. -/
theorem get_timing1 {f : Field} {v : Nat} {parts : List (Field × Nat)}
    (hparts : timing1 i = assemble parts) (hfields : parts.map (·.1) = Timing1.layout.fields)
    (hp : (f, v) ∈ parts) : f.get (timing1 i) = v % 2 ^ f.width :=
  Layout.get_assemble (l := Timing1.layout) (by decide) hparts hfields hp

/-- A field of the register with the high bits reads back. -/
theorem get_timing3 {f : Field} {v : Nat} {parts : List (Field × Nat)}
    (hparts : timing3 i = assemble parts) (hfields : parts.map (·.1) = Timing3.layout.fields)
    (hp : (f, v) ∈ parts) : f.get (timing3 i) = v % 2 ^ f.width :=
  Layout.get_assemble (l := Timing3.layout) (by decide) hparts hfields hp

theorem highBit_lt (clocks : Nat) : highBit clocks < 2 := by
  unfold highBit
  split <;> decide

/-- Below 32 clocks the high bit counts the sixteens. -/
theorem highBit_of_lt {clocks : Nat} (h : clocks < 32) : highBit clocks = clocks / 16 := by
  unfold highBit
  split <;> omega

/-- A single high bit is not cut. -/
theorem get_timing3_highBit {f : Field} {clocks : Nat} {parts : List (Field × Nat)}
    (hparts : timing3 i = assemble parts) (hfields : parts.map (·.1) = Timing3.layout.fields)
    (hwidth : f.width = 1) (hp : (f, highBit clocks) ∈ parts) :
    f.get (timing3 i) = highBit clocks := by
  rw [get_timing3 i hparts hfields hp, hwidth]
  exact Nat.mod_eq_of_lt (highBit_lt clocks)

theorem get_writeRecovery_timing1 :
    Timing1.writeRecovery.get (timing1 i) =
      (writeRecoveryCode (writeRecovery i) + i.chopExtra) % 2 ^ 4 :=
  get_timing1 i rfl rfl (by simp)

theorem get_writeRecovery_timing3 :
    Timing3.writeRecovery.get (timing3 i) = highBit (writeRecovery i + i.chopExtra) :=
  get_timing3_highBit i rfl rfl rfl (by simp)

/-! ### The two halves together -/

/-- **The two halves of a number give it back.** -/
theorem get_splitField {s : SplitField} {clocks : Nat}
    (hhigh : s.high.get (timing3 i) = clocks / 16) (hlow : s.low.get (timing1 i) = clocks % 16) :
    s.get (registers i) = clocks :=
  calc
    s.get (registers i) = 16 * s.high.get (timing3 i) + s.low.get (timing1 i) := rfl
    _ = 16 * (clocks / 16) + clocks % 16 := by rw [hhigh, hlow]
    _ = clocks := Nat.div_add_mod clocks 16

/-- The high bits of the read latency are those of the half clocks of earlier controllers. Later ones
count one less, which leaves the high bits as they are, since the half clocks are odd. -/
theorem get_casLatency (hpos : 1 ≤ i.casLatency) (hle : i.casLatency ≤ 32) :
    SplitField.casLatency.get (registers i) =
      if i.revision ≤ Revision.uniqueModes then 2 * i.casLatency - 1 else 2 * i.casLatency - 2 := by
  have hhigh : Timing3.casLatency.get (timing3 i) = (2 * i.casLatency - 1) / 16 % 4 :=
    get_timing3 i rfl rfl (by simp)
  have hlow : Timing1.casLatency.get (timing1 i) = readLatencyCode i % 16 :=
    get_timing1 i rfl rfl (by simp)
  rw [readLatencyCode] at hlow
  by_cases hrevision : i.revision ≤ Revision.uniqueModes
  · rw [if_pos hrevision] at hlow ⊢
    exact get_splitField i (hhigh.trans (by omega)) hlow
  · rw [if_neg hrevision] at hlow ⊢
    exact get_splitField i (hhigh.trans (by omega)) (hlow.trans (by omega))

end Synthesis

/-! ### All fields -/

open Synthesis in
/-- What the two registers say of the intervals and latencies of a controller. -/
structure RegisterFile.HoldsIntervals (f : RegisterFile) (i : Inputs) : Prop where
  prechargeToActivate :
    SplitField.prechargeToActivate.get f = i.cycles i.common.timing.tRP
  activateToPrecharge :
    SplitField.activateToPrecharge.get f = i.cycles i.common.timing.tRAS
  activateToAccess : SplitField.activateToAccess.get f = i.cycles i.common.timing.tRCD
  refreshRecovery : SplitField.refreshRecovery.get f = i.cycles i.common.timing.tRFC - 8
  /-- Earlier controllers count half clocks, later ones an even number of them. -/
  casLatency : SplitField.casLatency.get f =
    if i.revision ≤ Revision.uniqueModes then 2 * i.casLatency - 1 else 2 * i.casLatency - 2
  /-- The other fields of the register with the low bits hold their own values, -/
  otherLow :
    Timing1.writeRecovery.get f.timing1 =
        (writeRecoveryCode (writeRecovery i) + i.chopExtra) % 16 ∧
      Timing1.activateToActivate.get f.timing1 = max (i.cycles i.common.timing.tRRD) 4 % 16 ∧
      Timing1.writeToRead.get f.timing1 =
        (max (i.cycles i.common.timing.tWTR) 4 + i.chopExtra) % 16
  /-- so do those of the register with the high bits, -/
  otherHigh :
    Timing3.additiveLatency.get f.timing3 = highBit i.additiveLatency ∧
      Timing3.writeRecovery.get f.timing3 = highBit (writeRecovery i + i.chopExtra) ∧
      Timing3.controlAdjust.get f.timing3 = 0
  /-- and nothing is outside of the fields. -/
  outside : ∀ k, (∀ g ∈ Timing3.layout.fields, ¬(g.low ≤ k ∧ k < g.low + g.width)) →
    f.timing3.getLsbD k = false

namespace Synthesis

/-- **The intervals read back** from the two registers as long as they fit: those with a single high
bit below 32 clocks, activation to precharge below 64, refresh recovery below 520, and every CAS
latency from one to 32. -/
theorem holdsIntervals_registers {i : Inputs} (hRP : i.cycles i.common.timing.tRP < 32)
    (hRCD : i.cycles i.common.timing.tRCD < 32) (hRAS : i.cycles i.common.timing.tRAS < 64)
    (hRFC : i.cycles i.common.timing.tRFC < 520) (hpos : 1 ≤ i.casLatency)
    (hle : i.casLatency ≤ 32) : (registers i).HoldsIntervals i := by
  constructor
  case prechargeToActivate =>
    have hhigh : Timing3.prechargeToActivate.get (timing3 i) =
        highBit (i.cycles i.common.timing.tRP) := get_timing3_highBit i rfl rfl rfl (by simp)
    have hlow : Timing1.prechargeToActivate.get (timing1 i) =
        i.cycles i.common.timing.tRP % 16 := get_timing1 i rfl rfl (by simp)
    exact get_splitField i (hhigh.trans (highBit_of_lt hRP)) hlow
  case activateToAccess =>
    have hhigh : Timing3.activateToAccess.get (timing3 i) =
        highBit (i.cycles i.common.timing.tRCD) := get_timing3_highBit i rfl rfl rfl (by simp)
    have hlow : Timing1.activateToAccess.get (timing1 i) =
        i.cycles i.common.timing.tRCD % 16 := get_timing1 i rfl rfl (by simp)
    exact get_splitField i (hhigh.trans (highBit_of_lt hRCD)) hlow
  case activateToPrecharge =>
    have hhigh : Timing3.activateToPrecharge.get (timing3 i) =
        i.cycles i.common.timing.tRAS / 16 % 4 := get_timing3 i rfl rfl (by simp)
    have hlow : Timing1.activateToPrecharge.get (timing1 i) =
        i.cycles i.common.timing.tRAS % 16 := get_timing1 i rfl rfl (by simp)
    exact get_splitField i (hhigh.trans (by omega)) hlow
  case refreshRecovery =>
    have hhigh : Timing3.refreshRecovery.get (timing3 i) = refreshRecovery i / 16 % 32 :=
      get_timing3 i rfl rfl (by simp)
    have hlow : Timing1.refreshRecovery.get (timing1 i) = refreshRecovery i % 16 :=
      get_timing1 i rfl rfl (by simp)
    have hfits : refreshRecovery i < 512 := by
      rw [refreshRecovery]
      omega
    have hback : SplitField.refreshRecovery.get (registers i) = refreshRecovery i :=
      get_splitField i (hhigh.trans (by omega)) hlow
    exact hback
  case casLatency => exact get_casLatency i hpos hle
  case otherLow =>
    exact ⟨get_writeRecovery_timing1 i, get_timing1 i rfl rfl (by simp),
      get_timing1 i rfl rfl (by simp)⟩
  case otherHigh =>
    exact ⟨get_timing3_highBit i rfl rfl rfl (by simp), get_writeRecovery_timing3 i,
      get_timing3 i rfl rfl (f := Timing3.controlAdjust) (v := 0) (by simp)⟩
  case outside => exact fun k hk => Layout.getLsbD_assemble (l := Timing3.layout) rfl rfl hk

/-- A slow module at 2133 million transfers per second, on a controller that counts whole clocks:
all of its intervals need the high bits. -/
def slowModule : Inputs where
  clock := ⟨2133333333⟩
  options := {}
  common :=
    { timing := { tRP := 20000, tRCD := 21000, tRAS := 45000, tRFC := 350000 }, casLatency := 24 }
  region := {}
  dimms := []
  widthShift := 0
  revision := 0x50200

theorem holdsIntervals_registers_slowModule :
    SplitField.prechargeToActivate.get (registers slowModule) = 22 ∧
      SplitField.activateToAccess.get (registers slowModule) = 23 ∧
      SplitField.activateToPrecharge.get (registers slowModule) = 48 ∧
      SplitField.refreshRecovery.get (registers slowModule) = 366 ∧
      SplitField.casLatency.get (registers slowModule) = 46 := by
  have h : (registers slowModule).HoldsIntervals slowModule :=
    holdsIntervals_registers (by decide) (by decide) (by decide) (by decide) (by decide)
      (by decide)
  exact ⟨h.prechargeToActivate.trans (by decide), h.activateToAccess.trans (by decide),
    h.activateToPrecharge.trans (by decide), h.refreshRecovery.trans (by decide),
    h.casLatency.trans (by decide)⟩

end Synthesis

end SdramBringup
