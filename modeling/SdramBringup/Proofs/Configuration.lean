/-
**What the configuration registers say.**

The two configuration registers of a controller are put together from many fields, and what later
steps rely on is single fields: the width of the bus, error correction, the filling of the memory.
This module reads them back.

Main results:

* `Synthesis.get_busWidth_sdramConfig`, `Synthesis.get_ecc_sdramConfig`,
  `Synthesis.get_eccAccess_sdramConfig`, `Synthesis.get_dataInit_sdramConfig2` — single fields;
* `Programming.busWidthCode_registers` — the width of the bus, as the programming reads it;
* `Synthesis.illegal_registers` — **the registers never hold an illegal combination**;
* `Synthesis.value_compute_eq_ok_iff` — when registers are computed, and which.
-/

import SdramBringup.Programming
import SdramBringup.Proofs.Field
import SdramBringup.Synthesis.Registers

set_option relaxedAutoImplicit false
set_option autoImplicit false

namespace SdramBringup

open Layout

/-- A configuration of zeros is not illegal. -/
theorem RegisterFile.illegal_of_sdramConfig {f : RegisterFile} (h : f.sdramConfig = 0) :
    f.illegal = [] := by
  rw [illegal, h]
  exact if_neg (by decide)

namespace Synthesis

variable (i : Inputs)

/-! ### Single fields -/

/-- A field of the configuration that was written reads back. -/
theorem get_sdramConfig {f : Field} {v : Nat} {parts : List (Field × Nat)}
    (hparts : sdramConfig i = assemble parts)
    (hfields : parts.map (·.1) =
      [Config.memoryEnable, Config.selfRefresh, Config.ecc, Config.registered, Config.memoryType,
        Config.dynamicPower, Config.busWidth, Config.burstOfEight, Config.threeT, Config.twoT,
        Config.bankInterleave, Config.halfStrength, Config.eccAccess])
    (hp : (f, v) ∈ parts) : f.get (sdramConfig i) = v % 2 ^ f.width :=
  get_of_eq_assemble (by decide) (by decide) hparts hfields hp

theorem get_ecc_sdramConfig : Config.ecc.get (sdramConfig i) = (usesEcc i).toNat := by
  rw [get_sdramConfig i rfl rfl (v := (usesEcc i).toNat) (by simp)]
  cases usesEcc i <;> rfl

theorem get_registered_sdramConfig :
    Config.registered.get (sdramConfig i) = i.common.allRegistered.toNat := by
  rw [get_sdramConfig i rfl rfl (v := i.common.allRegistered.toNat) (by simp)]
  cases i.common.allRegistered <;> rfl

theorem get_busWidth_sdramConfig :
    Config.busWidth.get (sdramConfig i) = i.options.busWidth.code := by
  rw [get_sdramConfig i rfl rfl (v := i.options.busWidth.code) (by simp)]
  cases i.options.busWidth <;> rfl

theorem get_twoT_sdramConfig :
    Config.twoT.get (sdramConfig i) = (i.options.twoT && !i.common.allRegistered).toNat := by
  rw [get_sdramConfig i rfl rfl (v := (i.options.twoT && !i.common.allRegistered).toNat) (by simp)]
  cases i.options.twoT && !i.common.allRegistered <;> rfl

theorem get_eccAccess_sdramConfig :
    Config.eccAccess.get (sdramConfig i) =
      if i.options.busWidth ≠ .bits64 ∧ usesEcc i then 1 else 0 := by
  rw [get_sdramConfig i rfl rfl (v := if i.options.busWidth ≠ .bits64 ∧ usesEcc i then 1 else 0)
    (by simp)]
  split <;> rfl

theorem get_dataInit_sdramConfig2 :
    Config2.dataInit.get (sdramConfig2 i) = i.options.eccInit.toNat := by
  have hget : Config2.dataInit.get (sdramConfig2 i) =
      i.options.eccInit.toNat % 2 ^ Config2.dataInit.width :=
    get_assemble (by simp only [List.map_cons, List.map_nil]; decide)
      (by simp only [List.map_cons, List.map_nil]; decide) (by simp)
  rw [hget]
  cases i.options.eccInit <;> rfl

/-! ### Several fields -/

/-- **The registers never hold an illegal combination**: with registered modules only, a command
never takes two clocks, whatever the options say. -/
theorem illegal_registers : (registers i).illegal = [] := by
  have hregistered : sdramConfig i &&& Bits.registered = 0 ↔ i.common.allRegistered.toNat = 0 := by
    rw [← get_registered_sdramConfig i]
    exact Field.and_mask_eq_zero_iff Config.registered (sdramConfig i)
  have htwoT : sdramConfig i &&& Bits.twoT = 0 ↔
      (i.options.twoT && !i.common.allRegistered).toNat = 0 := by
    rw [← get_twoT_sdramConfig i]
    exact Field.and_mask_eq_zero_iff Config.twoT (sdramConfig i)
  have hlegal : ¬(sdramConfig i &&& Bits.registered ≠ 0 ∧ sdramConfig i &&& Bits.twoT ≠ 0) := by
    rw [ne_eq, ne_eq, hregistered, htwoT]
    cases i.common.allRegistered <;> simp
  exact if_neg hlegal

/-! ### All registers -/

/-- All registers are computed if the controller has modules, and only then. -/
theorem value_compute_eq_ok_iff {f : RegisterFile} :
    (compute i false).value = .ok f ↔ i.common.dimmCount ≠ 0 ∧ registers i = f := by
  by_cases hcount : i.common.dimmCount = 0 <;> simp [compute, hcount]

end Synthesis

namespace Programming

/-- The code of the bus width is a field of the configuration. -/
theorem busWidthCode_eq (f : RegisterFile) :
    busWidthCode f = Config.busWidth.get f.sdramConfig := by
  have hmask : Bits.busWidth = Config.busWidth.mask 32 := by decide
  rw [busWidthCode, hmask]
  exact Field.toNat_and_mask_shiftRight Config.busWidth f.sdramConfig

/-- The programming reads the width that the options ask for. -/
theorem busWidthCode_registers (i : Synthesis.Inputs) :
    busWidthCode (Synthesis.registers i) = i.options.busWidth.code := by
  rw [busWidthCode_eq]
  exact Synthesis.get_busWidth_sdramConfig i

end Programming

end SdramBringup
