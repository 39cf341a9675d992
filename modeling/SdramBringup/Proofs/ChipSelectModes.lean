/-
**The mode registers of every chip select.**

Newer controllers initialize every chip select with mode registers of its own. They are to differ in
the termination of the data lines and in nothing else. Mode registers 1 and 2 of the first chip
select are put together from their fields, but those of the further ones are made from those of the
chip select before: all bits are kept but those of the termination, which are taken from the fields
of the chip select itself. What is kept is by a mask that is written down apart from the fields, and
the nominal termination is scattered over three of them, so that a bit that is missing in the mask
would carry the termination of one chip select on to the next. This module proves that none is
missing: by induction over the chip selects, what is kept is what the chip select's own fields say.

Main definitions:

* `nominalCode` — the code of the nominal termination in mode register 1;
* `RegisterFile.sentMode1`, `RegisterFile.sentMode2`, `RegisterFile.sentMode3` — the mode registers of
  a chip select, as they are sent to it;
* `RegisterFile.controllerWriteLatency` — the write latency that the controller counts;
* `RegisterFile.TellsModes` — **what the chip selects are told**.

Main results:

* `Synthesis.modesOf_eq` — **nothing is carried on** from one chip select to the next;
* `Synthesis.get_writeLatency_mode2`, `Synthesis.controllerWriteLatency_registers` — modules and
  controller have the write latency of the clock;
* `Synthesis.tellsModes_compute` — **every chip select is told its own termination**, and otherwise the
  same as the first one.
-/

import SdramBringup.Proofs.ModeRegister

set_option relaxedAutoImplicit false
set_option autoImplicit false

namespace SdramBringup

open Layout

/-! ### The clock -/

/-- The write latencies of the standard. -/
theorem Clock.writeLatency_bounds (c : Clock) : 5 ≤ c.writeLatency ∧ c.writeLatency ≤ 12 := by
  have hbins : ∀ bin ∈ writeLatencyBins, 5 ≤ bin.2 ∧ bin.2 ≤ 12 := by decide
  rw [writeLatency]
  cases hfind : writeLatencyBins.find? fun bin => bin.1 ≤ c.periodPs with
  | none => decide
  | some bin => exact hbins bin (List.mem_of_find?_eq_some hfind)

/-! ### Terminations -/

theorem Termination.code_lt (t : Termination) : t.code < 8 := by cases t <;> decide

theorem WriteTermination.code_lt (t : WriteTermination) : t.code < 4 := by cases t <;> decide

/-- The fields of mode register 1 that the nominal termination is scattered over. -/
def nominalFields : List Field := [Mode1.nominal2, Mode1.nominal1, Mode1.nominal0]

/-- The code of the nominal termination in mode register 1. -/
def nominalCode (w : BitVec 16) : Nat :=
  4 * Mode1.nominal2.get w + 2 * Mode1.nominal1.get w + Mode1.nominal0.get w

/-- The bits that are kept of mode register 1 are those outside of its termination. -/
theorem getLsbD_otherThanNominal {k : Nat} (h : Mode1.otherThanNominal.getLsbD k = true) :
    ∀ f ∈ nominalFields, ¬(f.low ≤ k ∧ k < f.low + f.width) := by
  have hall : ∀ k < 16, Mode1.otherThanNominal.getLsbD k = true →
      ∀ f ∈ nominalFields, ¬(f.low ≤ k ∧ k < f.low + f.width) := by decide
  exact hall k (BitVec.lt_of_getLsbD h) h

/-- The bits that are kept of mode register 2 are those outside of its termination. -/
theorem getLsbD_otherThanWriteTermination {k : Nat}
    (h : Mode2.otherThanWriteTermination.getLsbD k = true) :
    ∀ f ∈ [Mode2.writeTermination], ¬(f.low ≤ k ∧ k < f.low + f.width) := by
  have hall : ∀ k < 16, Mode2.otherThanWriteTermination.getLsbD k = true →
      ∀ f ∈ [Mode2.writeTermination], ¬(f.low ≤ k ∧ k < f.low + f.width) := by decide
  exact hall k (BitVec.lt_of_getLsbD h) h

/-! ### One chip select after another -/

namespace Synthesis

/-- Bit by bit, the mask tells which word is taken. -/
theorem getLsbD_replaceOutside {n : Nat} (mask w v : BitVec n) (k : Nat) :
    (replaceOutside mask w v).getLsbD k =
      if mask.getLsbD k = true then w.getLsbD k else v.getLsbD k := by
  rw [replaceOutside, BitVec.getLsbD_or, BitVec.getLsbD_and, BitVec.getLsbD_and,
    BitVec.getLsbD_not]
  rcases Nat.lt_or_ge k n with hk | hk
  · cases mask.getLsbD k <;> simp [hk]
  · simp [BitVec.getLsbD_of_ge _ _ hk]

/-- Where two words agree in the bits that are kept, all of the second one is taken. -/
theorem replaceOutside_of_agree {n : Nat} {mask w v : BitVec n}
    (h : ∀ k, mask.getLsbD k = true → w.getLsbD k = v.getLsbD k) : replaceOutside mask w v = v := by
  refine BitVec.eq_of_getLsbD_eq fun k _ => ?_
  rw [getLsbD_replaceOutside]
  split
  case isTrue hkept => exact h k hkept
  case isFalse => rfl

variable (i : Inputs)

/-- Outside of the nominal termination, mode register 1 is the same for all chip selects. -/
theorem getLsbD_mode1 (cs cs' : Fin 4) {k : Nat}
    (hk : ∀ f ∈ nominalFields, ¬(f.low ≤ k ∧ k < f.low + f.width)) :
    (mode1 i cs).getLsbD k = (mode1 i cs').getLsbD k :=
  getLsbD_assemble_append hk [_, _, _] [_, _, _] [_, _, _] rfl rfl

/-- Outside of the write termination, mode register 2 is. -/
theorem getLsbD_mode2 (cs cs' : Fin 4) {k : Nat}
    (hk : ∀ f ∈ [Mode2.writeTermination], ¬(f.low ≤ k ∧ k < f.low + f.width)) :
    (mode2 i cs).getLsbD k = (mode2 i cs').getLsbD k :=
  getLsbD_assemble_append hk [_] [_] [_, _] rfl rfl

/-- **Nothing is carried on** from one chip select to the next: each has the mode registers that its
own fields make up. -/
theorem modesOf_eq (n : Nat) : modesOf i n = (mode1 i (Fin.ofNat 4 n), mode2 i (Fin.ofNat 4 n)) := by
  induction n with
  | zero => rfl
  | succ n ih =>
      rw [modesOf, ih]
      refine Prod.ext ?_ ?_
      · exact replaceOutside_of_agree fun k hk =>
          getLsbD_mode1 i _ _ (getLsbD_otherThanNominal hk)
      · exact replaceOutside_of_agree fun k hk =>
          getLsbD_mode2 i _ _ (getLsbD_otherThanWriteTermination hk)

theorem modesOf_val (cs : Fin 4) : modesOf i cs = (mode1 i cs, mode2 i cs) := by
  rw [modesOf_eq, Fin.ofNat_val_eq_self]

/-! ### What a chip select is told -/

/-- A field of mode register 1 that was written reads back. -/
theorem get_mode1 {cs : Fin 4} {f : Field} {v : Nat} {parts : List (Field × Nat)}
    (hparts : mode1 i cs = assemble parts)
    (hfields : parts.map (·.1) =
      nominalFields ++ [Mode1.driveStrength1, Mode1.driveStrength0, Mode1.additiveLatency])
    (hp : (f, v) ∈ parts) : f.get (mode1 i cs) = v % 2 ^ f.width :=
  get_of_eq_assemble (by decide) (by decide) hparts hfields hp

/-- A field of mode register 2 that was written reads back. -/
theorem get_mode2 {cs : Fin 4} {f : Field} {v : Nat} {parts : List (Field × Nat)}
    (hparts : mode2 i cs = assemble parts)
    (hfields : parts.map (·.1) = [Mode2.writeTermination, Mode2.extendedRange, Mode2.writeLatency])
    (hp : (f, v) ∈ parts) : f.get (mode2 i cs) = v % 2 ^ f.width :=
  get_of_eq_assemble (by decide) (by decide) hparts hfields hp

/-- The nominal termination is put together again from its scattered bits. -/
theorem nominalCode_mode1 (cs : Fin 4) :
    nominalCode (mode1 i cs) = (nominalTermination i cs).code := by
  have hlt := (nominalTermination i cs).code_lt
  have h2 : Mode1.nominal2.get (mode1 i cs) = (nominalTermination i cs).code / 4 % 2 % 2 :=
    get_mode1 i rfl rfl (by simp)
  have h1 : Mode1.nominal1.get (mode1 i cs) = (nominalTermination i cs).code / 2 % 2 % 2 :=
    get_mode1 i rfl rfl (by simp)
  have h0 : Mode1.nominal0.get (mode1 i cs) = (nominalTermination i cs).code % 2 % 2 :=
    get_mode1 i rfl rfl (by simp)
  rw [nominalCode, h2, h1, h0]
  omega

theorem get_writeTermination_mode2 (cs : Fin 4) :
    Mode2.writeTermination.get (mode2 i cs) = (writeTermination i cs).code := by
  have hget : Mode2.writeTermination.get (mode2 i cs) = (writeTermination i cs).code % 4 :=
    get_mode2 i rfl rfl (by simp)
  rw [hget, Nat.mod_eq_of_lt (writeTermination i cs).code_lt]

theorem get_writeLatency_mode2 (cs : Fin 4) :
    Mode2.writeLatency.get (mode2 i cs) + 5 = i.clock.writeLatency := by
  have hget : Mode2.writeLatency.get (mode2 i cs) = (i.clock.writeLatency - 5) % 8 :=
    get_mode2 i rfl rfl (by simp)
  have hbounds := i.clock.writeLatency_bounds
  rw [hget]
  omega

end Synthesis

/-! ### What is sent -/

namespace RegisterFile

/-- The word that holds mode registers 2 and 3 of a chip select. -/
def modeWord2 (f : RegisterFile) : Fin 4 → Word
  | 0 => f.mode2
  | 1 => f.modeVariants.get 1
  | 2 => f.modeVariants.get 3
  | 3 => f.modeVariants.get 5

/-- Mode register 1, as it is sent to a chip select. -/
def sentMode1 (f : RegisterFile) (cs : Fin 4) : BitVec 16 :=
  BitVec.ofNat 16 (ModePair.high.get (f.modeWord cs))

/-- Mode register 2, as it is sent to a chip select. -/
def sentMode2 (f : RegisterFile) (cs : Fin 4) : BitVec 16 :=
  BitVec.ofNat 16 (ModePair.high.get (f.modeWord2 cs))

/-- Mode register 3, as it is sent to a chip select. -/
def sentMode3 (f : RegisterFile) (cs : Fin 4) : BitVec 16 :=
  BitVec.ofNat 16 (ModePair.low.get (f.modeWord2 cs))

/-- The write latency that the controller counts, with its highest bit apart from the others. -/
def controllerWriteLatency (f : RegisterFile) : Nat :=
  16 * Timing2.writeLatencyHigh.get f.timing2 + Timing2.writeLatency.get f.timing2

end RegisterFile

namespace Synthesis

variable {i : Inputs} {cs : Fin 4}

theorem modeWord2_registers (h : i.HasModeWord cs) :
    (registers i).modeWord2 cs = (modePairs i cs).2 := by
  rcases h with rfl | hunique
  · rfl
  · match cs with
    | 0 => rfl
    | 1 | 2 | 3 =>
        rw [RegisterFile.modeWord2, modeVariants_of_uniqueModes hunique]
        rfl

/-- A chip select is sent the mode registers 1 and 2 that its own fields make up. -/
theorem sentMode1_registers (h : i.HasModeWord cs) : (registers i).sentMode1 cs = mode1 i cs := by
  rw [RegisterFile.sentMode1, modeWord_registers h, modePairs, modesOf_val]
  exact (halves_pair (mode1 i cs) _).1

theorem sentMode2_registers (h : i.HasModeWord cs) : (registers i).sentMode2 cs = mode2 i cs := by
  rw [RegisterFile.sentMode2, modeWord2_registers h, modePairs, modesOf_val]
  exact (halves_pair (mode2 i cs) 0).1

theorem sentMode3_registers (h : i.HasModeWord cs) : (registers i).sentMode3 cs = 0 := by
  rw [RegisterFile.sentMode3, modeWord2_registers h]
  exact (halves_pair _ 0).2

theorem controllerWriteLatency_registers :
    (registers i).controllerWriteLatency = i.clock.writeLatency := by
  have hhigh : Timing2.writeLatencyHigh.get (timing2 i) = i.clock.writeLatency / 16 % 2 % 2 :=
    Layout.get_assemble (l := Timing2.layout) (by decide) rfl rfl (by simp)
  have hlow : Timing2.writeLatency.get (timing2 i) = i.clock.writeLatency % 16 :=
    Layout.get_assemble (l := Timing2.layout) (by decide) rfl rfl (by simp)
  have hbounds := i.clock.writeLatency_bounds
  rw [RegisterFile.controllerWriteLatency, show (registers i).timing2 = timing2 i from rfl, hhigh,
    hlow]
  omega

end Synthesis

open Synthesis

/-- What the chip selects are told in their mode registers. -/
structure RegisterFile.TellsModes (f : RegisterFile) (i : Inputs) : Prop where
  /-- Every chip select is told its own nominal termination, if none is fixed for all of them, -/
  nominal : ∀ cs, i.HasModeWord cs → nominalCode (f.sentMode1 cs) =
    (i.options.nominalTermination.getD i.options.odt[cs].nominal).code
  /-- and its own termination during writes, if none is fixed. -/
  duringWrite : ∀ cs, i.HasModeWord cs → Mode2.writeTermination.get (f.sentMode2 cs) =
    (i.options.writeTermination.getD i.options.odt[cs].duringWrite).code
  /-- The other bits of register 1 are those of the first chip select, -/
  others1 : ∀ cs, i.HasModeWord cs → ∀ k,
    (∀ g ∈ nominalFields, ¬(g.low ≤ k ∧ k < g.low + g.width)) →
      (f.sentMode1 cs).getLsbD k = (f.sentMode1 0).getLsbD k
  /-- and so are those of register 2. -/
  others2 : ∀ cs, i.HasModeWord cs → ∀ k,
    ¬(Mode2.writeTermination.low ≤ k ∧
      k < Mode2.writeTermination.low + Mode2.writeTermination.width) →
        (f.sentMode2 cs).getLsbD k = (f.sentMode2 0).getLsbD k
  /-- Register 0 is the same for all chip selects, -/
  register0 : ∀ cs, i.HasModeWord cs → f.mode0 cs = f.mode0 0
  /-- and register 3 is zero. -/
  register3 : ∀ cs, i.HasModeWord cs → f.sentMode3 cs = 0
  /-- Later revisions have a word for every chip select, -/
  unique : Revision.uniqueModes < i.revision → ∀ cs, i.HasModeWord cs
  /-- and earlier ones none but for the first chip select. -/
  shared : i.revision ≤ Revision.uniqueModes → f.modeVariants = Vector.replicate 6 0
  /-- All are told the write latency that the controller counts, -/
  writeLatency : ∀ cs, i.HasModeWord cs →
    Mode2.writeLatency.get (f.sentMode2 cs) + 5 = f.controllerWriteLatency
  /-- which is that of the clock. -/
  ofClock : f.controllerWriteLatency = i.clock.writeLatency

namespace Synthesis

theorem tellsModes_registers (i : Inputs) : (registers i).TellsModes i where
  nominal cs h := by rw [sentMode1_registers h, nominalCode_mode1, nominalTermination]
  duringWrite cs h := by rw [sentMode2_registers h, get_writeTermination_mode2, writeTermination]
  others1 cs h k hk := by
    rw [sentMode1_registers h, sentMode1_registers (.inl rfl)]
    exact getLsbD_mode1 i cs 0 hk
  others2 cs h k hk := by
    rw [sentMode2_registers h, sentMode2_registers (.inl rfl)]
    exact getLsbD_mode2 i cs 0 (List.forall_mem_singleton.2 hk)
  register0 cs h := by rw [mode0_registers h, mode0_registers (.inl rfl)]
  register3 cs h := sentMode3_registers h
  unique hrevision cs := .inr (decide_eq_true hrevision)
  shared hrevision := if_neg fun hunique => Nat.not_lt_of_le hrevision (of_decide_eq_true hunique)
  writeLatency cs h := by
    rw [sentMode2_registers h, get_writeLatency_mode2, controllerWriteLatency_registers]
  ofClock := controllerWriteLatency_registers

/-- **Every chip select is told its own termination**, and otherwise the same as the first one. -/
theorem tellsModes_compute {i : Inputs} {f : RegisterFile}
    (h : (compute i false).value = .ok f) : f.TellsModes i := by
  obtain ⟨-, rfl⟩ := (value_compute_eq_ok_iff i).1 h
  exact tellsModes_registers i

/-- A controller with a module of two ranks and one of a single rank, whose terminations are all
different. -/
def unequalModules : Inputs :=
  { reader 0x800 with options := { odt := Population.twoAndOne.table } }

/-- The three chip selects with a rank are told 120, 30 and 20 ohms, and only the last one another
resistance during writes. -/
theorem tellsModes_compute_twoAndOne :
    let i := unequalModules
    let f := registers i
    (compute i false).value = .ok f ∧ f.TellsModes i ∧
      (List.finRange 4).map (fun cs => nominalCode (f.sentMode1 cs)) = [2, 5, 4, 0] ∧
      (List.finRange 4).map (fun cs => Mode2.writeTermination.get (f.sentMode2 cs)) =
        [0, 0, 2, 0] ∧
      f.controllerWriteLatency = 8 := by
  intro i f
  have hcompute : (compute i false).value = .ok f :=
    (value_compute_eq_ok_iff i).2 ⟨by decide, rfl⟩
  have htells : f.TellsModes i := tellsModes_compute hcompute
  have hmode (cs : Fin 4) : i.HasModeWord cs := htells.unique (by decide) cs
  refine ⟨hcompute, htells, ?_, ?_, htells.ofClock.trans (by decide)⟩
  · rw [List.map_congr_left fun cs _ => htells.nominal cs (hmode cs)]
    decide
  · rw [List.map_congr_left fun cs _ => htells.duringWrite cs (hmode cs)]
    decide

end Synthesis

end SdramBringup
