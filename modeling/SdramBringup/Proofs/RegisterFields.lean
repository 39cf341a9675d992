/-
**What a register keeps of the writes to its fields.**

The registers are laid out by hand, field by field, and the bits that the programming looks at are
written down a second time, as masks of whole words. A field that overlaps its neighbour, or a mask that
is off by a bit, would spoil a timing without any sign of it. This module proves that neither happens.
Whatever was in a register and however often its fields are written, each field has what was written to
it last, and all else is as before: one write keeps this, and a sequence of writes keeps it by
induction. And a mask does to every word what reading and writing its field does.

Main definitions:

* `Field.writeAll` — the word after a sequence of writes;
* `Field.lastWritten?` — the value that a field was given last;
* `Layout.Keeps` — **what a register keeps**;
* `Field.MaskedBy` — a mask that stands for a field;
* `Bits.masks` — the masks of the programming, with their fields.

Main results:

* `Layout.Keeps.set` — one more write;
* `Layout.keeps_writeAll` — any sequence of writes;
* `Field.maskedBy_mask` — the mask of a field stands for it;
* `Layout.fieldsKept_and_masked` — **fields and masks of all registers** are consistent.
-/

import Mathlib.Data.List.Induction
import Mathlib.Data.List.Pairwise
import SdramBringup.Proofs.Field
import SdramBringup.Register.Map

set_option relaxedAutoImplicit false
set_option autoImplicit false

namespace SdramBringup

namespace Field

variable {n : Nat}

/-! ### Sequences of writes -/

/-- The word after writes to fields, the first one first. -/
def writeAll (writes : List (Field × Nat)) (w : BitVec n) : BitVec n :=
  writes.foldl (fun w p => p.1.set p.2 w) w

theorem writeAll_concat (writes : List (Field × Nat)) (f : Field) (v : Nat) (w : BitVec n) :
    writeAll (writes ++ [(f, v)]) w = f.set v (writeAll writes w) := by
  rw [writeAll, List.foldl_append]
  rfl

/-- The value that was written to a field last, if any was. -/
def lastWritten? (f : Field) (writes : List (Field × Nat)) : Option Nat :=
  (writes.filter fun p => p.1 = f).getLast?.map (·.2)

@[simp] theorem lastWritten?_nil (f : Field) : f.lastWritten? [] = none := rfl

@[simp] theorem lastWritten?_concat_self (f : Field) (writes : List (Field × Nat)) (v : Nat) :
    f.lastWritten? (writes ++ [(f, v)]) = some v := by
  simp [lastWritten?, List.filter_append]

theorem lastWritten?_concat_of_ne {f g : Field} (h : g ≠ f) (writes : List (Field × Nat)) (v : Nat) :
    f.lastWritten? (writes ++ [(g, v)]) = f.lastWritten? writes := by
  simp [lastWritten?, List.filter_append, h]

end Field

/-! ### What a register keeps -/

namespace Layout

/-- What a register keeps of writes to its fields. -/
structure Keeps (l : Layout) (writes : List (Field × Nat)) (before after : BitVec l.width) :
    Prop where
  /-- A field that was written has the last value that was, cut to its width, -/
  written : ∀ f ∈ l.fields, ∀ v, f.lastWritten? writes = some v → f.get after = v % 2 ^ f.width
  /-- one that was not is as before, -/
  unwritten : ∀ f ∈ l.fields, f.lastWritten? writes = none → f.get after = f.get before
  /-- and so are the bits that belong to no field. -/
  undeclared : ∀ k < l.width, (∀ f ∈ l.fields, ¬(f.low ≤ k ∧ k < f.low + f.width)) →
    after.getLsbD k = before.getLsbD k

variable {l : Layout} {writes : List (Field × Nat)} {before after : BitVec l.width}

/-- Of two fields of a well-formed register neither has a bit of the other, in whatever order they are
listed. -/
theorem WellFormed.disjoint (hl : l.WellFormed) {f g : Field} (hf : f ∈ l.fields) (hg : g ∈ l.fields)
    (hne : f ≠ g) : f.Disjoint g := by
  have hsymm : Std.Symm Field.Disjoint := ⟨fun _ _ => Field.Disjoint.symm⟩
  exact hl.2.forall hf hg hne

theorem Keeps.refl (before : BitVec l.width) : l.Keeps [] before before where
  written _ _ v h := by simp at h
  unwritten _ _ _ := rfl
  undeclared _ _ _ := rfl

/-- **One more write** to a field of a well-formed register. -/
theorem Keeps.set (h : l.Keeps writes before after) (hl : l.WellFormed) {f : Field}
    (hf : f ∈ l.fields) (v : Nat) : l.Keeps (writes ++ [(f, v)]) before (f.set v after) := by
  -- any other field is disjoint from the written one, and has its last value from before
  have hother : ∀ g ∈ l.fields, f ≠ g → g.get (f.set v after) = g.get after := fun g hg hne =>
    Field.get_set_of_disjoint (hl.disjoint hf hg hne) v after
  constructor
  case written =>
    intro g hg u hu
    by_cases hne : f = g
    · subst hne
      rw [Field.lastWritten?_concat_self] at hu
      obtain rfl := Option.some.inj hu
      exact Field.get_set_self (hl.1 f hf) v after
    · rw [Field.lastWritten?_concat_of_ne hne] at hu
      rw [hother g hg hne]
      exact h.written g hg u hu
  case unwritten =>
    intro g hg hnone
    by_cases hne : f = g
    · subst hne
      simp at hnone
    · rw [Field.lastWritten?_concat_of_ne hne] at hnone
      rw [hother g hg hne]
      exact h.unwritten g hg hnone
  case undeclared =>
    intro k hk hout
    rw [Field.getLsbD_set, if_neg fun hbit => hout f hf hbit.2]
    exact h.undeclared k hk hout

/-- **A sequence of writes**, of any length and with any field written as often as one likes. -/
theorem keeps_writeAll (hl : l.WellFormed) (hwrites : ∀ p ∈ writes, p.1 ∈ l.fields)
    (w : BitVec l.width) : l.Keeps writes w (Field.writeAll writes w) := by
  induction writes using List.reverseRecOn with
  | nil => exact Keeps.refl w
  | append_singleton writes p ih =>
      obtain ⟨f, v⟩ := p
      have hbefore : l.Keeps writes w (Field.writeAll writes w) :=
        ih fun q hq => hwrites q (List.mem_append_left _ hq)
      have hf : f ∈ l.fields := hwrites (f, v) (by simp)
      rw [Field.writeAll_concat]
      exact hbefore.set hl hf v

/-- The registers are laid out without overlaps. -/
theorem wellFormed_of_mem_all : ∀ l ∈ all, l.WellFormed := by decide

end Layout

/-! ### Masks -/

namespace Field

/-- What a mask does to a word is what reading and writing a field of it does. -/
structure MaskedBy {n : Nat} (f : Field) (mask w : BitVec n) : Prop where
  /-- The mask leaves of the word the field, where it stands, and nothing else; -/
  selected : (w &&& mask).toNat = f.get w * 2 ^ f.low
  /-- to clear its bits is to write zero, -/
  cleared : w &&& ~~~mask = f.set 0 w
  /-- and to set them is to write ones. -/
  filled : w ||| mask = f.set (2 ^ f.width - 1) w

theorem getLsbD_mask_of_lt {n i : Nat} (f : Field) (hi : i < n) :
    (f.mask n).getLsbD i = decide (f.low ≤ i ∧ i < f.low + f.width) := by
  rw [getLsbD_mask, decide_eq_true hi, Bool.true_and, Bool.decide_and]

/-- **The mask of a field** stands for it. -/
theorem maskedBy_mask {n : Nat} (f : Field) (w : BitVec n) : f.MaskedBy (f.mask n) w := by
  constructor
  case selected =>
    refine Nat.eq_of_testBit_eq fun i => ?_
    rw [BitVec.testBit_toNat, BitVec.getLsbD_and, getLsbD_mask, Nat.testBit_mul_two_pow, testBit_get]
    by_cases hlow : f.low ≤ i
    · by_cases hn : i < n
      · have hwidth : i - f.low < f.width ↔ i < f.low + f.width := by omega
        simp [hlow, hn, hwidth, Bool.and_comm]
      · simp [hlow, BitVec.getLsbD_of_ge w _ (Nat.le_of_not_lt hn)]
    · simp [hlow]
  case cleared =>
    refine BitVec.eq_of_getLsbD_eq fun i hi => ?_
    rw [BitVec.getLsbD_and, BitVec.getLsbD_not, getLsbD_mask_of_lt f hi, getLsbD_set]
    by_cases hbit : f.low ≤ i ∧ i < f.low + f.width
    · rw [decide_eq_true hbit, if_pos ⟨hi, hbit⟩, Nat.zero_testBit, Bool.not_true, Bool.and_false,
        Bool.and_false]
    · rw [decide_eq_false hbit, if_neg fun h => hbit h.2, decide_eq_true hi, Bool.not_false,
        Bool.and_true, Bool.and_true]
  case filled =>
    refine BitVec.eq_of_getLsbD_eq fun i hi => ?_
    rw [BitVec.getLsbD_or, getLsbD_mask_of_lt f hi, getLsbD_set, Nat.testBit_two_pow_sub_one]
    by_cases hbit : f.low ≤ i ∧ i < f.low + f.width
    · have hwidth : i - f.low < f.width := by omega
      rw [decide_eq_true hbit, if_pos ⟨hi, hbit⟩, decide_eq_true hwidth, Bool.or_true]
    · rw [decide_eq_false hbit, if_neg fun h => hbit h.2, Bool.or_false]

/-- The lowest bit of a field. -/
def lowest (f : Field) : Field := ⟨f.low, 1⟩

theorem get_lowest {n : Nat} {f : Field} (hf : 0 < f.width) (w : BitVec n) :
    f.lowest.get w = f.get w % 2 := by
  refine Nat.eq_of_testBit_eq fun i => ?_
  rw [testBit_get, ← Nat.pow_one 2, Nat.testBit_mod_two_pow, testBit_get]
  by_cases hi : i < 1
  · have hwidth : i < f.width := by omega
    simp [lowest, hi, hwidth]
  · simp [lowest, hi]

end Field

open Layout

/-- The masks of the programming, each with the field that it stands for. Of the interleaving with
other controllers there is the lowest bit only. -/
def Bits.masks : List (Word × Field) :=
  [(memoryEnable, Config.memoryEnable), (registered, Config.registered), (twoT, Config.twoT),
    (bypassInit, Config.bypassInit), (busWidth, Config.busWidth), (dataInit, Config2.dataInit),
    (chipSelectEnable, ChipSelect.enable), (twoWay, ChipSelect.interleave.lowest)]

theorem Bits.maskedBy_of_mem_masks {q : Word × Field} (hq : q ∈ masks) (w : Word) :
    q.2.MaskedBy q.1 w := by
  have hmask : ∀ q ∈ masks, q.1 = q.2.mask 32 := by decide
  rw [hmask q hq]
  exact q.2.maskedBy_mask w

namespace Layout

/-- **Fields and masks of all registers are consistent.** Whatever is in a register, writes to its
fields leave in each of them the last value that was written to it, and all other bits alone; and each
mask does to every word what its field does, the width of the bus being read in its own place, and the
bit for two controllers being the lowest of its field. -/
theorem fieldsKept_and_masked :
    (∀ l ∈ all, ∀ (writes : List (Field × Nat)) (w : BitVec l.width),
      (∀ p ∈ writes, p.1 ∈ l.fields) → l.Keeps writes w (Field.writeAll writes w)) ∧
    ∀ w : Word, (∀ q ∈ Bits.masks, q.2.MaskedBy q.1 w) ∧
      ((w &&& Bits.busWidth) >>> Bits.busWidthShift).toNat = Config.busWidth.get w ∧
      (w &&& Bits.twoWay ≠ 0 ↔ ChipSelect.interleave.get w % 2 = 1) := by
  refine ⟨fun l hl writes w hwrites => ?_, fun w => ⟨fun q hq => ?_, ?_, ?_⟩⟩
  · exact keeps_writeAll (wellFormed_of_mem_all l hl) hwrites w
  · exact Bits.maskedBy_of_mem_masks hq w
  · have hmask : Bits.busWidth = Config.busWidth.mask 32 := by decide
    rw [hmask]
    exact Field.toNat_and_mask_shiftRight Config.busWidth w
  · have hmask : Bits.twoWay = ChipSelect.interleave.lowest.mask 32 := by decide
    rw [hmask, Ne, BitVec.ofNat_eq_ofNat, Field.and_mask_eq_zero_iff, Field.get_lowest (by decide)]
    omega

/-- A configuration of ones, in which the width of the bus is written twice and the memory is disabled
between the two. The second width is cut to its two bits, and neither the unused bit 6 nor any field
that was not written changes. -/
theorem fieldsKept_busWidthTwice :
    let writes := [(Config.busWidth, 1), (Config.memoryEnable, 0), (Config.busWidth, 6)]
    let w := Field.writeAll writes (BitVec.allOnes 32)
    Config.layout ∈ all ∧ (∀ p ∈ writes, p.1 ∈ Config.layout.fields) ∧
      Config.busWidth.get w = 2 ∧ Config.memoryEnable.get w = 0 ∧ Config.bankInterleave.get w = 127 ∧
      w.getLsbD 6 = true ∧ (Config.busWidth, 6) ∈ writes ∧
      (Bits.busWidth, Config.busWidth) ∈ Bits.masks ∧
      ((w &&& Bits.busWidth) >>> Bits.busWidthShift).toNat = 2 := by
  intro writes w
  have hlayout : Config.layout ∈ all := by decide
  have hwrites : ∀ p ∈ writes, p.1 ∈ Config.layout.fields := by decide
  obtain ⟨hfields, hmasks⟩ := fieldsKept_and_masked
  have hkept : Config.layout.Keeps writes (BitVec.allOnes 32) w :=
    hfields Config.layout hlayout writes (BitVec.allOnes 32) hwrites
  have hwidth : Config.busWidth.get w = 2 := hkept.written _ (by decide) 6 (by decide)
  refine ⟨hlayout, hwrites, hwidth, ?_, ?_, ?_, by decide, by decide, ?_⟩
  · exact hkept.written _ (by decide) 0 (by decide)
  · exact (hkept.unwritten _ (by decide) (by decide)).trans (by decide)
  · exact (hkept.undeclared 6 (by decide) (by decide)).trans (by decide)
  · exact (hmasks w).2.1.trans hwidth

end Layout

end SdramBringup
