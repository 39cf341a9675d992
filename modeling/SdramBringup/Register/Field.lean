/-
**Fields of a register.**

A register is a word, and its meaning is in fields: runs of bits, each given by its lowest bit and
its width. This module reads a field of a word, writes one, and builds a word from its fields.
Values that do not fit are cut to the width of the field, and no other bit of the word changes.

Main definitions:

* `Field` — a run of bits, with `Field.get` and `Field.set`;
* `assemble` — the word with the given fields, all other bits zero;
* `Field.Disjoint` — two fields that share no bit.
-/

import SdramBringup.Instances

set_option relaxedAutoImplicit false
set_option autoImplicit false

namespace SdramBringup

/-- The value of a 32 bit register. -/
abbrev Word := BitVec 32

/-- A run of bits of a register. -/
structure Field where
  /-- The lowest bit. -/
  low : Nat
  /-- The number of bits. -/
  width : Nat
  deriving DecidableEq, Repr

namespace Field

/-- The bits of the field in a word of width `n`. -/
def mask (f : Field) (n : Nat) : BitVec n := (BitVec.allOnes f.width).setWidth n <<< f.low

/-- The value of the field in a word. -/
def get {n : Nat} (f : Field) (w : BitVec n) : Nat := (w.extractLsb' f.low f.width).toNat

/-- The word with the field replaced by a value, cut to the width of the field. -/
def set {n : Nat} (f : Field) (v : Nat) (w : BitVec n) : BitVec n :=
  (w &&& ~~~f.mask n) ||| ((BitVec.ofNat f.width v).setWidth n <<< f.low)

/-- The first field ends below the second, or the other way round. -/
def Disjoint (f g : Field) : Prop := f.low + f.width ≤ g.low ∨ g.low + g.width ≤ f.low

instance (f g : Field) : Decidable (f.Disjoint g) :=
  inferInstanceAs (Decidable (_ ∨ _))

/-! ### Bits of fields -/

theorem getLsbD_mask (f : Field) (n i : Nat) :
    (f.mask n).getLsbD i =
      (decide (i < n) && decide (f.low ≤ i) && decide (i < f.low + f.width)) := by
  simp only [mask, BitVec.getLsbD_shiftLeft, BitVec.getLsbD_setWidth, BitVec.getLsbD_allOnes]
  by_cases h₁ : i < n <;> by_cases h₂ : f.low ≤ i <;> by_cases h₃ : i < f.low + f.width <;>
    simp [h₁, h₂, h₃] <;> omega

/-- A write changes the bits of the field to those of the value, and no others. -/
theorem getLsbD_set {n : Nat} (f : Field) (v : Nat) (w : BitVec n) (i : Nat) :
    (f.set v w).getLsbD i =
      if i < n ∧ f.low ≤ i ∧ i < f.low + f.width then v.testBit (i - f.low) else w.getLsbD i := by
  simp only [set, BitVec.getLsbD_or, BitVec.getLsbD_and, BitVec.getLsbD_not, getLsbD_mask,
    BitVec.getLsbD_shiftLeft, BitVec.getLsbD_setWidth, BitVec.getLsbD_ofNat]
  by_cases h₁ : i < n
  · by_cases h₂ : f.low ≤ i
    · by_cases h₃ : i < f.low + f.width
      · have h₄ : i - f.low < f.width := by omega
        have h₅ : i - f.low < n := by omega
        simp [h₁, h₂, h₃, h₄, h₅]
      · have h₄ : ¬ i - f.low < f.width := by omega
        simp [h₁, h₂, h₃, h₄]
    · have h₃ : i < f.low := by omega
      simp [h₁, h₂, h₃]
  · have h₂ : n ≤ i := by omega
    simp [h₁, BitVec.getLsbD_of_ge _ _ h₂]

end Field

/-- The word with the given fields, written one after another into a word of zeros. -/
def assemble {n : Nat} (parts : List (Field × Nat)) : BitVec n :=
  parts.foldl (fun w p => p.1.set p.2 w) 0#n

end SdramBringup
