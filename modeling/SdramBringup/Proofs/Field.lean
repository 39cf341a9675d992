/-
**Reading a register back field by field.**

A register is put together by writing its fields one after another, and what the hardware makes of
it is the value of each field. This module proves that the two agree: a field that was written
reads back as the value, cut to its width, and a write leaves every disjoint field alone.

Main results:

* `Field.get_set_self`, `Field.get_set_of_disjoint` — one write, read back in the field itself and
  in a field that shares no bit with it;
* `Field.get_foldl_set` — **a sequence of writes to disjoint fields** reads back write by write;
* `get_assemble`, `get_of_eq_assemble` — the same of a word that is assembled from its fields;
* `getLsbD_assemble_append` — two words that are assembled alike but for the first fields;
* `Layout.get_assemble`, `Layout.getLsbD_assemble` — a register whose layout is well-formed, field by
  field and outside of its fields;
* `Field.and_mask_eq_zero_iff` — a mask selects nothing exactly when its field is zero;
* `Field.toNat_and_mask_shiftRight` — a field by its mask and its lowest bit.
-/

import SdramBringup.Register.Layout

set_option relaxedAutoImplicit false
set_option autoImplicit false

namespace SdramBringup

namespace Field

variable {n : Nat}

/-! ### Fields bit by bit -/

theorem testBit_get (f : Field) (w : BitVec n) (i : Nat) :
    (f.get w).testBit i = (decide (i < f.width) && w.getLsbD (f.low + i)) := by
  simp [get, BitVec.testBit_toNat]

theorem get_lt (f : Field) (w : BitVec n) : f.get w < 2 ^ f.width :=
  (w.extractLsb' f.low f.width).isLt

@[simp] theorem get_zero (f : Field) : f.get (0#n) = 0 := by
  simp [get]

theorem Disjoint.symm {f g : Field} (h : f.Disjoint g) : g.Disjoint f := Or.symm h

/-! ### One write -/

/-- A field that lies within the word reads back what was written, cut to its width. -/
theorem get_set_self {f : Field} (hf : f.low + f.width ≤ n) (v : Nat) (w : BitVec n) :
    f.get (f.set v w) = v % 2 ^ f.width := by
  refine Nat.eq_of_testBit_eq fun i => ?_
  rw [testBit_get, getLsbD_set, Nat.testBit_mod_two_pow]
  by_cases hi : i < f.width
  · have hbit : f.low + i < n ∧ f.low ≤ f.low + i ∧ f.low + i < f.low + f.width := by omega
    rw [if_pos hbit]
    simp
  · simp [hi]

/-- A write leaves the fields alone that share no bit with the written one. -/
theorem get_set_of_disjoint {f g : Field} (h : f.Disjoint g) (v : Nat) (w : BitVec n) :
    g.get (f.set v w) = g.get w := by
  refine Nat.eq_of_testBit_eq fun i => ?_
  rw [testBit_get, testBit_get, getLsbD_set]
  by_cases hi : i < g.width
  · have hbit : ¬(g.low + i < n ∧ f.low ≤ g.low + i ∧ g.low + i < f.low + f.width) := by
      rcases h with h | h <;> omega
    rw [if_neg hbit]
  · simp [hi]

/-! ### A sequence of writes -/

/-- Writes leave a field alone that shares no bit with any of the written ones. -/
theorem get_foldl_set_of_disjoint {g : Field} (parts : List (Field × Nat))
    (h : ∀ p ∈ parts, p.1.Disjoint g) (w : BitVec n) :
    g.get (parts.foldl (fun w p => p.1.set p.2 w) w) = g.get w := by
  induction parts generalizing w with
  | nil => rfl
  | cons p parts ih =>
      rw [List.foldl_cons, ih fun q hq => h q (List.mem_cons_of_mem p hq)]
      exact get_set_of_disjoint (h p List.mem_cons_self) p.2 w

/-- **Writes to disjoint fields read back one by one**, whatever was in the word before. -/
theorem get_foldl_set {parts : List (Field × Nat)} (hd : (parts.map (·.1)).Pairwise Field.Disjoint)
    (hw : ∀ f ∈ parts.map (·.1), f.low + f.width ≤ n) {f : Field} {v : Nat} (hp : (f, v) ∈ parts)
    (w : BitVec n) :
    f.get (parts.foldl (fun w p => p.1.set p.2 w) w) = v % 2 ^ f.width := by
  induction parts generalizing w with
  | nil => simp at hp
  | cons q parts ih =>
      rw [List.map_cons] at hd hw
      obtain ⟨hq, hd⟩ := List.pairwise_cons.1 hd
      rw [List.foldl_cons]
      rcases List.mem_cons.1 hp with rfl | hp
      · -- the later writes are disjoint from this one
        rw [get_foldl_set_of_disjoint parts fun r hr => (hq r.1 (List.mem_map_of_mem hr)).symm]
        exact get_set_self (hw f List.mem_cons_self) v w
      · exact ih hd (fun g hg => hw g (List.mem_cons_of_mem q.1 hg)) hp _

/-- Writes leave the bits alone that no written field has. -/
theorem getLsbD_foldl_set {k : Nat} (parts : List (Field × Nat))
    (h : ∀ f ∈ parts.map (·.1), ¬(f.low ≤ k ∧ k < f.low + f.width)) (w : BitVec n) :
    (parts.foldl (fun w p => p.1.set p.2 w) w).getLsbD k = w.getLsbD k := by
  induction parts generalizing w with
  | nil => rfl
  | cons p parts ih =>
      rw [List.map_cons, List.forall_mem_cons] at h
      rw [List.foldl_cons, ih h.2, getLsbD_set, if_neg fun hbit => h.1 hbit.2]

/-- What a sequence of writes makes of a bit depends on that bit only. -/
theorem getLsbD_foldl_set_congr {k : Nat} (parts : List (Field × Nat)) {w v : BitVec n}
    (h : w.getLsbD k = v.getLsbD k) :
    (parts.foldl (fun w p => p.1.set p.2 w) w).getLsbD k =
      (parts.foldl (fun w p => p.1.set p.2 w) v).getLsbD k := by
  induction parts generalizing w v with
  | nil => exact h
  | cons p parts ih =>
      rw [List.foldl_cons, List.foldl_cons]
      refine ih ?_
      rw [getLsbD_set, getLsbD_set, h]

/-! ### Masks -/

/-- Only a word without any bit of the field has no bit in common with the mask of the field. -/
theorem and_mask_eq_zero_iff (f : Field) (w : BitVec n) : w &&& f.mask n = 0#n ↔ f.get w = 0 := by
  constructor
  · intro h
    refine Nat.eq_of_testBit_eq fun i => ?_
    have hbit := congrArg (BitVec.getLsbD · (f.low + i)) h
    simp only [BitVec.getLsbD_and, getLsbD_mask, BitVec.getLsbD_zero] at hbit
    rw [testBit_get, Nat.zero_testBit]
    by_cases hi : i < f.width
    · by_cases hn : f.low + i < n
      · simpa [hi, hn] using hbit
      · simp [BitVec.getLsbD_of_ge w _ (Nat.le_of_not_lt hn)]
    · simp [hi]
  · intro h
    refine BitVec.eq_of_getLsbD_eq fun i hi => ?_
    simp only [BitVec.getLsbD_and, getLsbD_mask, BitVec.getLsbD_zero]
    by_cases hlow : f.low ≤ i
    · have hbit := congrArg (Nat.testBit · (i - f.low)) h
      simp only [testBit_get, Nat.zero_testBit] at hbit
      rw [Nat.add_sub_cancel' hlow] at hbit
      by_cases hwidth : i - f.low < f.width
      · simp only [hwidth, decide_true, Bool.true_and] at hbit
        simp [hbit]
      · have hout : ¬i < f.low + f.width := by omega
        simp [hout]
    · simp [hlow]

/-- A field is what its mask leaves of a word, moved down to the lowest bit. -/
theorem toNat_and_mask_shiftRight (f : Field) (w : BitVec n) :
    ((w &&& f.mask n) >>> f.low).toNat = f.get w := by
  refine Nat.eq_of_testBit_eq fun i => ?_
  rw [testBit_get, BitVec.testBit_toNat]
  simp only [BitVec.getLsbD_ushiftRight, BitVec.getLsbD_and, getLsbD_mask]
  by_cases hn : f.low + i < n
  · by_cases hi : i < f.width <;> simp [hn, hi]
  · simp [BitVec.getLsbD_of_ge w _ (Nat.le_of_not_lt hn)]

end Field

/-- A word that is assembled from disjoint fields has the given values in them. -/
theorem get_assemble {n : Nat} {parts : List (Field × Nat)}
    (hd : (parts.map (·.1)).Pairwise Field.Disjoint)
    (hw : ∀ f ∈ parts.map (·.1), f.low + f.width ≤ n) {f : Field} {v : Nat}
    (hp : (f, v) ∈ parts) :
    f.get (assemble parts : BitVec n) = v % 2 ^ f.width :=
  Field.get_foldl_set hd hw hp 0#n

/-- The same of a word that is known to be assembled from certain fields. -/
theorem get_of_eq_assemble {n : Nat} {w : BitVec n} {fields : List Field}
    (hd : fields.Pairwise Field.Disjoint) (hle : ∀ f ∈ fields, f.low + f.width ≤ n)
    {parts : List (Field × Nat)} (hw : w = assemble parts) (hfields : parts.map (·.1) = fields)
    {f : Field} {v : Nat} (hp : (f, v) ∈ parts) : f.get w = v % 2 ^ f.width := by
  rw [hw]
  exact get_assemble (hfields ▸ hd) (hfields ▸ hle) hp

/-- Words that are assembled from the same fields, with other values in the first ones, differ in the
bits of these only. -/
theorem getLsbD_assemble_append {n k : Nat} {fields : List Field}
    (hk : ∀ f ∈ fields, ¬(f.low ≤ k ∧ k < f.low + f.width)) (own own' rest : List (Field × Nat))
    (hown : own.map (·.1) = fields) (hown' : own'.map (·.1) = fields) :
    (assemble (own ++ rest) : BitVec n).getLsbD k =
      (assemble (own' ++ rest) : BitVec n).getLsbD k := by
  rw [assemble, assemble, List.foldl_append, List.foldl_append]
  refine Field.getLsbD_foldl_set_congr rest ?_
  rw [Field.getLsbD_foldl_set own (hown ▸ hk), Field.getLsbD_foldl_set own' (hown' ▸ hk)]

namespace Layout

variable {l : Layout} {w : BitVec l.width} {parts : List (Field × Nat)}

/-- **A register reads back field by field** if its layout is well-formed. -/
theorem get_assemble (hl : l.WellFormed) (hw : w = assemble parts)
    (hfields : parts.map (·.1) = l.fields) {f : Field} {v : Nat} (hp : (f, v) ∈ parts) :
    f.get w = v % 2 ^ f.width :=
  get_of_eq_assemble hl.2 hl.1 hw hfields hp

/-- The bits outside of its fields are zero. -/
theorem getLsbD_assemble (hw : w = assemble parts) (hfields : parts.map (·.1) = l.fields) {k : Nat}
    (hk : ∀ f ∈ l.fields, ¬(f.low ≤ k ∧ k < f.low + f.width)) : w.getLsbD k = false := by
  rw [hw, assemble, Field.getLsbD_foldl_set parts (hfields ▸ hk)]
  exact BitVec.getLsbD_zero

end Layout

end SdramBringup
