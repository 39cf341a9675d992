/-
**Notation that means the same everywhere.**

The program is compiled on its own, its theory in front of a large library that has instances of its
own for powers, sums and indices. This module fixes the instances that both use, so that what is
proved is about the terms that are compiled. An index below the length of a vector needs no proof
that it is one.

Main definitions:

* `powNat`, `zeroNat` — powers and sums of numbers;
* `getElemFin` — the entry of a vector at an index below its length.
-/

set_option relaxedAutoImplicit false
set_option autoImplicit false

namespace SdramBringup

@[default_instance 10000]
instance (priority := 10000) powNat : Pow Nat Nat := instPowNat

instance (priority := 10000) zeroNat : Zero Nat := ⟨0⟩

/-- Every index below the length has an entry. -/
instance (priority := 10000) getElemFin {α : Type} {n : Nat} :
    GetElem (Vector α n) (Fin n) α fun _ _ => True where
  getElem v i _ := v.get i

/-- The entry at an index is the one at its number. -/
theorem getElem_fin {α : Type} {n : Nat} (v : Vector α n) (i : Fin n) :
    v[i] = v[i.val] := rfl

/-! ### Slots, controllers, chip selects and bytes -/

instance (priority := 10000) neZeroTwo : NeZero 2 := ⟨by decide⟩

instance (priority := 10000) neZeroThree : NeZero 3 := ⟨by decide⟩

instance (priority := 10000) lawfulBEqController : LawfulBEq (Fin 3) := instLawfulBEq

instance (priority := 10000) neZeroFour : NeZero 4 := ⟨by decide⟩

instance (priority := 10000) neZeroByte : NeZero 256 := ⟨by decide⟩

end SdramBringup
