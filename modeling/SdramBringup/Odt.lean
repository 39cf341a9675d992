/-
**Termination of the data lines.**

Data lines have to be terminated on the modules, and which module terminates with which resistance
depends on where ranks are installed. A population of ranks has a recommended table, one entry per
chip select: when the termination is switched on, the nominal resistance, and the one that replaces
it during writes.

Main definitions:

* `OdtPolicy` — for which accesses a chip select terminates;
* `Termination`, `WriteTermination` — the resistances;
* `ChipSelectOdt` — the termination of one chip select;
* `Population` — the populations with a table of their own, with `Population.classify` and
  `Population.table`.
-/

import SdramBringup.Instances

set_option relaxedAutoImplicit false
set_option autoImplicit false

namespace SdramBringup

/-- For which accesses a chip select terminates the data lines. -/
inductive OdtPolicy where
  | never
  | accessed
  | otherChipSelects
  | otherDimm
  | all
  | sameDimm
  | accessedAndOtherDimm
  | othersOnSameDimm
  deriving DecidableEq, Repr

namespace OdtPolicy

/-- All policies, in the order of their codes. -/
def list : List OdtPolicy :=
  [never, accessed, otherChipSelects, otherDimm, all, sameDimm, accessedAndOtherDimm,
    othersOnSameDimm]

/-- The code of a policy in the chip select configuration. -/
def code : OdtPolicy → Nat
  | never => 0
  | accessed => 1
  | otherChipSelects => 2
  | otherDimm => 3
  | all => 4
  | sameDimm => 5
  | accessedAndOtherDimm => 6
  | othersOnSameDimm => 7

end OdtPolicy

/-- Nominal termination resistance. -/
inductive Termination where
  | off
  | ohm60
  | ohm120
  | ohm40
  | ohm20
  | ohm30
  deriving DecidableEq, Repr

/-- The code of a nominal termination in mode register 1. -/
def Termination.code : Termination → Nat
  | off => 0
  | ohm60 => 1
  | ohm120 => 2
  | ohm40 => 3
  | ohm20 => 4
  | ohm30 => 5

/-- Termination resistance during writes. -/
inductive WriteTermination where
  | off
  | ohm60
  | ohm120
  deriving DecidableEq, Repr

/-- The code of a write termination in mode register 2. -/
def WriteTermination.code : WriteTermination → Nat
  | off => 0
  | ohm60 => 1
  | ohm120 => 2

/-- The termination of one chip select. -/
structure ChipSelectOdt where
  onRead : OdtPolicy := .never
  onWrite : OdtPolicy := .never
  nominal : Termination := .off
  duringWrite : WriteTermination := .off
  deriving DecidableEq, Repr

namespace ChipSelectOdt

instance : Inhabited ChipSelectOdt := ⟨{}⟩

/-- No termination at all. -/
def unused : ChipSelectOdt := {}

/-- The chip select terminates for some access. -/
def used (o : ChipSelectOdt) : Bool := o.onRead != .never || o.onWrite != .never

end ChipSelectOdt

/-! ### Populations -/

/-- The populations with a table of their own. With a single slot they are named for the ranks in
it, with two slots for the ranks in both. -/
inductive Population where
  | oneRank
  | twoRanks
  | fourRanks
  | twoAndTwo
  | twoAndOne
  | oneAndTwo
  | oneAndOne
  | twoAndNone
  | noneAndTwo
  | oneAndNone
  | noneAndOne
  | unknown
  deriving DecidableEq, Repr

namespace Population

/-- The population of the ranks `r₀` and `r₁` in the slots. A module with four ranks in a first slot
that is wired for it is a single one, whatever is in the second slot. -/
def classify (slots r₀ r₁ : Nat) (quadCapable : Bool) : Population :=
  if slots = 1 then
    match r₀ with
    | 1 => oneRank
    | 2 => twoRanks
    | 4 => fourRanks
    | _ => unknown
  else if r₀ = 4 ∧ quadCapable then fourRanks
  else
    match r₀, r₁ with
    | 2, 2 => twoAndTwo
    | 2, 1 => twoAndOne
    | 2, 0 => twoAndNone
    | 1, 2 => oneAndTwo
    | 1, 1 => oneAndOne
    | 1, 0 => oneAndNone
    | 0, 2 => noneAndTwo
    | 0, 1 => noneAndOne
    | _, _ => unknown

/-- The recommended termination of the four chip selects. -/
def table : Population → Vector ChipSelectOdt 4
  | oneRank => #v[⟨.never, .all, .ohm40, .off⟩, .unused, .unused, .unused]
  | twoRanks => #v[⟨.never, .all, .ohm40, .off⟩, .unused, .unused, .unused]
  | fourRanks =>
      #v[⟨.never, .accessedAndOtherDimm, .ohm20, .ohm120⟩, ⟨.never, .never, .off, .ohm120⟩,
        ⟨.never, .accessedAndOtherDimm, .ohm20, .ohm120⟩, ⟨.never, .never, .off, .ohm120⟩]
  | twoAndTwo =>
      #v[⟨.never, .sameDimm, .ohm120, .off⟩, ⟨.otherDimm, .otherDimm, .ohm30, .off⟩,
        ⟨.never, .sameDimm, .ohm120, .off⟩, ⟨.otherDimm, .otherDimm, .ohm30, .off⟩]
  | twoAndOne =>
      #v[⟨.never, .sameDimm, .ohm120, .off⟩, ⟨.otherDimm, .otherDimm, .ohm30, .off⟩,
        ⟨.otherDimm, .all, .ohm20, .ohm120⟩, .unused]
  | oneAndTwo =>
      #v[⟨.otherDimm, .all, .ohm20, .ohm120⟩, .unused, ⟨.never, .sameDimm, .ohm120, .off⟩,
        ⟨.otherDimm, .otherDimm, .ohm20, .off⟩]
  | oneAndOne =>
      #v[⟨.otherDimm, .all, .ohm30, .ohm120⟩, .unused, ⟨.otherDimm, .all, .ohm30, .ohm120⟩, .unused]
  | twoAndNone => #v[⟨.never, .sameDimm, .ohm40, .off⟩, .unused, .unused, .unused]
  | noneAndTwo => #v[.unused, .unused, ⟨.never, .sameDimm, .ohm40, .off⟩, .unused]
  | oneAndNone => #v[⟨.never, .accessed, .ohm40, .off⟩, .unused, .unused, .unused]
  | noneAndOne => #v[.unused, .unused, ⟨.never, .accessed, .ohm40, .off⟩, .unused]
  | unknown => Vector.replicate 4 ⟨.never, .accessed, .ohm120, .off⟩

end Population

end SdramBringup
