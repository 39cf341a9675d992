/-
**Interleaving of controllers and of chip selects.**

Two or more controllers can share one address range, and so can the ranks behind one controller.
This module holds the modes, their register codes, which modes a population of ranks admits, and
the source that says what is asked for.

Main definitions:

* `ControllerMode` — how controllers share a range, with `ControllerMode.ways` and
  `ControllerMode.code`;
* `BankMode` — how the chip selects of a controller share a range, with `BankMode.code`;
* `BankMode.widest` — the widest mode of a population;
* `BankMode.supported` — the population admits the mode;
* `InterleaveSource` — what is asked for, per controller.
-/

import SdramBringup.Instances

set_option relaxedAutoImplicit false
set_option autoImplicit false

namespace SdramBringup

/-! ### Controllers -/

/-- How controllers share an address range: by cache line, page, bank or superbank among two, by a
granule of 1, 4 or 8 KiB among three or four. -/
inductive ControllerMode where
  | cacheLine
  | page
  | bank
  | superbank
  | threeWay1k
  | threeWay4k
  | threeWay8k
  | fourWay1k
  | fourWay4k
  | fourWay8k
  deriving DecidableEq, Repr

namespace ControllerMode

/-- All modes, in the order of their codes. -/
def all : List ControllerMode :=
  [cacheLine, page, bank, superbank, threeWay1k, threeWay4k, threeWay8k, fourWay1k, fourWay4k,
    fourWay8k]

/-- The code of a mode in the registers. -/
def code : ControllerMode → Nat
  | cacheLine => 0x00
  | page => 0x01
  | bank => 0x02
  | superbank => 0x03
  | threeWay1k => 0x0A
  | threeWay4k => 0x0C
  | threeWay8k => 0x0D
  | fourWay1k => 0x1A
  | fourWay4k => 0x1C
  | fourWay8k => 0x1D

/-- The mode of a code, if the code has one. -/
def ofCode? (n : Nat) : Option ControllerMode := all.find? fun m => m.code == n

/-- How many controllers share the range. -/
def ways : ControllerMode → Nat
  | cacheLine | page | bank | superbank => 2
  | threeWay1k | threeWay4k | threeWay8k => 3
  | fourWay1k | fourWay4k | fourWay8k => 4

end ControllerMode

/-! ### Chip selects -/

/-- How the chip selects of a controller share its range. -/
inductive BankMode where
  /-- Every rank has a range of its own. -/
  | off
  /-- Chip selects 0 and 1 share a range. -/
  | lowPair
  /-- Chip selects 2 and 3 share a range. -/
  | highPair
  /-- Both pairs share a range each. -/
  | bothPairs
  /-- All four chip selects share a range. -/
  | allFour
  /-- A request for the widest mode of the population. -/
  | auto
  deriving DecidableEq, Repr

namespace BankMode

/-- All modes. -/
def all : List BankMode := [off, lowPair, highPair, bothPairs, allFour, auto]

/-- The code of a mode in the configuration register. -/
def code : BankMode → Nat
  | off | auto => 0x00
  | lowPair => 0x40
  | highPair => 0x20
  | bothPairs => 0x60
  | allFour => 0x04

/-- The widest mode for the ranks `r₀` and `r₁` of the slots. -/
def widest (slots r₀ r₁ : Nat) (quadCapable : Bool) : BankMode :=
  if slots = 1 then
    if r₀ = 4 then allFour else if r₀ = 2 then lowPair else off
  else if r₀ = 4 ∧ quadCapable then allFour
  else if r₀ = 2 then if r₁ = 2 then allFour else lowPair
  else off

/-- The ranks `r₀` and `r₁` of the slots admit the mode. -/
def supported (mode : BankMode) (slots r₀ r₁ : Nat) (quadCapable : Bool) : Bool :=
  match mode with
  | off | auto => true
  | lowPair => 2 ≤ r₀
  | highPair => if slots = 1 then 4 ≤ r₀ else 2 ≤ r₁
  | bothPairs => if slots = 1 then 4 ≤ r₀ else 2 ≤ r₀ ∧ 2 ≤ r₁
  | allFour =>
      if slots = 1 then 4 ≤ r₀ else (quadCapable ∧ r₀ = 4) ∨ (2 ≤ r₀ ∧ r₀ = r₁)

end BankMode

/-! ### What is asked for -/

/-- What is asked for, per controller. No answer leaves the feature off. -/
structure InterleaveSource where
  controller : Nat → Option ControllerMode := fun _ => none
  bank : Nat → Option BankMode := fun _ => none
  ecc : Nat → Option Bool := fun _ => none

/-- The same configuration for every controller. -/
def InterleaveSource.uniform (controller : Option ControllerMode) (bank : Option BankMode)
    (ecc : Bool) : InterleaveSource where
  controller _ := controller
  bank _ := bank
  ecc _ := some ecc

end SdramBringup
