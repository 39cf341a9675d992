/-
**A device that keeps what it is given.**

The plainest controller stores every write and answers reads from what is stored. The one thing it
does by itself is to end the data initialization: after a number of polls, or never, it clears the
bit that says that the memory is being filled.

Main definitions:

* `RegisterBank` — the stored words and the polls that are still answered with the bit as it is;
* `RegisterBank.device` — the bank as a device.
-/

import SdramBringup.Hardware.Program
import SdramBringup.Register.Map

set_option relaxedAutoImplicit false
set_option autoImplicit false

namespace SdramBringup

/-- A bank of registers, of any number of controllers. -/
structure RegisterBank where
  /-- The word at each address. -/
  contents : Nat → Word := fun _ => 0
  /-- How many polls find the data initialization as it was stored; `none` if all of them do. -/
  pendingPolls : Option Nat := some 0

namespace RegisterBank

/-- The bank with a word replaced. -/
def put (b : RegisterBank) (address : Nat) (value : Word) : RegisterBank :=
  { b with contents := fun a => if a = address then value else b.contents a }

/-- The address is that of the second configuration register of a controller. -/
def isPolled (address : Nat) : Bool := address % 0x1000 == Register.sdramConfig2.offset

/-- The answer to a read. A poll counts down, and ends the data initialization when it finds the
count at zero. -/
def answer (address : Nat) (b : RegisterBank) : Word × RegisterBank :=
  let value := b.contents address
  if isPolled address then
    match b.pendingPolls with
    | none => (value, b)
    | some (n + 1) => (value, { b with pendingPolls := some n })
    | some 0 =>
        let cleared := value &&& ~~~Bits.dataInit
        (cleared, b.put address cleared)
  else (value, b)

/-- The bank as a device. -/
def device : Device RegisterBank where
  read := answer
  act action b :=
    match action with
    | .write address value => b.put address value
    | _ => b

end RegisterBank

end SdramBringup
