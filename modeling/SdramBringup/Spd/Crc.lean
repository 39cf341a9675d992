/-
**The checksum of a module's data sheet memory.**

The serial presence detect memory of a module is protected by a sixteen bit cyclic redundancy check
with the polynomial `x ^ 16 + x ^ 12 + x ^ 5 + 1`, initial value zero and no reflection. The check
is defined bit by bit: a byte enters at the top of the register and is divided out in eight steps.

Main definitions:

* `Spd.Crc.step` — one step of the division;
* `Spd.Crc.absorb` — the register after one more byte;
* `Spd.Crc.checksum` — the check of a sequence of bytes.
-/

import SdramBringup.Instances

set_option relaxedAutoImplicit false
set_option autoImplicit false

namespace SdramBringup.Spd.Crc

/-- The polynomial without its leading term. -/
def polynomial : BitVec 16 := 0x1021#16

/-- One step of the division: the register shifts up, and the polynomial is subtracted if a one was
shifted out. -/
def step (r : BitVec 16) : BitVec 16 :=
  if r.msb then (r <<< 1) ^^^ polynomial else r <<< 1

/-- `n` steps of the division. -/
def steps : Nat → BitVec 16 → BitVec 16
  | 0, r => r
  | n + 1, r => steps n (step r)

/-- The register after one more byte. -/
def absorb (r : BitVec 16) (b : UInt8) : BitVec 16 :=
  steps 8 (r ^^^ (b.toBitVec.setWidth 16 <<< 8))

/-- The check of a sequence of bytes. -/
def checksum (bytes : List UInt8) : BitVec 16 := bytes.foldl absorb 0#16

end SdramBringup.Spd.Crc
