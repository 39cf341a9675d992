/-
**Numbers and bytes in base sixteen.**

Codes and masks appear in messages with the mark `0x` and lower case digits, padded with zeros to a
least number of digits. Memory is dumped with two digits for each byte.

Main definitions:

* `Hex.digits` — the digits of a number;
* `Hex.marked` — a number with its mark and at least a given number of digits;
* `Hex.dump`, `Hex.undump?` — bytes as digits, and back.
-/

import SdramBringup.Instances

set_option relaxedAutoImplicit false
set_option autoImplicit false

namespace SdramBringup.Hex

/-- The lower case digits of `n` in base sixteen, most significant first, without padding. -/
def digits (n : Nat) : List Char := Nat.toDigits 16 n

/-- The mark `0x` followed by at least `least` digits of `n`. -/
def marked (least n : Nat) : String :=
  "0x" ++ String.ofList ((digits n).leftpad least '0')

/-- The bytes in order, two digits each. -/
def dump (bytes : List UInt8) : String :=
  String.ofList (bytes.flatMap fun b => (digits b.toNat).leftpad 2 '0')

/-- The value of a lower case digit. -/
def digit? (c : Char) : Option Nat := (List.range 16).find? fun n => n.digitChar == c

/-- The bytes of a dump; `none` if a digit is missing or there is something else. -/
def undump? : List Char → Option (List UInt8)
  | [] => some []
  | [_] => none
  | a :: b :: rest => do
      let high ← digit? a
      let low ← digit? b
      let bytes ← undump? rest
      return UInt8.ofNat (high * 16 + low) :: bytes

end SdramBringup.Hex
