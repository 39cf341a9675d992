/-
**From a data sheet image to a memory module.**

Decoding first settles whether the image can be trusted — memory type, check, kind of module,
timebase, in this order — and then reads geometry and minimum times off fixed bytes. Times are
counts of a medium timebase, some of them corrected by a signed count of a fine one; products are
32 bit quantities.

A product may be too large for that. A release build keeps its low 32 bits: this is `Spd.Image.decode`,
and with it everything that is computed from modules. A build with overflow checks stops there
instead: this is `Spd.Image.decodeChecked`.

Main definitions:

* `Spd.Error` — why an image is refused, with `Spd.Error.message` and `Spd.Error.isFatal`;
* `Spd.ModuleKind` — registered or unbuffered, by the module's code;
* `Spd.Timebase` — the units of the times in an image;
* `Spd.Image.dimm` — what a trusted image says;
* `Spd.Image.decode` — the module, or the first reason to refuse the image;
* `Spd.Image.decodeChecked` — the same in a build that stops at a product of more than 32 bits.
-/

import SdramBringup.Dimm
import SdramBringup.Hex
import SdramBringup.Spd.Image

set_option relaxedAutoImplicit false
set_option autoImplicit false

namespace SdramBringup.Spd

/-! ### Refusals -/

/-- Why an image does not describe a usable module. -/
inductive Error where
  /-- Nothing is plugged in. -/
  | empty
  /-- The module holds another kind of memory. -/
  | unsupportedMemoryType (code : Nat)
  /-- The build of the module is not known. -/
  | unsupportedModuleType (code : Nat)
  /-- The check of the image is wrong. -/
  | crcMismatch (stored computed : BitVec 16)
  /-- The medium timebase divides by zero. -/
  | invalidTimebase (dividend divisor : Nat)
  deriving DecidableEq, Repr

namespace Error

/-- The refusal in words. -/
def message : Error → String
  | empty => "SPD is empty"
  | unsupportedMemoryType code => "unsupported memory type " ++ Hex.marked 2 code
  | unsupportedModuleType code => "unsupported module type " ++ Hex.marked 2 code
  | crcMismatch stored computed =>
      "SPD CRC mismatch, expected " ++ Hex.marked 4 stored.toNat ++ ", computed " ++
        Hex.marked 4 computed.toNat
  | invalidTimebase dividend divisor => s!"invalid medium timebase {dividend}/{divisor}"

/-- A module is present, but nothing in its image can be trusted. -/
def isFatal : Error → Bool
  | crcMismatch _ _ => true
  | _ => false

end Error

/-! ### The kind of a module -/

/-- Whether commands and addresses reach the memory devices through a register. -/
inductive ModuleKind where
  | registered
  | unbuffered
  deriving DecidableEq, Repr

/-- The kind of a module by its code, if the code is known. -/
def ModuleKind.ofCode? (code : Nat) : Option ModuleKind :=
  if code = 1 ∨ code = 5 ∨ code = 9 then some registered
  else if 1 < code ∧ code < 14 then some unbuffered
  else none

/-! ### Times -/

/-- The units of the times in an image. -/
structure Timebase where
  /-- The medium timebase in whole picoseconds. -/
  medium : Nat
  /-- The fine timebase in tenths of a picosecond. -/
  fine : Nat

/-- What a build with overflow checks stops at. -/
inductive Overflow where
  /-- A product has more than 32 bits. -/
  | multiply
  deriving DecidableEq, Repr

/-- The last words of a build with overflow checks. -/
def Overflow.message : Overflow → String
  | multiply => "attempt to multiply with overflow"

/-- A count of the medium timebase in picoseconds, as a 32 bit quantity. A release build has no
overflow checks, so that a product of more than 32 bits loses those beyond. -/
def Timebase.time (t : Timebase) (count : Nat) : Nat := count * t.medium % 2 ^ 32

/-- A count of the medium timebase in picoseconds, in a build with overflow checks. -/
def Timebase.checkedTime (t : Timebase) (count : Nat) : Except Overflow Nat :=
  if count * t.medium < 2 ^ 32 then .ok (count * t.medium) else .error .multiply

/-- A time corrected by a count of the fine timebase. The count is a signed byte, its tenths are cut
off toward zero, and the result is kept within 32 bits. -/
def Timebase.correct (t : Timebase) (ps count : Nat) : Nat :=
  min (2 ^ 32 - 1) ((ps : Int) + Int.tdiv (Int.bmod count 256 * t.fine) 10).toNat

namespace Image

/-- The dividend of the medium timebase, whose unit is a nanosecond. -/
def mediumDividend (s : Image) : Nat := s.byte 10

/-- The divisor of the medium timebase. -/
def mediumDivisor (s : Image) : Nat := s.byte 11

/-- The timebases of an image. A fine timebase that divides by zero is zero. -/
def timebase (s : Image) : Timebase where
  medium := s.mediumDividend * 1000 / s.mediumDivisor
  fine := s.byte 9 / 16 * 10 / (s.byte 9 % 16)

/-- The minimum times in an image, by what becomes of a count. The counts are taken one after
another. -/
def timingBy {m : Type → Type} [Monad m] (s : Image) (time : Nat → m Nat) : m Timing := do
  let tCK ← time (s.byte 12)
  let tAA ← time (s.byte 16)
  let tWR ← time (s.byte 17)
  let tRCD ← time (s.byte 18)
  let tRRD ← time (s.byte 19)
  let tRP ← time (s.byte 20)
  let tRAS ← time (s.byte 21 % 16 * 256 + s.byte 22)
  let tRC ← time (s.byte 21 / 16 * 256 + s.byte 23)
  let tRFC ← time (s.byte 25 * 256 + s.byte 24)
  let tWTR ← time (s.byte 26)
  let tRTP ← time (s.byte 27)
  let tFAW ← time (s.byte 28 % 16 * 256 + s.byte 29)
  let t := s.timebase
  return {
    tCK := t.correct tCK (s.byte 34)
    tAA := t.correct tAA (s.byte 35)
    tRCD := t.correct tRCD (s.byte 36)
    tRP := t.correct tRP (s.byte 37)
    tRC := t.correct tRC (s.byte 38)
    tWR, tRRD, tRAS, tRFC, tWTR, tRTP, tFAW }

/-- The minimum times in an image. -/
def timing (s : Image) : Timing := Id.run (s.timingBy fun count => pure (s.timebase.time count))

/-! ### Geometry -/

/-- The size of one rank: the capacity of a memory device times the number of devices that share the
data lines. -/
def rankSize (s : Image) : Nat :=
  2 ^ (s.byte 4 % 16 + 28 - 3 + (s.byte 8 % 8 + 3) - (s.byte 7 % 8 + 2))

/-- Number of ranks. -/
def ranks (s : Image) : Nat := s.byte 7 / 8 % 8 + 1

/-- Data lines without those for error correction. -/
def primaryWidth (s : Image) : Nat := 2 ^ (3 + s.byte 8 % 8)

/-- Data lines for error correction: a module has eight or none. -/
def extensionWidth (s : Image) : Nat := if s.byte 8 / 8 % 4 = 0 then 0 else 8

/-- The refresh interval of the normal temperature range. -/
def normalRefreshPs : Nat := 7800000

/-- The refresh interval of the extended temperature range. -/
def extendedRefreshPs : Nat := 3900000

/-- The module supports the extended temperature range, but not at the normal refresh interval. -/
def needsExtendedRefresh (s : Image) : Bool := s.byte 31 % 4 == 1

/-- Control word `i` of the register: two words share a byte, the even one in the low half. -/
def controlWord (s : Image) (i : Fin 16) : UInt8 :=
  let b := s.bytes[69 + i.val / 2]
  if i.val % 2 = 0 then b % 16 else b / 16

/-! ### The part number -/

/-- The character of a byte, with a question mark for what cannot be printed. -/
def printable (b : UInt8) : Char :=
  if 0x20 ≤ b.toNat ∧ b.toNat < 0x7F then Char.ofNat b.toNat else '?'

/-- The text of a padded field: it ends before the first zero byte, and trailing blanks are
padding. -/
def fieldText (bytes : List UInt8) : String :=
  let text := (bytes.takeWhile (· != 0)).map printable
  String.ofList (text.reverse.dropWhile (· == ' ')).reverse

/-- The part number, which only images with more than 128 used bytes have. -/
def partNumber (s : Image) : String :=
  if s.byte 0 % 16 ≤ 1 then "" else fieldText ((s.bytes.toList.drop 128).take 18)

/-! ### Decoding -/

/-- The module that a trusted image of the given kind describes. -/
def dimm (s : Image) (kind : ModuleKind) : Dimm where
  partNumber := s.partNumber
  ranks := s.ranks
  rankSize := s.rankSize
  capacity := s.ranks * s.rankSize
  primaryWidth := s.primaryWidth
  extensionWidth := s.extensionWidth
  dataWidth := s.primaryWidth + s.extensionWidth
  deviceWidth := 2 ^ (s.byte 7 % 8 + 2)
  registered := kind = .registered
  mirrored := kind = .unbuffered && s.byte 63 % 2 == 1
  eccCapable := s.extensionWidth ≠ 0
  rowBits := s.byte 5 / 8 % 8 + 12
  columnBits := s.byte 5 % 8 + 9
  banks := 8 * 2 ^ (s.byte 4 / 16 % 8)
  burstLengths := 0x0C
  mediumTimebase := s.timebase.medium
  fineTimebase := s.timebase.fine
  timing := s.timing
  casLatencies := BitVec.ofNat 32 ((s.byte 15 * 256 + s.byte 14) * 16)
  refreshInterval := if s.needsExtendedRefresh then extendedRefreshPs else normalRefreshPs
  extendedTemperature := s.needsExtendedRefresh
  controlWords :=
    if kind = .registered then Vector.ofFn s.controlWord else Vector.replicate 16 0

/-- The module that an image describes, or the first reason to refuse the image, in a release
build. -/
def decode (s : Image) : Except Error Dimm :=
  if s.memoryType = 0 then .error .empty
  else if s.memoryType ≠ ddr3 then .error (.unsupportedMemoryType s.memoryType)
  else if s.storedCrc ≠ s.computedCrc then .error (.crcMismatch s.storedCrc s.computedCrc)
  else
    match ModuleKind.ofCode? s.moduleType with
    | none => .error (.unsupportedModuleType s.moduleType)
    | some kind =>
        if s.mediumDivisor = 0 then .error (.invalidTimebase s.mediumDividend s.mediumDivisor)
        else .ok (s.dimm kind)

/-- The module that an image describes, or the first reason to refuse the image, in a build with
overflow checks: an image that is not refused may have a time that stops the build. -/
def decodeChecked (s : Image) : Except Overflow (Except Error Dimm) :=
  match s.decode with
  | .error e => .ok (.error e)
  | .ok d => do
      let timing ← s.timingBy s.timebase.checkedTime
      return .ok { d with timing }

/-- What a build with overflow checks stops at when it decodes an image, if it does. -/
def overflow (s : Image) : Option Overflow :=
  match s.decodeChecked with
  | .error e => some e
  | .ok _ => none

end Image

end SdramBringup.Spd
