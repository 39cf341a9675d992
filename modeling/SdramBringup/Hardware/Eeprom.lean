/-
**Data sheet memories on a serial bus.**

The data sheet memory of a module is an EEPROM on a two wire bus. A write sets the position that the
next read starts from; a read beyond the memory finds an idle bus, which reads as ones. An image is
one page, so it is fetched in a single transfer from the start.

Main definitions:

* `Eeprom`, `EepromBus` — a memory on the bus, and the bus;
* `EepromBus.writeRead` — a transfer, with what was seen on the bus;
* `SpdAddresses` — where the memories of the slots are;
* `EepromBus.readImage` — the image of a slot, or why there is none;
* `EepromBus.source` — the bus as a source of images.
-/

import SdramBringup.Spd.Image

set_option relaxedAutoImplicit false
set_option autoImplicit false

namespace SdramBringup

/-- A memory on the bus. -/
structure Eeprom where
  address : Nat
  data : List UInt8
  /-- Where the next read starts. -/
  position : Nat := 0
  deriving DecidableEq, Repr

/-- The memories on a bus. -/
abbrev EepromBus := List Eeprom

/-- What is seen on the bus. -/
inductive Transfer where
  | write (address : Nat) (bytes : List UInt8)
  | read (address count : Nat)
  /-- No memory answers to the address. -/
  | noAcknowledge (address : Nat)
  deriving DecidableEq, Repr

/-- The addresses of the memories by controller and slot, where a slot has one. -/
abbrev SpdAddresses := Vector (Vector (Option Nat) 2) 3

/-- Why the image of a slot cannot be read. -/
inductive SpdReadError where
  /-- The slot has no memory. -/
  | noAddress (ctrl slot : Nat)
  /-- The memory of the slot does not answer. -/
  | noAcknowledge
  deriving DecidableEq, Repr

/-- The reason in words. -/
def SpdReadError.message : SpdReadError → String
  | noAddress ctrl slot => s!"no SPD EEPROM address for controller {ctrl} slot {slot}"
  | noAcknowledge => "I2C error: NoAcknowledge(Address)"

/-- A source of images by controller and slot; `none` if the read fails. -/
abbrev SpdSource := Fin 3 → Fin 2 → Option Spd.Image

namespace Eeprom

/-- The memory after a write: its position is the first byte of it. -/
def seek (e : Eeprom) (out : List UInt8) : Eeprom :=
  { e with position := (out.head?.map (·.toNat)).getD e.position }

/-- The bytes of a read. -/
def fetch (e : Eeprom) (count : Nat) : List UInt8 :=
  (List.range count).map fun i => e.data.getD (e.position + i) 0xFF

end Eeprom

namespace EepromBus

/-- A write and a read in one transfer: what was read, the bus after it, and what was seen. -/
def writeRead (bus : EepromBus) (address : Nat) (out : List UInt8) (count : Nat) :
    Option (List UInt8) × EepromBus × List Transfer :=
  match bus.find? (·.address == address) with
  | none => (none, bus, [.noAcknowledge address])
  | some e =>
      let bus' := bus.map fun f => if f.address == address then f.seek out else f
      (some ((e.seek out).fetch count), bus', [.write address out, .read address count])

/-- The address of the memory of a slot. -/
def addressOf? (addresses : SpdAddresses) (ctrl slot : Nat) : Option Nat :=
  (addresses[ctrl]?.bind (·[slot]?)).join

/-- The image of a slot, or why there is none. -/
def readImage (bus : EepromBus) (addresses : SpdAddresses) (ctrl slot : Nat) :
    Except SpdReadError Spd.Image × EepromBus × List Transfer :=
  match addressOf? addresses ctrl slot with
  | none => (.error (.noAddress ctrl slot), bus, [])
  | some address =>
      let (answer, bus', seen) := bus.writeRead address [0] 256
      match answer with
      | none => (.error .noAcknowledge, bus', seen)
      | some bytes => (.ok (Spd.Image.ofBytes bytes), bus', seen)

/-- The bus as a source of images. -/
def source (bus : EepromBus) (addresses : SpdAddresses) : SpdSource := fun ctrl slot =>
  (bus.readImage addresses ctrl slot).1.toOption

end EepromBus

end SdramBringup
