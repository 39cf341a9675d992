/-
**The data sheet memory of a memory module.**

A DDR3 module describes itself in 256 bytes of serial presence detect data. This module holds the
image of that memory, the few bytes that say whether the image can be trusted, and its checksum.
What the trusted bytes mean is in `Spd.Decode`.

Main definitions:

* `Spd.Image` — the 256 bytes;
* `Spd.Image.storedCrc`, `Spd.Image.computedCrc` — the check in the image and the one its covered
  bytes have;
* `Spd.Image.withCrc` — the image with the check put right.
-/

import SdramBringup.Spd.Crc

set_option relaxedAutoImplicit false
set_option autoImplicit false

namespace SdramBringup.Spd

/-- The image of a module's serial presence detect memory. -/
structure Image where
  /-- The bytes, by their offset. -/
  bytes : Vector UInt8 256
  deriving DecidableEq

namespace Image

/-- The image of a memory that holds nothing: all bytes are zero. -/
def blank : Image := ⟨Vector.replicate 256 0⟩

instance : Inhabited Image := ⟨blank⟩

/-- The value of the byte at an offset. -/
def byte (s : Image) (offset : Fin 256) : Nat := s.bytes[offset].toNat

/-- The image with the byte at an offset replaced. -/
def setByte (s : Image) (offset : Fin 256) (b : UInt8) : Image := ⟨s.bytes.set offset b⟩

/-- The image that starts with the given bytes and is zero from there on. Bytes beyond the image are
dropped. -/
def ofBytes (bytes : List UInt8) : Image := ⟨Vector.ofFn fun i => bytes.getD i 0⟩

/-! ### The bytes that make an image trustworthy -/

/-- The memory type of DDR3 modules. -/
def ddr3 : Nat := 0x0B

/-- The kind of memory that the module holds. -/
def memoryType (s : Image) : Nat := s.byte 2

/-- The code of the module's build: the low half of its byte. -/
def moduleType (s : Image) : Nat := s.byte 3 % 16

/-- The number of bytes that the check covers, from the first one on. The top bit of the first byte
leaves out the bytes that a vendor writes per module. -/
def crcCoverage (s : Image) : Nat := if 128 ≤ s.byte 0 then 117 else 126

/-- The check in the image, low byte first. -/
def storedCrc (s : Image) : BitVec 16 := s.bytes[127].toBitVec ++ s.bytes[126].toBitVec

/-- The check that the covered bytes have. -/
def computedCrc (s : Image) : BitVec 16 := Crc.checksum (s.bytes.toList.take s.crcCoverage)

/-- The image carries the check that its covered bytes have. -/
def crcValid (s : Image) : Bool := s.storedCrc == s.computedCrc

/-- The image with its check put right. -/
def withCrc (s : Image) : Image :=
  (s.setByte 126 (UInt8.ofBitVec (s.computedCrc.setWidth 8))).setByte 127
    (UInt8.ofBitVec ((s.computedCrc >>> 8).setWidth 8))

end Image

end SdramBringup.Spd
