/-
**Words in memory, most significant byte first.**

The registers of the controller are big-endian, whatever the order of the processor is: the byte at
the lowest address holds the highest bits.

Main definitions:

* `BigEndian.bytes`, `BigEndian.word` — a word as four bytes, and back;
* `BigEndian.load`, `BigEndian.store` — a word in a memory of bytes.

Main results:

* `BigEndian.word_bytes` — the four bytes of a word are the word.
-/

import SdramBringup.Register.Field

set_option relaxedAutoImplicit false
set_option autoImplicit false

namespace SdramBringup.BigEndian

/-- The byte of a word that starts at a bit. -/
def byteAt (w : Word) (low : Nat) : UInt8 := UInt8.ofBitVec (w.extractLsb' low 8)

/-- The bytes of a word in the order of their addresses. -/
def bytes (w : Word) : List UInt8 := [byteAt w 24, byteAt w 16, byteAt w 8, byteAt w 0]

/-- The word of four bytes in the order of their addresses. -/
def word (b₀ b₁ b₂ b₃ : UInt8) : Word :=
  BitVec.ofNat 32 (((b₀.toNat * 256 + b₁.toNat) * 256 + b₂.toNat) * 256 + b₃.toNat)

theorem toNat_byteAt (w : Word) (low : Nat) : (byteAt w low).toNat = w.toNat / 2 ^ low % 256 := by
  simp [byteAt, UInt8.toNat, Nat.shiftRight_eq_div_pow]

theorem word_bytes (w : Word) : word (byteAt w 24) (byteAt w 16) (byteAt w 8) (byteAt w 0) = w := by
  apply BitVec.eq_of_toNat_eq
  have h := w.isLt
  simp only [word, toNat_byteAt, BitVec.toNat_ofNat]
  omega

/-- The word at an address. Beyond the memory all bytes are zero. -/
def load (memory : List UInt8) (address : Nat) : Word :=
  word (memory.getD address 0) (memory.getD (address + 1) 0) (memory.getD (address + 2) 0)
    (memory.getD (address + 3) 0)

/-- The memory with a word written at an address. -/
def store (memory : List UInt8) (address : Nat) (w : Word) : List UInt8 :=
  (((memory.set address (byteAt w 24)).set (address + 1) (byteAt w 16)).set (address + 2)
    (byteAt w 8)).set (address + 3) (byteAt w 0)

end SdramBringup.BigEndian
