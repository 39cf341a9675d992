/-
**What the check of an image is worth.**

The check is the remainder of a division of polynomials over two elements. A step of the division is
linear and loses nothing, so whole sequences of bytes that differ are told apart unless later
differences undo earlier ones. Two bytes after one another fill the register, and within it there is
nothing to undo: a change of one byte or of two neighbours is always seen. The two bytes where the
check is stored are not covered by it, so that it can be put right in any image.

Main definitions:

* `Spd.Image.covered` — the bytes that the check covers;
* `Spd.Image.BurstApart` — images that differ in a covered byte or two neighbours;
* `Spd.Image.CheckGuards` — **what the check is worth**.

Main results:

* `Spd.Crc.step_xor`, `Spd.Crc.step_injective` — **a step is linear and loses nothing**;
* `Spd.Crc.absorb_absorb` — two bytes are as good as one word;
* `Spd.Crc.eq_of_foldl_absorb` — sequences that differ in a byte or two neighbours are told apart;
* `Spd.Image.crcValid_withCrc`, `Spd.Image.trustworthy_withCrc_iff`,
  `Spd.Image.decode_withCrc_ofBytes` — what putting the check right comes to;
* `Spd.Image.BurstApart.computedCrc_ne` — **a change of a byte or two neighbours changes the check**;
* `Spd.Image.checkGuards` — **the check catches what it is there for**.
-/

import Mathlib.Logic.Function.Basic
import SdramBringup.Proofs.TrustedImage

set_option relaxedAutoImplicit false
set_option autoImplicit false

namespace SdramBringup

namespace Spd.Crc

/-! ### Steps of the division -/

/-- What a step adds to the register that it has shifted. -/
def feedback (carry : Bool) : BitVec 16 := bif carry then polynomial else 0#16

theorem feedback_xor (a b : Bool) : feedback (a ^^ b) = feedback a ^^^ feedback b := by
  cases a <;> cases b <;> simp [feedback]

theorem step_eq (r : BitVec 16) : step r = (r <<< 1) ^^^ feedback r.msb := by
  cases hmsb : r.msb <;> simp [step, feedback, hmsb]

/-- **A step is linear.** -/
theorem step_xor (a b : BitVec 16) : step (a ^^^ b) = step a ^^^ step b := by
  rw [step_eq, step_eq, step_eq, BitVec.msb_xor, feedback_xor, BitVec.shiftLeft_xor_distrib]
  ac_rfl

/-- What is shifted out at the top comes back at the bottom, as the polynomial ends in a one. -/
theorem getLsbD_step_zero (r : BitVec 16) : (step r).getLsbD 0 = r.msb := by
  rw [step_eq]
  cases r.msb <;> simp [feedback, polynomial]

theorem eq_zero_of_step {r : BitVec 16} (h : step r = 0#16) : r = 0#16 := by
  have hmsb : r.msb = false := by
    rw [← getLsbD_step_zero, h]
    rfl
  rw [step_eq, hmsb] at h
  refine BitVec.eq_of_getLsbD_eq fun i hi => ?_
  by_cases htop : i = 15
  · rw [htop]
    exact hmsb
  · have hbit := congrArg (BitVec.getLsbD · (i + 1)) h
    have hnext : i + 1 < 16 := by omega
    rw [BitVec.getLsbD_eq_getElem hi]
    simpa [feedback, hnext] using hbit

/-- **A step loses nothing.** -/
theorem step_injective : Function.Injective step := by
  intro a b h
  refine BitVec.xor_eq_zero_iff.1 (eq_zero_of_step ?_)
  rw [step_xor, h, BitVec.xor_self]

theorem steps_xor (n : Nat) (a b : BitVec 16) :
    steps n (a ^^^ b) = steps n a ^^^ steps n b := by
  induction n generalizing a b with
  | zero => rfl
  | succ n ih => rw [steps, step_xor, ih, steps, steps]

theorem steps_injective (n : Nat) : Function.Injective (steps n) := by
  induction n with
  | zero => exact fun _ _ h => h
  | succ n ih => exact fun a b h => step_injective (ih h)

theorem steps_add (m n : Nat) (r : BitVec 16) : steps (m + n) r = steps n (steps m r) := by
  induction m generalizing r with
  | zero => rw [Nat.zero_add, steps]
  | succ m ih => rw [Nat.succ_add, steps, ih, steps]

/-- As long as only zeros are shifted out, a division is a shift. -/
theorem steps_of_low {n : Nat} {r : BitVec 16} (h : ∀ i, 16 ≤ i + n → r.getLsbD i = false) :
    steps n r = r <<< n := by
  induction n generalizing r with
  | zero => simp [steps]
  | succ n ih =>
      have hmsb : r.msb = false := h 15 (by omega)
      have hstep : step r = r <<< 1 := by simp [step, hmsb]
      rw [steps, hstep, ih, ← BitVec.shiftLeft_add, Nat.add_comm]
      intro i hi
      simp [BitVec.getLsbD_shiftLeft, h (i - 1) (by omega)]

/-! ### Bytes -/

/-- Two bytes after one another are as good as a word of both. -/
theorem absorb_absorb (r : BitVec 16) (a b : UInt8) :
    absorb (absorb r a) b = steps 16 (r ^^^ (a.toBitVec ++ b.toBitVec)) := by
  have hlow : steps 8 (b.toBitVec.setWidth 16) = b.toBitVec.setWidth 16 <<< 8 := by
    refine steps_of_low fun i hi => ?_
    rw [BitVec.getLsbD_setWidth, BitVec.getLsbD_of_ge _ i (by omega), Bool.and_false]
  have happend : a.toBitVec ++ b.toBitVec =
      (a.toBitVec.setWidth 16 <<< 8) ^^^ b.toBitVec.setWidth 16 := by
    refine BitVec.eq_of_getLsbD_eq fun i hi => ?_
    rw [BitVec.getLsbD_append, BitVec.getLsbD_xor, BitVec.getLsbD_shiftLeft,
      BitVec.getLsbD_setWidth, BitVec.getLsbD_setWidth]
    have hword : i < 16 := hi
    by_cases hbyte : i < 8
    · simp [hbyte, hword]
    · have hhigh : i - 8 < 16 := by omega
      simp [hbyte, hword, hhigh, BitVec.getLsbD_of_ge b.toBitVec i (Nat.not_lt.1 hbyte)]
  rw [absorb, absorb, ← hlow, ← steps_xor, ← steps_add, happend, BitVec.xor_assoc]

theorem absorb_injective (b : UInt8) : Function.Injective (absorb · b) := by
  intro r s h
  exact (BitVec.xor_left_inj _).1 (steps_injective 8 h)

theorem foldl_absorb_injective (l : List UInt8) :
    Function.Injective fun r => l.foldl absorb r := by
  induction l with
  | nil => exact fun _ _ h => h
  | cons b l ih => exact fun r s h => absorb_injective b (ih h)

/-- **Two bytes after one another are told apart** by what they leave in the register. -/
theorem absorb_absorb_inj {r : BitVec 16} {a b c d : UInt8}
    (h : absorb (absorb r a) b = absorb (absorb r c) d) : a = c ∧ b = d := by
  rw [absorb_absorb, absorb_absorb] at h
  have hword : a.toBitVec ++ b.toBitVec = c.toBitVec ++ d.toBitVec :=
    (BitVec.xor_right_inj r).1 (steps_injective 16 h)
  constructor
  · have hhigh := congrArg (BitVec.extractLsb' 8 8) hword
    rw [BitVec.extractLsb'_append_eq_left, BitVec.extractLsb'_append_eq_left] at hhigh
    exact UInt8.toBitVec_inj.1 hhigh
  · have hlow := congrArg (BitVec.setWidth 8) hword
    rw [BitVec.setWidth_append_eq_right, BitVec.setWidth_append_eq_right] at hlow
    exact UInt8.toBitVec_inj.1 hlow

/-! ### Sequences of bytes -/

/-- Sequences that differ in their first two bytes at most are told apart. -/
theorem eq_of_foldl_absorb_front {l m : List UInt8} {r : BitVec 16} (hlength : l.length = m.length)
    (hfront : ∀ j, l[j]? ≠ m[j]? → j < 2) (h : l.foldl absorb r = m.foldl absorb r) : l = m := by
  cases l with
  | nil => exact (List.length_eq_zero_iff.1 hlength.symm).symm
  | cons a l =>
      obtain ⟨b, m, rfl⟩ := List.exists_cons_of_length_eq_add_one hlength.symm
      cases l with
      | nil =>
          obtain rfl : m = [] := by simpa using hlength
          -- a further byte makes two neighbours of the last one
          have hboth : absorb (absorb r a) 0 = absorb (absorb r b) 0 := congrArg (absorb · 0) h
          rw [(absorb_absorb_inj hboth).1]
      | cons a' l =>
          obtain ⟨b', m, rfl⟩ := List.exists_cons_of_length_eq_add_one (Nat.succ.inj hlength.symm)
          have htail : l = m := by
            refine List.ext_getElem? fun j => ?_
            by_contra hne
            have hnear := hfront (j + 2) (by simpa using hne)
            omega
          subst htail
          have hboth : absorb (absorb r a) a' = absorb (absorb r b) b' :=
            foldl_absorb_injective l h
          obtain ⟨rfl, rfl⟩ := absorb_absorb_inj hboth
          rfl

/-- **Sequences that differ in a byte or two neighbours at most are told apart** by what they leave in
the register. -/
theorem eq_of_foldl_absorb {i : Nat} {l m : List UInt8} {r : BitVec 16}
    (hlength : l.length = m.length) (hburst : ∀ j, l[j]? ≠ m[j]? → j = i ∨ j = i + 1)
    (h : l.foldl absorb r = m.foldl absorb r) : l = m := by
  -- the bytes in front of the two neighbours are the same and leave the same in the register
  induction i generalizing l m r with
  | zero =>
      refine eq_of_foldl_absorb_front hlength (fun j hne => ?_) h
      have hnear := hburst j hne
      omega
  | succ i ih =>
      cases l with
      | nil => exact (List.length_eq_zero_iff.1 hlength.symm).symm
      | cons a l =>
          obtain ⟨b, m, rfl⟩ := List.exists_cons_of_length_eq_add_one hlength.symm
          have hhead : a = b := by
            by_contra hne
            have hnear := hburst 0 (by simpa using hne)
            omega
          subst hhead
          rw [List.foldl_cons, List.foldl_cons] at h
          have htail : l = m := by
            refine ih (Nat.succ.inj hlength) (fun j hne => ?_) h
            have hnear := hburst (j + 1) (by simpa using hne)
            omega
          rw [htail]

/-- The standard's own test of the check. -/
example : checksum [0x31, 0x32, 0x33, 0x34, 0x35, 0x36, 0x37, 0x38, 0x39] = 0x31C3#16 := by cbv

end Spd.Crc

namespace Spd.Image

/-! ### The bytes that the check covers -/

/-- The bytes that the check covers. -/
def covered (s : Image) : List UInt8 := s.bytes.toList.take s.crcCoverage

theorem crcCoverage_le (s : Image) : s.crcCoverage ≤ 126 := by
  unfold crcCoverage
  split_ifs <;> decide

theorem length_covered (s : Image) : s.covered.length = s.crcCoverage := by
  have hle := s.crcCoverage_le
  rw [covered, List.length_take, Vector.length_toList]
  omega

theorem getElem?_covered (s : Image) {i : Fin 256} (hi : i.val < s.crcCoverage) :
    s.covered[i.val]? = some s.bytes[i] := by
  rw [covered, List.getElem?_take_of_lt hi, Vector.getElem?_toList]
  exact Vector.getElem?_eq_getElem i.isLt

/-- A place where the covered bytes of two images differ is a byte that both checks cover. -/
theorem exists_of_getElem?_covered_ne {s t : Image} (hcoverage : s.crcCoverage = t.crcCoverage)
    {j : Nat} (h : s.covered[j]? ≠ t.covered[j]?) :
    ∃ i : Fin 256, i.val = j ∧ i.val < s.crcCoverage ∧ s.bytes[i] ≠ t.bytes[i] := by
  have hle := s.crcCoverage_le
  by_cases hj : j < s.crcCoverage
  · have hs := s.getElem?_covered (i := ⟨j, by omega⟩) hj
    have ht := t.getElem?_covered (i := ⟨j, by omega⟩) (hcoverage ▸ hj)
    exact ⟨⟨j, by omega⟩, rfl, hj, fun heq => h (hs.trans ((congrArg some heq).trans ht.symm))⟩
  · rw [List.getElem?_eq_none, List.getElem?_eq_none] at h
    · exact absurd rfl h
    · rw [length_covered]
      omega
    · rw [length_covered]
      omega

theorem storedCrc_eq (s : Image) :
    s.storedCrc = s.bytes[(127 : Fin 256)].toBitVec ++ s.bytes[(126 : Fin 256)].toBitVec := rfl

/-! ### Putting the check right -/

theorem ext_bytes {s t : Image} (h : ∀ i : Fin 256, s.bytes[i] = t.bytes[i]) : s = t :=
  congrArg Image.mk (Vector.ext fun i hi => h ⟨i, hi⟩)

theorem bytes_setByte (s : Image) (i j : Fin 256) (b : UInt8) :
    (s.setByte i b).bytes[j] = if i = j then b else s.bytes[j] := by
  rw [setByte, getElem_fin, Vector.getElem_set]
  simp [Fin.ext_iff, getElem_fin]

theorem bytes_withCrc (s : Image) (i : Fin 256) :
    s.withCrc.bytes[i] =
      if 127 = i then UInt8.ofBitVec ((s.computedCrc >>> 8).setWidth 8)
      else if 126 = i then UInt8.ofBitVec (s.computedCrc.setWidth 8) else s.bytes[i] := by
  rw [withCrc, bytes_setByte, bytes_setByte]

/-- Only the two bytes of the check are written. -/
theorem bytes_withCrc_of_ne (s : Image) {i : Fin 256} (hlow : i ≠ 126) (hhigh : i ≠ 127) :
    s.withCrc.bytes[i] = s.bytes[i] := by
  rw [bytes_withCrc, if_neg hhigh.symm, if_neg hlow.symm]

theorem crcCoverage_withCrc (s : Image) : s.withCrc.crcCoverage = s.crcCoverage := by
  rw [crcCoverage, byte, s.bytes_withCrc_of_ne (by decide) (by decide)]
  rfl

/-- The bytes of the check are not covered by it. -/
theorem computedCrc_withCrc (s : Image) : s.withCrc.computedCrc = s.computedCrc := by
  have hcovered : s.withCrc.covered = s.covered := by
    refine List.ext_getElem? fun j => ?_
    by_contra hne
    obtain ⟨i, -, hi, hbytes⟩ := exists_of_getElem?_covered_ne s.crcCoverage_withCrc hne
    have hle := s.withCrc.crcCoverage_le
    refine hbytes (s.bytes_withCrc_of_ne ?_ ?_)
    · rintro rfl
      exact absurd (Nat.lt_of_lt_of_le hi hle) (by decide)
    · rintro rfl
      exact absurd (Nat.lt_of_lt_of_le hi hle) (by decide)
  exact congrArg Crc.checksum hcovered

/-- A word is its high byte and its low byte. -/
theorem append_halves (c : BitVec (8 + 8)) : (c >>> 8).setWidth 8 ++ c.setWidth 8 = c := by
  rw [BitVec.setWidth_ushiftRight_eq_extractLsb, BitVec.setWidth_eq_extractLsb' (by decide)]
  exact BitVec.extractLsb'_append_extractLsb'

theorem storedCrc_withCrc (s : Image) : s.withCrc.storedCrc = s.computedCrc := by
  have hhigh : s.withCrc.bytes[(127 : Fin 256)] =
      UInt8.ofBitVec ((s.computedCrc >>> 8).setWidth 8) := by
    rw [bytes_withCrc, if_pos rfl]
  have hlow : s.withCrc.bytes[(126 : Fin 256)] = UInt8.ofBitVec (s.computedCrc.setWidth 8) := by
    rw [bytes_withCrc, if_neg (by decide), if_pos rfl]
  rw [storedCrc_eq, hhigh, hlow]
  exact append_halves s.computedCrc

/-- **The check is put right.** -/
theorem crcValid_withCrc (s : Image) : s.withCrc.crcValid = true := by
  rw [crcValid, storedCrc_withCrc, computedCrc_withCrc]
  exact beq_self_eq_true _

theorem withCrc_withCrc (s : Image) : s.withCrc.withCrc = s.withCrc := by
  refine ext_bytes fun i => ?_
  rw [bytes_withCrc, computedCrc_withCrc, bytes_withCrc]
  split_ifs <;> rfl

theorem byte_ofBytes (bytes : List UInt8) (i : Fin 256) :
    (ofBytes bytes).byte i = (bytes.getD i 0).toNat := by
  rw [byte, ofBytes, getElem_fin, Vector.getElem_ofFn]

/-- What is in front of the check is what it was. -/
theorem byte_withCrc (s : Image) {i : Fin 256} (h : i.val < 126) : s.withCrc.byte i = s.byte i := by
  have hlow : i ≠ 126 := Fin.ne_of_lt h
  have hhigh : i ≠ 127 := Fin.ne_of_lt (Nat.lt_succ_of_lt h)
  rw [byte, s.bytes_withCrc_of_ne hlow hhigh]
  rfl

/-- With the check put right, an image is trusted exactly if nothing else is wrong with it. -/
theorem trustworthy_withCrc_iff {s : Image} :
    s.withCrc.Trustworthy ↔
      s.byte 2 = 0x0B ∧ (1 ≤ s.byte 3 % 16 ∧ s.byte 3 % 16 ≤ 13) ∧ s.byte 11 ≠ 0 := by
  have hmemory := s.byte_withCrc (i := 2) (by decide)
  have hbuild := s.byte_withCrc (i := 3) (by decide)
  have htimebase := s.byte_withCrc (i := 11) (by decide)
  constructor
  · intro htrust
    rw [← hmemory, ← hbuild, ← htimebase]
    exact ⟨htrust.memory, htrust.build, htrust.timebase⟩
  · rintro ⟨hddr3, hknown, hnonzero⟩
    constructor
    case memory => exact hmemory.trans hddr3
    case check => exact storedCrc_eq_iff.1 (eq_of_beq s.crcValid_withCrc)
    case build => rwa [hbuild]
    case timebase => rwa [htimebase]

theorem byte_withCrc_ofBytes (bytes : List UInt8) {i : Fin 256} (h : i.val < 126) :
    (ofBytes bytes).withCrc.byte i = (bytes.getD i 0).toNat :=
  (byte_withCrc _ h).trans (byte_ofBytes bytes i)

/-- With the check put right, the bytes of a module of a known build are decoded. -/
theorem decode_withCrc_ofBytes {bytes : List UInt8} {kind : ModuleKind}
    (hmemory : bytes.getD 2 0 = 0x0B)
    (hkind : ModuleKind.ofCode? ((bytes.getD 3 0).toNat % 16) = some kind)
    (hdivisor : bytes.getD 11 0 ≠ 0) :
    (ofBytes bytes).withCrc.decode = .ok ((ofBytes bytes).withCrc.dimm kind) := by
  have hknown : 1 ≤ (bytes.getD 3 0).toNat % 16 ∧ (bytes.getD 3 0).toNat % 16 ≤ 13 := by
    have hsome : ModuleKind.ofCode? ((bytes.getD 3 0).toNat % 16) ≠ none := by
      rw [hkind]
      exact Option.some_ne_none kind
    rw [Ne, ModuleKind.ofCode?_eq_none_iff] at hsome
    omega
  refine decode_eq_ok_iff.2 ⟨trustworthy_withCrc_iff.2 ?_, kind, ?_, rfl⟩
  · rw [byte_ofBytes, byte_ofBytes, byte_ofBytes]
    exact ⟨congrArg UInt8.toNat hmemory, hknown, fun hzero => hdivisor (UInt8.toNat_inj.1 hzero)⟩
  · rw [moduleType, byte_withCrc_ofBytes bytes (by decide)]
    exact hkind

/-! ### Changes that the check tells -/

/-- The images differ in bytes that the check covers, and all of these are one byte or two neighbours.
They store the same check, and it covers as many bytes. What else is in them does not matter. -/
structure BurstApart (x y : Image) : Prop where
  coverage : (x.byte 0).testBit 7 = (y.byte 0).testBit 7
  stored : x.bytes[(126 : Fin 256)] = y.bytes[(126 : Fin 256)] ∧
    x.bytes[(127 : Fin 256)] = y.bytes[(127 : Fin 256)]
  differs : ∃ i : Fin 256, i.val < x.crcCoverage ∧ x.bytes[i] ≠ y.bytes[i]
  burst : ∃ first : Nat, ∀ i : Fin 256, i.val < x.crcCoverage → x.bytes[i] ≠ y.bytes[i] →
    i.val = first ∨ i.val = first + 1

/-- **A change of one byte or of two neighbours changes the check.** -/
theorem BurstApart.computedCrc_ne {x y : Image} (h : x.BurstApart y) :
    x.computedCrc ≠ y.computedCrc := by
  intro hsame
  have hcoverage : x.crcCoverage = y.crcCoverage := by
    rw [crcCoverage_eq, h.coverage, ← crcCoverage_eq]
  obtain ⟨first, hburst⟩ := h.burst
  have hcovered : x.covered = y.covered := by
    refine Crc.eq_of_foldl_absorb (i := first) ?_ (fun j hne => ?_) hsame
    · rw [length_covered, length_covered, hcoverage]
    · obtain ⟨i, rfl, hi, hbytes⟩ := exists_of_getElem?_covered_ne hcoverage hne
      exact hburst i hi hbytes
  obtain ⟨i, hi, hne⟩ := h.differs
  refine hne (Option.some.inj ?_)
  rw [← x.getElem?_covered hi, hcovered, y.getElem?_covered (hcoverage ▸ hi)]

/-- What the check of an image is worth. -/
structure CheckGuards (x : Image) : Prop where
  /-- It can be put right, -/
  valid : x.withCrc.crcValid = true
  /-- in the two bytes where it is stored, -/
  others : ∀ i : Fin 256, i ≠ 126 → i ≠ 127 → x.withCrc.bytes[i] = x.bytes[i]
  /-- once and for all; -/
  idempotent : x.withCrc.withCrc = x.withCrc
  /-- and if it is right, it is wrong after any change of one byte or of two neighbours that it covers,
  and the changed image is refused for that. -/
  detects : x.crcValid = true → ∀ y, x.BurstApart y → y.crcValid = false ∧
    (y.byte 2 = 0x0B → y.decode = .error (.crcMismatch y.storedCrc y.computedCrc))

/-- **The check catches what it is there for.** -/
theorem checkGuards (x : Image) : x.CheckGuards where
  valid := x.crcValid_withCrc
  others _ := x.bytes_withCrc_of_ne
  idempotent := x.withCrc_withCrc
  detects := by
    intro hvalid y h
    have hstored : y.storedCrc = x.storedCrc := by
      rw [storedCrc_eq, storedCrc_eq, h.stored.1, h.stored.2]
    have hne : y.storedCrc ≠ y.computedCrc := by
      rw [hstored, eq_of_beq hvalid]
      exact h.computedCrc_ne
    exact ⟨beq_eq_false_iff_ne.2 hne,
      fun hmemory => decode_eq_crcMismatch_iff.2 ⟨hmemory, hne, rfl, rfl⟩⟩

end Spd.Image

end SdramBringup
