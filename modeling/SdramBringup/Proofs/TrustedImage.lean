/-
**The images that are trusted.**

Decoding an image looks at one thing after another and stops at the first that is wrong. This module
says what can be wrong with an image without any order, each fault on its own and read off the bytes:
several of them may be there at once. The order then is that of five numbers. An image without a
fault is decoded, whatever else is in it, and of one with faults the most urgent is reported. What a
trusted image says hangs together: its module has ranks, their sizes and number are those of the
whole module, and only a registered module has control words.

Main definitions:

* `Spd.Image.Trustworthy` — an image that may be decoded;
* `Spd.Image.Fault` — what is wrong with an image, each fault on its own;
* `Spd.Image.Foremost` — the fault that comes first;
* `Dimm.WellFormed` — a module whose description hangs together;
* `Spd.Image.JudgedExactly` — **what decoding makes of an image**.

Main results:

* `Spd.Image.trustworthy_iff` — an image is trusted exactly if nothing is wrong with it;
* `Spd.Image.decode_eq_ok_iff`, `Spd.Image.decode_eq_error_iff` — when an image is decoded, and what
  is reported otherwise;
* `Spd.Image.decode_eq_crcMismatch_iff` — when the check is reported;
* `Spd.Image.wellFormed_of_decode` — every decoded module hangs together;
* `Spd.Image.judgedExactly` — **the judgement on an image is exact**.
-/

import Mathlib.Order.WellFounded
import SdramBringup.Spd.Decode

set_option relaxedAutoImplicit false
set_option autoImplicit false

namespace SdramBringup

namespace Spd

/-! ### The bytes that are looked at -/

theorem ModuleKind.ofCode?_eq_none_iff {code : Nat} :
    ofCode? code = none ↔ code < 1 ∨ 13 < code := by
  unfold ofCode?
  split_ifs <;> simp <;> omega

namespace Image

variable {s : Image}

theorem byte_lt (s : Image) (offset : Fin 256) : s.byte offset < 2 ^ 8 :=
  s.bytes[offset].toNat_lt

theorem crcCoverage_eq (s : Image) :
    s.crcCoverage = if (s.byte 0).testBit 7 then 117 else 126 := by
  have hbit : (s.byte 0).testBit 7 = true ↔ 128 ≤ s.byte 0 := by
    have hlt := s.byte_lt 0
    rw [Nat.testBit_eq_decide_div_mod_eq, decide_eq_true_eq]
    omega
  simp only [crcCoverage, hbit]

theorem toNat_storedCrc (s : Image) : s.storedCrc.toNat = s.byte 127 * 256 + s.byte 126 := by
  rw [storedCrc, BitVec.toNat_append, ← Nat.shiftLeft_add_eq_or_of_lt s.bytes[126].toBitVec.isLt,
    Nat.shiftLeft_eq]
  rfl

/-! ### Images that may be decoded -/

/-- The image is that of a DDR3 module of a known build, its check is that of the bytes that it
covers, low byte first, and its timebase does not divide by zero. -/
structure Trustworthy (s : Image) : Prop where
  memory : s.byte 2 = 0x0B
  check : (Crc.checksum (s.bytes.toList.take (if (s.byte 0).testBit 7 then 117 else 126))).toNat =
    s.byte 127 * 256 + s.byte 126
  build : 1 ≤ s.byte 3 % 16 ∧ s.byte 3 % 16 ≤ 13
  timebase : s.byte 11 ≠ 0

/-- The check of the image is that of the bytes that it covers. -/
theorem storedCrc_eq_iff :
    s.storedCrc = s.computedCrc ↔
      (Crc.checksum (s.bytes.toList.take (if (s.byte 0).testBit 7 then 117 else 126))).toNat =
        s.byte 127 * 256 + s.byte 126 := by
  rw [← crcCoverage_eq, ← toNat_storedCrc, ← BitVec.toNat_inj, eq_comm]
  rfl

/-- Past the memory type and the check, the module is what the image says if its build is known and
the timebase does not divide by zero. -/
theorem decode_of_checked (hmemory : s.memoryType = ddr3) (hcheck : s.storedCrc = s.computedCrc) :
    s.decode =
      match ModuleKind.ofCode? s.moduleType with
      | none => .error (.unsupportedModuleType s.moduleType)
      | some kind =>
          if s.mediumDivisor = 0 then .error (.invalidTimebase s.mediumDividend s.mediumDivisor)
          else .ok (s.dimm kind) := by
  have hnone : s.memoryType ≠ 0 := by
    rw [hmemory]
    decide
  exact (if_neg hnone).trans ((if_neg (not_not.2 hmemory)).trans (if_neg (not_not.2 hcheck)))

/-- **An image is decoded exactly if it is trusted**, and then as its kind of module is. -/
theorem decode_eq_ok_iff {d : Dimm} :
    s.decode = .ok d ↔
      s.Trustworthy ∧ ∃ kind, ModuleKind.ofCode? s.moduleType = some kind ∧ d = s.dimm kind := by
  have hkind (h : ModuleKind.ofCode? s.moduleType ≠ none) :
      1 ≤ s.byte 3 % 16 ∧ s.byte 3 % 16 ≤ 13 := by
    rw [Ne, ModuleKind.ofCode?_eq_none_iff, not_or, not_lt, not_lt] at h
    exact h
  constructor
  · intro h
    unfold decode at h
    cases hcode : ModuleKind.ofCode? s.moduleType with
    | none =>
        rw [hcode] at h
        split_ifs at h
    | some kind =>
        rw [hcode] at h
        split_ifs at h with hnone hmemory hcheck htimebase
        refine ⟨⟨not_not.1 hmemory, storedCrc_eq_iff.1 (not_not.1 hcheck), hkind ?_, htimebase⟩,
          kind, rfl, (Except.ok.inj h).symm⟩
        rw [hcode]
        exact Option.some_ne_none kind
  · rintro ⟨htrust, kind, hcode, rfl⟩
    rw [decode_of_checked htrust.memory (storedCrc_eq_iff.2 htrust.check), hcode]
    exact if_neg htrust.timebase

theorem exists_decode_eq_ok_iff : (∃ d, s.decode = .ok d) ↔ s.Trustworthy := by
  constructor
  · rintro ⟨d, hd⟩
    exact (decode_eq_ok_iff.1 hd).1
  · intro htrust
    cases hcode : ModuleKind.ofCode? s.moduleType with
    | some kind => exact ⟨s.dimm kind, decode_eq_ok_iff.2 ⟨htrust, kind, hcode, rfl⟩⟩
    | none =>
        have hbuild : s.byte 3 % 16 < 1 ∨ 13 < s.byte 3 % 16 :=
          ModuleKind.ofCode?_eq_none_iff.1 hcode
        have hknown := htrust.build
        omega

/-- A module that decodes is what its image says, for some kind of module. -/
theorem exists_kind_of_decode {d : Dimm} (h : s.decode = .ok d) : ∃ kind, d = s.dimm kind := by
  obtain ⟨-, kind, -, rfl⟩ := decode_eq_ok_iff.1 h
  exact ⟨kind, rfl⟩

/-! ### What can be wrong with an image -/

/-- What is wrong with an image, each fault on its own and with the values at fault. -/
inductive Fault (s : Image) : Error → Prop
  | empty (h : s.byte 2 = 0) : Fault s .empty
  | memory (h : s.byte 2 ≠ 0 ∧ s.byte 2 ≠ 0x0B) : Fault s (.unsupportedMemoryType (s.byte 2))
  | check (h : s.storedCrc ≠ s.computedCrc) :
      Fault s (.crcMismatch s.storedCrc s.computedCrc)
  | build (h : s.byte 3 % 16 < 1 ∨ 13 < s.byte 3 % 16) :
      Fault s (.unsupportedModuleType (s.byte 3 % 16))
  | timebase (h : s.byte 11 = 0) : Fault s (.invalidTimebase (s.byte 10) (s.byte 11))

/-- An image is trusted exactly if nothing is wrong with it. -/
theorem trustworthy_iff : s.Trustworthy ↔ ∀ e, ¬s.Fault e := by
  constructor
  · intro htrust e hfault
    cases hfault with
    | empty h => exact absurd (htrust.memory.symm.trans h) (by decide)
    | memory h => exact h.2 htrust.memory
    | check h => exact h (storedCrc_eq_iff.2 htrust.check)
    | build h =>
        have hknown := htrust.build
        omega
    | timebase h => exact htrust.timebase h
  · intro hnone
    constructor
    case memory =>
      by_contra hmemory
      exact hnone _ (.memory ⟨fun h => hnone _ (.empty h), hmemory⟩)
    case check =>
      by_contra hcheck
      exact hnone _ (.check (mt storedCrc_eq_iff.1 hcheck))
    case build =>
      by_contra hbuild
      exact hnone _ (.build (by omega))
    case timebase => exact fun h => hnone _ (.timebase h)

end Image

/-- The order in which faults are looked for. -/
@[simp] def Error.precedence : Error → Nat
  | empty => 0
  | unsupportedMemoryType _ => 1
  | crcMismatch _ _ => 2
  | unsupportedModuleType _ => 3
  | invalidTimebase _ _ => 4

theorem Error.isFatal_iff {e : Error} :
    e.isFatal = true ↔ ∃ stored computed, e = .crcMismatch stored computed := by
  cases e <;> simp [isFatal]

namespace Image

variable {s : Image}

/-- Of all that is wrong with an image, the fault that is looked for first. -/
structure Foremost (s : Image) (e : Error) : Prop where
  fault : s.Fault e
  first : ∀ f, s.Fault f → e.precedence ≤ f.precedence

theorem Foremost.not_fault {e f : Error} (h : s.Foremost e) (hlt : f.precedence < e.precedence) :
    ¬s.Fault f := fun hfault => Nat.not_lt_of_le (h.first f hfault) hlt

/-- If anything is wrong with an image, something is wrong first. -/
theorem exists_foremost (h : ¬s.Trustworthy) : ∃ e, s.Foremost e := by
  rw [trustworthy_iff, not_forall_not] at h
  obtain ⟨e, hfault, hleast⟩ := (measure Error.precedence).wf.has_min {e | s.Fault e} h
  exact ⟨e, hfault, fun f hf => Nat.le_of_not_lt (hleast f hf)⟩

/-- What is looked for before the check is not wrong, if the check or something after it is the
first fault. -/
theorem Foremost.memoryType_eq {e : Error} (h : s.Foremost e) (hlate : 1 < e.precedence) :
    s.memoryType = ddr3 := by
  by_contra hmemory
  refine h.not_fault ?_ (.memory ⟨fun hnone => h.not_fault ?_ (.empty hnone), hmemory⟩)
  · exact hlate
  · exact Nat.zero_lt_of_lt hlate

theorem Foremost.storedCrc_eq {e : Error} (h : s.Foremost e) (hlate : 2 < e.precedence) :
    s.storedCrc = s.computedCrc := by
  by_contra hcheck
  exact Nat.not_lt_of_le (h.first _ (.check hcheck)) hlate

/-- Decoding stops at the first fault. -/
theorem decode_of_foremost {e : Error} (h : s.Foremost e) : s.decode = .error e := by
  cases h.fault with
  | empty hnone => exact if_pos hnone
  | memory hother =>
      have hnone : s.memoryType ≠ 0 := hother.1
      rw [decode, if_neg hnone]
      exact if_pos hother.2
  | check hcheck =>
      have hmemory := h.memoryType_eq (by simp)
      rw [decode, hmemory, if_neg (by decide), if_neg (not_not.2 rfl), if_pos hcheck]
  | build hunknown =>
      have hcode : ModuleKind.ofCode? s.moduleType = none :=
        ModuleKind.ofCode?_eq_none_iff.2 hunknown
      rw [decode_of_checked (h.memoryType_eq (by simp)) (h.storedCrc_eq (by simp)), hcode]
      rfl
  | timebase hzero =>
      rw [decode_of_checked (h.memoryType_eq (by simp)) (h.storedCrc_eq (by simp))]
      cases hcode : ModuleKind.ofCode? s.moduleType with
      | some kind => exact if_pos hzero
      | none =>
          -- an unknown build would have come first
          have hunknown := Fault.build (ModuleKind.ofCode?_eq_none_iff.1 hcode)
          exact absurd hunknown (h.not_fault (by simp))

/-- **What is reported is the foremost fault**, and nothing else. -/
theorem decode_eq_error_iff {e : Error} : s.decode = .error e ↔ s.Foremost e := by
  refine ⟨fun herror => ?_, decode_of_foremost⟩
  by_cases htrust : s.Trustworthy
  · obtain ⟨d, hd⟩ := exists_decode_eq_ok_iff.2 htrust
    exact absurd (hd.symm.trans herror) nofun
  · obtain ⟨f, hf⟩ := exists_foremost htrust
    obtain rfl : f = e := Except.error.inj ((decode_of_foremost hf).symm.trans herror)
    exact hf

/-- The check is looked at after the kind of the memory and before anything else. -/
theorem decode_eq_crcMismatch_iff {stored computed : BitVec 16} :
    s.decode = .error (.crcMismatch stored computed) ↔
      s.memoryType = ddr3 ∧ s.storedCrc ≠ s.computedCrc ∧
        stored = s.storedCrc ∧ computed = s.computedCrc := by
  rw [decode_eq_error_iff]
  constructor
  · intro h
    have hmemory := h.memoryType_eq (by simp)
    cases h.fault with
    | check hcheck => exact ⟨hmemory, hcheck, rfl, rfl⟩
  · rintro ⟨hmemory, hcheck, rfl, rfl⟩
    refine ⟨.check hcheck, fun f hf => ?_⟩
    cases hf with
    | empty h => exact absurd (hmemory.symm.trans h) (by decide)
    | memory h => exact absurd hmemory h.2
    | check h => exact Nat.le_refl _
    | build h => simp
    | timebase h => simp

end Image

end Spd

/-! ### What a trusted image says -/

/-- A module whose description hangs together. -/
structure Dimm.WellFormed (d : Dimm) : Prop where
  ranks : 1 ≤ d.ranks ∧ d.ranks ≤ 8
  rankSize : ∃ n, 19 ≤ n ∧ n ≤ 48 ∧ d.rankSize = 2 ^ n
  /-- The size of the module is that of its ranks, and 64 bits are enough for it. -/
  capacity : d.capacity = d.ranks * d.rankSize ∧ d.capacity < 2 ^ 64
  dataWidth : d.dataWidth = d.primaryWidth + d.extensionWidth
  eccCapable : d.eccCapable = true ↔ d.extensionWidth = 8
  /-- There is room for the latencies from 4 to 19. -/
  casLatencies : ∀ n, d.casLatencies.getLsbD n = true → 4 ≤ n ∧ n ≤ 19
  /-- A control word has four bits, -/
  controlWords : ∀ i : Fin 16, d.controlWords[i] < 16
  /-- and without a register there are none. -/
  unregistered : d.registered = false → ∀ i : Fin 16, d.controlWords[i] = 0

namespace Spd.Image

variable {s : Image}

theorem exists_rankSize_eq (s : Image) : ∃ n, 19 ≤ n ∧ n ≤ 48 ∧ s.rankSize = 2 ^ n := by
  have hdevice : s.byte 4 % 16 < 16 := Nat.mod_lt _ (by decide)
  have hbus : s.byte 8 % 8 < 8 := Nat.mod_lt _ (by decide)
  have hwidth : s.byte 7 % 8 < 8 := Nat.mod_lt _ (by decide)
  exact ⟨_, by omega, by omega, rfl⟩

/-- The mask of the latencies starts with that of four clocks and has sixteen bits. -/
theorem latency_bounds (s : Image) {kind : ModuleKind} {n : Nat}
    (hn : (s.dimm kind).casLatencies.getLsbD n = true) : 4 ≤ n ∧ n ≤ 19 := by
  have hlow := s.byte_lt 14
  have hhigh := s.byte_lt 15
  have hbit : ((s.byte 15 * 256 + s.byte 14) * 2 ^ 4).testBit n = true :=
    (Bool.and_eq_true_iff.1 ((BitVec.getLsbD_ofNat ..).symm.trans hn)).2
  have hsmall : 2 ^ n < 2 ^ 20 := by
    have hle := Nat.ge_two_pow_of_testBit hbit
    omega
  rw [Nat.testBit_mul_two_pow, Bool.and_eq_true, decide_eq_true_eq] at hbit
  exact ⟨hbit.1, Nat.le_of_lt_succ ((Nat.pow_lt_pow_iff_right (by decide)).1 hsmall)⟩

/-- A control word is one half of a byte. -/
theorem controlWord_lt (s : Image) (i : Fin 16) : s.controlWord i < 16 := by
  unfold controlWord
  rw [UInt8.lt_iff_toNat_lt]
  split_ifs
  · rw [UInt8.toNat_mod]
    exact Nat.mod_lt _ (by decide)
  · have hlt := s.bytes[69 + i.val / 2].toNat_lt
    rw [UInt8.toNat_div]
    exact Nat.div_lt_of_lt_mul hlt

/-- Only a registered module has the control words of its image. -/
theorem controlWords_dimm (s : Image) (kind : ModuleKind) (i : Fin 16) :
    (s.dimm kind).controlWords[i] = if kind = .registered then s.controlWord i else 0 := by
  cases kind with
  | registered => exact Vector.getElem_ofFn i.isLt
  | unbuffered => exact Vector.getElem_replicate i.isLt

/-- **What a trusted image says hangs together**, whatever the kind of its module. -/
theorem wellFormed_dimm (s : Image) (kind : ModuleKind) : (s.dimm kind).WellFormed := by
  obtain ⟨n, hlow, hhigh, hsize⟩ := s.exists_rankSize_eq
  have hranks : s.ranks ≤ 8 := by
    have hlt : s.byte 7 / 8 % 8 < 8 := Nat.mod_lt _ (by decide)
    rw [ranks]
    omega
  constructor
  case ranks => exact ⟨Nat.succ_pos _, hranks⟩
  case rankSize => exact ⟨n, hlow, hhigh, hsize⟩
  case capacity =>
    refine ⟨rfl, ?_⟩
    calc
      s.ranks * s.rankSize ≤ 8 * 2 ^ 48 :=
        Nat.mul_le_mul hranks (hsize ▸ Nat.pow_le_pow_right (by decide) hhigh)
      _ < 2 ^ 64 := by decide
  case dataWidth => rfl
  case eccCapable =>
    have hwidth : s.extensionWidth ≠ 0 ↔ s.extensionWidth = 8 := by
      unfold extensionWidth
      split_ifs <;> decide
    exact decide_eq_true_iff.trans hwidth
  case casLatencies => exact fun _ => s.latency_bounds
  case controlWords =>
    intro i
    rw [controlWords_dimm]
    split_ifs
    · exact s.controlWord_lt i
    · decide
  case unregistered =>
    intro hnone i
    rw [controlWords_dimm]
    exact if_neg (of_decide_eq_false hnone)

theorem wellFormed_of_decode {d : Dimm} (h : s.decode = .ok d) : d.WellFormed := by
  obtain ⟨kind, rfl⟩ := exists_kind_of_decode h
  exact s.wellFormed_dimm kind

/-! ### The judgement -/

/-- What decoding makes of an image. -/
structure JudgedExactly (s : Image) : Prop where
  /-- It is decoded exactly if it is trusted, -/
  accepted : (∃ d, s.decode = .ok d) ↔ s.Trustworthy
  /-- what is reported otherwise is the foremost fault, -/
  refused : ∀ e, s.decode = .error e ↔ s.Foremost e
  /-- for good only if it is the check, -/
  fatal : ∀ e : Error, e.isFatal = true ↔ ∃ stored computed, e = .crcMismatch stored computed
  /-- and every module that is decoded hangs together. -/
  wellFormed : ∀ d, s.decode = .ok d → d.WellFormed

/-- **The judgement on an image is exact.** -/
theorem judgedExactly (s : Image) : s.JudgedExactly where
  accepted := exists_decode_eq_ok_iff
  refused _ := decode_eq_error_iff
  fatal _ := Error.isFatal_iff
  wellFormed _ := wellFormed_of_decode

end Spd.Image

end SdramBringup
