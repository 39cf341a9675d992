/-
**The control words of registered modules, from the image to the registers.**

The register on a module is set up by sixteen control words of four bits. The image of the module has
them in eight bytes, two words to a byte and the even one in the low half; the controller has two
registers for them, eight words to a register and the first one on top. On the way the order is turned
around twice, and one module is chosen among those of the controller, since all of them are sent the
same words. This module follows a word all the way: what is read off the image, whose words are taken,
and where each of them ends up, by induction over the words that are packed.

Main definitions:

* `Spd.Image.described` — the module in the slot of an image;
* `Spd.Image.storedWord` — a control word, as the bytes of an image have it;
* `CommonTiming.countedImages` — the images of the modules that count;
* `RegisterFile.controlWord` — a control word, as the registers have it;
* `RegisterFile.TellsControlWords` — **which control words the modules are sent**.

Main results:

* `CommonTiming.counted_map_described` — the modules that count are those of the images that do;
* `Synthesis.get_packWords` — **every word has its place** in the register that it is packed into;
* `Synthesis.controlWord_registers` — the registers have the words of the common timing;
* `Synthesis.tellsControlWords_compute` — **the words of the first module survive**, and where a module
  has no register there are none.
-/

import Mathlib.Data.List.GetD
import Mathlib.Data.List.Induction
import SdramBringup.Proofs.Checksum
import SdramBringup.Proofs.ModeRegister
import SdramBringup.Proofs.WorstCase

set_option relaxedAutoImplicit false
set_option autoImplicit false

namespace SdramBringup

/-! ### What an image says -/

namespace Spd

theorem ModuleKind.ofCode?_eq_registered_iff {code : Nat} :
    ofCode? code = some registered ↔ code ∈ [1, 5, 9] := by
  unfold ofCode?
  split_ifs <;> simp <;> omega

namespace Image

/-- The module in the slot of an image: the one that it describes, and none if it is refused. -/
def described (s : Image) : Dimm := s.decode.toOption.getD {}

/-- The build of the module is one of those with a register. -/
def HasRegister (s : Image) : Prop := s.byte 3 % 16 ∈ [1, 5, 9]

instance (s : Image) : Decidable s.HasRegister := inferInstanceAs (Decidable (_ ∈ _))

theorem storedByte_lt (j : Fin 16) : 69 + j.val / 2 < 256 := by omega

/-- A control word: two words share a byte, the even one in the low half. -/
def storedWord (s : Image) (j : Fin 16) : Nat :=
  if j.val % 2 = 0 then s.byte ⟨69 + j.val / 2, storedByte_lt j⟩ % 16
  else s.byte ⟨69 + j.val / 2, storedByte_lt j⟩ / 16

variable {s : Image}

theorem toNat_controlWord (s : Image) (j : Fin 16) : (s.controlWord j).toNat = s.storedWord j := by
  rw [controlWord, storedWord]
  split
  · exact UInt8.toNat_mod ..
  · exact UInt8.toNat_div ..

theorem storedWord_lt (s : Image) (j : Fin 16) : s.storedWord j < 16 := by
  rw [← toNat_controlWord]
  exact UInt8.lt_iff_toNat_lt.1 (s.controlWord_lt j)

/-- A slot that is not empty has a module that was decoded. -/
theorem exists_kind_of_described (h : s.described.isEmpty = false) :
    ∃ kind, ModuleKind.ofCode? s.moduleType = some kind ∧ s.described = s.dimm kind := by
  cases hdecode : s.decode with
  | error e =>
      rw [described, hdecode] at h
      exact absurd (h : true = false) nofun
  | ok d =>
      obtain ⟨-, kind, hkind, rfl⟩ := decode_eq_ok_iff.1 hdecode
      refine ⟨kind, hkind, ?_⟩
      rw [described, hdecode]
      rfl

theorem registered_described_iff (h : s.described.isEmpty = false) :
    s.described.registered = true ↔ s.HasRegister := by
  obtain ⟨kind, hkind, hdescribed⟩ := exists_kind_of_described h
  rw [hdescribed, HasRegister, ← ModuleKind.ofCode?_eq_registered_iff]
  change decide (kind = .registered) = true ↔ ModuleKind.ofCode? s.moduleType = _
  rw [hkind, decide_eq_true_iff, Option.some_inj]

/-- A registered module has the words of its image. -/
theorem toNat_controlWords_described (h : s.described.isEmpty = false) (hregister : s.HasRegister)
    (j : Fin 16) : (s.described.controlWords[j]).toNat = s.storedWord j := by
  obtain ⟨kind, hkind, hdescribed⟩ := exists_kind_of_described h
  have hregistered : kind = .registered :=
    Option.some_inj.1 (hkind.symm.trans (ModuleKind.ofCode?_eq_registered_iff.2 hregister))
  rw [hdescribed, controlWords_dimm, if_pos hregistered, toNat_controlWord]

end Image

end Spd

/-! ### The module whose words are taken -/

namespace CommonTiming

open Spd.Image

/-- The images of the modules that count, in the order of their slots. -/
def countedImages (p : Platform) (images : List Spd.Image) : List Spd.Image :=
  (images.zipIdx.filter fun q => p.takesPart q.2 q.1.described).map (·.1)

variable {p : Platform} {images : List Spd.Image} {s : Spd.Image}

/-- Registered modules only are not unbuffered modules only. -/
theorem onlyUnbuffered_of_onlyRegistered {ds : List Dimm} (h : onlyRegistered ds = true) :
    onlyUnbuffered ds = false := by
  rw [onlyRegistered, Bool.and_eq_true] at h
  rw [onlyUnbuffered, h.1, Bool.not_true, Bool.and_false]

/-- Of registered modules the words of the first one are taken. -/
theorem controlWords_ofDimms {d : Dimm} {ds : List Dimm} (h : onlyRegistered (d :: ds) = true) :
    (ofDimms (d :: ds)).controlWords = d.controlWords :=
  if_pos h

/-- **The modules that count** are those of the images that do. -/
theorem counted_map_described (p : Platform) (images : List Spd.Image) :
    counted p (images.map described) = (countedImages p images).map described := by
  rw [counted, participants, numbered, List.zipIdx_map, countedImages, List.map_map, List.filter_map,
    List.map_map, List.map_map]
  rfl

theorem isEmpty_described_of_mem (hs : s ∈ countedImages p images) :
    s.described.isEmpty = false := by
  obtain ⟨⟨t, slot⟩, hmem, rfl⟩ := List.mem_map.1 hs
  have htakes : p.takesPart slot t.described = true := (List.mem_filter.1 hmem).2
  rw [Platform.takesPart, Bool.and_eq_true, Bool.not_eq_true'] at htakes
  exact htakes.1

/-- The modules that count are all registered exactly if their images say so. -/
theorem forall_registered_iff :
    (∀ d ∈ (countedImages p images).map described, d.registered = true) ↔
      ∀ s ∈ countedImages p images, s.HasRegister := by
  rw [List.forall_mem_map]
  exact forall₂_congr fun s hs => registered_described_iff (isEmpty_described_of_mem hs)

end CommonTiming

/-! ### The registers -/

/-- A control word: eight words share a register, the first one on top. -/
def RegisterFile.controlWord (f : RegisterFile) (j : Fin 16) : Nat :=
  Field.get ⟨28 - 4 * (j.val % 8), 4⟩ (if j.val < 8 then f.controlWords1 else f.controlWords2)

namespace Synthesis

/-- A word that is pushed is at the bottom. -/
theorem get_push_bottom (acc : Word) (v : Nat) :
    Field.get ⟨0, 4⟩ (acc <<< 4 ||| BitVec.ofNat 32 (v % 16)) = v % 16 := by
  refine Nat.eq_of_testBit_eq fun b => ?_
  rw [Field.testBit_get, Nat.zero_add, BitVec.getLsbD_or, BitVec.getLsbD_shiftLeft,
    BitVec.getLsbD_ofNat, Nat.testBit_mod_two_pow v 4]
  by_cases hb : b < 4
  · have hword : b < 32 := by omega
    simp [hb, hword]
  · simp [hb]

/-- The words below the top are pushed up by one place. -/
theorem get_push_above (acc : Word) (v : Nat) {k : Nat} (hk : k + 1 < 8) :
    Field.get ⟨4 * (k + 1), 4⟩ (acc <<< 4 ||| BitVec.ofNat 32 (v % 16)) =
      Field.get ⟨4 * k, 4⟩ acc := by
  refine Nat.eq_of_testBit_eq fun b => ?_
  rw [Field.testBit_get, Field.testBit_get, BitVec.getLsbD_or, BitVec.getLsbD_shiftLeft,
    BitVec.getLsbD_ofNat, Nat.testBit_mod_two_pow v 4]
  by_cases hb : b < 4
  · have hword : 4 * (k + 1) + b < 32 := by omega
    have hup : ¬4 * (k + 1) + b < 4 := by omega
    have hdown : 4 * (k + 1) + b - 4 = 4 * k + b := by omega
    simp [hb, hword, hup, hdown]
  · simp [hb]

/-- **Every word has its place**: counted from the bottom, the last words that were packed. -/
theorem get_packWords (words : List UInt8) {k : Nat} (hk : k < 8) :
    Field.get ⟨4 * k, 4⟩ (packWords words) = (words.reverse.getD k 0).toNat % 16 := by
  induction words using List.reverseRecOn generalizing k with
  | nil => simp [packWords]
  | append_singleton words w ih =>
      have hpush : packWords (words ++ [w]) =
          packWords words <<< 4 ||| BitVec.ofNat 32 (w.toNat % 16) := by
        rw [packWords, List.foldl_append]
        rfl
      rw [hpush, List.reverse_concat]
      cases k with
      | zero => exact get_push_bottom ..
      | succ k =>
          rw [get_push_above _ _ hk, ih (Nat.lt_of_succ_lt hk)]
          rfl

/-- Of eight words the first one is on top. -/
theorem get_packWords_of_length {words : List UInt8} (hlength : words.length = 8) {k : Nat}
    (hk : k < 8) :
    Field.get ⟨28 - 4 * k, 4⟩ (packWords words) = words[k].toNat % 16 := by
  have hplace : 28 - 4 * k = 4 * (7 - k) := by omega
  have hturn : 8 - 1 - (7 - k) = k := by omega
  rw [hplace, get_packWords words (by omega), List.getD_eq_getElem _ _ (by simp; omega),
    List.getElem_reverse]
  simp only [hlength, hturn]

variable {i : Inputs}

/-- **The registers have the words of the common timing** if all modules are registered and the options
do not fix other words. -/
theorem controlWord_registers (hregistered : i.common.allRegistered = true)
    (hbuffered : i.common.allUnbuffered = false) (hfixed : i.options.controlWordsFixed = false)
    (j : Fin 16) :
    (registers i).controlWord j = (i.common.controlWords[j]).toNat % 16 := by
  have hregisters : controlWords i =
      (packWords (i.common.controlWords.toList.take 8),
        packWords (i.common.controlWords.toList.drop 8)) := by
    rw [controlWords, hregistered, hbuffered, hfixed]
    rfl
  change Field.get _ (if j.val < 8 then (controlWords i).1 else (controlWords i).2) = _
  rw [hregisters]
  by_cases hj : j.val < 8
  · rw [if_pos hj, Nat.mod_eq_of_lt hj, get_packWords_of_length (by simp) hj, List.getElem_take]
    rfl
  · have hmod : j.val % 8 = j.val - 8 := by omega
    have hback : 8 + (j.val - 8) = j.val := by omega
    rw [if_neg hj, hmod, get_packWords_of_length (by simp) (by omega), List.getElem_drop]
    simp only [hback]
    rfl

/-- Without registered modules, or with others beside them, there are no words. -/
theorem controlWords_of_not_registered (h : i.common.allRegistered = false) :
    controlWords i = (0#32, 0#32) := by
  rw [controlWords, h]
  rfl

end Synthesis

open CommonTiming Spd.Image

/-- Which control words the registers have, by the images of the modules that count. -/
structure RegisterFile.TellsControlWords (f : RegisterFile) (images : List Spd.Image)
    (fixed : Bool) : Prop where
  /-- If all modules are registered and no words are fixed, those of the first module; -/
  ofFirst : (∀ s ∈ images, s.HasRegister) → fixed = false → ∀ first ∈ images.head?, ∀ j,
    f.controlWord j = first.storedWord j
  /-- if a module is not registered, none. -/
  unused : (∃ s ∈ images, ¬s.HasRegister) → f.controlWords1 = 0 ∧ f.controlWords2 = 0

namespace Synthesis

variable {images : List Spd.Image} {p : Platform}

theorem tellsControlWords_registers {i : Inputs} {cl : Nat} (hne : countedImages p images ≠ [])
    (hcommon :
      i.common = { ofDimms ((countedImages p images).map described) with casLatency := cl }) :
    (registers i).TellsControlWords (countedImages p images) i.options.controlWordsFixed := by
  have hmodules : (countedImages p images).map described ≠ [] := by simpa using hne
  have hall := (onlyRegistered_iff hmodules).trans forall_registered_iff
  constructor
  case ofFirst =>
    intro hregister hfixed first hfirst j
    obtain ⟨rest, himages⟩ := List.head?_eq_some_iff.1 hfirst
    have hmem : first ∈ countedImages p images := List.mem_of_mem_head? hfirst
    have honly : onlyRegistered ((countedImages p images).map described) = true := hall.2 hregister
    have hregistered : i.common.allRegistered = true := by rw [hcommon]; exact honly
    have hbuffered : i.common.allUnbuffered = false := by
      rw [hcommon]
      exact onlyUnbuffered_of_onlyRegistered honly
    have hwords : i.common.controlWords = first.described.controlWords := by
      rw [himages] at honly hcommon
      rw [hcommon]
      exact controlWords_ofDimms honly
    rw [controlWord_registers hregistered hbuffered hfixed, hwords,
      toNat_controlWords_described (isEmpty_described_of_mem hmem) (hregister first hmem),
      Nat.mod_eq_of_lt (first.storedWord_lt j)]
  case unused =>
    rintro ⟨s, hs, hregister⟩
    have hnot : i.common.allRegistered = false := by
      rw [hcommon]
      exact Bool.eq_false_iff.2 fun honly => hregister (hall.1 honly s hs)
    have hzero := controlWords_of_not_registered hnot
    exact ⟨congrArg Prod.fst hzero, congrArg Prod.snd hzero⟩

/-- **The control words of the first module survive** from its image to the registers: whatever images
the slots of a controller have, if some of the modules that they describe count and there is a timing
for them, registers are computed. They have the words of the first of these modules, each in its place,
if all are registered and the options fix no others, and no words if a module has no register. -/
theorem tellsControlWords_compute {clock : Clock} {ctrl : Nat} {i : Inputs}
    (hne : countedImages p images ≠ [])
    (htiming : (reconcile clock (images.map described) p ctrl).value = .ok i.common) :
    ∃ f, (compute i false).value = .ok f ∧
      f.TellsControlWords (countedImages p images) i.options.controlWordsFixed := by
  have hcounted : counted p (images.map described) = (countedImages p images).map described :=
    counted_map_described p images
  have hcount : i.common.dimmCount ≠ 0 := by
    rw [dimmCount_of_reconcile htiming, hcounted, List.length_map]
    exact fun hzero => hne (List.length_eq_zero_iff.1 hzero)
  obtain ⟨-, cl, hcommon⟩ := exists_eq_of_reconcile htiming hcount
  rw [hcounted] at hcommon
  exact ⟨registers i, (value_compute_eq_ok_iff i).2 ⟨hcount, rfl⟩,
    tellsControlWords_registers hne hcommon⟩

/-- The bytes of a registered module of 256 MiB with the given bytes of control words. -/
def wordsBytes (words : List UInt8) : List UInt8 :=
  [0, 0, 0x0B, 1, 0, 0, 0, 1, 3, 0, 0, 1, 0, 0, 1] ++ List.replicate 54 0 ++ words

/-- The image of this module. -/
def wordsImage (words : List UInt8) : Spd.Image := .withCrc (.ofBytes (wordsBytes words))

theorem described_wordsImage (words : List UInt8) :
    (wordsImage words).described = (wordsImage words).dimm .registered := by
  have hdivisor : (wordsBytes words).getD 11 0 ≠ 0 := by
    change (1 : UInt8) ≠ 0
    decide
  rw [described, wordsImage, decode_withCrc_ofBytes rfl rfl hdivisor]
  rfl

/-- The image of a module whose control words count from 0 to 15. -/
def countingImage : Spd.Image := wordsImage [0x10, 0x32, 0x54, 0x76, 0x98, 0xBA, 0xDC, 0xFE]

/-- With the first slot empty, every word of the module in the second one is found at its number. -/
theorem tellsControlWords_counting :
    let p : Platform := { Platform.singleSlot with slotCount := 2 }
    let images : List Spd.Image := [.blank, countingImage]
    ∃ i : Inputs, countedImages p images ≠ [] ∧
      (reconcile ⟨1600000000⟩ (images.map described) p 0).value = .ok i.common ∧
      i.options.controlWordsFixed = false ∧
      ∃ f, (compute i false).value = .ok f ∧ ∀ j, f.controlWord j = j.val := by
  intro p images
  have hmodules : images.map described = [{}, countingImage.dimm .registered] :=
    congrArg (fun d => [({} : Dimm), d]) (described_wordsImage _)
  obtain ⟨t, htiming, -⟩ := exists_of_map_eq_ok (f := dimmCount) (b := 1)
    (show (reconcile ⟨1600000000⟩ (images.map described) p 0).value.map dimmCount = .ok 1 by
      rw [hmodules]
      decide +kernel)
  have hcounted : countedImages p images = [countingImage] := by
    have hempty : p.takesPart 0 (Spd.Image.blank.described) = false := by decide +kernel
    have htakes : p.takesPart 1 countingImage.described = true := by
      rw [countingImage, described_wordsImage]
      decide +kernel
    simp [countedImages, images, hempty, htakes]
  have hregister : countingImage.HasRegister := by
    rw [HasRegister, countingImage, wordsImage, byte_withCrc_ofBytes _ (by decide)]
    decide
  have hstored (j : Fin 16) : countingImage.storedWord j = j.val := by
    have hlt : 69 + j.val / 2 < 126 := by omega
    rw [storedWord, countingImage, wordsImage, byte_withCrc_ofBytes _ hlt]
    revert j
    decide
  have hne : countedImages p images ≠ [] := by
    rw [hcounted]
    exact List.cons_ne_nil _ _
  let i : Inputs := { reader 0x800 with common := t }
  obtain ⟨f, hf, htells⟩ := tellsControlWords_compute (i := i) hne htiming
  rw [hcounted] at htells
  refine ⟨i, hne, htiming, rfl, f, hf, fun j => ?_⟩
  rw [htells.ofFirst (List.forall_mem_singleton.2 hregister) rfl countingImage rfl, hstored]

end Synthesis

end SdramBringup
