/-
**A module that cannot be trusted.**

An image may be missing, blank, of another kind of memory or of an unknown build: then the slot
counts as empty and the bring-up goes on. It is different with an image that says that it is of the
right kind and whose check is wrong: a module is there, and nothing is known about it. Then the
bring-up fails before it has touched any controller, unless the platform knows what is in the slot.

Main definitions:

* `Setup.Distrusts` — the image of a slot is of the right kind, its check is wrong, and nothing
  stands in for it;
* `Stage.refusal` — the failure that a slot leads to, if any.

Main results:

* `Stage.refusal_eq_some_iff` — a slot leads to a failure exactly when its image is distrusted;
* `Stage.images_readSlots` — **the images** that are decoded are those that were just read;
* `Stage.failure_runAll_readImages` — a run from the images on fails with the first such slot;
* `Session.bringUp_all_or_nothing` — **a bring-up that fails has done nothing**, and it fails for
  this reason only.
-/

import SdramBringup.Proofs.BringUp

set_option relaxedAutoImplicit false
set_option autoImplicit false

namespace SdramBringup

variable {B : Type} [BoardHook B]

open Program

/-! ### Images that are distrusted -/

/-- The image of a slot in use was read, is of the right kind, and its check is wrong; and nothing
stands in for it, as only the first slot can have a fallback. -/
structure Setup.Distrusts (setup : Setup B) (p : Platform) (position : Fin 3 × Fin 2)
    (image : Spd.Image) : Prop where
  read : setup.images position.1 position.2 = some image
  kind : image.memoryType = Spd.Image.ddr3
  mismatch : image.storedCrc ≠ image.computedCrc
  unknown : ¬(position.2 = 0 ∧ p.fallbackDimm.isSome = true)

namespace Stage

/-! ### Slots that lead to a failure -/

/-- An image is a failure if it is refused for good and nothing stands in for it. -/
theorem value_decodeImage_eq_error_iff {p : Platform} {ctrl slot : Nat} {image : Spd.Image}
    {f : Failure} :
    (decodeImage p ctrl slot image).value = .error f ↔
      ∃ e, image.decode = .error e ∧ e.isFatal = true ∧
        ¬(slot = 0 ∧ p.fallbackDimm.isSome = true) ∧ f = ⟨ctrl, slot, e⟩ := by
  unfold decodeImage
  cases image.decode with
  | ok d => simp
  | error e =>
      cases e with
      | crcMismatch stored computed =>
          have hfatal : (Spd.Error.crcMismatch stored computed).isFatal = true := rfl
          simp only [hfatal, if_true, Except.error.injEq, exists_eq_left', true_and]
          cases p.fallbackDimm with
          | none => simpa using eq_comm
          | some d =>
              by_cases hslot : slot = 0
              · rw [Option.filter_some, if_pos (beq_iff_eq.2 hslot)]
                simp [hslot]
              · rw [Option.filter_some, if_neg (mt beq_iff_eq.1 hslot)]
                simpa [hslot] using eq_comm
      | empty => simp [Spd.Error.isFatal]
      | unsupportedMemoryType code => simp [Spd.Error.isFatal]
      | unsupportedModuleType code => simp [Spd.Error.isFatal]
      | invalidTimebase dividend divisor => simp [Spd.Error.isFatal]

/-- The failure that a slot leads to. -/
def refusal (setup : Setup B) (p : Platform) (position : Fin 3 × Fin 2) : Option Failure :=
  match (decodeImage p position.1 position.2
      ((setup.images position.1 position.2).getD .blank)).value with
  | .error f => some f
  | .ok _ => none

/-- **A slot leads to a failure exactly when its image is distrusted.** A slot that was not read is
blank, and that is no failure. -/
theorem refusal_eq_some_iff {setup : Setup B} {p : Platform} {position : Fin 3 × Fin 2}
    {f : Failure} :
    refusal setup p position = some f ↔
      ∃ image, setup.Distrusts p position image ∧
        f = ⟨position.1, position.2, .crcMismatch image.storedCrc image.computedCrc⟩ := by
  have hvalue : refusal setup p position = some f ↔
      (decodeImage p position.1 position.2
        ((setup.images position.1 position.2).getD .blank)).value = .error f := by
    unfold refusal
    split
    · next g hg => rw [hg, Option.some.injEq, Except.error.injEq]
    · next d hd => simp [hd]
  rw [hvalue, value_decodeImage_eq_error_iff]
  constructor
  · rintro ⟨e, hdecode, hfatal, hfallback, rfl⟩
    obtain ⟨stored, computed, rfl⟩ := Spd.Error.isFatal_iff.1 hfatal
    obtain ⟨hkind, hcrc, rfl, rfl⟩ := Spd.Image.decode_eq_crcMismatch_iff.1 hdecode
    cases hread : setup.images position.1 position.2 with
    | none =>
        rw [hread] at hkind
        exact absurd hkind (by decide)
    | some image =>
        rw [hread] at hkind hcrc
        exact ⟨image, ⟨hread, hkind, hcrc, fun h => hfallback ⟨congrArg Fin.val h.1, h.2⟩⟩, rfl⟩
  · rintro ⟨image, ⟨hread, hkind, hcrc, hfallback⟩, rfl⟩
    refine ⟨.crcMismatch image.storedCrc image.computedCrc, ?_, rfl,
      fun h => hfallback ⟨Fin.ext h.1, h.2⟩, rfl⟩
    rw [hread]
    exact Spd.Image.decode_eq_crcMismatch_iff.2 ⟨hkind, hcrc, rfl, rfl⟩

theorem refusal_eq_none_iff {setup : Setup B} {p : Platform} {position : Fin 3 × Fin 2} :
    refusal setup p position = none ↔ ∀ image, ¬setup.Distrusts p position image := by
  rw [Option.eq_none_iff_forall_ne_some]
  constructor
  · exact fun h image hdistrusts => h _ (refusal_eq_some_iff.2 ⟨image, hdistrusts, rfl⟩)
  · intro h f hf
    obtain ⟨image, hdistrusts, -⟩ := refusal_eq_some_iff.1 hf
    exact h image hdistrusts

/-! ### From the images to the modules -/

section Slots

variable (setup : Setup B)

/-- Reading a slot replaces its image. -/
theorem images_readSlot_self (s : State) (q : Fin 3 × Fin 2) :
    (readSlot setup s q).value.controllers[q.1].images[q.2] =
      (setup.images q.1 q.2).getD .blank := by
  obtain ⟨c, slot⟩ := q
  rw [value_readSlot, State.controllers_put_self]
  exact Vector.getElem_set_self slot.isLt

/-- Reading a slot replaces no other image. -/
theorem images_readSlot_of_ne (s : State) {position q : Fin 3 × Fin 2} (h : position ≠ q) :
    (readSlot setup s position).value.controllers[q.1].images[q.2] =
      s.controllers[q.1].images[q.2] := by
  obtain ⟨c, slot⟩ := position
  obtain ⟨d, other⟩ := q
  rw [value_readSlot]
  by_cases hc : c = d
  · subst hc
    rw [State.controllers_put_self]
    exact Vector.getElem_set_ne slot.isLt other.isLt fun he => h (by rw [Fin.ext he])
  · rw [State.controllers_put_of_ne s hc]

/-- **The images after all slots are read** are what was read, whatever was known before: an image
that is right stays right, and each of the others is replaced in its turn. -/
theorem images_readSlots {positions : List (Fin 3 × Fin 2)} {s : State} {q : Fin 3 × Fin 2}
    (h : q ∈ positions ∨
      s.controllers[q.1].images[q.2] = (setup.images q.1 q.2).getD .blank) :
    (positions.foldlM (readSlot setup) s).value.controllers[q.1].images[q.2] =
      (setup.images q.1 q.2).getD .blank := by
  rw [Noted.value_foldlM]
  induction positions generalizing s with
  | nil => exact h.resolve_left List.not_mem_nil
  | cons position rest ih =>
      rw [List.foldl_cons]
      refine ih ?_
      by_cases hq : position = q
      · subst hq
        exact .inr (images_readSlot_self setup s position)
      · rw [images_readSlot_of_ne setup s hq]
        exact h.imp_left fun hmem => (List.mem_cons.1 hmem).resolve_left (Ne.symm hq)

/-- Decoding stops at the first slot that leads to a failure. -/
theorem failure_decodeSlots {positions : List (Fin 3 × Fin 2)} {s : State}
    (h : ∀ q ∈ positions,
      s.controllers[q.1].images[q.2] = (setup.images q.1 q.2).getD .blank) :
    (decodeSlots positions s).value.2 = positions.findSome? (refusal setup s.platform) := by
  induction positions generalizing s with
  | nil => rfl
  | cons position rest ih =>
      obtain ⟨c, slot⟩ := position
      have himage := h (c, slot) List.mem_cons_self
      rw [decodeSlots, Noted.value_bind, List.findSome?_cons, refusal, ← himage]
      cases (decodeImage s.platform c slot s.controllers[c].images[slot]).value with
      | error f => rfl
      | ok d =>
          refine ih fun q hq => ?_
          rw [← h q (List.mem_cons_of_mem _ hq), State.images_put_withDimm]

/-- **A run from the images on fails with the first slot that leads to a failure**, and in no other
way. -/
theorem failure_runAll_readImages (sizeOnly : Bool) (s : State) :
    (runAll setup sizeOnly readImages.remaining s).value.2 =
      s.platform.positions.findSome? (refusal setup s.platform) := by
  have hfailure : (decodeSlots s.platform.positions (imaged setup s)).value.2 =
      s.platform.positions.findSome? (refusal setup s.platform) := by
    rw [← platform_imaged setup s]
    refine failure_decodeSlots setup fun q hq => ?_
    rw [platform_imaged] at hq
    exact images_readSlots setup (.inl hq)
  rw [value_runAll_readImages, value_runAll_decodeImages, platform_imaged, ← hfailure]
  generalize (decodeSlots s.platform.positions (imaged setup s)).value = decoded
  obtain ⟨modules, failure⟩ := decoded
  cases failure with
  | some f => rfl
  | none => rfl

end Slots

end Stage

/-! ### The whole bring-up -/

namespace Session

/-- A run from the images on fails exactly when some slot leads to a failure. -/
theorem runFrom_readImages_eq_error_iff (s : Session B) (sizeOnly : Bool) (f : Failure) :
    (s.runFrom .readImages sizeOnly).2 = .error f ↔
      s.state.platform.positions.findSome? (Stage.refusal s.setup s.state.platform) = some f := by
  rw [result_runFrom, Stage.failure_runAll_readImages]
  cases s.state.platform.positions.findSome? (Stage.refusal s.setup s.state.platform) with
  | none => simp
  | some g => simp

theorem configure_eq_error_iff (s : Session B) (f : Failure) :
    s.configure.2 = .error f ↔
      s.state.platform.positions.findSome? (Stage.refusal s.setup s.state.platform) = some f := by
  rw [← runFrom_readImages_eq_error_iff s true f]
  obtain ⟨⟨sized, result⟩, hsized⟩ : ∃ ran, s.runFrom .readImages true = ran := ⟨_, rfl⟩
  cases result with
  | error g => rw [configure_of_error hsized, hsized]
  | ok total =>
      rw [(configure_of_ok hsized).2, hsized]
      exact iff_of_false (by simp) (by simp)

/-- **A bring-up that fails has done nothing.** Whatever was known before and whatever the
controllers answer: a bring-up fails exactly when some slot in use holds a module that cannot be
trusted, it then names the first of them, reports no memory and no controller that was touched, and
all that it did was to read the revisions. -/
theorem bringUp_all_or_nothing {σ : Type} (d : Device σ) (s : Session B) (t : Traced σ) :
    ((s.bringUp.run d t).1.2.failure ≠ none ↔
      ∃ position ∈ s.state.platform.positions, ∃ image,
        s.setup.Distrusts s.state.platform position image) ∧
      ∀ f, (s.bringUp.run d t).1.2.failure = some f →
        (∃ before position after image,
          s.state.platform.positions = before ++ position :: after ∧
          (∀ q ∈ before, ∀ image, ¬s.setup.Distrusts s.state.platform q image) ∧
          s.setup.Distrusts s.state.platform position image ∧
          f = ⟨position.1, position.2, .crcMismatch image.storedCrc image.computedCrc⟩) ∧
        (s.bringUp.run d t).1.2.totalMemory = 0 ∧
        (s.bringUp.run d t).1.2.progress = Vector.replicate 3 .untouched ∧
        ∃ events, (s.bringUp.run d t).2.events = t.events ++ events ∧
          events.map Event.readAddress? =
            (BringUp.revisionAddresses s.state.platform).map some := by
  obtain ⟨events, hyields, hevents⟩ := yields_run d s.bringUp t
  generalize s.bringUp.run d t = ran at *
  obtain ⟨⟨after, report⟩, trace⟩ := ran
  obtain ⟨reads, state, hreads, -, -, hend⟩ := yields_bringUp hyields
  have haddresses := (BringUp.yields_readRevisions hreads).1
  have hplatform : state.platform = (State.fresh s.state.platform).platform :=
    BringUp.platform_of_readRevisions hreads
  -- the failure of the report is that of the first slot that leads to one
  have hfailure : report.failure =
        s.state.platform.positions.findSome? (Stage.refusal s.setup s.state.platform) ∧
      ∀ f, report.failure = some f → events = reads ∧ report.totalMemory = 0 ∧
        report.progress = Vector.replicate 3 .untouched := by
    have herror := configure_eq_error_iff { s.restart with state }
    generalize configure { s.restart with state } = configured at herror hend
    obtain ⟨configured, result⟩ := configured
    simp only [hplatform] at herror
    cases result with
    | error f =>
        obtain ⟨rfl, hf, hmemory, hprogress⟩ := hend
        exact ⟨hf.trans ((herror f).1 rfl).symm, fun _ _ => ⟨rfl, hmemory, hprogress⟩⟩
    | ok total =>
        obtain ⟨-, -, -, -, -, -, hnone, -⟩ := hend
        refine ⟨hnone.trans (Eq.symm (Option.eq_none_iff_forall_ne_some.2 fun f hf => ?_)),
          fun f hf => absurd (hnone.symm.trans hf) (by simp)⟩
        exact absurd ((herror f).2 hf) (by simp)
  obtain ⟨hfirst, hnothing⟩ := hfailure
  constructor
  · rw [hfirst, ne_eq, List.findSome?_eq_none_iff]
    simp only [Stage.refusal_eq_none_iff, not_forall, not_not, exists_prop]
  · intro f hf
    obtain ⟨rfl, hmemory, hprogress⟩ := hnothing f hf
    refine ⟨?_, hmemory, hprogress, events, hevents, haddresses⟩
    rw [hfirst, List.findSome?_eq_some_iff] at hf
    obtain ⟨before, position, after, hpositions, hrefusal, hbefore⟩ := hf
    obtain ⟨image, hdistrusts, rfl⟩ := Stage.refusal_eq_some_iff.1 hrefusal
    exact ⟨before, position, after, image, hpositions,
      fun q hq => Stage.refusal_eq_none_iff.1 (hbefore q hq), hdistrusts, rfl⟩

end Session

end SdramBringup
