/-
**Where the modules and their timing come from.**

Between runs a session may stop anywhere in the decoding, and the next run may start at any stage. As
long as nobody changes the state by hand, two things can be told of it all the same: every slot has
the module that its image is taken for, apart from its address, or none if decoding stops before it;
and a common timing is that of the modules that are in the slots now, not of others that were there
before.

Main definitions:

* `State.moduleAt` — the module of a slot by the images of all slots;
* `State.ImagesBlank` — nothing was read yet;
* `State.ModulesFaithful`, `State.TimingFaithful` — **modules and timing are those of the images**.

Main results:

* `Stage.dimms_decodeSlots` — what decoding does to every slot, whether or not it fails;
* `State.ModulesFaithful.reconciled` — the common timing that is computed is faithful;
* `State.TimingFaithful.of_undecided` — so is what later stages make of it;
* `State.TimingFaithful.decodeSlots`, `State.TimingFaithful.decodeSlots_imaged` — **a run that stops in the
  decoding** leaves the timing of before, and it is still that of the modules.
-/

import SdramBringup.Proofs.Footprint
import SdramBringup.Proofs.Resuming

set_option relaxedAutoImplicit false
set_option autoImplicit false

namespace SdramBringup

variable {B : Type} [BoardHook B]

/-! ### The module of a slot -/

namespace State

/-- What the image of a slot is taken for. -/
def decodedAt (s : State) (q : Fin 3 × Fin 2) : Except Failure Dimm :=
  (Stage.decodeImage s.platform q.1 q.2 s.controllers[q.1].images[q.2]).value

/-- The image of a slot is taken for something. -/
def accepts (s : State) (q : Fin 3 × Fin 2) : Bool := (s.decodedAt q).toOption.isSome

/-- The module of a slot by the images of all slots: decoding stops at the first one that is not
accepted. -/
def moduleAt (s : State) (q : Fin 3 × Fin 2) : Dimm :=
  if q ∈ s.platform.positions.takeWhile s.accepts then (s.decodedAt q).toOption.getD {} else {}

/-- Nothing was read yet. -/
def ImagesBlank (s : State) : Prop :=
  ∀ q ∈ s.platform.positions, s.controllers[q.1].images[q.2] = .blank

variable {s t : State}

/-- What the slots are taken for depends on their images only. -/
theorem decodedAt_congr (hplatform : s.platform = t.platform)
    (himages : ∀ c : Fin 3, s.controllers[c].images = t.controllers[c].images) :
    s.decodedAt = t.decodedAt := by
  funext q
  rw [decodedAt, decodedAt, hplatform, himages]

theorem accepts_congr (h : s.decodedAt = t.decodedAt) : s.accepts = t.accepts := by
  funext q
  rw [accepts, accepts, h]

theorem moduleAt_congr (hplatform : s.platform = t.platform) (h : s.decodedAt = t.decodedAt) :
    s.moduleAt = t.moduleAt := by
  funext q
  rw [moduleAt, moduleAt, hplatform, accepts_congr h, h]

/-- A slot has a module that its image is taken for, or none. -/
theorem moduleAt_cases (s : State) (q : Fin 3 × Fin 2) :
    s.moduleAt q = {} ∨ s.decodedAt q = .ok (s.moduleAt q) := by
  rw [moduleAt]
  split
  case isFalse => exact .inl rfl
  case isTrue =>
    cases s.decodedAt q with
    | error f => exact .inl rfl
    | ok d => exact .inr rfl

theorem decodedAt_put_withDimm (s : State) (c : Fin 3) (slot : Fin 2) (d : Dimm) :
    (s.put c (s.controllers[c].withDimm slot d)).decodedAt = s.decodedAt :=
  decodedAt_congr rfl (images_put_withDimm s c slot d)

/-- A slot that was not read is empty. -/
theorem decodedAt_of_blank {q : Fin 3 × Fin 2} (h : s.controllers[q.1].images[q.2] = .blank) :
    s.decodedAt q = .ok {} := by
  have hblank : Spd.Image.blank.decode = .error .empty := rfl
  rw [decodedAt, h, Stage.decodeImage, hblank]
  rfl

theorem moduleAt_of_blank (h : s.ImagesBlank) {q : Fin 3 × Fin 2} (hq : q ∈ s.platform.positions) :
    s.moduleAt q = {} := by
  rw [moduleAt, decodedAt_of_blank (h q hq)]
  split <;> rfl

end State

/-! ### What reading and decoding do -/

namespace Stage

/-- What no image in a slot changes is left alone by reading. -/
theorem imaged_of_preserved {α : Type} {f : Controller → α}
    (hf : ∀ k slot image, f (Controller.withImage k slot image) = f k) (setup : Setup B) (s : State)
    (c : Fin 3) : f (imaged setup s).controllers[c] = f s.controllers[c] := by
  rw [imaged, Noted.value_foldlM]
  generalize s.platform.positions = positions
  induction positions generalizing s with
  | nil => rfl
  | cons position rest ih =>
      obtain ⟨e, slot⟩ := position
      rw [List.foldl_cons, ih, value_readSlot]
      by_cases hc : e = c
      · subst hc
        rw [State.controllers_put_self, hf]
      · rw [State.controllers_put_of_ne s hc]

/-- **What decoding does to every slot**, whether or not it fails: the slots before the first one
that is not accepted are filled, and the others stay as they are. -/
theorem dimms_decodeSlots (positions : List (Fin 3 × Fin 2)) (s : State) (q : Fin 3 × Fin 2) :
    (decodeSlots positions s).value.1.controllers[q.1].dimms[q.2] =
      if q ∈ positions.takeWhile s.accepts then (s.decodedAt q).toOption.getD {}
      else s.controllers[q.1].dimms[q.2] := by
  induction positions generalizing s with
  | nil => rfl
  | cons position rest ih =>
      obtain ⟨decoded, hdecoded⟩ : ∃ decoded, s.decodedAt position = decoded := ⟨_, rfl⟩
      have haccepts : s.accepts position = decoded.toOption.isSome := by
        rw [State.accepts, hdecoded]
      rw [List.takeWhile_cons, haccepts, decodeSlots, Noted.value_bind]
      rw [State.decodedAt] at hdecoded
      rw [hdecoded]
      cases decoded with
      | error f => rfl
      | ok d =>
          have hafter := State.decodedAt_put_withDimm s position.1 position.2 d
          refine (ih _).trans ?_
          rw [State.accepts_congr hafter, hafter]
          by_cases hsame : position = q
          · -- the slot is filled now, and with the same module if it comes again
            subst hsame
            have hmodule : (s.decodedAt position).toOption.getD {} = d := by
              rw [State.decodedAt, hdecoded]
              rfl
            rw [State.dimms_put_withDimm_self, hmodule, ite_self, if_pos]
            exact List.mem_cons_self
          · rw [State.dimms_put_withDimm_of_ne s hsame]
            simp [Except.toOption, Ne.symm hsame]

end Stage

/-! ### Modules that are those of the images -/

namespace State

/-- The images are blank or those that the slots answer, and every slot has the module that they
lead to, at whatever address. -/
structure ModulesFaithful (setup : Setup B) (s : State) : Prop where
  images : s.ImagesBlank ∨ s.ImagesKnown setup
  modules : ∀ q ∈ s.platform.positions,
    s.controllers[q.1].dimms[q.2].unplaced = (s.moduleAt q).unplaced

variable {setup : Setup B} {s t : State}

theorem ImagesBlank.of_untimed (hs : s.ImagesBlank) (h : s.untimed = t.untimed) :
    t.ImagesBlank := by
  intro q hq
  rw [← platform_of_untimed h] at hq
  rw [← images_of_untimed h]
  exact hs q hq

theorem moduleAt_of_untimed (h : s.untimed = t.untimed) : s.moduleAt = t.moduleAt :=
  moduleAt_congr (platform_of_untimed h)
    (decodedAt_congr (platform_of_untimed h) (images_of_untimed h))

theorem ModulesFaithful.of_untimed (hs : s.ModulesFaithful setup) (h : s.untimed = t.untimed) :
    t.ModulesFaithful setup where
  images := hs.images.imp (·.of_untimed h) (·.of_untimed h)
  modules := fun q hq => by
    rw [← platform_of_untimed h] at hq
    rw [← dimms_of_untimed h hq, ← moduleAt_of_untimed h]
    exact hs.modules q hq

/-- Decoding the images of slots that are empty from the first one on that is not accepted leaves
the modules of the images. -/
theorem unplaced_decodeSlots_of_empty
    (h : ∀ q ∈ s.platform.positions, q ∉ s.platform.positions.takeWhile s.accepts →
      s.controllers[q.1].dimms[q.2].unplaced = {}) {q : Fin 3 × Fin 2}
    (hq : q ∈ s.platform.positions) :
    (Stage.decodeSlots s.platform.positions s).value.1.controllers[q.1].dimms[q.2].unplaced =
      (s.moduleAt q).unplaced := by
  rw [Stage.dimms_decodeSlots, moduleAt]
  split
  case isTrue hbefore => rfl
  case isFalse hafter => exact h q hq hafter

theorem moduleAt_decodeSlots (positions : List (Fin 3 × Fin 2)) (s : State) :
    (Stage.decodeSlots positions s).value.1.moduleAt = s.moduleAt := by
  have hplatform := platform_decodeSlots positions s
  exact moduleAt_congr hplatform
    (decodedAt_congr hplatform (Stage.images_decodeSlots positions s))

/-- **Decoding again** what is faithful finds the same modules, even if it fails. -/
theorem ModulesFaithful.unplaced_decodeSlots (hs : s.ModulesFaithful setup) {q : Fin 3 × Fin 2}
    (hq : q ∈ s.platform.positions) :
    (Stage.decodeSlots s.platform.positions s).value.1.controllers[q.1].dimms[q.2].unplaced =
      s.controllers[q.1].dimms[q.2].unplaced := by
  rw [hs.modules q hq]
  refine unplaced_decodeSlots_of_empty (fun p hp hafter => ?_) hq
  rw [hs.modules p hp, moduleAt, if_neg hafter]
  rfl

/-- **A slot that is not empty** was read, and its image was accepted. -/
theorem ModulesFaithful.exists_decodedAt (hs : s.ModulesFaithful setup) {q : Fin 3 × Fin 2}
    (hq : q ∈ s.platform.positions) (hpresent : (s.moduleAt q).isEmpty = false) :
    setup.images q.1 q.2 = some s.controllers[q.1].images[q.2] ∧
      s.decodedAt q = .ok (s.moduleAt q) := by
  have hnonempty : s.moduleAt q ≠ {} := by
    intro hempty
    rw [hempty] at hpresent
    exact absurd hpresent (by decide)
  have hdecoded := (s.moduleAt_cases q).resolve_left hnonempty
  refine ⟨?_, hdecoded⟩
  have himage : s.controllers[q.1].images[q.2] ≠ .blank := fun hblank =>
    hnonempty (Except.ok.inj (hdecoded.symm.trans (decodedAt_of_blank hblank)))
  have hknown := hs.images.resolve_left fun hblank => himage (hblank q hq)
  rw [hknown q hq] at himage ⊢
  cases hsource : setup.images q.1 q.2 with
  | none => exact absurd (by rw [hsource]; rfl) himage
  | some image => rfl

/-- Images that are blank or known stay so when they are decoded. -/
theorem images_of_decodeSlots (h : s.ImagesBlank ∨ s.ImagesKnown setup) :
    (Stage.decodeSlots s.platform.positions s).value.1.ImagesBlank ∨
      (Stage.decodeSlots s.platform.positions s).value.1.ImagesKnown setup := by
  refine h.imp (fun hblank q hq => ?_) Stage.imagesKnown_decodeSlots
  rw [platform_decodeSlots] at hq
  rw [Stage.images_decodeSlots]
  exact hblank q hq

theorem ModulesFaithful.decodeSlots (hs : s.ModulesFaithful setup) :
    (Stage.decodeSlots s.platform.positions s).value.1.ModulesFaithful setup where
  images := images_of_decodeSlots hs.images
  modules := fun q hq => by
    rw [platform_decodeSlots] at hq
    rw [hs.unplaced_decodeSlots hq, moduleAt_decodeSlots]
    exact hs.modules q hq

end State

/-! ### Timing that is that of the modules -/

/-- The modules of two controllers are the same, at whatever addresses, if they are slot by slot. -/
theorem Controller.map_unplaced_installed {p : Platform} {k l : Controller}
    (h : ∀ slot : Fin 2, slot.val < p.slots → k.dimms[slot].unplaced = l.dimms[slot].unplaced) :
    (k.installed p.slots).map Dimm.unplaced = (l.installed p.slots).map Dimm.unplaced := by
  rcases p.slots_eq with hone | htwo
  · rw [hone, installed_one, installed_one, List.map_singleton, List.map_singleton,
      h 0 (by simp [hone])]
  · rw [htwo, installed_two, installed_two]
    simp only [List.map_cons, List.map_nil, h 0 (by simp [htwo]), h 1 (by simp [htwo])]

/-- The common timing does not depend on the addresses of the modules. -/
theorem Stage.commonOf_of_unplaced (setup : Setup B) {p : Platform} (c : Fin 3) {k l : Controller}
    (h : ∀ slot : Fin 2, slot.val < p.slots → k.dimms[slot].unplaced = l.dimms[slot].unplaced) :
    commonOf setup p c k = commonOf setup p c l := by
  rw [commonOf, commonOf, ← CommonTiming.value_reconcile_unplaced, k.map_unplaced_installed h,
    CommonTiming.value_reconcile_unplaced]

namespace State

/-- Moreover every common timing is that of the modules in the slots. -/
structure TimingFaithful (setup : Setup B) (s : State) : Prop extends ModulesFaithful setup s where
  timing : ∀ c ∈ s.platform.controllerList, s.controllers[c].common.dimmCount ≠ 0 →
    s.controllers[c].common = Stage.commonOf setup s.platform c s.controllers[c]

variable {setup : Setup B} {s t : State}

/-- **The common timing that is computed** is that of the modules. -/
theorem ModulesFaithful.reconciled (hs : s.ModulesFaithful setup) :
    (Stage.reconciled setup s).TimingFaithful setup where
  toModulesFaithful := hs.of_untimed (Stage.untimed_reconciled setup s).symm
  timing := fun c hc _ => by
    rw [Stage.platform_reconciled] at hc ⊢
    rw [Stage.controllers_reconciled, if_pos hc]
    rfl

theorem untimed_of_undecided (h : s.undecided = t.undecided) : s.untimed = t.untimed := by
  rw [← untimed_undecided, h, untimed_undecided]

/-- **What later stages make of it** leaves it so: they change options, addresses and registers. -/
theorem TimingFaithful.of_undecided (hs : s.TimingFaithful setup) (h : s.undecided = t.undecided) :
    t.TimingFaithful setup where
  toModulesFaithful := hs.of_untimed (untimed_of_undecided h)
  timing := fun c hc hcount => by
    have hplatform : s.platform = t.platform := platform_of_untimed (untimed_of_undecided h)
    have hcontroller : s.undecided.controllers[c] = t.undecided.controllers[c] := by rw [h]
    rw [controllers_undecided, controllers_undecided, if_pos hc, hplatform, if_pos hc]
      at hcontroller
    have huntimed : s.controllers[c].untimed t.platform = t.controllers[c].untimed t.platform :=
      congrArg (fun k : Controller => { k with common := {} }) hcontroller
    replace hcontroller := congrArg Controller.common hcontroller
    have hcommon : s.controllers[c].common = t.controllers[c].common := hcontroller
    rw [← hcommon] at hcount ⊢
    rw [hs.timing c (hplatform ▸ hc) hcount, hplatform, ← Stage.commonOf_untimed, huntimed,
      Stage.commonOf_untimed]

/-- Without images there is no timing. -/
theorem TimingFaithful.dimmCount_of_blank (hs : s.TimingFaithful setup) (h : s.ImagesBlank)
    {c : Fin 3} (hc : c ∈ s.platform.controllerList) : s.controllers[c].common.dimmCount = 0 := by
  by_contra hcount
  have hempty : Stage.commonOf setup s.platform c s.controllers[c] =
      Stage.commonOf setup s.platform c {} := by
    refine Stage.commonOf_of_unplaced setup c fun slot hslot => ?_
    have hq : (c, slot) ∈ s.platform.positions := Platform.mem_positions.2 ⟨hc, hslot⟩
    rw [hs.modules (c, slot) hq, moduleAt_of_blank h hq]
    exact congrArg Dimm.unplaced (Vector.getElem_replicate slot.isLt).symm
  rw [hs.timing c hc hcount, hempty, ← ne_eq, Stage.dimmCount_commonOf_ne_zero_iff] at hcount
  refine hcount.1 ?_
  rcases s.platform.slots_eq with hslots | hslots
  all_goals
    rw [hslots]
    rfl

/-- **A run that stops in the decoding** finds the modules that are there. -/
theorem TimingFaithful.decodeSlots (hs : s.TimingFaithful setup) :
    (Stage.decodeSlots s.platform.positions s).value.1.TimingFaithful setup where
  toModulesFaithful := hs.toModulesFaithful.decodeSlots
  timing := fun c hc hcount => by
    rw [platform_decodeSlots] at hc ⊢
    rw [Stage.decodeSlots_of_preserved (f := Controller.common) fun _ _ _ => rfl] at hcount ⊢
    rw [hs.timing c hc hcount]
    refine Stage.commonOf_of_unplaced setup c fun slot hslot => ?_
    exact (hs.unplaced_decodeSlots (q := (c, slot)) (Platform.mem_positions.2 ⟨hc, hslot⟩)).symm

/-- **The same if the images are read before.** If they were known nothing is new, and otherwise
there was no timing. -/
theorem TimingFaithful.decodeSlots_imaged (hs : s.TimingFaithful setup) :
    (Stage.decodeSlots (Stage.imaged setup s).platform.positions
      (Stage.imaged setup s)).value.1.TimingFaithful setup := by
  rcases hs.images with hblank | hknown
  case inr =>
    rw [Stage.imaged_of_imagesKnown setup hknown]
    exact hs.decodeSlots
  case inl =>
    have hempty : ∀ q ∈ (Stage.imaged setup s).platform.positions,
        (Stage.imaged setup s).controllers[q.1].dimms[q.2].unplaced = {} := by
      intro q hq
      rw [Stage.platform_imaged] at hq
      rw [Stage.imaged_of_preserved (f := fun k : Controller => k.dimms[q.2].unplaced)
        fun _ _ _ => rfl, hs.modules q hq, moduleAt_of_blank hblank hq]
      rfl
    refine ⟨⟨images_of_decodeSlots (.inr (Stage.imagesKnown_imaged setup s)), fun q hq => ?_⟩,
      fun c hc hcount => ?_⟩
    · rw [platform_decodeSlots] at hq
      rw [moduleAt_decodeSlots]
      exact unplaced_decodeSlots_of_empty (fun p hp _ => hempty p hp) hq
    · rw [platform_decodeSlots, Stage.platform_imaged] at hc
      rw [Stage.decodeSlots_of_preserved (f := Controller.common) fun _ _ _ => rfl,
        Stage.imaged_of_preserved (f := Controller.common) fun _ _ _ => rfl] at hcount
      exact absurd (hs.dimmCount_of_blank hblank hc) hcount

end State

end SdramBringup
