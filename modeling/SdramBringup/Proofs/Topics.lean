/-
**What the stages warn of.**

A run warns from many places, in loops over slots and controllers, but no two warnings of a run are
about the same matter: for instance, the CAS latency of a controller is either too long or cannot be
chosen at all, and a module that is ignored in the second slot leaves the first one nothing that it
could fail to match. This module gives every warning its topic and shows that each stage stays
within a list of topics of its own, no topic taken twice.

Main definitions:

* `Topic` — what a warning is about, with `Warning.topic`;
* `Stage.topics` — the topics of a stage.

Main results:

* `State.warnings_eachController` — a computation for every controller warns of one after another;
* `Stage.topics_reconcileController`, `Stage.topics_optionsOf` — the warnings about one controller;
* `Stage.topics_run` — **a stage warns of each of its topics at most once**;
* `Stage.topics_runAll` — **stages one after another** warn of their topics;
* `Stage.topics_runAll_readImages` — images that cannot be read and images that are refused are of
  different slots;
* `Stage.illegal_registersFor` — the registers of a controller give no reason for a warning.
-/

import Mathlib.Data.List.Flatten
import SdramBringup.Proofs.BringUp
import SdramBringup.Proofs.CommonTiming
import SdramBringup.Proofs.Configuration
import SdramBringup.Proofs.Resuming

set_option relaxedAutoImplicit false
set_option autoImplicit false

namespace SdramBringup

variable {B : Type} [BoardHook B]

/-! ### Topics -/

/-- What a warning is about. A run warns of each topic at most once. -/
inductive Topic where
  /-- The image of a slot. -/
  | image (ctrl slot : Nat)
  /-- A module with four ranks in the first slot. -/
  | firstSlot (ctrl : Nat)
  /-- The module beside the one in the first slot. -/
  | beside (ctrl : Nat)
  | clock (ctrl : Nat)
  | latency (ctrl : Nat)
  | bankMode (ctrl : Nat)
  | boardEntry (ctrl : Nat)
  | interleaving
  | speedBins
  /-- The filling of the memory behind a controller. -/
  | filling (ctrl : Nat)
  /-- The size of the memory. -/
  | size
  deriving DecidableEq, Repr

/-- The topic of a warning. -/
def Warning.topic : Warning → Topic
  | spdReadFailed c slot | spdUnusable c slot _ | fallbackAssumed c slot => .image c slot
  | quadRankIgnored c slot => if slot = 0 then .firstSlot c else .beside c
  | mixedModules c | controlWordMismatch c => .beside c
  | clockTooFast c _ _ => .clock c
  | casLatencyTooLong c _ | controllerSkipped c _ => .latency c
  | beyondSpeedBins _ => .speedBins
  | bankModeUnsupported c _ => .bankMode c
  | controllerInterleavingDisabled => .interleaving
  | boardEntryTooSlow c _ | boardEntryMissing c => .boardEntry c
  | dataInitTimeout c => .filling c
  | memoryClamped _ _ => .size

/-- The topics of the images of some slots. -/
def Topic.images (positions : List (Fin 3 × Fin 2)) : List Topic :=
  positions.map fun q => .image q.1 q.2

/-- The topics of a stage, in the order in which it comes to them. -/
def Stage.topics (p : Platform) (sizeOnly : Bool) : Stage → List Topic
  | readImages | decodeImages => Topic.images p.positions
  | reconcileTiming =>
      p.controllerList.flatMap fun c : Fin 3 => [.firstSlot c, .beside c, .clock c, .latency c]
  | deriveOptions => p.controllerList.flatMap fun c : Fin 3 => [.bankMode c, .boardEntry c]
  | placeModules => [.interleaving]
  | computeRegisters => if sizeOnly then [] else [.speedBins]
  | done => []

/-! ### Notes of computations -/

namespace Noted

@[simp] theorem warnings_warn (ws : List Warning) : (warn ws).warnings = ws := rfl

@[simp] theorem warnings_say (ls : List LogLine) : (say ls).warnings = [] := rfl

@[simp] theorem warnings_map {α β : Type} (f : α → β) (a : Noted α) :
    (f <$> a).warnings = a.warnings := by
  change a.warnings ++ [] = a.warnings
  exact List.append_nil _

end Noted

/-- **A computation for every controller in use** warns of one controller after another. -/
theorem State.warnings_eachController (s : State) (f : Fin 3 → Controller → Noted Controller) :
    (s.eachController f).warnings =
      s.platform.controllerList.flatMap fun c => (f c s.controllers[c]).warnings := by
  have hvisit : ∀ (cs : List (Fin 3)), cs.Nodup → ∀ s : State,
      (cs.foldlM (fun s c => do
        let new ← f c s.controllers[c]
        return s.put c new) s : Noted State).warnings =
        cs.flatMap fun c => (f c s.controllers[c]).warnings := by
    intro cs
    induction cs with
    | nil => exact fun _ _ => rfl
    | cons c cs ih =>
        intro hcs s
        obtain ⟨hc, hcs⟩ := List.nodup_cons.1 hcs
        rw [List.foldlM_cons, Noted.warnings_bind, ih hcs, List.flatMap_cons]
        simp only [Noted.warnings_bind, Noted.value_bind, Noted.warnings_pure, Noted.value_pure,
          List.append_nil]
        refine congrArg _ (List.flatMap_congr fun d hd => ?_)
        rw [controllers_put_of_ne s (ne_of_mem_of_not_mem hd hc).symm]
  exact hvisit _ s.platform.nodup_controllerList s

/-! ### Images -/

namespace Stage

variable (setup : Setup B) (sizeOnly : Bool)

/-- Reading warns of the slots that cannot be read. -/
theorem topics_readSlots (positions : List (Fin 3 × Fin 2)) (s : State) :
    (positions.foldlM (readSlot setup) s).warnings.map Warning.topic =
      Topic.images (positions.filter fun q => (setup.images q.1 q.2).isNone) := by
  induction positions generalizing s with
  | nil => rfl
  | cons q rest ih =>
      obtain ⟨c, slot⟩ := q
      rw [List.foldlM_cons, Noted.warnings_bind, List.map_append, ih, List.filter_cons, readSlot]
      cases setup.images c slot <;> rfl

/-- A blank image is that of an empty slot, which is nothing to warn of. -/
theorem warnings_decodeImage_blank (p : Platform) (c slot : Nat) :
    (decodeImage p c slot .blank).warnings = [] := by
  have hblank : Spd.Image.blank.decode = .error .empty := by rfl
  rw [decodeImage, hblank]
  rfl

theorem topics_decodeImage (p : Platform) (c slot : Nat) (image : Spd.Image) :
    ((decodeImage p c slot image).warnings.map Warning.topic).Sublist [.image c slot] := by
  rw [decodeImage]
  split
  · exact List.nil_sublist _
  · exact List.nil_sublist _
  · split
    · split
      · exact List.Sublist.refl _
      · exact List.nil_sublist _
    · exact List.Sublist.refl _

/-- Decoding warns of slots whose images are there, each at most once. -/
theorem topics_decodeSlots {positions : List (Fin 3 × Fin 2)} {s : State}
    {present : Fin 3 × Fin 2 → Bool}
    (h : ∀ q ∈ positions, present q = false → s.controllers[q.1].images[q.2] = .blank) :
    ((decodeSlots positions s).warnings.map Warning.topic).Sublist
      (Topic.images (positions.filter present)) := by
  induction positions generalizing s with
  | nil => exact List.nil_sublist _
  | cons q rest ih =>
      obtain ⟨c, slot⟩ := q
      obtain ⟨hq, hrest⟩ := List.forall_mem_cons.1 h
      have hfirst : ((decodeImage s.platform c slot s.controllers[c].images[slot]).warnings.map
          Warning.topic).Sublist (Topic.images ([(c, slot)].filter present)) := by
        cases hpresent : present (c, slot) with
        | false => rw [hq hpresent, warnings_decodeImage_blank]; exact List.nil_sublist _
        | true =>
            rw [List.filter_cons_of_pos hpresent]
            exact topics_decodeImage ..
      rw [decodeSlots, Noted.warnings_bind, List.map_append, ← List.singleton_append,
        List.filter_append, Topic.images, List.map_append]
      refine hfirst.append ?_
      cases (decodeImage s.platform c slot s.controllers[c].images[slot]).value with
      | error f => exact List.nil_sublist _
      | ok d =>
          refine ih fun r hr hpresent => ?_
          rw [State.images_put_withDimm]
          exact hrest r hr hpresent

end Stage

/-! ### The timing of a controller -/

namespace CommonTiming

theorem topics_mismatches (ds : List Dimm) (c : Nat) :
    ((mismatches ds c).map Warning.topic).Sublist [.beside c] := by
  rw [mismatches]
  split
  · exact List.Sublist.refl _
  · split
    · exact List.Sublist.refl _
    · exact List.nil_sublist _

/-- A module alone goes together with itself. -/
theorem mismatches_of_length {ds : List Dimm} (h : ds.length ≤ 1) (c : Nat) :
    mismatches ds c = [] := by
  match ds, h with
  | [], _ => rfl
  | [d], _ => cases hregistered : d.registered <;> simp [mismatches, wordsDiffer, hregistered]

/-- The modules that are ignored are of different slots. -/
theorem topics_ignored (p : Platform) {ds : List Dimm} (hlength : ds.length ≤ 2) (c : Nat) :
    ((ignored p ds c).map Warning.topic).Sublist [.firstSlot c, .beside c] := by
  match ds, hlength with
  | [], _ => exact List.nil_sublist _
  | [d], _ => cases h₀ : p.ignoresQuadRank 0 d <;> simp [ignored, numbered, h₀, Warning.topic]
  | [d, e], _ =>
      cases h₀ : p.ignoresQuadRank 0 d <;> cases h₁ : p.ignoresQuadRank 1 e <;>
        simp [ignored, numbered, h₀, h₁, Warning.topic]

/-- A module that is ignored leaves no two that might not go together. -/
theorem length_participants_of_ignored (p : Platform) {ds : List Dimm} (hlength : ds.length ≤ 2)
    {c : Nat} (h : ignored p ds c ≠ []) : (participants p ds).length ≤ 1 := by
  obtain ⟨q, hq⟩ := List.exists_mem_of_ne_nil _ h
  obtain ⟨⟨slot, d⟩, hd, -⟩ := List.mem_map.1 hq
  obtain ⟨hd, hignored⟩ := List.mem_filter.1 hd
  have hout : ¬p.takesPart slot d = true := by
    simp [Platform.takesPart, hignored]
  have hlt : (participants p ds).length < (numbered ds).length := by
    rw [participants]
    exact List.length_filter_lt_length_iff_exists.2 ⟨(slot, d), hd, hout⟩
  have hnumbered : (numbered ds).length = ds.length := by simp [numbered]
  omega

/-- **The modules of a controller**: if one of them is ignored, no two are left that might not go
together. -/
theorem topics_ignored_append_mismatches (p : Platform) {ds : List Dimm} (hlength : ds.length ≤ 2)
    (c : Nat) :
    ((ignored p ds c ++ mismatches ((participants p ds).map (·.2)) c).map Warning.topic).Sublist
      [.firstSlot c, .beside c] := by
  by_cases hignored : ignored p ds c = []
  · rw [hignored, List.nil_append]
    exact (topics_mismatches _ c).cons _
  · have hone : ((participants p ds).map (·.2)).length ≤ 1 := by
      rw [List.length_map]
      exact length_participants_of_ignored p hlength hignored
    rw [mismatches_of_length hone, List.append_nil]
    exact topics_ignored p hlength c

end CommonTiming

/-- The CAS latency is too long, or there is none. -/
theorem CasLatency.topics_select (clock : Clock) (mask : BitVec 32) (timing : Timing) (c : Nat) :
    ((select clock mask timing c).warnings.map Warning.topic).Sublist [.clock c, .latency c] ∧
      ∀ e, (select clock mask timing c).value = .error e →
        ((select clock mask timing c).warnings.map Warning.topic).Sublist [.clock c] := by
  have hfast : ((tooFast c clock.periodPs timing).map Warning.topic).Sublist [.clock c] := by
    rw [tooFast]
    split
    · exact List.Sublist.refl _
    · exact List.nil_sublist _
  have hlong : ∀ latency,
      ((tooLong c clock.periodPs latency).map Warning.topic).Sublist [.latency c] := by
    intro latency
    rw [tooLong]
    split
    · exact List.Sublist.refl _
    · exact List.nil_sublist _
  rw [select]
  by_cases hperiod : clock.periodPs = 0
  · rw [if_pos hperiod]
    exact ⟨List.nil_sublist _, fun _ _ => List.nil_sublist _⟩
  · simp only [if_neg hperiod]
    cases lowest? mask (least clock.periodPs timing.tAA) with
    | none => exact ⟨hfast.trans (List.sublist_append_left _ [Topic.latency c]), fun _ _ => hfast⟩
    | some latency =>
        refine ⟨?_, fun e he => absurd he (by simp)⟩
        rw [List.map_append]
        exact hfast.append (hlong latency)

/-- Where there is no common timing, the choice of the latency has failed. -/
theorem CommonTiming.error_of_reconcile {clock : Clock} {ds : List Dimm} {p : Platform} {c : Nat}
    (h : counted p ds ≠ []) {e : TimingError} (he : (reconcile clock ds p c).value = .error e) :
    (CasLatency.select clock (sharedLatencies (counted p ds)) (ofDimms (counted p ds)).timing
      c).value = .error e := by
  rw [value_reconcile h] at he
  cases hlatency : (CasLatency.select clock (sharedLatencies (counted p ds))
      (ofDimms (counted p ds)).timing c).value with
  | ok cl =>
      rw [hlatency] at he
      exact absurd he (by simp [Except.map])
  | error e' =>
      rw [hlatency] at he
      simpa [Except.map] using he

namespace Stage

/-- **The timing of a controller** is warned of in four ways at most. -/
theorem topics_reconcileController (setup : Setup B) (p : Platform) (c : Fin 3) (k : Controller) :
    ((reconcileController setup p c k).warnings.map Warning.topic).Sublist
      [.firstSlot c, .beside c, .clock c, .latency c] := by
  have hlength : (k.installed p.slots).length ≤ 2 := by
    rw [k.length_installed p]
    exact p.slots_le
  rw [reconcileController, Noted.warnings_bind]
  by_cases hnone : CommonTiming.counted p (k.installed p.slots) = []
  · rw [(CommonTiming.reconcile_of_nil hnone).1, (CommonTiming.reconcile_of_nil hnone).2,
      Noted.warnings_pure, List.append_nil]
    exact (CommonTiming.topics_ignored p hlength c).trans
      (List.sublist_append_left _ [Topic.clock c, Topic.latency c])
  · obtain ⟨hselect, herror⟩ := CasLatency.topics_select setup.clock
      (CommonTiming.sharedLatencies (CommonTiming.counted p (k.installed p.slots)))
      (CommonTiming.ofDimms (CommonTiming.counted p (k.installed p.slots))).timing c
    have hmodules := CommonTiming.topics_ignored_append_mismatches p hlength c
    rw [CommonTiming.warnings_reconcile hnone]
    cases hresult : (CommonTiming.reconcile setup.clock (k.installed p.slots) p c).value with
    | ok common =>
        rw [Noted.warnings_pure, List.append_nil, List.map_append]
        exact hmodules.append hselect
    | error e =>
        rw [List.append_assoc, List.map_append]
        refine hmodules.append ?_
        rw [List.map_append]
        exact (herror e (CommonTiming.error_of_reconcile hnone hresult)).append
          (List.Sublist.refl [Topic.latency c])

end Stage

/-! ### The options of a controller -/

theorem Options.topics_bankModeOf (p : Platform) (ds : List Dimm) (source : InterleaveSource)
    (c : Nat) :
    ((bankModeOf p ds source c).warnings.map Warning.topic).Sublist [.bankMode c] := by
  simp only [bankModeOf]
  split
  · exact List.nil_sublist _
  · exact List.Sublist.refl _

theorem Board.topics_apply (board : Option Board) (o : Options) (ds : List Dimm) (clock : Clock)
    (c : Nat) : ((apply board o ds clock c).warnings.map Warning.topic).Sublist [.boardEntry c] := by
  cases board with
  | none => exact List.nil_sublist _
  | some b =>
      rw [show apply (some b) o ds clock c = b.finish <$> b.tune ds clock c o from rfl,
        Noted.warnings_map, tune]
      split
      · exact List.nil_sublist _
      · split
        · exact List.nil_sublist _
        · exact List.Sublist.refl _
        · exact List.Sublist.refl _

namespace Stage

/-- **The options of a controller** are warned of in two ways at most. -/
theorem topics_optionsOf (setup : Setup (Option Board)) (p : Platform) (c : Fin 3)
    (k : Controller) :
    ((optionsOf setup p c k).warnings.map Warning.topic).Sublist [.bankMode c, .boardEntry c] := by
  have hwidth : (Options.busWidthOf (k.installed p.slots)).warnings = [] := by
    rw [Options.busWidthOf]
    split
    · rw [Options.widthOfLines]
      split <;> rfl
    · rfl
  rw [optionsOf, Options.derive]
  simp only [Noted.warnings_bind, Noted.warnings_pure, List.append_nil, hwidth, List.nil_append,
    List.map_append]
  exact (Options.topics_bankModeOf ..).append (Board.topics_apply ..)

theorem topics_checkInterleaving (s : State) :
    (s.checkInterleaving.warnings.map Warning.topic).Sublist [.interleaving] := by
  rw [State.checkInterleaving]
  split
  · exact List.nil_sublist _
  · exact List.Sublist.refl _

theorem warnings_registersOf (setup : Setup B) (p : Platform) (sizeOnly : Bool) (k : Controller) :
    (registersOf setup p sizeOnly k).warnings = [] := by
  rw [registersOf, Noted.warnings_bind, Noted.warnings_pure, List.append_nil, Synthesis.compute]
  split
  · rfl
  · cases sizeOnly <;> rfl

/-! ### Stages -/

/-- Warnings about one controller after another. -/
theorem topics_eachController (s : State) {f : Fin 3 → Controller → Noted Controller}
    {topics : Fin 3 → List Topic}
    (h : ∀ c k, ((f c k).warnings.map Warning.topic).Sublist (topics c)) :
    ((s.eachController f).warnings.map Warning.topic).Sublist
      (s.platform.controllerList.flatMap topics) := by
  rw [State.warnings_eachController, List.map_flatMap]
  exact List.Sublist.flatMap_right _ fun c _ => h c _

variable (setup : Setup (Option Board)) (sizeOnly : Bool)

/-- Computing the registers warns of a clock that is too fast, unless only the size is asked for. -/
theorem warnings_run_computeRegisters (s : State) :
    (run setup sizeOnly computeRegisters s).warnings =
      if sizeOnly then [] else binWarning setup := by
  have hregisters : (s.eachController fun _ => registersOf setup s.platform sizeOnly).warnings =
      [] := by
    rw [State.warnings_eachController, List.flatMap_eq_nil_iff]
    exact fun c _ => warnings_registersOf ..
  cases sizeOnly <;> simp [run, hregisters]

/-- **A stage warns of each of its topics at most once.** -/
theorem topics_run (stage : Stage) (s : State) :
    ((run setup sizeOnly stage s).warnings.map Warning.topic).Sublist
      (stage.topics s.platform sizeOnly) := by
  cases stage with
  | readImages =>
      rw [run, Noted.warnings_bind, Noted.warnings_pure, List.append_nil, topics_readSlots]
      exact List.filter_sublist.map _
  | decodeImages =>
      have hall : ((decodeSlots s.platform.positions s).warnings.map Warning.topic).Sublist
          (Topic.images (s.platform.positions.filter fun _ => true)) :=
        topics_decodeSlots fun _ _ h => absurd h (by simp)
      rwa [List.filter_true] at hall
  | reconcileTiming =>
      rw [run, Noted.warnings_bind, Noted.warnings_pure, List.append_nil]
      exact topics_eachController s (topics_reconcileController setup s.platform)
  | deriveOptions =>
      rw [run, Noted.warnings_bind, Noted.warnings_pure, List.append_nil]
      exact topics_eachController s (topics_optionsOf setup s.platform)
  | placeModules =>
      rw [run, Noted.warnings_bind, Noted.warnings_pure, List.append_nil]
      exact topics_checkInterleaving s
  | computeRegisters =>
      rw [warnings_run_computeRegisters]
      cases sizeOnly with
      | true => exact List.nil_sublist _
      | false =>
          change ((binWarning setup).map Warning.topic).Sublist [.speedBins]
          rw [binWarning]
          split
          · exact List.Sublist.refl _
          · exact List.nil_sublist _
  | done => exact List.nil_sublist _

/-- **Stages one after another** warn of their topics, as far as they come. -/
theorem topics_runAll (stages : List Stage) (s : State) :
    ((runAll setup sizeOnly stages s).warnings.map Warning.topic).Sublist
      (stages.flatMap (topics s.platform sizeOnly)) := by
  induction stages generalizing s with
  | nil => exact List.nil_sublist _
  | cons stage rest ih =>
      have hplatform := platform_run setup sizeOnly stage s
      rw [runAll, Noted.warnings_bind, List.map_append, List.flatMap_cons]
      refine (topics_run setup sizeOnly stage s).append ?_
      obtain ⟨⟨t, failure⟩, hrun⟩ : ∃ ran, (run setup sizeOnly stage s).value = ran := ⟨_, rfl⟩
      rw [hrun] at hplatform ⊢
      cases failure with
      | some f => exact List.nil_sublist _
      | none =>
          rw [← show t.platform = s.platform from hplatform]
          exact ih t

/-- **From the images on**: an image that cannot be read is blank, and a blank one is not refused, so
that reading and decoding together warn of each slot at most once. -/
theorem topics_runAll_readImages (s : State) :
    ((runAll setup sizeOnly readImages.remaining s).warnings.map Warning.topic).Subperm
      (decodeImages.remaining.flatMap (topics s.platform sizeOnly)) := by
  let positions := s.platform.positions
  let missing : Fin 3 × Fin 2 → Bool := fun q => (setup.images q.1 q.2).isNone
  have hread : (run setup sizeOnly readImages s).warnings.map Warning.topic =
      Topic.images (positions.filter missing) := by
    rw [run, Noted.warnings_bind, Noted.warnings_pure, List.append_nil]
    exact topics_readSlots setup positions s
  have hdecode : ((run setup sizeOnly decodeImages (imaged setup s)).warnings.map
      Warning.topic).Sublist (Topic.images (positions.filter fun q => !missing q)) := by
    rw [run, platform_imaged]
    refine topics_decodeSlots fun q hq hpresent => ?_
    have hnone : setup.images q.1 q.2 = none := by simpa [missing] using hpresent
    rw [imagesKnown_imaged setup s q (by rwa [platform_imaged]), hnone]
    rfl
  have hslots : (Topic.images (positions.filter missing) ++
      (run setup sizeOnly decodeImages (imaged setup s)).warnings.map Warning.topic).Subperm
        (Topic.images positions) := by
    refine ((List.subperm_append_left _).2 hdecode.subperm).trans ?_
    rw [Topic.images, Topic.images, ← List.map_append]
    exact ((List.filter_append_perm missing positions).map _).subperm
  have hsplit : ((runAll setup sizeOnly readImages.remaining s).warnings.map Warning.topic) =
      (run setup sizeOnly readImages s).warnings.map Warning.topic ++
        (runAll setup sizeOnly (decodeImages :: reconcileTiming.remaining)
          (imaged setup s)).warnings.map Warning.topic := by
    rw [← List.map_append]
    rfl
  rw [hsplit, hread, runAll, Noted.warnings_bind, List.map_append, ← List.append_assoc]
  refine ((List.subperm_append_right _).2 hslots).trans ((List.subperm_append_left _).2 ?_)
  have hplatform := platform_run setup sizeOnly decodeImages (imaged setup s)
  obtain ⟨⟨t, failure⟩, hrun⟩ :
    ∃ ran, (run setup sizeOnly decodeImages (imaged setup s)).value = ran := ⟨_, rfl⟩
  rw [hrun] at hplatform ⊢
  cases failure with
  | some f => exact List.nil_subperm
  | none =>
      have ht : t.platform = s.platform := hplatform.trans (platform_imaged setup s)
      rw [← ht]
      exact (topics_runAll setup sizeOnly reconcileTiming.remaining t).subperm

/-- **The registers of a controller are never illegal**, so that no warning is needed for it. -/
theorem illegal_registersFor (setup : Setup B) (sizeOnly : Bool) (p : Platform) (k : Controller) :
    (registersFor setup sizeOnly p k).illegal = [] := by
  rw [registersFor, Synthesis.compute]
  split
  · exact RegisterFile.illegal_of_sdramConfig rfl
  · cases sizeOnly with
    | true => exact RegisterFile.illegal_of_sdramConfig rfl
    | false => exact Synthesis.illegal_registers _

end Stage

end SdramBringup
