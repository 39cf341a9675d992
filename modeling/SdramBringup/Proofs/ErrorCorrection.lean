/-
**Error correction is only switched on where it is safe.**

Error correction needs lines that not every module has, and memory that was filled before it is read
for the first time. The decision is prepared in several stages: the images tell which modules have
the lines, the common timing whether all of them do, the options whether it is asked for, and the
registers take it from there. A session may be stopped and resumed at any stage in between. This
module follows the decision through all of it.

Main definitions:

* `EccModule` — a module that is known to have the lines for error correction;
* `RegisterFile.EccInStep` — registers that say what options and timing say;
* `State.OptionsFaithful`, `State.EccFaithful` — what is kept from run to run;
* `State.EccSafe` — **the promise** for one controller;
* `Session.Unedited` — what can be done with a session without changing its state by hand.

Main results:

* `Stage.eccInStep_registersFor` — the registers say what options and timing say;
* `State.EccFaithful.runAll` — **every run keeps what was prepared**;
* `State.EccFaithful.eccSafe` — and that is safe;
* `Session.eccSafe_of_unedited` — **the promise is kept by every history**.
-/

import SdramBringup.Proofs.BringUp
import SdramBringup.Proofs.CommonTiming
import SdramBringup.Proofs.Configuration
import SdramBringup.Proofs.Provenance

set_option relaxedAutoImplicit false
set_option autoImplicit false

namespace SdramBringup

variable {B : Type} [BoardHook B]

open Layout Program

/-! ### Modules with the lines for error correction -/

/-- A module that decodes has the lines for error correction if its image has an extension. -/
theorem Spd.Image.eccCapable_of_decode {image : Image} {d : Dimm} (h : image.decode = .ok d) :
    d.eccCapable = true ↔ image.byte 8 / 8 % 4 ≠ 0 := by
  obtain ⟨kind, rfl⟩ := exists_kind_of_decode h
  by_cases hextension : image.byte 8 / 8 % 4 = 0
  · simp [Image.dimm, extensionWidth, hextension]
  · simp [Image.dimm, extensionWidth, hextension]

/-- How a module is known to have the lines for error correction: the image of its slot describes it
and has an extension, or the image is refused for good and the platform knows that the module in the
first slot has them. The address of the module does not matter. -/
inductive EccModule (setup : Setup B) (p : Platform) (ctrl : Fin 3) (slot : Fin 2) (d : Dimm) : Prop
  | described {image : Spd.Image} {e : Dimm} (hread : setup.images ctrl slot = some image)
      (hdecode : image.decode = .ok e) (hsame : d.unplaced = e.unplaced)
      (hextension : image.byte 8 / 8 % 4 ≠ 0)
  | assumed {image : Spd.Image} {error : Spd.Error} {e : Dimm}
      (hread : setup.images ctrl slot = some image) (hrefused : image.decode = .error error)
      (hfatal : error.isFatal = true) (hfirst : slot = 0) (hfallback : p.fallbackDimm = some e)
      (hsame : d.unplaced = e.unplaced) (hcapable : e.eccCapable = true)

/-- What an image is taken for is the module that it describes, the fallback for a module that cannot
be trusted, or an empty slot. -/
theorem Stage.value_decodeImage_eq_ok {p : Platform} {ctrl slot : Nat} {image : Spd.Image}
    {d : Dimm} (h : (decodeImage p ctrl slot image).value = .ok d) :
    image.decode = .ok d ∨ d = {} ∨
      ∃ e, image.decode = .error e ∧ e.isFatal = true ∧ slot = 0 ∧ p.fallbackDimm = some d := by
  unfold decodeImage at h
  split at h
  case h_1 e hdecode =>
    rw [← Except.ok.inj h]
    exact .inl hdecode
  case h_2 => exact .inr (.inl (Except.ok.inj h).symm)
  case h_3 e _ hdecode =>
    split_ifs at h with hfatal
    · split at h
      case h_1 f hfallback =>
        obtain ⟨hsome, hslot⟩ := Option.filter_eq_some_iff.1 hfallback
        rw [← Except.ok.inj h]
        exact .inr (.inr ⟨e, hdecode, hfatal, beq_iff_eq.1 hslot, hsome⟩)
      case h_2 => exact absurd h (by simp)
    · exact .inr (.inl (Except.ok.inj h).symm)

namespace State

/-- **A module that is not empty** and has the lines for error correction is known to have them. -/
theorem ModulesFaithful.eccModule {setup : Setup B} {s : State} (hs : s.ModulesFaithful setup)
    {c : Fin 3} {slot : Fin 2} (hq : (c, slot) ∈ s.platform.positions)
    (hpresent : s.controllers[c].dimms[slot].isEmpty = false)
    (hcapable : s.controllers[c].dimms[slot].eccCapable = true) :
    EccModule setup s.platform c slot s.controllers[c].dimms[slot] := by
  have hsame : s.controllers[c].dimms[slot].unplaced = (s.moduleAt (c, slot)).unplaced :=
    hs.modules (c, slot) hq
  -- neither property depends on the address
  have hfield : ∀ {f : Dimm → Bool}, (∀ d, f d.unplaced = f d) →
      f (s.moduleAt (c, slot)) = f s.controllers[c].dimms[slot] := by
    intro f hf
    rw [← hf, ← hsame, hf]
  have hnonempty := (hfield (f := Dimm.isEmpty) fun _ => rfl).trans hpresent
  have hlines := (hfield (f := Dimm.eccCapable) fun _ => rfl).trans hcapable
  obtain ⟨hread, hdecoded⟩ := hs.exists_decodedAt hq hnonempty
  obtain hdecode | hempty | ⟨e, hrefused, hfatal, hfirst, hfallback⟩ :=
    Stage.value_decodeImage_eq_ok hdecoded
  · exact .described hread hdecode hsame ((Spd.Image.eccCapable_of_decode hdecode).1 hlines)
  · rw [hempty] at hnonempty
    exact absurd hnonempty (by decide)
  · exact .assumed hread hrefused hfatal (Fin.ext hfirst) hfallback hsame hlines

end State

/-! ### What the timing says -/

/-- If a controller has modules and all of them have the lines for error correction by their common
timing, each one that takes part has them. -/
theorem Stage.eccCapable_of_commonOf {setup : Setup B} {p : Platform} {c : Fin 3} {k : Controller}
    (hcount : (commonOf setup p c k).dimmCount ≠ 0)
    (hall : (commonOf setup p c k).allEccCapable = true) {slot : Fin 2} (hslot : slot.val < p.slots)
    (hpart : p.takesPart slot k.dimms[slot] = true) : k.dimms[slot].eccCapable = true := by
  obtain ⟨-, common, hcommon⟩ := (dimmCount_commonOf_ne_zero_iff setup p c k).1 hcount
  have hvalue : commonOf setup p c k = common := by
    rw [commonOf, hcommon]
    rfl
  rw [hvalue] at hcount hall
  obtain ⟨-, rfl⟩ | ⟨cl, rfl⟩ := CommonTiming.eq_of_reconcile hcommon
  · exact absurd rfl hcount
  · have hin : slot.val < (k.installed p.slots).length := by rwa [k.length_installed]
    have hslotted : (k.installed p.slots)[slot.val]? = some k.dimms[slot] := by
      rw [List.getElem?_eq_getElem hin, Controller.getElem_installed k hin slot.isLt]
      rfl
    exact List.all_eq_true.1 hall _ (CommonTiming.mem_counted_iff.2 ⟨slot, hslotted, hpart⟩)

/-! ### What the options are -/

namespace Options

variable (clock : Clock) (common : CommonTiming) (dimms : List Dimm) (ctrl : Nat)
  (platform : Platform) (source : InterleaveSource) (board : Option Board)

/-- Neither the board nor the bursts have a say in error correction. -/
theorem ecc_derive :
    (derive clock common dimms ctrl platform source board).value.ecc =
      (source.ecc ctrl).getD false :=
  derive_of_preserved clock common dimms ctrl platform source board (fun _ _ _ => rfl)
    fun o => Board.apply_of_preserved board o dimms clock ctrl (fun _ _ => rfl) fun _ _ => rfl

theorem eccInit_derive :
    (derive clock common dimms ctrl platform source board).value.eccInit =
      (source.ecc ctrl).getD false :=
  derive_of_preserved clock common dimms ctrl platform source board (fun _ _ _ => rfl)
    fun o => Board.apply_of_preserved board o dimms clock ctrl (fun _ _ => rfl) fun _ _ => rfl

end Options

/-! ### What the registers say -/

namespace RegisterFile

/-- The registers switch error correction on. -/
def EccEnabled (f : RegisterFile) : Prop := Config.ecc.get f.sdramConfig = 1

/-- The registers are in step with the options and the timing of their controller. -/
structure EccInStep (options : Options) (common : CommonTiming) (f : RegisterFile) : Prop where
  enabled : f.EccEnabled →
    common.dimmCount ≠ 0 ∧ options.ecc = true ∧ common.allEccCapable = true
  filled : f.EccEnabled → Config2.dataInit.get f.sdramConfig2 = options.eccInit.toNat
  access : Config.eccAccess.get f.sdramConfig = 1 ↔ f.EccEnabled ∧ options.busWidth ≠ .bits64

/-- A configuration of zeros asks for nothing. -/
theorem EccInStep.of_zero {options : Options} {common : CommonTiming} {f : RegisterFile}
    (h : f.sdramConfig = 0) : EccInStep options common f := by
  have hdisabled : ¬f.EccEnabled := by
    rw [EccEnabled, h]
    decide
  have haccess : ¬Config.eccAccess.get f.sdramConfig = 1 := by
    rw [h]
    decide
  exact ⟨fun hon => absurd hon hdisabled, fun hon => absurd hon hdisabled,
    iff_of_false haccess fun hon => hdisabled hon.1⟩

end RegisterFile

/-- The registers say what options and timing say. -/
theorem Synthesis.eccInStep_registers {i : Inputs} (hcount : i.common.dimmCount ≠ 0) :
    RegisterFile.EccInStep i.options i.common (registers i) := by
  have henabled : (registers i).EccEnabled ↔ usesEcc i = true := by
    rw [← Bool.toNat_eq_one, ← get_ecc_sdramConfig]
    rfl
  have haccess : Config.eccAccess.get (registers i).sdramConfig =
      if i.options.busWidth ≠ .bits64 ∧ usesEcc i then 1 else 0 := get_eccAccess_sdramConfig i
  refine ⟨fun hon => ?_, fun _ => get_dataInit_sdramConfig2 i, ?_⟩
  · rw [henabled, usesEcc, Bool.and_eq_true] at hon
    exact ⟨hcount, hon⟩
  · rw [henabled, haccess]
    split_ifs with hboth
    · exact iff_of_true rfl hboth.symm
    · exact iff_of_false (by decide) fun h => hboth h.symm

/-- **The registers say what options and timing say**, whether all of them are computed or only those
that tell the size of the memory. -/
theorem Stage.eccInStep_registersFor (setup : Setup B) (sizeOnly : Bool) (p : Platform)
    (k : Controller) :
    RegisterFile.EccInStep k.options k.common (registersFor setup sizeOnly p k) := by
  by_cases hcount : k.common.dimmCount = 0
  · rw [registersFor_of_dimmCount setup sizeOnly hcount]
    exact .of_zero rfl
  · have hinputs : (inputsOf setup p k).common.dimmCount ≠ 0 := hcount
    rw [registersFor, Synthesis.compute, if_neg hinputs]
    cases sizeOnly with
    | true => exact .of_zero rfl
    | false => exact Synthesis.eccInStep_registers hinputs

/-! ### What is kept from run to run -/

namespace State

/-- Moreover a controller with modules has the options for error correction that are asked for. -/
structure OptionsFaithful (setup : Setup B) (s : State) : Prop extends TimingFaithful setup s where
  options : ∀ c ∈ s.platform.controllerList, s.controllers[c].common.dimmCount ≠ 0 →
    s.controllers[c].options.ecc = (setup.interleave.ecc c).getD false ∧
      s.controllers[c].options.eccInit = (setup.interleave.ecc c).getD false

/-- Moreover the registers are in step with options and timing. -/
structure EccFaithful (setup : Setup B) (s : State) : Prop extends OptionsFaithful setup s where
  registers : ∀ c ∈ s.platform.controllerList,
    RegisterFile.EccInStep s.controllers[c].options s.controllers[c].common
      s.controllers[c].registers

variable {setup : Setup (Option Board)} {s : State}

/-! #### One stage -/

theorem TimingFaithful.derived (hs : s.TimingFaithful setup) :
    (Stage.derived setup s).OptionsFaithful setup where
  toTimingFaithful := hs.of_undecided (Stage.undecided_derived setup s).symm
  options := fun c hc _ => by
    rw [Stage.platform_derived] at hc
    rw [Stage.controllers_derived, if_pos hc, Stage.value_optionsOf]
    exact ⟨Options.ecc_derive .., Options.eccInit_derive ..⟩

/-- The placement changes options only where it gives interleaving up. -/
theorem OptionsFaithful.placed (hs : s.OptionsFaithful setup) :
    (Stage.placed s).OptionsFaithful setup where
  toTimingFaithful := by
    refine hs.of_undecided ?_
    rw [← undecided_checkInterleaving, ← undecided_unplaced, ← Stage.unplaced_placed,
      undecided_unplaced]
  options := fun c hc hcount => by
    rw [Stage.platform_placed] at hc
    have hchecked : c ∈ s.checkInterleaving.value.platform.controllerList := by
      rwa [platform_checkInterleaving]
    rw [Stage.placed_eq] at hcount ⊢
    rw [common_placing hchecked, common_checkInterleaving] at hcount
    rw [options_placing hchecked, controllers_checkInterleaving]
    split
    · exact hs.options c hc hcount
    · exact hs.options c hc hcount

/-- Whatever the registers were before, they are in step afterwards. -/
theorem OptionsFaithful.computed (hs : s.OptionsFaithful setup) (sizeOnly : Bool) :
    (Stage.computed setup sizeOnly s).EccFaithful setup where
  toTimingFaithful := by
    refine hs.of_undecided ?_
    rw [← undecided_unplaced, ← unplaced_unwritten, ← Stage.unwritten_computed setup sizeOnly,
      unplaced_unwritten, undecided_unplaced]
  options := fun c hc hcount => by
    rw [Stage.platform_computed] at hc
    rw [Stage.controllers_computed, if_pos hc] at hcount ⊢
    exact hs.options c hc hcount
  registers := fun c hc => by
    rw [Stage.platform_computed] at hc
    rw [Stage.controllers_computed, if_pos hc]
    exact Stage.eccInStep_registersFor setup sizeOnly s.platform s.controllers[c]

/-- What comes before the timing leaves the timing, the options and the registers as they are. -/
theorem EccFaithful.of_timing {t : State} (hs : s.EccFaithful setup) (ht : t.TimingFaithful setup)
    (hplatform : t.platform = s.platform)
    (hsame : ∀ c : Fin 3,
      (t.controllers[c].common, t.controllers[c].options, t.controllers[c].registers) =
        (s.controllers[c].common, s.controllers[c].options, s.controllers[c].registers)) :
    t.EccFaithful setup := by
  simp only [Prod.mk.injEq] at hsame
  refine ⟨⟨ht, fun c hc hcount => ?options⟩, fun c hc => ?registers⟩
  case options =>
    rw [hplatform] at hc
    rw [(hsame c).1] at hcount
    rw [(hsame c).2.1]
    exact hs.options c hc hcount
  case registers =>
    rw [hplatform] at hc
    rw [(hsame c).1, (hsame c).2.1, (hsame c).2.2]
    exact hs.registers c hc

theorem EccFaithful.decodeSlots (hs : s.EccFaithful setup) :
    (Stage.decodeSlots s.platform.positions s).value.1.EccFaithful setup :=
  hs.of_timing hs.toTimingFaithful.decodeSlots (platform_decodeSlots ..) fun c =>
    Stage.decodeSlots_of_preserved (f := fun k => (k.common, k.options, k.registers))
      (fun _ _ _ => rfl) s.platform.positions s c

theorem EccFaithful.decodeSlots_imaged (hs : s.EccFaithful setup) :
    (Stage.decodeSlots (Stage.imaged setup s).platform.positions
      (Stage.imaged setup s)).value.1.EccFaithful setup := by
  refine hs.of_timing hs.toTimingFaithful.decodeSlots_imaged ?_ fun c => ?_
  · rw [platform_decodeSlots, Stage.platform_imaged]
  · have hread := Stage.imaged_of_preserved (f := fun k => (k.common, k.options, k.registers))
      (fun _ _ _ => rfl) setup s c
    have hdecoded := Stage.decodeSlots_of_preserved
      (f := fun k => (k.common, k.options, k.registers)) (fun _ _ _ => rfl)
      (Stage.imaged setup s).platform.positions (Stage.imaged setup s) c
    exact hdecoded.trans hread

/-! #### Several stages -/

/-- **From the modules on** everything is computed anew. -/
theorem ModulesFaithful.configured (hs : s.ModulesFaithful setup) (sizeOnly : Bool) :
    (Stage.computed setup sizeOnly (Stage.placed (Stage.derived setup
      (Stage.reconciled setup s)))).EccFaithful setup :=
  hs.reconciled.derived.placed.computed sizeOnly

theorem EccFaithful.runAll_decodeImages {t : State} (sizeOnly : Bool)
    (hs : (Stage.decodeSlots t.platform.positions t).value.1.EccFaithful setup) :
    (Stage.runAll setup sizeOnly Stage.decodeImages.remaining t).value.1.EccFaithful setup := by
  rw [Stage.value_runAll_decodeImages]
  generalize (Stage.decodeSlots t.platform.positions t).value = decoded at hs
  obtain ⟨modules, failure⟩ := decoded
  cases failure with
  | some f => exact hs
  | none =>
      simp only
      exact ModulesFaithful.configured hs.toModulesFaithful sizeOnly

/-- **Every run keeps what was prepared**, from whatever stage on and whether or not it fails. -/
theorem EccFaithful.runAll (hs : s.EccFaithful setup) (stage : Stage) (sizeOnly : Bool) :
    (Stage.runAll setup sizeOnly stage.remaining s).value.1.EccFaithful setup := by
  cases stage with
  | readImages =>
      rw [Stage.value_runAll_readImages]
      exact .runAll_decodeImages sizeOnly hs.decodeSlots_imaged
  | decodeImages => exact .runAll_decodeImages sizeOnly hs.decodeSlots
  | reconcileTiming =>
      simp only [Stage.value_runAll_reconcileTiming]
      exact hs.toModulesFaithful.configured sizeOnly
  | deriveOptions =>
      simp only [Stage.value_runAll_deriveOptions]
      exact hs.toTimingFaithful.derived.placed.computed sizeOnly
  | placeModules =>
      simp only [Stage.value_runAll_placeModules]
      exact hs.toOptionsFaithful.placed.computed sizeOnly
  | computeRegisters =>
      simp only [Stage.value_runAll_computeRegisters]
      exact hs.toOptionsFaithful.computed sizeOnly
  | done => exact hs

/-- Nothing is known yet but revisions. -/
theorem eccFaithful_of_anonymous {p : Platform} (h : s.anonymous = (fresh p).anonymous) :
    s.EccFaithful setup := by
  have hknown : ∀ c : Fin 3, s.controllers[c].anonymous = {} := by
    intro c
    rw [← controllers_anonymous, h, controllers_anonymous]
    exact congrArg Controller.anonymous (Vector.getElem_replicate c.isLt)
  have hblank : s.ImagesBlank := by
    intro q _
    have himages := congrArg Controller.images (hknown q.1)
    exact (congrArg (fun images : Vector Spd.Image 2 => images[q.2]) himages).trans
      (Vector.getElem_replicate q.2.isLt)
  have hcount : ∀ c : Fin 3, s.controllers[c].common.dimmCount = 0 := by
    intro c
    have hcommon := congrArg (fun k : Controller => k.common.dimmCount) (hknown c)
    exact hcommon
  refine ⟨⟨⟨⟨.inl hblank, fun q hq => ?modules⟩, fun c _ hmodules => ?timing⟩,
    fun c _ hmodules => ?options⟩, fun c _ => ?registers⟩
  case modules =>
    have hdimms := congrArg (fun k : Controller => k.dimms[q.2].unplaced) (hknown q.1)
    rw [moduleAt_of_blank hblank hq]
    exact hdimms.trans (congrArg Dimm.unplaced (Vector.getElem_replicate q.2.isLt))
  case timing => exact absurd (hcount c) hmodules
  case options => exact absurd (hcount c) hmodules
  case registers =>
    have hregisters := congrArg (fun k : Controller => k.registers.sdramConfig) (hknown c)
    exact .of_zero hregisters

/-! ### The promise -/

/-- **The promise of error correction** for a controller: if its registers switch it on, it was asked
for, every module that takes part is known to have the lines for it, and the controller fills the
memory. Error correction is accessed separately exactly when it is on and the bus is narrower than 64
lines. -/
structure EccSafe (setup : Setup B) (s : State) (c : Fin 3) : Prop where
  requested : s.controllers[c].registers.EccEnabled → setup.interleave.ecc c = some true
  capable : s.controllers[c].registers.EccEnabled → ∀ slot : Fin 2, slot.val < s.platform.slots →
    s.platform.takesPart slot s.controllers[c].dimms[slot] = true →
      EccModule setup s.platform c slot s.controllers[c].dimms[slot]
  filled : s.controllers[c].registers.EccEnabled →
    Config2.dataInit.get s.controllers[c].registers.sdramConfig2 = 1
  access : Config.eccAccess.get s.controllers[c].registers.sdramConfig = 1 ↔
    s.controllers[c].registers.EccEnabled ∧ s.controllers[c].options.busWidth ≠ .bits64

/-- What was prepared is safe. -/
theorem EccFaithful.eccSafe (hs : s.EccFaithful setup) {c : Fin 3}
    (hc : c ∈ s.platform.controllerList) : s.EccSafe setup c := by
  have hstep := hs.registers c hc
  have hasked : s.controllers[c].registers.EccEnabled →
      (setup.interleave.ecc c).getD false = true ∧ s.controllers[c].options.eccInit = true := by
    intro hon
    obtain ⟨hcount, hecc, -⟩ := hstep.enabled hon
    obtain ⟨hoption, hinit⟩ := hs.options c hc hcount
    rw [hoption] at hecc
    exact ⟨hecc, hinit.trans hecc⟩
  refine ⟨fun hon => ?requested, fun hon slot hslot hpart => ?capable, fun hon => ?filled,
    hstep.access⟩
  case requested =>
    obtain ⟨hasked, -⟩ := hasked hon
    cases hsource : setup.interleave.ecc c with
    | none => simp [hsource] at hasked
    | some asked =>
        rw [hsource] at hasked
        exact congrArg some hasked
  case filled =>
    rw [hstep.filled hon, (hasked hon).2]
    rfl
  case capable =>
    obtain ⟨hcount, -, hall⟩ := hstep.enabled hon
    have htiming := hs.timing c hc hcount
    rw [htiming] at hcount hall
    have hcapable := Stage.eccCapable_of_commonOf hcount hall hslot hpart
    refine hs.eccModule (Platform.mem_positions.2 ⟨hc, hslot⟩) ?_ hcapable
    rw [Platform.takesPart, Bool.and_eq_true, Bool.not_eq_true'] at hpart
    exact hpart.1

end State

namespace Session

/-! ### Histories -/

/-- What can be done with a session without changing its state by hand: runs from any stage, with
whatever outcome, and anything that starts anew. -/
inductive Unedited : Session B → Prop
  | start (setup : Setup B) (p : Platform) : Unedited (start setup p)
  | run {s : Session B} (stage : Stage) (sizeOnly : Bool) (h : Unedited s) :
      Unedited (s.runFrom stage sizeOnly).1
  | size (s : Session B) : Unedited s.size.1
  | bringUp {σ : Type} (d : Device σ) (s : Session B) (t : Traced σ) :
      Unedited (s.bringUp.run d t).1.1

variable {setup : Setup (Option Board)}

/-- A run keeps what was prepared. -/
theorem eccFaithful_runFrom {s : Session (Option Board)} (hsetup : s.setup = setup)
    (h : s.state.EccFaithful setup) (stage : Stage) (sizeOnly : Bool) :
    (s.runFrom stage sizeOnly).1.state.EccFaithful setup := by
  rw [state_runFrom, hsetup]
  exact h.runAll stage sizeOnly

/-- So does the configuration of a bring-up. -/
theorem eccFaithful_configure {s : Session (Option Board)} (hsetup : s.setup = setup)
    (h : s.state.EccFaithful setup) : s.configure.1.state.EccFaithful setup := by
  have hsized := eccFaithful_runFrom hsetup h .readImages true
  obtain ⟨⟨sized, result⟩, hrun⟩ : ∃ ran, s.runFrom .readImages true = ran := ⟨_, rfl⟩
  rw [hrun] at hsized
  cases result with
  | error f =>
      rw [configure_of_error hrun]
      exact hsized
  | ok total =>
      rw [(configure_of_ok hrun).1, hsetup]
      exact hsized.toOptionsFaithful.computed false

/-- **What is kept by every history**, by induction on it. -/
theorem Unedited.eccFaithful {s : Session (Option Board)} (h : s.Unedited) :
    s.state.EccFaithful s.setup := by
  induction h with
  | start setup p => exact State.eccFaithful_of_anonymous rfl
  | run stage sizeOnly _ ih => exact eccFaithful_runFrom rfl ih stage sizeOnly
  | size s =>
      exact eccFaithful_runFrom (s := s.restart) rfl (State.eccFaithful_of_anonymous rfl)
        .readImages true
  | bringUp d s t =>
      obtain ⟨events, hyields, -⟩ := yields_run d s.bringUp t
      obtain ⟨reads, state, hreads, hsetup, hstate, -⟩ := yields_bringUp hyields
      have hfresh : state.EccFaithful s.setup :=
        State.eccFaithful_of_anonymous (BringUp.yields_readRevisions hreads).2
      have hconfigured := eccFaithful_configure (s := { s.restart with state }) rfl hfresh
      generalize configure { s.restart with state } = configured at hstate hconfigured
      rw [hsetup, hstate]
      exact hconfigured

/-- **Error correction is only switched on where it is safe**, whatever runs a session went through
and whether or not they failed: as long as nobody changed its state by hand, the promise holds for
every controller in use. -/
theorem eccSafe_of_unedited {s : Session (Option Board)} (h : s.Unedited) {c : Fin 3}
    (hc : c ∈ s.state.platform.controllerList) : s.state.EccSafe s.setup c :=
  h.eccFaithful.eccSafe hc

/-- The image of a module with lines for error correction. -/
def eccImage : Spd.Image :=
  Spd.Image.withCrc (.ofBytes [0, 0, 0x0B, 2, 0, 0, 0, 1, 0x0B, 0, 0, 1, 0, 0, 1])

/-- A controller with such a module, for which error correction is asked for: its size was asked for
first, and then all registers were computed from the options on. -/
def eccResumed : Session (Option Board) :=
  ((start
    { Setup.bare 1600000000 with
      images := fun _ _ => some eccImage
      interleave := { ecc := fun _ => some true } }
    Platform.singleSlot).size.1.runFrom .deriveOptions false).1

set_option maxRecDepth 100000 in
/-- There error correction is on, and it is safe. -/
theorem eccSafe_eccResumed :
    eccResumed.Unedited ∧ 0 ∈ eccResumed.state.platform.controllerList ∧
      eccResumed.state.controllers[(0 : Fin 3)].registers.EccEnabled ∧
      eccResumed.state.EccSafe eccResumed.setup 0 := by
  have hunedited : eccResumed.Unedited := .run .deriveOptions false (.size _)
  have hc : 0 ∈ eccResumed.state.platform.controllerList := by decide +kernel
  have hon : Config.ecc.get eccResumed.state.controllers[(0 : Fin 3)].registers.sdramConfig = 1 := by
    decide +kernel
  exact ⟨hunedited, hc, hon, eccSafe_of_unedited hunedited hc⟩

end Session

end SdramBringup
