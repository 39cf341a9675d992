/-
**The size of the memory and its bring-up agree.**

The size of the memory can be asked for without touching the controllers, and the bring-up reports
what it has brought up. Both may happen after anything else has been done with a session: after runs
from any stage, changes to the state, other bring-ups. This module shows that none of that matters,
nor do the revisions that only the bring-up knows: both fail alike, or they agree on the memory and
on the chip selects that map it.

Main definitions:

* `Session.Reaches` — what can be done with a session as long as its platform stays as it is;
* `Session.Agree` — **the promise**: the size of one session and the bring-up of another agree.

Main results:

* `Stage.chipSelects_computed_computed` — chip selects that are computed again are the same;
* `Session.Reaches.keeps` — what a session keeps whatever is done with it;
* `Session.agree_of_reaches` — **the promise is kept by any two histories of a session**.
-/

import SdramBringup.Proofs.Alike
import SdramBringup.Proofs.BringUp
import SdramBringup.Proofs.ReportedMemory
import SdramBringup.Proofs.ResetSequence

set_option relaxedAutoImplicit false
set_option autoImplicit false

namespace SdramBringup

variable {B : Type} [BoardHook B]

open Program

namespace Stage

variable (setup : Setup B) (sizeOnly : Bool)

/-! ### Registers that are computed twice -/

/-- **Chip selects that are computed again are the same**, whether only the size of the memory is
asked for or all registers are. -/
theorem chipSelects_computed_computed (again : Bool) (s : State) (c : Fin 3) :
    (computed setup again (computed setup sizeOnly s)).controllers[c].registers.chipSelects =
      (computed setup sizeOnly s).controllers[c].registers.chipSelects := by
  by_cases hc : c ∈ s.platform.controllerList
  · rw [registers_computed setup again _ (by rwa [platform_computed]), platform_computed,
      controllers_computed setup sizeOnly s, if_pos hc, chipSelects_registersFor,
      chipSelects_registersFor]
    rfl
  · rw [controllers_computed setup again, platform_computed, if_neg hc]

end Stage

/-- States that differ in the revisions only have the same registers. -/
theorem State.registers_eq_of_anonymous {s t : State} (h : s.anonymous = t.anonymous) (c : Fin 3) :
    s.controllers[c].registers = t.controllers[c].registers := by
  have hcontroller : s.anonymous.controllers[c] = t.anonymous.controllers[c] := by rw [h]
  rw [controllers_anonymous, controllers_anonymous] at hcontroller
  have hregisters := congrArg Controller.registers hcontroller
  exact hregisters

namespace Session

/-! ### Histories -/

/-- What can be done with a session as long as its platform stays as it is: runs from any stage,
asking for the size, bring-ups on any device, and any change to what is known. -/
inductive Reaches (start : Session B) : Session B → Prop
  | refl : Reaches start start
  | run {s : Session B} (stage : Stage) (sizeOnly : Bool) (h : Reaches start s) :
      Reaches start (s.runFrom stage sizeOnly).1
  | size {s : Session B} (h : Reaches start s) : Reaches start s.size.1
  | bringUp {s : Session B} {σ : Type} (d : Device σ) (t : Traced σ) (h : Reaches start s) :
      Reaches start (s.bringUp.run d t).1.1
  | edit {s : Session B} (state : State) (warnings : Warnings)
      (hplatform : state.platform = s.state.platform) (h : Reaches start s) :
      Reaches start { s with state, warnings }

theorem size_eq (s : Session B) : s.size = s.restart.runFrom .readImages true := rfl

theorem setup_restart (s : Session B) : s.restart.setup = s.setup := rfl

theorem platform_restart (s : Session B) : s.restart.state.platform = s.state.platform := rfl

/-- **A session keeps its setup and its platform**, whatever is done with it. -/
theorem Reaches.keeps {start s : Session B} (h : Reaches start s) :
    s.setup = start.setup ∧ s.state.platform = start.state.platform := by
  induction h with
  | refl => exact ⟨rfl, rfl⟩
  | run stage sizeOnly _ ih => rwa [setup_runFrom, platform_runFrom]
  | size _ ih => rwa [size_eq, setup_runFrom, platform_runFrom, setup_restart, platform_restart]
  | bringUp d t _ ih => rwa [(bringUp_keeps d _ t).1, (bringUp_keeps d _ t).2]
  | edit state warnings hplatform _ ih => exact ⟨ih.1, hplatform.trans ih.2⟩

/-! ### The promise -/

/-- Asking for the size and bringing up fail alike, or the bring-up reports the size, cut down to
what can be addressed; and the chip selects are the same. -/
structure Agree (p : Platform) (sized : Session B × Except Failure Nat)
    (up : Session B × Completion) : Prop where
  failure : ∀ f, sized.2 = .error f ↔ up.2.failure = some f
  memory : ∀ n, sized.2 = .ok n → up.2.failure = none ∧
    up.2.totalMemory = if p.wideAddressing = false ∧ 2 ^ 32 ≤ n then p.mappedLimit else n
  chipSelects : ∀ c : Fin 3, up.1.state.controllers[c].registers.chipSelects =
    sized.1.state.controllers[c].registers.chipSelects

theorem value_usable (p : Platform) (n : Nat) :
    (BringUp.usable p n).value =
      if p.wideAddressing = false ∧ 2 ^ 32 ≤ n then p.mappedLimit else n := by
  unfold BringUp.usable
  cases hwide : p.wideAddressing with
  | true => simp
  | false =>
      by_cases hn : 2 ^ 32 ≤ n
      · rw [if_pos (by simpa using hn), if_pos ⟨rfl, hn⟩]
      · rw [if_neg (by simpa using hn), if_neg fun h => hn h.2]
        rfl

/-- A sizing run from states that differ in the revisions only fails alike, or ends in states that
differ in the revisions only. -/
theorem runFrom_readImages_of_anonymous {s t : Session B} (hsetup : s.setup = t.setup)
    (hstate : s.state.anonymous = t.state.anonymous) :
    (s.runFrom .readImages true).1.state.anonymous =
        (t.runFrom .readImages true).1.state.anonymous ∧
      ∀ f, (s.runFrom .readImages true).2 = .error f ↔ (t.runFrom .readImages true).2 = .error f := by
  have hs := Stage.runAll_anonymous s.setup s.state Stage.readImages.remaining
  have ht := Stage.runAll_anonymous t.setup t.state Stage.readImages.remaining
  rw [hsetup, hstate, ht, Prod.mk.injEq] at hs
  obtain ⟨hstates, hfailures⟩ := hs
  rw [state_runFrom, state_runFrom, result_runFrom, result_runFrom, hsetup]
  refine ⟨hstates.symm, fun f => ?_⟩
  rw [← hfailures]
  cases (Stage.runAll t.setup true Stage.readImages.remaining t.state).value.2 with
  | some g => simp
  | none => simp

/-- **The registers of a bring-up map what was sized**: the configuration fails like a sizing run
from a state that differs in the revisions only, or it has the same memory and the same chip
selects. -/
theorem configure_of_anonymous {s t : Session B} (hsetup : s.setup = t.setup)
    (hstate : s.state.anonymous = t.state.anonymous) :
    (∀ f, (s.runFrom .readImages true).2 = .error f ↔ t.configure.2 = .error f) ∧
      (∀ n, (s.runFrom .readImages true).2 = .ok n → t.configure.2 = .ok n) ∧
      ∀ c : Fin 3, t.configure.1.state.controllers[c].registers.chipSelects =
        (s.runFrom .readImages true).1.state.controllers[c].registers.chipSelects := by
  obtain ⟨hstates, hfailures⟩ := runFrom_readImages_of_anonymous hsetup hstate
  have hplatform : s.state.anonymous.platform = t.state.anonymous.platform := by rw [hstate]
  rw [State.platform_anonymous, State.platform_anonymous] at hplatform
  obtain ⟨⟨sized, result⟩, hsized⟩ : ∃ ran, s.runFrom .readImages true = ran := ⟨_, rfl⟩
  obtain ⟨⟨sized', result'⟩, hsized'⟩ : ∃ ran, t.runFrom .readImages true = ran := ⟨_, rfl⟩
  rw [hsized, hsized'] at hstates hfailures
  rw [hsized]
  have hselects : ∀ c : Fin 3, sized'.state.controllers[c].registers.chipSelects =
      sized.state.controllers[c].registers.chipSelects :=
    fun c => by rw [State.registers_eq_of_anonymous hstates]
  cases result' with
  | error f =>
      have hfailed : result = .error f := (hfailures f).2 rfl
      rw [configure_of_error hsized']
      refine ⟨hfailures, fun n hn => ?_, hselects⟩
      exact absurd (hfailed.symm.trans hn) (by simp)
  | ok total' =>
      obtain ⟨hconfigured, hok⟩ := configure_of_ok hsized'
      obtain ⟨modules', -, hmodules', -⟩ := state_runFrom_readImages hsized'
      -- the second run computes the chip selects of the first one again
      have hagain : ∀ c : Fin 3, t.configure.1.state.controllers[c].registers.chipSelects =
          sized.state.controllers[c].registers.chipSelects := by
        intro c
        rw [hconfigured, ← hselects c, hmodules', Stage.chipSelects_computed_computed]
      refine ⟨fun f => ?_, fun n hn => ?_, hagain⟩
      · rw [hok]
        exact iff_of_false (fun h => absurd ((hfailures f).1 h) (by simp)) (by simp)
      · obtain rfl : result = .ok n := hn
        obtain ⟨-, -, -, htotal⟩ := state_runFrom_readImages hsized
        rw [hok, htotal, ← hconfigured]
        refine congrArg Except.ok (State.totalMemory_eq_of_chipSelects ?_ fun c _ => hagain c)
        have hsizedPlatform := s.platform_runFrom .readImages true
        rw [hsized] at hsizedPlatform
        exact (t.platform_configure.trans hplatform.symm).trans hsizedPlatform.symm

/-- Two sessions that were made for the same agree. -/
theorem agree_of_keeps {σ : Type} {s t : Session B} (hsetup : s.setup = t.setup)
    (hplatform : s.state.platform = t.state.platform) (d : Device σ) (x : Traced σ) :
    Agree s.state.platform s.size (t.bringUp.run d x).1 := by
  rw [size_eq]
  obtain ⟨events, hyields, -⟩ := yields_run d t.bringUp x
  generalize t.bringUp.run d x = ran at *
  obtain ⟨⟨after, report⟩, trace⟩ := ran
  obtain ⟨reads, state, hreads, -, hafter, hend⟩ := yields_bringUp hyields
  have hstate : s.restart.state.anonymous = state.anonymous := by
    rw [(BringUp.yields_readRevisions hreads).2, ← hplatform]
    rfl
  have hagree := configure_of_anonymous (s := s.restart) (t := { t.restart with state }) hsetup hstate
  have hkept := platform_configure { t.restart with state }
  generalize configure { t.restart with state } = configured at hafter hend hagree hkept
  obtain ⟨configured, result⟩ := configured
  obtain ⟨hfailures, hmemory, hselects⟩ := hagree
  simp only at hafter hkept
  have hafterPlatform : after.state.platform = s.state.platform := by
    rw [hafter, hkept, BringUp.platform_of_readRevisions hreads, hplatform]
    rfl
  have hselected : ∀ c : Fin 3, after.state.controllers[c].registers.chipSelects =
      (s.restart.runFrom .readImages true).1.state.controllers[c].registers.chipSelects := by
    intro c
    rw [hafter]
    exact hselects c
  cases result with
  | error f =>
      obtain ⟨-, hf, -⟩ := hend
      have hfailed := (hfailures f).2 rfl
      refine ⟨fun g => ?_, fun n hn => ?_, hselected⟩
      · rw [hf, hfailures g, Except.error.injEq, Option.some.injEq]
      · exact absurd (hfailed.symm.trans hn) (by simp)
  | ok total =>
      obtain ⟨-, -, -, -, -, -, hnone, htotal⟩ := hend
      refine ⟨fun g => ?_, fun n hn => ?_, hselected⟩
      · rw [hnone, hfailures g]
        simp
      · obtain rfl : total = n := Except.ok.inj (hmemory n hn)
        refine ⟨hnone, ?_⟩
        rw [htotal, value_usable, hafterPlatform]

/-- **The size of the memory and its bring-up agree**, whatever happened before: after any two
histories of a session, asking for the size in the one and bringing up the memory in the other fail
alike, or they agree on the memory and on the chip selects that map it. -/
theorem agree_of_reaches {σ : Type} {start s t : Session B} (hs : Reaches start s)
    (ht : Reaches start t) (d : Device σ) (x : Traced σ) :
    Agree start.state.platform s.size (t.bringUp.run d x).1 := by
  rw [← hs.keeps.2]
  exact agree_of_keeps (hs.keeps.1.trans ht.keeps.1.symm) (hs.keeps.2.trans ht.keeps.2.symm) d x

/-- A controller that was brought up once, and whose module was then placed again. -/
def broughtUp : Session (Option Board) :=
  ((registeredModule.bringUp.run .silent { state := () }).1.1.runFrom .placeModules false).1

set_option maxRecDepth 100000 in
/-- A session that was sized and one that was brought up agree on the memory. -/
theorem agree_broughtUp :
    Reaches registeredModule registeredModule.size.1 ∧ Reaches registeredModule broughtUp ∧
      registeredModule.size.1.size.2 = .ok (2 ^ 28) ∧
      Agree registeredModule.state.platform registeredModule.size.1.size
        (broughtUp.bringUp.run .silent { state := () }).1 := by
  have hs : Reaches registeredModule registeredModule.size.1 := .size .refl
  have ht : Reaches registeredModule broughtUp :=
    .run .placeModules false (.bringUp .silent { state := () } .refl)
  exact ⟨hs, ht, Except.eq_ok_of_toOption (by decide +kernel), agree_of_reaches hs ht .silent _⟩

end Session

end SdramBringup
