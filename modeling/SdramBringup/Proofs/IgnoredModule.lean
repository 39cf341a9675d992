/-
**When an ignored module is really ignored.**

A module with four ranks that does not fit its slot is ignored where the timing of its controller is
reconciled, and nowhere else: options, addresses and chip selects follow from the modules in the
slots once more. So the configuration is the one for an empty slot only if none of these stages has
anything to see of the module. This module says when that is.

Main definitions:

* `State.emptied` — the state with one slot emptied;
* `Disregarded` — the configuration is the one for the empty slot;
* `Inert` — no stage sees anything of the module.

Main results:

* `Stage.common_prepared_emptied` — the timing does not see an ignored module;
* `disregarded_iff_inert` — **a module is disregarded exactly when it is inert**.
-/

import SdramBringup.Proofs.Alike
import SdramBringup.Proofs.Configured

set_option relaxedAutoImplicit false
set_option autoImplicit false

namespace SdramBringup

variable {B : Type} [BoardHook B]

/-! ### A slot emptied -/

/-- The controller with one slot emptied. -/
def Controller.emptied (k : Controller) (j : Fin 2) : Controller := k.withDimm j {}

theorem Controller.installed_emptied (k : Controller) (j : Fin 2) (slots : Nat) :
    (k.emptied j).installed slots = (k.installed slots).set j {} := by
  rw [installed, installed, emptied, withDimm, Vector.toList_set, List.take_set]

theorem Controller.dimms_emptied_self (k : Controller) (j : Fin 2) :
    (k.emptied j).dimms[j] = {} := Vector.getElem_set_self j.isLt

namespace Platform

variable {p : Platform}

/-- Modules are ignored for their ranks only where two slots share the chip selects. -/
theorem slots_of_ignoresQuadRank {j : Fin 2} {d : Dimm} (hj : j.val < p.slots)
    (h : p.ignoresQuadRank j d = true) : p.slots = 2 := by
  rcases p.slots_eq with hone | htwo
  · have hzero : j.val = 0 := by omega
    simp [ignoresQuadRank, chipSelectsPerSlot, hone, hzero] at h
  · exact htwo

theorem ranks_of_ignoresQuadRank {j : Nat} {d : Dimm} (h : p.ignoresQuadRank j d = true) :
    d.ranks = 4 := by
  simp only [ignoresQuadRank, Dimm.isQuadRank, Bool.and_eq_true, beq_iff_eq] at h
  exact h.1

theorem takesPart_of_ignoresQuadRank {j : Nat} {d : Dimm} (h : p.ignoresQuadRank j d = true) :
    p.takesPart j d = false := by
  simp [takesPart, h]

theorem takesPart_empty (j : Nat) : p.takesPart j {} = false := rfl

end Platform

namespace CommonTiming

/-- Modules that do not count may be exchanged for each other. -/
theorem participants_set {p : Platform} {d₀ d₁ e : Dimm} {j : Fin 2}
    (hd : p.takesPart j ([d₀, d₁].get j) = false) (he : p.takesPart j e = false) :
    participants p ([d₀, d₁].set j e) = participants p [d₀, d₁] := by
  match j with
  | 0 =>
      have hd : p.takesPart 0 d₀ = false := hd
      have he : p.takesPart 0 e = false := he
      simp [participants, numbered, hd, he]
  | 1 =>
      have hd : p.takesPart 1 d₁ = false := hd
      have he : p.takesPart 1 e = false := he
      simp [participants, numbered, List.filter_cons, hd, he]

/-- A module that is ignored may as well not be there. -/
theorem participants_emptied {p : Platform} {k : Controller} {j : Fin 2} (hj : j.val < p.slots)
    (h : p.ignoresQuadRank j k.dimms[j] = true) :
    participants p ((k.emptied j).installed p.slots) = participants p (k.installed p.slots) := by
  rw [Controller.installed_emptied, Platform.slots_of_ignoresQuadRank hj h,
    Controller.installed_two]
  refine participants_set ?_ (Platform.takesPart_empty j)
  rw [← Platform.takesPart_of_ignoresQuadRank h]
  match j with
  | 0 => rfl
  | 1 => rfl

/-- The common timing is that of the modules that count. -/
theorem value_reconcile_congr {clock : Clock} {ds es : List Dimm} {p : Platform} {ctrl : Nat}
    (h : participants p ds = participants p es) :
    (reconcile clock ds p ctrl).value = (reconcile clock es p ctrl).value := by
  simp only [reconcile, Noted.value_bind, h]

end CommonTiming

namespace State

/-- The state with one slot emptied. -/
def emptied (s : State) (c : Fin 3) (j : Fin 2) : State := s.put c (s.controllers[c].emptied j)

@[simp] theorem platform_emptied (s : State) (c : Fin 3) (j : Fin 2) :
    (s.emptied c j).platform = s.platform := rfl

theorem controllers_emptied_self (s : State) (c : Fin 3) (j : Fin 2) :
    (s.emptied c j).controllers[c] = s.controllers[c].emptied j := controllers_put_self s c _

theorem controllers_emptied_of_ne (s : State) {c d : Fin 3} (h : c ≠ d) (j : Fin 2) :
    (s.emptied c j).controllers[d] = s.controllers[d] := controllers_put_of_ne s h _

end State

/-! ### The timing without the module -/

namespace Stage

variable (setup : Setup B)

section Emptied

variable {s : State} {c : Fin 3} {j : Fin 2} (hj : j.val < s.platform.slots)
  (hd : s.platform.ignoresQuadRank j s.controllers[c].dimms[j] = true)
include hj hd

/-- **The common timing does not see an ignored module.** -/
theorem common_prepared_emptied (hc : c ∈ s.platform.controllerList) :
    (prepared setup (s.emptied c j)).controllers[c].common =
      (prepared setup s).controllers[c].common := by
  rw [common_prepared setup hc, common_prepared setup (s := s.emptied c j) hc,
    State.platform_emptied, State.controllers_emptied_self, commonOf, commonOf,
    CommonTiming.value_reconcile_congr (CommonTiming.participants_emptied hj hd)]

end Emptied

theorem controllers_prepared_emptied_of_ne (s : State) {c d : Fin 3} (h : c ≠ d) (j : Fin 2) :
    (prepared setup (s.emptied c j)).controllers[d] = (prepared setup s).controllers[d] :=
  controllers_prepared_congr setup (s.platform_emptied c j) (s.controllers_emptied_of_ne h j)

end Stage

/-! ### Ignored modules -/

/-- **A module is as good as not there** when its controller is left out, its options are those of
the controller without the module, the check of the interleaving comes to the same result, and the
module takes no room. -/
structure Inert (setup : Setup B) (s : State) (c : Fin 3) (j : Fin 2) : Prop where
  leftOut : (Stage.prepared setup s).controllers[c].common.dimmCount = 0
  options : (Stage.prepared setup (s.emptied c j)).controllers[c].options =
    (Stage.prepared setup s).controllers[c].options
  gate : (Stage.prepared setup (s.emptied c j)).interleavingSound =
    (Stage.prepared setup s).interleavingSound
  room : State.SameRoom c (Stage.prepared setup s).checkInterleaving.value
    (Stage.prepared setup (s.emptied c j)).checkInterleaving.value

/-- **A module is disregarded** when the configuration is the one for an empty slot, and none of the
chip selects of its slot is enabled. -/
structure Disregarded (setup : Setup B) (sizeOnly : Bool) (s : State) (c : Fin 3) (j : Fin 2) :
    Prop where
  outcome : SameOutcome (Stage.configured setup sizeOnly s)
    (Stage.configured setup sizeOnly (s.emptied c j))
  disabled : ∀ cs : Fin 4, cs.val / s.platform.chipSelectsPerSlot = j.val →
    ((Stage.configured setup sizeOnly s).controllers[c].registers.chipSelects[cs]).enabled = false

section Ignored

variable {setup : Setup B} {s : State} {c : Fin 3} {j : Fin 2}

/-- The checked states with and without the module are alike. -/
theorem agreeExcept_emptied
    (hoptions : (Stage.prepared setup (s.emptied c j)).controllers[c].options =
      (Stage.prepared setup s).controllers[c].options)
    (hgate : (Stage.prepared setup (s.emptied c j)).interleavingSound =
      (Stage.prepared setup s).interleavingSound) :
    State.AgreeExcept c (Stage.prepared setup s).checkInterleaving.value
      (Stage.prepared setup (s.emptied c j)).checkInterleaving.value := by
  refine State.AgreeExcept.checkInterleaving ⟨?_, ?_, hoptions⟩ hgate
  · rw [Stage.platform_prepared, Stage.platform_prepared, State.platform_emptied]
  · exact fun d hne => Stage.controllers_prepared_emptied_of_ne setup s hne j

section InUse

variable (hc : c ∈ s.platform.controllerList) (hj : j.val < s.platform.slots)
  (hd : s.platform.ignoresQuadRank j s.controllers[c].dimms[j] = true)
include hc hj hd

/-- **A module that is as good as not there is really ignored.** -/
theorem Inert.sameOutcome (h : Inert setup s c j) (sizeOnly : Bool) :
    SameOutcome (Stage.configured setup sizeOnly s)
      (Stage.configured setup sizeOnly (s.emptied c j)) := by
  have hagree := agreeExcept_emptied h.options h.gate
  have hroom := h.room
  have huse := Stage.mem_controllerList_checked setup hc
  have hslots : (Stage.prepared setup s).checkInterleaving.value.platform.slots = 2 := by
    rw [State.platform_checkInterleaving, Stage.platform_prepared]
    exact Platform.slots_of_ignoresQuadRank hj hd
  have hout := State.common_checkInterleaving (Stage.prepared setup s) c
  have hout' := State.common_checkInterleaving (Stage.prepared setup (s.emptied c j)) c
  have hcommon := Stage.common_prepared_emptied setup hj hd hc
  have hcount := h.leftOut
  have hfirst := State.mode_eq_none_of_first (Stage.prepared setup s)
  rw [Stage.configured_eq, Stage.configured_eq, Stage.arranged, Stage.arranged]
  -- from here on only the facts above are used of the checked states
  generalize (Stage.prepared setup s).checkInterleaving.value = u at *
  generalize (Stage.prepared setup (s.emptied c j)).checkInterleaving.value = v at *
  refine hagree.sameOutcome hroom hfirst hslots huse ?_ ?_
  · rw [hout, hcount]
  · rw [hout', hcommon, hcount]

/-- The first chip select of a slot is enabled in the one configuration and not in the other unless
the controller is left out. -/
theorem leftOut_of_sameOutcome {sizeOnly : Bool}
    (h : SameOutcome (Stage.configured setup sizeOnly s)
      (Stage.configured setup sizeOnly (s.emptied c j))) :
    (Stage.prepared setup s).controllers[c].common.dimmCount = 0 := by
  have hslots := Platform.slots_of_ignoresQuadRank hj hd
  have hregisters := h.registers c (by rwa [Stage.platform_configured])
  obtain ⟨cs, hcs⟩ : ∃ cs : Fin 4, cs.val = 2 * j.val := ⟨⟨2 * j.val, by omega⟩, rfl⟩
  have hper : s.platform.chipSelectsPerSlot = 2 := by rw [Platform.chipSelectsPerSlot, hslots]
  have hslot : cs.val / 2 = j.val := by omega
  have hrank : cs.val % 2 = 0 := by omega
  by_contra hcount
  -- with the module the chip select is enabled, without it there is no rank to select
  have hthere := (Stage.enabled_configured setup sizeOnly hc cs).2 ⟨hcount, by
    rw [hper, hslot, hrank, State.installed, Controller.getD_installed _ hj,
      Platform.ranks_of_ignoresQuadRank hd]
    decide⟩
  rw [← hregisters] at hthere
  have hgone := ((Stage.enabled_configured setup sizeOnly (s := s.emptied c j) hc cs).1 hthere).2
  rw [State.platform_emptied, hper, hslot, hrank, State.installed, State.platform_emptied,
    Controller.getD_installed _ hj, State.controllers_emptied_self, Controller.dimms_emptied_self]
    at hgone
  exact absurd hgone (by decide)

/-- **A module that is really ignored is as good as not there.** -/
theorem Inert.of_sameOutcome {setup : Setup (Option Board)} {sizeOnly : Bool}
    (h : SameOutcome (Stage.configured setup sizeOnly s)
      (Stage.configured setup sizeOnly (s.emptied c j))) : Inert setup s c j := by
  have hplatform : (Stage.prepared setup (s.emptied c j)).platform =
      (Stage.prepared setup s).platform := by
    rw [Stage.platform_prepared, Stage.platform_prepared, State.platform_emptied]
  have hmode : ∀ d ∈ (Stage.prepared setup s).platform.controllerList,
      (Stage.prepared setup (s.emptied c j)).controllers[d].options.controllerMode =
        (Stage.prepared setup s).controllers[d].options.controllerMode := by
    intro d hd
    rw [Stage.platform_prepared] at hd
    rw [Stage.controllerMode_prepared setup hd, Stage.controllerMode_prepared setup
      (s := s.emptied c j) hd, State.platform_emptied]
  have hoptions : ∀ d ∈ (Stage.prepared setup s).platform.controllerList,
      (Stage.prepared setup (s.emptied c j)).checkInterleaving.value.controllers[d].options =
        (Stage.prepared setup s).checkInterleaving.value.controllers[d].options := by
    intro d hd
    rw [Stage.platform_prepared] at hd
    rw [← Stage.options_configured setup sizeOnly hd,
      ← Stage.options_configured setup sizeOnly (s := s.emptied c j) hd]
    exact h.options d (by rwa [Stage.platform_configured])
  -- what is asked for does not depend on the modules, so the options tell how the checks ended
  have hgate := State.interleavingSound_eq_of_options hplatform hmode hoptions
  have huse : c ∈ (Stage.prepared setup s).platform.controllerList := by
    rwa [Stage.platform_prepared]
  have hsame := State.options_eq_of_checkInterleaving hplatform hgate (hmode c huse)
    (hoptions c huse)
  have hagree := agreeExcept_emptied hsame hgate
  have hslots : (Stage.prepared setup s).checkInterleaving.value.platform.slots = 2 := by
    rw [State.platform_checkInterleaving, Stage.platform_prepared]
    exact Platform.slots_of_ignoresQuadRank hj hd
  have hchecked := Stage.mem_controllerList_checked setup hc
  have hin : c ∈ (Stage.configured setup sizeOnly s).platform.controllerList := by
    rw [Stage.platform_configured]
    exact hc
  have hregion := h.regions c hin
  have hbases := h.bases c hin
  rw [Stage.region_configured, Stage.region_configured, Stage.arranged, Stage.arranged] at hregion
  rw [Stage.installed_configured, Stage.installed_configured, Stage.arranged, Stage.arranged]
    at hbases
  refine ⟨leftOut_of_sameOutcome hc hj hd h, hsame, hgate, ?_⟩
  generalize (Stage.prepared setup s).checkInterleaving.value = u at *
  generalize (Stage.prepared setup (s.emptied c j)).checkInterleaving.value = v at *
  exact hagree.sameRoom_of_placing hslots hchecked hregion hbases

/-- **A module is disregarded exactly when it is inert.** The configuration is the one for the empty
slot, and no chip select of the module is enabled, if and only if the controller is left out and the
module is neither seen in the options, nor by the check of the interleaving, nor in the room of the
controller. -/
theorem disregarded_iff_inert {setup : Setup (Option Board)} (sizeOnly : Bool) :
    Disregarded setup sizeOnly s c j ↔ Inert setup s c j := by
  constructor
  · intro h
    exact Inert.of_sameOutcome hc hj hd h.outcome
  · intro h
    refine ⟨h.sameOutcome hc hj hd sizeOnly, fun cs _ => ?_⟩
    refine Bool.eq_false_iff.2 fun henabled => ?_
    exact ((Stage.enabled_configured setup sizeOnly hc cs).1 henabled).1 h.leftOut

end InUse

end Ignored

/-- A module with the given number of ranks of 256 MiB that runs at the given CAS latencies. -/
def plainModule (ranks : Nat) (latencies : BitVec 32) : Dimm :=
  { ranks, rankSize := 2 ^ 28, capacity := ranks * 2 ^ 28, casLatencies := latencies }

/-- Two controllers with two slots each. -/
def twoByTwo (d₀ d₁ e₀ e₁ : Dimm) : State where
  platform := { Platform.singleSlot with controllerCount := 2, slotCount := 2 }
  controllers := #v[{ dimms := #v[d₀, d₁] }, { dimms := #v[e₀, e₁] }, {}]

/-- A group whose second controller has no common CAS latency. -/
def secondLeftOut : State :=
  twoByTwo (plainModule 4 (BitVec.allOnes 32)) {} (plainModule 4 0) (plainModule 4 0)

/-- A module with four ranks beside one that works. -/
def besideOne : State := twoByTwo (plainModule 1 (BitVec.allOnes 32)) (plainModule 4 0) {} {}

/-- Interleaving of the controllers by pages. -/
def Setup.paged : Setup (Option Board) :=
  { Setup.bare 1600000000 with interleave := .uniform (some .page) none false }

set_option maxRecDepth 100000 in
/-- Behind the first controller of a group, a module of a controller that is left out takes no room
of its own. -/
theorem disregarded_secondLeftOut :
    1 ∈ secondLeftOut.platform.controllerList ∧ (1 : Fin 2).val < secondLeftOut.platform.slots ∧
      secondLeftOut.platform.ignoresQuadRank 1
        secondLeftOut.controllers[(1 : Fin 3)].dimms[(1 : Fin 2)] = true ∧
      Disregarded .paged false secondLeftOut 1 1 := by
  have hinert : Inert .paged secondLeftOut 1 1 :=
    ⟨by decide +kernel, by decide +kernel, by decide +kernel, by decide +kernel, by decide +kernel⟩
  exact ⟨by decide, by decide, by decide,
    (disregarded_iff_inert (by decide) (by decide) (by decide) false).2 hinert⟩

set_option maxRecDepth 100000 in
/-- Beside a module that works, a module with four ranks is ignored and yet mapped. -/
theorem not_disregarded_besideOne :
    0 ∈ besideOne.platform.controllerList ∧ (1 : Fin 2).val < besideOne.platform.slots ∧
      besideOne.platform.ignoresQuadRank 1
        besideOne.controllers[(0 : Fin 3)].dimms[(1 : Fin 2)] = true ∧
      ¬Disregarded (.bare 1600000000) false besideOne 0 1 ∧
      (Stage.configured (.bare 1600000000) false besideOne).totalMemory = 3 * 2 ^ 28 ∧
      (Stage.configured (.bare 1600000000) false (besideOne.emptied 0 1)).totalMemory = 2 ^ 28 := by
  refine ⟨by decide, by decide, by decide, fun h => ?_, by decide +kernel, by decide +kernel⟩
  exact absurd h.outcome.totalMemory (by decide +kernel)

end SdramBringup