/-
**A lone module in either slot.**

A controller with two slots runs with a single module in either of them: there are tables of
terminations for both populations, and addresses and chip selects follow the slot. What else is
decided about the module should not depend on its slot, but every option is taken from the slots by
a rule of its own. The bus width is that of the first module there is, and the bursts follow from it.
Mirrored address lines, devices with four data lines and the row of the board's table are looked for
in the first slot only, so that a module in the second one is taken for one with none of these.

Main definitions:

* `Dimm.alone` — the population of a lone module;
* `Board.rowFor` — the row of a board for a module at a clock;
* `Options.TunedAlike` — **what should not depend on the slot**.

Main results:

* `Options.mirrored_derive`, `Options.x4Devices_derive`, `Options.busWidth_derive`,
  `Options.tuning_derive` — from which module an option is taken, in every population;
* `Options.tunedAlike_derive_iff` — **when the slot does not matter**, and
  `Options.not_tunedAlike_mirrored` for a module for which it does.
-/

import SdramBringup.Proofs.BoardTable
import SdramBringup.Proofs.Options

set_option relaxedAutoImplicit false
set_option autoImplicit false

namespace SdramBringup

/-- The modules of a controller with two slots that has a single module. -/
def Dimm.alone (d : Dimm) (slot : Fin 2) : List Dimm := if slot = 0 then [d, {}] else [{}, d]

/-! ### The row of a board -/

/-- The values that are tuned to a board: the clock adjustment and the levels of write levelling. -/
structure Tuning where
  clockAdjust : Nat := 0
  writeLevelingStart : Nat := 0
  writeLeveling2 : Word := 0
  writeLeveling3 : Word := 0
  deriving DecidableEq, Repr

/-- The values of a row. -/
def BoardEntry.tuning (e : BoardEntry) : Tuning :=
  ⟨e.clockAdjust, e.writeLevelingStart, e.writeLeveling2, e.writeLeveling3⟩

/-- The values in the options. -/
def Options.tuning (o : Options) : Tuning :=
  ⟨o.clockAdjust, o.writeLevelingStart, o.writeLeveling2, o.writeLeveling3⟩

namespace Board

/-- The row of a board for a module at a clock, if there is a board and a row for the module. -/
def rowFor (board : Option Board) (d : Dimm) (clock : Clock) : Option BoardEntry :=
  board.bind fun b => (BoardEntry.lookup b.table d clock.megatransfers).row?

variable (b : Board) (board : Option Board) (o : Options) (dimms : List Dimm) (clock : Clock)
  (ctrl : Nat)

theorem mirrored_apply : (apply board o dimms clock ctrl).value.mirrored = o.mirrored :=
  apply_of_preserved board o dimms clock ctrl (fun _ _ => rfl) fun _ _ => rfl

theorem x4Devices_apply : (apply board o dimms clock ctrl).value.x4Devices = o.x4Devices :=
  apply_of_preserved board o dimms clock ctrl (fun _ _ => rfl) fun _ _ => rfl

/-- The rows of the table do not touch the bus width; the board may. -/
theorem busWidth_apply :
    (apply board o dimms clock ctrl).value.busWidth =
      (board.bind (·.busWidth)).getD o.busWidth := by
  cases board with
  | none => rfl
  | some b =>
      have htune : (b.tune dimms clock ctrl o).value.busWidth = o.busWidth := by
        unfold tune
        split
        · rfl
        · split <;> rfl
      exact congrArg b.busWidth.getD htune

/-- The values come from the row for the module in the first slot, if there is one. -/
theorem tuning_apply :
    (apply board o dimms clock ctrl).value.tuning =
      (((dimms.head?.filter (!·.isEmpty)).bind fun d => rowFor board d clock).map
        BoardEntry.tuning).getD o.tuning := by
  cases board with
  | none => cases dimms.head?.filter (!·.isEmpty) <;> rfl
  | some b =>
      have hfinish : (apply (some b) o dimms clock ctrl).value.tuning =
          (b.tune dimms clock ctrl o).value.tuning := rfl
      rw [hfinish, tune]
      cases hfirst : dimms.head?.filter (!·.isEmpty) with
      | none => rfl
      | some d =>
          cases hrow : BoardEntry.lookup b.table d clock.megatransfers <;>
            simp only [hrow, Option.bind_some, rowFor] <;> rfl

end Board

namespace Options

section Derive

variable (clock : Clock) (common : CommonTiming) (dimms : List Dimm) (ctrl : Nat)
  (platform : Platform) (source : InterleaveSource) (board : Option Board)

/-- The flag for mirrored address lines is that of the module in the first slot. -/
theorem mirrored_derive :
    (derive clock common dimms ctrl platform source board).value.mirrored =
      dimms.head?.any (·.mirrored) :=
  derive_of_preserved clock common dimms ctrl platform source board (fun _ _ _ => rfl)
    fun o => Board.mirrored_apply board o dimms clock ctrl

/-- So is the flag for devices with four data lines. -/
theorem x4Devices_derive :
    (derive clock common dimms ctrl platform source board).value.x4Devices =
      dimms.head?.any (·.deviceWidth == 4) :=
  derive_of_preserved clock common dimms ctrl platform source board (fun _ _ _ => rfl)
    fun o => Board.x4Devices_apply board o dimms clock ctrl

/-- The bus width is that of the board, or else that of the first module there is. -/
theorem busWidth_derive :
    (derive clock common dimms ctrl platform source board).value.busWidth =
      (board.bind (·.busWidth)).getD (busWidthOf dimms).value :=
  derive_of_apply clock common dimms ctrl platform source board (fun _ _ _ => rfl)
    fun o => Board.busWidth_apply board o dimms clock ctrl

/-- The values that are tuned come from the row for the module in the first slot. -/
theorem tuning_derive :
    (derive clock common dimms ctrl platform source board).value.tuning =
      (((dimms.head?.filter (!·.isEmpty)).bind fun d => Board.rowFor board d clock).map
        BoardEntry.tuning).getD {} :=
  derive_of_apply clock common dimms ctrl platform source board (fun _ _ _ => rfl)
    fun o => Board.tuning_apply board o dimms clock ctrl

/-- The bursts follow from the bus width. -/
theorem burst_derive :
    (derive clock common dimms ctrl platform source board).value.burst =
        (if (derive clock common dimms ctrl platform source board).value.busWidth = .bits64 then
          .onTheFly
        else .full) ∧
      (derive clock common dimms ctrl platform source board).value.chopOnTheFly =
        decide ((derive clock common dimms ctrl platform source board).value.busWidth =
          .bits64) := by
  obtain ⟨tuned, htuned⟩ : ∃ o : Options,
      (derive clock common dimms ctrl platform source board).value = o.withBurst := ⟨_, rfl⟩
  rw [htuned, withBurst]
  by_cases hwidth : tuned.busWidth = .bits64 <;> simp [hwidth]

end Derive

/-! ### A lone module -/

/-- Two controllers treat their modules alike in what should not depend on the slot: mirrored address
lines, the width of the devices, the bus width, the bursts, and the values that are tuned to the
board. -/
structure TunedAlike (o o' : Options) : Prop where
  mirrored : o.mirrored = o'.mirrored
  x4Devices : o.x4Devices = o'.x4Devices
  busWidth : o.busWidth = o'.busWidth
  burst : o.burst = o'.burst
  chopOnTheFly : o.chopOnTheFly = o'.chopOnTheFly
  tuning : o.tuning = o'.tuning

/-- The first module there is, is the lone one. -/
theorem busWidthOf_alone {d : Dimm} (h : d.isEmpty = false) (slot : Fin 2) :
    busWidthOf (d.alone slot) = widthOfLines d.dataWidth := by
  have hfind : (d.alone slot).find? (!·.isEmpty) = some d := by
    match slot with
    | 0 => exact List.find?_cons_of_pos (by simp [h])
    | 1 =>
        rw [Dimm.alone, if_neg (by decide), List.find?_cons_of_neg (by decide)]
        exact List.find?_cons_of_pos (by simp [h])
  rw [busWidthOf, hfind]

/-- **When the slot of a lone module does not matter.** The bus width and the bursts are the same from
either slot. All of its treatment is exactly if the module has neither mirrored address lines nor
devices with four data lines, and the board has no values for it other than zero. -/
theorem tunedAlike_derive_iff {d : Dimm} (h : d.isEmpty = false) (clock : Clock)
    (common common' : CommonTiming) (ctrl : Nat) (platform : Platform) (source : InterleaveSource)
    (board : Option Board) :
    let o := (derive clock common (d.alone 0) ctrl platform source board).value
    let o' := (derive clock common' (d.alone 1) ctrl platform source board).value
    (o.busWidth = o'.busWidth ∧ o.burst = o'.burst ∧ o.chopOnTheFly = o'.chopOnTheFly) ∧
      (o.TunedAlike o' ↔
        d.mirrored = false ∧ d.deviceWidth ≠ 4 ∧
          ∀ e, Board.rowFor board d clock = some e → e.tuning = {}) := by
  intro o o'
  have hwidth : o.busWidth = o'.busWidth := by
    rw [busWidth_derive, busWidth_derive, busWidthOf_alone h, busWidthOf_alone h]
  have hbursts : o.burst = o'.burst ∧ o.chopOnTheFly = o'.chopOnTheFly := by
    rw [(burst_derive ..).1, (burst_derive ..).2, (burst_derive ..).1, (burst_derive ..).2]
    exact ⟨by rw [hwidth], by rw [hwidth]⟩
  -- from the first slot the module is looked at, from the second one it is not
  have hmirrored : o.mirrored = d.mirrored ∧ o'.mirrored = false :=
    ⟨mirrored_derive .., mirrored_derive ..⟩
  have hx4 : o.x4Devices = (d.deviceWidth == 4) ∧ o'.x4Devices = false :=
    ⟨x4Devices_derive .., x4Devices_derive ..⟩
  have htuning : o.tuning = ((Board.rowFor board d clock).map BoardEntry.tuning).getD {} ∧
      o'.tuning = {} := by
    refine ⟨(tuning_derive ..).trans ?_, tuning_derive ..⟩
    have hfirst : (d.alone 0).head?.filter (!·.isEmpty) = some d := by
      simp [Dimm.alone, Option.filter, h]
    rw [hfirst]
    rfl
  refine ⟨⟨hwidth, hbursts⟩, ?_⟩
  constructor
  · intro halike
    refine ⟨?_, ?_, ?_⟩
    · rw [← hmirrored.1, halike.mirrored, hmirrored.2]
    · have hne := halike.x4Devices
      rw [hx4.1, hx4.2] at hne
      simpa using hne
    · intro e he
      have heq := halike.tuning
      rwa [htuning.1, htuning.2, he] at heq
  · rintro ⟨hplain, hwide, hrow⟩
    refine ⟨?_, ?_, hwidth, hbursts.1, hbursts.2, ?_⟩
    · rw [hmirrored.1, hmirrored.2, hplain]
    · rw [hx4.1, hx4.2]
      simpa using hwide
    · rw [htuning.1, htuning.2]
      cases hfound : Board.rowFor board d clock with
      | none => rfl
      | some e => exact hrow e hfound

/-- A module with two ranks, whose address lines are mirrored or not. -/
def twoRankModule (mirrored : Bool) : Dimm where
  ranks := 2
  rankSize := 2 ^ 31
  capacity := 2 ^ 32
  primaryWidth := 64
  dataWidth := 64
  deviceWidth := 8
  mirrored := mirrored
  timing := { tAA := 13750 }
  casLatencies := 0x800

/-- A controller with two slots. -/
def twoSlots : Platform := { Platform.singleSlot with slotCount := 2 }

/-- The timing of the controller with a lone module, at 1600 million transfers per second. -/
def loneTiming (d : Dimm) (slot : Fin 2) : Except TimingError CommonTiming :=
  (CommonTiming.reconcile ⟨1600000000⟩ (d.alone slot) twoSlots 0).value

/-- Its options on a board. -/
def loneOptions (d : Dimm) (board : Option Board) (slot : Fin 2) : Options :=
  (derive ⟨1600000000⟩ ((loneTiming d slot).toOption.getD {}) (d.alone slot) 0 twoSlots {}
    board).value

/-- Without a board, a module without mirrored address lines is treated alike in both slots. -/
theorem tunedAlike_plain :
    (twoRankModule false).isEmpty = false ∧
      (loneOptions (twoRankModule false) none 0).TunedAlike
        (loneOptions (twoRankModule false) none 1) := by
  have hmodule : (twoRankModule false).isEmpty = false := rfl
  refine ⟨hmodule, ?_⟩
  exact (tunedAlike_derive_iff hmodule ⟨1600000000⟩ _ _ 0 twoSlots {} none).2.2
    ⟨rfl, by decide, by simp [Board.rowFor]⟩

/-- **In the second slot nothing is known of mirrored address lines**, nor of the values that the
board was measured for, although the timing is the same. -/
theorem not_tunedAlike_mirrored :
    let d := twoRankModule true
    let first := loneOptions d (some Board.reference) 0
    let second := loneOptions d (some Board.reference) 1
    ((loneTiming d 0).isOk ∧ loneTiming d 1 = loneTiming d 0) ∧
      (first.mirrored = true ∧ first.tuning = ⟨4, 7, 0x0808090B, 0x0C0D0E0A⟩) ∧
      (second.mirrored = false ∧ second.tuning = {}) ∧
      ¬first.TunedAlike second := by
  intro d first second
  have htiming : (loneTiming d 0).isOk ∧ loneTiming d 1 = loneTiming d 0 := by decide
  have hfirst : first.mirrored = true ∧ first.tuning = ⟨4, 7, 0x0808090B, 0x0C0D0E0A⟩ := by decide
  have hsecond : second.mirrored = false ∧ second.tuning = {} := by decide
  refine ⟨htiming, hfirst, hsecond, fun halike => ?_⟩
  have hmirrored := halike.mirrored
  rw [hfirst.1, hsecond.1] at hmirrored
  exact absurd hmirrored (by decide)

end Options

end SdramBringup
