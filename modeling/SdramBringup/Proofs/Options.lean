/-
**What the options of a controller depend on.**

The options are gathered from several sources, and the board changes some of them afterwards. Two of
them decide where the modules are: how the controller is interleaved, and how its chip selects are. A
measured board leaves both alone. This module reads them back from the gathered options.

Main results:

* `Options.controllerMode_derive` — the mode of a controller does not depend on its modules;
* `Options.supported_bankMode_derive` — **the ranks admit the interleaving that is used**.
-/

import SdramBringup.Options.Derive

set_option relaxedAutoImplicit false
set_option autoImplicit false

namespace SdramBringup

/-! ### What a board leaves alone -/

namespace Board

variable (b : Board) (board : Option Board) (o : Options) (dimms : List Dimm) (clock : Clock)
  (ctrl : Nat)

/-- What no row of the table and no tuning of the board changes is left alone by the board. -/
theorem apply_of_preserved {α : Type} {f : Options → α} (hentry : ∀ e o, f (withEntry e o) = f o)
    (hfinish : ∀ (b : Board) o, f (b.finish o) = f o) :
    f (apply board o dimms clock ctrl).value = f o := by
  cases board with
  | none => rfl
  | some b =>
      have htune : f (b.tune dimms clock ctrl o).value = f o := by
        unfold tune
        split
        · rfl
        · split
          · exact hentry _ o
          · exact hentry _ o
          · rfl
      exact (hfinish b _).trans htune

theorem controllerMode_apply :
    (apply board o dimms clock ctrl).value.controllerMode = o.controllerMode :=
  apply_of_preserved board o dimms clock ctrl (fun _ _ => rfl) fun _ _ => rfl

theorem bankMode_apply : (apply board o dimms clock ctrl).value.bankMode = o.bankMode :=
  apply_of_preserved board o dimms clock ctrl (fun _ _ => rfl) fun _ _ => rfl

end Board

/-! ### The gathered options -/

namespace Options

/-- What the bursts do not touch is the same before and after they are chosen. -/
theorem withBurst_of_preserved {α : Type} {f : Options → α}
    (h : ∀ o burst chop, f { o with burst := burst, chopOnTheFly := chop } = f o) (o : Options) :
    f o.withBurst = f o := by
  unfold withBurst
  split
  · exact h o .onTheFly true
  · exact h o .full false

section Derive

variable (clock : Clock) (common : CommonTiming) (dimms : List Dimm) (ctrl : Nat)
  (platform : Platform) (source : InterleaveSource) (board : Option Board)

/-- What the choice of bursts does not change is what the board makes of what was gathered. -/
theorem derive_of_apply {α : Type} {f : Options → α} {g : α → α}
    (hburst : ∀ o burst chop, f { o with burst := burst, chopOnTheFly := chop } = f o)
    (hboard : ∀ o, f (Board.apply board o dimms clock ctrl).value = g (f o)) :
    f (derive clock common dimms ctrl platform source board).value =
      g (f (generic clock common dimms ctrl platform source (busWidthOf dimms).value
        (bankModeOf platform dimms source ctrl).value)) := by
  have hderive : (derive clock common dimms ctrl platform source board).value =
      (Board.apply board (generic clock common dimms ctrl platform source (busWidthOf dimms).value
        (bankModeOf platform dimms source ctrl).value).withBurst dimms clock ctrl).value.withBurst :=
    rfl
  rw [hderive, withBurst_of_preserved hburst, hboard, withBurst_of_preserved hburst]

/-- What neither the board nor the choice of bursts changes is what was gathered. -/
theorem derive_of_preserved {α : Type} {f : Options → α}
    (hburst : ∀ o burst chop, f { o with burst := burst, chopOnTheFly := chop } = f o)
    (hboard : ∀ o, f (Board.apply board o dimms clock ctrl).value = f o) :
    f (derive clock common dimms ctrl platform source board).value =
      f (generic clock common dimms ctrl platform source (busWidthOf dimms).value
        (bankModeOf platform dimms source ctrl).value) :=
  derive_of_apply clock common dimms ctrl platform source board (g := id) hburst hboard

/-- **The mode of a controller** is what is asked for, if there is another controller. -/
theorem controllerMode_derive :
    (derive clock common dimms ctrl platform source board).value.controllerMode =
      if 1 < platform.controllers then source.controller ctrl else none :=
  derive_of_preserved clock common dimms ctrl platform source board (fun _ _ _ => rfl)
    fun o => Board.controllerMode_apply board o dimms clock ctrl

theorem bankMode_derive :
    (derive clock common dimms ctrl platform source board).value.bankMode =
      (bankModeOf platform dimms source ctrl).value :=
  derive_of_preserved clock common dimms ctrl platform source board (fun _ _ _ => rfl)
    fun o => Board.bankMode_apply board o dimms clock ctrl

/-- **The ranks admit the interleaving of the chip selects**, whatever was asked for. -/
theorem supported_bankMode_derive :
    (derive clock common dimms ctrl platform source board).value.bankMode.supported platform.slots
      (ranksIn platform dimms 0) (ranksIn platform dimms 1) platform.firstSlotQuadCapable =
        true := by
  rw [bankMode_derive, bankModeOf]
  split
  case isTrue h => exact h
  case isFalse h => rfl

end Derive

end Options

end SdramBringup
