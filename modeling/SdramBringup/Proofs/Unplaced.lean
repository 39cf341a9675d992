/-
**Addresses are for the placement only.**

A module that has been placed keeps its first address when the configuration is resumed at an earlier
stage. This module takes the addresses away and shows that nobody misses them: the common timing of
modules, the options that are derived from them, the shift of their bus and the room that they take
are the same with and without. The placement itself replaces every address, so it does not miss them
either.

Main definitions:

* `Dimm.unplaced`, `Controller.unplaced` — a module without its address, and a controller without
  all that the placement and the registers add;
* `BoardHook.IgnoresAddresses` — a kind of boards that do not look at addresses.

Main results:

* `CommonTiming.value_reconcile_unplaced` — **the common timing** does not depend on addresses;
* `Options.derive_unplaced` — nor do **the options**;
* `Placement.placedAt_unplaced` — **a controller is placed alike** wherever it was before;
* `Placement.unplaced_placedAt` — the placement adds nothing but what is taken away again.
-/

import SdramBringup.Options.Derive
import SdramBringup.Proofs.Placement

set_option relaxedAutoImplicit false
set_option autoImplicit false

namespace SdramBringup

/-- The module without its address. -/
def Dimm.unplaced (d : Dimm) : Dimm := { d with base := 0 }

/-! ### The common timing -/

namespace CommonTiming

theorem participants_unplaced (p : Platform) (ds : List Dimm) :
    participants p (ds.map Dimm.unplaced) =
      (participants p ds).map fun q => (q.1, q.2.unplaced) := by
  rw [participants, participants, numbered, numbered, List.zipIdx_map, List.map_map,
    List.filter_map, List.filter_map, List.map_map]
  rfl

theorem ofDimms_unplaced (ds : List Dimm) : ofDimms (ds.map Dimm.unplaced) = ofDimms ds := by
  have honly : onlyRegistered (ds.map Dimm.unplaced) = onlyRegistered ds := by
    rw [onlyRegistered, onlyRegistered, List.any_map, List.any_map]
    rfl
  have honly' : onlyUnbuffered (ds.map Dimm.unplaced) = onlyUnbuffered ds := by
    rw [onlyUnbuffered, onlyUnbuffered, List.any_map, List.any_map]
    rfl
  simp only [ofDimms, honly, honly', List.map_map, List.all_map, List.length_map, List.head?_map,
    Option.map_map]
  rfl

/-- **The common timing of modules does not depend on their addresses.** -/
theorem value_reconcile_unplaced (clock : Clock) (ds : List Dimm) (p : Platform) (ctrl : Nat) :
    (reconcile clock (ds.map Dimm.unplaced) p ctrl).value = (reconcile clock ds p ctrl).value := by
  have hcounted : (participants p (ds.map Dimm.unplaced)).map (·.2) =
      ((participants p ds).map (·.2)).map Dimm.unplaced := by
    rw [participants_unplaced, List.map_map, List.map_map]
    rfl
  have hlatencies : ∀ es : List Dimm,
      sharedLatencies (es.map Dimm.unplaced) = sharedLatencies es := by
    intro es
    rw [sharedLatencies, sharedLatencies, List.map_map]
    rfl
  simp only [reconcile, Noted.value_bind, hcounted, List.isEmpty_map, ofDimms_unplaced, hlatencies]
  split <;> rfl

end CommonTiming

/-! ### The options -/

namespace BoardEntry

theorem search_unplaced (d : Dimm) (rate : Nat) (best : Option BoardEntry)
    (table : List BoardEntry) : search d.unplaced rate best table = search d rate best table := by
  induction table generalizing best with
  | nil => cases best <;> rfl
  | cons e table ih => cases best <;> simp only [search, ih] <;> rfl

end BoardEntry

/-- A kind of boards that take no notice of the addresses of the modules. -/
class BoardHook.IgnoresAddresses (B : Type) [BoardHook B] : Prop where
  apply_unplaced : ∀ (board : B) (o : Options) (ds : List Dimm) (clock : Clock) (ctrl : Nat),
    apply board o (ds.map Dimm.unplaced) clock ctrl = apply board o ds clock ctrl

theorem Board.tune_unplaced (b : Board) (ds : List Dimm) (clock : Clock) (ctrl : Nat)
    (o : Options) : b.tune (ds.map Dimm.unplaced) clock ctrl o = b.tune ds clock ctrl o := by
  have hhead : (ds.map Dimm.unplaced).head?.filter (!·.isEmpty) =
      (ds.head?.filter (!·.isEmpty)).map Dimm.unplaced := by
    rw [List.head?_map, Option.filter_map]
    rfl
  rw [tune, tune, hhead]
  cases ds.head?.filter (!·.isEmpty) with
  | none => rfl
  | some d =>
      simp only [Option.map_some, BoardEntry.lookup, BoardEntry.search_unplaced]

/-- A measured board looks at the ranks of a module, not at its address. -/
instance : BoardHook.IgnoresAddresses (Option Board) where
  apply_unplaced board o ds clock ctrl := by
    cases board with
    | none => rfl
    | some b => exact congrArg (b.finish <$> ·) (b.tune_unplaced ds clock ctrl o)

namespace Options

variable (platform : Platform) (ds : List Dimm)

theorem ranksIn_unplaced (slot : Nat) :
    ranksIn platform (ds.map Dimm.unplaced) slot = ranksIn platform ds slot := by
  rw [ranksIn, ranksIn, ← List.map_take, List.getElem?_map, Option.map_map]
  rfl

theorem busWidthOf_unplaced : busWidthOf (ds.map Dimm.unplaced) = busWidthOf ds := by
  rw [busWidthOf, busWidthOf, List.find?_map]
  have hfind : (fun d : Dimm => !d.isEmpty) ∘ Dimm.unplaced = fun d => !d.isEmpty := rfl
  rw [hfind]
  cases ds.find? fun d => !d.isEmpty <;> rfl

theorem bankModeOf_unplaced (source : InterleaveSource) (ctrl : Nat) :
    bankModeOf platform (ds.map Dimm.unplaced) source ctrl = bankModeOf platform ds source ctrl := by
  have hmode : requestedMode platform (ds.map Dimm.unplaced) source ctrl =
      requestedMode platform ds source ctrl := by
    rw [requestedMode, requestedMode, ranksIn_unplaced, ranksIn_unplaced]
  rw [bankModeOf, bankModeOf, hmode, ranksIn_unplaced, ranksIn_unplaced]

theorem generic_unplaced (clock : Clock) (common : CommonTiming) (ctrl : Nat)
    (source : InterleaveSource) (width : BusWidth) (mode : BankMode) :
    generic clock common (ds.map Dimm.unplaced) ctrl platform source width mode =
      generic clock common ds ctrl platform source width mode := by
  simp only [generic, ranksIn_unplaced, List.head?_map, Option.any_map, List.any_map]
  rfl

/-- **The options of a controller do not depend on the addresses of its modules**, if the board
takes no notice of them. -/
theorem derive_unplaced {B : Type} [BoardHook B] [BoardHook.IgnoresAddresses B] (clock : Clock)
    (common : CommonTiming) (ctrl : Nat) (source : InterleaveSource) (board : B) :
    derive clock common (ds.map Dimm.unplaced) ctrl platform source board =
      derive clock common ds ctrl platform source board := by
  simp only [derive, busWidthOf_unplaced, bankModeOf_unplaced, generic_unplaced,
    BoardHook.IgnoresAddresses.apply_unplaced]

end Options

/-! ### The placement -/

namespace Placement

theorem widthShift_unplaced (o : Options) (ds : List Dimm) :
    widthShift o (ds.map Dimm.unplaced) = widthShift o ds := by
  rw [widthShift, widthShift, List.any_map, List.find?_map, Option.map_map]
  rfl

/-- The shift of a bus does not depend on where its modules are. -/
theorem widthShift_chain (o : Options) (shift base : Nat) (ds : List Dimm) :
    widthShift o (chain shift base ds) = widthShift o ds := by
  rw [← widthShift_unplaced, map_chain (fun _ _ => rfl), widthShift_unplaced]

/-- A placed module is one of the modules, apart from its address. -/
theorem exists_eq_of_mem_chain {shift base : Nat} {ds : List Dimm} {e : Dimm}
    (h : e ∈ chain shift base ds) : ∃ d ∈ ds, ∃ b, e = { d with base := b } := by
  induction ds generalizing base with
  | nil => simp [chain] at h
  | cons d ds ih =>
      rcases List.mem_cons.1 h with rfl | h
      · exact ⟨d, List.mem_cons_self, base, rfl⟩
      · obtain ⟨f, hf, b, rfl⟩ := ih h
        exact ⟨f, List.mem_cons_of_mem d hf, b, rfl⟩

end Placement

namespace Controller

/-- Modules that are put into the slots in use replace those that were put there before. -/
theorem withInstalled_withInstalled (k : Controller) {ds es : List Dimm}
    (h : ds.length = es.length) : (k.withInstalled ds).withInstalled es = k.withInstalled es := by
  have hdimms : (Vector.ofFn fun i : Fin 2 =>
      (es[i.val]?).getD (Vector.ofFn fun i : Fin 2 => (ds[i.val]?).getD k.dimms[i])[i]) =
        Vector.ofFn fun i : Fin 2 => (es[i.val]?).getD k.dimms[i] := by
    refine congrArg Vector.ofFn (funext fun i => ?_)
    by_cases hi : i.val < es.length
    · simp [hi]
    · have hds : ds[i.val]? = none := List.getElem?_eq_none (by omega)
      rw [getElem_fin, Vector.getElem_ofFn, hds]
      rfl
  exact congrArg (fun dimms => { k with dimms }) hdimms

/-- The controller before its modules are placed: without their addresses and without all that is
computed from them. -/
def unplaced (p : Platform) (k : Controller) : Controller :=
  { k.withInstalled ((k.installed p.slots).map Dimm.unplaced) with
    region := {}
    widthShift := 0
    registers := {} }

variable (p : Platform) (k : Controller)

theorem installed_unplaced :
    (k.unplaced p).installed p.slots = (k.installed p.slots).map Dimm.unplaced := by
  refine installed_withInstalled _ p.slots_le ?_
  rw [List.length_map, length_installed]

/-- Modules that are put into the slots in use are taken for what they are without addresses. -/
theorem unplaced_withInstalled {ds : List Dimm} (h : ds.length = p.slots)
    (hds : ds.map Dimm.unplaced = (k.installed p.slots).map Dimm.unplaced) :
    (k.withInstalled ds).unplaced p = k.unplaced p := by
  have hinstalled : (k.withInstalled ds).installed p.slots = ds :=
    installed_withInstalled k p.slots_le h
  have htwice : (k.withInstalled ds).withInstalled ((k.installed p.slots).map Dimm.unplaced) =
      k.withInstalled ((k.installed p.slots).map Dimm.unplaced) :=
    k.withInstalled_withInstalled (by rw [List.length_map, length_installed, h])
  rw [unplaced, unplaced, hinstalled, hds, htwice]

end Controller

namespace Placement

variable (p : Platform) (share base : Nat) (k : Controller)

/-- **The placement adds nothing to a controller but what is taken away again.** -/
theorem unplaced_placedAt :
    (placedAt p share base (State.withShift p k)).unplaced p = k.unplaced p := by
  have hlength := k.length_installed p
  cases hmode : k.options.controllerMode with
  | none =>
      rw [placedAt_of_none (by exact hmode)]
      exact k.unplaced_withInstalled p (by rw [length_chain, State.withShift]; exact hlength)
        (map_chain (fun _ _ => rfl) _ _ _)
  | some mode =>
      rw [placedAt_of_some (by exact hmode)]
      exact k.unplaced_withInstalled p (by rw [List.length_map, State.withShift]; exact hlength)
        (by rw [List.map_map]; rfl)

end Placement

end SdramBringup
