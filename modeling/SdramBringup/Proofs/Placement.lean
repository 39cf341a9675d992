/-
**Where the placement puts modules and controllers.**

The placement visits the controllers in order and hands each of them the next free range, or the
range of the interleaved group. This module follows it: what one visit does to a controller and to
the cursors, what a whole run leaves behind, and that nothing but addresses is ever changed.

Main definitions:

* `Dimm.rankRegions` — the ranges of the ranks of a module;
* `Placement.placedAt` — a controller at an address, on its own or in the group;
* `Placement.layout` — the ranges of all controllers, by what they ask for;
* `State.placing` — the placement of all controllers, with its cursors.

Main results:

* `Dimm.tiles_rankRegions` — the ranks of a module tile its room;
* `Placement.tiles_chain` — **modules one after another** tile the range of their controller;
* `Placing.controllers_foldl_next` — a run puts every controller somewhere and changes no other part
  of it;
* `Placing.map_region_foldl_next` — **the ranges that a run hands out** are those of the layout;
* `State.tiles_placing` — controllers without interleaving tile the memory;
* `State.mode_eq_none_of_first`, `State.assignAddresses_of_first` — after the check, the placement
  is one run whether or not there is a group.
-/

import SdramBringup.Placement
import SdramBringup.Proofs.Controllers
import SdramBringup.Proofs.Region

set_option relaxedAutoImplicit false
set_option autoImplicit false

namespace SdramBringup

/-! ### The ranks of a module -/

/-- The ranges of the ranks of a module, one after another. -/
def Dimm.rankRegions (shift : Nat) (d : Dimm) : List Region :=
  (List.range d.ranks).map fun r => ⟨d.base + r * (d.rankSize / 2 ^ shift), d.rankSize / 2 ^ shift⟩

/-- The room of a module is that of its ranks, if nothing is lost to the bus. -/
theorem Dimm.room_eq {shift : Nat} {d : Dimm} (hcapacity : d.capacity = d.ranks * d.rankSize)
    (hshift : d.isEmpty = false → 2 ^ shift ∣ d.rankSize) :
    Placement.room shift d = d.ranks * (d.rankSize / 2 ^ shift) := by
  rw [Placement.room, hcapacity]
  cases hempty : d.isEmpty with
  | true =>
      have hranks : d.ranks = 0 := by simpa [isEmpty] using hempty
      simp [hranks]
  | false => exact Nat.mul_div_assoc d.ranks (hshift hempty)

/-- **The ranks of a module tile the room of the module**, if nothing is lost to the bus. -/
theorem Dimm.tiles_rankRegions {shift : Nat} {d : Dimm}
    (hcapacity : d.capacity = d.ranks * d.rankSize)
    (hshift : d.isEmpty = false → 2 ^ shift ∣ d.rankSize) :
    Region.Tiles d.base (d.rankRegions shift) (d.base + Placement.room shift d) := by
  rw [room_eq hcapacity hshift]
  exact Region.tiles_map_range d.base (d.rankSize / 2 ^ shift) d.ranks

/-! ### The modules of one controller -/

namespace Placement

/-- Modules that agree slot by slot agree in every slot, also in those that are not there. -/
theorem getD_congr {α : Type} {f : Dimm → α} {ds es : List Dimm} (h : ds.map f = es.map f)
    (slot : Nat) : f (ds.getD slot {}) = f (es.getD slot {}) := by
  have hget : ∀ ds : List Dimm, f (ds.getD slot {}) = ((ds.map f)[slot]?).getD (f {}) := by
    intro ds
    rw [List.getD_eq_getElem?_getD, List.getElem?_map]
    cases ds[slot]? <;> rfl
  rw [hget, hget, h]

/-- Placing modules changes nothing but their first addresses. -/
theorem map_chain {α : Type} {f : Dimm → α} (hf : ∀ d base, f { d with base := base } = f d)
    (shift base : Nat) (ds : List Dimm) : (chain shift base ds).map f = ds.map f := by
  induction ds generalizing base with
  | nil => rfl
  | cons d ds ih => rw [chain, List.map_cons, List.map_cons, ih, hf]

theorem length_chain (shift base : Nat) (ds : List Dimm) :
    (chain shift base ds).length = ds.length := by
  simpa using congrArg List.length (map_chain (f := fun _ => ()) (fun _ _ => rfl) shift base ds)

/-- **Modules one after another** tile the range that they take together. -/
theorem tiles_chain (shift base : Nat) (ds : List Dimm) :
    Region.Tiles base ((chain shift base ds).map fun d => ⟨d.base, room shift d⟩)
      (base + (ds.map (room shift)).sum) := by
  induction ds generalizing base with
  | nil => exact .nil base
  | cons d ds ih =>
      refine Region.tiles_cons.2 ⟨rfl, ?_⟩
      have h := ih (base + room shift d)
      rwa [Nat.add_assoc, ← List.sum_cons, ← List.map_cons] at h

/-! ### One controller -/

section Controller

variable (p : Platform) (share base : Nat) (k : Controller)

/-- A controller at an address: on its own, or with a share in the range of its group. -/
def placedAt : Controller :=
  match k.options.controllerMode with
  | some mode => shared p.slots ⟨base, mode.ways * share⟩ k
  | none => linear p.slots base k

@[simp] theorem installed_linear :
    (linear p.slots base k).installed p.slots =
      chain k.widthShift base (k.installed p.slots) := by
  refine Controller.installed_withInstalled _ p.slots_le ?_
  rw [length_chain, Controller.length_installed]

@[simp] theorem installed_shared (region : Region) :
    (shared p.slots region k).installed p.slots =
      (k.installed p.slots).map fun d => { d with base := region.base } := by
  refine Controller.installed_withInstalled _ p.slots_le ?_
  rw [List.length_map, Controller.length_installed]

variable {p share base k}

theorem placedAt_of_none (h : k.options.controllerMode = none) :
    placedAt p share base k = linear p.slots base k := by
  simp only [placedAt, h]

theorem placedAt_of_some {mode : ControllerMode} (h : k.options.controllerMode = some mode) :
    placedAt p share base k = shared p.slots ⟨base, mode.ways * share⟩ k := by
  simp only [placedAt, h]

/-- The modules of a controller on its own tile its range. -/
theorem tiles_linear (p : Platform) (base : Nat) (k : Controller) :
    Region.Tiles (linear p.slots base k).region.base
      (((linear p.slots base k).installed p.slots).map fun d => ⟨d.base, room k.widthShift d⟩)
      (linear p.slots base k).region.stop := by
  rw [installed_linear]
  exact tiles_chain k.widthShift base (k.installed p.slots)

variable (p share base k)

@[simp] theorem options_placedAt : (placedAt p share base k).options = k.options := by
  unfold placedAt
  split <;> rfl

@[simp] theorem common_placedAt : (placedAt p share base k).common = k.common := by
  unfold placedAt
  split <;> rfl

@[simp] theorem widthShift_placedAt : (placedAt p share base k).widthShift = k.widthShift := by
  unfold placedAt
  split <;> rfl

@[simp] theorem base_region_placedAt : (placedAt p share base k).region.base = base := by
  unfold placedAt
  split <;> rfl

/-- Nothing is known of the placed modules that was not known before, except where they are. -/
theorem map_installed_placedAt {α : Type} {f : Dimm → α}
    (hf : ∀ d base, f { d with base := base } = f d) :
    ((placedAt p share base k).installed p.slots).map f = (k.installed p.slots).map f := by
  cases hmode : k.options.controllerMode with
  | none => rw [placedAt_of_none hmode, installed_linear, map_chain hf]
  | some mode =>
      rw [placedAt_of_some hmode, installed_shared, List.map_map]
      exact List.map_congr_left fun d _ => hf d base

end Controller

/-! ### The ranges of all controllers -/

/-- What the placement has to know of a controller: its mode, and the room of its modules. -/
def demand (p : Platform) (k : Controller) : Option ControllerMode × Nat :=
  (k.options.controllerMode, ((k.installed p.slots).map (room k.widthShift)).sum)

/-- The ranges of controllers one after another, and the end of the last one. The first cursor is
the base of the interleaved range, the second one the end of what has been placed. -/
def layout (share : Nat) :
    Nat → Nat → List (Option ControllerMode × Nat) → List Region × Nat
  | _, stop, [] => ([], stop)
  | groupBase, _, (some mode, _) :: rest =>
      let region : Region := ⟨groupBase, mode.ways * share⟩
      let after := layout share groupBase region.stop rest
      (region :: after.1, after.2)
  | _, stop, (none, size) :: rest =>
      let region : Region := ⟨stop, size⟩
      let after := layout share region.stop region.stop rest
      (region :: after.1, after.2)

@[simp] theorem layout_nil (share groupBase stop : Nat) :
    layout share groupBase stop [] = ([], stop) := rfl

@[simp] theorem layout_some (share groupBase stop : Nat) (mode : ControllerMode) (size : Nat)
    (rest : List (Option ControllerMode × Nat)) :
    layout share groupBase stop ((some mode, size) :: rest) =
      (⟨groupBase, mode.ways * share⟩ ::
          (layout share groupBase (groupBase + mode.ways * share) rest).1,
        (layout share groupBase (groupBase + mode.ways * share) rest).2) := rfl

@[simp] theorem layout_none (share groupBase stop size : Nat)
    (rest : List (Option ControllerMode × Nat)) :
    layout share groupBase stop ((none, size) :: rest) =
      (⟨stop, size⟩ :: (layout share (stop + size) (stop + size) rest).1,
        (layout share (stop + size) (stop + size) rest).2) := rfl

/-- **Without a group the ranges tile what is placed**, from the end of what was there before. -/
theorem tiles_layout {share groupBase stop : Nat} {demands : List (Option ControllerMode × Nat)}
    (h : ∀ d ∈ demands, d.1 = none) :
    Region.Tiles stop (layout share groupBase stop demands).1
      (layout share groupBase stop demands).2 := by
  induction demands generalizing groupBase stop with
  | nil => exact .nil stop
  | cons d demands ih =>
      obtain ⟨mode, size⟩ := d
      obtain rfl : mode = none := h _ List.mem_cons_self
      rw [layout_none, Region.tiles_cons]
      exact ⟨rfl, ih fun d hd => h d (List.mem_cons_of_mem _ hd)⟩

/-- **The ranges depend only on what matters**: the modes, the room of the controllers without a
mode, and the share of the group if there is one. -/
theorem layout_congr {α : Type} {as : List α} {f g : α → Option ControllerMode × Nat}
    {share share' : Nat} (hmode : ∀ a ∈ as, (f a).1 = (g a).1)
    (hsize : ∀ a ∈ as, (f a).1 = none → (f a).2 = (g a).2)
    (hshare : ∀ a ∈ as, (f a).1 ≠ none → share = share') (groupBase stop : Nat) :
    layout share groupBase stop (as.map f) = layout share' groupBase stop (as.map g) := by
  induction as generalizing groupBase stop with
  | nil => rfl
  | cons a as ih =>
      have hrest := ih (fun b hb => hmode b (List.mem_cons_of_mem a hb))
        (fun b hb => hsize b (List.mem_cons_of_mem a hb))
        (fun b hb => hshare b (List.mem_cons_of_mem a hb))
      have hma := hmode a List.mem_cons_self
      have hsa := hsize a List.mem_cons_self
      have hga := hshare a List.mem_cons_self
      rw [List.map_cons, List.map_cons]
      generalize f a = d at hma hsa hga
      generalize g a = e at hma hsa
      obtain ⟨mode, size⟩ := d
      obtain ⟨mode', size'⟩ := e
      obtain rfl : mode = mode' := hma
      cases mode with
      | none =>
          obtain rfl : size = size' := hsa rfl
          rw [layout_none, layout_none, hrest]
      | some mode =>
          obtain rfl : share = share' := hga (by simp)
          rw [layout_some, layout_some, hrest]

end Placement

open Placement

/-! ### A run of the placement -/

namespace State.Placing

theorem next_of_none (share : Nat) {p : Placing} {c : Fin 3}
    (h : p.state.controllers[c].options.controllerMode = none) : p.next share c = p.alone c := by
  simp only [next, h]

theorem next_of_some (share : Nat) {p : Placing} {c : Fin 3} {mode : ControllerMode}
    (h : p.state.controllers[c].options.controllerMode = some mode) :
    p.next share c =
      { state := p.state.put c (shared p.state.platform.slots ⟨p.groupBase, mode.ways * share⟩
          p.state.controllers[c])
        groupBase := p.groupBase
        stop := p.groupBase + mode.ways * share } := by
  simp only [next, h]
  rfl

/-- One visit puts the controller at one of the cursors. -/
theorem exists_state_next (share : Nat) (p : Placing) (c : Fin 3) :
    ∃ base, (base = p.groupBase ∨ base = p.stop) ∧ (p.next share c).state =
      p.state.put c (placedAt p.state.platform share base p.state.controllers[c]) := by
  cases hmode : p.state.controllers[c].options.controllerMode with
  | none =>
      refine ⟨p.stop, .inr rfl, ?_⟩
      rw [next_of_none share hmode, placedAt_of_none hmode]
      rfl
  | some mode =>
      refine ⟨p.groupBase, .inl rfl, ?_⟩
      rw [next_of_some share hmode, placedAt_of_some hmode]

@[simp] theorem platform_next (share : Nat) (p : Placing) (c : Fin 3) :
    (p.next share c).state.platform = p.state.platform := by
  obtain ⟨base, -, h⟩ := exists_state_next share p c
  rw [h, platform_put]

theorem controllers_next_of_ne (share : Nat) (p : Placing) {c d : Fin 3} (h : c ≠ d) :
    (p.next share c).state.controllers[d] = p.state.controllers[d] := by
  obtain ⟨base, -, hnext⟩ := exists_state_next share p c
  rw [hnext, controllers_put_of_ne _ h]

@[simp] theorem platform_foldl_next (share : Nat) (cs : List (Fin 3)) (p : Placing) :
    (cs.foldl (next share) p).state.platform = p.state.platform := by
  induction cs generalizing p with
  | nil => rfl
  | cons c cs ih => rw [List.foldl_cons, ih, platform_next]

theorem controllers_foldl_next_of_not_mem (share : Nat) {cs : List (Fin 3)} {d : Fin 3}
    (h : d ∉ cs) (p : Placing) :
    (cs.foldl (next share) p).state.controllers[d] = p.state.controllers[d] := by
  induction cs generalizing p with
  | nil => rfl
  | cons c cs ih =>
      obtain ⟨hdc, hd⟩ := not_or.1 (mt List.mem_cons.2 h)
      rw [List.foldl_cons, ih hd, controllers_next_of_ne share p (Ne.symm hdc)]

/-- **A run puts every controller that it visits at some address** and changes nothing else of
it. -/
theorem controllers_foldl_next (share : Nat) {cs : List (Fin 3)} (hcs : cs.Nodup) {d : Fin 3}
    (hd : d ∈ cs) (p : Placing) :
    ∃ base, (cs.foldl (next share) p).state.controllers[d] =
      placedAt p.state.platform share base p.state.controllers[d] := by
  induction cs generalizing p with
  | nil => simp at hd
  | cons c cs ih =>
      obtain ⟨hc, hcs⟩ := List.nodup_cons.1 hcs
      rw [List.foldl_cons]
      rcases List.mem_cons.1 hd with rfl | hd
      · obtain ⟨base, -, hnext⟩ := exists_state_next share p d
        refine ⟨base, ?_⟩
        rw [controllers_foldl_next_of_not_mem share hc, hnext, controllers_put_self]
      · obtain ⟨base, hbase⟩ := ih hcs hd (p.next share c)
        refine ⟨base, ?_⟩
        rw [hbase, platform_next,
          controllers_next_of_ne share p (ne_of_mem_of_not_mem hd hc).symm]

/-- Controllers without a mode are placed on their own. -/
theorem foldl_alone (share : Nat) {cs : List (Fin 3)} (hcs : cs.Nodup) {p : Placing}
    (h : ∀ c ∈ cs, p.state.controllers[c].options.controllerMode = none) :
    cs.foldl alone p = cs.foldl (next share) p := by
  induction cs generalizing p with
  | nil => rfl
  | cons c cs ih =>
      obtain ⟨hc, hcs⟩ := List.nodup_cons.1 hcs
      rw [List.foldl_cons, List.foldl_cons, next_of_none share (h c List.mem_cons_self)]
      refine ih hcs fun d hd => ?_
      rw [← next_of_none share (h c List.mem_cons_self),
        controllers_next_of_ne share p (ne_of_mem_of_not_mem hd hc).symm]
      exact h d (List.mem_cons_of_mem c hd)

/-- **The ranges that a run hands out** depend on nothing but the demands of the controllers and the
cursors at the start. -/
theorem map_region_foldl_next (share : Nat) {cs : List (Fin 3)} (hcs : cs.Nodup) (p : Placing) :
    (cs.map fun c => (cs.foldl (next share) p).state.controllers[c].region,
        (cs.foldl (next share) p).stop) =
      layout share p.groupBase p.stop
        (cs.map fun c => demand p.state.platform p.state.controllers[c]) := by
  induction cs generalizing p with
  | nil => rfl
  | cons c cs ih =>
      obtain ⟨hc, hcs⟩ := List.nodup_cons.1 hcs
      -- the rest of the run does not see what was done to this controller
      have hrest : cs.map (fun d => demand (p.next share c).state.platform
          (p.next share c).state.controllers[d]) =
          cs.map fun d => demand p.state.platform p.state.controllers[d] := by
        refine List.map_congr_left fun d hd => ?_
        rw [platform_next, controllers_next_of_ne share p (ne_of_mem_of_not_mem hd hc).symm]
      obtain ⟨hregions, hstop⟩ := Prod.ext_iff.1 (ih hcs (p.next share c))
      simp only [hrest] at hregions hstop
      rw [List.foldl_cons, List.map_cons, List.map_cons,
        controllers_foldl_next_of_not_mem share hc, hregions, hstop]
      cases hmode : p.state.controllers[c].options.controllerMode with
      | none =>
          have hdemand : demand p.state.platform p.state.controllers[c] =
              ⟨none, _⟩ := Prod.ext hmode rfl
          rw [hdemand, layout_none, next_of_none share hmode, alone, controllers_put_self]
          rfl
      | some mode =>
          have hdemand : demand p.state.platform p.state.controllers[c] =
              ⟨some mode, _⟩ := Prod.ext hmode rfl
          rw [hdemand, layout_some, next_of_some share hmode, controllers_put_self]
          rfl

end State.Placing

namespace State

/-! ### The shifts of the buses -/

/-- A controller with the shift of its bus. -/
def withShift (p : Platform) (k : Controller) : Controller :=
  { k with widthShift := widthShift k.options (k.installed p.slots) }

/-- A visit that reads the slots of the platform, which no step changes, may as well have them from
the start. -/
theorem foldl_withShift (cs : List (Fin 3)) {s : State} {p : Platform} (h : s.platform = p) :
    cs.foldl
        (fun s c =>
          let k := s.controllers[c]
          s.put c { k with widthShift := widthShift k.options (s.installed c) }) s =
      cs.foldl (fun s c => s.put c (withShift p s.controllers[c])) s := by
  induction cs generalizing s with
  | nil => rfl
  | cons c cs ih =>
      subst h
      exact ih (s := s.put c (withShift s.platform s.controllers[c])) rfl

theorem withShifts_eq (s : State) :
    s.withShifts =
      s.platform.controllerList.foldl
        (fun t c => t.put c (withShift s.platform t.controllers[c])) s :=
  foldl_withShift s.platform.controllerList rfl

@[simp] theorem platform_withShifts (s : State) : s.withShifts.platform = s.platform := by
  rw [withShifts_eq]
  exact platform_foldl_put (fun _ => withShift s.platform) _ s

theorem controllers_withShifts (s : State) (c : Fin 3) :
    s.withShifts.controllers[c] =
      if c ∈ s.platform.controllerList then withShift s.platform s.controllers[c]
      else s.controllers[c] := by
  rw [withShifts_eq]
  exact controllers_foldl_put (fun _ => withShift s.platform) s.platform.nodup_controllerList s c

@[simp] theorem options_withShifts (s : State) (c : Fin 3) :
    s.withShifts.controllers[c].options = s.controllers[c].options := by
  rw [controllers_withShifts]
  split <;> rfl

/-! ### The check of the interleaving -/

theorem checkInterleaving_of_sound {s : State} (h : s.interleavingSound = true) :
    s.checkInterleaving.value = s := by
  rw [checkInterleaving, if_pos h]
  rfl

theorem value_checkInterleaving_of_not_sound {s : State} (h : s.interleavingSound = false) :
    s.checkInterleaving.value =
      s.platform.controllerList.foldl (fun s c => s.put c (alone s.controllers[c])) s := by
  rw [checkInterleaving, if_neg (by simp [h])]

@[simp] theorem platform_checkInterleaving (s : State) :
    s.checkInterleaving.value.platform = s.platform := by
  cases h : s.interleavingSound with
  | true => rw [checkInterleaving_of_sound h]
  | false =>
      rw [value_checkInterleaving_of_not_sound h]
      exact platform_foldl_put (fun _ => alone) _ s

/-- The check leaves a controller as it is or takes its interleaving away. -/
theorem controllers_checkInterleaving (s : State) (c : Fin 3) :
    s.checkInterleaving.value.controllers[c] =
      if s.interleavingSound = false ∧ c ∈ s.platform.controllerList then alone s.controllers[c]
      else s.controllers[c] := by
  cases h : s.interleavingSound with
  | true => simp [checkInterleaving_of_sound h]
  | false =>
      rw [value_checkInterleaving_of_not_sound h]
      have := controllers_foldl_put (fun _ => alone) s.platform.nodup_controllerList s c
      simpa using this

theorem common_checkInterleaving (s : State) (d : Fin 3) :
    s.checkInterleaving.value.controllers[d].common = s.controllers[d].common := by
  rw [controllers_checkInterleaving]
  split <;> rfl

theorem installed_checkInterleaving (s : State) (d : Fin 3) :
    s.checkInterleaving.value.installed d = s.installed d := by
  rw [installed, platform_checkInterleaving, controllers_checkInterleaving]
  split <;> rfl

theorem mem_interleaved {s : State} {c : Fin 3} :
    c ∈ s.interleaved ↔
      c ∈ s.platform.controllerList ∧ s.controllers[c].options.controllerMode.isSome := by
  rw [interleaved, List.mem_filter]

/-- Interleaving that nobody asks for is sound. -/
theorem interleavingSound_of_none {s : State}
    (h : ∀ c ∈ s.platform.controllerList, s.controllers[c].options.controllerMode = none) :
    s.interleavingSound = true := by
  have hnil : s.interleaved = [] :=
    List.filter_eq_nil_iff.2 fun c hc => by rw [h c hc]; decide
  simp [interleavingSound, hnil]

/-- Whatever the check makes of a state is sound. -/
theorem interleavingSound_checkInterleaving (s : State) :
    s.checkInterleaving.value.interleavingSound = true := by
  cases h : s.interleavingSound with
  | true => rwa [checkInterleaving_of_sound h]
  | false =>
      refine interleavingSound_of_none fun c hc => ?_
      rw [platform_checkInterleaving] at hc
      rw [controllers_checkInterleaving, if_pos ⟨h, hc⟩]
      rfl

/-- After the check, no controller is interleaved unless the first one is. -/
theorem mode_eq_none_of_first (s : State)
    (hfirst : s.checkInterleaving.value.controllers[(0 : Fin 3)].options.controllerMode = none)
    (c : Fin 3) (hc : c ∈ s.checkInterleaving.value.platform.controllerList) :
    s.checkInterleaving.value.controllers[c].options.controllerMode = none := by
  rw [platform_checkInterleaving] at hc
  cases h : s.interleavingSound with
  | false =>
      rw [controllers_checkInterleaving, if_pos ⟨h, hc⟩]
      rfl
  | true =>
      rw [checkInterleaving_of_sound h] at hfirst ⊢
      by_contra hmode
      have hmem : c ∈ s.interleaved := mem_interleaved.2 ⟨hc, Option.isSome_iff_ne_none.2 hmode⟩
      have hall := (Bool.and_eq_true_iff.1 h).1
      have hmatch := List.all_eq_true.1 hall c hmem
      simp only [matchesFirst, Bool.and_eq_true, beq_iff_eq] at hmatch
      exact hmode (hmatch.2.trans hfirst)

/-! ### The placement of all controllers -/

/-- The placement of all controllers in use, whether or not some of them are interleaved. -/
def placing (s : State) : Placing :=
  s.platform.controllerList.foldl (Placing.next s.withShifts.groupShare)
    { state := s.withShifts, groupBase := s.platform.sdramBase, stop := s.platform.sdramBase }

/-- **The placement is one run**, provided that no controller is interleaved unless the first one
is. -/
theorem assignAddresses_of_first {s : State}
    (h : s.controllers[(0 : Fin 3)].options.controllerMode = none →
      ∀ c ∈ s.platform.controllerList, s.controllers[c].options.controllerMode = none) :
    s.assignAddresses = (s.placing.state, s.placing.stop - s.platform.sdramBase) := by
  have hlist : s.withShifts.platform = s.platform := platform_withShifts s
  cases hmode : s.controllers[(0 : Fin 3)].options.controllerMode with
  | some mode =>
      have hsome : s.withShifts.controllers[(0 : Fin 3)].options.controllerMode.isSome = true := by
        simp [hmode]
      simp only [assignAddresses, if_pos hsome, hlist]
      rfl
  | none =>
      have hnone : ¬s.withShifts.controllers[(0 : Fin 3)].options.controllerMode.isSome = true := by
        simp [hmode]
      have hall : ∀ c ∈ s.platform.controllerList,
          s.withShifts.controllers[c].options.controllerMode = none := by
        intro c hc
        rw [options_withShifts]
        exact h hmode c hc
      simp only [assignAddresses, if_neg hnone, hlist]
      rw [Placing.foldl_alone s.withShifts.groupShare s.platform.nodup_controllerList hall]
      rfl

/-- After the check, the placement is one run. -/
theorem assignAddresses_checkInterleaving (s : State) :
    s.checkInterleaving.value.assignAddresses =
      (s.checkInterleaving.value.placing.state,
        s.checkInterleaving.value.placing.stop - s.platform.sdramBase) := by
  rw [assignAddresses_of_first (mode_eq_none_of_first s), platform_checkInterleaving]

@[simp] theorem platform_placing (s : State) : s.placing.state.platform = s.platform := by
  rw [placing, Placing.platform_foldl_next, platform_withShifts]

/-- The room that each module of a controller takes. -/
def rooms (s : State) (c : Fin 3) : List Nat :=
  (s.installed c).map (room (widthShift s.controllers[c].options (s.installed c)))

/-- What the controllers in use ask of the placement. -/
def demands (s : State) : List (Option ControllerMode × Nat) :=
  s.platform.controllerList.map fun c => (s.controllers[c].options.controllerMode, (s.rooms c).sum)

/-- **The ranges of the controllers** by their demands. -/
theorem map_region_placing (s : State) :
    (s.platform.controllerList.map fun c => s.placing.state.controllers[c].region,
        s.placing.stop) =
      layout s.withShifts.groupShare s.platform.sdramBase s.platform.sdramBase s.demands := by
  have hdemands : s.demands = s.platform.controllerList.map fun c =>
      demand s.withShifts.platform s.withShifts.controllers[c] := by
    refine List.map_congr_left fun c hc => ?_
    rw [controllers_withShifts, if_pos hc, platform_withShifts]
    rfl
  rw [hdemands]
  exact Placing.map_region_foldl_next s.withShifts.groupShare s.platform.nodup_controllerList
    { state := s.withShifts, groupBase := s.platform.sdramBase, stop := s.platform.sdramBase }

/-- **Controllers without interleaving tile the memory** from its first address on. -/
theorem tiles_placing {s : State}
    (h : ∀ c ∈ s.platform.controllerList, s.controllers[c].options.controllerMode = none) :
    Region.Tiles s.platform.sdramBase
      (s.platform.controllerList.map fun c => s.placing.state.controllers[c].region)
      s.placing.stop := by
  obtain ⟨hregions, hstop⟩ := Prod.ext_iff.1 (map_region_placing s)
  simp only at hregions hstop
  rw [hregions, hstop]
  refine tiles_layout fun d hd => ?_
  obtain ⟨c, hc, rfl⟩ := List.mem_map.1 hd
  exact h c hc

/-- **Every controller in use is put somewhere**, with the shift of its bus; nothing else of it
changes. -/
theorem controllers_placing (s : State) {c : Fin 3} (hc : c ∈ s.platform.controllerList) :
    ∃ base, s.placing.state.controllers[c] =
      placedAt s.platform s.withShifts.groupShare base (withShift s.platform s.controllers[c]) := by
  obtain ⟨base, h⟩ := Placing.controllers_foldl_next s.withShifts.groupShare
    s.platform.nodup_controllerList hc
    { state := s.withShifts, groupBase := s.platform.sdramBase, stop := s.platform.sdramBase }
  refine ⟨base, ?_⟩
  rw [placing, h, controllers_withShifts, if_pos hc, platform_withShifts]

/-- A controller that is not in use stays as it is. -/
theorem controllers_placing_of_not_mem (s : State) {c : Fin 3}
    (hc : c ∉ s.platform.controllerList) :
    s.placing.state.controllers[c] = s.controllers[c] := by
  rw [placing, Placing.controllers_foldl_next_of_not_mem _ hc, controllers_withShifts, if_neg hc]

section Placed

variable {s : State} {c : Fin 3} (hc : c ∈ s.platform.controllerList)
include hc

theorem options_placing :
    s.placing.state.controllers[c].options = s.controllers[c].options := by
  obtain ⟨base, h⟩ := controllers_placing s hc
  rw [h, options_placedAt]
  rfl

theorem common_placing : s.placing.state.controllers[c].common = s.controllers[c].common := by
  obtain ⟨base, h⟩ := controllers_placing s hc
  rw [h, common_placedAt]
  rfl

theorem widthShift_placing :
    s.placing.state.controllers[c].widthShift =
      widthShift s.controllers[c].options (s.installed c) := by
  obtain ⟨base, h⟩ := controllers_placing s hc
  rw [h, widthShift_placedAt]
  rfl

/-- Nothing is known of the placed modules that was not known before, except where they are. -/
theorem map_installed_placing {α : Type} {f : Dimm → α}
    (hf : ∀ d base, f { d with base := base } = f d) :
    (s.placing.state.installed c).map f = (s.installed c).map f := by
  obtain ⟨base, h⟩ := controllers_placing s hc
  rw [installed, h, platform_placing, map_installed_placedAt _ _ _ _ hf]
  rfl

/-- What holds of the modules wherever they are holds of the placed ones. -/
theorem forall_installed_placing {P : Dimm → Prop} (hP : ∀ d base, P { d with base := base } ↔ P d)
    (h : ∀ d ∈ s.installed c, P d) : ∀ d ∈ s.placing.state.installed c, P d := by
  intro d hd
  have hmem := List.mem_map_of_mem (f := P) hd
  rw [map_installed_placing hc fun d base => propext (hP d base)] at hmem
  obtain ⟨e, he, heq⟩ := List.mem_map.1 hmem
  rw [← heq]
  exact h e he

/-- **The modules of a controller on its own tile its range.** -/
theorem tiles_installed_placing (hmode : s.controllers[c].options.controllerMode = none) :
    Region.Tiles s.placing.state.controllers[c].region.base
      ((s.placing.state.installed c).map fun d =>
        ⟨d.base, room s.placing.state.controllers[c].widthShift d⟩)
      s.placing.state.controllers[c].region.stop := by
  obtain ⟨base, h⟩ := controllers_placing s hc
  have hnone : (withShift s.platform s.controllers[c]).options.controllerMode = none := hmode
  rw [installed, h, platform_placing, placedAt_of_none hnone]
  exact tiles_linear s.platform base (withShift s.platform s.controllers[c])

end Placed

end State

end SdramBringup
