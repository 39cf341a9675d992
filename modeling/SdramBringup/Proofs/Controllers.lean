/-
**Working on one controller after another.**

Every stage of a configuration visits the controllers in use and replaces one at a time. Such a
visit never looks at what it did to the controllers before, so its outcome can be read off
controller by controller. This module proves that once, together with the few facts about the
controllers in use and the modules in their slots that all later arguments need.

Main results:

* `State.controllers_foldl_put` — **a visit replaces each controller on its own**;
* `State.controllers_eachController` — the same of a computation with notes;
* `Controller.installed_withInstalled` — the modules that are put into the slots are in them;
* `Platform.nodup_controllerList`, `Platform.slots_eq` — the controllers and the slots in use.
-/

import Mathlib.Data.List.Basic
import SdramBringup.Stage

set_option relaxedAutoImplicit false
set_option autoImplicit false

namespace SdramBringup

/-! ### Controllers and slots in use -/

namespace Platform

theorem nodup_controllerList (p : Platform) : p.controllerList.Nodup :=
  (List.nodup_finRange 3).filter _

theorem slots_eq (p : Platform) : p.slots = 1 ∨ p.slots = 2 := by
  unfold slots
  omega

theorem slots_le (p : Platform) : p.slots ≤ 2 := by
  rcases p.slots_eq with h | h <;> omega

theorem slots_pos (p : Platform) : 0 < p.slots := by
  rcases p.slots_eq with h | h <;> omega

end Platform

/-! ### The modules in the slots -/

namespace Controller

theorem installed_one (k : Controller) : k.installed 1 = [k.dimms[(0 : Fin 2)]] := by
  rcases k with ⟨_, ⟨⟨ds⟩, hds⟩, _⟩
  match ds, hds with
  | [_, _], _ => rfl

theorem installed_two (k : Controller) :
    k.installed 2 = [k.dimms[(0 : Fin 2)], k.dimms[(1 : Fin 2)]] := by
  rcases k with ⟨_, ⟨⟨ds⟩, hds⟩, _⟩
  match ds, hds with
  | [_, _], _ => rfl

theorem length_installed (k : Controller) (p : Platform) :
    (k.installed p.slots).length = p.slots := by
  rcases p.slots_eq with h | h <;> simp [h, installed_one, installed_two]

theorem getElem_installed (k : Controller) {slots i : Nat} (h : i < (k.installed slots).length)
    (hi : i < 2) : (k.installed slots)[i] = k.dimms[i] := by
  simp [installed]

/-- The module in a slot in use is among those installed. -/
theorem getD_installed (k : Controller) {p : Platform} {j : Fin 2} (hj : j.val < p.slots) :
    (k.installed p.slots).getD j {} = k.dimms[j] := by
  have hlength : j.val < (k.installed p.slots).length := by rwa [length_installed]
  rw [List.getD_eq_getElem?_getD, List.getElem?_eq_getElem hlength, Option.getD_some]
  exact getElem_installed k hlength j.isLt

/-- The module in the first slot is among those installed. -/
theorem first_mem_installed (k : Controller) (p : Platform) :
    k.dimms[(0 : Fin 2)] ∈ k.installed p.slots := by
  rcases p.slots_eq with h | h
  · rw [h, installed_one]
    exact List.mem_cons_self
  · rw [h, installed_two]
    exact List.mem_cons_self

/-- Modules that fill the slots in use are the modules in them. -/
theorem installed_withInstalled (k : Controller) {slots : Nat} (h : slots ≤ 2) {ds : List Dimm}
    (hds : ds.length = slots) : (k.withInstalled ds).installed slots = ds := by
  refine List.ext_getElem ?_ fun i h₁ h₂ => ?_
  · simp only [installed, withInstalled, List.length_take, Vector.length_toList]
    omega
  · simp [installed, withInstalled, h₂]

end Controller

/-! ### One controller replaced -/

namespace State

@[simp] theorem platform_put (s : State) (c : Fin 3) (k : Controller) :
    (s.put c k).platform = s.platform := rfl

@[simp] theorem controllers_put_self (s : State) (c : Fin 3) (k : Controller) :
    (s.put c k).controllers[c] = k :=
  Vector.getElem_set_self c.isLt

theorem controllers_put_of_ne (s : State) {c d : Fin 3} (h : c ≠ d) (k : Controller) :
    (s.put c k).controllers[d] = s.controllers[d] :=
  Vector.getElem_set_ne c.isLt d.isLt fun he => h (Fin.ext he)

/-- A module that is put into a slot does not change any image. -/
theorem images_put_withDimm (s : State) (c : Fin 3) (slot : Fin 2) (d : Dimm) (e : Fin 3) :
    (s.put c (s.controllers[c].withDimm slot d)).controllers[e].images =
      s.controllers[e].images := by
  by_cases hc : c = e
  · subst hc
    rw [controllers_put_self]
    rfl
  · rw [controllers_put_of_ne s hc]

theorem dimms_put_withDimm_self (s : State) (c : Fin 3) (slot : Fin 2) (d : Dimm) :
    (s.put c (s.controllers[c].withDimm slot d)).controllers[c].dimms[slot] = d := by
  rw [controllers_put_self]
  exact Vector.getElem_set_self slot.isLt

/-- A module that is put into a slot does not change any other slot. -/
theorem dimms_put_withDimm_of_ne (s : State) {p q : Fin 3 × Fin 2} (h : p ≠ q) (d : Dimm) :
    (s.put p.1 (s.controllers[p.1].withDimm p.2 d)).controllers[q.1].dimms[q.2] =
      s.controllers[q.1].dimms[q.2] := by
  obtain ⟨c, slot⟩ := p
  obtain ⟨e, other⟩ := q
  by_cases hc : c = e
  · subst hc
    rw [controllers_put_self]
    exact Vector.getElem_set_ne slot.isLt other.isLt fun he => h (by rw [Fin.ext he])
  · rw [controllers_put_of_ne s hc]

/-! ### A visit to all controllers -/

section Visit

variable (f : Fin 3 → Controller → Controller)

@[simp] theorem platform_foldl_put (cs : List (Fin 3)) (s : State) :
    (cs.foldl (fun s c => s.put c (f c s.controllers[c])) s).platform = s.platform := by
  induction cs generalizing s with
  | nil => rfl
  | cons c cs ih => rw [List.foldl_cons, ih, platform_put]

/-- **A visit replaces each controller on its own**: what becomes of one depends on nothing but what
it was before. -/
theorem controllers_foldl_put {cs : List (Fin 3)} (hcs : cs.Nodup) (s : State) (d : Fin 3) :
    (cs.foldl (fun s c => s.put c (f c s.controllers[c])) s).controllers[d] =
      if d ∈ cs then f d s.controllers[d] else s.controllers[d] := by
  induction cs generalizing s with
  | nil => rfl
  | cons c cs ih =>
      obtain ⟨hc, hcs⟩ := List.nodup_cons.1 hcs
      rw [List.foldl_cons, ih hcs]
      by_cases hd : c = d
      · subst hd
        rw [if_neg hc, controllers_put_self, if_pos List.mem_cons_self]
      · rw [controllers_put_of_ne s hd]
        simp [Ne.symm hd]

end Visit

end State

/-- The result of a computation in steps is the result of its steps without their notes. -/
theorem Noted.value_foldlM {α β : Type} (f : β → α → Noted β) (as : List α) (b : β) :
    (as.foldlM f b).value = as.foldl (fun b a => (f b a).value) b := by
  induction as generalizing b with
  | nil => rfl
  | cons a as ih => rw [List.foldlM_cons, List.foldl_cons, Noted.value_bind, ih]

namespace State

theorem value_eachController (s : State) (f : Fin 3 → Controller → Noted Controller) :
    (s.eachController f).value =
      s.platform.controllerList.foldl (fun s c => s.put c (f c s.controllers[c]).value) s := by
  rw [eachController, Noted.value_foldlM]
  rfl

@[simp] theorem platform_eachController (s : State) (f : Fin 3 → Controller → Noted Controller) :
    (s.eachController f).value.platform = s.platform := by
  rw [value_eachController]
  exact platform_foldl_put (fun c k => (f c k).value) _ s

/-- **A computation for every controller in use** leaves each one as the computation makes it, and
the others as they were. -/
theorem controllers_eachController (s : State) (f : Fin 3 → Controller → Noted Controller)
    (c : Fin 3) :
    (s.eachController f).value.controllers[c] =
      if c ∈ s.platform.controllerList then (f c s.controllers[c]).value else s.controllers[c] := by
  rw [value_eachController]
  exact controllers_foldl_put (fun c k => (f c k).value) s.platform.nodup_controllerList s c

end State

end SdramBringup
