/-
**How often modules are refreshed.**

The common timing takes the longest of every time, that of the refresh interval included. For all
other times the longest one is the safe one. An interval between refreshes must not be exceeded, so
a module that needs a short one is safe only if the others need it, too. This module says what the
register holds in clocks, when it is short enough for all modules, and what this means for modules
that are described by their images: whether they are refreshed in the extended temperature range
depends on all of them.

Main definitions:

* `Clock.refreshClocks` — the refresh intervals of modules in clocks;
* `Clock.Refreshes` — **what the interval in the register is worth** for some modules.

Main results:

* `Clock.isGreatest_refreshClocks` — the common interval is the longest one in clocks, too;
* `Spd.Image.refresh_of_decode` — the interval of a module that an image describes;
* `Clock.refreshes_mod` — the low bits of the longest interval, and when they are enough;
* `Synthesis.refreshes_compute` — **the refresh interval of a controller**.
-/

import SdramBringup.Proofs.Clock
import SdramBringup.Proofs.CommonTiming
import SdramBringup.Proofs.Field
import SdramBringup.Proofs.Stages

set_option relaxedAutoImplicit false
set_option autoImplicit false

namespace SdramBringup

open Layout Spd.Image

/-! ### Clocks -/

namespace Clock

/-- A refresh interval of a module in its image fits the register at every clock. -/
theorem cyclesFor_normalRefreshPs_lt (c : Clock) : c.cyclesFor normalRefreshPs < 2 ^ 16 := by
  have hrate := c.transfers_lt
  have hle : c.cyclesFor normalRefreshPs ≤ 2 ^ 16 - 1 := by
    rw [cyclesFor_le_iff (by decide), normalRefreshPs]
    omega
  omega

/-- From one million transfers per second on, the extended temperature range takes fewer clocks. -/
theorem cyclesFor_extendedRefreshPs_lt {c : Clock} (h : 10 ^ 6 ≤ c.transfers) :
    c.cyclesFor extendedRefreshPs < c.cyclesFor normalRefreshPs := by
  have hpos : 0 < c.cyclesFor extendedRefreshPs := by
    rw [lt_cyclesFor_iff (by decide), extendedRefreshPs]
    omega
  have hlt : c.cyclesFor extendedRefreshPs < limit := cyclesFor_lt_limit (by decide)
  obtain ⟨n, hn⟩ := Nat.exists_eq_add_one_of_ne_zero hpos.ne'
  rw [hn] at hlt ⊢
  -- one clock less is not enough for the short interval
  have hless : n < c.cyclesFor extendedRefreshPs := hn ▸ Nat.lt_succ_self n
  rw [lt_cyclesFor_iff (Nat.lt_of_succ_lt hlt), extendedRefreshPs] at hless
  rw [lt_cyclesFor_iff hlt, normalRefreshPs]
  linarith

/-- The refresh intervals of modules in clocks. -/
def refreshClocks (c : Clock) (ds : List Dimm) : List Nat :=
  ds.map fun d => c.cyclesFor d.refreshInterval

/-- The common interval is the longest one in clocks, too. -/
theorem isGreatest_refreshClocks (c : Clock) {ds : List Dimm} (hne : ds ≠ []) :
    IsGreatest {n | n ∈ c.refreshClocks ds}
      (c.cyclesFor (CommonTiming.ofDimms ds).refreshInterval) := by
  obtain ⟨⟨d, hd, hlongest⟩, hle⟩ := CommonTiming.isGreatest_refreshInterval hne
  constructor
  · exact List.mem_map.2 ⟨d, hd, congrArg c.cyclesFor hlongest⟩
  · intro n hn
    obtain ⟨e, he, rfl⟩ := List.mem_map.1 hn
    exact c.cyclesFor_mono (hle ⟨e, he, rfl⟩)

end Clock

/-! ### Modules described by images -/

/-- A module that an image describes needs the short interval in the extended temperature range. -/
theorem Spd.Image.refresh_of_decode {image : Image} {d : Dimm} (h : image.decode = .ok d) :
    d.refreshInterval = if d.extendedTemperature then extendedRefreshPs else normalRefreshPs := by
  obtain ⟨kind, rfl⟩ := exists_kind_of_decode h
  rfl

/-- All modules are described by images. -/
def Described (ds : List Dimm) : Prop := ∀ d ∈ ds, ∃ image : Spd.Image, image.decode = .ok d

theorem Described.refreshInterval {ds : List Dimm} (h : Described ds) {d : Dimm} (hd : d ∈ ds) :
    d.refreshInterval = if d.extendedTemperature then extendedRefreshPs else normalRefreshPs := by
  obtain ⟨image, hdecode⟩ := h d hd
  exact refresh_of_decode hdecode

/-! ### The interval in the register -/

namespace Clock

/-- What an interval in the register is worth for some modules. -/
structure Refreshes (c : Clock) (ds : List Dimm) (interval : Nat) : Prop where
  /-- It is the longest interval of the modules, as far as the register holds it. -/
  longest : ∃ n, IsGreatest {n | n ∈ c.refreshClocks ds} n ∧ interval = n % 2 ^ 16
  /-- Where the register holds all intervals, all modules are refreshed often enough exactly if they
  all need the same interval. -/
  often_iff : (∀ n ∈ c.refreshClocks ds, n < 2 ^ 16) →
    ((∀ n ∈ c.refreshClocks ds, interval ≤ n) ↔
      ∀ m ∈ c.refreshClocks ds, ∀ n ∈ c.refreshClocks ds, m = n)
  /-- For modules from images it is the short interval if all of them need it. -/
  described : Described ds → interval = c.cyclesFor
    (if ∀ d ∈ ds, d.extendedTemperature = true then extendedRefreshPs else normalRefreshPs)
  /-- Those that do not need it are refreshed often enough. -/
  normal : Described ds → ∀ d ∈ ds, d.extendedTemperature = false →
    interval ≤ c.cyclesFor d.refreshInterval
  /-- Those that need it are if all of them need it, and else only at a clock that is too slow to
  tell the intervals apart. -/
  extended : Described ds → ∀ d ∈ ds, d.extendedTemperature = true →
    (interval ≤ c.cyclesFor d.refreshInterval ↔
      (∀ e ∈ ds, e.extendedTemperature = true) ∨
        c.transfers < 10 ^ 6 ∧ c.cyclesFor extendedRefreshPs = c.cyclesFor normalRefreshPs)

section Refreshes

variable {c : Clock} {ds : List Dimm} {n : Nat}

/-- The longest interval of modules from images is the short one if all of them need that. -/
theorem eq_of_isGreatest_refreshClocks (hds : Described ds)
    (hn : IsGreatest {n | n ∈ c.refreshClocks ds} n) :
    n = c.cyclesFor
      (if ∀ d ∈ ds, d.extendedTemperature = true then extendedRefreshPs else normalRefreshPs) := by
  split_ifs with hall
  · obtain ⟨d, hd, rfl⟩ := List.mem_map.1 hn.1
    rw [hds.refreshInterval hd, hall d hd, if_pos rfl]
  · simp only [not_forall, Bool.not_eq_true] at hall
    obtain ⟨e, he, hnormal⟩ := hall
    have hlong : ∀ d ∈ ds, d.refreshInterval ≤ e.refreshInterval := by
      intro d hd
      rw [hds.refreshInterval hd, hds.refreshInterval he, hnormal]
      split <;> decide
    have heq : e.refreshInterval = normalRefreshPs := by
      rw [hds.refreshInterval he, hnormal]
      rfl
    rw [← heq]
    refine hn.unique ⟨List.mem_map_of_mem (f := fun d : Dimm => c.cyclesFor d.refreshInterval) he,
      fun m hm => ?_⟩
    obtain ⟨d, hd, rfl⟩ := List.mem_map.1 hm
    exact c.cyclesFor_mono (hlong d hd)

/-- **The low bits of the longest interval** are worth as much as that. -/
theorem refreshes_mod (hn : IsGreatest {n | n ∈ c.refreshClocks ds} n) :
    c.Refreshes ds (n % 2 ^ 16) := by
  have hshort : c.cyclesFor extendedRefreshPs ≤ c.cyclesFor normalRefreshPs :=
    c.cyclesFor_mono (by decide)
  -- the register holds the intervals of all images
  have hmod : Described ds → n % 2 ^ 16 = n := by
    intro hds
    refine Nat.mod_eq_of_lt (Nat.lt_of_le_of_lt ?_ c.cyclesFor_normalRefreshPs_lt)
    rw [eq_of_isGreatest_refreshClocks hds hn]
    split_ifs
    · exact hshort
    · exact Nat.le_refl _
  constructor
  case longest => exact ⟨n, hn, rfl⟩
  case often_iff =>
    intro hfits
    rw [Nat.mod_eq_of_lt (hfits n hn.1)]
    constructor
    · intro hoften l hl m hm
      have hsame : ∀ k ∈ c.refreshClocks ds, k = n := fun k hk =>
        Nat.le_antisymm (hn.2 hk) (hoften k hk)
      rw [hsame l hl, hsame m hm]
    · exact fun halike m hm => Nat.le_of_eq (halike n hn.1 m hm)
  case described => exact fun hds => (hmod hds).trans (eq_of_isGreatest_refreshClocks hds hn)
  case normal =>
    intro hds d hd hnormal
    have hsome : ¬∀ e ∈ ds, e.extendedTemperature = true := fun hall =>
      Bool.false_ne_true (hnormal.symm.trans (hall d hd))
    rw [hmod hds, eq_of_isGreatest_refreshClocks hds hn, hds.refreshInterval hd, hnormal,
      if_neg hsome]
    exact Nat.le_refl _
  case extended =>
    intro hds d hd hextended
    rw [hmod hds, eq_of_isGreatest_refreshClocks hds hn, hds.refreshInterval hd, hextended,
      if_pos rfl]
    split_ifs with hall
    · exact iff_of_true (Nat.le_refl _) (.inl hall)
    · rw [or_iff_right hall]
      constructor
      · intro hle
        refine ⟨Nat.lt_of_not_le fun hfast => ?_, Nat.le_antisymm hshort hle⟩
        exact Nat.not_lt_of_le hle (cyclesFor_extendedRefreshPs_lt hfast)
      · exact fun h => Nat.le_of_eq h.2.symm

end Refreshes

end Clock

/-! ### The refresh interval of a controller -/

namespace Synthesis

theorem get_refresh_interval (i : Inputs) :
    Interval.refresh.get (interval i) = i.clock.cyclesFor i.common.refreshInterval % 2 ^ 16 :=
  Layout.get_assemble (l := Interval.layout) (by decide) rfl rfl (by simp [Inputs.cycles])

/-- **The refresh interval of a controller** with modules is worth what that of its common timing
is. -/
theorem refreshes_compute {i : Inputs} {ds : List Dimm} {p : Platform} {ctrl : Nat}
    (h : (CommonTiming.reconcile i.clock ds p ctrl).value = .ok i.common)
    (hcount : i.common.dimmCount ≠ 0) :
    ∃ f, (compute i false).value = .ok f ∧
      i.clock.Refreshes (CommonTiming.counted p ds) (Interval.refresh.get f.interval) := by
  obtain ⟨hne, cl, hcommon⟩ := CommonTiming.exists_eq_of_reconcile h hcount
  have hinterval : i.common.refreshInterval =
      (CommonTiming.ofDimms (CommonTiming.counted p ds)).refreshInterval := by
    rw [hcommon]
  refine ⟨registers i, by simp [compute, hcount], ?_⟩
  rw [show (registers i).interval = interval i from rfl, get_refresh_interval, hinterval]
  exact Clock.refreshes_mod (i.clock.isGreatest_refreshClocks hne)

/-- The image of a module of one rank, which may run in the extended temperature range with the
short refresh interval or does not run in that range at all. -/
def temperatureImage (extended : Bool) : Spd.Image :=
  .withCrc (.ofBytes ([0, 0, 0x0B, 2, 0, 0, 0, 1, 3, 0, 0, 1, 0, 0, 1] ++ List.replicate 16 0 ++
    [if extended then 1 else 0]))

/-- The module with that image. -/
def temperatureModule (extended : Bool) : Dimm where
  ranks := 1
  rankSize := 2 ^ 28
  capacity := 2 ^ 28
  primaryWidth := 64
  dataWidth := 64
  deviceWidth := 8
  rowBits := 12
  columnBits := 9
  banks := 8
  burstLengths := 0x0C
  casLatencies := 0x10
  refreshInterval := if extended then extendedRefreshPs else normalRefreshPs
  extendedTemperature := extended

set_option maxRecDepth 100000 in
theorem decode_temperatureImage (extended : Bool) :
    (temperatureImage extended).decode = .ok (temperatureModule extended) := by
  cases extended <;> decide +kernel

/-- A controller with two such modules, at 1600 million transfers per second. -/
def refreshed (extended₀ extended₁ : Bool) : Inputs :=
  let ds := [temperatureModule extended₀, temperatureModule extended₁]
  { clock := ⟨1600000000⟩
    options := {}
    common :=
      (CommonTiming.reconcile ⟨1600000000⟩ ds { Platform.singleSlot with slotCount := 2 }
        0).value.toOption.getD {}
    region := {}
    dimms := ds
    widthShift := 0
    revision := 0 }

/-- Two modules that need the short interval get it. -/
theorem refreshes_compute_alike :
    let p : Platform := { Platform.singleSlot with slotCount := 2 }
    let i := refreshed true true
    (CommonTiming.reconcile i.clock i.dimms p 0).value = .ok i.common ∧ i.common.dimmCount ≠ 0 ∧
      Described (CommonTiming.counted p i.dimms) ∧
      ∃ f, (compute i false).value = .ok f ∧
        Interval.refresh.get f.interval = i.clock.cyclesFor extendedRefreshPs := by
  intro p i
  have hok : (CommonTiming.reconcile i.clock i.dimms p 0).value = .ok i.common := by decide +kernel
  have hcount : i.common.dimmCount ≠ 0 := by decide +kernel
  have hmodules : ∀ d ∈ CommonTiming.counted p i.dimms, d = temperatureModule true := by decide
  have hdescribed : Described (CommonTiming.counted p i.dimms) := fun d hd =>
    ⟨temperatureImage true, (hmodules d hd).symm ▸ decode_temperatureImage true⟩
  obtain ⟨f, hf, hrefreshes⟩ := refreshes_compute hok hcount
  refine ⟨hok, hcount, hdescribed, f, hf, ?_⟩
  rw [hrefreshes.described hdescribed, if_pos fun d hd => (hmodules d hd).symm ▸ rfl]

/-- **A module that needs the short interval does not get it** beside one that does not need it: it
is refreshed every 6240 clocks, although it has to be every 3120. -/
theorem not_refreshed_besideNormal :
    let p : Platform := { Platform.singleSlot with slotCount := 2 }
    let i := refreshed false true
    (CommonTiming.reconcile i.clock i.dimms p 0).value = .ok i.common ∧ i.common.dimmCount = 2 ∧
      (compute i false).value = .ok (registers i) ∧
      Interval.refresh.get (registers i).interval = 6240 ∧
      temperatureModule true ∈ CommonTiming.counted p i.dimms ∧
      i.clock.cyclesFor (temperatureModule true).refreshInterval = 3120 := by
  decide +kernel

end Synthesis

end SdramBringup
