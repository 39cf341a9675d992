/-
**The common timing of a controller, from the modules that count.**

The modules of a controller are reconciled in steps: those that count are picked out, what they have
in common is computed, and a CAS latency is chosen for it. This module says what the steps come to
together. Which modules count depends on their slots only through those with four ranks; whether
there is a common timing depends on the choice of the latency alone; and each of its times is the
longest one among the modules.

Main definitions:

* `CommonTiming.counted` — the modules that count;
* `Timing.times` — the minimum times, one by one.

Main results:

* `CommonTiming.mem_counted_iff` — the modules that count are those in the slots that take part;
* `CommonTiming.value_reconcile`, `CommonTiming.warnings_reconcile` — **a reconciliation is the
  choice of a latency** for what the modules that count have in common;
* `CommonTiming.eq_of_reconcile` — a common timing, when there is one;
* `CommonTiming.isGreatest_times` — **every time is the longest among the modules**.
-/

import Mathlib.Order.Bounds.Basic
import SdramBringup.CommonTiming

set_option relaxedAutoImplicit false
set_option autoImplicit false

namespace SdramBringup

/-! ### The longest of several times -/

/-- A running maximum of numbers ends with the greatest of them. -/
theorem isGreatest_foldl_max {l : List Nat} (h : l ≠ []) :
    IsGreatest {x | x ∈ l} (l.foldl max 0) := by
  cases l with
  | nil => exact absurd rfl h
  | cons x l =>
      have hmax : (x :: l).max? = some ((x :: l).foldl max 0) := by
        rw [List.max?_cons', List.foldl_cons, Nat.zero_max]
      obtain ⟨hmem, hle⟩ := List.max?_eq_some_iff.1 hmax
      exact ⟨hmem, hle⟩

namespace Timing

/-- The minimum times, one by one. -/
def times : List (Timing → Nat) :=
  [tCK, tAA, tRCD, tRP, tRAS, tWR, tWTR, tRFC, tRRD, tRTP, tRC, tFAW]

/-- A property of all minimum times is one of each of them. -/
theorem forall_mem_times {P : (Timing → Nat) → Prop} :
    (∀ f ∈ times, P f) ↔
      P tCK ∧ P tAA ∧ P tRCD ∧ P tRP ∧ P tRAS ∧ P tWR ∧ P tWTR ∧ P tRFC ∧ P tRRD ∧ P tRTP ∧
        P tRC ∧ P tFAW := by
  simp only [times, List.forall_mem_cons, List.not_mem_nil, false_implies, implies_true, and_true]

theorem apply_slowest :
    ∀ f ∈ times, ∀ a b : Timing, f (slowest a b) = max (f a) (f b) := by
  rw [forall_mem_times]
  simp only [slowest, implies_true, and_self]

theorem apply_zero : ∀ f ∈ times, f {} = 0 := by
  rw [forall_mem_times]
  simp only [and_self]

/-- The slowest of several timings has the longest of each of their times. -/
theorem apply_foldl_slowest {f : Timing → Nat} (hf : f ∈ times) (ts : List Timing) (t : Timing) :
    f (ts.foldl slowest t) = (ts.map f).foldl max (f t) := by
  induction ts generalizing t with
  | nil => rfl
  | cons u ts ih => rw [List.foldl_cons, ih, apply_slowest f hf, List.map_cons, List.foldl_cons]

end Timing

namespace CommonTiming

theorem times_ofDimms {f : Timing → Nat} (hf : f ∈ Timing.times) (ds : List Dimm) :
    f (ofDimms ds).timing = (ds.map fun d => f d.timing).foldl max 0 := by
  rw [ofDimms, Timing.apply_foldl_slowest hf, Timing.apply_zero f hf, List.map_map]
  rfl

/-- **Every time of the common timing is the longest among the modules.** -/
theorem isGreatest_times {ds : List Dimm} (hne : ds ≠ []) {f : Timing → Nat}
    (hf : f ∈ Timing.times) :
    IsGreatest {x | ∃ d ∈ ds, f d.timing = x} (f (ofDimms ds).timing) := by
  rw [times_ofDimms hf]
  have hgreatest := isGreatest_foldl_max (l := ds.map fun d => f d.timing) (by simpa using hne)
  simpa only [List.mem_map] using hgreatest

/-- The refresh interval is the longest among the modules, too. -/
theorem isGreatest_refreshInterval {ds : List Dimm} (hne : ds ≠ []) :
    IsGreatest {x | ∃ d ∈ ds, d.refreshInterval = x} (ofDimms ds).refreshInterval := by
  have hgreatest := isGreatest_foldl_max (l := ds.map (·.refreshInterval)) (by simpa using hne)
  simp only [List.mem_map] at hgreatest
  exact hgreatest

/-- A bit of a shared mask is one that all masks have. -/
theorem getLsbD_sharedMask (first : BitVec 32) (masks : List (BitVec 32)) (n : Nat) :
    (sharedMask first masks).getLsbD n = true ↔
      first.getLsbD n = true ∧ ∀ m ∈ masks, m.getLsbD n = true := by
  rw [sharedMask]
  induction masks generalizing first with
  | nil => simp
  | cons m masks ih =>
      rw [List.foldl_cons, ih, BitVec.getLsbD_and, Bool.and_eq_true, List.forall_mem_cons, and_assoc]

/-! ### The modules that count -/

/-- The modules that count, in the order of their slots. -/
def counted (p : Platform) (ds : List Dimm) : List Dimm := (participants p ds).map (·.2)

/-- The modules that count are those in the slots that take part. -/
theorem mem_participants_iff {p : Platform} {ds : List Dimm} {slot : Nat} {d : Dimm} :
    (slot, d) ∈ participants p ds ↔ ds[slot]? = some d ∧ p.takesPart slot d = true := by
  rw [participants, List.mem_filter, numbered, List.mem_map]
  refine and_congr_left fun _ => ⟨?_, fun h => ⟨(d, slot), List.mem_zipIdx_iff_getElem?.2 h, rfl⟩⟩
  rintro ⟨⟨e, i⟩, hmem, hsame⟩
  obtain ⟨rfl, rfl⟩ := Prod.mk.inj hsame
  exact List.mem_zipIdx_iff_getElem?.1 hmem

theorem mem_counted_iff {p : Platform} {ds : List Dimm} {d : Dimm} :
    d ∈ counted p ds ↔ ∃ slot : Nat, ds[slot]? = some d ∧ p.takesPart slot d = true := by
  simp only [counted, List.mem_map, Prod.exists, exists_eq_right, mem_participants_iff]

/-- A further module that takes part is the last one that counts. -/
theorem counted_append_singleton {p : Platform} {ds : List Dimm} {d : Dimm}
    (h : p.takesPart ds.length d = true) : counted p (ds ++ [d]) = counted p ds ++ [d] := by
  simp [counted, participants, numbered, List.zipIdx_append, h]

/-- If no module is ignored, all modules count that are there. -/
theorem counted_eq_filter {p : Platform} {ds : List Dimm}
    (h : ∀ q ∈ ds.zipIdx, p.takesPart q.2 q.1 = !q.1.isEmpty) :
    counted p ds = ds.filter (!·.isEmpty) :=
  calc
    counted p ds
      = (ds.zipIdx.filter fun q => p.takesPart q.2 q.1).map (·.1) := by
        rw [counted, participants, numbered, List.filter_map, List.map_map]
        rfl
    _ = (ds.zipIdx.filter fun q => !q.1.isEmpty).map (·.1) := by rw [List.filter_congr h]
    _ = ds.filter (!·.isEmpty) := by
        conv_rhs => rw [← List.zipIdx_map_fst 0 ds, List.filter_map]
        rfl

/-! ### The reconciliation -/

/-- A mapped result is there if the result is. -/
theorem exists_of_map_eq_ok {ε α β : Type} {r : Except ε α} {f : α → β} {b : β}
    (h : r.map f = .ok b) : ∃ a, r = .ok a ∧ f a = b := by
  cases r with
  | error e => exact absurd h nofun
  | ok a => exact ⟨a, rfl, Except.ok.inj h⟩

section Reconcile

variable {clock : Clock} {ds : List Dimm} {p : Platform} {ctrl : Nat}

/-- Without modules that count there is no latency to choose. -/
theorem reconcile_of_nil (h : counted p ds = []) :
    (reconcile clock ds p ctrl).value = .ok {} ∧
      (reconcile clock ds p ctrl).warnings = ignored p ds ctrl := by
  rw [counted, List.map_eq_nil_iff] at h
  constructor
  · simp [reconcile, h]
  · rw [reconcile, h]
    exact List.append_nil _

/-- **Otherwise a reconciliation is the choice of a latency** for what the modules that count have in
common. -/
theorem value_reconcile (h : counted p ds ≠ []) :
    (reconcile clock ds p ctrl).value =
      (CasLatency.select clock (sharedLatencies (counted p ds)) (ofDimms (counted p ds)).timing
        ctrl).value.map fun cl => { ofDimms (counted p ds) with casLatency := cl } := by
  have hne : (counted p ds).isEmpty = false := List.isEmpty_eq_false_iff.2 h
  rw [counted] at hne ⊢
  simp only [reconcile, hne, Bool.false_eq_true, if_false, Noted.value_bind, Noted.value_pure]

/-- It warns of modules that are ignored, of modules that do not go together, and of what is unusual
about the latency. -/
theorem warnings_reconcile (h : counted p ds ≠ []) :
    (reconcile clock ds p ctrl).warnings =
      ignored p ds ctrl ++ mismatches (counted p ds) ctrl ++
        (CasLatency.select clock (sharedLatencies (counted p ds)) (ofDimms (counted p ds)).timing
          ctrl).warnings := by
  have hne : (counted p ds).isEmpty = false := List.isEmpty_eq_false_iff.2 h
  rw [counted] at hne ⊢
  simp only [reconcile, hne, Bool.false_eq_true, if_false, Noted.warnings_bind, Noted.warnings_pure,
    List.append_nil, List.append_assoc]
  rfl

/-- **A common timing** is what the modules that count have in common, with a latency that was chosen
for them. -/
theorem eq_of_reconcile {common : CommonTiming}
    (h : (reconcile clock ds p ctrl).value = .ok common) :
    (counted p ds = [] ∧ common = {}) ∨
      ∃ cl, common = { ofDimms (counted p ds) with casLatency := cl } := by
  by_cases hnone : counted p ds = []
  · rw [(reconcile_of_nil hnone).1] at h
    exact .inl ⟨hnone, (Except.ok.inj h).symm⟩
  · rw [value_reconcile hnone] at h
    obtain ⟨cl, -, rfl⟩ := exists_of_map_eq_ok h
    exact .inr ⟨cl, rfl⟩

/-- The common timing of modules counts those that take part. -/
theorem dimmCount_of_reconcile {common : CommonTiming}
    (h : (reconcile clock ds p ctrl).value = .ok common) :
    common.dimmCount = (counted p ds).length := by
  obtain ⟨hnone, rfl⟩ | ⟨cl, rfl⟩ := eq_of_reconcile h
  · rw [hnone]
    rfl
  · rfl

/-- A common timing with modules is that of some modules that count. -/
theorem exists_eq_of_reconcile {common : CommonTiming}
    (h : (reconcile clock ds p ctrl).value = .ok common) (hcount : common.dimmCount ≠ 0) :
    counted p ds ≠ [] ∧ ∃ cl, common = { ofDimms (counted p ds) with casLatency := cl } := by
  obtain ⟨-, rfl⟩ | heq := eq_of_reconcile h
  · exact absurd rfl hcount
  · refine ⟨fun hnone => hcount ?_, heq⟩
    rw [dimmCount_of_reconcile h, hnone]
    rfl

end Reconcile

end CommonTiming

end SdramBringup
