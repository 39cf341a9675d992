/-
**Ranges of addresses that follow each other.**

What the placement promises is a statement about ranges: they follow each other from the first
address of the memory on. From that follows what the users of the map care about, that an address
belongs to one range only and that none is left out.

Main definitions:

* `Region.Contains`, `Region.Disjoint` — the addresses of a range, and ranges that share none;
* `Region.Tiles` — ranges that follow each other without gap or overlap;
* `Region.Partition` — ranges that divide the addresses of an interval among themselves;
* `Region.hull` — consecutive ranges as one.

Main results:

* `Region.tiles_append`, `Region.tiles_flatMap` — what is tiled piece by piece is tiled;
* `Region.tiles_map_range` — equal ranges one after another;
* `Region.tiles_map_hull` — consecutive ranges of a tiling may be joined;
* `Region.Tiles.partition` — **ranges that follow each other divide the interval**;
* `Region.Tiles.forall_stop_le_iff` — when some ranges of a tiling reach no further than they would
  on their own.
-/

import Mathlib.Data.List.Basic
import SdramBringup.Synthesis.Inputs

set_option relaxedAutoImplicit false
set_option autoImplicit false

namespace SdramBringup.Region

/-- The address lies in the range. -/
def Contains (r : Region) (a : Nat) : Prop := r.base ≤ a ∧ a < r.stop

/-- No address lies in both ranges. -/
def Disjoint (r q : Region) : Prop := ∀ a, ¬(r.Contains a ∧ q.Contains a)

/-- The ranges follow each other from a first address to an end, each one where the one before
ends. -/
inductive Tiles : Nat → List Region → Nat → Prop where
  | nil (start : Nat) : Tiles start [] start
  | cons {r : Region} {rs : List Region} {stop : Nat} (h : Tiles r.stop rs stop) :
      Tiles r.base (r :: rs) stop

/-- Every address from `start` on and below `stop` is in exactly one of the ranges, and no other
address is in any of them. -/
structure Partition (start stop : Nat) (rs : List Region) : Prop where
  apart : rs.Pairwise Disjoint
  covers : ∀ a, (∃ r ∈ rs, r.Contains a) ↔ start ≤ a ∧ a < stop

@[simp] theorem stop_mk (base size : Nat) : (Region.mk base size).stop = base + size := rfl

/-- A range is known by where it starts and where it ends. -/
theorem eq_of_stop {r q : Region} (hbase : r.base = q.base) (hstop : r.stop = q.stop) : r = q := by
  obtain ⟨base, size⟩ := r
  obtain ⟨base', size'⟩ := q
  obtain rfl : base = base' := hbase
  obtain rfl : size = size' := Nat.add_left_cancel hstop
  rfl

@[simp] theorem tiles_nil {start stop : Nat} : Tiles start [] stop ↔ start = stop := by
  constructor
  · rintro ⟨⟩
    rfl
  · rintro rfl
    exact .nil start

@[simp] theorem tiles_cons {start stop : Nat} {r : Region} {rs : List Region} :
    Tiles start (r :: rs) stop ↔ r.base = start ∧ Tiles r.stop rs stop := by
  constructor
  · rintro ⟨⟩
    exact ⟨rfl, by assumption⟩
  · rintro ⟨rfl, h⟩
    exact .cons h

/-- Two tilings that meet make one. -/
theorem tiles_append {start stop : Nat} {rs qs : List Region} :
    Tiles start (rs ++ qs) stop ↔ ∃ mid, Tiles start rs mid ∧ Tiles mid qs stop := by
  induction rs generalizing start with
  | nil => simp
  | cons r rs ih => simp [ih, and_assoc]

theorem Tiles.le {start stop : Nat} {rs : List Region} (h : Tiles start rs stop) :
    start ≤ stop := by
  induction h with
  | nil start => exact Nat.le_refl start
  | @cons r rs stop h ih => exact Nat.le_trans (Nat.le_add_right r.base r.size) ih

/-- A range of a tiling lies within it. -/
theorem Tiles.bounds {start stop : Nat} {rs : List Region} (h : Tiles start rs stop) {q : Region}
    (hq : q ∈ rs) : start ≤ q.base ∧ q.stop ≤ stop := by
  induction h with
  | nil start => simp at hq
  | @cons r rs stop h ih =>
      rcases List.mem_cons.1 hq with rfl | hq
      · exact ⟨Nat.le_refl _, h.le⟩
      · have hr : r.base ≤ r.stop := Nat.le_add_right r.base r.size
        exact ⟨Nat.le_trans hr (ih hq).1, (ih hq).2⟩

/-- A tiling is as long as its ranges together. -/
theorem Tiles.stop_eq {start stop : Nat} {rs : List Region} (h : Tiles start rs stop) :
    stop = start + (rs.map (·.size)).sum := by
  induction h with
  | nil start => rfl
  | @cons r rs stop h ih => rw [ih, List.map_cons, List.sum_cons, Region.stop, Nat.add_assoc]

/-- A tiling ends within a bound if its start and all ranges of some size do. -/
theorem Tiles.stop_le {start stop bound : Nat} {rs : List Region} (h : Tiles start rs stop)
    (hstart : start ≤ bound) (hle : ∀ r ∈ rs, 0 < r.size → r.stop ≤ bound) : stop ≤ bound := by
  induction h with
  | nil start => exact hstart
  | @cons r rs stop h ih =>
      refine ih ?_ fun q hq => hle q (List.mem_cons_of_mem r hq)
      rcases Nat.eq_zero_or_pos r.size with hzero | hpos
      · rwa [Region.stop, hzero]
      · exact hle r List.mem_cons_self hpos

/-- The last range of a tiling ends where the tiling does. -/
theorem Tiles.exists_stop {start stop : Nat} {rs : List Region} (h : Tiles start rs stop)
    (hne : rs ≠ []) : ∃ r ∈ rs, r.stop = stop := by
  induction h with
  | nil start => exact absurd rfl hne
  | @cons r rs stop h ih =>
      cases rs with
      | nil => exact ⟨r, List.mem_cons_self, tiles_nil.1 h⟩
      | cons q rs =>
          obtain ⟨p, hp, hstop⟩ := ih (by simp)
          exact ⟨p, List.mem_cons_of_mem r hp, hstop⟩

/-- What is tiled by ranges that are themselves tiled is tiled by the smaller ones. -/
theorem tiles_flatMap {α : Type} {start stop : Nat} {as : List α} {r : α → Region}
    {f : α → List Region} (h : Tiles start (as.map r) stop)
    (hf : ∀ a ∈ as, Tiles (r a).base (f a) (r a).stop) : Tiles start (as.flatMap f) stop := by
  induction as generalizing start with
  | nil => exact h
  | cons a as ih =>
      obtain ⟨rfl, hrest⟩ := tiles_cons.1 h
      rw [List.flatMap_cons, tiles_append]
      exact ⟨(r a).stop, hf a List.mem_cons_self,
        ih hrest fun b hb => hf b (List.mem_cons_of_mem a hb)⟩

/-- Equal ranges one after another. -/
theorem tiles_map_range (base size n : Nat) :
    Tiles base ((List.range n).map fun i => ⟨base + i * size, size⟩) (base + n * size) := by
  induction n with
  | zero => simp
  | succ n ih =>
      rw [List.range_succ, List.map_append, tiles_append]
      refine ⟨base + n * size, ih, ?_⟩
      rw [List.map_singleton, tiles_cons, stop_mk, tiles_nil, Nat.add_assoc, ← Nat.succ_mul]
      exact ⟨rfl, rfl⟩

/-- Ranges whose sizes are on a grid keep to the grid that they start on. -/
theorem Tiles.dvd {n start stop : Nat} {rs : List Region} (h : Tiles start rs stop)
    (hstart : n ∣ start) (hsize : ∀ r ∈ rs, n ∣ r.size) : (∀ r ∈ rs, n ∣ r.base) ∧ n ∣ stop := by
  induction h with
  | nil start => exact ⟨fun r hr => absurd hr List.not_mem_nil, hstart⟩
  | @cons r rs stop h ih =>
      have hstop : n ∣ r.stop := Nat.dvd_add hstart (hsize r List.mem_cons_self)
      obtain ⟨hbases, hlast⟩ := ih hstop fun q hq => hsize q (List.mem_cons_of_mem r hq)
      refine ⟨fun q hq => ?_, hlast⟩
      rcases List.mem_cons.1 hq with rfl | hq
      · exact hstart
      · exact hbases q hq

/-- **Ranges that follow each other divide the interval that they tile.** -/
theorem Tiles.partition {start stop : Nat} {rs : List Region} (h : Tiles start rs stop) :
    Partition start stop rs := by
  induction h with
  | nil start =>
      refine ⟨List.Pairwise.nil, fun a => ?_⟩
      simp only [List.not_mem_nil, false_and, exists_false, false_iff]
      omega
  | @cons r rs stop h hrest =>
      have hle : r.base ≤ r.stop := Nat.le_add_right r.base r.size
      have hstop : r.stop ≤ stop := h.le
      refine ⟨List.pairwise_cons.2 ⟨?_, hrest.apart⟩, fun a => ?_⟩
      · -- whatever is in a later range is at the end of the first one or beyond
        rintro q hq a ⟨hr, hqa⟩
        have hafter := ((hrest.covers a).1 ⟨q, hq, hqa⟩).1
        exact Nat.lt_irrefl a (Nat.lt_of_lt_of_le hr.2 hafter)
      · simp only [List.mem_cons, exists_eq_or_imp]
        rw [hrest.covers a, Contains]
        omega

/-! ### Joined ranges -/

/-- Consecutive ranges as one: from where the first one starts, as long as all of them together. -/
def hull : List Region → Region
  | [] => {}
  | r :: rs => ⟨r.base, ((r :: rs).map (·.size)).sum⟩

theorem size_hull (rs : List Region) : (hull rs).size = (rs.map (·.size)).sum := by
  cases rs <;> rfl

/-- A tiling whose ranges are joined, run by run, is a tiling of the same interval. -/
theorem tiles_map_hull {start stop : Nat} {rss : List (List Region)}
    (h : Tiles start rss.flatten stop) :
    Tiles start ((rss.filter (!·.isEmpty)).map hull) stop := by
  induction rss generalizing start with
  | nil => exact h
  | cons rs rss ih =>
      rw [List.flatten_cons, tiles_append] at h
      obtain ⟨mid, hrun, hrest⟩ := h
      cases rs with
      | nil =>
          obtain rfl := tiles_nil.1 hrun
          exact ih hrest
      | cons r rs =>
          have hlength := hrun.stop_eq
          obtain ⟨rfl, -⟩ := tiles_cons.1 hrun
          have hstop : (hull (r :: rs)).stop = mid := hlength.symm
          exact tiles_cons.2 ⟨rfl, hstop ▸ ih hrest⟩

/-! ### Marked ranges -/

section Marked

variable {α : Type} {start stop : Nat} {as : List α} {r : α → Region} {P : α → Bool}

/-- The last of the marked ranges of a tiling ends no earlier than all of them would on their
own. -/
theorem Tiles.exists_sum_filter_le (h : Tiles start (as.map r) stop)
    (hmarked : ∃ a ∈ as, P a = true) :
    ∃ a ∈ as, P a = true ∧ start + ((as.filter P).map fun a => (r a).size).sum ≤ (r a).stop := by
  induction as generalizing start with
  | nil => simp at hmarked
  | cons a as ih =>
      obtain ⟨rfl, hrest⟩ := tiles_cons.1 h
      have hstop : (r a).stop = (r a).base + (r a).size := rfl
      by_cases hlater : ∃ b ∈ as, P b = true
      · obtain ⟨b, hb, hPb, hle⟩ := ih hrest hlater
        refine ⟨b, List.mem_cons_of_mem a hb, hPb, ?_⟩
        cases hP : P a with
        | true =>
            rw [List.filter_cons_of_pos hP, List.map_cons, List.sum_cons]
            omega
        | false =>
            rw [List.filter_cons_of_neg (by simp [hP])]
            omega
      · have hnil : as.filter P = [] := List.filter_eq_nil_iff.2 fun b hb hPb => hlater ⟨b, hb, hPb⟩
        obtain ⟨b, hb, hPb⟩ := hmarked
        rcases List.mem_cons.1 hb with rfl | hb
        · refine ⟨b, List.mem_cons_self, hPb, ?_⟩
          rw [List.filter_cons_of_pos hPb, hnil]
          simp [hstop]
        · exact absurd ⟨b, hb, hPb⟩ hlater

/-- **Marked ranges are where they would be on their own exactly when nothing else takes room before
them.** -/
theorem Tiles.forall_stop_le_iff (h : Tiles start (as.map r) stop) :
    (∀ a ∈ as, P a = true → (r a).stop ≤ start + ((as.filter P).map fun a => (r a).size).sum) ↔
      as.Pairwise fun a b => P a = false → P b = true → (r a).size = 0 := by
  induction as generalizing start with
  | nil => simp
  | cons a as ih =>
      obtain ⟨rfl, hrest⟩ := tiles_cons.1 h
      have hstop : (r a).stop = (r a).base + (r a).size := rfl
      rw [List.pairwise_cons, ← ih hrest, List.forall_mem_cons]
      cases hP : P a with
      | true =>
          rw [List.filter_cons_of_pos hP, List.map_cons, List.sum_cons, hstop]
          simp only [← Nat.add_assoc]
          refine ⟨fun h => ⟨by simp, h.2⟩, fun h => ⟨fun _ => Nat.le_add_right _ _, h.2⟩⟩
      | false =>
          rw [List.filter_cons_of_neg (by simp [hP])]
          constructor
          · rintro ⟨-, hle⟩
            have hsize : ∀ b ∈ as, P b = true → (r a).size = 0 := by
              intro b hb hPb
              -- the last marked range is behind this one and all marked ones
              obtain ⟨c, hc, hPc, hend⟩ := hrest.exists_sum_filter_le ⟨b, hb, hPb⟩
              have := hle c hc hPc
              omega
            exact ⟨fun b hb _ => hsize b hb, fun b hb hPb => Nat.le_trans (hle b hb hPb) (by omega)⟩
          · rintro ⟨hsize, hle⟩
            refine ⟨by simp, fun b hb hPb => ?_⟩
            have hzero := hsize b hb rfl hPb
            have := hle b hb hPb
            omega

end Marked

end SdramBringup.Region
