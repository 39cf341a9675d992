/-
**Which row of a board's table is found.**

A table is searched for the row of a module in one pass. The first row for the module that covers the
data rate ends the search, and on the way the fastest row for the module is kept, in case that none
covers the rate. The rows for other modules stand between these in any order. This module says what
is found in terms of the rows for the module alone, and what more is known where these are in
ascending order of their ceilings, as in a table that was measured from slow to fast.

Main definitions:

* `BoardEntry.rowsFor` — the rows of a table that are for a module;
* `BoardEntry.pick` — the row that is picked among them;
* `BoardEntry.Ascending` — rows in the order of their ceilings;
* `BoardEntry.FindsRow` — **what is found in a table**.

Main results:

* `BoardEntry.search_eq_pick` — a search that is under way picks among the rows that were seen and
  those that are left;
* `BoardEntry.Ascending.isLeast`, `BoardEntry.Ascending.ceiling_le` — among ascending rows the one with
  the least ceiling that covers the rate is picked, and never a slower one for a higher rate;
* `BoardEntry.findsRow` — **the right row is found**.
-/

import Mathlib.Data.List.MinMax
import SdramBringup.Board
import SdramBringup.Proofs.CasLatency

set_option relaxedAutoImplicit false
set_option autoImplicit false

namespace SdramBringup

/-- The row that was found, whether or not it covers the data rate. -/
def BoardMatch.row? : BoardMatch → Option BoardEntry
  | exact e => some e
  | fastest e => some e
  | missing => none

theorem BoardMatch.row?_eq_some_iff {m : BoardMatch} {e : BoardEntry} :
    m.row? = some e ↔ m = .exact e ∨ m = .fastest e := by
  cases m <;> simp [row?]

namespace BoardEntry

/-! ### The rows for a module -/

/-- The rows of a table for modules with as many ranks, and for ranks of this size. -/
def rowsFor (table : List BoardEntry) (d : Dimm) : List BoardEntry :=
  table.filter fun e => e.ranks = d.ranks ∧ e.leastRankGib ≤ d.rankSize / 2 ^ 30

theorem fits_iff {e : BoardEntry} {d : Dimm} :
    e.fits d = true ↔ e.ranks = d.ranks ∧ e.leastRankGib ≤ d.rankSize / 2 ^ 30 := by
  simp [fits]

theorem rowsFor_cons_of_fits {e : BoardEntry} {d : Dimm} (h : e.fits d = true)
    (table : List BoardEntry) : rowsFor (e :: table) d = e :: rowsFor table d :=
  List.filter_cons_of_pos (decide_eq_true (fits_iff.1 h))

theorem rowsFor_cons_of_not_fits {e : BoardEntry} {d : Dimm} (h : ¬e.fits d = true)
    (table : List BoardEntry) : rowsFor (e :: table) d = rowsFor table d :=
  List.filter_cons_of_neg fun hfits => h (fits_iff.2 (of_decide_eq_true hfits))

/-! ### The row that is picked -/

/-- The row of some rows for a data rate: the first one that covers it, otherwise the first one of the
fastest. -/
def pick (rate : Nat) (rows : List BoardEntry) : BoardMatch :=
  match rows.find? (rate ≤ ·.ceiling), rows.argmax (·.ceiling) with
  | some e, _ => .exact e
  | none, some e => .fastest e
  | none, none => .missing

section Pick

variable {rate : Nat} {rows : List BoardEntry} {e : BoardEntry}

theorem find?_ceiling_eq_none_iff :
    rows.find? (rate ≤ ·.ceiling) = none ↔ ∀ f ∈ rows, f.ceiling < rate := by
  simp

theorem pick_eq_exact_iff :
    pick rate rows = .exact e ↔ rows.find? (rate ≤ ·.ceiling) = some e := by
  cases hfind : rows.find? (rate ≤ ·.ceiling) with
  | some f => simp [pick, hfind]
  | none => cases hmax : rows.argmax (·.ceiling) <;> simp [pick, hfind, hmax]

theorem pick_eq_fastest_iff :
    pick rate rows = .fastest e ↔
      (∀ f ∈ rows, f.ceiling < rate) ∧ rows.argmax (·.ceiling) = some e := by
  rw [← find?_ceiling_eq_none_iff]
  cases hfind : rows.find? (rate ≤ ·.ceiling) with
  | some f => simp [pick, hfind]
  | none => cases hmax : rows.argmax (·.ceiling) <;> simp [pick, hfind, hmax]

theorem pick_eq_missing_iff : pick rate rows = .missing ↔ rows = [] := by
  constructor
  · intro h
    rw [← List.argmax_eq_none (f := (·.ceiling))]
    cases hfind : rows.find? (rate ≤ ·.ceiling) with
    | some f => simp [pick, hfind] at h
    | none => cases hmax : rows.argmax (·.ceiling) <;> simp_all [pick]
  · rintro rfl
    rfl

end Pick

/-! ### The search -/

/-- The fastest row so far is the first one of the fastest among the rows that were seen. -/
theorem faster_argmax (seen : List BoardEntry) (e : BoardEntry) :
    some (faster (seen.argmax (·.ceiling)) e) = (seen ++ [e]).argmax (·.ceiling) := by
  rw [List.argmax_concat]
  cases seen.argmax (·.ceiling) with
  | none => rfl
  | some f =>
      simp only [faster]
      split <;> rfl

/-- **A search that is under way** has seen rows that do not cover the rate, and has kept the fastest
of them. It picks among these and the rows for the module that are left. -/
theorem search_eq_pick (d : Dimm) {rate : Nat} (table : List BoardEntry) {seen : List BoardEntry}
    (hseen : ∀ e ∈ seen, e.ceiling < rate) :
    search d rate (seen.argmax (·.ceiling)) table = pick rate (seen ++ rowsFor table d) := by
  induction table generalizing seen with
  | nil =>
      rw [rowsFor, List.filter_nil, List.append_nil, pick, find?_ceiling_eq_none_iff.2 hseen]
      cases seen.argmax (·.ceiling) <;> rfl
  | cons e table ih =>
      rw [search]
      by_cases hfits : e.fits d = true
      · rw [if_pos hfits, rowsFor_cons_of_fits hfits]
        by_cases hcovers : rate ≤ e.ceiling
        · have hfirst : (seen ++ e :: rowsFor table d).find? (rate ≤ ·.ceiling) = some e := by
            rw [List.find?_append, find?_ceiling_eq_none_iff.2 hseen, Option.none_or]
            exact List.find?_cons_of_pos (decide_eq_true hcovers)
          rw [if_pos hcovers, pick_eq_exact_iff.2 hfirst]
        · have hslower : ∀ f ∈ seen ++ [e], f.ceiling < rate := by
            intro f hf
            rcases List.mem_append.1 hf with hf | hf
            · exact hseen f hf
            · rw [List.mem_singleton.1 hf]
              exact Nat.lt_of_not_le hcovers
          rw [if_neg hcovers, faster_argmax, ih hslower, List.append_assoc, List.singleton_append]
      · rw [if_neg hfits, rowsFor_cons_of_not_fits hfits]
        exact ih hseen

theorem lookup_eq_pick (table : List BoardEntry) (d : Dimm) (rate : Nat) :
    lookup table d rate = pick rate (rowsFor table d) :=
  search_eq_pick d table (List.forall_mem_nil _)

/-! ### Rows in ascending order -/

/-- The rows are in the order of their ceilings. -/
def Ascending (rows : List BoardEntry) : Prop := rows.Pairwise (·.ceiling ≤ ·.ceiling)

instance (rows : List BoardEntry) : Decidable (Ascending rows) :=
  inferInstanceAs (Decidable (rows.Pairwise _))

section Ascending

variable {rate rate' : Nat} {rows : List BoardEntry} {e e' : BoardEntry}

theorem mem_of_pick (h : (pick rate rows).row? = some e) : e ∈ rows := by
  rcases BoardMatch.row?_eq_some_iff.1 h with h | h
  · exact List.mem_of_find?_eq_some (pick_eq_exact_iff.1 h)
  · exact List.argmax_mem (pick_eq_fastest_iff.1 h).2

/-- Of ascending rows the first one that covers the rate has the least ceiling that does. -/
theorem Ascending.isLeast (hrows : Ascending rows) (h : pick rate rows = .exact e) :
    IsLeast {c | ∃ f ∈ rows, rate ≤ f.ceiling ∧ f.ceiling = c} e.ceiling := by
  simpa only [decide_eq_true_eq] using isLeast_image_of_find? hrows (pick_eq_exact_iff.1 h)

/-- **A higher rate never picks a slower row** of ascending ones. -/
theorem Ascending.ceiling_le (hrows : Ascending rows) (hrate : rate ≤ rate')
    (h : (pick rate rows).row? = some e) (h' : (pick rate' rows).row? = some e') :
    e.ceiling ≤ e'.ceiling := by
  have hmem := mem_of_pick h
  have hmem' := mem_of_pick h'
  rcases BoardMatch.row?_eq_some_iff.1 h' with hexact' | hfastest'
  · have hcovers' : rate' ≤ e'.ceiling := by
      simpa using List.find?_some (pick_eq_exact_iff.1 hexact')
    rcases BoardMatch.row?_eq_some_iff.1 h with hexact | hfastest
    · -- the row for the higher rate covers the lower one, too
      exact (hrows.isLeast hexact).2 ⟨e', hmem', hrate.trans hcovers', rfl⟩
    · have hslow := (pick_eq_fastest_iff.1 hfastest).1 e' hmem'
      omega
  · exact List.le_of_mem_argmax hmem (pick_eq_fastest_iff.1 hfastest').2

end Ascending

/-! ### What is found -/

/-- What is found in a table for a module, at every data rate. -/
structure FindsRow (table : List BoardEntry) (d : Dimm) : Prop where
  /-- The first row for the module that covers the rate, -/
  exact_iff : ∀ rate e, lookup table d rate = .exact e ↔
    (rowsFor table d).find? (rate ≤ ·.ceiling) = some e
  /-- if there is none, the first one of the fastest rows for the module, -/
  fastest_iff : ∀ rate e, lookup table d rate = .fastest e ↔
    (∀ f ∈ rowsFor table d, f.ceiling < rate) ∧ (rowsFor table d).argmax (·.ceiling) = some e
  /-- and none if no row is for the module. -/
  missing_iff : ∀ rate, lookup table d rate = .missing ↔ rowsFor table d = []
  /-- In ascending rows for the module, a row that covers the rate is the slowest one that does, -/
  least : Ascending (rowsFor table d) → ∀ rate e, lookup table d rate = .exact e →
    IsLeast {c | ∃ f ∈ rowsFor table d, rate ≤ f.ceiling ∧ f.ceiling = c} e.ceiling
  /-- and the row for a higher rate is no slower. -/
  mono : Ascending (rowsFor table d) → ∀ rate rate' e e', rate ≤ rate' →
    (lookup table d rate).row? = some e → (lookup table d rate').row? = some e' →
    e.ceiling ≤ e'.ceiling

/-- **The right row is found**, in every table and for every module. -/
theorem findsRow (table : List BoardEntry) (d : Dimm) : FindsRow table d := by
  constructor
  case exact_iff =>
    intro rate e
    rw [lookup_eq_pick, pick_eq_exact_iff]
  case fastest_iff =>
    intro rate e
    rw [lookup_eq_pick, pick_eq_fastest_iff]
  case missing_iff =>
    intro rate
    rw [lookup_eq_pick, pick_eq_missing_iff]
  case least =>
    intro hrows rate e h
    rw [lookup_eq_pick] at h
    exact hrows.isLeast h
  case mono =>
    intro hrows rate rate' e e' hrate h h'
    rw [lookup_eq_pick] at h h'
    exact hrows.ceiling_le hrate h h'

/-- The rows of the measured board for modules with two ranks ascend. The second one is the slowest
that covers 1333 million transfers per second, and none covers 1866. -/
example :
    let d : Dimm := { ranks := 2 }
    let table := Board.reference.table
    Ascending (rowsFor table d) ∧
      (lookup table d 1333).row?.map (·.ceiling) = some 1350 ∧
      lookup table d 1866 = .fastest ⟨2, 1666, 0, 4, 7, 0x0808090B, 0x0C0D0E0A⟩ := by
  decide

end BoardEntry

end SdramBringup
