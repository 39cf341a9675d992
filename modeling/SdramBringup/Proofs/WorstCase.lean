/-
**The common timing is the worst case of the modules.**

A controller runs its modules with one timing, gathered in a single pass over the slots. This module
says what is gathered, entry by entry, for a population of any length, and when the modules are
reported not to go together. Since every entry is about the modules as a set, neither their order
nor the empty slots between them matter. The only exception are the control words, which are those
of the first module.

Main definitions:

* `CommonTiming.IsBound` — a clock period that is a bound;
* `CommonTiming.WorstCase` — **a timing is the worst case of some modules**;
* `CommonTiming.TellsMismatches` — what is reported of modules that do not go together;
* `SameModules` — populations that differ in the order of the slots and in empty ones only.

Main results:

* `CommonTiming.worstCase_ofDimms` — what modules have in common is their worst case;
* `CommonTiming.withoutWords_ofDimms_perm`, `CommonTiming.mismatches_perm` — in any order;
* `CommonTiming.reconcile_sameModules` — the same modules have the same timing;
* `CommonTiming.reconcile_worstCase` — **the timing of a controller**.
-/

import Mathlib.Data.List.Perm.Basic
import SdramBringup.Proofs.CommonTiming

set_option relaxedAutoImplicit false
set_option autoImplicit false

namespace SdramBringup

/-- A running minimum of numbers ends with the least of them and of where it started. -/
theorem isLeast_foldl_min (l : List Nat) (a : Nat) : IsLeast {x | x ∈ a :: l} (l.foldl min a) := by
  have hmin : (a :: l).min? = some (l.foldl min a) := List.min?_cons'
  exact List.min?_eq_some_iff.1 hmin

namespace CommonTiming

/-! ### The bound on the clock period -/

/-- A clock period that is a bound. Zero says that there is none, and so does the largest number of
32 bits. -/
def IsBound (period : Nat) : Prop := period ≠ 0 ∧ period < Clock.limit

/-- The shortest bound is the least one, or zero if there is none. -/
theorem shortestBound_spec (bounds : List Nat) :
    IsLeast {x | x ∈ bounds ∧ IsBound x} (shortestBound bounds) ∨
      shortestBound bounds = 0 ∧ ∀ x ∈ bounds, ¬IsBound x := by
  obtain ⟨hmem, hle⟩ := isLeast_foldl_min (bounds.filter (· ≠ 0)) Clock.limit
  have hbelow : ∀ x ∈ bounds, IsBound x →
      (bounds.filter (· ≠ 0)).foldl min Clock.limit ≤ x := by
    intro x hx hbound
    exact hle (List.mem_cons_of_mem _ (List.mem_filter.2 ⟨hx, by simpa using hbound.1⟩))
  rw [shortestBound]
  by_cases hlimit : (bounds.filter (· ≠ 0)).foldl min Clock.limit = Clock.limit
  · rw [if_pos hlimit]
    refine .inr ⟨rfl, fun x hx hbound => ?_⟩
    exact absurd hbound.2 (Nat.not_lt_of_le (hlimit ▸ hbelow x hx hbound))
  · rw [if_neg hlimit]
    refine .inl ⟨?_, fun x hx => hbelow x hx.1 hx.2⟩
    obtain ⟨hin, hpos⟩ := List.mem_filter.1 ((List.mem_cons.1 hmem).resolve_left hlimit)
    have hmax : (bounds.filter (· ≠ 0)).foldl min Clock.limit ≤ Clock.limit :=
      hle List.mem_cons_self
    exact ⟨hin, by simpa using hpos, Nat.lt_of_le_of_ne hmax hlimit⟩

/-! ### The kinds of modules -/

theorem onlyRegistered_iff {ds : List Dimm} (hne : ds ≠ []) :
    onlyRegistered ds = true ↔ ∀ d ∈ ds, d.registered = true := by
  obtain ⟨d, hd⟩ := List.exists_mem_of_ne_nil ds hne
  simp only [onlyRegistered, Bool.and_eq_true, List.any_eq_true, Bool.not_eq_true',
    List.any_eq_false, Bool.not_eq_false]
  exact ⟨fun h => h.2, fun h => ⟨⟨d, hd, h d hd⟩, h⟩⟩

theorem onlyUnbuffered_iff {ds : List Dimm} (hne : ds ≠ []) :
    onlyUnbuffered ds = true ↔ ∀ d ∈ ds, d.registered = false := by
  obtain ⟨d, hd⟩ := List.exists_mem_of_ne_nil ds hne
  simp only [onlyUnbuffered, Bool.and_eq_true, List.any_eq_true, Bool.not_eq_true',
    List.any_eq_false, Bool.not_eq_true]
  exact ⟨fun h => h.2, fun h => ⟨⟨d, hd, h d hd⟩, h⟩⟩

/-- Words that differ from those of the first module are words that differ at all. -/
theorem wordsDiffer_iff {ds : List Dimm} :
    wordsDiffer ds = true ↔ ∃ d ∈ ds, ∃ e ∈ ds, d.controlWords ≠ e.controlWords := by
  cases ds with
  | nil => simp [wordsDiffer]
  | cons first ds =>
      rw [wordsDiffer, List.any_eq_true]
      constructor
      · rintro ⟨e, he, hdiffer⟩
        exact ⟨first, List.mem_cons_self, e, List.mem_cons_of_mem _ he, bne_iff_ne.1 hdiffer⟩
      · rintro ⟨d, hd, e, he, hdiffer⟩
        by_contra hsame
        -- if all words are those of the first module, no two of them differ
        have hfirst : ∀ d ∈ first :: ds, first.controlWords = d.controlWords := by
          refine List.forall_mem_cons.2 ⟨rfl, fun d hd => ?_⟩
          by_contra hne
          exact hsame ⟨d, hd, bne_iff_ne.2 hne⟩
        exact hdiffer ((hfirst d hd).symm.trans (hfirst e he))

/-! ### The worst case -/

/-- The timing is the worst case of the modules: what holds for all of them, and nothing that is
worse. -/
structure WorstCase (ds : List Dimm) (t : CommonTiming) : Prop where
  /-- Every minimum time is the longest one. -/
  times : ∀ f ∈ Timing.times, IsGreatest {x | ∃ d ∈ ds, f d.timing = x} (f t.timing)
  /-- The clock period is bounded by the shortest bound, if there is one. -/
  maxClockPeriod :
    IsLeast {x | x ∈ ds.map (·.maxClockPeriod) ∧ IsBound x} t.maxClockPeriod ∨
      t.maxClockPeriod = 0 ∧ ∀ x ∈ ds.map (·.maxClockPeriod), ¬IsBound x
  /-- Of the low eight bits of the masks, those are left that all modules have. -/
  burstLengths : ∀ n, t.burstLengths.getLsbD n = true ↔
    n < 8 ∧ ∀ d ∈ ds, d.burstLengths.getLsbD n = true
  eccCapable : t.allEccCapable = true ↔ ∀ d ∈ ds, d.eccCapable = true
  extendedTemperature : t.extendedTemperature = true ↔ ∀ d ∈ ds, d.extendedTemperature = true
  registered : t.allRegistered = true ↔ ∀ d ∈ ds, d.registered = true
  unbuffered : t.allUnbuffered = true ↔ ∀ d ∈ ds, d.registered = false
  dimmCount : t.dimmCount = ds.length

/-- **What modules have in common is their worst case**, whatever latency is chosen for them. -/
theorem worstCase_ofDimms {ds : List Dimm} (hne : ds ≠ []) (cl : Nat) :
    WorstCase ds { ofDimms ds with casLatency := cl } where
  times f hf := isGreatest_times hne hf
  maxClockPeriod := shortestBound_spec _
  burstLengths n := by
    have hlow : (0xFF : BitVec 32).getLsbD n = true ↔ n < 8 := by
      rw [show (0xFF : BitVec 32) = BitVec.setWidth 32 (BitVec.allOnes 8) from rfl,
        BitVec.getLsbD_setWidth, BitVec.getLsbD_allOnes, Bool.and_eq_true, decide_eq_true_eq,
        decide_eq_true_eq]
      omega
    have hmask := getLsbD_sharedMask 0xFF (ds.map (·.burstLengths)) n
    rw [hlow, List.forall_mem_map] at hmask
    exact hmask
  eccCapable := List.all_eq_true
  extendedTemperature := List.all_eq_true
  registered := onlyRegistered_iff hne
  unbuffered := onlyUnbuffered_iff hne
  dimmCount := rfl

/-! ### Modules that do not go together -/

/-- The warnings tell of modules that are not of one kind, and of registered ones with different
control words. -/
structure TellsMismatches (ds : List Dimm) (ctrl : Nat) (ws : List Warning) : Prop where
  mixed : ∀ c, .mixedModules c ∈ ws ↔
    c = ctrl ∧ (∃ d ∈ ds, d.registered = true) ∧ ∃ d ∈ ds, d.registered = false
  words : ∀ c, .controlWordMismatch c ∈ ws ↔
    c = ctrl ∧ (∀ d ∈ ds, d.registered = true) ∧
      ∃ d ∈ ds, ∃ e ∈ ds, d.controlWords ≠ e.controlWords

theorem tellsMismatches_mismatches {ds : List Dimm} (hne : ds ≠ []) (ctrl : Nat) :
    TellsMismatches ds ctrl (mismatches ds ctrl) := by
  have hmixed : (ds.any (·.registered) && ds.any (!·.registered)) = true ↔
      (∃ d ∈ ds, d.registered = true) ∧ ∃ d ∈ ds, d.registered = false := by
    simp only [Bool.and_eq_true, List.any_eq_true, Bool.not_eq_true']
  have hwords : (onlyRegistered ds && wordsDiffer ds) = true ↔
      (∀ d ∈ ds, d.registered = true) ∧
        ∃ d ∈ ds, ∃ e ∈ ds, d.controlWords ≠ e.controlWords := by
    rw [Bool.and_eq_true, onlyRegistered_iff hne, wordsDiffer_iff]
  rw [mismatches]
  split_ifs with hboth hdiffer
  · have hboth := hmixed.1 hboth
    obtain ⟨-, d, hd, hbuffered⟩ := hboth
    refine ⟨fun c => by simpa using fun _ => hboth, fun c => ?_⟩
    refine iff_of_false (by simp) fun h => ?_
    exact Bool.false_ne_true (hbuffered.symm.trans (h.2.1 d hd))
  · refine ⟨fun c => iff_of_false (by simp) fun h => hboth (hmixed.2 h.2), fun c => ?_⟩
    simpa using fun _ => hwords.1 hdiffer
  · exact ⟨fun c => iff_of_false (by simp) fun h => hboth (hmixed.2 h.2),
      fun c => iff_of_false (by simp) fun h => hdiffer (hwords.2 h.2)⟩

/-- The choice of a latency warns of a clock that is too fast and of a latency that is too long. -/
theorem mem_warnings_select {clock : Clock} {mask : BitVec 32} {timing : Timing} {ctrl : Nat}
    {w : Warning} (hw : w ∈ (CasLatency.select clock mask timing ctrl).warnings) :
    (∃ c period least, w = .clockTooFast c period least) ∨
      ∃ c latency, w = .casLatencyTooLong c latency := by
  have hfast : ∀ {period}, w ∈ CasLatency.tooFast ctrl period timing →
      ∃ c period least, w = .clockTooFast c period least := by
    intro period h
    rw [CasLatency.tooFast] at h
    split at h
    · exact ⟨ctrl, period, timing.tCK, List.mem_singleton.1 h⟩
    · exact absurd h List.not_mem_nil
  have hlong : ∀ {period latency}, w ∈ CasLatency.tooLong ctrl period latency →
      ∃ c latency, w = .casLatencyTooLong c latency := by
    intro period latency h
    rw [CasLatency.tooLong] at h
    split at h
    · exact ⟨ctrl, latency, List.mem_singleton.1 h⟩
    · exact absurd h List.not_mem_nil
  rw [CasLatency.select] at hw
  split_ifs at hw
  · exact absurd hw List.not_mem_nil
  · dsimp only at hw
    split at hw
    · exact .inl (hfast hw)
    · exact (List.mem_append.1 hw).imp hfast hlong

/-- Neither modules that are ignored nor the choice of a latency are warned of in these ways. -/
theorem tellsMismatches_reconcile {clock : Clock} {ds : List Dimm} {p : Platform} {ctrl : Nat}
    (hne : counted p ds ≠ []) :
    TellsMismatches (counted p ds) ctrl (reconcile clock ds p ctrl).warnings := by
  have hmem : ∀ w, (∀ slot, w ≠ .quadRankIgnored ctrl slot) →
      (∀ c period least, w ≠ .clockTooFast c period least) →
      (∀ c latency, w ≠ .casLatencyTooLong c latency) →
      (w ∈ (reconcile clock ds p ctrl).warnings ↔ w ∈ mismatches (counted p ds) ctrl) := by
    intro w hquad hfast hlong
    rw [warnings_reconcile hne, List.mem_append, List.mem_append]
    constructor
    · rintro ((hignored | hw) | hselect)
      · obtain ⟨q, -, rfl⟩ := List.mem_map.1 hignored
        exact absurd rfl (hquad q.1)
      · exact hw
      · obtain ⟨c, period, least, rfl⟩ | ⟨c, latency, rfl⟩ := mem_warnings_select hselect
        · exact absurd rfl (hfast c period least)
        · exact absurd rfl (hlong c latency)
    · exact fun hw => .inl (.inr hw)
  have htells := tellsMismatches_mismatches hne ctrl
  exact {
    mixed := fun c => (hmem _ (by simp) (by simp) (by simp)).trans (htells.mixed c)
    words := fun c => (hmem _ (by simp) (by simp) (by simp)).trans (htells.words c) }

/-! ### The order of the modules -/

/-- The timing without the control words, which are those of the first module. -/
def withoutWords (t : CommonTiming) : CommonTiming :=
  { t with controlWords := Vector.replicate 16 0 }

end CommonTiming

instance : RightCommutative Timing.slowest where
  right_comm a b c := by
    simp only [Timing.slowest, Nat.max_comm, Nat.max_left_comm]

namespace CommonTiming

section Order

variable {ds es : List Dimm}

theorem sharedMask_perm {masks masks' : List (BitVec 32)} (h : masks.Perm masks')
    (first : BitVec 32) : sharedMask first masks = sharedMask first masks' :=
  h.foldl_eq first

theorem onlyRegistered_perm (h : ds.Perm es) : onlyRegistered ds = onlyRegistered es := by
  rw [onlyRegistered, onlyRegistered, h.any_eq, h.any_eq]

theorem onlyUnbuffered_perm (h : ds.Perm es) : onlyUnbuffered ds = onlyUnbuffered es := by
  rw [onlyUnbuffered, onlyUnbuffered, h.any_eq, h.any_eq]

theorem wordsDiffer_perm (h : ds.Perm es) : wordsDiffer ds = wordsDiffer es := by
  rw [Bool.eq_iff_iff, wordsDiffer_iff, wordsDiffer_iff]
  simp only [h.mem_iff]

/-- **What modules have in common does not depend on their order**, apart from the control words. -/
theorem withoutWords_ofDimms_perm (h : ds.Perm es) :
    (ofDimms ds).withoutWords = (ofDimms es).withoutWords := by
  have htiming := (h.map (·.timing)).foldl_eq (f := Timing.slowest) {}
  have hbound : shortestBound (ds.map (·.maxClockPeriod)) =
      shortestBound (es.map (·.maxClockPeriod)) := by
    rw [shortestBound, shortestBound, ((h.map _).filter _).foldl_eq]
  have hrefresh := (h.map (·.refreshInterval)).foldl_eq (f := max) 0
  simp only [withoutWords, ofDimms, htiming, hbound, hrefresh, h.all_eq, h.length_eq,
    onlyRegistered_perm h, onlyUnbuffered_perm h, sharedMask_perm (h.map _)]

theorem mismatches_perm (h : ds.Perm es) (ctrl : Nat) : mismatches ds ctrl = mismatches es ctrl := by
  rw [mismatches, mismatches, h.any_eq, h.any_eq, onlyRegistered_perm h, wordsDiffer_perm h]

end Order

end CommonTiming

/-! ### The same modules -/

/-- The same modules in another order, possibly with other empty slots between them. -/
def SameModules (ds es : List Dimm) : Prop :=
  (ds.filter (!·.isEmpty)).Perm (es.filter (!·.isEmpty))

namespace SameModules

theorem equivalence : Equivalence SameModules where
  refl _ := List.Perm.refl _
  symm := List.Perm.symm
  trans := List.Perm.trans

theorem of_perm {ds es : List Dimm} (h : ds.Perm es) : SameModules ds es := h.filter _

/-- An empty slot may be put anywhere. -/
theorem insert_empty (ds es : List Dimm) {d : Dimm} (h : d.isEmpty = true) :
    SameModules (ds ++ es) (ds ++ d :: es) := by
  rw [SameModules, List.filter_append, List.filter_append, List.filter_cons_of_neg (by simp [h])]

/-- The same modules have four ranks or have not. -/
theorem isQuadRank {ds es : List Dimm} (h : SameModules ds es)
    (hquad : ∀ d ∈ ds, d.isQuadRank = false) : ∀ e ∈ es, e.isQuadRank = false := by
  intro e he
  cases hempty : e.isEmpty with
  | true =>
      have hranks : e.ranks = 0 := by simpa [Dimm.isEmpty] using hempty
      simp [Dimm.isQuadRank, hranks]
  | false =>
      have hmem : e ∈ ds.filter (!·.isEmpty) :=
        (List.Perm.mem_iff h).2 (List.mem_filter.2 ⟨he, by simp [hempty]⟩)
      exact hquad e (List.mem_filter.1 hmem).1

end SameModules

namespace CommonTiming

section NoQuadRank

variable {p : Platform} {ds es : List Dimm}

/-- Without four ranks all modules count, wherever they are. -/
theorem counted_of_forall_not_quadRank (h : ∀ d ∈ ds, d.isQuadRank = false) :
    counted p ds = ds.filter (!·.isEmpty) := by
  refine counted_eq_filter ?_
  rintro ⟨d, j⟩ hq
  have hd := h d (List.fst_mem_of_mem_zipIdx hq)
  simp [Platform.takesPart, Platform.ignoresQuadRank, hd]

/-- And none is ignored. -/
theorem ignored_of_forall_not_quadRank (h : ∀ d ∈ ds, d.isQuadRank = false) (ctrl : Nat) :
    ignored p ds ctrl = [] := by
  rw [ignored, List.map_eq_nil_iff, List.filter_eq_nil_iff]
  intro q hq
  obtain ⟨⟨d, j⟩, hmem, rfl⟩ := List.mem_map.1 hq
  have hd := h d (List.fst_mem_of_mem_zipIdx hmem)
  simp [Platform.ignoresQuadRank, hd]

/-- **The same modules have the same timing**, apart from the control words, and are warned of in the
same way. -/
theorem reconcile_sameModules (clock : Clock) (ctrl : Nat)
    (hquad : ∀ d ∈ ds, d.isQuadRank = false) (h : SameModules ds es) :
    (reconcile clock ds p ctrl).value.map withoutWords =
        (reconcile clock es p ctrl).value.map withoutWords ∧
      (reconcile clock ds p ctrl).warnings = (reconcile clock es p ctrl).warnings := by
  have hquad' := h.isQuadRank hquad
  have hperm : (counted p ds).Perm (counted p es) := by
    rwa [counted_of_forall_not_quadRank hquad, counted_of_forall_not_quadRank hquad']
  have hignored : ignored p ds ctrl = ignored p es ctrl := by
    rw [ignored_of_forall_not_quadRank hquad, ignored_of_forall_not_quadRank hquad']
  by_cases hnone : counted p ds = []
  · have hnone' : counted p es = [] := by
      rw [hnone] at hperm
      exact hperm.nil_eq.symm
    rw [(reconcile_of_nil hnone).1, (reconcile_of_nil hnone').1, (reconcile_of_nil hnone).2,
      (reconcile_of_nil hnone').2]
    exact ⟨rfl, hignored⟩
  · have hne' : counted p es ≠ [] := by
      intro hnone'
      rw [hnone'] at hperm
      exact hnone hperm.eq_nil
    -- the choice of a latency depends on what the modules have in common only
    have hcommon := withoutWords_ofDimms_perm hperm
    have htiming : (ofDimms (counted p ds)).timing = (ofDimms (counted p es)).timing := by
      simpa only [withoutWords] using congrArg CommonTiming.timing hcommon
    have hmask : sharedLatencies (counted p ds) = sharedLatencies (counted p es) :=
      sharedMask_perm (hperm.map _) _
    constructor
    · rw [value_reconcile hnone, value_reconcile hne', htiming, hmask]
      cases (CasLatency.select clock (sharedLatencies (counted p es))
          (ofDimms (counted p es)).timing ctrl).value with
      | error e => rfl
      | ok cl =>
          exact congrArg (fun t : CommonTiming => Except.ok { t with casLatency := cl }) hcommon
    · rw [warnings_reconcile hnone, warnings_reconcile hne', htiming, hmask, hignored,
        mismatches_perm hperm]

end NoQuadRank

/-! ### The timing of a controller -/

/-- **The timing of a controller** is the worst case of the modules that count, its warnings tell of
modules that do not go together, and neither depends on the order of the slots or on empty ones as
long as no module has four ranks. -/
theorem reconcile_worstCase (clock : Clock) (ds : List Dimm) (p : Platform) (ctrl : Nat) :
    (∀ t, (reconcile clock ds p ctrl).value = .ok t → t.dimmCount ≠ 0 →
      WorstCase (counted p ds) t ∧
        TellsMismatches (counted p ds) ctrl (reconcile clock ds p ctrl).warnings) ∧
    ∀ es, (∀ d ∈ ds, d.isQuadRank = false) → SameModules ds es →
      (reconcile clock ds p ctrl).value.map withoutWords =
          (reconcile clock es p ctrl).value.map withoutWords ∧
        (reconcile clock ds p ctrl).warnings = (reconcile clock es p ctrl).warnings := by
  refine ⟨fun t ht hcount => ?_, fun es hquad h => reconcile_sameModules clock ctrl hquad h⟩
  obtain ⟨hne, cl, rfl⟩ := exists_eq_of_reconcile ht hcount
  exact ⟨worstCase_ofDimms hne cl, tellsMismatches_reconcile hne⟩

/-- A registered and an unbuffered module are reported and reconciled, and swapping them or leaving a
slot empty before them makes no difference. -/
theorem reconcile_worstCase_mixedPair :
    let p : Platform := { Platform.singleSlot with slotCount := 2 }
    let d : Dimm :=
      { ranks := 1, registered := true, timing := { tAA := 13750 }, casLatencies := 0x1800 }
    let e : Dimm := { ranks := 2, timing := { tAA := 13125 }, casLatencies := 0x3800 }
    ∃ t, (reconcile ⟨1600000000⟩ [d, e] p 0).value = .ok t ∧ t.dimmCount ≠ 0 ∧
      WorstCase [d, e] t ∧
      .mixedModules 0 ∈ (reconcile ⟨1600000000⟩ [d, e] p 0).warnings ∧
      (reconcile ⟨1600000000⟩ [{}, e, d] p 0).value.map withoutWords = .ok t.withoutWords := by
  intro p d e
  obtain ⟨hpair, horder⟩ := reconcile_worstCase ⟨1600000000⟩ [d, e] p 0
  obtain ⟨t, ht, htwo⟩ := exists_of_map_eq_ok (f := dimmCount) (b := 2)
    (show (reconcile ⟨1600000000⟩ [d, e] p 0).value.map dimmCount = .ok 2 by decide)
  have hcount : t.dimmCount ≠ 0 := by omega
  obtain ⟨hworst, htells⟩ := hpair t ht hcount
  have hcounted : counted p [d, e] = [d, e] := rfl
  rw [hcounted] at hworst htells
  have hsame : SameModules [d, e] [{}, e, d] :=
    SameModules.equivalence.trans (.of_perm (.swap e d [])) (.insert_empty [] [e, d] rfl)
  refine ⟨t, ht, hcount, hworst, (htells.mixed 0).2 ⟨rfl, ⟨d, by simp, rfl⟩, e, by simp, rfl⟩, ?_⟩
  rw [← (horder _ (by decide) hsame).1, ht]
  rfl

end CommonTiming

end SdramBringup
