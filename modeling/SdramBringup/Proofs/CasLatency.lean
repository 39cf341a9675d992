/-
**The choice of the CAS latency is exact.**

The latency of a controller is looked for among the least one that covers the slowest read and the
sixteen above it, lowest first, in the mask of the latencies that all modules support. This module
says which latency is found without mentioning masks or a search: the least one that all modules
support in that window, which is also the least of all that they support and that is long enough for
each of them. If there is none, the error says what the modules share and from where on. A further
module can only make the latency longer, although the window of the search moves with it.

Main definitions:

* `CasLatency.Shared`, `CasLatency.Covers` — a latency that all modules support, and one that is long
  enough for all of them;
* `CasLatency.leastFor` — the least latency that is long enough;
* `CasLatency.Eligible` — a latency that can be chosen;
* `CasLatency.Chooses` — **what the choice has to come to**.

Main results:

* `CasLatency.leastFor_le_iff` — from the least latency on, every module has the time it needs;
* `CasLatency.lowest?_eq_some_iff` — the search finds the least latency that can be chosen;
* `CasLatency.chooses_select` — the choice is exact;
* `CasLatency.Chooses.mono` — more modules have no shorter latency;
* `CommonTiming.reconcile_chooses` — **the latency of a controller**.
-/

import SdramBringup.Proofs.CommonTiming

set_option relaxedAutoImplicit false
set_option autoImplicit false

namespace SdramBringup

/-- Of entries in the order of some number, the first one that passes a test has the least number of
those that do. -/
theorem isLeast_image_of_find? {α : Type} {f : α → Nat} {p : α → Bool} {l : List α} {a : α}
    (hsorted : l.Pairwise (f · ≤ f ·)) (h : l.find? p = some a) :
    IsLeast {n | ∃ x ∈ l, p x = true ∧ f x = n} (f a) := by
  obtain ⟨ha, before, after, rfl, hbefore⟩ := List.find?_eq_some_iff_append.1 h
  refine ⟨⟨a, by simp, ha, rfl⟩, ?_⟩
  rintro n ⟨x, hmem, hx, rfl⟩
  -- what stands before the first one fails the test, what stands behind it has no lower number
  rcases List.mem_append.1 hmem with hmem | hmem
  · exact absurd hx (by simpa using hbefore x hmem)
  · rcases List.mem_cons.1 hmem with rfl | hmem
    · exact Nat.le_refl _
    · exact (List.pairwise_cons.1 (List.pairwise_append.1 hsorted).2.1).1 x hmem

/-- The first entry of an ascending list that passes a test is the least one that does. -/
theorem isLeast_of_find? {p : Nat → Bool} {l : List Nat} {a : Nat} (hsorted : l.Pairwise (· < ·))
    (h : l.find? p = some a) : IsLeast {x | x ∈ l ∧ p x = true} a := by
  have hleast := isLeast_image_of_find? (f := id) (hsorted.imp Nat.le_of_lt) h
  simpa only [id_eq, ← and_assoc, exists_eq_right] using hleast

namespace CasLatency

/-! ### Latencies that are long enough -/

/-- The latency is long enough for every module. -/
def Covers (period : Nat) (ds : List Dimm) (n : Nat) : Prop :=
  ∀ d ∈ ds, d.timing.tAA ≤ n * period

/-- The least latency that is long enough: the slowest read of the modules in whole periods, rounded
up. -/
def leastFor (period : Nat) (ds : List Dimm) : Nat :=
  least period ((ds.map (·.timing.tAA)).foldl max 0)

/-- From the least latency on, and only from there on, a time is covered. -/
theorem least_le_iff {period tAA n : Nat} (hperiod : period ≠ 0) :
    least period tAA ≤ n ↔ tAA ≤ n * period := by
  rw [least, Nat.div_le_iff_le_mul_add_pred (Nat.pos_of_ne_zero hperiod), Nat.mul_comm period n]
  omega

/-- From the least latency on, and only from there on, **every module has the time it needs**. -/
theorem leastFor_le_iff {period n : Nat} {ds : List Dimm} (hperiod : period ≠ 0) (hne : ds ≠ []) :
    leastFor period ds ≤ n ↔ Covers period ds n := by
  obtain ⟨hmem, hle⟩ := isGreatest_foldl_max (l := ds.map (·.timing.tAA)) (by simpa using hne)
  rw [leastFor, least_le_iff hperiod, Covers]
  constructor
  · intro h d hd
    have htime : d.timing.tAA ∈ ds.map (·.timing.tAA) := List.mem_map_of_mem hd
    exact Nat.le_trans (hle htime) h
  · intro h
    obtain ⟨d, hd, heq⟩ := List.mem_map.1 hmem
    exact heq ▸ h d hd

/-! ### Latencies that are supported -/

/-- Every module supports the latency. -/
def Shared (ds : List Dimm) (n : Nat) : Prop :=
  n < 32 ∧ ∀ d ∈ ds, d.casLatencies.getLsbD n = true

/-- A latency that can be chosen: every module supports it, and it is the least one that is long
enough or one of the sixteen above. -/
structure Eligible (period : Nat) (ds : List Dimm) (n : Nat) : Prop where
  shared : Shared ds n
  enough : leastFor period ds ≤ n
  near : n ≤ leastFor period ds + 16

theorem getLsbD_sharedLatencies (ds : List Dimm) (n : Nat) :
    (CommonTiming.sharedLatencies ds).getLsbD n = true ↔ Shared ds n := by
  rw [CommonTiming.sharedLatencies, CommonTiming.getLsbD_sharedMask, BitVec.getLsbD_allOnes,
    decide_eq_true_eq, List.forall_mem_map, Shared]

theorem mem_candidates_iff {n k : Nat} : k ∈ candidates n ↔ n ≤ k ∧ k ≤ n + 16 := by
  simp only [candidates, retries, List.mem_map, List.mem_range]
  constructor
  · rintro ⟨j, hj, rfl⟩
    omega
  · rintro ⟨hge, hle⟩
    exact ⟨k - n, by omega, by omega⟩

/-- What the search looks for is a latency that can be chosen. -/
theorem eligible_iff {period : Nat} {ds : List Dimm} {n : Nat} :
    Eligible period ds n ↔ n ∈ candidates (leastFor period ds) ∧
      (CommonTiming.sharedLatencies ds).getLsbD n = true := by
  rw [mem_candidates_iff, getLsbD_sharedLatencies]
  exact ⟨fun h => ⟨⟨h.enough, h.near⟩, h.shared⟩, fun h => ⟨h.2, h.1.1, h.1.2⟩⟩

/-- The search fails if no latency can be chosen, and only then. -/
theorem lowest?_eq_none_iff {period : Nat} {ds : List Dimm} :
    lowest? (CommonTiming.sharedLatencies ds) (leastFor period ds) = none ↔
      ∀ n, ¬Eligible period ds n := by
  simp only [lowest?, List.find?_eq_none, eligible_iff, not_and]

/-- **The search finds the least latency that can be chosen.** -/
theorem lowest?_eq_some_iff {period : Nat} {ds : List Dimm} {c : Nat} :
    lowest? (CommonTiming.sharedLatencies ds) (leastFor period ds) = some c ↔
      IsLeast {n | Eligible period ds n} c := by
  have hfound : ∀ a, lowest? (CommonTiming.sharedLatencies ds) (leastFor period ds) = some a →
      IsLeast {n | Eligible period ds n} a := by
    intro a ha
    have hsorted : (candidates (leastFor period ds)).Pairwise (· < ·) := by
      rw [candidates, List.pairwise_map]
      exact List.pairwise_lt_range.imp fun h => Nat.add_lt_add_left h _
    simpa only [eligible_iff] using isLeast_of_find? hsorted ha
  refine ⟨hfound c, fun h => ?_⟩
  cases hlowest : lowest? (CommonTiming.sharedLatencies ds) (leastFor period ds) with
  | none => exact absurd h.1 (lowest?_eq_none_iff.1 hlowest c)
  | some a => rw [(hfound a hlowest).unique h]

/-! ### The choice -/

/-- What the choice of a latency has to come to, for the modules of a controller and its clock. -/
structure Chooses (clock : Clock) (ds : List Dimm) (result : Except TimingError Nat) : Prop where
  /-- The least latency that can be chosen is. -/
  ok_iff : ∀ c, result = .ok c ↔
    clock.periodPs ≠ 0 ∧ IsLeast {n | Eligible clock.periodPs ds n} c
  /-- It is long enough for every module. -/
  covers : ∀ c, result = .ok c → Covers clock.periodPs ds c
  /-- No lower latency that all modules support is. -/
  lowest : ∀ c, result = .ok c → ∀ n < c, Shared ds n → ¬Covers clock.periodPs ds n
  /-- If none can be chosen, the error says what the modules share and from where on. -/
  error_iff : ∀ mask least, result = .error (.noCommonCasLatency mask least) ↔
    clock.periodPs ≠ 0 ∧ (∀ n, ¬Eligible clock.periodPs ds n) ∧
      mask = CommonTiming.sharedLatencies ds ∧ least = leastFor clock.periodPs ds
  stopped_iff : result = .error .stoppedClock ↔ clock.periodPs = 0

/-- **The choice is exact.** -/
theorem chooses_select {ds : List Dimm} (hne : ds ≠ []) (clock : Clock) (ctrl : Nat) :
    Chooses clock ds (select clock (CommonTiming.sharedLatencies ds)
      (CommonTiming.ofDimms ds).timing ctrl).value := by
  have hleast : least clock.periodPs (CommonTiming.ofDimms ds).timing.tAA =
      leastFor clock.periodPs ds := by
    rw [leastFor, CommonTiming.times_ofDimms (f := Timing.tAA) (by simp [Timing.times])]
  rw [select]
  by_cases hperiod : clock.periodPs = 0
  · rw [if_pos hperiod]
    constructor <;> simp [hperiod]
  simp only [if_neg hperiod, hleast]
  cases hlowest : lowest? (CommonTiming.sharedLatencies ds) (leastFor clock.periodPs ds) with
  | none =>
      have hnone := lowest?_eq_none_iff.1 hlowest
      constructor
      case ok_iff =>
        refine fun c => iff_of_false (by simp) fun h => ?_
        exact hnone c h.2.1
      case covers | lowest => simp
      case error_iff =>
        intro mask least
        simp only [Except.error.injEq, TimingError.noCommonCasLatency.injEq]
        constructor
        · rintro ⟨rfl, rfl⟩
          exact ⟨hperiod, hnone, rfl, rfl⟩
        · rintro ⟨-, -, rfl, rfl⟩
          exact ⟨rfl, rfl⟩
      case stopped_iff => simp [hperiod]
  | some cl =>
      have hcl := lowest?_eq_some_iff.1 hlowest
      constructor
      case ok_iff =>
        intro c
        rw [Except.ok.injEq, and_iff_right hperiod]
        exact ⟨fun h => h ▸ hcl, fun h => hcl.unique h⟩
      case covers =>
        rintro c ⟨⟩
        exact (leastFor_le_iff hperiod hne).1 hcl.1.enough
      case lowest =>
        rintro c ⟨⟩ n hn hshared hcovers
        -- a lower one that is long enough is in the window, too
        have henough := (leastFor_le_iff hperiod hne).2 hcovers
        have hnear := hcl.1.near
        exact absurd (hcl.2 ⟨hshared, henough, by omega⟩) (Nat.not_le_of_gt hn)
      case error_iff =>
        refine fun mask least => iff_of_false (by simp) fun h => ?_
        exact h.2.1 cl hcl.1
      case stopped_iff => simp [hperiod]

/-- **More modules have no shorter latency.** -/
theorem Chooses.mono {clock : Clock} {ds es : List Dimm} {result result' : Except TimingError Nat}
    (h : Chooses clock ds result) (h' : Chooses clock es result') (hsub : ∀ d ∈ ds, d ∈ es)
    {c c' : Nat} (hc : result = .ok c) (hc' : result' = .ok c') : c ≤ c' := by
  obtain ⟨hlt, hshared⟩ := ((h'.ok_iff c').1 hc').2.1.shared
  have hcovers := h'.covers c' hc'
  by_contra hnot
  exact h.lowest c hc c' (Nat.lt_of_not_le hnot) ⟨hlt, fun d hd => hshared d (hsub d hd)⟩
    fun d hd => hcovers d (hsub d hd)

end CasLatency

/-! ### The latency of a controller -/

open CasLatency

namespace CommonTiming

theorem chooses_counted {p : Platform} {ds : List Dimm} (h : counted p ds ≠ []) (clock : Clock)
    (ctrl : Nat) :
    Chooses clock (counted p ds) ((reconcile clock ds p ctrl).value.map (·.casLatency)) := by
  have hmap : (reconcile clock ds p ctrl).value.map (·.casLatency) =
      (select clock (sharedLatencies (counted p ds)) (ofDimms (counted p ds)).timing ctrl).value := by
    rw [value_reconcile h]
    cases (select clock (sharedLatencies (counted p ds)) (ofDimms (counted p ds)).timing
      ctrl).value <;> rfl
  rw [hmap]
  exact chooses_select h clock ctrl

/-- **The latency of a controller** is chosen for the modules that count, and a further module that
counts does not make it shorter. -/
theorem reconcile_chooses {p : Platform} {ds : List Dimm} (h : counted p ds ≠ []) (clock : Clock)
    (ctrl : Nat) :
    Chooses clock (counted p ds) ((reconcile clock ds p ctrl).value.map (·.casLatency)) ∧
      ∀ d, p.takesPart ds.length d = true → ∀ t t',
        (reconcile clock ds p ctrl).value = .ok t →
          (reconcile clock (ds ++ [d]) p ctrl).value = .ok t' → t.casLatency ≤ t'.casLatency := by
  refine ⟨chooses_counted h clock ctrl, fun d hd t t' ht ht' => ?_⟩
  have hlonger : counted p (ds ++ [d]) = counted p ds ++ [d] := counted_append_singleton hd
  have hne : counted p (ds ++ [d]) ≠ [] := by simp [hlonger]
  refine (chooses_counted h clock ctrl).mono (chooses_counted hne clock ctrl) (fun e he => ?_)
    (by rw [ht]; rfl) (by rw [ht']; rfl)
  rw [hlonger]
  exact List.mem_append_left _ he

/-- A module of one rank with a slowest read and a mask of latencies. -/
def reading (tAA : Nat) (latencies : BitVec 32) : Dimm :=
  { ranks := 1, timing := { tAA }, casLatencies := latencies }

/-- Of two modules at 1600 million transfers per second, which need 11 clocks, one supports 11 to 13
and the other one 12 and 13 clocks. The choice is 12, and a third module keeps it from getting
lower. -/
theorem reconcile_chooses_pair :
    let p : Platform := { Platform.singleSlot with slotCount := 2 }
    let ds : List Dimm := [reading 13750 0x3800, reading 13125 0x3000]
    counted p ds ≠ [] ∧ IsLeast {n | Eligible 1250 (counted p ds) n} 12 ∧
      ∀ t, (reconcile ⟨1600000000⟩ (ds ++ [reading 15000 0x2000]) p 0).value = .ok t →
        12 ≤ t.casLatency := by
  intro p ds
  have hne : counted p ds ≠ [] := by decide
  have hchosen : (reconcile ⟨1600000000⟩ ds p 0).value.map (·.casLatency) = .ok 12 := by decide
  obtain ⟨hchooses, hlonger⟩ := reconcile_chooses hne ⟨1600000000⟩ 0
  obtain ⟨t, ht, htwelve⟩ := exists_of_map_eq_ok hchosen
  refine ⟨hne, ((hchooses.ok_iff 12).1 hchosen).2, fun t' ht' => ?_⟩
  exact htwelve ▸ hlonger (reading 15000 0x2000) (by decide) t t' ht ht'

end CommonTiming

end SdramBringup
