/-
**Chip selects that are not used.**

A chip select without a rank is disabled, and its range should be the mark of no range. The two are
decided apart from each other: whether there is a rank, by the module in the slot, and which range
there is, by the interleaving of the chip selects. They agree under every mode that the ranks admit,
with one exception. If the first slot is wired to all chip selects, its four ranks admit a range for
all of them, whatever is in the second slot; a single rank there leaves the last chip select without
a rank but with that range.

Main definitions:

* `Synthesis.StartsBelow` — a controller and its ranks start below a bound;
* `Synthesis.MarksUnused` — the mark of no range is on the disabled chip selects, and only there;
* `Synthesis.QuadBesideSingle` — four ranks share a range with one in the other slot;
* `InterleaveSource.AsksForAll` — one range is asked for all chip selects, or the widest one;
* `InterleaveSource.JoinsSlots` — what is asked for joins two slots in one range.

Main results:

* `Synthesis.isSome_range?_iff` — which chip selects without a rank are given a range;
* `Synthesis.marksUnused_chipSelects_iff` — the mark is where it should be, by the inputs;
* `Options.bankModeOf_eq_allFour_iff_joinsSlots` — when all ranks of two slots share a range;
* `Options.bankModeOf_eq_allFour_iff` — when four ranks in the first slot do;
* `Stage.Gathered.marksUnused_iff` — **the mark is where it should be**, but for one population.
-/

import SdramBringup.Proofs.Configured
import SdramBringup.Proofs.IgnoredModule
import SdramBringup.Proofs.Reach

set_option relaxedAutoImplicit false
set_option autoImplicit false

namespace SdramBringup

namespace Synthesis

/-- The controller and all ranks of its modules start below a bound. -/
structure StartsBelow (i : Inputs) (bound : Nat) : Prop where
  region : i.region.base < bound
  ranks : ∀ r ∈ i.dimms.flatMap (Dimm.rankRegions i.widthShift), r.base < bound

/-- The disabled chip selects have the mark of no range. Unless ranges are shared with other
controllers, the enabled ones do not have it. -/
structure MarksUnused (mode : Option ControllerMode) (v : Vector ChipSelectRegisters 4) : Prop where
  disabled : ∀ cs : Fin 4, v[cs].enabled = false → v[cs].bounds = Bits.noRange
  enabled : mode = none → ∀ cs : Fin 4, v[cs].enabled = true → v[cs].bounds ≠ Bits.noRange

/-- All chip selects share a range, though the four ranks of the first slot have but one beside them
in the second. -/
def QuadBesideSingle (i : Inputs) : Prop :=
  i.dimms.length = 2 ∧ i.options.bankMode = .allFour ∧ i.ranksIn 0 = 4 ∧ i.ranksIn 1 = 1

/-- A range that starts below the last unit of 16 MiB is not mistaken for the mark of no range. -/
theorem boundsOf_ne_noRange_of_first {range : Nat × Nat} (h : range.1 < 2 ^ 40 - 2 ^ 24) :
    boundsOf range ≠ Bits.noRange := by
  intro he
  have hfirst := get_first_boundsOf range
  rw [he, show Layout.Bounds.first.get Bits.noRange = 2 ^ 16 - 1 by decide] at hfirst
  omega

/-- Whether a chip select is given a range. -/
theorem isSome_range? (i : Inputs) (cs : Fin 4) :
    (range? i cs).isSome =
      if i.options.controllerMode.isSome then answersForGroup i.options.bankMode cs
      else i.options.bankMode == .allFour || i.options.bankMode == .bothPairs || hasRank i cs := by
  unfold range?
  split
  · cases answersForGroup i.options.bankMode cs <;> rfl
  · cases i.options.bankMode <;> cases hasRank i cs <;> rfl

/-- Only the first two chip selects answer for a group of controllers, and the second one only as
the partner of the first, unless all of them do. -/
theorem le_of_answersForGroup {mode : BankMode} {cs : Fin 4} (hmode : mode ≠ .allFour)
    (h : answersForGroup mode cs = true) :
    cs.val = 0 ∨ cs.val ≤ 1 ∧ (mode = .lowPair ∨ mode = .bothPairs) := by
  cases mode <;> simp [answersForGroup] at h hmode ⊢ <;> omega

theorem hasRank_eq (i : Inputs) (cs : Fin 4) :
    hasRank i cs = decide (rankOf i cs < i.ranksIn (slotOf i cs)) := by
  rw [hasRank, dimmOf, ranksIn_eq]

theorem isEmpty_dimmOf_iff (i : Inputs) (cs : Fin 4) :
    (dimmOf i cs).isEmpty = true ↔ i.ranksIn (slotOf i cs) = 0 := by
  rw [Dimm.isEmpty, dimmOf, ranksIn_eq, beq_iff_eq]

section Supported

variable {i : Inputs} (hlength : i.dimms.length = 1 ∨ i.dimms.length = 2) {quadCapable : Bool}
  (hsupported : i.options.bankMode.supported i.dimms.length (i.ranksIn 0) (i.ranksIn 1)
    quadCapable = true)
include hlength hsupported

/-- If all chip selects share a range, then those with a module have a rank, but for a single rank
beside four. -/
theorem hasRank_of_allFour {cs : Fin 4} (hmode : i.options.bankMode = .allFour)
    (hempty : (dimmOf i cs).isEmpty = false) : hasRank i cs = true ∨ QuadBesideSingle i := by
  have hcs := cs.isLt
  have hne : i.ranksIn (slotOf i cs) ≠ 0 := by
    rwa [← Bool.not_eq_true, isEmpty_dimmOf_iff] at hempty
  rw [hmode, BankMode.supported] at hsupported
  rw [hasRank_eq, decide_eq_true_eq, QuadBesideSingle, hmode]
  rcases slot_cases hlength cs with ⟨hlen, -, hslot, hrank⟩ | ⟨hlen, -, hlow, hslot, hrank⟩ |
    ⟨hlen, -, hhigh, hslot, hrank⟩
  all_goals
    rw [hslot] at hne ⊢
    rw [hrank, hlen]
    simp only [hlen] at hsupported
    grind

/-- Under every other mode, a chip select that is given a range has a rank. -/
theorem hasRank_of_isSome_range? {cs : Fin 4} (hmode : i.options.bankMode ≠ .allFour)
    (hempty : (dimmOf i cs).isEmpty = false) (hsome : (range? i cs).isSome = true) :
    hasRank i cs = true := by
  have hcs := cs.isLt
  have hne : i.ranksIn (slotOf i cs) ≠ 0 := by
    rwa [← Bool.not_eq_true, isEmpty_dimmOf_iff] at hempty
  by_contra hrank
  rw [isSome_range?, Bool.eq_false_iff.2 hrank] at hsome
  rw [hasRank_eq, decide_eq_true_eq] at hrank
  by_cases hgroup : i.options.controllerMode.isSome = true
  · -- the chip selects that answer for a group are the first one or two of the first slot
    rw [if_pos hgroup] at hsome
    have hlow : cs.val = 0 ∨ cs.val ≤ 1 ∧ 2 ≤ i.ranksIn 0 := by
      refine (le_of_answersForGroup hmode hsome).imp_right (And.imp_right fun hpair => ?_)
      rcases hpair with hbank | hbank <;> simp only [hbank, BankMode.supported] at hsupported <;>
        grind
    rcases slot_cases hlength cs with ⟨-, -, hslot, hr⟩ | ⟨-, -, -, hslot, hr⟩ | ⟨-, -, hhigh, -⟩
    · rw [hslot] at hne hrank
      omega
    · rw [hslot] at hne hrank
      omega
    · omega
  · -- without a group only the pairs are given ranges without regard to their ranks
    rw [if_neg hgroup] at hsome
    have hbank : i.options.bankMode = .bothPairs := by simpa [hmode] using hsome
    rw [hbank, BankMode.supported] at hsupported
    rcases slot_cases hlength cs with ⟨hlen, -, hslot, hr⟩ | ⟨hlen, -, hlow, hslot, hr⟩ |
      ⟨hlen, -, hhigh, hslot, hr⟩
    all_goals
      rw [hslot] at hrank
      simp [hlen] at hsupported
      omega

/-- **A chip select of a module that has no rank for it** is given a range in one case only. -/
theorem isSome_range?_iff {cs : Fin 4} (hrank : hasRank i cs = false)
    (hempty : (dimmOf i cs).isEmpty = false) :
    (range? i cs).isSome = true ↔ QuadBesideSingle i := by
  have hnot : ¬hasRank i cs = true := by simp [hrank]
  constructor
  · intro hsome
    by_cases hmode : i.options.bankMode = .allFour
    · exact (hasRank_of_allFour hlength hsupported hmode hempty).resolve_left hnot
    · exact absurd (hasRank_of_isSome_range? hlength hsupported hmode hempty hsome) hnot
  · rintro ⟨-, hmode, -⟩
    rw [isSome_range?, hmode]
    split <;> rfl

/-- A chip select with a rank starts where some rank does, or where the controller does. -/
theorem first_range?_lt {bound : Nat} (hstarts : StartsBelow i bound) {cs : Fin 4}
    (hrank : hasRank i cs = true) (hmode : i.options.controllerMode = none) {range : Nat × Nat}
    (hrange : range? i cs = some range) : range.1 < bound := by
  have hstart : ∀ r < (dimmOf i cs).ranks, (dimmOf i cs).base + r * rankSpan i cs < bound := by
    intro r hr
    refine hstarts.ranks ⟨_, rankSpan i cs⟩ (List.mem_flatMap.2 ⟨dimmOf i cs, dimmOf_mem hrank, ?_⟩)
    exact List.mem_map.2 ⟨r, List.mem_range.2 hr, rfl⟩
  have hlt : rankOf i cs < (dimmOf i cs).ranks := by simpa [hasRank] using hrank
  have hmodule : (dimmOf i cs).base < bound := by
    have := hstart 0 (by omega)
    omega
  have hown := hstart (rankOf i cs) hlt
  rw [range?, hmode, if_neg (by decide)] at hrange
  cases hbank : i.options.bankMode <;>
    simp only [hbank, hrank, if_true, Option.some.injEq] at hrange <;> subst hrange
  case off | auto => exact hown
  case lowPair | highPair =>
    simp only [pairRange]
    split
    · exact hmodule
    · exact hown
  case allFour => exact hstarts.region
  case bothPairs =>
    simp only [bothPairsRange]
    by_cases hupper : 2 ≤ cs.val ∧ slotOf i cs = 0
    · -- the upper pair of a single slot starts with the third of four ranks
      rw [if_pos hupper]
      refine hstart 2 ?_
      rw [dimmOf, ← ranksIn_eq, hupper.2]
      simp only [hbank, BankMode.supported] at hsupported
      rcases slot_cases hlength cs with ⟨hlen, -⟩ | ⟨-, -, hlow, -⟩ | ⟨-, -, -, hslot, -⟩
      · simp only [hlen, if_true, decide_eq_true_eq] at hsupported
        omega
      · omega
      · omega
    · rw [if_neg hupper]
      exact hmodule

/-- **The mark of no range is where it should be**, but for a single rank beside four. -/
theorem marksUnused_chipSelects_iff (hstarts : StartsBelow i (2 ^ 40 - 2 ^ 24)) :
    MarksUnused i.options.controllerMode (chipSelects i) ↔ ¬QuadBesideSingle i := by
  have hne := dimms_ne_nil hlength
  constructor
  · rintro ⟨hdisabled, -⟩ ⟨hlen, hmode, -, hone⟩
    have hslot : slotOf i 3 = 1 := by simp [slotOf, perSlot, hlen]
    have hrank : hasRank i 3 = false := by
      rw [hasRank_eq, hslot, hone, rankOf, perSlot, hlen]
      rfl
    have hempty : (dimmOf i 3).isEmpty = false := by
      rw [← Bool.not_eq_true, isEmpty_dimmOf_iff, hslot, hone]
      decide
    have hbounds := hdisabled 3
    rw [getElem_chipSelects hne, enabled_chipSelect, bounds_chipSelect_of_module hempty] at hbounds
    have hrange : range? i 3 = some (regionRange i) := by
      unfold range?
      rw [hmode]
      split <;> rfl
    rw [hrange] at hbounds
    exact boundsOf_ne_noRange_of_first hstarts.region (hbounds hrank)
  · intro hnot
    constructor
    case disabled =>
      intro cs hdisabled
      rw [getElem_chipSelects hne, enabled_chipSelect] at hdisabled
      rw [getElem_chipSelects hne]
      cases hempty : (dimmOf i cs).isEmpty with
      | true => rw [chipSelect, if_pos hempty]
      | false =>
          have hnone : range? i cs = none := by
            rw [← Option.not_isSome_iff_eq_none]
            exact fun hsome =>
              hnot ((isSome_range?_iff hlength hsupported hdisabled hempty).1 hsome)
          rw [bounds_chipSelect_of_module hempty, hnone]
          rfl
    case enabled =>
      intro hmode cs henabled
      rw [getElem_chipSelects hne, enabled_chipSelect] at henabled
      rw [getElem_chipSelects hne, bounds_chipSelect henabled]
      obtain ⟨range, hrange⟩ := exists_range? henabled hmode
      rw [hrange]
      exact boundsOf_ne_noRange_of_first
        (first_range?_lt hlength hsupported hstarts henabled hmode hrange)

end Supported

end Synthesis

/-! ### What is asked for -/

/-- One range is asked for all chip selects of a controller, or the widest one that there is. -/
def InterleaveSource.AsksForAll (source : InterleaveSource) (ctrl : Nat) : Prop :=
  source.bank ctrl = some .allFour ∨ source.bank ctrl = some .auto

instance (source : InterleaveSource) (ctrl : Nat) : Decidable (source.AsksForAll ctrl) :=
  inferInstanceAs (Decidable (_ ∨ _))

/-- What is asked for joins the ranks `r₀` and `r₁` of two slots in one range: the first slot has
four ranks and is wired to all chip selects, or both slots have the same number of ranks, at least
two, and exactly two where the widest interleaving is asked for. -/
def InterleaveSource.JoinsSlots (source : InterleaveSource) (ctrl r₀ r₁ : Nat)
    (quadCapable : Bool) : Prop :=
  source.AsksForAll ctrl ∧ quadCapable = true ∧ r₀ = 4 ∨
    2 ≤ r₀ ∧ r₀ = r₁ ∧
      (source.bank ctrl = some .allFour ∨ source.bank ctrl = some .auto ∧ r₀ = 2)

/-- The widest interleaving of two slots is one range, if they can be joined. -/
theorem BankMode.widest_eq_allFour_iff {r₀ r₁ : Nat} {quadCapable : Bool} :
    widest 2 r₀ r₁ quadCapable = allFour ↔
      quadCapable = true ∧ r₀ = 4 ∨ r₀ = 2 ∧ r₁ = 2 := by
  rw [widest, if_neg (by decide : ¬2 = 1)]
  split_ifs with hquad htwo hboth
  · exact iff_of_true rfl (.inl ⟨hquad.2, hquad.1⟩)
  · exact iff_of_true rfl (.inr ⟨htwo, hboth⟩)
  all_goals
    refine iff_of_false (by simp) fun h => ?_
    rcases h with h | h
    · exact hquad ⟨h.2, h.1⟩
    · omega

/-- One range is used if it is asked for and the ranks admit it. -/
theorem Options.bankModeOf_eq_allFour_iff_supported {p : Platform} {dimms : List Dimm}
    {source : InterleaveSource} {ctrl : Nat} :
    (bankModeOf p dimms source ctrl).value = .allFour ↔
      requestedMode p dimms source ctrl = .allFour ∧
        BankMode.allFour.supported p.slots (ranksIn p dimms 0) (ranksIn p dimms 1)
          p.firstSlotQuadCapable = true := by
  rw [bankModeOf]
  split_ifs with hsupported
  · refine (and_iff_left_of_imp fun hmode => ?_).symm
    exact hmode ▸ hsupported
  · refine iff_of_false (by simp) fun h => hsupported ?_
    exact h.1.symm ▸ h.2

/-- Of two slots, one range is used if what is asked for joins them. -/
theorem Options.bankModeOf_eq_allFour_iff_joinsSlots {p : Platform} {dimms : List Dimm}
    {source : InterleaveSource} {ctrl : Nat} (hslots : p.slots = 2) :
    (bankModeOf p dimms source ctrl).value = .allFour ↔
      source.JoinsSlots ctrl (ranksIn p dimms 0) (ranksIn p dimms 1) p.firstSlotQuadCapable := by
  rw [bankModeOf_eq_allFour_iff_supported, requestedMode, hslots, InterleaveSource.JoinsSlots,
    InterleaveSource.AsksForAll]
  generalize ranksIn p dimms 0 = r₀
  generalize ranksIn p dimms 1 = r₁
  cases source.bank ctrl with
  | none => simp
  | some asked =>
      cases asked
      case off | lowPair | highPair | bothPairs => simp
      case allFour => simp [BankMode.supported]
      case auto =>
        have hsupported : BankMode.allFour.supported 2 r₀ r₁ p.firstSlotQuadCapable = true ↔
            p.firstSlotQuadCapable = true ∧ r₀ = 4 ∨ 2 ≤ r₀ ∧ r₀ = r₁ := by
          simp [BankMode.supported]
        simp only [Option.getD_some, if_true, BankMode.widest_eq_allFour_iff, hsupported,
          Option.some.injEq, reduceCtorEq, or_true, true_and, false_or]
        constructor
        · rintro ⟨hquad | ⟨rfl, rfl⟩, -⟩
          · exact .inl hquad
          · exact .inr ⟨Nat.le_refl 2, rfl, rfl⟩
        · rintro (hquad | ⟨hle, rfl, rfl⟩)
          · exact ⟨.inl hquad, .inl hquad⟩
          · exact ⟨.inr ⟨rfl, rfl⟩, .inr ⟨hle, rfl⟩⟩

/-- Four ranks in a first slot that is wired to all chip selects share a range if that is asked for,
whatever is in the second slot. -/
theorem Options.bankModeOf_eq_allFour_iff {p : Platform} {dimms : List Dimm}
    {source : InterleaveSource} {ctrl : Nat} (hslots : p.slots = 2)
    (hcapable : p.firstSlotQuadCapable = true) (hfour : ranksIn p dimms 0 = 4) :
    (bankModeOf p dimms source ctrl).value = .allFour ↔ source.AsksForAll ctrl := by
  rw [bankModeOf_eq_allFour_iff_joinsSlots hslots, InterleaveSource.JoinsSlots, hcapable, hfour]
  constructor
  · rintro (⟨hasked, -, -⟩ | ⟨-, -, hall | ⟨hauto, -⟩⟩)
    · exact hasked
    · exact .inl hall
    · exact .inr hauto
  · exact fun hasked => .inl ⟨hasked, rfl, rfl⟩

namespace Stage.Gathered

variable {setup : Setup (Option Board)} {p : Platform} {c : Fin 3} {k : Controller}
  (h : Gathered setup p c k)
include h

/-- The ranks of a controller with gathered options admit the interleaving of its chip selects. -/
theorem supported_inputsOf :
    (inputsOf setup p k).options.bankMode.supported (inputsOf setup p k).dimms.length
      ((inputsOf setup p k).ranksIn 0) ((inputsOf setup p k).ranksIn 1) p.firstSlotQuadCapable =
        true := by
  rw [length_inputsOf, ranksIn_inputsOf, ranksIn_inputsOf]
  exact h.supported

/-- When the options leave a single rank beside four in one range. -/
theorem quadBesideSingle_iff :
    Synthesis.QuadBesideSingle (inputsOf setup p k) ↔
      p.slots = 2 ∧ p.firstSlotQuadCapable = true ∧ k.dimms[(0 : Fin 2)].ranks = 4 ∧
        k.dimms[(1 : Fin 2)].ranks = 1 ∧ setup.interleave.AsksForAll c := by
  rw [Synthesis.QuadBesideSingle, length_inputsOf, ranksIn_inputsOf, ranksIn_inputsOf, ranksIn_first]
  refine and_congr_right fun hslots => ?_
  rw [ranksIn_second k hslots]
  constructor
  · rintro ⟨hmode, hfour, hone⟩
    have hsupported := h.supported
    rw [show k.options.bankMode = .allFour from hmode, ranksIn_first, ranksIn_second k hslots,
      hslots, hfour, hone] at hsupported
    have hcapable : p.firstSlotQuadCapable = true := by simpa [BankMode.supported] using hsupported
    refine ⟨hcapable, hfour, hone, ?_⟩
    rw [← Options.bankModeOf_eq_allFour_iff hslots hcapable ((ranksIn_first p k).trans hfour),
      ← h.bankMode_eq]
    exact hmode
  · rintro ⟨hcapable, hfour, hone, hasked⟩
    refine ⟨?_, hfour, hone⟩
    rw [← Options.bankModeOf_eq_allFour_iff hslots hcapable ((ranksIn_first p k).trans hfour),
      ← h.bankMode_eq] at hasked
    exact hasked

/-- **The mark of no range is on the chip selects that are not used**, and on no others, whatever the
modules and the interleaving. There is one exception: one range is asked for all chip selects, four
ranks in a first slot that is wired to all of them admit it, and one rank in the second slot leaves
the last chip select without a rank but with the range. -/
theorem marksUnused_iff (hcount : k.common.dimmCount ≠ 0)
    (hstarts : Synthesis.StartsBelow (inputsOf setup p k) (2 ^ 40 - 2 ^ 24)) (sizeOnly : Bool) :
    ∃ f, (Synthesis.compute (inputsOf setup p k) sizeOnly).value = .ok f ∧
      (Synthesis.MarksUnused k.options.controllerMode f.chipSelects ↔
        ¬(p.slots = 2 ∧ p.firstSlotQuadCapable = true ∧ k.dimms[(0 : Fin 2)].ranks = 4 ∧
          k.dimms[(1 : Fin 2)].ranks = 1 ∧ setup.interleave.AsksForAll c)) := by
  obtain ⟨f, hf, hchipSelects⟩ := exists_compute (i := inputsOf setup p k) sizeOnly hcount
  have hlength : (inputsOf setup p k).dimms.length = 1 ∨ (inputsOf setup p k).dimms.length = 2 := by
    rw [length_inputsOf]
    exact p.slots_eq
  refine ⟨f, hf, ?_⟩
  rw [hchipSelects, ← h.quadBesideSingle_iff]
  exact Synthesis.marksUnused_chipSelects_iff hlength h.supported_inputsOf hstarts

end Stage.Gathered

/-- The widest interleaving of the chip selects is asked for. -/
def Setup.widest : Setup (Option Board) :=
  { Setup.bare 1600000000 with interleave := .uniform none (some .auto) false }

/-- Two modules with the given numbers of ranks, both at the first controller. -/
def pairOf (first second : Nat) : State :=
  twoByTwo (plainModule first (BitVec.allOnes 32)) (plainModule second (BitVec.allOnes 32)) {} {}

/-- Their controller after the placement. -/
def pairArranged (first second : Nat) : Controller :=
  (Stage.arranged .widest (pairOf first second)).controllers[(0 : Fin 3)]

theorem gathered_pairArranged (first second : Nat) :
    Stage.Gathered .widest (pairOf first second).platform 0 (pairArranged first second) :=
  Stage.gathered_arranged .widest
    (show (0 : Fin 3) ∈ (twoByTwo {} {} {} {}).platform.controllerList by decide)

set_option maxRecDepth 100000 in
/-- Beside two ranks that share a range, one rank leaves a chip select without one, with the mark. -/
theorem marksUnused_pairArranged :
    Stage.Gathered .widest (pairOf 2 1).platform 0 (pairArranged 2 1) ∧
      ∃ f, (Synthesis.compute (Stage.inputsOf .widest (pairOf 2 1).platform
          (pairArranged 2 1)) false).value = .ok f ∧
        Synthesis.MarksUnused none f.chipSelects := by
  obtain ⟨f, hf, hmarks⟩ := (gathered_pairArranged 2 1).marksUnused_iff (by decide +kernel)
    ⟨by decide +kernel, by decide +kernel⟩ false
  refine ⟨gathered_pairArranged 2 1, f, hf, ?_⟩
  have hmode : (pairArranged 2 1).options.controllerMode = none := by decide +kernel
  exact hmode ▸ hmarks.2 (by decide +kernel)

set_option maxRecDepth 100000 in
/-- Beside four ranks that share a range, one rank leaves a chip select without one, but with the
range. -/
theorem not_marksUnused_pairArranged :
    Stage.Gathered .widest (pairOf 4 1).platform 0 (pairArranged 4 1) ∧
      ∃ f, (Synthesis.compute (Stage.inputsOf .widest (pairOf 4 1).platform
          (pairArranged 4 1)) false).value = .ok f ∧
        f.chipSelects[(3 : Fin 4)].enabled = false ∧
        f.chipSelects[(3 : Fin 4)].bounds = 0x008000CF#32 ∧
        ¬Synthesis.MarksUnused none f.chipSelects := by
  refine ⟨gathered_pairArranged 4 1, _, rfl, by decide +kernel, by decide +kernel, fun hmarks => ?_⟩
  exact absurd (hmarks.disabled 3 (by decide +kernel)) (by decide +kernel)

end SdramBringup
