/-
**Whether the reported memory is there.**

The size of the memory is read back from the highest address that a chip select maps. The addresses
come from the placement, which gives room to every module in a slot, whether its controller was left
out for its timing or the module was ignored for its ranks. The chip selects come from the
controllers that are programmed. So memory that is not there can push memory that is there to higher
addresses, and then the report counts both.

Main definitions:

* `State.backed` — the modules that count, of the controllers that are programmed;
* `State.mappedEnds` — where what a controller maps ends, by the placement.

Main results:

* `State.bankModesSupported_placed` — the ranks admit the interleaving of the chip selects;
* `State.totalMemory_computed_le_iff` — the size of the memory by what is mapped;
* `Session.total_le_backed_iff` — **the reported memory is there exactly when nothing is mapped
  beyond what is there**.
-/

import SdramBringup.Proofs.Options
import SdramBringup.Proofs.Reach
import SdramBringup.Proofs.Stages

set_option relaxedAutoImplicit false
set_option autoImplicit false

namespace SdramBringup

variable {B : Type} [BoardHook B]

/-! ### Interleaving that the ranks admit -/

namespace State

/-- The ranks of every controller in use admit the interleaving of its chip selects. -/
def BankModesSupported (s : State) : Prop :=
  ∀ c ∈ s.platform.controllerList,
    s.controllers[c].options.bankMode.supported s.platform.slots
      (Options.ranksIn s.platform (s.installed c) 0) (Options.ranksIn s.platform (s.installed c) 1)
      s.platform.firstSlotQuadCapable = true

theorem bankModesSupported_derived (setup : Setup (Option Board)) (s : State) :
    (Stage.derived setup s).BankModesSupported := by
  intro c hc
  rw [Stage.platform_derived] at hc ⊢
  rw [installed, Stage.controllers_derived, if_pos hc, Stage.platform_derived]
  exact Options.supported_bankMode_derive setup.clock s.controllers[c].common
    (s.controllers[c].installed s.platform.slots) c s.platform setup.interleave setup.board

theorem bankModesSupported_checkInterleaving {s : State} (h : s.BankModesSupported) :
    s.checkInterleaving.value.BankModesSupported := by
  intro c hc
  rw [platform_checkInterleaving] at hc ⊢
  rw [installed, platform_checkInterleaving, controllers_checkInterleaving]
  split <;> exact h c hc

theorem ranksIn_eq_of_map {p : Platform} {ds es : List Dimm}
    (h : ds.map (·.ranks) = es.map (·.ranks)) (slot : Nat) :
    Options.ranksIn p ds slot = Options.ranksIn p es slot := by
  rw [Options.ranksIn, Options.ranksIn, ← List.getElem?_map, ← List.getElem?_map, List.map_take,
    List.map_take, h]

theorem bankModesSupported_placing {s : State} (h : s.BankModesSupported) :
    s.placing.state.BankModesSupported := by
  intro c hc
  rw [platform_placing] at hc ⊢
  have hranks := map_installed_placing hc (f := Dimm.ranks) fun _ _ => rfl
  rw [options_placing hc, ranksIn_eq_of_map hranks, ranksIn_eq_of_map hranks]
  exact h c hc

theorem bankModesSupported_placed {s : State} (h : s.BankModesSupported) :
    (Stage.placed s).BankModesSupported := by
  rw [Stage.placed, assignAddresses_checkInterleaving]
  exact bankModesSupported_placing (bankModesSupported_checkInterleaving h)

/-! ### The size that is reported -/

/-- The ends of what the chip selects of a controller are mapped to. -/
def mappedEnds (setup : Setup B) (s : State) (c : Fin 3) : List Nat :=
  Synthesis.ends (Stage.inputsOf setup s.platform s.controllers[c])

/-- The modules of a controller that its common timing counts. -/
def counted (s : State) (c : Fin 3) : List Dimm :=
  (CommonTiming.participants s.platform (s.installed c)).map (·.2)

/-- The memory that is there: the modules that count, of all controllers that are programmed. -/
def backed (s : State) : Nat :=
  ((BringUp.programmable s).map fun c =>
    ((s.counted c).map (Placement.room s.controllers[c].widthShift)).sum).sum

theorem mem_programmable {s : State} {c : Fin 3} :
    c ∈ BringUp.programmable s ↔
      c ∈ s.platform.controllerList ∧ s.controllers[c].common.dimmCount ≠ 0 := by
  rw [BringUp.programmable, List.mem_filter, bne_iff_ne]

theorem nodup_programmable (s : State) : (BringUp.programmable s).Nodup :=
  s.platform.nodup_controllerList.filter _

theorem programmable_computed (setup : Setup B) (sizeOnly : Bool) (s : State) :
    BringUp.programmable (Stage.computed setup sizeOnly s) = BringUp.programmable s := by
  rw [BringUp.programmable, BringUp.programmable, Stage.platform_computed]
  exact List.filter_congr fun c hc => by rw [Stage.controllers_computed, if_pos hc]

section Size

variable {setup : Setup B} (sizeOnly : Bool)

/-- The chip selects of a controller lie within a bound exactly when nothing of what it maps lies
beyond it. -/
theorem forall_rangeEnd?_iff {p : Platform} {k : Controller} {bound : Nat}
    (hcount : k.common.dimmCount ≠ 0)
    (htop : Synthesis.Within (Stage.inputsOf setup p k) (2 ^ 40 - 2 ^ 24)) :
    (∀ cs : Fin 4, ∀ e,
        rangeEnd? (Stage.registersFor setup sizeOnly p k).chipSelects[cs] = some e →
          (e + 1) * 2 ^ 24 ≤ bound) ↔
      Synthesis.Within (Stage.inputsOf setup p k) bound := by
  rw [Stage.chipSelects_registersFor, if_neg hcount, Synthesis.Within]
  refine forall_congr' fun cs => ?_
  have hunit : Synthesis.hasRank (Stage.inputsOf setup p k) cs = true →
      ∀ range, Synthesis.range? (Stage.inputsOf setup p k) cs = some range →
        range.2 / 2 ^ 24 + 1 < 2 ^ 16 := by
    intro hrank range hrange
    have := htop cs hrank range hrange
    omega
  rw [Synthesis.getElem_chipSelects (Stage.dimms_inputsOf_ne_nil setup p k),
    Synthesis.rangeEnd?_chipSelect hunit]
  cases Synthesis.hasRank (Stage.inputsOf setup p k) cs with
  | false => simp
  | true =>
      rw [if_pos rfl]
      constructor
      · intro h _ range hrange
        exact h (range.2 / 2 ^ 24) (by rw [hrange]; rfl)
      · intro h e he
        obtain ⟨range, hrange, rfl⟩ := Option.map_eq_some_iff.1 he
        exact h rfl range hrange

/-- A controller that is not programmed has no ends. -/
theorem rangeEnd?_of_dimmCount {p : Platform} {k : Controller} (hcount : k.common.dimmCount = 0)
    (cs : Fin 4) :
    rangeEnd? (Stage.registersFor setup sizeOnly p k).chipSelects[cs] = none := by
  rw [Stage.chipSelects_registersFor, if_pos hcount]
  simp [rangeEnd?, ChipSelectRegisters.enabled, getElem_fin]

/-- The size of the memory by the controllers that are programmed. -/
theorem totalMemory_computed_le_iff {s : State} {n : Nat}
    (htop : ∀ c ∈ BringUp.programmable s,
      Synthesis.Within (Stage.inputsOf setup s.platform s.controllers[c]) (2 ^ 40 - 2 ^ 24)) :
    (Stage.computed setup sizeOnly s).totalMemory ≤ n ↔
      ∀ c ∈ BringUp.programmable s,
        Synthesis.Within (Stage.inputsOf setup s.platform s.controllers[c])
          (s.platform.sdramBase + n) := by
  rw [totalMemory_le_iff, Stage.platform_computed]
  constructor
  · intro h c hc
    obtain ⟨hlist, hcount⟩ := mem_programmable.1 hc
    refine (forall_rangeEnd?_iff sizeOnly hcount (htop c hc)).1 fun cs e he => ?_
    refine h e (mem_rangeEnds.2 ⟨c, ?_, cs, ?_⟩)
    · rwa [Stage.platform_computed]
    · rwa [Stage.controllers_computed, if_pos hlist]
  · intro h e he
    obtain ⟨c, hlist, cs, he⟩ := mem_rangeEnds.1 he
    rw [Stage.platform_computed] at hlist
    rw [Stage.controllers_computed, if_pos hlist] at he
    by_cases hcount : s.controllers[c].common.dimmCount = 0
    · rw [rangeEnd?_of_dimmCount sizeOnly hcount] at he
      exact absurd he (by simp)
    · have hc := mem_programmable.2 ⟨hlist, hcount⟩
      exact (forall_rangeEnd?_iff sizeOnly hcount (htop c hc)).2 (h c hc) cs e he

end Size

end State

/-! ### The whole -/

/-- What a programmed controller maps lies within a bound exactly when it ends there. -/
theorem State.BankModesSupported.within_iff_mappedEnds {s : State} (h : s.BankModesSupported)
    (setup : Setup B) {c : Fin 3} (hc : c ∈ BringUp.programmable s) {bound : Nat}
    (hbound : bound ≤ 2 ^ 40) :
    Synthesis.Within (Stage.inputsOf setup s.platform s.controllers[c]) bound ↔
      ∀ e ∈ s.mappedEnds setup c, unitEnd e ≤ bound := by
  have hlength := Stage.length_inputsOf setup s.platform s.controllers[c]
  have hsupported := h c (State.mem_programmable.1 hc).1
  rw [State.installed, ← Stage.ranksIn_inputsOf setup, ← Stage.ranksIn_inputsOf setup, ← hlength]
    at hsupported
  have hslots := hlength ▸ s.platform.slots_eq
  exact Synthesis.within_iff hslots hbound hsupported

/-- The size of the memory by what the programmed controllers map. -/
theorem State.totalMemory_computed_le_iff_mappedEnds {s : State} (h : s.BankModesSupported)
    {setup : Setup B} (sizeOnly : Bool) {n : Nat}
    (htop : ∀ c ∈ BringUp.programmable s, ∀ e ∈ s.mappedEnds setup c, unitEnd e < 2 ^ 40) :
    (Stage.computed setup sizeOnly s).totalMemory ≤ n ↔
      ∀ c ∈ BringUp.programmable s, ∀ e ∈ s.mappedEnds setup c,
        unitEnd e ≤ s.platform.sdramBase + n := by
  have hbelow : ∀ c ∈ BringUp.programmable s, ∀ e ∈ s.mappedEnds setup c,
      unitEnd e ≤ 2 ^ 40 - 2 ^ 24 := by
    intro c hc e he
    have hlt := htop c hc e he
    unfold unitEnd at hlt ⊢
    omega
  rw [State.totalMemory_computed_le_iff sizeOnly fun c hc =>
    (h.within_iff_mappedEnds setup hc (by decide)).2 (hbelow c hc)]
  refine forall₂_congr fun c hc => ?_
  by_cases hbound : s.platform.sdramBase + n ≤ 2 ^ 40
  · exact h.within_iff_mappedEnds setup hc hbound
  · -- everything lies below the top of the address space
    have hwithin := (h.within_iff_mappedEnds setup hc (by decide)).2 (hbelow c hc)
    refine iff_of_true (fun cs hrank range hrange => ?_) fun e he => ?_
    · have := hwithin cs hrank range hrange
      omega
    · have := hbelow c hc e he
      omega

/-- What the programmed controllers map does not depend on their registers. -/
theorem State.mappedEnds_computed {s : State} {c : Fin 3} (hc : c ∈ BringUp.programmable s)
    (setup : Setup B) (sizeOnly : Bool) :
    (Stage.computed setup sizeOnly s).mappedEnds setup c = s.mappedEnds setup c := by
  rw [State.mappedEnds, Stage.platform_computed, Stage.controllers_computed,
    if_pos (State.mem_programmable.1 hc).1]
  rfl

/-- **The reported memory is there exactly when nothing is mapped beyond what is there.** A run that
succeeds reports no more than the modules that count, of the controllers that are programmed,
provided that no programmed controller maps a module to addresses beyond as much memory. What pushes
modules beyond it is room that the placement leaves to others: to controllers that are left out, and
to modules that are ignored. -/
theorem Session.total_le_backed_iff {session after : Session (Option Board)} {sizeOnly : Bool}
    {total : Nat} (h : session.runFrom .readImages sizeOnly = (after, .ok total))
    (htop : ∀ c ∈ BringUp.programmable after.state,
      ∀ e ∈ after.state.mappedEnds session.setup c, unitEnd e < 2 ^ 40) :
    total ≤ after.state.backed ↔
      ∀ c ∈ BringUp.programmable after.state, ∀ e ∈ after.state.mappedEnds session.setup c,
        unitEnd e ≤ after.state.platform.sdramBase + after.state.backed := by
  obtain ⟨modules, -, hstate, rfl⟩ := session.state_runFrom_readImages h
  have hsupported := State.bankModesSupported_placed
    (State.bankModesSupported_derived session.setup (Stage.reconciled session.setup modules))
  rw [hstate, State.programmable_computed] at htop
  rw [hstate, State.programmable_computed, Stage.platform_computed]
  rw [State.totalMemory_computed_le_iff_mappedEnds hsupported sizeOnly fun c hc e he =>
    htop c hc e (by rwa [State.mappedEnds_computed hc])]
  exact forall₂_congr fun c hc => by rw [State.mappedEnds_computed hc]

theorem Except.eq_ok_of_toOption {ε α : Type} {e : Except ε α} {a : α}
    (h : e.toOption = some a) : e = .ok a := by
  cases e with
  | error _ => exact absurd h (by simp [Except.toOption])
  | ok b => rw [Option.some.inj h]

/-- The image of a module of 256 MiB whose devices support the given CAS latencies, from 4 clocks
on. -/
def moduleImage (latencies : UInt8) : Spd.Image :=
  Spd.Image.withCrc (.ofBytes [0, 0, 0x0B, 2, 0, 0, 0, 1, 3, 0, 0, 1, 0, 0, latencies])

/-- Two controllers with a module each. Without any CAS latency a controller is left out. -/
def Session.twoModules (latencies₀ latencies₁ : UInt8) : Session (Option Board) :=
  .start
    { Setup.bare 1600000000 with
      images := fun c _ => some (moduleImage (if c = 0 then latencies₀ else latencies₁)) }
    { Platform.singleSlot with controllerCount := 2 }

set_option maxRecDepth 100000 in
/-- A controller that is left out behind the others adds nothing. -/
theorem Session.total_le_backed_twoModules :
    ∃ after, (twoModules 1 0).runFrom .readImages true = (after, .ok (2 ^ 28)) ∧
      2 ^ 28 ≤ after.state.backed := by
  have hresult : ((twoModules 1 0).runFrom .readImages true).2.toOption = some (2 ^ 28) := by
    decide +kernel
  have hrun : (twoModules 1 0).runFrom .readImages true =
      (((twoModules 1 0).runFrom .readImages true).1, .ok (2 ^ 28)) :=
    Prod.ext rfl (Except.eq_ok_of_toOption hresult)
  exact ⟨_, hrun, (total_le_backed_iff hrun (by decide +kernel)).2 (by decide +kernel)⟩

set_option maxRecDepth 100000 in
/-- A controller that is left out before another one is counted with it. -/
theorem Session.backed_lt_total_twoModules :
    ∃ after, (twoModules 0 1).runFrom .readImages true = (after, .ok (2 ^ 29)) ∧
      after.state.backed = 2 ^ 28 := by
  have hresult : ((twoModules 0 1).runFrom .readImages true).2.toOption = some (2 ^ 29) := by
    decide +kernel
  exact ⟨((twoModules 0 1).runFrom .readImages true).1,
    Prod.ext rfl (Except.eq_ok_of_toOption hresult), by decide +kernel⟩

end SdramBringup
