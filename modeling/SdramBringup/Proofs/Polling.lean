/-
**The wait for the data initialization.**

A controller that was enabled fills the memory and clears a bit of its second configuration register
when it is done. The program reads that register until it finds the bit cleared, with a delay between
two reads, and gives up when its budget of further reads is used up. This module takes a device that
answers as it likes, looks at the answers that it would give if it was polled for ever, and tells by
the first of them with the bit cleared how often the controller is really polled and whether the wait
ends in time. A controller that is done at the very last poll still is in time.

Main definitions:

* `Device.polled` — the answers of a device that is polled for ever;
* `Programming.firstCleared` — the number of the first answer with the bit cleared, infinity if there
  is none;
* `Programming.pollEvents` — some polls with a delay after each, and a last one;
* `Programming.switched` — the part of the enable phase before the first poll.

Main results:

* `Programming.run_poll` — **the wait**: the number of polls, and whether they end in time;
* `Programming.readAddresses_pollEvents` — how often the register is read;
* `Programming.exists_device_polled` — every sequence of answers is that of some device;
* `BringUp.programEach_polls` — **the wait as a part of the programming** of a controller.
-/

import Mathlib.Data.ENat.Lattice
import SdramBringup.Proofs.Programming

set_option relaxedAutoImplicit false
set_option autoImplicit false

namespace SdramBringup

/-! ### A device that is polled for ever -/

namespace Device

variable {σ : Type}

/-- The device before each poll, if it is polled for ever with a delay between two polls. -/
def pollState (d : Device σ) (address : Nat) : σ → Nat → σ
  | x, 0 => x
  | x, i + 1 => pollState d address (d.act (.delay Programming.pollInterval) (d.read address x).2) i

/-- The answers that the device gives to the polls. -/
def polled (d : Device σ) (address : Nat) (x : σ) (i : Nat) : Word :=
  (d.read address (d.pollState address x i)).1

theorem polled_zero (d : Device σ) (address : Nat) (x : σ) :
    d.polled address x 0 = (d.read address x).1 := rfl

theorem polled_succ (d : Device σ) (address : Nat) (x : σ) (i : Nat) :
    d.polled address x (i + 1) =
      d.polled address (d.act (.delay Programming.pollInterval) (d.read address x).2) i := rfl

/-- A device that answers the reads of one address by a sequence. -/
def answering (address : Nat) (answers : Nat → Word) : Device Nat where
  read a i := if a = address then (answers i, i + 1) else (0, i)
  act _ i := i

theorem polled_answering (address : Nat) (answers : Nat → Word) (n i : Nat) :
    (answering address answers).polled address n i = answers (n + i) := by
  induction i generalizing n with
  | zero => simp [polled_zero, answering]
  | succ i ih =>
      have hread : ((answering address answers).read address n).2 = n + 1 := by simp [answering]
      rw [polled_succ, hread]
      exact (ih (n + 1)).trans (congrArg answers (by omega))

end Device

namespace Programming

open Program

/-! ### How often a controller is polled -/

/-- The number of the first answer with the bit cleared, infinity if there is none. -/
noncomputable def firstCleared (answers : Nat → Word) : ℕ∞ :=
  ⨅ (i : ℕ) (_ : answers i &&& Bits.dataInit = 0), (i : ℕ∞)

/-- The wait stops after `n` polls that find the bit set: at one that finds it cleared, or when the
budget is used up. -/
structure StopsAfter (answers : Nat → Word) (budget n : Nat) : Prop where
  le_budget : n ≤ budget
  set_before : ∀ i < n, answers i &&& Bits.dataInit ≠ 0
  cleared_or_last : answers n &&& Bits.dataInit = 0 ∨ n = budget

namespace StopsAfter

variable {answers : Nat → Word} {budget n : Nat}

/-- The first answer with the bit cleared is not among those before. -/
theorem le_firstCleared (h : StopsAfter answers budget n) : (n : ℕ∞) ≤ firstCleared answers := by
  refine le_iInf₂ fun i hi => ENat.natCast_le_natCast.2 ?_
  by_contra hlt
  exact h.set_before i (by omega) hi

/-- **The number of polls** before the last one: the first answer with the bit cleared, or the
budget. -/
theorem eq_min (h : StopsAfter answers budget n) :
    (n : ℕ∞) = min (firstCleared answers) budget := by
  apply le_antisymm
  · exact le_min h.le_firstCleared (ENat.natCast_le_natCast.2 h.le_budget)
  · rcases h.cleared_or_last with hcleared | rfl
    · exact (min_le_left _ _).trans (iInf₂_le n hcleared)
    · exact min_le_right _ _

/-- **The wait ends in time** exactly when the budget reaches to the first answer with the bit
cleared. -/
theorem cleared_iff (h : StopsAfter answers budget n) :
    answers n &&& Bits.dataInit = 0 ↔ firstCleared answers ≤ budget := by
  constructor
  · intro hcleared
    exact (iInf₂_le n hcleared).trans (ENat.natCast_le_natCast.2 h.le_budget)
  · intro hle
    rcases h.cleared_or_last with hcleared | rfl
    · exact hcleared
    · by_contra hset
      -- otherwise the budget is too small by one
      have hnext : ((n + 1 : ℕ) : ℕ∞) ≤ firstCleared answers := by
        refine le_iInf₂ fun i hi => ENat.natCast_le_natCast.2 ?_
        have hne : i ≠ n := fun he => hset (he ▸ hi)
        have hge : ¬i < n := fun hlt => h.set_before i hlt hi
        omega
      exact absurd (ENat.natCast_le_natCast.1 (hnext.trans hle)) (Nat.not_succ_le_self n)

/-- One more poll before. -/
theorem succ (hset : answers 0 &&& Bits.dataInit ≠ 0)
    (h : StopsAfter (fun i => answers (i + 1)) budget n) :
    StopsAfter answers (budget + 1) (n + 1) where
  le_budget := Nat.succ_le_succ h.le_budget
  set_before i hi := by
    cases i with
    | zero => exact hset
    | succ i => exact h.set_before i (Nat.lt_of_succ_lt_succ hi)
  cleared_or_last := h.cleared_or_last.imp id (congrArg (· + 1))

end StopsAfter

/-! ### The events of the wait -/

/-- Polls with a delay after each of them, and a last one. -/
def pollEvents (address : Nat) (answers : Nat → Word) (n : Nat) : List Event :=
  ((List.range n).flatMap fun i =>
      [Event.read address (answers i), .did (.delay pollInterval)]) ++
    [.read address (answers n)]

theorem pollEvents_succ (address : Nat) (answers : Nat → Word) (n : Nat) :
    pollEvents address answers (n + 1) =
      .read address (answers 0) :: .did (.delay pollInterval) ::
        pollEvents address (fun i => answers (i + 1)) n := by
  rw [pollEvents, List.range_succ_eq_map, List.flatMap_cons, List.flatMap_map]
  rfl

/-- **How often the register is read**: once more than there are delays. -/
theorem readAddresses_pollEvents (address : Nat) (answers : Nat → Word) (n : Nat) :
    (pollEvents address answers n).filterMap Event.readAddress? =
      List.replicate (n + 1) address := by
  induction n generalizing answers with
  | zero => rfl
  | succ n ih =>
      rw [pollEvents_succ, List.replicate_succ, ← ih fun i => answers (i + 1)]
      rfl

/-- **The wait**: the polls, and whether they end in time. -/
theorem run_poll {σ : Type} (d : Device σ) (address budget : Nat) (t : Traced σ) :
    ∃ n, StopsAfter (d.polled address t.state) budget n ∧
      ((poll address budget).run d t).2.events =
        t.events ++ pollEvents address (d.polled address t.state) n ∧
      ((poll address budget).run d t).1 =
        (d.polled address t.state n &&& Bits.dataInit == 0) := by
  induction budget generalizing t with
  | zero =>
      refine ⟨0, ⟨Nat.le_refl 0, fun i hi => absurd hi (Nat.not_lt_zero i), .inr rfl⟩, ?_, rfl⟩
      exact List.reverse_cons
  | succ budget ih =>
      -- the first poll, and what comes after its answer
      have hrun : (poll address (budget + 1)).run d t =
          Program.run d (if (d.read address t.state).1 &&& Bits.dataInit == 0 then pure true
            else perform (.delay pollInterval) >>= fun _ => poll address budget)
            ⟨(d.read address t.state).2,
              .read address (d.read address t.state).1 :: t.past⟩ := rfl
      by_cases hfirst : (d.read address t.state).1 &&& Bits.dataInit = 0
      · have hstops : StopsAfter (d.polled address t.state) (budget + 1) 0 :=
          ⟨Nat.zero_le _, fun i hi => absurd hi (Nat.not_lt_zero i), .inl hfirst⟩
        rw [hrun, if_pos (beq_iff_eq.2 hfirst)]
        exact ⟨0, hstops, List.reverse_cons, (beq_iff_eq.2 hfirst).symm⟩
      · rw [hrun, if_neg (by simpa using hfirst), run_bind]
        obtain ⟨n, hstops, hevents, hresult⟩ := ih
          ⟨d.act (.delay pollInterval) (d.read address t.state).2,
            .did (.delay pollInterval) :: .read address (d.read address t.state).1 :: t.past⟩
        refine ⟨n + 1, hstops.succ hfirst, ?_, hresult⟩
        refine hevents.trans ?_
        rw [pollEvents_succ]
        simp only [Traced.events, List.reverse_cons, List.append_assoc, List.cons_append,
          List.nil_append]
        rfl

/-! ### The enable phase -/

/-- The part of the enable phase of the controller at `base` before the first poll, and whether three
controllers are interleaved. -/
def switched (base : Nat) (register : Option Nat) : Program Bool :=
  switchOn base >>= fun _ => threeWayEnabled register

/-- Before the first poll nothing looks at the register that is polled, unless that is the one for
interleaving among three controllers. -/
theorem only_switched {base : Nat} {register : Option Nat}
    (h : register ≠ some (base + Register.sdramConfig2.offset)) :
    Only (fun e => e.readAddress? ≠ some (base + Register.sdramConfig2.offset))
      (switched base register) := by
  have hconfig : base + Register.sdramConfig.offset ≠ base + Register.sdramConfig2.offset :=
    fun he => absurd (Nat.add_left_cancel he) (by decide)
  have haction : ∀ action : Action,
      (Event.did action).readAddress? ≠ some (base + Register.sdramConfig2.offset) :=
    fun _ => nofun
  refine only_bind ?_ fun _ => only_threeWayEnabled ?_
  · refine only_bind (only_perform (haction _)) fun _ => ?_
    refine only_bind (only_load fun w he => hconfig (Option.some.inj he)) fun w => ?_
    refine only_bind (only_store (haction _)) fun _ => only_bind (only_perform (haction _)) fun _ => ?_
    exact only_bind (only_store (haction _)) fun _ => only_perform (haction _)
  · exact fun address w hregister he => h (hregister.trans he)

theorem run_enablePhase {σ : Type} (d : Device σ) (base : Nat) (f : RegisterFile) (clock : Clock)
    (register : Option Nat) (t : Traced σ) :
    (enablePhase base f clock register).run d t =
      (poll (base + Register.sdramConfig2.offset)
        (pollBudget (sizeUnits f ((switched base register).run d t).1) f clock)).run d
          ((switched base register).run d t).2 := by
  rw [enablePhase_eq, switched, run_bind, run_bind, run_bind]

/-- A program that does not poll leaves a device to its next answer. -/
theorem state_run_answering {α : Type} {address : Nat} (answers : Nat → Word) {p : Program α}
    (h : Only (fun e => e.readAddress? ≠ some address) p) (t : Traced Nat) :
    (p.run (.answering address answers) t).2.state = t.state := by
  induction p generalizing t with
  | done a => rfl
  | read a next ih =>
      obtain ⟨hne, hnext⟩ := only_read_iff.1 h ((Device.answering address answers).read a t.state).1
      have hother : a ≠ address := fun he => hne (congrArg some he)
      refine (ih _ hnext _).trans ?_
      exact congrArg Prod.snd (if_neg hother)
  | act action next ih => exact ih (only_act_iff.1 h).2 _

/-- **Every sequence of answers** to the polls is that of some device. -/
theorem exists_device_polled {base : Nat} {register : Option Nat}
    (h : register ≠ some (base + Register.sdramConfig2.offset)) (answers : Nat → Word) :
    ∃ (d : Device Nat) (t : Traced Nat),
      d.polled (base + Register.sdramConfig2.offset) ((switched base register).run d t).2.state =
        answers := by
  refine ⟨.answering (base + Register.sdramConfig2.offset) answers, ⟨0, []⟩, funext fun i => ?_⟩
  rw [state_run_answering answers (only_switched h), Device.polled_answering, Nat.zero_add]

end Programming

/-! ### The programming of a controller -/

/-- How often an address is read. -/
def reads (address : Nat) (events : List Event) : Nat :=
  (events.filterMap Event.readAddress?).count address

theorem reads_append (address : Nat) (first second : List Event) :
    reads address (first ++ second) = reads address first + reads address second := by
  rw [reads, List.filterMap_append, List.count_append]
  rfl

theorem reads_pollEvents (address : Nat) (answers : Nat → Word) (n : Nat) :
    reads address (Programming.pollEvents address answers n) = n + 1 := by
  rw [reads, Programming.readAddresses_pollEvents, List.count_replicate_self]

/-- What a program that does not read an address does to the count of its reads. -/
theorem Program.Only.reads_run {σ α : Type} {address : Nat} {p : Program α}
    (h : Only (fun e => e.readAddress? ≠ some address) p) (d : Device σ) (t : Traced σ) :
    reads address (p.run d t).2.events = reads address t.events := by
  obtain ⟨events, hyields, hevents⟩ := yields_run d p t
  have hnone : reads address events = 0 := by
    refine List.count_eq_zero_of_not_mem fun hmem => ?_
    obtain ⟨e, he, haddress⟩ := List.mem_filterMap.1 hmem
    exact h events _ hyields e he haddress
  rw [hevents, reads_append, hnone, Nat.add_zero]

namespace BringUp

open Program Programming

/-- A step on a single controller. -/
theorem run_programEach_singleton {σ : Type} (d : Device σ) (clock : Clock) (s : State)
    (step : ProgramStep) (c : Fin 3) (progress : Vector Progress 3) (t : Traced σ) :
    (programEach clock s step [c] progress).run d t =
      let ran := (program s.platform.registerBases[c] s.controllers[c].registers clock step
        s.platform.threeWayRegister).run d t
      ((progress.set c ran.1.progress c.isLt,
        if ran.1.initialized then [] else [.dataInitTimeout c]), ran.2) := by
  rw [programEach_cons, run_bind, run_bind]
  simp only [programEach_nil, run_pure, List.append_nil]

/-- **The wait as a part of the programming of a controller**, in a step of its own or right after
the write phase. For every device, whatever its registers answer: with the budget for the size of
the memory, and the answers to the polls that follow the accesses that enable the controller, it is
polled until the first answer with the bit cleared, or once more than the budget has polls, with a
delay between two polls. It is enabled in the end, and there is a warning exactly if the first answer
with the bit cleared is beyond the budget, or there is none. -/
theorem programEach_polls {σ : Type} (d : Device σ) (clock : Clock) (s : State) (c : Fin 3)
    (progress : Vector Progress 3) (t : Traced σ) :
    let base := s.platform.registerBases[c]
    let f := s.controllers[c].registers
    let address := base + Register.sdramConfig2.offset
    let ready := (switched base s.platform.threeWayRegister).run d t
    let answers := d.polled address ready.2.state
    let budget := pollBudget (sizeUnits f ready.1) f clock
    let ran := (programEach clock s .enableOnly [c] progress).run d t
    (∃ n : Nat, (n : ℕ∞) = min (firstCleared answers) budget ∧
        ran.2.events = ready.2.events ++ pollEvents address answers n ∧
        (s.platform.threeWayRegister ≠ some address →
          reads address ran.2.events = reads address t.events + (n + 1))) ∧
      ran.1.1 = progress.set c .enabled c.isLt ∧
      (firstCleared answers ≤ budget → ran.1.2 = []) ∧
      (budget < firstCleared answers → ran.1.2 = [.dataInitTimeout c]) ∧
      (programEach clock s .full [c] progress).run d t =
        (programEach clock s .enableOnly [c] progress).run d ((writePhase base f).run d t).2 := by
  intro base f address ready answers budget ran
  obtain ⟨n, hstops, hevents, hresult⟩ := run_poll d address budget ready.2
  have hran : ran = ((progress.set c .enabled c.isLt,
      if ((poll address budget).run d ready.2).1 then [] else [.dataInitTimeout c]),
      ((poll address budget).run d ready.2).2) := by
    refine (run_programEach_singleton d clock s .enableOnly c progress t).trans ?_
    rw [run_program_enableOnly, run_enablePhase]
  have hpolls : ran.2.events = ready.2.events ++ pollEvents address answers n := by
    rw [hran]
    exact hevents
  have hwarnings : ran.1.2 =
      if answers n &&& Bits.dataInit == 0 then [] else [.dataInitTimeout c] := by
    rw [hran, ← hresult]
  refine ⟨⟨n, hstops.eq_min, hpolls, fun hregister => ?_⟩, by rw [hran], fun hle => ?_,
    fun hlt => ?_, ?_⟩
  · rw [hpolls, reads_append, (only_switched hregister).reads_run, reads_pollEvents]
  · rw [hwarnings, if_pos (beq_iff_eq.2 (hstops.cleared_iff.2 hle))]
  · have hset : answers n &&& Bits.dataInit ≠ 0 := fun hcleared =>
      absurd (hstops.cleared_iff.1 hcleared) (not_le_of_gt hlt)
    rw [hwarnings, if_neg (by simpa using hset)]
  · rw [run_programEach_singleton, run_programEach_singleton, run_program_full]

end BringUp

end SdramBringup
