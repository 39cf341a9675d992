/-
**What the programming of a controller does.**

The write phase is a fixed list of writes, a delay and a fence, all of it known beforehand. The
enable phase depends on what the controller answers, but whatever that is, it neither moves the reset
line nor ends before its budget of polls is used up. This module tells both, and that a controller
that is written stays disabled.

Main definitions:

* `Programming.commitEvents`, `Programming.writeEvents` — the writes of the write phase, and all of
  its events;
* `Programming.switchOn`, `Programming.switchEvents` — how the enable phase begins, and its events;
* `Event.Enables` — a write that enables the controller whose configuration is at an address;
* `Programming.Permits` — a property of all that the programming of a controller may do;
* `BringUp.writeEvents` — the write phases of some controllers.

Main results:

* `Programming.yields_writePhase_iff` — **the write phase** does these events and no others;
* `Programming.not_enables_of_mem_commitEvents` — it leaves its controller disabled;
* `Programming.only_program` — a phase reads, waits and writes into its controller only;
* `BringUp.yields_programEach_writeOnly` — **the write phases of several controllers** follow each
  other;
* `BringUp.progress_of_mem` — how far a step brings the controllers.
-/

import SdramBringup.BringUp
import SdramBringup.Proofs.Trace

set_option relaxedAutoImplicit false
set_option autoImplicit false

namespace SdramBringup

/-! ### The configuration of a controller -/

/-- Only the configuration of the controller is at its offset. -/
theorem Register.eq_sdramConfig_of_offset {r : Register}
    (h : r.offset = Register.sdramConfig.offset) : r = .sdramConfig := by
  cases r <;> simp only [offset] at h <;> first | rfl | omega

theorem Register.offset_pos_lt (base : Nat) (r : Register) :
    base ≤ base + r.offset ∧ base + r.offset < base + 0x1000 :=
  ⟨Nat.le_add_right base _, Nat.add_lt_add_left r.offset_lt base⟩

/-- A write phase commits the configuration without the bit that enables the controller. -/
theorem RegisterFile.committed_sdramConfig_and (f : RegisterFile) :
    f.committed .sdramConfig &&& Bits.memoryEnable = 0 := by
  rw [committed, BitVec.and_assoc]
  exact (congrArg (f.sdramConfig &&& ·) (by decide)).trans (BitVec.and_zero ..)

/-- The event writes a value that enables the controller whose configuration is at the address. -/
def Event.Enables (address : Nat) (e : Event) : Prop :=
  ∃ value, e = .did (.write address value) ∧ value &&& Bits.memoryEnable ≠ 0

namespace Programming

open Program

/-! ### The write phase -/

/-- The writes of the write phase of the controller at `base`. -/
def commitEvents (base : Nat) (f : RegisterFile) : List Event :=
  f.commits.map fun w => .did (.write (base + w.1.offset) w.2)

/-- The events of the write phase of the controller at `base`. -/
def writeEvents (base : Nat) (f : RegisterFile) : List Event :=
  commitEvents base f ++ [.did (.delay settleTime), .did .fence]

/-- **The write phase** writes the registers, waits and lets all of it come to an end. -/
theorem yields_writePhase_iff {base : Nat} {f : RegisterFile} {events : List Event} {u : Unit} :
    (writePhase base f).Yields events u ↔ events = writeEvents base f := by
  simp only [writePhase, yields_bind_iff, yields_storeAll_iff, yields_perform_iff, writeEvents,
    commitEvents, List.map_map]
  constructor
  · rintro ⟨_, _, _, rfl, ⟨_, _, _, rfl, rfl, rfl⟩, rfl⟩
    rfl
  · rintro rfl
    exact ⟨_, (), _, rfl, ⟨_, (), _, rfl, rfl, rfl⟩, rfl⟩

section Commit

variable {base : Nat} {f : RegisterFile} {e : Event}

theorem mem_commitEvents (he : e ∈ commitEvents base f) :
    ∃ r : Register, e = .did (.write (base + r.offset) (f.committed r)) := by
  obtain ⟨w, hw, rfl⟩ := List.mem_map.1 he
  obtain ⟨r, -, rfl⟩ := List.mem_map.1 hw
  exact ⟨r, rfl⟩

/-- The configuration is always among the registers that are written. -/
theorem commitEvents_ne_nil (base : Nat) (f : RegisterFile) : commitEvents base f ≠ [] := by
  have hmem : Register.sdramConfig ∈
      Register.commitOrder.filter fun r => !(r.optional && f.value r == 0) :=
    List.mem_filter.2 ⟨by decide, rfl⟩
  intro hnil
  have hcommits : f.commits = [] := List.map_eq_nil_iff.1 hnil
  rw [List.map_eq_nil_iff.1 hcommits] at hmem
  exact absurd hmem List.not_mem_nil

theorem not_isReset_of_mem_commitEvents (he : e ∈ commitEvents base f) : ¬e.IsReset := by
  obtain ⟨r, rfl⟩ := mem_commitEvents he
  exact Event.not_isReset_write _ _

/-- All writes go to the block of the controller. -/
theorem writesTo_of_mem_commitEvents (he : e ∈ commitEvents base f) :
    e.WritesTo ⟨base, 0x1000⟩ := by
  obtain ⟨r, rfl⟩ := mem_commitEvents he
  exact Event.writesTo_write_iff.2 (r.offset_pos_lt base)

/-- **A controller that is written stays disabled.** -/
theorem not_enables_of_mem_commitEvents (he : e ∈ commitEvents base f) :
    ¬e.Enables (base + Register.sdramConfig.offset) := by
  obtain ⟨r, rfl⟩ := mem_commitEvents he
  rintro ⟨value, heq, hvalue⟩
  simp only [Event.did.injEq, Action.write.injEq, Nat.add_left_cancel_iff] at heq
  obtain ⟨hoffset, rfl⟩ := heq
  obtain rfl := Register.eq_sdramConfig_of_offset hoffset
  exact hvalue f.committed_sdramConfig_and

end Commit

/-- Apart from the writes the write phase does nothing to a register or to the reset line. -/
theorem mem_writeEvents {base : Nat} {f : RegisterFile} {e : Event} (he : e ∈ writeEvents base f) :
    e ∈ commitEvents base f ∨ e = .did (.delay settleTime) ∨ e = .did .fence := by
  rcases List.mem_append.1 he with he | he
  · exact .inl he
  · exact .inr (by simpa using he)

/-! ### The enable phase -/

/-- The accesses that enable the controller at `base`: its configuration is read and written twice. -/
def switchOn (base : Nat) : Program Unit := do
  perform .fence
  let w ← load (base + Register.sdramConfig.offset)
  store (base + Register.sdramConfig.offset) (w &&& ~~~Bits.bypassInit)
  perform .fence
  store (base + Register.sdramConfig.offset) (w &&& ~~~Bits.bypassInit ||| Bits.memoryEnable)
  perform .fence

/-- The events of enabling a controller whose configuration is read as `w`. -/
def switchEvents (base : Nat) (w : Word) : List Event :=
  [.did .fence, .read (base + Register.sdramConfig.offset) w,
    .did (.write (base + Register.sdramConfig.offset) (w &&& ~~~Bits.bypassInit)), .did .fence,
    .did (.write (base + Register.sdramConfig.offset)
      (w &&& ~~~Bits.bypassInit ||| Bits.memoryEnable)),
    .did .fence]

/-- A controller is enabled, and then it is waited for, the longer the more memory there is. -/
theorem enablePhase_eq (base : Nat) (f : RegisterFile) (clock : Clock) (register : Option Nat) :
    enablePhase base f clock register =
      switchOn base >>= fun _ => threeWayEnabled register >>= fun threeWay =>
        poll (base + Register.sdramConfig2.offset) (pollBudget (sizeUnits f threeWay) f clock) :=
  rfl

theorem events_run_switchOn {σ : Type} (d : Device σ) (base : Nat) (t : Traced σ) :
    ((switchOn base).run d t).2.events =
      t.events ++
        switchEvents base (d.read (base + Register.sdramConfig.offset) (d.act .fence t.state)).1 := by
  change (_ :: _ :: _ :: _ :: _ :: _ :: t.past).reverse = _
  simp only [List.reverse_cons, List.append_assoc]
  rfl

/-- A step that only enables a controller. -/
theorem run_program_enableOnly {σ : Type} (d : Device σ) (base : Nat) (f : RegisterFile)
    (clock : Clock) (register : Option Nat) (t : Traced σ) :
    (program base f clock .enableOnly register).run d t =
      (⟨.enabled, ((enablePhase base f clock register).run d t).1⟩,
        ((enablePhase base f clock register).run d t).2) := by
  simp only [program, run_bind, run_pure]

/-- Both phases in one step are the enable phase after the write phase. -/
theorem run_program_full {σ : Type} (d : Device σ) (base : Nat) (f : RegisterFile) (clock : Clock)
    (register : Option Nat) (t : Traced σ) :
    (program base f clock .full register).run d t =
      (program base f clock .enableOnly register).run d ((writePhase base f).run d t).2 := by
  simp only [program, run_bind]

section Only

variable {P : Event → Prop}

/-- However long the wait is, it reads one register and waits. -/
theorem only_poll {address : Nat} (hread : ∀ value, P (.read address value))
    (hdelay : P (.did (.delay pollInterval))) (budget : Nat) : Only P (poll address budget) := by
  induction budget with
  | zero => exact only_bind (only_load hread) fun v => only_pure _
  | succ budget ih =>
      refine only_bind (only_load hread) fun v => ?_
      by_cases hv : (v &&& Bits.dataInit == 0) = true
      · rw [if_pos hv]
        exact only_pure _
      · rw [if_neg hv]
        exact only_bind (only_perform hdelay) fun _ => ih

theorem only_threeWayEnabled {register : Option Nat}
    (hread : ∀ address value, register = some address → P (.read address value)) :
    Only P (threeWayEnabled register) := by
  cases register with
  | none => exact only_pure _
  | some address =>
      exact only_bind (only_load fun v => hread address v rfl) fun v => only_pure _

end Only

/-! ### What the phases keep to -/

/-- All that the programming of the controller at `base` may do has the property: accesses to its
registers, waits, fences and reads of the register for interleaving among three controllers. -/
structure Permits (base : Nat) (register : Option Nat) (P : Event → Prop) : Prop where
  read : ∀ (r : Register) (value : Word), P (.read (base + r.offset) value)
  threeWay : ∀ address value, register = some address → P (.read address value)
  delay : ∀ n, P (.did (.delay n))
  fence : P (.did .fence)
  write : ∀ (r : Register) (value : Word), P (.did (.write (base + r.offset) value))

/-- Nothing of it moves the reset line. -/
theorem permits_not_isReset (base : Nat) (register : Option Nat) :
    Permits base register fun e => ¬e.IsReset where
  read _ _ := Event.not_isReset_read _ _
  threeWay _ _ _ := Event.not_isReset_read _ _
  delay _ := by simp [Event.IsReset]
  fence := by simp [Event.IsReset]
  write _ _ := Event.not_isReset_write _ _

section Permits

variable {base : Nat} {register : Option Nat} {P : Event → Prop} (h : Permits base register P)
include h

theorem only_enablePhase (f : RegisterFile) (clock : Clock) :
    Only P (enablePhase base f clock register) := by
  refine only_bind (only_perform h.fence) fun _ => ?_
  refine only_bind (only_load (h.read .sdramConfig)) fun v => ?_
  refine only_bind (only_store (h.write .sdramConfig _)) fun _ => ?_
  refine only_bind (only_perform h.fence) fun _ => ?_
  refine only_bind (only_store (h.write .sdramConfig _)) fun _ => ?_
  refine only_bind (only_perform h.fence) fun _ => ?_
  exact only_bind (only_threeWayEnabled h.threeWay) fun threeWay =>
    only_poll (h.read .sdramConfig2) (h.delay _) _

theorem only_writePhase (f : RegisterFile) : Only P (writePhase base f) := by
  intro events u hphase e he
  rw [yields_writePhase_iff.1 hphase] at he
  rcases mem_writeEvents he with he | rfl | rfl
  · obtain ⟨r, rfl⟩ := mem_commitEvents he
    exact h.write r _
  · exact h.delay _
  · exact h.fence

/-- **The phases keep to what is permitted.** -/
theorem only_program (f : RegisterFile) (clock : Clock) (step : ProgramStep) :
    Only P (program base f clock step register) := by
  cases step with
  | writeOnly => exact only_bind (only_writePhase h f) fun _ => only_pure _
  | enableOnly => exact only_bind (only_enablePhase h f clock) fun inTime => only_pure _
  | full =>
      refine only_bind (only_writePhase h f) fun _ => ?_
      exact only_bind (only_enablePhase h f clock) fun inTime => only_pure _

end Permits

/-! ### How far a controller comes -/

/-- How far a step brings a controller. -/
def reached : ProgramStep → Progress
  | .writeOnly => .written
  | .enableOnly | .full => .enabled

theorem progress_of_program {base : Nat} {f : RegisterFile} {clock : Clock} {step : ProgramStep}
    {register : Option Nat} {events : List Event} {p : Programmed}
    (h : (program base f clock step register).Yields events p) : p.progress = reached step := by
  cases step with
  | writeOnly =>
      obtain ⟨_, _, _, -, hend, -⟩ := yields_bind_iff.1 h
      rw [(yields_pure_iff.1 hend).2]
      rfl
  | enableOnly =>
      obtain ⟨_, _, _, -, hend, -⟩ := yields_bind_iff.1 h
      rw [(yields_pure_iff.1 hend).2]
      rfl
  | full =>
      obtain ⟨_, _, _, -, henable, -⟩ := yields_bind_iff.1 h
      obtain ⟨_, _, _, -, hend, -⟩ := yields_bind_iff.1 henable
      rw [(yields_pure_iff.1 hend).2]
      rfl

end Programming

/-! ### Several controllers -/

namespace BringUp

open Program

/-- The events of the write phases of some controllers, one after another. -/
def writeEvents (s : State) (cs : List (Fin 3)) : List Event :=
  cs.flatMap fun c => Programming.writeEvents s.platform.registerBases[c] s.controllers[c].registers

variable {clock : Clock} {s : State} {step : ProgramStep} {cs : List (Fin 3)}
  {progress result : Vector Progress 3} {ws : List Warning} {events : List Event}

theorem programEach_nil (clock : Clock) (s : State) (step : ProgramStep)
    (progress : Vector Progress 3) :
    programEach clock s step [] progress = pure (progress, []) := rfl

theorem programEach_cons (clock : Clock) (s : State) (step : ProgramStep) (c : Fin 3)
    (cs : List (Fin 3)) (progress : Vector Progress 3) :
    programEach clock s step (c :: cs) progress =
      Programming.program s.platform.registerBases[c] s.controllers[c].registers clock step
          s.platform.threeWayRegister >>= fun p =>
        programEach clock s step cs (progress.set c p.progress c.isLt) >>= fun r =>
          pure (r.1, (if p.initialized then [] else [.dataInitTimeout c]) ++ r.2) := rfl

/-- One step on several controllers: the first one, and then the others. -/
theorem yields_programEach_cons_iff {c : Fin 3} :
    (programEach clock s step (c :: cs) progress).Yields events (result, ws) ↔
      ∃ first p second rest, (Programming.program s.platform.registerBases[c]
          s.controllers[c].registers clock step s.platform.threeWayRegister).Yields first p ∧
        (programEach clock s step cs (progress.set c p.progress c.isLt)).Yields second (result, rest) ∧
        events = first ++ second ∧
        ws = (if p.initialized then [] else [.dataInitTimeout c]) ++ rest := by
  rw [programEach_cons]
  simp only [yields_bind_iff, yields_pure_iff, Prod.exists, Prod.mk.injEq]
  constructor
  · rintro ⟨first, p, _, hfirst, ⟨second, result', rest, _, hsecond, ⟨rfl, rfl, rfl⟩, rfl⟩, rfl⟩
    exact ⟨first, p, second, rest, hfirst, hsecond, by rw [List.append_nil], rfl⟩
  · rintro ⟨first, p, second, rest, hfirst, hsecond, rfl, rfl⟩
    exact ⟨first, p, second, hfirst, ⟨second, result, rest, [], hsecond, ⟨rfl, rfl, rfl⟩,
      (List.append_nil second).symm⟩, rfl⟩

/-- **The write phases of several controllers** follow each other. -/
theorem yields_programEach_writeOnly
    (h : (programEach clock s .writeOnly cs progress).Yields events (result, ws)) :
    events = writeEvents s cs := by
  induction cs generalizing progress events ws with
  | nil => exact (yields_pure_iff.1 h).1
  | cons c cs ih =>
      obtain ⟨first, p, second, rest, hfirst, hsecond, rfl, -⟩ := yields_programEach_cons_iff.1 h
      obtain ⟨write, _, last, hwrite, hlast, rfl⟩ := yields_bind_iff.1 hfirst
      rw [Programming.yields_writePhase_iff.1 hwrite, (yields_pure_iff.1 hlast).1, ih hsecond,
        List.append_nil]
      rfl

/-- A step on some controllers keeps to what is permitted at each of them. -/
theorem only_programEach {P : Event → Prop} (clock : Clock) {s : State} (step : ProgramStep)
    {cs : List (Fin 3)}
    (h : ∀ c ∈ cs, Programming.Permits s.platform.registerBases[c] s.platform.threeWayRegister P)
    (progress : Vector Progress 3) : Only P (programEach clock s step cs progress) := by
  induction cs generalizing progress with
  | nil => exact only_pure _
  | cons c cs ih =>
      refine only_bind (Programming.only_program (h c List.mem_cons_self) _ _ _) fun p => ?_
      exact only_bind (ih (fun d hd => h d (List.mem_cons_of_mem c hd)) _) fun _ => only_pure _

/-- A step does not touch how far the other controllers are. -/
theorem progress_of_not_mem
    (h : (programEach clock s step cs progress).Yields events (result, ws)) {c : Fin 3}
    (hc : c ∉ cs) : result[c] = progress[c] := by
  induction cs generalizing progress events ws with
  | nil =>
      have hresult := (yields_pure_iff.1 h).2
      rw [(Prod.mk.inj hresult).1]
  | cons d cs ih =>
      obtain ⟨hd, hrest⟩ := not_or.1 (mt List.mem_cons.2 hc)
      obtain ⟨first, p, second, rest, -, hsecond, -, -⟩ := yields_programEach_cons_iff.1 h
      rw [ih hsecond hrest]
      exact Vector.getElem_set_ne d.isLt c.isLt fun he => hd (Fin.ext he).symm

/-- **Every controller of a step** comes as far as the step brings it. -/
theorem progress_of_mem
    (h : (programEach clock s step cs progress).Yields events (result, ws)) (hcs : cs.Nodup)
    {c : Fin 3} (hc : c ∈ cs) : result[c] = Programming.reached step := by
  induction cs generalizing progress events ws with
  | nil => exact absurd hc List.not_mem_nil
  | cons d cs ih =>
      obtain ⟨hd, hcs⟩ := List.nodup_cons.1 hcs
      obtain ⟨first, p, second, rest, hfirst, hsecond, -, -⟩ := yields_programEach_cons_iff.1 h
      rcases List.mem_cons.1 hc with rfl | hc
      · rw [progress_of_not_mem hsecond hd, ← Programming.progress_of_program hfirst]
        exact Vector.getElem_set_self c.isLt
      · exact ih hsecond hcs hc

end BringUp

end SdramBringup
