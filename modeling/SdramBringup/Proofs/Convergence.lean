/-
**Writing all controllers first.**

If the memory is held in reset, a bring-up writes the registers of all controllers and enables them
afterwards; otherwise it writes and enables one controller after the other. The write phase of a
controller and the enable phase of another one have no register in common, so that they can be
exchanged one by one: both ways end with the same words in all registers and the same report, provided
that the registers keep to themselves.

Main definitions:

* `Platform.Apart` — some controllers share no register;
* `Session.withResetLine` — the session on a board with another reset line.

Main results:

* `Programming.exec_program_full` — both phases in one step are the two steps;
* `BringUp.exec_programEach_full` — **controllers one by one**, or all of them in two steps;
* `BringUp.exec_programControllers_congr` — the reset makes no difference to the programming;
* `Session.exec_bringUp_of_ok`, `Session.exec_bringUp_of_error` — a bring-up by its configuration;
* `Session.bringUp_withResetLine` — **the reset makes no difference** to the whole bring-up, and
  `Session.exec_bringUp_withResetLine_bank` for the registers that can be run.
-/

import SdramBringup.Proofs.Cells
import SdramBringup.Proofs.Footprint

set_option relaxedAutoImplicit false
set_option autoImplicit false

namespace SdramBringup

variable {B : Type} [BoardHook B]

open Program

/-- The controllers share no register, and the register for interleaving among three controllers
belongs to none of them. -/
structure Platform.Apart (p : Platform) (cs : List (Fin 3)) : Prop where
  blocks : ∀ c ∈ cs, ∀ d ∈ cs, c ≠ d → (p.block c).Disjoint (p.block d)
  threeWay : ∀ c ∈ cs, ∀ address, p.threeWayRegister = some address →
    ¬(p.block c).Contains address

theorem Platform.Apart.of_cons {p : Platform} {c : Fin 3} {cs : List (Fin 3)}
    (h : p.Apart (c :: cs)) : p.Apart cs where
  blocks d hd e he := h.blocks d (List.mem_cons_of_mem c hd) e (List.mem_cons_of_mem c he)
  threeWay d hd := h.threeWay d (List.mem_cons_of_mem c hd)

/-- Controllers in use share no register if no two of the platform do. -/
theorem Platform.BlocksDisjoint.apart_of_subset {p : Platform} (h : p.BlocksDisjoint)
    {cs : List (Fin 3)} (hcs : cs ⊆ p.controllerList) : p.Apart cs where
  blocks c hc d hd := h.apart c (hcs hc) d (hcs hd)
  threeWay c hc := h.threeWay c (hcs hc)

/-! ### One controller -/

namespace Programming

/-- **Both phases in one step** are the step that writes and the step that enables. -/
theorem exec_program_full {σ : Type} (d : Device σ) (base : Nat) (f : RegisterFile) (clock : Clock)
    (register : Option Nat) (x : σ) :
    (program base f clock .full register).exec d x =
      (program base f clock .enableOnly register).exec d
        ((program base f clock .writeOnly register).exec d x).2 := by
  simp only [program, exec_bind, exec_pure]

/-- The programming of a controller accesses its block and the register for interleaving among three
controllers. -/
theorem within_program (p : Platform) (c : Fin 3) (f : RegisterFile) (clock : Clock)
    (step : ProgramStep) :
    Within (fun a => (p.block c).Contains a ∨ p.threeWayRegister = some a)
      (program p.registerBases[c] f clock step p.threeWayRegister) := by
  refine only_program ?_ f clock step
  constructor
  case read =>
    rintro r value _ ⟨⟩
    exact .inl (r.offset_pos_lt _)
  case threeWay =>
    rintro address value hregister _ ⟨⟩
    exact .inr hregister
  case delay => exact fun n address h => absurd h (by simp [Event.accessedAddress?])
  case fence => exact fun address h => absurd h (by simp [Event.accessedAddress?])
  case write =>
    rintro r value _ ⟨⟩
    exact .inl (r.offset_pos_lt _)

end Programming

/-! ### Several controllers -/

namespace BringUp

variable {clock : Clock} {s : State} {cs : List (Fin 3)}

/-- The write phases of some controllers access their blocks only. -/
theorem within_programEach_writeOnly (clock : Clock) (s : State) (cs : List (Fin 3))
    (progress : Vector Progress 3) :
    Within (fun a => ∃ c ∈ cs, (s.platform.block c).Contains a)
      (programEach clock s .writeOnly cs progress) := by
  rintro events ⟨result, ws⟩ h e he address haddress
  rw [yields_programEach_writeOnly h] at he
  obtain ⟨c, hc, hphase⟩ := List.mem_flatMap.1 he
  rcases Programming.mem_writeEvents hphase with hcommit | rfl | rfl
  · obtain ⟨r, rfl⟩ := Programming.mem_commitEvents hcommit
    obtain rfl := Option.some.inj haddress
    exact ⟨c, hc, r.offset_pos_lt _⟩
  · exact absurd haddress (by simp [Event.accessedAddress?])
  · exact absurd haddress (by simp [Event.accessedAddress?])

theorem exec_programEach_cons {σ : Type} (d : Device σ) (clock : Clock) (s : State)
    (step : ProgramStep) (c : Fin 3) (cs : List (Fin 3)) (progress : Vector Progress 3) (x : σ) :
    (programEach clock s step (c :: cs) progress).exec d x =
      let first := (Programming.program s.platform.registerBases[c] s.controllers[c].registers clock
        step s.platform.threeWayRegister).exec d x
      let rest := (programEach clock s step cs (progress.set c first.1.progress c.isLt)).exec d
        first.2
      ((rest.1.1, (if first.1.initialized then [] else [.dataInitTimeout c]) ++ rest.1.2),
        rest.2) := by
  rw [programEach_cons, exec_bind, exec_bind]
  rfl

/-- Writing warns of nothing. -/
theorem warnings_programEach_writeOnly {σ : Type} (d : Device σ) (progress : Vector Progress 3)
    (x : σ) : ((programEach clock s .writeOnly cs progress).exec d x).1.2 = [] := by
  induction cs generalizing progress x with
  | nil => rfl
  | cons c cs ih =>
      have hwritten : ((Programming.program s.platform.registerBases[c] s.controllers[c].registers
          clock .writeOnly s.platform.threeWayRegister).exec d x).1.initialized = true := by
        rw [Programming.program, exec_bind, exec_pure]
      rw [exec_programEach_cons]
      simp only [hwritten, ih, if_true, List.append_nil]

variable (answer : Nat → Word → Word × Word)

/-- The enable phase of a controller and the write phases of others have no register in common. -/
theorem not_mem_blocks_of_apart {c : Fin 3} (hapart : s.platform.Apart (c :: cs)) (hc : c ∉ cs)
    (a : Nat) (ha : (s.platform.block c).Contains a ∨ s.platform.threeWayRegister = some a) :
    ¬∃ d ∈ cs, (s.platform.block d).Contains a := by
  rintro ⟨d, hd, hd'⟩
  rcases ha with ha | ha
  · exact hapart.blocks c List.mem_cons_self d (List.mem_cons_of_mem c hd)
      (ne_of_mem_of_not_mem hd hc).symm a ⟨ha, hd'⟩
  · exact hapart.threeWay d (List.mem_cons_of_mem c hd) a ha hd'

/-- **Controllers one by one, or all of them in two steps**: the warnings and the words in the end are
the same if the controllers share no register. -/
theorem exec_programEach_full (clock : Clock) (hcs : cs.Nodup) (hapart : s.platform.Apart cs)
    (progress written enabled : Vector Progress 3) (m : Nat → Word) :
    let full := (programEach clock s .full cs progress).exec (.cells answer) m
    let write := (programEach clock s .writeOnly cs written).exec (.cells answer) m
    let enable := (programEach clock s .enableOnly cs enabled).exec (.cells answer) write.2
    full.1.2 = enable.1.2 ∧ full.2 = enable.2 := by
  induction cs generalizing progress written enabled m with
  | nil => exact ⟨rfl, rfl⟩
  | cons c cs ih =>
      obtain ⟨hc, hcs⟩ := List.nodup_cons.1 hcs
      simp only [exec_programEach_cons, Programming.exec_program_full]
      generalize (Programming.program s.platform.registerBases[c] s.controllers[c].registers clock
        .writeOnly s.platform.threeWayRegister).exec (.cells answer) m = wrote
      -- the controller is enabled before the others are written, or after it
      obtain ⟨hresult, hwords⟩ := (Programming.within_program s.platform c
        s.controllers[c].registers clock .enableOnly).exchange answer
        (within_programEach_writeOnly clock s cs (written.set c wrote.1.progress c.isLt))
        (not_mem_blocks_of_apart hapart hc) wrote.2
      rw [hresult, hwords]
      obtain ⟨hwarnings, hend⟩ := ih hcs hapart.of_cons _ _ _ _
      exact ⟨congrArg _ hwarnings, hend⟩

/-! ### The reset of the memory -/

/-- How far the controllers are after the programming does not depend on the reset. -/
theorem progress_exec_programControllers {σ τ : Type} (d : Device σ) (d' : Device τ) (x : σ) (y : τ)
    (setup setup' : Setup B) (s : State) :
    ((programControllers setup s).exec d x).1.1 = ((programControllers setup' s).exec d' y).1.1 := by
  obtain ⟨_, hone⟩ := exists_yields_exec d (programControllers setup s) x
  obtain ⟨_, hother⟩ := exists_yields_exec d' (programControllers setup' s) y
  refine Vector.ext fun i hi => ?_
  exact (progress_programControllers hone ⟨i, hi⟩).trans
    (progress_programControllers hother ⟨i, hi⟩).symm

/-- The warnings and the words in the end, whether the memory is held in reset or not. -/
theorem exec_programControllers_eq_full (setup : Setup B) (s : State)
    (hapart : s.platform.Apart (programmable s)) (m : Nat → Word) :
    let run := (programControllers setup s).exec (.cells answer) m
    let full := (programEach setup.clock s .full (programmable s) (.replicate 3 .untouched)).exec
      (.cells answer) m
    run.1.2 = full.1.2 ∧ run.2 = full.2 := by
  simp only [programControllers]
  by_cases hstaged : (s.resetNeeded || setup.resetLine.requested) = true
  · rw [if_pos hstaged]
    simp only [exec_bind, exec_perform, exec_pure, Device.cells_assertReset,
      Device.cells_releaseReset]
    obtain ⟨hwarnings, hwords⟩ := exec_programEach_full answer setup.clock s.nodup_programmable
      hapart (.replicate 3 .untouched) (.replicate 3 .untouched)
      ((programEach setup.clock s .writeOnly (programmable s) (.replicate 3 .untouched)).exec
        (.cells answer) m).1.1 m
    rw [hwarnings, hwords, warnings_programEach_writeOnly, List.nil_append]
    exact ⟨rfl, rfl⟩
  · rw [if_neg hstaged]
    exact ⟨rfl, rfl⟩

/-- **The reset makes no difference**: what the programming reports and the words that it leaves. -/
theorem exec_programControllers_congr (setup setup' : Setup B) (hclock : setup.clock = setup'.clock)
    (hapart : s.platform.Apart (programmable s)) (m : Nat → Word) :
    (programControllers setup s).exec (.cells answer) m =
      (programControllers setup' s).exec (.cells answer) m := by
  obtain ⟨hwarnings, hwords⟩ := exec_programControllers_eq_full answer setup s hapart m
  obtain ⟨hwarnings', hwords'⟩ := exec_programControllers_eq_full answer setup' s hapart m
  rw [hclock] at hwarnings hwords
  have hprogress :=
    progress_exec_programControllers (.cells answer) (.cells answer) m m setup setup' s
  exact Prod.ext (Prod.ext hprogress (hwarnings.trans hwarnings'.symm)) (hwords.trans hwords'.symm)

end BringUp

/-! ### The whole bring-up -/

/-- No stage looks at the reset line. -/
theorem Stage.runAll_withResetLine (setup : Setup B) (line : ResetLine) (sizeOnly : Bool)
    (stages : List Stage) (s : State) :
    runAll { setup with resetLine := line } sizeOnly stages s = runAll setup sizeOnly stages s := by
  induction stages generalizing s with
  | nil => rfl
  | cons stage rest ih =>
      have hrun : run { setup with resetLine := line } sizeOnly stage s =
          run setup sizeOnly stage s := by
        cases stage <;> rfl
      simp only [runAll, hrun, ih]

namespace Session

/-- The session on a board with another reset line. -/
def withResetLine (s : Session B) (line : ResetLine) : Session B :=
  { s with setup := { s.setup with resetLine := line } }

theorem runFrom_withResetLine (s : Session B) (line : ResetLine) (stage : Stage) (sizeOnly : Bool) :
    (s.withResetLine line).runFrom stage sizeOnly =
      ((s.runFrom stage sizeOnly).1.withResetLine line, (s.runFrom stage sizeOnly).2) := by
  have hran := Stage.runAll_withResetLine s.setup line sizeOnly stage.remaining s.state
  simp only [runFrom, withResetLine, hran, take]

theorem configure_withResetLine (s : Session B) (line : ResetLine) :
    (s.withResetLine line).configure =
      (s.configure.1.withResetLine line, s.configure.2) := by
  rw [configure, runFrom_withResetLine, configure]
  cases s.runFrom .readImages true with
  | mk sized result =>
      cases result with
      | error f => rfl
      | ok total => exact runFrom_withResetLine sized line .computeRegisters false

section Exec

variable {σ : Type} (d : Device σ) {s configured : Session B} {state : State} {x y : σ}
  (hread : (BringUp.readRevisions s.state.platform.controllerList
    (.fresh s.state.platform)).exec d x = (state, y))
include hread

/-- A bring-up ends after the reads if its configuration fails. -/
theorem exec_bringUp_of_error {f : Failure}
    (h : configure { s.restart with state } = (configured, .error f)) :
    s.bringUp.exec d x =
      (({ configured with warnings := {}, log := configured.log ++ [.givenUp f] },
        ⟨0, Vector.replicate 3 .untouched, configured.warnings, some f⟩), y) := by
  rw [bringUp, exec_bind]
  simp only [restart] at h ⊢
  simp only [State.fresh] at hread ⊢
  rw [hread, h]
  rfl

/-- A bring-up goes on with what it has configured. -/
theorem exec_bringUp_of_ok {total : Nat}
    (h : configure { s.restart with state } = (configured, .ok total)) :
    s.bringUp.exec d x =
      let programmed := (BringUp.programControllers configured.setup configured.state).exec d
        ((BringUp.switchThreeWay configured.state).exec d y).2
      let memory := BringUp.usable configured.state.platform total
      (({ configured with warnings := {}, log := configured.log ++ [.memorySize memory.value] },
        ⟨memory.value, programmed.1.1,
          (configured.warnings.record programmed.1.2).record memory.warnings, none⟩),
        programmed.2) := by
  rw [bringUp, exec_bind]
  simp only [restart] at h ⊢
  simp only [State.fresh] at hread ⊢
  rw [hread, h]
  simp only [exec_bind, exec_pure]

end Exec

/-- A bring-up on a board with another reset line, without its events. -/
theorem exec_bringUp_withResetLine (answer : Nat → Word → Word × Word) (s : Session B)
    (line other : ResetLine) (m : Nat → Word) {after : State}
    (hafter : ((s.withResetLine line).bringUp.exec (.cells answer) m).1.1.state = after)
    (hapart : after.platform.Apart (BringUp.programmable after)) :
    (s.withResetLine other).bringUp.exec (.cells answer) m =
      let run := (s.withResetLine line).bringUp.exec (.cells answer) m
      ((run.1.1.withResetLine other, run.1.2), run.2) := by
  obtain ⟨⟨state, n⟩, hread⟩ : ∃ read, (BringUp.readRevisions s.state.platform.controllerList
    (.fresh s.state.platform)).exec (.cells answer) m = read := ⟨_, rfl⟩
  obtain ⟨⟨configured, result⟩, hconfigured⟩ :
    ∃ ran, configure { s.restart with state } = ran := ⟨_, rfl⟩
  have hline : ∀ l, configure { (s.withResetLine l).restart with state } =
      (configured.withResetLine l, result) := fun l =>
    (configure_withResetLine { s.restart with state } l).trans (by rw [hconfigured])
  cases result with
  | error f =>
      rw [exec_bringUp_of_error (s := s.withResetLine other) _ hread (hline other),
        exec_bringUp_of_error (s := s.withResetLine line) _ hread (hline line)]
      rfl
  | ok total =>
      rw [exec_bringUp_of_ok (s := s.withResetLine line) _ hread (hline line)] at hafter
      obtain rfl : configured.state = after := hafter
      rw [exec_bringUp_of_ok (s := s.withResetLine other) _ hread (hline other),
        exec_bringUp_of_ok (s := s.withResetLine line) _ hread (hline line)]
      have hsame := BringUp.exec_programControllers_congr answer
        (configured.withResetLine other).setup (configured.withResetLine line).setup rfl hapart
        ((BringUp.switchThreeWay configured.state).exec (.cells answer) n).2
      simp only [withResetLine] at hsame ⊢
      rw [hsame]

/-- The same on the bank of registers that can be run, which ends the data initialization with the
first poll or never. -/
theorem exec_bringUp_withResetLine_bank (clears : Bool) (s : Session B) (line other : ResetLine)
    (m : Nat → Word) {after : State}
    (hafter : ((s.withResetLine line).bringUp.exec RegisterBank.device
      (RegisterBank.uncounted clears m)).1.1.state = after)
    (hapart : after.platform.Apart (BringUp.programmable after)) :
    (s.withResetLine other).bringUp.exec RegisterBank.device (RegisterBank.uncounted clears m) =
      let run := (s.withResetLine line).bringUp.exec RegisterBank.device
        (RegisterBank.uncounted clears m)
      ((run.1.1.withResetLine other, run.1.2), run.2) := by
  rw [RegisterBank.exec_device] at hafter
  rw [RegisterBank.exec_device, RegisterBank.exec_device,
    exec_bringUp_withResetLine (RegisterBank.cell clears) s line other m hafter hapart]

/-- **The reset makes no difference**: on registers that keep to themselves, whatever they answer and
whatever is in them before, and with controllers that share no register, a bring-up with the memory
held in reset and one without it leave the same words in all registers, report the same memory,
progress and warnings, and end with the same configuration. -/
theorem bringUp_withResetLine (answer : Nat → Word → Word × Word) (s : Session B)
    (line other : ResetLine) (x : Traced (Nat → Word))
    (hapart : s.state.platform.Apart (BringUp.programmable
      ((s.withResetLine line).bringUp.run (.cells answer) x).1.1.state)) :
    let one := (s.withResetLine line).bringUp.run (.cells answer) x
    let two := (s.withResetLine other).bringUp.run (.cells answer) x
    two.2.state = one.2.state ∧ two.1.2 = one.1.2 ∧
      two.1.1 = one.1.1.withResetLine other := by
  have hone := run_eq_exec (.cells answer) (s.withResetLine line).bringUp x
  have htwo := run_eq_exec (.cells answer) (s.withResetLine other).bringUp x
  obtain ⟨-, hplatform⟩ := bringUp_keeps (.cells answer) (s.withResetLine line) x
  have hafter : ((s.withResetLine line).bringUp.exec (.cells answer) x.state).1.1.state =
      ((s.withResetLine line).bringUp.run (.cells answer) x).1.1.state := by rw [← hone]
  have hsame := exec_bringUp_withResetLine answer s line other x.state hafter
    (hplatform.symm ▸ hapart)
  rw [← hone, ← htwo] at hsame
  obtain ⟨hresult, hwords⟩ := Prod.mk.inj hsame
  exact ⟨hwords, (Prod.ext_iff.1 hresult).2, (Prod.ext_iff.1 hresult).1⟩

/-- Two controllers with a module each are brought up, and their data initialization ends with the
first poll. -/
def polled (line : ResetLine) :
    (Session (Option Board) × Completion) × Traced (Nat → Word) :=
  ((twoModules 1 1).withResetLine line).bringUp.run
    (.cells (Cell.clearing RegisterBank.isPolled)) { state := fun _ => 0 }

set_option maxRecDepth 100000 in
/-- The two controllers end alike, whether the board asks for the reset or not. -/
theorem bringUp_withResetLine_polled :
    (twoModules 1 1).state.platform.Apart
        (BringUp.programmable (polled (.present true)).1.1.state) ∧
      BringUp.programmable (polled (.present true)).1.1.state = [0, 1] ∧
      (polled (.present false)).2.state = (polled (.present true)).2.state ∧
      (polled (.present false)).1.2 = (polled (.present true)).1.2 := by
  have hprogrammable : BringUp.programmable (polled (.present true)).1.1.state = [0, 1] := by
    decide +kernel
  have hapart : (twoModules 1 1).state.platform.Apart
      (BringUp.programmable (polled (.present true)).1.1.state) := by
    rw [hprogrammable]
    exact (blocksDisjoint_twoModules 1 1).apart_of_subset (by decide)
  simp only [polled] at hapart hprogrammable ⊢
  obtain ⟨hwords, hreport, -⟩ := bringUp_withResetLine (Cell.clearing RegisterBank.isPolled)
    (twoModules 1 1) (.present true) (.present false) { state := fun _ => 0 } hapart
  exact ⟨hapart, hprogrammable, hwords, hreport⟩

end Session

end SdramBringup
