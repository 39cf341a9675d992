/-
**Registers that keep to themselves.**

The plainest hardware is a bank of registers, each of which answers by the word that it holds: a write
replaces that word, and a read may change it, but none of them is felt at another address. On such
hardware a program does not depend on the words at addresses that it does not access, and leaves them
alone. Programs that share no address may then be run in either order.

Main definitions:

* `Program.exec` — the result of a program and the device after it, without the events;
* `Device.cells` — the hardware, by what a register answers and what becomes of its word;
* `Cell.clearing`, `Cell.keeping` — registers that end the data initialization when they are polled,
  and registers that never do;
* `Program.Within` — a program that accesses some addresses only.

Main results:

* `Program.run_eq_exec` — a run, but for its events;
* `Program.Within.frame`, `Program.Within.congr` — **the words elsewhere** are left alone and do not
  matter;
* `Program.Within.exchange` — **programs that share no address** may be exchanged;
* `RegisterBank.exec_device` — the bank that can be run is such hardware unless it counts polls.
-/

import Mathlib.Logic.Function.Basic
import SdramBringup.Hardware.RegisterBank
import SdramBringup.Proofs.Trace

set_option relaxedAutoImplicit false
set_option autoImplicit false

namespace SdramBringup

/-! ### Programs without their events -/

namespace Program

variable {σ α β : Type} (d : Device σ)

/-- The result of a program and the device after it. -/
def exec : Program α → σ → α × σ
  | done a, x => (a, x)
  | read address next, x => exec (next (d.read address x).1) (d.read address x).2
  | act action next, x => exec next (d.act action x)

/-- **A run** has the result and leaves the device, whatever was done before. -/
theorem run_eq_exec (p : Program α) (t : Traced σ) :
    ((p.run d t).1, (p.run d t).2.state) = p.exec d t.state := by
  induction p generalizing t with
  | done a => rfl
  | read address next ih => exact ih _ _
  | act action next ih => exact ih _

theorem exec_bind (p : Program α) (f : α → Program β) (x : σ) :
    (p >>= f).exec d x = (f (p.exec d x).1).exec d (p.exec d x).2 := by
  change (p.bind f).exec d x = _
  induction p generalizing x with
  | done a => rfl
  | read address next ih => exact ih _ _
  | act action next ih => exact ih _

@[simp] theorem exec_pure (a : α) (x : σ) : (pure a : Program α).exec d x = (a, x) := rfl

@[simp] theorem exec_perform (action : Action) (x : σ) :
    (perform action).exec d x = ((), d.act action x) := rfl

/-- What is executed may happen. -/
theorem exists_yields_exec (p : Program α) (x : σ) : ∃ events, p.Yields events (p.exec d x).1 := by
  obtain ⟨events, hyields, -⟩ := yields_run d p ⟨x, []⟩
  have hresult := congrArg Prod.fst (run_eq_exec d p ⟨x, []⟩)
  exact ⟨events, hresult ▸ hyields⟩

end Program

/-! ### The hardware -/

/-- Registers each of which answers by its own word. A read gives an answer and a word that is kept
instead; a write is kept as it is. -/
def Device.cells (answer : Nat → Word → Word × Word) : Device (Nat → Word) where
  read address m :=
    ((answer address (m address)).1, Function.update m address (answer address (m address)).2)
  act action m :=
    match action with
    | .write address value => Function.update m address value
    | _ => m

@[simp] theorem Device.cells_assertReset (answer : Nat → Word → Word × Word) (m : Nat → Word) :
    (cells answer).act .assertReset m = m := rfl

@[simp] theorem Device.cells_releaseReset (answer : Nat → Word → Word × Word) (m : Nat → Word) :
    (cells answer).act .releaseReset m = m := rfl

namespace Cell

/-- Registers that answer with the word that they keep. -/
def keeping (_ : Nat) (w : Word) : Word × Word := (w, w)

/-- Registers that do so, but for the polled ones, which end the data initialization when they are
read. -/
def clearing (polled : Nat → Bool) (address : Nat) (w : Word) : Word × Word :=
  if polled address then (w &&& ~~~Bits.dataInit, w &&& ~~~Bits.dataInit) else (w, w)

end Cell

namespace RegisterBank

/-- The registers of a bank that does not count polls. -/
def cell : Bool → Nat → Word → Word × Word
  | true => Cell.clearing isPolled
  | false => Cell.keeping

/-- A bank that ends the data initialization with the first poll, or never. -/
def uncounted (clears : Bool) (m : Nat → Word) : RegisterBank :=
  { contents := m, pendingPolls := if clears then some 0 else none }

theorem put_uncounted (clears : Bool) (address : Nat) (value : Word) (m : Nat → Word) :
    (uncounted clears m).put address value =
      uncounted clears (Function.update m address value) := by
  have hcontents : (fun a => if a = address then value else m a) =
      Function.update m address value :=
    funext fun a => (Function.update_apply m address value a).symm
  rw [uncounted, put, hcontents, uncounted]

theorem read_device (clears : Bool) (address : Nat) (m : Nat → Word) :
    device.read address (uncounted clears m) =
      (((Device.cells (cell clears)).read address m).1,
        uncounted clears ((Device.cells (cell clears)).read address m).2) := by
  have hsame : uncounted clears m = uncounted clears (Function.update m address (m address)) := by
    rw [Function.update_eq_self]
  cases clears with
  | false =>
      change answer address (uncounted false m) = (m address, _)
      rw [answer]
      split
      · exact congrArg (m address, ·) hsame
      · exact congrArg (m address, ·) hsame
  | true =>
      change answer address (uncounted true m) =
        ((Cell.clearing isPolled address (m address)).1,
          uncounted true (Function.update m address (Cell.clearing isPolled address (m address)).2))
      rw [answer, Cell.clearing]
      split
      · exact congrArg (m address &&& ~~~Bits.dataInit, ·) (put_uncounted true address _ m)
      · exact congrArg (m address, ·) hsame

theorem act_device (clears : Bool) (action : Action) (m : Nat → Word) :
    device.act action (uncounted clears m) =
      uncounted clears ((Device.cells (cell clears)).act action m) := by
  cases action with
  | write address value => exact put_uncounted clears address value m
  | fence | delay | assertReset | releaseReset => rfl

/-- **The bank that can be run** is such hardware, unless it counts polls. -/
theorem exec_device {α : Type} (clears : Bool) (p : Program α) (m : Nat → Word) :
    p.exec device (uncounted clears m) =
      ((p.exec (Device.cells (cell clears)) m).1,
        uncounted clears (p.exec (Device.cells (cell clears)) m).2) := by
  induction p generalizing m with
  | done a => rfl
  | read address next ih =>
      rw [Program.exec, read_device]
      exact ih _ _
  | act action next ih =>
      rw [Program.exec, act_device]
      exact ih _

end RegisterBank

/-! ### Programs that access some addresses only -/

/-- The address that is accessed. -/
def Event.accessedAddress? : Event → Option Nat
  | .read address _ | .did (.write address _) => some address
  | _ => none

namespace Program

variable {α β : Type} {A B : Nat → Prop} {p : Program α} {q : Program β}
  (answer : Nat → Word → Word × Word)

/-- Whatever the answers, all that the program accesses is among the addresses. -/
def Within (A : Nat → Prop) (p : Program α) : Prop :=
  Only (fun e => ∀ address, e.accessedAddress? = some address → A address) p

/-- **The words elsewhere** are left alone. -/
theorem Within.frame (h : Within A p) (m : Nat → Word) {a : Nat} (ha : ¬A a) :
    (p.exec (.cells answer) m).2 a = m a := by
  induction p generalizing m with
  | done result => rfl
  | read address next ih =>
      have hnext := fun v => only_read_iff.1 h v
      have hne : a ≠ address := fun he => ha (he ▸ (hnext 0).1 address rfl)
      exact (ih _ (hnext _).2 _).trans (Function.update_of_ne hne _ _)
  | act action next ih =>
      obtain ⟨haction, hnext⟩ := only_act_iff.1 h
      refine (ih hnext _).trans ?_
      cases action with
      | write address value =>
          have hne : a ≠ address := fun he => ha (he ▸ haction address rfl)
          exact Function.update_of_ne hne _ _
      | fence | delay | assertReset | releaseReset => rfl

/-- Words that agree still agree when one of them is replaced alike. -/
theorem agree_update {m n : Nat → Word} (hmn : ∀ a, A a → m a = n a) {address : Nat} {w : Word} :
    ∀ a, A a → Function.update m address w a = Function.update n address w a := by
  intro a ha
  rw [Function.update_apply, Function.update_apply, hmn a ha]

/-- **The words elsewhere** do not matter. -/
theorem Within.congr (h : Within A p) {m n : Nat → Word} (hmn : ∀ a, A a → m a = n a) :
    (p.exec (.cells answer) m).1 = (p.exec (.cells answer) n).1 ∧
      ∀ a, A a → (p.exec (.cells answer) m).2 a = (p.exec (.cells answer) n).2 a := by
  induction p generalizing m n with
  | done result => exact ⟨rfl, hmn⟩
  | read address next ih =>
      have hnext := fun v => only_read_iff.1 h v
      have hword : m address = n address := hmn address ((hnext 0).1 address rfl)
      rw [exec, exec]
      simp only [Device.cells, hword]
      exact ih _ (hnext _).2 (agree_update hmn)
  | act action next ih =>
      obtain ⟨haction, hnext⟩ := only_act_iff.1 h
      rw [exec, exec]
      refine ih hnext ?_
      cases action with
      | write address value => exact agree_update hmn
      | fence | delay | assertReset | releaseReset => exact hmn

/-- **Programs that share no address may be exchanged**: neither of them sees the other, and the words
in the end are the same. -/
theorem Within.exchange (hp : Within A p) (hq : Within B q) (hAB : ∀ a, A a → ¬B a)
    (m : Nat → Word) :
    (p.exec (.cells answer) (q.exec (.cells answer) m).2).1 = (p.exec (.cells answer) m).1 ∧
      (p.exec (.cells answer) (q.exec (.cells answer) m).2).2 =
        (q.exec (.cells answer) (p.exec (.cells answer) m).2).2 := by
  have hBA : ∀ a, B a → ¬A a := fun a hb ha => hAB a ha hb
  -- each of the two finds its own words as if the other had not been run
  have hown := hp.congr answer fun a ha => hq.frame answer m (hAB a ha)
  have hother := hq.congr answer fun a hb => hp.frame answer m (hBA a hb)
  refine ⟨hown.1, funext fun a => ?_⟩
  by_cases ha : A a
  · rw [hown.2 a ha, hq.frame answer _ (hAB a ha)]
  · rw [hp.frame answer _ ha]
    by_cases hb : B a
    · rw [hother.2 a hb]
    · rw [hq.frame answer _ hb, hq.frame answer _ hb, hp.frame answer _ ha]

end Program

end SdramBringup
