/-
**Programs that drive hardware.**

A program reads registers and acts on the hardware: it writes, orders accesses, waits, and moves the
reset line of the memory. It is plain data, so that it can be run against any device, and what it
did can be looked at afterwards. Polling is no special case: a program that polls is a finite tree, as
deep as its budget.

Main definitions:

* `Action`, `Event` — what a program does, and what is seen of it;
* `Program` — programs with a result, a monad;
* `Device` — how a device answers reads and what actions do to it;
* `Traced` — a device state with the events so far;
* `Program.run` — a program against a device.

Main results:

* `Program.run_bind` — one program after another.
-/

import SdramBringup.Register.Field

set_option relaxedAutoImplicit false
set_option autoImplicit false

namespace SdramBringup

/-- What a program does to the hardware without an answer. -/
inductive Action where
  | write (address : Nat) (value : Word)
  /-- All accesses so far come before all that follow. -/
  | fence
  | delay (nanoseconds : Nat)
  /-- The memory is put into reset. -/
  | assertReset
  /-- The memory is let out of reset. -/
  | releaseReset
  deriving DecidableEq, Repr

/-- What is seen of a program. -/
inductive Event where
  /-- A read and its answer. -/
  | read (address : Nat) (value : Word)
  | did (action : Action)
  deriving DecidableEq, Repr

/-- A program that ends with a result. -/
inductive Program (α : Type) where
  | done (result : α)
  | read (address : Nat) (next : Word → Program α)
  | act (action : Action) (next : Program α)

namespace Program

/-- One program after another. -/
protected def bind {α β : Type} (p : Program α) (f : α → Program β) : Program β :=
  match p with
  | done a => f a
  | read address next => read address fun v => (next v).bind f
  | act action next => act action (next.bind f)

instance : Monad Program where
  pure := done
  bind := Program.bind

/-- The value of a register. -/
def load (address : Nat) : Program Word := read address done

/-- A single action. -/
def perform (a : Action) : Program Unit := act a (done ())

/-- A value into a register. -/
def store (address : Nat) (value : Word) : Program Unit := perform (.write address value)

/-- Values into registers, one after another. -/
def storeAll (writes : List (Nat × Word)) : Program Unit :=
  writes.foldr (fun w rest => act (.write w.1 w.2) rest) (done ())

end Program

/-! ### Running a program -/

/-- A device with states in `σ`: reads are answered and may change the state, actions change it. -/
structure Device (σ : Type) where
  read : Nat → σ → Word × σ
  act : Action → σ → σ

/-- A device state and the events that led to it. -/
structure Traced (σ : Type) where
  state : σ
  /-- The events, newest first. -/
  past : List Event := []

/-- The events of a trace, oldest first. -/
def Traced.events {σ : Type} (t : Traced σ) : List Event := t.past.reverse

namespace Program

/-- A program against a device: the result, and the device after it. -/
def run {σ α : Type} (d : Device σ) : Program α → Traced σ → α × Traced σ
  | done a, t => (a, t)
  | read address next, t =>
      let answer := d.read address t.state
      run d (next answer.1) ⟨answer.2, .read address answer.1 :: t.past⟩
  | act a next, t => run d next ⟨d.act a t.state, .did a :: t.past⟩

@[simp] theorem run_pure {σ α : Type} (d : Device σ) (a : α) (t : Traced σ) :
    (pure a : Program α).run d t = (a, t) := rfl

/-- Running one program after another runs the second from where the first ended. -/
theorem run_bind {σ α β : Type} (d : Device σ) (p : Program α) (f : α → Program β) (t : Traced σ) :
    (p >>= f).run d t = (f (p.run d t).1).run d (p.run d t).2 := by
  change (p.bind f).run d t = _
  induction p generalizing t with
  | done a => rfl
  | read address next ih => exact ih _ _
  | act a next ih => exact ih _

end Program

end SdramBringup
