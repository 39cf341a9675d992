/-
**What a program may do.**

A program meets a device that answers its reads as it likes. What holds of every run on every device
is therefore a property of the program alone: of the events that it may do if any read may have any
answer. This module says which those are, for each way in which a program is put together.

Main definitions:

* `Program.Yields` — the events that a program may do, and the result that it then ends with;
* `Event.IsReset` — the reset line of the memory moves;
* `Event.WritesTo` — a write into a range of addresses;
* `Event.readAddress?` — the address of a read;
* `Program.Only` — a program all of whose events have a property.

Main results:

* `Program.yields_run` — **what a run does** is something that the program may do;
* `Program.yields_bind_iff` — one program after another does the events of the first and then those
  of the second;
* `Program.yields_storeAll_iff` — values into registers, one after another.
-/

import SdramBringup.Hardware.Program
import SdramBringup.Proofs.Region

set_option relaxedAutoImplicit false
set_option autoImplicit false

namespace SdramBringup

/-! ### Events -/

namespace Event

/-- The memory is put into reset or let out of it. -/
def IsReset (e : Event) : Prop := e = .did .assertReset ∨ e = .did .releaseReset

/-- A write into a range of addresses. -/
def WritesTo (r : Region) (e : Event) : Prop :=
  ∃ address value, e = .did (.write address value) ∧ r.Contains address

/-- The address of a read. -/
def readAddress? : Event → Option Nat
  | read address _ => some address
  | did _ => none

instance (e : Event) : Decidable e.IsReset := inferInstanceAs (Decidable (_ ∨ _))

theorem not_isReset_read (address : Nat) (value : Word) : ¬(Event.read address value).IsReset := by
  simp [IsReset]

theorem not_isReset_write (address : Nat) (value : Word) :
    ¬(Event.did (.write address value)).IsReset := by
  simp [IsReset]

theorem not_writesTo_read (r : Region) (address : Nat) (value : Word) :
    ¬(Event.read address value).WritesTo r := by
  simp [WritesTo]

@[simp] theorem writesTo_write_iff {r : Region} {address : Nat} {value : Word} :
    (Event.did (.write address value)).WritesTo r ↔ r.Contains address := by
  simp [WritesTo]

end Event

namespace Program

variable {α β : Type}

/-! ### The events of a program -/

/-- The program may do the events and end with the result: every read may have any answer. -/
inductive Yields : Program α → List Event → α → Prop
  | done (a : α) : Yields (.done a) [] a
  | read {address : Nat} {next : Word → Program α} {v : Word} {events : List Event} {a : α} :
      Yields (next v) events a → Yields (.read address next) (.read address v :: events) a
  | act {action : Action} {next : Program α} {events : List Event} {a : α} :
      Yields next events a → Yields (.act action next) (.did action :: events) a

/-- **What a run does is something that the program may do**, whatever the device is. -/
theorem yields_run {σ : Type} (d : Device σ) (p : Program α) (t : Traced σ) :
    ∃ events, p.Yields events (p.run d t).1 ∧ (p.run d t).2.events = t.events ++ events := by
  induction p generalizing t with
  | done a => exact ⟨[], .done a, (List.append_nil _).symm⟩
  | read address next ih =>
      obtain ⟨events, hyields, hevents⟩ := ih (d.read address t.state).1
        ⟨(d.read address t.state).2, .read address (d.read address t.state).1 :: t.past⟩
      refine ⟨_, .read hyields, ?_⟩
      rw [run, hevents]
      simp [Traced.events]
  | act action next ih =>
      obtain ⟨events, hyields, hevents⟩ := ih ⟨d.act action t.state, .did action :: t.past⟩
      refine ⟨_, .act hyields, ?_⟩
      rw [run, hevents]
      simp [Traced.events]

/-! ### Programs put together -/

@[simp] theorem yields_pure_iff {a b : α} {events : List Event} :
    (pure a : Program α).Yields events b ↔ events = [] ∧ b = a := by
  constructor
  · rintro ⟨⟩
    exact ⟨rfl, rfl⟩
  · rintro ⟨rfl, rfl⟩
    exact .done b

@[simp] theorem yields_load_iff {address : Nat} {events : List Event} {v : Word} :
    (load address).Yields events v ↔ events = [.read address v] := by
  constructor
  · intro h
    cases h with
    | read h =>
        cases h
        rfl
  · rintro rfl
    exact .read (.done v)

@[simp] theorem yields_perform_iff {action : Action} {events : List Event} {u : Unit} :
    (perform action).Yields events u ↔ events = [.did action] := by
  constructor
  · intro h
    cases h with
    | act h =>
        cases h
        rfl
  · rintro rfl
    exact .act (.done ())

@[simp] theorem yields_store_iff {address : Nat} {value : Word} {events : List Event} {u : Unit} :
    (store address value).Yields events u ↔ events = [.did (.write address value)] :=
  yields_perform_iff

/-- **One program after another** does the events of the first and then those of the second. -/
theorem yields_bind_iff {p : Program α} {f : α → Program β} {events : List Event} {b : β} :
    (p >>= f).Yields events b ↔
      ∃ first a second, p.Yields first a ∧ (f a).Yields second b ∧ events = first ++ second := by
  change (p.bind f).Yields events b ↔ _
  induction p generalizing events with
  | done a =>
      constructor
      · intro h
        exact ⟨[], a, events, .done a, h, rfl⟩
      · rintro ⟨first, a', second, hp, hf, rfl⟩
        cases hp
        exact hf
  | read address next ih =>
      constructor
      · intro h
        cases h with
        | read h =>
            obtain ⟨first, a, second, hp, hf, rfl⟩ := (ih _).1 h
            exact ⟨_, a, second, .read hp, hf, rfl⟩
      · rintro ⟨first, a, second, hp, hf, rfl⟩
        cases hp with
        | read hp => exact .read ((ih _).2 ⟨_, a, second, hp, hf, rfl⟩)
  | act action next ih =>
      constructor
      · intro h
        cases h with
        | act h =>
            obtain ⟨first, a, second, hp, hf, rfl⟩ := ih.1 h
            exact ⟨_, a, second, .act hp, hf, rfl⟩
      · rintro ⟨first, a, second, hp, hf, rfl⟩
        cases hp with
        | act hp => exact .act (ih.2 ⟨_, a, second, hp, hf, rfl⟩)

/-- Values into registers, one after another, are that many writes. -/
theorem yields_storeAll_iff {writes : List (Nat × Word)} {events : List Event} {u : Unit} :
    (storeAll writes).Yields events u ↔
      events = writes.map fun w => .did (.write w.1 w.2) := by
  induction writes generalizing events with
  | nil =>
      constructor
      · rintro ⟨⟩
        rfl
      · rintro rfl
        exact .done ()
  | cons w writes ih =>
      constructor
      · intro h
        cases h with
        | act h => rw [ih.1 h, List.map_cons]
      · rintro rfl
        exact .act (ih.2 rfl)

/-! ### Programs that keep to some events -/

/-- Every event that the program may do has the property. -/
def Only (P : Event → Prop) (p : Program α) : Prop :=
  ∀ events a, p.Yields events a → ∀ e ∈ events, P e

variable {P : Event → Prop}

theorem only_pure (a : α) : Only P (pure a) := by
  intro events b h e he
  rw [(yields_pure_iff.1 h).1] at he
  exact absurd he List.not_mem_nil

theorem only_load {address : Nat} (h : ∀ v, P (.read address v)) : Only P (load address) := by
  intro events v hv e he
  rw [yields_load_iff.1 hv] at he
  rw [List.mem_singleton.1 he]
  exact h v

theorem only_perform {action : Action} (h : P (.did action)) : Only P (perform action) := by
  intro events u hu e he
  rw [yields_perform_iff.1 hu] at he
  rw [List.mem_singleton.1 he]
  exact h

theorem only_store {address : Nat} {value : Word} (h : P (.did (.write address value))) :
    Only P (store address value) :=
  only_perform h

/-- One program after another keeps to what both of them keep to. -/
theorem only_bind {p : Program α} {f : α → Program β} (hp : Only P p) (hf : ∀ a, Only P (f a)) :
    Only P (p >>= f) := by
  intro events b h e he
  obtain ⟨first, a, second, hfirst, hsecond, rfl⟩ := yields_bind_iff.1 h
  rcases List.mem_append.1 he with he | he
  · exact hp first a hfirst e he
  · exact hf a second b hsecond e he

/-- Every program may do something and come to its end. -/
theorem exists_yields (p : Program α) : ∃ events a, p.Yields events a := by
  induction p with
  | done a => exact ⟨[], a, .done a⟩
  | read address next ih =>
      obtain ⟨events, a, h⟩ := ih 0
      exact ⟨_, a, .read h⟩
  | act action next ih =>
      obtain ⟨events, a, h⟩ := ih
      exact ⟨_, a, .act h⟩

theorem only_read_iff {address : Nat} {next : Word → Program α} :
    Only P (.read address next) ↔ ∀ v, P (.read address v) ∧ Only P (next v) := by
  constructor
  · intro h v
    obtain ⟨events, a, hnext⟩ := exists_yields (next v)
    refine ⟨h _ a (.read hnext) _ List.mem_cons_self, fun events b hb e he => ?_⟩
    exact h _ b (.read hb) e (List.mem_cons_of_mem _ he)
  · rintro h _ a ⟨⟩ e he
    rename_i v events hnext
    rcases List.mem_cons.1 he with rfl | he
    · exact (h v).1
    · exact (h v).2 events a hnext e he

theorem only_act_iff {action : Action} {next : Program α} :
    Only P (.act action next) ↔ P (.did action) ∧ Only P next := by
  constructor
  · intro h
    obtain ⟨events, a, hnext⟩ := exists_yields next
    refine ⟨h _ a (.act hnext) _ List.mem_cons_self, fun events b hb e he => ?_⟩
    exact h _ b (.act hb) e (List.mem_cons_of_mem _ he)
  · rintro ⟨haction, hrest⟩ _ a ⟨⟩ e he
    rename_i events hnext
    rcases List.mem_cons.1 he with rfl | he
    · exact haction
    · exact hrest events a hnext e he

end Program

end SdramBringup
