/-
**Results with what was noticed on the way.**

A computation of the bring-up does not fail on what it can work around: it returns its result
together with warnings and messages, oldest first. Results are chained so that the notes of the
first come before those of the second. A computation is that of a release build; what would have
stopped a build with overflow checks on the way is noted too, the first of it.

Main definitions:

* `Noted` — a result with its notes;
* `Noted.warn`, `Noted.say` — a note without a result.
-/

import SdramBringup.LogLine
import SdramBringup.Warning

set_option relaxedAutoImplicit false
set_option autoImplicit false

namespace SdramBringup

/-- A result with the warnings and messages of its computation. -/
structure Noted (α : Type) where
  value : α
  warnings : List Warning := []
  log : List LogLine := []
  /-- What a build with overflow checks stops at in place of the result, if it does. -/
  overflow : Option Spd.Overflow := none

namespace Noted

/-- One step after another: the notes of the first come first. -/
protected def bind {α β : Type} (a : Noted α) (f : α → Noted β) : Noted β :=
  let b := f a.value
  { value := b.value
    warnings := a.warnings ++ b.warnings
    log := a.log ++ b.log
    overflow := a.overflow.or b.overflow }

instance : Monad Noted where
  pure a := { value := a }
  bind := Noted.bind

/-- Warnings without a result. -/
def warn (ws : List Warning) : Noted Unit := { value := (), warnings := ws }

/-- Messages without a result. -/
def say (ls : List LogLine) : Noted Unit := { value := (), log := ls }

@[simp] theorem value_pure {α : Type} (a : α) : (pure a : Noted α).value = a := rfl

@[simp] theorem warnings_pure {α : Type} (a : α) : (pure a : Noted α).warnings = [] := rfl

@[simp] theorem log_pure {α : Type} (a : α) : (pure a : Noted α).log = [] := rfl

@[simp] theorem value_bind {α β : Type} (a : Noted α) (f : α → Noted β) :
    (a >>= f).value = (f a.value).value := rfl

@[simp] theorem warnings_bind {α β : Type} (a : Noted α) (f : α → Noted β) :
    (a >>= f).warnings = a.warnings ++ (f a.value).warnings := rfl

@[simp] theorem log_bind {α β : Type} (a : Noted α) (f : α → Noted β) :
    (a >>= f).log = a.log ++ (f a.value).log := rfl

end Noted

end SdramBringup
