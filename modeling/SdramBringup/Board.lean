/-
**Boards and their tuning.**

The delays between a controller and its modules depend on the board, so a board has the last word
on the options of a controller: it may change them as it likes, by the modules, the clock and the
number of the controller. A board that was measured brings a table: for a number of ranks, up to a
data rate and from a rank size on, the clock adjustment and the levels of write levelling. The rest
of its tuning is the same for all modules.

Main definitions:

* `BoardHook` — what a board does to the options;
* `BoardEntry` — one row of the table;
* `BoardEntry.lookup` — the row for a module at a data rate;
* `Board` — the tuning of a measured board, with `Board.apply`;
* `Board.reference` — a measured board with a bus of 32 bits.
-/

import SdramBringup.Clock
import SdramBringup.Noted
import SdramBringup.Options
import SdramBringup.Register.Layout

set_option relaxedAutoImplicit false
set_option autoImplicit false

namespace SdramBringup

/-- A kind of boards, by what they do to the options of a controller. -/
class BoardHook (B : Type) where
  /-- The options of a controller on the board, with the warnings and messages about them. -/
  apply : B → Options → List Dimm → Clock → Nat → Noted Options

/-! ### The table -/

/-- The measured values for a number of ranks up to a data rate. -/
structure BoardEntry where
  ranks : Nat := 0
  /-- The highest data rate in millions of transfers per second. -/
  ceiling : Nat := 0
  /-- The least rank size in GiB. -/
  leastRankGib : Nat := 0
  clockAdjust : Nat := 0
  writeLevelingStart : Nat := 0
  writeLeveling2 : Word := 0
  writeLeveling3 : Word := 0
  deriving DecidableEq, Repr

/-- The row that was found for a module. -/
inductive BoardMatch where
  /-- The row covers the data rate. -/
  | exact (entry : BoardEntry)
  /-- No row covers the data rate; this is the fastest of the rows for the module. -/
  | fastest (entry : BoardEntry)
  /-- No row is for the module. -/
  | missing
  deriving DecidableEq, Repr

namespace BoardEntry

/-- The row is for modules such as this one. -/
def fits (e : BoardEntry) (d : Dimm) : Bool :=
  e.ranks == d.ranks && e.leastRankGib ≤ d.rankSize / 2 ^ 30

/-- The faster of a row found before and a further one; the earlier one if they are equally fast. -/
def faster : Option BoardEntry → BoardEntry → BoardEntry
  | none, e => e
  | some f, e => if f.ceiling < e.ceiling then e else f

/-- The rest of a search through the table, with the fastest row for the module so far. -/
def search (d : Dimm) (rate : Nat) : Option BoardEntry → List BoardEntry → BoardMatch
  | none, [] => .missing
  | some f, [] => .fastest f
  | best, e :: es =>
      if e.fits d then
        if rate ≤ e.ceiling then .exact e else search d rate (some (faster best e)) es
      else search d rate best es

/-- The row for a module at a data rate in millions of transfers per second: the first one that
covers the rate, otherwise the fastest one. -/
def lookup (table : List BoardEntry) (d : Dimm) (rate : Nat) : BoardMatch :=
  search d rate none table

end BoardEntry

/-! ### The board -/

/-- Termination at the controller. -/
inductive DriverTermination where
  | off
  | ohm120
  | ohm180
  | ohm75
  | ohm110
  | ohm60
  | ohm70
  | ohm47
  deriving DecidableEq, Repr

/-- The code of a termination, which is split over two registers. -/
def DriverTermination.code : DriverTermination → Nat
  | off => 0
  | ohm120 => 1
  | ohm180 => 2
  | ohm75 => 3
  | ohm110 => 4
  | ohm60 => 5
  | ohm70 => 6
  | ohm47 => 7

/-- The tuning of a measured board. -/
structure Board where
  table : List BoardEntry
  halfStrength : Bool
  /-- Compensation of the drivers by hardware. -/
  compensation : Bool
  termination : DriverTermination
  /-- The width that the board is wired for, if it is narrower than the modules. -/
  busWidth : Option BusWidth
  deriving DecidableEq, Repr

namespace Board

/-- The options with the values of a row. -/
def withEntry (e : BoardEntry) (o : Options) : Options :=
  { o with
    clockAdjust := e.clockAdjust
    writeLevelingStart := e.writeLevelingStart
    writeLeveling2 := e.writeLeveling2
    writeLeveling3 := e.writeLeveling3 }

/-- The options with the values of the table for the module in the first slot. An empty first slot
is not looked up. -/
def tune (b : Board) (dimms : List Dimm) (clock : Clock) (ctrl : Nat) (o : Options) :
    Noted Options :=
  match dimms.head?.filter (!·.isEmpty) with
  | none => pure o
  | some d =>
      match BoardEntry.lookup b.table d clock.megatransfers with
      | .exact e => pure (withEntry e o)
      | .fastest e =>
          { value := withEntry e o, warnings := [.boardEntryTooSlow ctrl clock.megatransfers] }
      | .missing => { value := o, warnings := [.boardEntryMissing ctrl] }

/-- The options with the tuning that is the same for all modules. -/
def finish (b : Board) (o : Options) : Options :=
  { o with
    halfStrength := b.halfStrength
    writeLevelingTuned := true
    writeLevelingSample := 0xF
    zqCalibration := true
    driverControl1 := assemble
      [(Layout.DriverControl1.compensation, b.compensation.toNat),
        (Layout.DriverControl1.odtHigh, b.termination.code / 2)]
    driverControl2 := assemble [(Layout.DriverControl2.odtLow, b.termination.code % 2)]
    busWidth := b.busWidth.getD o.busWidth }

/-- The options of a controller on the board. A controller without a board keeps its options. -/
def apply (board : Option Board) (o : Options) (dimms : List Dimm) (clock : Clock) (ctrl : Nat) :
    Noted Options :=
  match board with
  | none => pure o
  | some b => b.finish <$> b.tune dimms clock ctrl o

instance : BoardHook (Option Board) := ⟨apply⟩

/-- A measured board for unbuffered modules of one or two ranks. It drives with half strength and is
wired for 32 bits. -/
def reference : Board where
  table :=
    [⟨1, 833, 0, 4, 6, 0x06060607, 0x08080807⟩, ⟨1, 1350, 0, 4, 7, 0x0708080A, 0x0A0B0C09⟩,
      ⟨1, 1666, 0, 4, 7, 0x0808090B, 0x0C0D0E0A⟩, ⟨2, 833, 0, 4, 6, 0x06060607, 0x08080807⟩,
      ⟨2, 1350, 0, 4, 7, 0x0708080A, 0x0A0B0C09⟩, ⟨2, 1666, 0, 4, 7, 0x0808090B, 0x0C0D0E0A⟩]
  halfStrength := true
  compensation := true
  termination := .ohm60
  busWidth := some .bits32

end Board

end SdramBringup
