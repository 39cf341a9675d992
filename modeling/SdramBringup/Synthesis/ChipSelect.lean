/-
**Chip selects: which addresses they answer to, and what is behind them.**

The four chip selects of a controller are shared evenly by its slots, and each one selects one rank
of the module in its slot. A chip select without a rank is disabled and has a range that no address
falls in. Interleaved chip selects have the range of their group.

Main definitions:

* `Synthesis.slotOf`, `Synthesis.rankOf` — the slot of a chip select, and its rank in the module;
* `Synthesis.range?` — the first and the last address of a chip select;
* `Synthesis.chipSelectConfig` — geometry and termination of the rank;
* `Synthesis.chipSelects` — the registers of the four chip selects.
-/

import SdramBringup.Register.File
import SdramBringup.Register.Layout
import SdramBringup.Synthesis.Inputs

set_option relaxedAutoImplicit false
set_option autoImplicit false

namespace SdramBringup.Synthesis

/-! ### Slots and ranks -/

/-- The chip selects of each slot. -/
def perSlot (i : Inputs) : Nat := 4 / min i.dimms.length 2

/-- The slot of a chip select. -/
def slotOf (i : Inputs) (cs : Fin 4) : Nat := cs / perSlot i

/-- The rank of a chip select within the module in its slot. -/
def rankOf (i : Inputs) (cs : Fin 4) : Nat := cs % perSlot i

/-- The module in the slot of a chip select. -/
def dimmOf (i : Inputs) (cs : Fin 4) : Dimm := i.dimms.getD (slotOf i cs) {}

/-- The module has the rank of the chip select. -/
def hasRank (i : Inputs) (cs : Fin 4) : Bool := rankOf i cs < (dimmOf i cs).ranks

/-- The size of a rank on the bus of the controller. -/
def rankSpan (i : Inputs) (cs : Fin 4) : Nat := (dimmOf i cs).rankSize / 2 ^ i.widthShift

/-! ### Ranges -/

/-- The last address of a range. The end of the range stays within 64 bits. -/
def lastOf (start size : Nat) : Nat := min (start + size) (2 ^ 64 - 1) - 1

/-- The range of the whole controller. -/
def regionRange (i : Inputs) : Nat × Nat :=
  (i.region.base, lastOf i.region.base i.region.size)

/-- The range of a rank of its own. -/
def rankRange (i : Inputs) (cs : Fin 4) : Nat × Nat :=
  let start := (dimmOf i cs).base + rankOf i cs * rankSpan i cs
  (start, lastOf start (rankSpan i cs))

/-- The range of a chip select if `lead` and `partner` share a range: the lead's range is longer by
a rank, and the partner's starts where the module does. -/
def pairRange (i : Inputs) (lead partner cs : Fin 4) : Nat × Nat :=
  let base := (dimmOf i cs).base
  let skipped := rankOf i cs * rankSpan i cs
  (if cs = partner then base else base + skipped,
    lastOf base (rankSpan i cs) + skipped + if cs = lead then rankSpan i cs else 0)

/-- The range of a chip select if both pairs share a range each. -/
def bothPairsRange (i : Inputs) (cs : Fin 4) : Nat × Nat :=
  let base := (dimmOf i cs).base
  let start := if 2 ≤ cs.val ∧ slotOf i cs = 0 then base + 2 * rankSpan i cs else base
  (start, lastOf start (2 * rankSpan i cs))

/-- The chip selects that answer for a controller that is interleaved with others. -/
def answersForGroup (mode : BankMode) (cs : Fin 4) : Bool :=
  match mode with
  | .allFour => true
  | .lowPair | .bothPairs => cs ≤ 1
  | .off | .highPair | .auto => cs == 0

/-- The first and the last address of a chip select, if it maps memory. -/
def range? (i : Inputs) (cs : Fin 4) : Option (Nat × Nat) :=
  if i.options.controllerMode.isSome then
    if answersForGroup i.options.bankMode cs then some (regionRange i) else none
  else
    match i.options.bankMode with
    | .allFour => some (regionRange i)
    | .bothPairs => some (bothPairsRange i cs)
    | .lowPair => if hasRank i cs then some (pairRange i 0 1 cs) else none
    | .highPair => if hasRank i cs then some (pairRange i 2 3 cs) else none
    | .off | .auto => if hasRank i cs then some (rankRange i cs) else none

/-! ### Registers -/

/-- The register of a range: the addresses in units of 16 MiB. -/
def boundsOf (range : Nat × Nat) : Word :=
  assemble [(Layout.Bounds.first, range.1 / 2 ^ 24), (Layout.Bounds.last, range.2 / 2 ^ 24)]

/-- The fields for interleaving with another controller, which the first chip select has. -/
def interleaveFields (i : Inputs) (cs : Fin 4) : List (Field × Nat) :=
  match i.options.controllerMode with
  | some mode =>
      if cs = 0 ∧ mode.ways = 2 then
        [(Layout.ChipSelect.interleave, 1), (Layout.ChipSelect.interleaveMode, mode.code)]
      else []
  | none => []

/-- The configuration of a chip select, zero without a rank. -/
def chipSelectConfig (i : Inputs) (cs : Fin 4) : Word :=
  if hasRank i cs then
    let d := dimmOf i cs
    let odt := i.options.odt[cs]
    assemble
      ([(Layout.ChipSelect.enable, 1), (Layout.ChipSelect.odtOnRead, odt.onRead.code),
          (Layout.ChipSelect.odtOnWrite, odt.onWrite.code),
          (Layout.ChipSelect.bankBits, d.banks.log2 - 2),
          (Layout.ChipSelect.rowBits, d.rowBits - 12),
          (Layout.ChipSelect.columnBits, d.columnBits - 8)] ++
        interleaveFields i cs)
  else 0#32

/-- The registers of one chip select. -/
def chipSelect (i : Inputs) (cs : Fin 4) : ChipSelectRegisters :=
  if (dimmOf i cs).isEmpty then { bounds := Bits.noRange }
  else
    { bounds := ((range? i cs).map boundsOf).getD Bits.noRange
      config := chipSelectConfig i cs }

/-- The registers of the four chip selects. A controller without slots has none. -/
def chipSelects (i : Inputs) : Vector ChipSelectRegisters 4 :=
  if i.dimms.isEmpty then Vector.replicate 4 {} else Vector.ofFn (chipSelect i)

end SdramBringup.Synthesis
