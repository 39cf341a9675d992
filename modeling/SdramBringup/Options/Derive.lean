/-
**From modules to options.**

The options of a controller follow from its common timing, the modules in its slots, what is asked
for in interleaving and error correction, and the board. The board has the last word, except that
the bursts follow from whatever bus width it leaves.

Main definitions:

* `Options.busWidthOf` — the bus width for the modules;
* `Options.requestedMode` — the chip select interleaving that is asked for;
* `Options.generic` — the options before the board has its say;
* `Options.derive` — the options of a controller.
-/

import SdramBringup.Board
import SdramBringup.CommonTiming

set_option relaxedAutoImplicit false
set_option autoImplicit false

namespace SdramBringup.Options

/-- The number of ranks in a slot, among those in use. -/
def ranksIn (platform : Platform) (dimms : List Dimm) (slot : Nat) : Nat :=
  (((dimms.take platform.slots)[slot]?).map (·.ranks)).getD 0

/-- The bus width for a module with the given number of data lines. An unknown number counts as a
full bus. -/
def widthOfLines (lines : Nat) : Noted BusWidth :=
  match BusWidth.ofLines? lines with
  | some w => pure w
  | none => { value := .bits64, log := [.unknownDataWidth lines] }

/-- The bus width for the modules: that of the first one. -/
def busWidthOf (dimms : List Dimm) : Noted BusWidth :=
  match dimms.find? (!·.isEmpty) with
  | some d => widthOfLines d.dataWidth
  | none => pure .bits64

/-- The chip select interleaving that is asked for, with the widest one in place of a request for
it. -/
def requestedMode (platform : Platform) (dimms : List Dimm) (source : InterleaveSource)
    (ctrl : Nat) : BankMode :=
  let asked := (source.bank ctrl).getD .off
  if asked = .auto then
    BankMode.widest platform.slots (ranksIn platform dimms 0) (ranksIn platform dimms 1)
      platform.firstSlotQuadCapable
  else asked

/-- The chip select interleaving that is used: what is asked for, if the ranks admit it. -/
def bankModeOf (platform : Platform) (dimms : List Dimm) (source : InterleaveSource)
    (ctrl : Nat) : Noted BankMode :=
  let mode := requestedMode platform dimms source ctrl
  if mode.supported platform.slots (ranksIn platform dimms 0) (ranksIn platform dimms 1)
      platform.firstSlotQuadCapable then
    pure mode
  else { value := .off, warnings := [.bankModeUnsupported ctrl mode] }

/-- The first word of fixed control words for registered modules. -/
def fixedControlWords1 : Word := 0x000A5A00#32

/-- The second word, which tells the register its data rate. -/
def fixedControlWords2 (megatransfers : Nat) : Word :=
  if megatransfers ≤ 800 then 0x00000000#32
  else if megatransfers ≤ 1066 then 0x00100000#32
  else if megatransfers ≤ 1333 then 0x00200000#32
  else 0x00300000#32

/-- The options of a controller before the board has its say. -/
def generic (clock : Clock) (common : CommonTiming) (dimms : List Dimm) (ctrl : Nat)
    (platform : Platform) (source : InterleaveSource) (width : BusWidth) (mode : BankMode) :
    Options :=
  let ecc := (source.ecc ctrl).getD false
  let fixed := common.allRegistered
  { odt :=
      (Population.classify platform.slots (ranksIn platform dimms 0) (ranksIn platform dimms 1)
        platform.firstSlotQuadCapable).table
    controllerMode := if 1 < platform.controllers then source.controller ctrl else none
    bankMode := mode
    ecc := ecc
    eccInit := ecc
    strobeConfig := 1
    selfRefreshInSleep := true
    busWidth := width
    mirrored := dimms.head?.any (·.mirrored)
    quadRank := dimms.any (·.isQuadRank)
    registered := common.allRegistered
    addressParity := common.allRegistered
    x4Devices := dimms.head?.any (·.deviceWidth == 4)
    writeDataDelay := 2
    prechargeInterval := clock.cyclesFor common.refreshInterval / 4
    fourActivatesPs := common.timing.tFAW
    ckePulsePs := clock.minCkePulsePs
    zqCalibration := true
    writeLeveling := true
    controlWordsFixed := fixed
    controlWords1 := if fixed then fixedControlWords1 else 0
    controlWords2 := if fixed then fixedControlWords2 clock.megatransfers else 0 }

/-- The options of a controller. -/
def derive {B : Type} [BoardHook B] (clock : Clock) (common : CommonTiming) (dimms : List Dimm)
    (ctrl : Nat) (platform : Platform) (source : InterleaveSource) (board : B) :
    Noted Options := do
  let width ← busWidthOf dimms
  let mode ← bankModeOf platform dimms source ctrl
  let tuned ← BoardHook.apply board
    (generic clock common dimms ctrl platform source width mode).withBurst dimms clock ctrl
  return tuned.withBurst

end SdramBringup.Options
