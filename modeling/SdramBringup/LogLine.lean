/-
**The messages of a run.**

Beside the recorded warnings a run tells the reader of its console what it found and what it could
not encode. A message is kept as its cause; the wording is in one place.

Main definitions:

* `Failure` — the one condition that stops a run;
* `LogLine` — the messages, with `LogLine.severity` and `LogLine.text`;
* `LogLine.render` — the line as it is printed.
-/

import SdramBringup.Spd.Decode

set_option relaxedAutoImplicit false
set_option autoImplicit false

namespace SdramBringup

/-- A module is present and cannot be trusted, and nothing is known to assume in its place. -/
structure Failure where
  ctrl : Nat
  slot : Nat
  error : Spd.Error
  deriving DecidableEq, Repr

/-- The failure in words. -/
def Failure.message (f : Failure) : String :=
  s!"uncorrectable SPD on controller {f.ctrl} slot {f.slot}: {f.error.message}"

/-- How serious a message is. -/
inductive Severity where
  | error
  | warn
  | info
  deriving DecidableEq, Repr

/-- The name of a severity in front of a message. -/
def Severity.label : Severity → String
  | error => "ERROR"
  | warn => "WARN"
  | info => "INFO"

/-- A message by its cause. -/
inductive LogLine where
  /-- The image of a slot was decoded. -/
  | decoded (ctrl slot : Nat) (dimm : Dimm)
  /-- The module of a slot takes part in the common timing. -/
  | takesPart (ctrl slot : Nat) (dimm : Dimm)
  /-- The size of the usable memory. -/
  | memorySize (bytes : Nat)
  /-- The bus width of a module is not known. -/
  | unknownDataWidth (width : Nat)
  /-- The write recovery has no code in the controller. -/
  | writeRecovery (clocks : Nat)
  /-- The write recovery has no code in mode register 0. -/
  | modeWriteRecovery (clocks : Nat)
  /-- The CAS latency has no code in mode register 0. -/
  | modeCasLatency (latency : Nat)
  /-- The registers ask for registered modules and slow command timing at once. -/
  | registeredWithSlowCommands
  /-- An image failed its check. -/
  | imageRejected (ctrl slot : Nat) (error : Spd.Error)
  /-- The run was given up. -/
  | givenUp (failure : Failure)

namespace LogLine

/-- How serious a message is. -/
def severity : LogLine → Severity
  | decoded .. | takesPart .. | memorySize .. => .info
  | unknownDataWidth .. => .warn
  | writeRecovery .. | modeWriteRecovery .. | modeCasLatency .. | registeredWithSlowCommands
  | imageRejected .. | givenUp .. => .error

/-- Whole mebibytes. -/
def mebibytes (bytes : Nat) : Nat := bytes / 2 ^ 20

/-- The message in words. -/
def text : LogLine → String
  | decoded ctrl slot d =>
      s!"DDR{ctrl}: slot {slot}: {mebibytes d.capacity} MiB, {d.ranks} rank(s), {d.dataWidth} bit"
  | takesPart ctrl slot d =>
      s!"DDR{ctrl}: slot {slot}: " ++ (if d.registered then "RDIMM " else "UDIMM ") ++ d.partNumber
  | memorySize bytes => s!"DDR: {mebibytes bytes} MiB"
  | unknownDataWidth width => s!"DDR: unknown data width {width}, using 64 bit"
  | writeRecovery clocks => s!"DDR: write recovery of {clocks} clocks not supported"
  | modeWriteRecovery clocks => s!"DDR: MR0 write recovery of {clocks} clocks not supported"
  | modeCasLatency latency => s!"DDR: MR0 CAS latency {latency} not supported"
  | registeredWithSlowCommands => "DDR: RD_EN and 2T_EN must not be set at the same time"
  | imageRejected ctrl slot error => s!"DDR{ctrl}: slot {slot}: {error.message}"
  | givenUp failure => s!"DDR: configuration failed: {failure.message}"

/-- The line as it is printed: the severity and the message. -/
def render (l : LogLine) : String := l.severity.label ++ " " ++ l.text

end LogLine

end SdramBringup
