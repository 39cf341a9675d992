import SdramBringup.Board
import SdramBringup.BringUp
import SdramBringup.CasLatency
import SdramBringup.Clock
import SdramBringup.CommonTiming
import SdramBringup.Dimm
import SdramBringup.Hardware.BigEndian
import SdramBringup.Hardware.Eeprom
import SdramBringup.Hardware.Program
import SdramBringup.Hardware.RegisterBank
import SdramBringup.Hex
import SdramBringup.Instances
import SdramBringup.Interleave
import SdramBringup.LogLine
import SdramBringup.Noted
import SdramBringup.Odt
import SdramBringup.Options
import SdramBringup.Options.Derive
import SdramBringup.Placement
import SdramBringup.Platform
import SdramBringup.Programming
import SdramBringup.Proofs.Addressable
import SdramBringup.Proofs.Alike
import SdramBringup.Proofs.BankGroups
import SdramBringup.Proofs.BringUp
import SdramBringup.Proofs.CasLatency
import SdramBringup.Proofs.Cells
import SdramBringup.Proofs.Checksum
import SdramBringup.Proofs.ChipSelect
import SdramBringup.Proofs.Clock
import SdramBringup.Proofs.CommonTiming
import SdramBringup.Proofs.Configuration
import SdramBringup.Proofs.Configured
import SdramBringup.Proofs.ControllerSize
import SdramBringup.Proofs.Controllers
import SdramBringup.Proofs.Convergence
import SdramBringup.Proofs.Erasure
import SdramBringup.Proofs.ErrorCorrection
import SdramBringup.Proofs.Field
import SdramBringup.Proofs.Footprint
import SdramBringup.Proofs.GroupBacking
import SdramBringup.Proofs.GroupPlacement
import SdramBringup.Proofs.IgnoredModule
import SdramBringup.Proofs.InterleavedRanks
import SdramBringup.Proofs.Intervals
import SdramBringup.Proofs.LeftOut
import SdramBringup.Proofs.LinearTiling
import SdramBringup.Proofs.ModeRegister
import SdramBringup.Proofs.Options
import SdramBringup.Proofs.Placement
import SdramBringup.Proofs.Programming
import SdramBringup.Proofs.Provenance
import SdramBringup.Proofs.QuadRank
import SdramBringup.Proofs.Reach
import SdramBringup.Proofs.RefreshInterval
import SdramBringup.Proofs.Region
import SdramBringup.Proofs.ReportedMemory
import SdramBringup.Proofs.ResetSequence
import SdramBringup.Proofs.Resuming
import SdramBringup.Proofs.Revision
import SdramBringup.Proofs.SizeAgreement
import SdramBringup.Proofs.Stages
import SdramBringup.Proofs.Success
import SdramBringup.Proofs.ThreeWay
import SdramBringup.Proofs.Timebase
import SdramBringup.Proofs.Topics
import SdramBringup.Proofs.Trace
import SdramBringup.Proofs.TrustedImage
import SdramBringup.Proofs.Unplaced
import SdramBringup.Proofs.UntrustedImage
import SdramBringup.Proofs.UnusedChipSelects
import SdramBringup.Proofs.WarningRoom
import SdramBringup.Proofs.WorstCase
import SdramBringup.Proofs.WriteRecovery
import SdramBringup.Register.Field
import SdramBringup.Register.File
import SdramBringup.Register.Layout
import SdramBringup.Register.Map
import SdramBringup.Spd.Crc
import SdramBringup.Spd.Decode
import SdramBringup.Spd.Image
import SdramBringup.Stage
import SdramBringup.State
import SdramBringup.Synthesis.ChipSelect
import SdramBringup.Synthesis.Configuration
import SdramBringup.Synthesis.Inputs
import SdramBringup.Synthesis.Mode
import SdramBringup.Synthesis.Registers
import SdramBringup.Synthesis.Timing
import SdramBringup.TimingError
import SdramBringup.Warning
import SdramBringup.Proofs.InterleavingGate
import SdramBringup.Proofs.Polling
import SdramBringup.Proofs.StoredRegisters
import SdramBringup.Proofs.PollBudget
import SdramBringup.Proofs.LoneModule
import SdramBringup.Proofs.BoardTable
import SdramBringup.Proofs.ChipSelectModes
import SdramBringup.Proofs.ClockMinimums
import SdramBringup.Proofs.RegisterFields
import SdramBringup.Proofs.ControlWords
