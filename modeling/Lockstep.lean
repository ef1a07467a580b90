import Lockstep.Command.Output
import Lockstep.Command.Run
import Lockstep.Command.Validate
import Lockstep.Files.Path
import Lockstep.Files.Store
import Lockstep.Json.Chars
import Lockstep.Json.Number
import Lockstep.Json.Reader
import Lockstep.Json.Value
import Lockstep.Layout.Code
import Lockstep.Layout.FileName
import Lockstep.Layout.NodeClass
import Lockstep.Loading.Edit
import Lockstep.Loading.Error
import Lockstep.Loading.LayoutFile
import Lockstep.Loading.Simulation
import Lockstep.Main
import Lockstep.Node.Basic
import Lockstep.Node.Step
import Lockstep.Program.Assembly
import Lockstep.Program.Code
import Lockstep.Program.CodeError
import Lockstep.Program.Fault
import Lockstep.Program.Instruction
import Lockstep.Program.Labels
import Lockstep.Program.Opcode
import Lockstep.Program.Operand
import Lockstep.Program.SourceLine
import Lockstep.Proofs.Acceptance
import Lockstep.Proofs.Assembling
import Lockstep.Proofs.BlankLines
import Lockstep.Proofs.Bystanders
import Lockstep.Proofs.ChannelMap
import Lockstep.Proofs.CodeExact
import Lockstep.Proofs.EventRecord
import Lockstep.Proofs.FileStore
import Lockstep.Proofs.Grammar
import Lockstep.Proofs.Guise
import Lockstep.Proofs.InPlace
import Lockstep.Proofs.Invariants
import Lockstep.Proofs.Jumping
import Lockstep.Proofs.LayoutCode
import Lockstep.Proofs.LayoutOfCode
import Lockstep.Proofs.Linting
import Lockstep.Proofs.Listing
import Lockstep.Proofs.Mixing
import Lockstep.Proofs.NodeBounds
import Lockstep.Proofs.NodeStep
import Lockstep.Proofs.Numerals
import Lockstep.Proofs.Operations
import Lockstep.Proofs.Pacing
import Lockstep.Proofs.Pausing
import Lockstep.Proofs.Placement
import Lockstep.Proofs.ProgramCode
import Lockstep.Proofs.Pumping
import Lockstep.Proofs.Recasting
import Lockstep.Proofs.Refusals
import Lockstep.Proofs.Reloading
import Lockstep.Proofs.Resolving
import Lockstep.Proofs.Restoring
import Lockstep.Proofs.RunState
import Lockstep.Proofs.Saving
import Lockstep.Proofs.Schedule
import Lockstep.Proofs.Sharing
import Lockstep.Proofs.Simultaneous
import Lockstep.Proofs.StepEffect
import Lockstep.Proofs.StepExact
import Lockstep.Proofs.StepFailure
import Lockstep.Proofs.StepOrder
import Lockstep.Proofs.Stopping
import Lockstep.Proofs.Synchrony
import Lockstep.Proofs.Tables
import Lockstep.Proofs.TestSets
import Lockstep.Proofs.Ticking
import Lockstep.Proofs.Verifying
import Lockstep.Proofs.Waiting
import Lockstep.Proofs.Watching
import Lockstep.Puzzle
import Lockstep.Puzzle.Json
import Lockstep.Session
import Lockstep.Settings
import Lockstep.Settings.Json
import Lockstep.Simulation.Basic
import Lockstep.Simulation.Event
import Lockstep.Simulation.Exchange
import Lockstep.Simulation.Run
import Lockstep.Table
import Lockstep.Text.Blank
import Lockstep.Text.CaseTable
import Lockstep.Text.Casing
import Lockstep.Text.Lines
import Lockstep.Text.Numeral
import Lockstep.Time.Easing
import Lockstep.Time.Nanos
import Lockstep.Time.Pacer
import Lockstep.Validation.Basic
import Lockstep.Validation.Lint
import Lockstep.Validation.Report
import Lockstep.Value
import Lockstep.Watch
