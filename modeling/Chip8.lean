import Chip8.AddressRange
import Chip8.Binary64
import Chip8.CallStack
import Chip8.Caption
import Chip8.Cartridge
import Chip8.CommandLine
import Chip8.Dialect
import Chip8.Display.Basic
import Chip8.Display.Picture
import Chip8.Dump
import Chip8.Engine
import Chip8.Files
import Chip8.Halt
import Chip8.Headless.Program
import Chip8.Headless.Run
import Chip8.Headless.Settings
import Chip8.Host.Basic
import Chip8.Host.Engine
import Chip8.Host.Pacing
import Chip8.Host.Perform
import Chip8.Host.Request
import Chip8.Host.Session
import Chip8.Instruction
import Chip8.Keyboard
import Chip8.Keypad
import Chip8.Listing
import Chip8.Log
import Chip8.Machine.Basic
import Chip8.Machine.Step
import Chip8.Main
import Chip8.Memory.Basic
import Chip8.Memory.Bus
import Chip8.Memory.Layout
import Chip8.Pace
import Chip8.Pacer
import Chip8.Proofs.Binary64
import Chip8.Proofs.Display
import Chip8.Proofs.Dump
import Chip8.Proofs.Engine.Bounds
import Chip8.Proofs.Engine.Calls
import Chip8.Proofs.Engine.Dialects
import Chip8.Proofs.Engine.Finality
import Chip8.Proofs.Engine.Halting
import Chip8.Proofs.Engine.KeyWait
import Chip8.Proofs.Engine.Step
import Chip8.Proofs.Engine.Subroutines
import Chip8.Proofs.Headless.Endings
import Chip8.Proofs.Headless.Launch
import Chip8.Proofs.Headless.Rounds
import Chip8.Proofs.Host.Answers
import Chip8.Proofs.Host.Asks
import Chip8.Proofs.Host.Assembled
import Chip8.Proofs.Host.Callees
import Chip8.Proofs.Host.Calls
import Chip8.Proofs.Host.Evaluation
import Chip8.Proofs.Host.Follows
import Chip8.Proofs.Host.Lineage
import Chip8.Proofs.Host.Moments
import Chip8.Proofs.Host.Pacers
import Chip8.Proofs.Host.Reachable
import Chip8.Proofs.Host.Reload
import Chip8.Proofs.Host.RomFile
import Chip8.Proofs.Host.Sessions
import Chip8.Proofs.Host.Spared
import Chip8.Proofs.Host.Unblocked
import Chip8.Proofs.Instruction.Patterns
import Chip8.Proofs.Machine.Dialects
import Chip8.Proofs.Machine.Frame
import Chip8.Proofs.Machine.Halting
import Chip8.Proofs.Machine.KeyWait
import Chip8.Proofs.Machine.Picture
import Chip8.Proofs.Machine.Report
import Chip8.Proofs.Machine.Sound
import Chip8.Proofs.Machine.Step
import Chip8.Proofs.Machine.Subroutines
import Chip8.Proofs.Memory.Blocks
import Chip8.Proofs.Memory.Writes
import Chip8.Proofs.Pace
import Chip8.Proofs.Pacer.Batches
import Chip8.Proofs.Pacer.Calm
import Chip8.Proofs.Pacer.CutShort
import Chip8.Proofs.Pacer.Delayed
import Chip8.Proofs.Pacer.Launch
import Chip8.Proofs.Pacer.Order
import Chip8.Proofs.Pacer.PlainRun
import Chip8.Proofs.Pacer.Plan
import Chip8.Proofs.Pacer.Refinement
import Chip8.Proofs.Pacer.Regular
import Chip8.Proofs.Pacer.Replaced
import Chip8.Proofs.Pacer.Resumed
import Chip8.Proofs.Pacer.Rounds
import Chip8.Proofs.Pacer.SingleSteps
import Chip8.Proofs.Pacer.Spared
import Chip8.Proofs.Pacer.Stale
import Chip8.Proofs.Pacer.Starved
import Chip8.Proofs.Pacer.Tracking
import Chip8.Proofs.Pacer.Underway
import Chip8.Proofs.Schedule
import Chip8.Proofs.Window.Coherence
import Chip8.Proofs.Window.Follow
import Chip8.Proofs.Window.Frames
import Chip8.Refusal
import Chip8.Schedule
import Chip8.Text.Blank
import Chip8.Text.Bounds
import Chip8.Text.Case
import Chip8.Text.Cased
import Chip8.Text.Decimal
import Chip8.Text.Hex
import Chip8.Text.Numeral
import Chip8.Text.Path
import Chip8.Text.Printable
import Chip8.Text.Quoted
import Chip8.Timers
import Chip8.Window.Loop
import Chip8.Window.Program
import Chip8.Window.Settings
import Chip8.Proofs.Engine.Lifecycle
import Chip8.Proofs.Engine.Loads
import Chip8.Proofs.Pacer.Lone
import Chip8.Proofs.Pacer.Turns
import Chip8.Proofs.Host.Muted
import Chip8.Proofs.Host.MutedCalls
import Chip8.Proofs.Pacer.Muted
import Chip8.Proofs.Host.Tracing
import Chip8.Proofs.Machine.Arithmetic
import Chip8.Proofs.Engine.Arithmetic
import Chip8.Proofs.Pacer.Rate
import Chip8.Proofs.Pacer.NewRate
import Chip8.Proofs.Host.FailedDraw
import Chip8.Proofs.Keypad
import Chip8.Proofs.Display.Sprite
import Chip8.Proofs.Memory.Transfers
import Chip8.Proofs.Machine.Transfers
import Chip8.Proofs.Machine.Footprint
import Chip8.Proofs.Engine.Instructions
import Chip8.Proofs.Engine.Sprites
import Chip8.Proofs.Engine.Footprint
import Chip8.Proofs.Engine.Transfers
import Chip8.Proofs.Memory.Bytewise
import Chip8.Proofs.Ranges
import Chip8.Proofs.Headless.Dumps
import Chip8.Proofs.Text.Hex
import Chip8.Proofs.Listing
import Chip8.Proofs.Timers
import Chip8.Proofs.Host.Respected
import Chip8.Proofs.Machine.Timers
import Chip8.Proofs.Engine.Timers
import Chip8.Proofs.Text.Normal
import Chip8.Proofs.Text.Spelling
import Chip8.Proofs.Ranges.Notation
import Chip8.Proofs.Schedule.History
import Chip8.Proofs.Dialect
