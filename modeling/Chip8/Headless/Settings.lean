import Chip8.CommandLine
import Chip8.Dialect
import Chip8.Dump
import Chip8.Pace

/-!
# Settings of a run without a window

What the command line says about a run, and the plan that it makes: the
breakpoints, keys and ranges are read from their texts, in this order, and the
rate is looked at last.
-/

namespace Chip8.Headless

structure Settings where
  rom : Option String
  /-- The most instructions to execute; there is no limit if it is not positive. -/
  cycles : Int
  /-- Instructions in a second. -/
  rate : Float
  breakpoints : List String
  /-- The keys that are held down. -/
  keys : List String
  variants : List Variant
  seed : Option Int
  /-- The file that the dump goes to. -/
  dump : Option String
  dumpRanges : List String
  dumpFormat : DumpFormat
  screen : Bool
  registers : Bool
  seconds : Option Float
  trace : Bool
  traceMemory : Bool
  verbose : Bool

namespace Settings

def initial : Settings where
  rom := none
  cycles := 100000
  rate := Pace.defaultRate
  breakpoints := []
  keys := []
  variants := []
  seed := none
  dump := none
  dumpRanges := []
  dumpFormat := .none
  screen := false
  registers := false
  seconds := none
  trace := false
  traceMemory := false
  verbose := false

def showsLog (s : Settings) : Bool :=
  s.verbose || s.trace || s.traceMemory

end Settings

def commandLine : CommandLine Settings where
  options := [
    ⟨"--rom", .text fun v s => { s with rom := some v }⟩,
    ⟨"--cycles", .integer fun v s => { s with cycles := v }⟩,
    ⟨"--ips", .real fun v s => { s with rate := v }⟩,
    ⟨"--break-pc", .text fun v s => { s with breakpoints := s.breakpoints ++ [v] }⟩,
    ⟨"--press", .text fun v s => { s with keys := s.keys ++ [v] }⟩,
    ⟨"--quirk", .choice Variant.choices fun v s => { s with variants := s.variants ++ [v] }⟩,
    ⟨"--seed", .integer fun v s => { s with seed := some v }⟩,
    ⟨"--dump", .text fun v s => { s with dump := some v }⟩,
    ⟨"--dump-range", .text fun v s => { s with dumpRanges := s.dumpRanges ++ [v] }⟩,
    ⟨"--dump-format", .choice DumpFormat.choices fun v s => { s with dumpFormat := v }⟩,
    ⟨"--screen", .flag fun s => { s with screen := true }⟩,
    ⟨"--registers", .flag fun s => { s with registers := true }⟩,
    ⟨"--seconds", .real fun v s => { s with seconds := some v }⟩,
    ⟨"--trace", .flag fun s => { s with trace := true }⟩,
    ⟨"--trace-memory", .flag fun s => { s with traceMemory := true }⟩,
    ⟨"--verbose", .flag fun s => { s with verbose := true }⟩]
  operand := none
  missing := fun s => if s.rom.isNone then ["--rom"] else []

def programName : String := "chip8-debug-runner"

/-! ### Plans -/

/-- Which of the texts on a command line is malformed. -/
inductive TextRole
  | breakpoint
  | key
  | dumpRange
  deriving DecidableEq

def TextRole.name : TextRole → String
  | breakpoint => "breakpoint"
  | key => "key"
  | dumpRange => "dump range"

inductive PlanError
  | usage (error : UsageError)
  | malformed (role : TextRole) (text : String) (error : NumeralError)
  | rateNotPositive
  deriving DecidableEq

def PlanError.message : PlanError → String
  | usage e => e.message
  | malformed role text e => "invalid " ++ role.name ++ " '" ++ text ++ "': " ++ e.message
  | rateNotPositive => "--ips must be positive"

structure Limits where
  /-- The most instructions to execute. -/
  cycles : Option Nat
  breakpoints : List Int
  seconds : Option Float

structure Plan where
  settings : Settings
  rom : String
  limits : Limits
  keys : List Int
  dumpRanges : List AddressRange

/-- Reads the texts of one role; the error is the first malformed one. -/
def readAll {α : Type} (role : TextRole) (read : List Char → Except NumeralError α) :
    List String → Except PlanError (List α)
  | [] => .ok []
  | text :: rest =>
    match read text.toList with
    | .error e => .error (.malformed role text e)
    | .ok a => (readAll role read rest).map (a :: ·)

def Settings.plan (s : Settings) : Except PlanError Plan := do
  let breakpoints ← readAll .breakpoint parseAddress s.breakpoints
  let keys ← readAll .key parseKey s.keys
  let dumpRanges ← readAll .dumpRange AddressRange.parse s.dumpRanges
  if s.rate ≤ 0 then throw .rateNotPositive
  return {
    settings := s
    rom := s.rom.getD ""
    limits :=
      { cycles := if 0 < s.cycles then some s.cycles.toNat else none
        breakpoints
        seconds := s.seconds }
    keys
    dumpRanges }

/-- The plan of a command line; there is none if it asks for help. -/
def plan (arguments : List String) : Except PlanError (Option Plan) :=
  match commandLine.parse Settings.initial arguments with
  | .error e => .error (.usage e)
  | .ok none => .ok none
  | .ok (some s) => s.plan.map some

end Chip8.Headless
