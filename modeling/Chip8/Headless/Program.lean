import Chip8.Headless.Run
import Chip8.Host.Perform

/-!
# Running a program without a window

A command line is turned into a plan, the plan into a run, and the run into what
is left of it: an exit code, what is written to the two outputs, and the files.

The dump comes first, then the registers and then the display.  The log goes to
the second output, all of it or the warnings alone, and the last line of the
report comes after it.
-/

namespace Chip8.Headless

/-- What is left of a run. -/
structure Outcome where
  /-- The exit code, or a refusal that nothing has dealt with. -/
  ending : Except Refusal Nat
  output : List UInt8
  errorLines : List String
  files : Files

/-! ### Reports -/

/-- Counter, index register, depth of the stack, timers and completed instructions; the registers;
and the stack unless it is empty. -/
def registerLines (m : Machine) : List String :=
  let stack := m.stack.toList
  ["PC=" ++ Text.hex 3 m.counter ++ " I=" ++ Text.hex 3 m.index ++
      " SP=" ++ toString m.stack.pointer ++ " DT=" ++ Text.hex 2 m.timers.delay.toNat ++
      " ST=" ++ Text.hex 2 m.timers.sound.toNat ++ " N=" ++ toString m.completed,
    " ".intercalate (m.registers.v.toList.mapIdx fun (i : Nat) value =>
      "V" ++ Text.hex 1 i ++ "=" ++ Text.hex 2 value)] ++
    if stack.isEmpty then []
    else ["STACK " ++ " ".intercalate (stack.map fun (a : Nat) => Text.hex 3 a)]

def linesBytes (lines : List String) : List UInt8 :=
  lines.flatMap fun line => (line ++ "\n").toUTF8.toList

def reportLines (s : Settings) (m : Machine) : List String :=
  (if s.registers then registerLines m else []) ++
    if s.screen then m.display.textLines "#" "." else []

/-- What settings show of the log. -/
def shownLog (s : Settings) (log : List LogLine) : List String :=
  if s.showsLog then log.map LogLine.bracketed
  else (log.filter fun l => LogLevel.warning.rank ≤ l.level.rank).map LogLine.message

/-! ### Runs -/

variable (perform : Request → HostM Reply)

/-- Random numbers for each seed, and for a run without one. -/
abbrev SeededDraws := Option Int → List (Draw Request)

/-- A new engine with the program that a plan names; there is none if the program cannot be
loaded. -/
def prepare (plan : Plan) (draws : SeededDraws) : HostM (Except Refusal Nat) := do
  let c ← HostM.addEngine
    (Engine.fresh (Dialect.ofVariants plan.settings.variants) (draws plan.settings.seed) none 0)
  match ← HostM.attempt (HostM.loadRomFile c plan.rom) with
  | .ok _ => return .ok c
  | .error r => if HostM.isLoadFailure r then return .error r else throw r

def launch (plan : Plan) (c : Nat) : HostM Nat := do
  let s := plan.settings
  HostM.modifyEngine c fun e => { e with tracing := s.trace, tracingMemory := s.traceMemory }
  plan.keys.forM fun key => HostM.setKey c key true
  let x ← HostM.handle (← HostM.startEngine c)
  let k ← modifyGet fun h => (h.clocks.size, { h with clocks := h.clocks.push (.steady 0 0) })
  HostM.newPacer x s.rate Pace.timerFrequency Pace.refreshPeriod none k

/-- Dumps the memory of an engine; what is not written to a file is the answer. -/
def dump (plan : Plan) (c : Nat) : HostM (List UInt8) := do
  let s := plan.settings
  if s.dumpFormat = .none then return []
  let e ← HostM.engine c
  if e.tracingMemory then
    let accesses := Dump.accesses s.dumpFormat e.machine.memory plan.dumpRanges
    HostM.logAll (accesses.map Engine.accessLine)
  let data ← HostM.ofMemory (Dump.contents s.dumpFormat e.machine.memory plan.dumpRanges)
  match s.dump with
  | none => return data
  | some path =>
    let files ← HostM.ofExcept ((← get).files.save path data)
    modify fun h => { h with files }
    return []

/-- A run after a plan: the exit code, the output, and the last line of the report. -/
def runPlan (plan : Plan) (draws : SeededDraws) (watch : Stopwatch) :
    HostM (Nat × List UInt8 × Option String) := do
  match ← prepare plan draws with
  | .error r => return (1, [], some ("Failed to load ROM: " ++ r.message))
  | .ok c =>
    let p ← launch plan c
    let result ← run perform p plan.limits watch
    let dumped ← dump plan c
    let m ← HostM.machine c
    let (code, line) := result.exit
    return (code, dumped ++ linesBytes (reportLines plan.settings m), line)

def outcomeOfPlan (plan : Plan) (files : Files) (draws : SeededDraws) (watch : Stopwatch) :
    Outcome :=
  let (result, host) := runPlan perform plan draws watch (Host.ofFiles files)
  let log := shownLog plan.settings host.log.toList
  match result with
  | .ok (code, output, line) => ⟨.ok code, output, log ++ line.toList, host.files⟩
  | .error r => ⟨.error r, [], log, host.files⟩

/-- The names of the options, shown to those who ask for help. -/
def helpLine : String :=
  "options: " ++ ", ".intercalate ("--help" :: commandLine.options.map OptionSpec.name)

def outcome (arguments : List String) (files : Files) (draws : SeededDraws) (watch : Stopwatch) :
    Outcome :=
  match plan arguments with
  | .error e => ⟨.ok 2, [], [programName ++ ": error: " ++ e.message], files⟩
  | .ok none => ⟨.ok 0, linesBytes [helpLine], [], files⟩
  | .ok (some plan) => outcomeOfPlan HostM.perform plan files draws watch

end Chip8.Headless
