import Chip8.Headless.Settings
import Chip8.Host.Pacing

/-!
# Runs within limits

A run executes instructions in rounds until the program halts, a breakpoint is
met, or the limit of instructions or of time is reached.  Breakpoints are looked
at between rounds, so with any breakpoint a round is a single instruction.

How a run has ended decides the exit code and the last line of the report.
-/

namespace Chip8.Headless

/-- A clock in seconds: any sequence of readings. -/
structure Stopwatch where
  readings : Nat → Float
  /-- How many readings there have been. -/
  count : Nat

namespace Stopwatch

def now (w : Stopwatch) : Float :=
  w.readings w.count

def advance (w : Stopwatch) : Stopwatch :=
  { w with count := w.count + 1 }

def steady (start step : Float) : Stopwatch :=
  ⟨fun k => Nat.repeat (· + step) k start, 0⟩

end Stopwatch

structure RunResult where
  /-- How many instructions have been tried, the one that halts the program included. -/
  executed : Nat
  status : Option Status
  breakHit : Bool
  timeoutHit : Bool
  cycleHit : Bool
  deriving DecidableEq

namespace RunResult

def initial : RunResult :=
  ⟨0, none, false, false, false⟩

/-- The exit code and the last line of the report: a halt goes first, then a breakpoint, the time
limit and the limit of instructions. -/
def exit (r : RunResult) : Nat × Option String :=
  let count := toString r.executed ++ " instructions: "
  match r.status with
  | some (.halted reason) =>
    (if reason.isFault then 4 else 0, some ("Execution halted after " ++ count ++ reason.message))
  | _ =>
    if r.breakHit then (0, none)
    else if r.timeoutHit then (3, some ("Stopped after " ++ count ++ "time limit"))
    else if r.cycleHit then (2, some ("Stopped after " ++ count ++ "cycle limit"))
    else (0, none)

theorem exit_code_lt (r : RunResult) : r.exit.1 < 5 := by
  simp only [exit]
  split
  · split <;> simp
  · split
    · simp
    · split
      · simp
      · split <;> simp

end RunResult

namespace Limits

def batch (l : Limits) : Nat :=
  if l.breakpoints.isEmpty then 256 else 1

/-- The instructions of the next round; there is no next round when the limit has been reached. -/
def budget (l : Limits) (executed : Nat) : Option Nat :=
  match l.cycles with
  | none => some l.batch
  | some n => if executed < n then some (min l.batch (n - executed)) else none

theorem budget_pos {l : Limits} {executed n : Nat} (h : l.budget executed = some n) : 0 < n := by
  have hb : 0 < l.batch := by
    rw [batch]
    split <;> simp
  rw [budget] at h
  split at h
  · cases h
    exact hb
  · split at h
    · cases h
      omega
    · cases h

def deadline (l : Limits) (now : Float) : Option Float :=
  l.seconds.bind fun seconds => if 0 ≤ seconds then some (now + seconds) else none

/-- More rounds than a run can have; without a limit of instructions, more than one should wait
for. -/
def rounds (l : Limits) : Nat :=
  match l.cycles with
  | none => HostM.roundLimit
  | some n => n + 1

end Limits

variable (perform : Request → HostM Reply)

def pacedCounter (p : Nat) : HostM Int := do
  return (← HostM.machine (← HostM.pacerAt p).handle.engine).counter

/-- One round: the result after a number of steps, and whether the pacer still runs. -/
def runRound (p : Nat) (budget : Nat) (r : RunResult) : HostM (RunResult × Bool) := do
  let before := (← HostM.pacerAt p).count
  let status ← HostM.runSteps perform p budget
  let pacer ← HostM.pacerAt p
  return ({ r with executed := r.executed + (pacer.count - before), status },
    pacer.power = .running)

def runRounds (p : Nat) (limits : Limits) (deadline : Option Float) (watch : Stopwatch)
    (r : RunResult) : Nat → HostM RunResult
  | 0 => throw .stalled
  | n + 1 => do
    match limits.budget r.executed with
    | none => return { r with cycleHit := true }
    | some budget =>
      let (r, running) ← runRound perform p budget r
      if !running then return r
      if limits.breakpoints.contains (← pacedCounter p) then return { r with breakHit := true }
      match deadline with
      | none => runRounds p limits deadline watch r n
      | some instant =>
        if instant ≤ watch.now then return { r with timeoutHit := true }
        runRounds p limits deadline watch.advance r n

/-- A run of a pacer within limits.  The stopwatch is only read if there is a limit of time. -/
def run (p : Nat) (limits : Limits) (watch : Stopwatch) : HostM RunResult := do
  let deadline := limits.deadline watch.now
  HostM.powerOn p
  runRounds perform p limits deadline watch.advance RunResult.initial limits.rounds

end Chip8.Headless
