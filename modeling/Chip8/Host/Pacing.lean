import Chip8.Host.Engine

/-!
# Calls on pacers

A pacer executes steps through its handle and lets its cues happen: before each
step those whose count has come, and once more after the last step.  The paced
runs ask how many instructions are due, execute them in batches, and sleep where
none are due.

The frame callback and the sleeps of a paced run make requests by the function
`perform` that these definitions are given.
-/

namespace Chip8

namespace HostM

variable (perform : Request → HostM Reply)

/-- Makes requests one after the other and notes their answers. -/
def performAll : List Request → HostM Unit
  | [] => pure ()
  | r :: rest => do
    note (.reply (← perform r))
    performAll rest

def showFrame (script : Script Request) (count : Nat) : HostM Unit := do
  modify fun h => { h with frames := h.frames + 1 }
  let k := (← get).frames
  note (.frame k count)
  performAll perform (script.requests k)

/-- Lines a pacer's base up with its count and its rate. -/
def rebase (p : Nat) : HostM Unit := do
  let pacer ← pacerAt p
  let now ← readClock pacer.clock
  let base ← ofConversion (Pace.baseTime now pacer.count pacer.rate)
  modifyPacer p fun q => { q with base }

def fire (p : Nat) : Cue → HostM Unit
  | .tickTimers => do
    let pacer ← pacerAt p
    if pacer.timerActive && pacer.power ≠ .stopped then
      tickHandle pacer.handle
      modifyPacer p fun q => q.enqueue .tickTimers q.timerInterval
  | .showFrame => do
    let pacer ← pacerAt p
    if pacer.frameActive && pacer.power ≠ .stopped then
      match pacer.frames with
      | none => pure ()
      | some script => showFrame perform script pacer.count
      modifyPacer p fun q => q.enqueue .showFrame q.frameInterval
  | .powerOff => modifyPacer p Pacer.stopNow
  | .pause => modifyPacer p Pacer.pauseNow
  | .resume => do
    if (← pacerAt p).power ≠ .running then
      modifyPacer p fun q => { q with power := .running }
      rebase p

def fireAll (p : Nat) : List (Event Cue) → HostM Unit
  | [] => pure ()
  | e :: rest => do
    fire perform p e.item
    fireAll p rest

/-- Takes the cues whose count has come off the schedule and lets them happen. -/
def settle (p : Nat) : HostM Unit := do
  let due := (← pacerAt p).due
  modifyPacer p Pacer.takeDue
  fireAll perform p due

/-- Puts a cue on the schedule that is due at once. -/
def cueNow (p : Nat) (cue : Cue) : HostM Unit := do
  modifyPacer p fun q => q.enqueue cue 0
  settle perform p

/-! ### Steps -/

def staleLine (x : Handle) : LogLine where
  level := .info
  source := .pacer
  message := "run handle for generation " ++ toString x.generation ++ " is stale; stopping"

/-- Up to so many steps, with the cues that come before each. -/
def stepsUpTo (p : Nat) : Nat → HostM Unit
  | 0 => pure ()
  | n + 1 => do
    settle perform p
    let pacer ← pacerAt p
    if pacer.power ≠ .running then return
    if !(← isCurrent pacer.handle) then
      log (staleLine pacer.handle)
      modifyPacer p Pacer.stopNow
      return
    let status ← stepHandle perform pacer.handle
    modifyPacer p (·.countStep status)
    if status.isHalted then
      modifyPacer p Pacer.stopNow
      return
    stepsUpTo p n

/-- Executes up to so many steps; the answer is the last status. -/
def runSteps (p : Nat) (count : Int) : HostM (Option Status) := do
  stepsUpTo perform p count.toNat
  settle perform p
  return (← pacerAt p).lastStatus

def instructionsDue (p : Nat) : HostM Int := do
  let pacer ← pacerAt p
  let now ← readClock pacer.clock
  ofConversion (Pace.instructionsDue (now - pacer.base) pacer.count pacer.rate)

/-! ### Control -/

def powerOn (p : Nat) : HostM Unit := do
  modifyPacer p fun q => { q with power := .running }
  rebase p
  modifyPacer p Pacer.startPeriodic

def powerOff (p : Nat) : HostM Unit := do
  if (← pacerAt p).power ≠ .stopped then cueNow perform p .powerOff

def pause (p : Nat) : HostM Unit := do
  if (← pacerAt p).power = .running then cueNow perform p .pause

def resume (p : Nat) : HostM Unit := do
  if (← pacerAt p).power = .paused then cueNow perform p .resume

/-- Works the intervals of a pacer out from its rate, the one for the timers first. -/
def updateIntervals (p : Nat) : HostM Unit := do
  let pacer ← pacerAt p
  let timerInterval ← ofConversion (Pace.timerInterval pacer.rate pacer.timerFrequency)
  modifyPacer p fun q => { q with timerInterval }
  let frameInterval ← ofConversion (Pace.frameInterval pacer.rate pacer.refresh)
  modifyPacer p fun q => { q with frameInterval }

/-- Changes the rate.  The regular cues of a pacer that runs begin anew. -/
def setRate (p : Nat) (rate : Float) : HostM Unit := do
  if rate ≤ 0 then throw .newRateNotPositive
  modifyPacer p fun q => { q with rate }
  rebase p
  updateIntervals p
  if (← pacerAt p).power = .running then
    modifyPacer p fun q => q.stopPeriodic.clearSchedule.startPeriodic

/-- A new pacer over a handle, following a clock.  The clock is read twice. -/
def newPacer (handle : Handle) (rate timerFrequency refresh : Float)
    (frames : Option (Script Request)) (clock : Nat) : HostM Nat := do
  if rate ≤ 0 then throw .rateNotPositive
  if timerFrequency ≤ 0 then throw .timerFrequencyNotPositive
  if refresh ≤ 0 then throw .refreshNotPositive
  let _ ← readClock clock
  let timerInterval ← ofConversion (Pace.timerInterval rate timerFrequency)
  let frameInterval ← ofConversion (Pace.frameInterval rate refresh)
  let now ← readClock clock
  let base ← ofConversion (Pace.baseTime now 0 rate)
  let pacer : Pacer :=
    { handle, clock, rate, timerFrequency, refresh, frames
      count := 0
      lastStatus := none
      power := .stopped
      schedule := .empty
      nextOrder := 0
      base, timerInterval, frameInterval
      timerActive := false
      frameActive := false }
  modifyGet fun h => (h.pacers.size, { h with pacers := h.pacers.push pacer })

def rates (p : Nat) : HostM Reply := do
  let pacer ← pacerAt p
  return .rates pacer.timerInterval (Pace.period pacer.rate) pacer.base pacer.rate

/-! ### Paced runs -/

/-- How a paced run sleeps: what is requested during a sleep, by its number, and how many sleeps
there may be. -/
structure Sleeps where
  script : Script Request
  limit : Int

/-- The sleep with a number: the host's clock moves on, and then requests are made. -/
def sleep (sleeps : Sleeps) (number : Nat) (duration : Float) : HostM Unit := do
  if sleeps.limit < number then throw .sleepLimit
  advanceClock (← ofConversion (Binary64.truncate (duration * Pace.second)))
  performAll perform (sleeps.script.requests number)

def dueNow (p : Nat) : HostM Int := do
  if (← pacerAt p).power = .running then instructionsDue p else return 0

def pacedReply (p : Nat) (slept : Nat) (last : Float) : HostM Reply := do
  return .paced (← pacerAt p).lastStatus slept last

def ensureOn (p : Nat) : HostM Unit := do
  if (← pacerAt p).power = .stopped then powerOn p

/-- Batches and sleeps in turn until the pacer has stopped.  There are at most as many rounds as
sleeps are allowed, and one more, whose sleep is refused. -/
def runRounds (p : Nat) (maxBatch : Int) (sleeps : Sleeps) (slept : Nat) (last : Float) :
    Nat → HostM Reply
  | 0 => throw .sleepLimit
  | n + 1 => do
    if (← pacerAt p).power = .stopped then pacedReply p slept last
    else
      let due ← dueNow p
      let duration ←
        if due ≠ 0 then do
          let _ ← runSteps perform p (min due maxBatch)
          pure 0
        else pure (Pace.period (← pacerAt p).rate)
      sleep perform sleeps (slept + 1) duration
      runRounds p maxBatch sleeps (slept + 1) duration n

def run (p : Nat) (maxBatch : Int) (sleeps : Sleeps) : HostM Reply := do
  ensureOn p
  runRounds perform p maxBatch sleeps 0 0 (sleeps.limit.toNat + 2)

/-- Batches or sleeps until the pacer has stopped or the deadline has come on a wall clock, which is
read once for each round, with the numbers from `reads` on. -/
def runForRounds (p : Nat) (wall : WallClock) (deadline : Float) (maxBatch : Int) (sleeps : Sleeps)
    (reads slept : Nat) (last : Float) : Nat → HostM Reply
  | 0 => throw .stalled
  | n + 1 => do
    if (← pacerAt p).power = .stopped then pacedReply p slept last
    else if !((← readWall wall reads) < deadline) then pacedReply p slept last
    else
      let due ← dueNow p
      if due ≠ 0 then
        let _ ← runSteps perform p (min due maxBatch)
        runForRounds p wall deadline maxBatch sleeps (reads + 1) slept last n
      else
        let duration := Pace.period (← pacerAt p).rate
        sleep perform sleeps (slept + 1) duration
        runForRounds p wall deadline maxBatch sleeps (reads + 1) (slept + 1) duration n

/-- A run that has gone through so many rounds is taken to make no headway. -/
def roundLimit : Nat := 1000000000000

def runFor (p : Nat) (wall : WallClock) (seconds : Float) (maxBatch : Int) (sleeps : Sleeps) :
    HostM Reply := do
  ensureOn p
  let deadline := (← readWall wall 0) + seconds
  runForRounds perform p wall deadline maxBatch sleeps 1 0 0 roundLimit

end HostM

end Chip8
