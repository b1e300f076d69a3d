import Chip8.Engine
import Chip8.Schedule

/-!
# Pacers

A pacer steps the engine of a handle and lets things happen in between: the
timers tick and the display is shown at regular counts, and the host's wishes to
pause, to go on or to stop take effect.  All of these are cues on a schedule,
with the count of executed steps as clock.

The two regular cues come back each time they have fired.  `timerActive` and
`frameActive` say that they are wanted; a pacer that stops wants neither.
-/

namespace Chip8

inductive Power
  | running
  | paused
  | stopped
  deriving DecidableEq

inductive Cue
  | tickTimers
  | showFrame
  | powerOff
  | pause
  | resume
  deriving DecidableEq

structure Pacer where
  handle : Handle
  /-- The number of the host's clock that the pacer follows. -/
  clock : Nat
  /-- Instructions in a second. -/
  rate : Float
  timerFrequency : Float
  /-- Seconds between two showings of the display. -/
  refresh : Float
  /-- The requests that the frame callback makes, if there is a frame callback. -/
  frames : Option (Script Request)
  /-- How many steps have been executed. -/
  count : Nat
  lastStatus : Option Status
  power : Power
  schedule : Schedule Cue
  /-- The number of the next cue. -/
  nextOrder : Nat
  /-- The instant that the count zero belongs to. -/
  base : Int
  timerInterval : Nat
  frameInterval : Nat
  timerActive : Bool
  frameActive : Bool

namespace Pacer

/-- Puts a cue on the schedule, `delay` steps from now. -/
def enqueue (p : Pacer) (cue : Cue) (delay : Nat) : Pacer :=
  { p with
    schedule := p.schedule.insert ⟨p.count + delay, p.nextOrder, cue⟩
    nextOrder := p.nextOrder + 1 }

def due (p : Pacer) : List (Event Cue) :=
  p.schedule.due p.count

def takeDue (p : Pacer) : Pacer :=
  { p with schedule := p.schedule.rest p.count }

/-- Wants the ticks of the timers, from one interval on. -/
def startTimers (p : Pacer) : Pacer :=
  if p.timerActive then p
  else { p with timerActive := true }.enqueue .tickTimers p.timerInterval

/-- Wants the frame callback, if there is one, from one interval on. -/
def startFrames (p : Pacer) : Pacer :=
  if p.frameActive || p.frames.isNone then p
  else { p with frameActive := true }.enqueue .showFrame p.frameInterval

/-- Wants the regular cues of a pacer that runs. -/
def startPeriodic (p : Pacer) : Pacer :=
  if p.power = .running then p.startTimers.startFrames else p

/-- Wants no regular cues any more; those on the schedule stay there. -/
def stopPeriodic (p : Pacer) : Pacer :=
  { p with timerActive := false, frameActive := false }

def clearSchedule (p : Pacer) : Pacer :=
  { p with schedule := .empty }

def stopNow (p : Pacer) : Pacer :=
  { p with power := .stopped }.stopPeriodic.clearSchedule

def pauseNow (p : Pacer) : Pacer :=
  if p.power = .running then { p with power := .paused } else p

theorem power_stopNow (p : Pacer) : p.stopNow.power = .stopped := rfl

def countStep (p : Pacer) (status : Status) : Pacer :=
  { p with count := p.count + 1, lastStatus := some status }

def powerNumber : Power → Nat
  | .running => 0
  | .paused => 1
  | .stopped => 2

end Pacer

end Chip8
