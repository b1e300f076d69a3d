import Chip8.Binary64

/-!
# Pace

How many instructions make a second, and what follows from that: after how many
instructions the timers tick and the display is shown, which instant of the
host's clock belongs to the first instruction, and how many instructions are
due.  Instants are whole nanoseconds; one executed step is one count of the
emulated clock.
-/

namespace Chip8

/-- A clock of the host: any sequence of readings, moved on by what goes by besides. -/
structure Clock where
  /-- What the reading with a number shows, if nothing goes by besides. -/
  readings : Nat → Int
  /-- How many readings there have been. -/
  count : Nat
  /-- How much has gone by besides. -/
  passed : Int

namespace Clock

/-- A clock that each reading moves on by `step`. -/
def steady (start step : Int) : Clock :=
  ⟨fun k => start + k * step, 0, 0⟩

/-- The instant of the last reading and of what has gone by since. -/
def now (c : Clock) : Int :=
  c.readings c.count + c.passed

/-- The clock after a reading; its instant is what was read. -/
def read (c : Clock) : Clock :=
  { c with count := c.count + 1 }

def advance (c : Clock) (ns : Int) : Clock :=
  { c with passed := c.passed + ns }

theorem now_advance (c : Clock) (ns : Int) : (c.advance ns).now = c.now + ns :=
  (Int.add_assoc ..).symm

end Clock

namespace Pace

open Binary64 (ConversionError)

def second : Float := 1000000000

def defaultRate : Float := 500

def timerFrequency : Float := 60

/-- The usual time between two showings of the display. -/
def refreshPeriod : Float := 1 / 60

/-- A number of instructions, rounded, but at least one. -/
def interval (instructions : Float) : Except ConversionError Nat :=
  (Binary64.round instructions).map fun n => (max 1 n).toNat

/-- The instructions from one tick of the timers to the next. -/
def timerInterval (rate frequency : Float) : Except ConversionError Nat :=
  interval (rate / frequency)

def frameInterval (rate refresh : Float) : Except ConversionError Nat :=
  interval (rate * refresh)

/-- The instant at which the count was zero, if `count` instructions at the given rate have led up
to `now`. -/
def baseTime (now count : Int) (rate : Float) : Except ConversionError Int :=
  if rate ≤ 0 then .ok now
  else do
    let elapsed ← Binary64.truncate ((← Binary64.ofInt? count) / rate * second)
    return now - elapsed

/-- The instructions that are due when `elapsed` nanoseconds have gone by since the count was
zero. -/
def instructionsDue (elapsed count : Int) (rate : Float) : Except ConversionError Int := do
  let target ← Binary64.truncate ((← Binary64.ofInt? elapsed) * rate / second)
  return max 0 (target - count)

/-- The time that one instruction takes, in seconds. -/
def period (rate : Float) : Float :=
  1 / rate

def seconds (now : Int) : Except ConversionError Float :=
  (Binary64.ofInt? now).map (· / second)

end Pace

/-- A second clock of the host, in seconds.  What a reading shows depends on its number, and it may
depend on the instant of the clock that is kept in nanoseconds. -/
structure WallClock where
  reading : Nat → Int → Except Binary64.ConversionError Float

namespace WallClock

/-- The wall clock that always shows the instant of the other clock. -/
def ofInstant : WallClock :=
  ⟨fun _ now => Pace.seconds now⟩

/-- The wall clock that goes by its own readings. -/
def ofReadings (readings : Nat → Float) : WallClock :=
  ⟨fun k _ => .ok (readings k)⟩

end WallClock

/-- The instant that the count zero of an emulated clock belongs to, kept beside the host's
clock. -/
structure TimeBase where
  clock : Clock
  base : Int

namespace TimeBase

def ofClock (c : Clock) : TimeBase :=
  ⟨c.read, c.read.now⟩

def reset (t : TimeBase) (count : Int) (rate : Float) :
    TimeBase × Except Binary64.ConversionError Int :=
  let clock := t.clock.read
  match Pace.baseTime clock.now count rate with
  | .ok base => (⟨clock, base⟩, .ok base)
  | .error e => ({ t with clock }, .error e)

end TimeBase

end Chip8
