import Chip8.Instruction
import Chip8.Pace

/-!
# Requests of a host

What a host may ask for: engines and sessions, the calls on the current engine
and on handles, and the pacer.  Requests can wait inside other requests.  The
source of random bytes, the frame callback of a pacer and the sleep of a paced
run may each make requests of their own in the middle of a call.
-/

namespace Chip8

/-- A random number, and a request that is made just before the number is given. -/
structure Draw (R : Type) where
  before : Option R
  value : Int

/-- Requests by the number of the occasion on which they are made. -/
structure Script (R : Type) where
  entries : List (Nat × List R)

namespace Script

variable {R : Type}

def requests (s : Script R) (occasion : Nat) : List R :=
  (s.entries.lookup occasion).getD []

def empty : Script R :=
  ⟨[]⟩

end Script

inductive Request
  /-- A new engine, with variants by their names and a source of random numbers. -/
  | newEngine (variants : List String) (draws : List (Draw Request)) (generation : Int)
  /-- Makes another engine the current one. -/
  | use (engine : Nat)
  | newSession (variants : List String) (draws : List (Draw Request))
  | reload (data : List UInt8) (name : String)
  | reloadFile (path : String)
  /-- A reload as the window makes it: a failure is reported in the log only. -/
  | reloadOrReport (path : String)
  | generation
  | startSession
  | loadRom (data : List UInt8) (name : String)
  | loadRomFile (path : String)
  | rom
  | start
  | retire
  /-- A number of steps, each with its status. -/
  | step (count : Int)
  /-- Steps up to a number, as long as they continue. -/
  | execute (limit : Int)
  | tick (count : Int)
  | lastStatus
  | trace (on : Bool)
  | traceMemory (on : Bool)
  | key (code : Int) (down : Bool)
  | releaseAll
  /-- A key of the host's keyboard. -/
  | hostKey (key : Int) (down : Bool)
  | setRegisters (v : List (Register × Int)) (index counter flag : Option Int)
  | peek (address count : Int)
  | poke (address : Int) (data : List UInt8)
  /-- A byte of the program's part of the memory. -/
  | programByte (index : Int)
  | programInfo
  | screen
  | memory
  | variants
  | stepHandle (handle : Nat)
  | tickHandle (handle : Nat)
  | isCurrent (handle : Nat)
  /-- A new pacer over a handle, with a new clock and perhaps a frame callback. -/
  | newPacer (handle : Nat) (rate timerFrequency refresh : Float)
      (frames : Option (Script Request)) (clock : Clock)
  | rates
  | powerOn
  | powerOff
  | pause
  | resume
  | isRunning
  | runSteps (count : Int)
  | setRate (rate : Float)
  | instructionsDue
  | advanceClock (ns : Int)
  | lastPaced
  | caption
  /-- A paced run of so many seconds of a wall clock. -/
  | runFor (wall : WallClock) (seconds : Float) (maxBatch : Int) (sleeps : Script Request)
      (limit : Int)
  /-- A paced run until the pacer has stopped. -/
  | run (maxBatch : Int) (sleeps : Script Request) (limit : Int)

/-- A source of random bytes: the numbers of a list, over and over. -/
structure RandomSource where
  draws : List (Draw Request)
  /-- The place of the next number. -/
  position : Nat

namespace RandomSource

def ofDraws (draws : List (Draw Request)) : RandomSource :=
  ⟨draws, 0⟩

def next? (s : RandomSource) : Option (Draw Request) :=
  s.draws[s.position]?

def advance (s : RandomSource) : RandomSource :=
  { s with position := (s.position + 1) % s.draws.length }

end RandomSource

end Chip8
