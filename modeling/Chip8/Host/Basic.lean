import Chip8.Files
import Chip8.Pacer

/-!
# The host

Everything that a host holds: engines, handles, sessions, pacers and clocks, each
in the order in which they were made; which of them is the current one; files;
and what has been noted and logged.

`HostM` is the type of what a host does.  It may be refused, and what has been
done before the refusal stays done.
-/

namespace Chip8

/-- Holds the current engine and counts the engines that it has had. -/
structure Session where
  dialect : Dialect
  /-- The random numbers that each of its engines begins with. -/
  draws : List (Draw Request)
  generation : Nat
  engine : Option Nat

inductive Reply
  | nothing
  | flag (holds : Bool)
  | number (n : Int)
  | status (status : Option Status)
  /-- The status of each step, and the state after it. -/
  | statuses (steps : List (Status × String))
  | executed (steps : Nat) (status : Option Status)
  | image (rom : Option Cartridge)
  | bytes (data : List UInt8)
  /-- The rows of a block that are not all zero. -/
  | rows (rows : List (Nat × List UInt8))
  | screen (rows : List String)
  | names (names : List String)
  | programInfo (start capacity size : Nat) (rows : List (Nat × List UInt8))
  | handle (number : Nat) (generation : Int) (isCurrent : Bool)
  | reloaded (engine : Option Nat) (generation : Nat)
  | reloadedFile (engine : Nat) (generation : Nat) (rom : Cartridge)
  | generation (generation : Nat) (engine : Option Nat)
  | rates (timerInterval : Nat) (period : Float) (base : Int) (rate : Float)
  /-- The last status, the number of sleeps and the length of the last one. -/
  | paced (status : Option Status) (sleeps : Nat) (last : Float)
  | text (text : String)

/-- What happened during a request. -/
inductive Note
  /-- The frame callback was called for the `k`-th time, at a count. -/
  | frame (k : Nat) (count : Nat)
  | reply (reply : Reply)

structure Host where
  engines : Array Engine
  handles : Array Handle
  sessions : Array Session
  pacers : Array Pacer
  clocks : Array Clock
  /-- The current engine. -/
  current : Option Nat
  session : Option Nat
  pacer : Option Nat
  clock : Option Nat
  /-- How often a frame callback has been called. -/
  frames : Nat
  files : Files
  notes : Array Note
  log : Array LogLine

namespace Host

def ofFiles (files : Files) : Host where
  engines := #[]
  handles := #[]
  sessions := #[]
  pacers := #[]
  clocks := #[]
  current := none
  session := none
  pacer := none
  clock := none
  frames := 0
  files := files
  notes := #[]
  log := #[]

end Host

/-- What a host does: it may be refused, and it changes the host. -/
abbrev HostM := ExceptT Refusal (StateM Host)

namespace HostM

def ofExcept {α : Type} : Except Refusal α → HostM α
  | .ok a => pure a
  | .error r => throw r

def ofConversion {α : Type} (x : Except Binary64.ConversionError α) : HostM α :=
  ofExcept (x.mapError Refusal.conversion)

def ofMemory {α : Type} (x : Except OutOfRange α) : HostM α :=
  ofExcept (x.mapError Refusal.ofOutOfRange)

/-- Does something and hands on how it ended. -/
def attempt {α : Type} (x : HostM α) : HostM (Except Refusal α) :=
  fun h => match x h with
    | (r, h') => (.ok r, h')

def required {α : Type} (r : Refusal) : Option α → HostM α
  | some a => pure a
  | none => throw r

/-! ### Engines -/

def engine (c : Nat) : HostM Engine := do
  required .noEngine (← get).engines[c]?

def modifyEngine (c : Nat) (f : Engine → Engine) : HostM Unit :=
  modify fun h => { h with engines := h.engines.modify c f }

def machine (c : Nat) : HostM Machine := do
  return (← engine c).machine

def modifyMachine (c : Nat) (f : Machine → Machine) : HostM Unit :=
  modifyEngine c fun e => { e with machine := f e.machine }

def setMachine (c : Nat) (m : Machine) : HostM Unit :=
  modifyEngine c fun e => { e with machine := m }

def addEngine (e : Engine) : HostM Nat :=
  modifyGet fun h => (h.engines.size, { h with engines := h.engines.push e })

def currentEngine : HostM Nat := do
  required .noEngine (← get).current

def setCurrent (c : Nat) : HostM Unit :=
  modify fun h => { h with current := some c }

/-! ### Handles and sessions -/

def handle (n : Nat) : HostM Handle := do
  required .noHandle (← get).handles[n]?

def addHandle (x : Handle) : HostM Nat :=
  modifyGet fun h => (h.handles.size, { h with handles := h.handles.push x })

def currentSession : HostM Nat := do
  required .noSession (← get).session

def sessionAt (s : Nat) : HostM Session := do
  required .noSession (← get).sessions[s]?

def modifySession (s : Nat) (f : Session → Session) : HostM Unit :=
  modify fun h => { h with sessions := h.sessions.modify s f }

/-- A handle is current if its engine has not been retired, and its generation is the one of the
session that owns the engine, or of the engine itself if no session does. -/
def isCurrent (x : Handle) : HostM Bool := do
  let e ← engine x.engine
  if e.retired then return false
  match e.owner with
  | none => return x.generation == e.generation
  | some s => return x.generation == ((← sessionAt s).generation : Int)

/-! ### Pacers and clocks -/

def pacerAt (p : Nat) : HostM Pacer := do
  required .noPacer (← get).pacers[p]?

def modifyPacer (p : Nat) (f : Pacer → Pacer) : HostM Unit :=
  modify fun h => { h with pacers := h.pacers.modify p f }

def currentPacer : HostM Nat := do
  required .noPacer (← get).pacer

/-- Reads a clock, which goes on to its next reading. -/
def readClock (k : Nat) : HostM Int := do
  modify fun h => { h with clocks := h.clocks.modify k Clock.read }
  return (← required .noPacer (← get).clocks[k]?).now

def currentClock : HostM Nat := do
  required .noPacer (← get).clock

/-- The instant of the current clock, without a reading. -/
def now : HostM Int := do
  return (← required .noPacer (← get).clocks[← currentClock]?).now

def readWall (wall : WallClock) (number : Nat) : HostM Float := do
  ofConversion (wall.reading number (← now))

def advanceClock (ns : Int) : HostM Unit := do
  let k ← currentClock
  modify fun h => { h with clocks := h.clocks.modify k (·.advance ns) }

/-! ### Notes and log -/

def note (n : Note) : HostM Unit :=
  modify fun h => { h with notes := h.notes.push n }

def log (line : LogLine) : HostM Unit :=
  modify fun h => { h with log := h.log.push line }

def logAll (lines : List LogLine) : HostM Unit :=
  lines.forM log

end HostM

end Chip8
