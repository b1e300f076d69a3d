import Chip8.Caption
import Chip8.Host.Pacing
import Chip8.Host.Session
import Chip8.Keyboard

/-!
# Performing requests

`respond` says what each request does, given a function that performs the
requests made in the middle of it.  `perform` ties the knot, with a limit to how
deep requests may be nested.

A host script is a list of requests; `play` performs them one after the other
and keeps for each what a host sees of it.
-/

namespace Chip8

namespace HostM

def handleReply (n : Nat) : HostM Reply := do
  let x ← handle n
  return .handle n x.generation (← isCurrent x)

def dialectOf (names : List String) : HostM Dialect :=
  ofExcept ((Dialect.ofNames names).mapError Refusal.unknownVariant)

/-- Writes registers of an engine: the numbered ones, index, counter and, cut to a byte, the
flag. -/
def setRegisters (c : Nat) (v : List (Register × Int)) (index counter flag : Option Int) :
    HostM Reply := do
  modifyMachine c fun m => v.foldl (fun m (x, value) => m.setV x value) m
  index.forM fun a => modifyMachine c (·.setIndex a)
  counter.forM fun a => modifyMachine c (·.setCounter a)
  match flag with
  | none => return .nothing
  | some value =>
    modifyMachine c (·.setV flagRegister (value % 0x100))
    return .number (value % 0x100)

def peek (c : Nat) (address count : Int) : HostM Reply := do
  if count < 0 then throw .negativeLength
  let m ← machine c
  return .bytes (← ofMemory (m.memory.readBlock address count.toNat))

def poke (c : Nat) (address : Int) (data : List UInt8) : HostM Reply := do
  writeBlock c address data
  return .number data.length

/-- Reads a byte of the program's part of an engine's memory. -/
def programByte (c : Nat) (index : Int) : HostM Reply := do
  if index < 0 ∨ (programCapacity : Int) ≤ index then throw .programIndexOutOfRange
  let e ← engine c
  let address := programStart + index
  if e.tracingMemory then
    logAll ((MemoryAccess.ofLoad8 e.machine.memory address).map Engine.accessLine)
  return .number (← ofMemory (e.machine.memory.load8 address)).toNat

def respond (perform : Request → HostM Reply) : Request → HostM Reply
  | .newEngine names draws generation => do
    let dialect ← dialectOf names
    let c ← addEngine (Engine.fresh dialect draws none generation)
    setCurrent c
    return .number c
  | .use c => do
    let _ ← engine c
    setCurrent c
    return .nothing
  | .newSession names draws => do
    let dialect ← dialectOf names
    modify fun h =>
      { h with
        sessions := h.sessions.push ⟨dialect, draws, 0, none⟩
        session := some h.sessions.size }
    return .nothing
  | .reload data name => do
    let s ← currentSession
    let c ← reload s data name
    setCurrent c
    return .reloaded (some c) (← sessionAt s).generation
  | .reloadFile path => do
    let s ← currentSession
    let (c, rom) ← reloadFile s path
    setCurrent c
    return .reloadedFile c (← sessionAt s).generation rom
  | .reloadOrReport path => do
    let s ← currentSession
    let c? ← reloadOrReport s path
    c?.forM setCurrent
    return .reloaded c? (← sessionAt s).generation
  | .generation => do
    let session ← sessionAt (← currentSession)
    return .generation session.generation session.engine
  | .startSession => do handleReply (← startSession (← currentSession))
  | .loadRom data name => do return .image (← loadRom (← currentEngine) data name)
  | .loadRomFile path => do return .image (← loadRomFile (← currentEngine) path)
  | .rom => do return .image (← engine (← currentEngine)).rom
  | .start => do handleReply (← startEngine (← currentEngine))
  | .retire => do
    retire (← currentEngine)
    return .nothing
  | .step count => do
    let c ← currentEngine
    if count = 1 then return .status (← stepEngine perform c)
    else return .statuses (← stepTimes perform c count.toNat)
  | .execute limit => do
    let (steps, status) ← executeUpTo perform (← currentEngine) 0 none limit.toNat
    return .executed steps status
  | .tick count => do
    tickTimes (← currentEngine) count.toNat
    return .nothing
  | .lastStatus => do return .status (← engine (← currentEngine)).lastStatus
  | .trace on => do
    modifyEngine (← currentEngine) fun e => { e with tracing := on }
    return .nothing
  | .traceMemory on => do
    modifyEngine (← currentEngine) fun e => { e with tracingMemory := on }
    return .nothing
  | .key code down => do
    setKey (← currentEngine) code down
    return .nothing
  | .releaseAll => do
    modifyMachine (← currentEngine) fun m => { m with keypad := m.keypad.releaseAll }
    return .nothing
  | .hostKey number down => do
    let c ← currentEngine
    match Keyboard.key? number with
    | none => return .flag false
    | some key => do
      setKey c key.val down
      return .flag true
  | .setRegisters v index counter flag => do
    setRegisters (← currentEngine) v index counter flag
  | .peek address count => do peek (← currentEngine) address count
  | .poke address data => do poke (← currentEngine) address data
  | .programByte index => do programByte (← currentEngine) index
  | .programInfo => do
    let m ← machine (← currentEngine)
    return .programInfo programStart programCapacity programCapacity
      (filledRows m.memory.programBytes)
  | .screen => do return .screen (← readScreen (← currentEngine))
  | .memory => do return .rows (filledRows (← machine (← currentEngine)).memory.bytes)
  | .variants => do return .names (← machine (← currentEngine)).dialect.enabledNames
  | .stepHandle n => do return .status (← stepHandle perform (← handle n))
  | .tickHandle n => do
    tickHandle (← handle n)
    return .nothing
  | .isCurrent n => do return .flag (← isCurrent (← handle n))
  | .newPacer n rate timerFrequency refresh frames clock => do
    let x ← handle n
    let k ← modifyGet fun h =>
      (h.clocks.size,
        { h with clocks := h.clocks.push clock, clock := some h.clocks.size, frames := 0 })
    let p ← newPacer x rate timerFrequency refresh frames k
    modify fun h => { h with pacer := some p }
    rates p
  | .rates => do rates (← currentPacer)
  | .powerOn => do
    powerOn (← currentPacer)
    return .nothing
  | .powerOff => do
    powerOff perform (← currentPacer)
    return .nothing
  | .pause => do
    pause perform (← currentPacer)
    return .nothing
  | .resume => do
    resume perform (← currentPacer)
    return .nothing
  | .isRunning => do return .flag ((← pacerAt (← currentPacer)).power = .running)
  | .runSteps count => do return .status (← runSteps perform (← currentPacer) count)
  | .setRate rate => do
    let p ← currentPacer
    setRate p rate
    rates p
  | .instructionsDue => do return .number (← instructionsDue (← currentPacer))
  | .advanceClock ns => do
    let _ ← currentPacer
    advanceClock ns
    return .nothing
  | .lastPaced => do return .status (← pacerAt (← currentPacer)).lastStatus
  | .caption => do
    let pacer ← pacerAt (← currentPacer)
    return .text (caption (← engine (← currentEngine)) pacer.power)
  | .runFor wall seconds maxBatch sleeps limit => do
    runFor perform (← currentPacer) wall seconds maxBatch ⟨sleeps, limit⟩
  | .run maxBatch sleeps limit => do run perform (← currentPacer) maxBatch ⟨sleeps, limit⟩

/-- Performs a request, with requests nested at most so deep in it. -/
def performWithin : Nat → Request → HostM Reply
  | 0, _ => throw .nestedTooDeep
  | depth + 1, r => respond (performWithin depth) r

def nestingLimit : Nat := 500

def perform (r : Request) : HostM Reply :=
  performWithin nestingLimit r

end HostM

/-! ### Scripts of a host -/

/-- What a host sees of a request: how it ended, what was noted on the way, the state of the
current engine and of the current pacer after it, and the log. -/
structure Record where
  outcome : Except Refusal Reply
  notes : List Note
  state : Option String
  pacer : Option String
  log : List LogLine

namespace Host

def currentEngine? (h : Host) : Option Engine :=
  h.current.bind fun c => h.engines[c]?

/-- Count, power, pending cues, calls of the frame callback, and the instant of the clock. -/
def pacerLine? (h : Host) : Option String := do
  let pacer ← h.pacers[← h.pacer]?
  let clock ← h.clocks[← h.clock]?
  return "clock=" ++ toString pacer.count ++ " run=" ++ toString (Pacer.powerNumber pacer.power) ++
    " queue=" ++ toString pacer.schedule.size ++ " frames=" ++ toString h.frames ++
    " now=" ++ toString clock.now

def observe (h : Host) (r : Request) : Record × Host :=
  let (outcome, h) := HostM.perform r { h with notes := #[], log := #[] }
  (⟨outcome, h.notes.toList, h.currentEngine?.map Engine.stateLine, h.pacerLine?, h.log.toList⟩, h)

def play (h : Host) : List Request → List Record × Host
  | [] => ([], h)
  | r :: rest =>
    let (record, h) := h.observe r
    let (records, h) := h.play rest
    (record :: records, h)

end Host

end Chip8
