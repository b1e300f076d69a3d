import Chip8.Display.Picture
import Chip8.Host.Basic

/-!
# Calls on engines

What a host does with one engine.  The calls that want the engine for itself are
refused while it makes a step; when such a call ends, however it ends, the engine
is free again.

A step may need a random byte.  The request that waits before the byte is then
made in the middle of the step, by the function `perform` that these definitions
are given.  If it is refused, the refusal leaves the step, with the program
counter already moved.  A refusal that is itself a reason to halt halts the
program instead.
-/

namespace Chip8

namespace HostM

variable (perform : Request → HostM Reply)

/-- Does something with the engine for itself. -/
def exclusive {α : Type} (c : Nat) (activity : Activity) (x : HostM α) : HostM α := do
  if (← engine c).busy then throw (.busy activity)
  modifyEngine c fun e => { e with busy := true }
  let result ← attempt x
  modifyEngine c fun e => { e with busy := false }
  ofExcept result

/-- Takes the next random byte of an engine, after the request that waits before it. -/
def drawByte (c : Nat) : HostM UInt8 := do
  let source := (← engine c).source
  modifyEngine c fun e => { e with source := e.source.advance }
  match source.next? with
  | none => return 0
  | some draw =>
    match draw.before with
    | none => pure ()
    | some r => note (.reply (← perform r))
    return UInt8.ofInt draw.value

def halt (c : Nat) (address : Int) (reason : HaltReason) : HostM Status := do
  modifyMachine c (·.halt address reason)
  log (Engine.haltLine address reason)
  return .halted reason

def stepMachine (c : Nat) : HostM Status := do
  let e ← engine c
  let m := e.machine
  match m.halted with
  | some reason => return .halted reason
  | none =>
    logAll e.fetchLines
    match m.advance with
    | .completed m' => do
      setMachine c m'.count
      return .continue
    | .waiting m' => do
      setMachine c (m'.setCounter m.counter)
      return .awaitingKey
    | .halted m' reason => do
      setMachine c m'
      halt c m.counter reason
    | .refused m' value => do
      setMachine c m'
      throw (.timerOutOfRange value)
    | .drawing m' x mask => do
      setMachine c m'
      match ← attempt (drawByte perform c) with
      | .ok byte => do
        modifyMachine c (·.supply x mask byte)
        return .continue
      | .error (.halting reason) => halt c m.counter reason
      | .error r => throw r

def stepEngine (c : Nat) : HostM Status := do
  if !(← engine c).started then throw .notStarted
  let status ← exclusive c .step (stepMachine perform c)
  modifyEngine c fun e => { e with lastStatus := some status }
  return status

def tickEngine (c : Nat) : HostM Unit :=
  exclusive c .tickTimers (modifyMachine c Machine.tickTimers)

def tickTimes (c : Nat) : Nat → HostM Unit
  | 0 => pure ()
  | n + 1 => do
    tickEngine c
    tickTimes c n

/-- So many steps, with what each of them reports and the state after it. -/
def stepTimes (c : Nat) : Nat → HostM (List (Status × String))
  | 0 => pure []
  | n + 1 => do
    let status ← stepEngine perform c
    let state := (← engine c).stateLine
    return (status, state) :: (← stepTimes c n)

/-- Steps that continue, up to a number of them and the first that does not; how many steps there
were, and what the last one reported. -/
def executeUpTo (c : Nat) (done : Nat) (last : Option Status) : Nat → HostM (Nat × Option Status)
  | 0 => pure (done, last)
  | n + 1 => do
    let status ← stepEngine perform c
    if status.isContinue then executeUpTo c (done + 1) (some status) n
    else return (done + 1, some status)

def setKey (c : Nat) (code : Int) (down : Bool) : HostM Unit :=
  exclusive c .changeKeys do
    let key ← required (.keyOutOfRange code) (Keypad.key? code)
    modifyMachine c fun m => { m with keypad := m.keypad.set key down }

def readScreen (c : Nat) : HostM (List String) :=
  exclusive c .readDisplay do
    return (← machine c).display.hexRows

def writeBlock (c : Nat) (address : Int) (data : List UInt8) : HostM Unit := do
  let written := (← machine c).memory.writeBlock address (data.map fun b => (b.toNat : Int))
  modifyMachine c fun m => { m with memory := written.1 }
  ofMemory written.2

/-- Loads a program into an engine: the memory first, and then the image. -/
def loadRom (c : Nat) (data : List UInt8) (name : String) : HostM Cartridge := do
  if (← engine c).started then throw .romAfterStart
  let data ← ofExcept (Cartridge.check data)
  exclusive c .loadRom (writeBlock c programStart data)
  let rom : Cartridge := ⟨data, name, none⟩
  modifyEngine c fun e => { e with rom := some rom }
  log (Engine.loadedLine data.length name)
  return rom

def readRomFile (path : String) : HostM Cartridge := do
  let path := Text.normalPath path
  let data ← required (.missingRom path) ((← get).files.find? path)
  if Cartridge.hasUnusualSuffix path then
    log ⟨.debug, .romFile, "unusual ROM suffix " ++ Text.fileSuffix path ++ " for " ++ path⟩
  let data ← ofExcept (Cartridge.check data)
  log ⟨.info, .romFile, "read ROM " ++ path ++ " (" ++ toString data.length ++ " bytes)"⟩
  return ⟨data, Cartridge.nameOfFile path, some path⟩

def loadRomFile (c : Nat) (path : String) : HostM Cartridge := do
  let rom ← readRomFile path
  let _ ← loadRom c rom.data rom.name
  modifyEngine c fun e => { e with rom := some rom }
  return rom

/-- Starts an engine; the handle is for its generation. -/
def startEngine (c : Nat) : HostM Nat := do
  if (← engine c).retired then throw .retired
  if (← engine c).rom.isNone then throw .noRom
  modifyEngine c fun e => { e with started := true }
  addHandle ⟨c, (← engine c).generation⟩

/-! ### Handles -/

def stepHandle (x : Handle) : HostM Status := do
  if !(← isCurrent x) then throw (.stale x.generation)
  stepEngine perform x.engine

/-- A tick through a handle; nothing happens if it is not current. -/
def tickHandle (x : Handle) : HostM Unit := do
  if ← isCurrent x then tickEngine x.engine

end HostM

end Chip8
