import Chip8.Host.Engine

/-!
# Calls on sessions

A reload builds a new engine, loads a program into it, retires the engine before
it and counts one generation more.  The new engine becomes one of the host's with
its program only, so a reload that is refused has changed nothing.
-/

namespace Chip8

namespace HostM

def retire (c : Nat) : HostM Unit :=
  modifyEngine c fun e => { e with retired := true }

/-- Loads a program into an engine that the host does not hold yet. -/
def loadNew (e : Engine) (data : List UInt8) (name : String) : HostM Engine := do
  let c ← addEngine e
  let result ← attempt (loadRom c data name)
  let e ← engine c
  modify fun h => { h with engines := h.engines.pop }
  let _ ← ofExcept result
  return e

/-- Puts a new engine with a program in the place of a session's engine. -/
def reload (s : Nat) (data : List UInt8) (name : String) : HostM Nat := do
  let session ← sessionAt s
  let generation := session.generation + 1
  let e ← loadNew (Engine.fresh session.dialect session.draws (some s) generation) data name
  session.engine.forM retire
  let c ← addEngine e
  modifySession s fun session => { session with generation, engine := some c }
  log ⟨.info, .session, "session generation " ++ toString generation ++ ": " ++
    (if name.isEmpty then toString data.length ++ " bytes" else name)⟩
  return c

def reloadFile (s : Nat) (path : String) : HostM (Nat × Cartridge) := do
  let rom ← readRomFile path
  let c ← reload s rom.data rom.name
  modifyEngine c fun e => { e with rom := some rom }
  return (c, rom)

/-- A refusal that says that there is no usable program. -/
def isLoadFailure : Refusal → Bool
  | .emptyRom | .oversizedRom .. | .missingRom _ | .noRom => true
  | .noDirectory _ | .notDirectory _ | .isDirectory _ => true
  | _ => false

/-- A reload from a file whose failure is reported in the log. -/
def reloadOrReport (s : Nat) (path : String) : HostM (Option Nat) := do
  match ← attempt (reloadFile s path) with
  | .ok (c, _) => return some c
  | .error r =>
    if isLoadFailure r then
      log ⟨.error, .window, "reload of " ++ Text.normalPath path ++ " failed: " ++ r.message⟩
      return none
    else throw r

def startSession (s : Nat) : HostM Nat := do
  startEngine (← required .emptySession (← sessionAt s).engine)

end HostM

end Chip8
