import Chip8.Cartridge
import Chip8.Host.Request
import Chip8.Log
import Chip8.Machine.Step

/-!
# Engines

An engine is a machine that a host may load, start and retire.  A program is
loaded before the start; a retired engine cannot be started.  While a step is
being made the engine is busy, and what would interfere with the step is
refused.
-/

namespace Chip8

structure Engine where
  machine : Machine
  source : RandomSource
  rom : Option Cartridge
  started : Bool
  retired : Bool
  /-- Whether a step, or another call that wants the engine for itself, is in progress. -/
  busy : Bool
  /-- What the last step reported. -/
  lastStatus : Option Status
  /-- The session that the engine belongs to. -/
  owner : Option Nat
  generation : Int
  /-- Whether each instruction is reported. -/
  tracing : Bool
  /-- Whether each byte read or written is reported. -/
  tracingMemory : Bool

/-- A handle on an engine, good for one generation. -/
structure Handle where
  engine : Nat
  generation : Int
  deriving DecidableEq

namespace Engine

def fresh (dialect : Dialect) (draws : List (Draw Request)) (owner : Option Nat)
    (generation : Int) : Engine where
  machine := Machine.fresh dialect
  source := RandomSource.ofDraws draws
  rom := none
  started := false
  retired := false
  busy := false
  lastStatus := none
  owner := owner
  generation := generation
  tracing := false
  tracingMemory := false

def loadedLine (size : Nat) (name : String) : LogLine where
  level := .info
  source := .engine
  message := "loaded " ++ (if name.isEmpty then "" else name ++ ": ") ++ toString size ++
    " bytes at 0x" ++ Text.hex 3 programStart

/-! ### Reports -/

/-- The report of an instruction that is about to be carried out. -/
def traceLine (m : Machine) (w : Word) : LogLine where
  level := .debug
  source := .processor
  message := "pc=" ++ Text.hex 3 m.counter ++ " op=" ++ w.text ++ " I=" ++ Text.hex 3 m.index ++
    " V=" ++ " ".intercalate (m.registers.v.toList.map (Text.hex 2))

def accessLine (a : MemoryAccess) : LogLine :=
  ⟨.debug, .memory, a.message⟩

/-- The reports that the fetch of an instruction leaves. -/
def fetchLines (e : Engine) : List LogLine :=
  let m := e.machine
  match m.fetch with
  | .error _ => []
  | .ok w =>
    (if e.tracingMemory then (MemoryAccess.ofLoad16 m.memory m.counter).map accessLine else []) ++
      if e.tracing then [traceLine m w] else []

def haltLine (address : Int) (reason : HaltReason) : LogLine where
  level := if reason.isFault then .warning else .info
  source := .processor
  message := "halted at 0x" ++ Text.hex 3 address ++ ": " ++ reason.message

/-- Counter, index register, registers, stack, timers, ticks, completed instructions, the key
pressed last, lit pixels, and a letter for each flag that holds. -/
def stateLine (e : Engine) : String :=
  let m := e.machine
  let flag (holds : Bool) (letter : String) := if holds then letter else ""
  "PC=" ++ Text.hex 3 m.counter ++ " I=" ++ Text.hex 3 m.index ++
    " V=" ++ String.join (m.registers.v.toList.map (Text.hexLower 2)) ++
    " SP=" ++ ",".intercalate (m.stack.toList.map fun (a : Nat) => Text.hex 3 a) ++
    " DT=" ++ toString m.timers.delay.toNat ++ " ST=" ++ toString m.timers.sound.toNat ++
    " T=" ++ toString m.timers.ticks ++ " N=" ++ toString m.completed ++
    " K=" ++ (match m.keypad.pressed with
      | some k => Text.hex 1 k.val
      | none => "-") ++
    " L=" ++ toString m.display.lit ++
    " F=" ++ flag e.started "S" ++ flag m.halted.isSome "H" ++ flag e.retired "R" ++
      flag m.keypad.awaiting "W"

end Engine

end Chip8
