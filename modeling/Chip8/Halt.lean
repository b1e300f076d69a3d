import Chip8.Text.Hex

/-!
# Why a program stops for good

A program ends at a zero word.  Everything else that stops it is a fault: a word
outside the instruction set, a call or a return that the stack cannot serve, or
an address outside the memory.
-/

namespace Chip8

inductive HaltReason
  /-- The program counter came to a zero word at this address. -/
  | programEnd (address : Int)
  /-- The word is no instruction. -/
  | unsupported (word : Int)
  /-- A call would have made the stack this deep. -/
  | stackOverflow (depth : Int)
  /-- A return met an empty stack. -/
  | stackUnderflow
  /-- The address lies outside the memory. -/
  | addressOutOfRange (address : Int)
  deriving DecidableEq

namespace HaltReason

/-- A fault is the program's own mistake; coming to the end is none. -/
def isFault : HaltReason → Bool
  | programEnd _ => false
  | _ => true

def message : HaltReason → String
  | programEnd a => "no more opcodes at 0x" ++ Text.hex 3 a
  | unsupported w => "unsupported instruction 0x" ++ Text.hex 4 w
  | stackOverflow n => "call stack overflow (depth " ++ toString n ++ ")"
  | stackUnderflow => "return with empty call stack"
  | addressOutOfRange a =>
    "address out of range: " ++ if 0 ≤ a then "0x" ++ Text.hex 1 a else toString a

end HaltReason

inductive Status
  | continue
  /-- The program waits for a key to be pressed. -/
  | awaitingKey
  | halted (reason : HaltReason)
  deriving DecidableEq

namespace Status

def isContinue : Status → Bool
  | .continue => true
  | _ => false

def isAwaitingKey : Status → Bool
  | awaitingKey => true
  | _ => false

def isHalted : Status → Bool
  | halted _ => true
  | _ => false

def message : Status → String
  | .continue => "continue"
  | awaitingKey => "awaiting_key"
  | halted r => "halted: " ++ r.message

end Status

end Chip8
