import Chip8.Halt

/-!
# The call stack

Return addresses of sixteen bits.  A stack has a depth that it does not exceed;
a call that would, and a return from an empty stack, are refused.  What is refused
leaves the stack that there is at that moment.
-/

namespace Chip8

structure CallStack where
  /-- How many entries there may be. -/
  depth : Int
  /-- The entries, the latest first. -/
  entries : List Nat
  deriving DecidableEq

namespace CallStack

def machineDepth : Int := 16

def empty (depth : Int) : CallStack :=
  ⟨depth, []⟩

def pointer (s : CallStack) : Nat :=
  s.entries.length

/-- Puts the low sixteen bits of an address on top. -/
def push (s : CallStack) (address : Int) : CallStack × Except HaltReason Unit :=
  if s.depth ≤ s.pointer then (s, .error (.stackOverflow (s.pointer + 1)))
  else ({ s with entries := (address % 0x10000).toNat :: s.entries }, .ok ())

def pop (s : CallStack) : CallStack × Except HaltReason Nat :=
  match s.entries with
  | [] => (s, .error .stackUnderflow)
  | a :: r => ({ s with entries := r }, .ok a)

/-- The entries, the earliest first. -/
def toList (s : CallStack) : List Nat :=
  s.entries.reverse

end CallStack

end Chip8
