import Chip8.CallStack
import Chip8.Dialect
import Chip8.Display.Basic
import Chip8.Instruction
import Chip8.Keypad
import Chip8.Memory.Layout
import Chip8.Timers

/-!
# The machine

Memory, display, keypad, timers, registers and stack, and the dialect in which
the machine reads its instructions.  Programs keep the sixteen registers within
a byte; a host that writes a register directly may put any integer there.
-/

namespace Chip8

structure Registers where
  /-- `V0` to `VF`. -/
  v : Vector Int 16
  /-- The index register `I`. -/
  index : Int
  /-- The program counter. -/
  counter : Int
  deriving DecidableEq

namespace Registers

def fresh : Registers :=
  ⟨Vector.replicate 16 0, 0, programStart⟩

def get (r : Registers) (x : Register) : Int :=
  r.v.get x

def set (r : Registers) (x : Register) (value : Int) : Registers :=
  { r with v := r.v.set x value x.isLt }

theorem get_set (r : Registers) (x y : Register) (value : Int) :
    (r.set x value).get y = if x = y then value else r.get y := by
  by_cases h : x = y
  · subst h
    rw [if_pos rfl]
    exact Vector.getElem_set_self x.isLt
  · rw [if_neg h]
    exact Vector.getElem_set_ne x.isLt y.isLt (Fin.val_ne_of_ne h)

def setFlag (r : Registers) (flag : Bool) : Registers :=
  r.set flagRegister (if flag then 1 else 0)

/-- Writes the registers from `V0` on. -/
def setFirst (r : Registers) (values : List UInt8) : Registers :=
  { r with v := Vector.ofFn fun (i : Fin 16) =>
      match values[i.val]? with
      | some b => (b.toNat : Int)
      | none => r.v.get i }

def first (r : Registers) (count : Nat) : List Int :=
  r.v.toList.take count

end Registers

structure Machine where
  memory : Ram
  display : Display
  keypad : Keypad
  timers : Timers
  registers : Registers
  stack : CallStack
  dialect : Dialect
  /-- Why the program has stopped for good, if it has. -/
  halted : Option HaltReason
  /-- How many instructions have been completed. -/
  completed : Nat
  deriving DecidableEq

namespace Machine

def fresh (dialect : Dialect) : Machine where
  memory := Ram.fresh
  display := Display.fresh
  keypad := Keypad.fresh
  timers := Timers.fresh
  registers := Registers.fresh
  stack := CallStack.empty CallStack.machineDepth
  dialect := dialect
  halted := none
  completed := 0

def v (m : Machine) (x : Register) : Int :=
  m.registers.get x

def counter (m : Machine) : Int :=
  m.registers.counter

def index (m : Machine) : Int :=
  m.registers.index

def setV (m : Machine) (x : Register) (value : Int) : Machine :=
  { m with registers := m.registers.set x value }

/-- Writes a register and then the flag register, so that the flag stays where both are one. -/
def setWithFlag (m : Machine) (x : Register) (value : Int) (flag : Bool) : Machine :=
  { m with registers := (m.registers.set x value).setFlag flag }

def setCounter (m : Machine) (address : Int) : Machine :=
  { m with registers := { m.registers with counter := address } }

def setIndex (m : Machine) (address : Int) : Machine :=
  { m with registers := { m.registers with index := address } }

def tickTimers (m : Machine) : Machine :=
  { m with timers := m.timers.tick }

end Machine

end Chip8
